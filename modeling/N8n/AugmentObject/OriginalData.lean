import N8n.AugmentObject.AugmentObject
import N8n.Library.ObjectHeaps

/-! No operation changes the plain objects behind the first proxy: a program never has a handle
of one of them.
-/

namespace N8n.AugmentObject

open N8n.Objects

variable {P : Type} {original : Cells P} {heap : Heap P} {cells : Cells P}
  {toLength : Json P → Option Nat}

/-- The original objects are as they were, and neither a later object nor an object proxy has
one of them as a value that it would give away.
-/
structure Guarded (original : Cells P) (heap : Heap P) : Prop where
  kept : ∀ address, address < original.length → heap.cells[address]? = original[address]?
  bound : original.length ≤ heap.cells.length
  later
    : ∀ place key child,
        original.length ≤ place → Child heap.cells place key child → original.length ≤ child
  values
    : ∀ (id data : Nat) newData (deletedProperties : List Key) key address,
        heap.proxies[id]? = some (.object data newData deletedProperties)
        → newData.get? key = some (.handle (.plain address))
        → original.length ≤ address

/-- Only a plain handle could lead to an original object. -/
def Harmless (original : Cells P) (result : Result P Handle) : Prop :=
  ∀ address, result = .handle (.plain address) → original.length ≤ address

theorem Guarded.extend (holds : Guarded original heap)
    (fresh : Fresh heap.cells.length cells)
    : Guarded original ⟨heap.cells ++ cells, heap.proxies⟩ := by
  have bound := holds.bound
  constructor
  · intro address inside
    rw [List.getElem?_append_left (by omega)]
    exact holds.kept address inside
  · rw [List.length_append]
    omega
  · intro place key child isLater isChild
    rcases child_append.mp isChild with old | ⟨-, new⟩
    · exact holds.later place key child isLater old
    · have bounds := fresh.children _ _ _ new
      omega
  · exact holds.values

theorem Guarded.set {address : Nat} {table changed : Table (Value P)}
    (holds : Guarded original heap)
    (isLater : original.length ≤ address) (found : heap.cells[address]? = some table)
    (values : ∀ key child, changed.get? key = some (.ref child)
      → table.get? key = some (.ref child) ∨ original.length ≤ child)
    : Guarded original ⟨heap.cells.set address changed, heap.proxies⟩ := by
  have inside := (List.getElem?_eq_some_iff.mp found).1
  constructor
  · intro other isOriginal
    rw [List.getElem?_set_ne (by omega)]
    exact holds.kept other isOriginal
  · rw [List.length_set]
    exact holds.bound
  · intro place key child isLaterPlace isChild
    rcases (child_set inside).mp isChild with ⟨rfl, refers⟩ | ⟨-, old⟩
    · rcases values key child refers with old | isNew
      · exact holds.later _ key child isLater ⟨table, found, old⟩
      · exact isNew
    · exact holds.later place key child isLaterPlace old
  · exact holds.values

/-- The proxies may become others whose values are as harmless. -/
theorem Guarded.proxies {proxies : List (Augmented P)} (holds : Guarded original heap)
    (values : ∀ (id data : Nat) newData (deletedProperties : List Key) key address,
      proxies[id]? = some (.object data newData deletedProperties)
      → newData.get? key = some (.handle (.plain address))
      → original.length ≤ address)
    : Guarded original ⟨heap.cells, proxies⟩ :=
  ⟨holds.kept, holds.bound, holds.later, values⟩

theorem Guarded.setProxy {id : Nat} {changed : Augmented P} (holds : Guarded original heap)
    (values : ∀ (data : Nat) newData (deletedProperties : List Key) key address,
      changed = .object data newData deletedProperties
      → newData.get? key = some (.handle (.plain address))
      → original.length ≤ address)
    : Guarded original (heap.setProxy id changed) := by
  refine holds.proxies ?_
  intro other data newData deletedProperties key address isProxy isValue
  by_cases same : id = other
  · subst same
    have inside : id < heap.proxies.length := by
      have bound := (List.getElem?_eq_some_iff.mp isProxy).1
      rwa [List.length_set] at bound
    rw [List.getElem?_set_self inside] at isProxy
    exact values data newData deletedProperties key address (Option.some.inj isProxy) isValue
  · rw [List.getElem?_set_ne same] at isProxy
    exact holds.values other data newData deletedProperties key address isProxy isValue

/-- A plain value is either made a proxy, or no object has its address. -/
theorem Guarded.augment (holds : Guarded original heap) (value : NewValue P)
    : Guarded original (heap.augment value).2
      ∧ (heap.augment value).2.cells = heap.cells
      ∧ ∀ address, (heap.augment value).1 = .handle (.plain address) → original.length ≤ address := by
  have bound := holds.bound
  cases value with
  | handle h =>
      cases h with
      | proxy id => exact ⟨holds, rfl, fun _ isPlain => by simp [Heap.augment] at isPlain⟩
      | plain child =>
          cases found : heap.cells[child]? with
          | none =>
              simp only [Heap.augment, found]
              refine ⟨holds, trivial, ?_⟩
              intro address isPlain
              obtain rfl : child = address := by simpa using isPlain
              have outside := List.getElem?_eq_none_iff.mp found
              omega
          | some table =>
              simp only [Heap.augment, found]
              refine ⟨holds.proxies ?_, trivial, fun _ isPlain => by simp at isPlain⟩
              intro id data newData deletedProperties key address isProxy isValue
              rcases Nat.lt_or_ge id heap.proxies.length with old | new
              · rw [List.getElem?_append_left old] at isProxy
                exact holds.values id data newData deletedProperties key address isProxy isValue
              · rw [List.getElem?_append_right new] at isProxy
                have isFresh := List.mem_singleton.mp (List.mem_of_getElem? isProxy)
                unfold proxyOf at isFresh
                split at isFresh
                · contradiction
                · obtain ⟨-, rfl, -⟩ := Augmented.object.inj isFresh
                  contradiction
  | _ => exact ⟨holds, rfl, fun _ isPlain => by contradiction⟩

theorem harmless_resultOf {value : NewValue P}
    (harmless : ∀ address, value = .handle (.plain address) → original.length ≤ address)
    : Harmless original (resultOf value) := by
  intro address isPlain
  cases value with
  | handle h =>
      obtain rfl := Result.handle.inj isPlain
      exact harmless address rfl
  | _ => contradiction

theorem harmless_inherited (isArray : Bool) (key : Key)
    : Harmless original (inheritedResult isArray key : Result P Handle) := by
  intro address isPlain
  unfold inheritedResult at isPlain
  split at isPlain <;> contradiction

theorem plain_guarded {address : Nat} (holds : Guarded original heap)
    (isLater : original.length ≤ address) (operation : Operation P)
    : Guarded original
          ⟨(Objects.operate toLength heap.cells address operation).2, heap.proxies⟩
        ∧ ∀ child, (Objects.operate toLength heap.cells address operation).1 = .handle child
          → original.length ≤ child := by
  unfold Objects.operate
  cases found : heap.cells[address]? with
  | none => exact ⟨holds, fun _ isHandle => by contradiction⟩
  | some table =>
      cases operation with
      | get key =>
          simp only
          cases own : table.own? key with
          | none =>
              refine ⟨holds, ?_⟩
              intro child isHandle
              simp only [inheritedResult] at isHandle
              split at isHandle <;> contradiction
          | some property =>
              cases property with
              | length n => exact ⟨holds, fun _ isHandle => by contradiction⟩
              | value value =>
                  cases value with
                  | primitive p => exact ⟨holds, fun _ isHandle => by contradiction⟩
                  | ref child =>
                      refine ⟨holds, ?_⟩
                      intro other isHandle
                      obtain rfl := Result.handle.inj isHandle
                      exact holds.later address key child isLater
                        ⟨table, found, Table.get?_of_own? own⟩
      | set key newValue =>
          obtain ⟨fresh, roots⟩ := build_fresh heap.cells.length newValue
          have extended := holds.extend fresh
          have stillFound
              : (heap.cells ++ (build heap.cells.length newValue).2)[address]? = some table :=
            (List.getElem?_append_left (List.getElem?_eq_some_iff.mp found).1).trans found
          simp only
          cases written : table.write key (build heap.cells.length newValue).1
              (toLength newValue) with
          | none => exact ⟨extended, fun _ isHandle => by contradiction⟩
          | some changed =>
              refine ⟨extended.set isLater stillFound ?_, fun _ isHandle => by contradiction⟩
              intro other child refers
              refine (Table.get?_write written refers).imp (fun old => old) ?_
              rintro ⟨-, isRoot⟩
              have bounds := roots.inside 0 child (by simp [← isRoot])
              have bound := holds.bound
              omega
      | delete key =>
          exact ⟨holds.set isLater found (fun _ _ refers => .inl (Table.get?_remove refers)),
            fun _ isHandle => by contradiction⟩
      | _ => exact ⟨holds, fun _ isHandle => by contradiction⟩

section

variable [DecidableEq P] {id data : Nat} {key : Key}

section

variable (holds : Guarded original heap)

include holds

theorem objectGet_guarded {newData : Table (NewValue P)} {deletedProperties : List Key}
    (isProxy : heap.proxies[id]? = some (.object data newData deletedProperties))
    : Guarded original (heap.objectGet id data newData deletedProperties key).2
      ∧ Harmless original (heap.objectGet id data newData deletedProperties key).1 := by
  unfold Heap.objectGet
  split
  · exact ⟨holds, fun _ isPlain => by contradiction⟩
  · split
    · exact ⟨holds, fun _ isPlain => by contradiction⟩
    · split
      · next value isNew =>
          refine ⟨holds, harmless_resultOf ?_⟩
          rintro address rfl
          exact holds.values id data newData deletedProperties key address isProxy isNew
      · split
        · exact ⟨holds, fun _ isPlain => by contradiction⟩
        · split
          · exact ⟨holds, harmless_inherited _ _⟩
          · exact ⟨holds, fun _ isPlain => by contradiction⟩
          · next value _ =>
              obtain ⟨augmented, -, harmless⟩ := holds.augment (ofValue value)
              simp only
              split
              · refine ⟨augmented.setProxy ?_, harmless_resultOf harmless⟩
                rintro _ _ _ other address ⟨rfl, rfl, rfl⟩ isValue
                simp only [Table.get?, Dict.get?_set] at isValue
                split at isValue
                · exact harmless address (Option.some.inj isValue)
                · exact holds.values id data newData deletedProperties other address isProxy isValue
              · exact ⟨augmented, harmless_resultOf harmless⟩

theorem arrayGet_guarded {newData : Option (Table (NewValue P))}
    : Guarded original (heap.arrayGet id data newData key).2
      ∧ Harmless original (heap.arrayGet id data newData key).1 := by
  unfold Heap.arrayGet
  split
  · exact ⟨holds, fun _ isPlain => by contradiction⟩
  · split
    · exact ⟨holds, harmless_inherited _ _⟩
    · exact ⟨holds, fun _ isPlain => by contradiction⟩
    · next value _ =>
        obtain ⟨augmented, -, harmless⟩ := holds.augment value
        simp only
        split
        · exact ⟨augmented.setProxy (fun _ _ _ _ _ isObject => by contradiction),
            harmless_resultOf harmless⟩
        · exact ⟨augmented, harmless_resultOf harmless⟩

theorem object_guarded {newData : Table (NewValue P)} {deletedProperties : List Key}
    (isProxy : heap.proxies[id]? = some (.object data newData deletedProperties))
    (operation : Operation P)
    : Guarded original (heap.operateObject id data newData deletedProperties operation).2
      ∧ Harmless original (heap.operateObject id data newData deletedProperties operation).1 := by
  cases operation with
  | get key => exact objectGet_guarded holds isProxy
  | set key newValue =>
      obtain ⟨fresh, roots⟩ := build_fresh heap.cells.length newValue
      refine ⟨(holds.extend fresh).setProxy ?_, fun _ isPlain => by contradiction⟩
      rintro _ _ _ other address ⟨rfl, rfl, rfl⟩ isValue
      simp only [Table.get?, Dict.get?_set] at isValue
      split at isValue
      · cases isRoot : (build heap.cells.length newValue).1 with
        | primitive p => simp [isRoot, ofValue] at isValue
        | ref child =>
            have bounds := roots.inside 0 child (by simp [isRoot])
            have bound := holds.bound
            obtain rfl : child = address := by simpa [isRoot, ofValue] using isValue
            omega
      · exact holds.values id data newData deletedProperties other address isProxy isValue
  | delete key =>
      refine ⟨holds.setProxy ?_, fun _ isPlain => by contradiction⟩
      rintro _ _ _ other address ⟨rfl, rfl, rfl⟩ isValue
      exact holds.values id data newData deletedProperties other address isProxy
        (Dict.get?_of_delete isValue)
  | _ => exact ⟨holds, fun _ isPlain => by contradiction⟩

theorem array_guarded {newData : Option (Table (NewValue P))} (operation : Operation P)
    : Guarded original (heap.operateArray toLength id data newData operation).2
      ∧ Harmless original (heap.operateArray toLength id data newData operation).1 := by
  cases operation with
  | get key => exact arrayGet_guarded holds
  | set key newValue =>
      obtain ⟨fresh, -⟩ := build_fresh heap.cells.length newValue
      obtain ⟨augmented, -⟩ :=
        (holds.extend fresh).augment (ofValue (build heap.cells.length newValue).1)
      simp only [Heap.operateArray, Heap.arraySet]
      split
      · exact ⟨augmented.setProxy (fun _ _ _ _ _ isObject => by contradiction),
          fun _ isPlain => by contradiction⟩
      · exact ⟨augmented.setProxy (fun _ _ _ _ _ isObject => by contradiction),
          fun _ isPlain => by contradiction⟩
  | delete key =>
      exact ⟨holds.setProxy (fun _ _ _ _ _ isObject => by contradiction),
        fun _ isPlain => by contradiction⟩
  | _ => exact ⟨holds, fun _ isPlain => by contradiction⟩

theorem operate_guarded {handle : Handle}
    (harmless : ∀ address, handle = .plain address → original.length ≤ address)
    (operation : Operation P)
    : Guarded original (heap.operate toLength handle operation).2
      ∧ Harmless original (heap.operate toLength handle operation).1 := by
  cases handle with
  | plain address =>
      obtain ⟨guarded, later⟩
          : Guarded original
              ⟨(Objects.operate toLength heap.cells address operation).2, heap.proxies⟩
            ∧ ∀ child, (Objects.operate toLength heap.cells address operation).1 = .handle child
              → original.length ≤ child :=
        plain_guarded holds (harmless address rfl) operation
      refine ⟨guarded, ?_⟩
      intro other isPlain
      simp only [Heap.operate] at isPlain
      cases result : (Objects.operate toLength heap.cells address operation).1 with
      | handle child =>
          rw [result] at isPlain
          obtain rfl : child = other := by simpa [Result.map] using isPlain
          exact later child result
      | _ => simp [result, Result.map] at isPlain
  | proxy id =>
      cases isProxy : heap.proxies[id]? with
      | none =>
          simp only [Heap.operate, isProxy]
          exact ⟨holds, fun _ isPlain => by contradiction⟩
      | some augmented =>
          simp only [Heap.operate, isProxy]
          cases augmented with
          | object data newData deletedProperties =>
              exact object_guarded holds isProxy operation
          | array data newData => exact array_guarded holds operation

end

/-- A program at work has no handle of an original object. -/
def GuardedSession (original : Cells P) (session : Session (Heap P) P Handle) : Prop :=
  Guarded original session.state
  ∧ ∀ address, .plain address ∈ session.handles → original.length ≤ address

theorem GuardedSession.step {session : Session (Heap P) P Handle} {action : Nat × Operation P}
    (holds : GuardedSession original session)
    : GuardedSession original (session.step (Heap.operate toLength) action) := by
  unfold Session.step
  cases found : session.handles[action.1]? with
  | none => exact holds
  | some handle =>
      have harmless (address : Nat) (isPlain : handle = .plain address)
          : original.length ≤ address :=
        holds.2 address (isPlain ▸ List.mem_of_getElem? found)
      obtain ⟨guarded, result⟩
          : Guarded original (session.state.operate toLength handle action.2).2
            ∧ Harmless original (session.state.operate toLength handle action.2).1 :=
        operate_guarded holds.1 harmless action.2
      refine ⟨guarded, ?_⟩
      intro address member
      rcases List.mem_append.mp member with before | isNew
      · exact holds.2 address before
      · refine result address ?_
        cases isResult : (session.state.operate toLength handle action.2).1 with
        | handle h =>
            have same := List.mem_singleton.mp (by simpa [isResult, Result.handle?] using isNew)
            rw [same]
        | _ => simp [isResult, Result.handle?] at isNew

theorem GuardedSession.run {session : Session (Heap P) P Handle}
    {actions : List (Nat × Operation P)} (holds : GuardedSession original session)
    : GuardedSession original (actions.foldl (Session.step (Heap.operate toLength)) session) := by
  induction actions generalizing session with
  | nil => exact holds
  | cons action rest ih => exact ih holds.step

omit [DecidableEq P] in
theorem guarded_start (o : List (Key × Json P))
    : GuardedSession (augmentObject o).state.cells (augmentObject o) := by
  refine ⟨⟨fun _ _ => rfl, Nat.le_refl _, ?_, ?_⟩, ?_⟩
  · intro place key child isLater isChild
    exact absurd isChild.lt (Nat.not_lt.mpr isLater)
  · intro id data newData deletedProperties key address isProxy isValue
    have isFirst := List.mem_singleton.mp (List.mem_of_getElem? isProxy)
    obtain ⟨-, rfl, -⟩ := Augmented.object.inj isFirst
    contradiction
  · intro address member
    simp [augmentObject] at member

end

end N8n.AugmentObject
