import N8n.AugmentObject.ArrayProxies
import N8n.AugmentObject.OriginalData

/-! Programs that work on `augmentObject(o)` and on a deep copy of `o`: they see the same
results, and `o` stays as it is.
-/

namespace N8n.AugmentObject

open N8n.Objects

variable {P : Type} [DecidableEq P] {raw raw' : Nat → Prop} {heap : Heap P} {copy : Cells P}
  {toLength : Json P → Option Nat}

/-- The operation reads no property named `constructor` of the object itself, and it does not
look for a name of `Object.prototype` that the original object had itself and that is
deleted.
-/
def Regular (target copied : Table (Value P)) : Operation P → Prop
  | .get key =>
      (key = .name "constructor" → copied.own? key = none)
      ∧ (key ≠ .name "constructor" → NotErased target copied key)
  | .has key => NotErased target copied key
  | _ => True

instance (target copied : Table (Value P)) (key : Key) : Decidable (NotErased target copied key) :=
  inferInstanceAs (Decidable (_ → _))

instance (target copied : Table (Value P))
    : (operation : Operation P) → Decidable (Regular target copied operation)
  | .get _ => inferInstanceAs (Decidable (_ ∧ _))
  | .has key => inferInstanceAs (Decidable (NotErased target copied key))
  | .set _ _ => .isTrue trivial
  | .delete _ => .isTrue trivial
  | .ownKeys => .isTrue trivial

/-- An operation on a proxy has to be regular for its data and for the object of the copy. -/
def Heap.RegularAt (heap : Heap P) (copy : Cells P) : Handle → Operation P → Prop
  | .plain _, _ => True
  | .proxy id, operation =>
      ∀ augmented ∈ heap.proxies[id]?,
        ∀ target ∈ heap.cells[augmented.data]?,
          ∀ copied ∈ copy[augmented.data]?, Regular target copied operation

instance (heap : Heap P) (copy : Cells P) (operation : Operation P)
    : (handle : Handle) → Decidable (heap.RegularAt copy handle operation)
  | .plain _ => .isTrue trivial
  | .proxy id =>
      inferInstanceAs (Decidable (∀ augmented ∈ heap.proxies[id]?,
        ∀ target ∈ heap.cells[augmented.data]?,
          ∀ copied ∈ copy[augmented.data]?, Regular target copied operation))

variable {operation : Operation P} {id data : Nat} {target copied : Table (Value P)}

theorem object_agreement {newData : Table (NewValue P)} {deletedProperties : List Key}
    (holds : Simulates raw heap copy)
    (isProxy : heap.proxies[id]? = some (.object data newData deletedProperties))
    (isMatch : ObjectMatches raw heap copy data newData deletedProperties target copied)
    (regular : Regular target copied operation)
    : Agreement raw heap (heap.operateObject id data newData deletedProperties operation)
        (Objects.operate toLength copy data operation) := by
  cases operation with
  | get key => exact objectGet_agreement holds isProxy isMatch regular.1 regular.2
  | set key newValue => exact objectSet_agreement holds isProxy isMatch newValue
  | delete key => exact objectDelete_agreement holds isProxy isMatch
  | has key =>
      simp only [Heap.operateObject, Objects.operate, isMatch.isCopied,
        objectHas_agreement isMatch regular]
      exact .read holds (.boolean _)
  | ownKeys =>
      have notArray : copied.isArray = false := by simp [Table.isArray, isMatch.copiedObject]
      simp only [Heap.operateObject, Objects.operate, isMatch.isCopied, notArray]
      exact .read holds (.objectKeys (objectOwnKeys_agreement isMatch))

theorem array_agreement {newData : Option (Table (NewValue P))} (holds : Simulates raw heap copy)
    (isProxy : heap.proxies[id]? = some (.array data newData))
    (isMatch : ArrayMatches raw heap copy data newData target copied)
    (regular : Regular target copied operation)
    : Agreement raw heap (heap.operateArray toLength id data newData operation)
        (Objects.operate toLength copy data operation) := by
  cases operation with
  | get key => exact arrayGet_agreement holds isProxy isMatch regular.1
  | set key newValue => exact arraySet_agreement holds isProxy isMatch newValue
  | delete key => exact arrayDelete_agreement holds isProxy isMatch
  | has key =>
      simp only [Heap.operateArray, Objects.operate, isMatch.isCopied, arrayHas_agreement isMatch]
      exact .read holds (.boolean _)
  | ownKeys =>
      simp only [Heap.operateArray, Objects.operate, isMatch.isCopied, isMatch.copiedArray,
        arrayOwnKeys_agreement isMatch]
      exact .read holds (.arrayKeys _)

theorem operate_agreement {handle : Handle} {address : Nat} (holds : Simulates raw heap copy)
    (corresponds : Corresponds raw heap handle address)
    (regular : heap.RegularAt copy handle operation)
    : Agreement raw heap (heap.operate toLength handle operation)
        (Objects.operate toLength copy address operation) := by
  cases handle with
  | plain other =>
      obtain ⟨rfl, isRaw⟩ := corresponds
      exact plain_agreement holds isRaw operation
  | proxy id =>
      obtain ⟨augmented, isProxy, rfl⟩ := corresponds
      have isMatch := holds.isMatch id augmented isProxy
      simp only [Heap.operate, isProxy]
      cases augmented with
      | object data newData deletedProperties =>
          obtain ⟨target, copied, isMatch⟩ := isMatch
          exact object_agreement holds isProxy isMatch
            (regular _ isProxy _ isMatch.isTarget _ isMatch.isCopied)
      | array data newData =>
          obtain ⟨target, copied, isMatch⟩ := isMatch
          exact array_agreement holds isProxy isMatch
            (regular _ isProxy _ isMatch.isTarget _ isMatch.isCopied)

/-- A program on both sides, after the same operations. -/
structure Related (raw : Nat → Prop) (augmented : Session (Heap P) P Handle)
    (copied : Session (Cells P) P Nat) : Prop where
  simulates : Simulates raw augmented.state copied.state
  handles
    : List.Forall₂ (Corresponds raw augmented.state) augmented.handles copied.handles
  results
    : List.Forall₂ (Agrees (Corresponds raw augmented.state)) augmented.results copied.results

/-- The next operation on both sides is regular. -/
def RegularStep (augmented : Session (Heap P) P Handle) (copied : Session (Cells P) P Nat)
    (action : Nat × Operation P) : Prop :=
  ∀ handle ∈ augmented.handles[action.1]?,
    augmented.state.RegularAt copied.state handle action.2

instance (augmented : Session (Heap P) P Handle) (copied : Session (Cells P) P Nat)
    (action : Nat × Operation P)
    : Decidable (RegularStep augmented copied action) :=
  inferInstanceAs (Decidable (∀ handle ∈ augmented.handles[action.1]?,
    augmented.state.RegularAt copied.state handle action.2))

def RegularRun (toLength : Json P → Option Nat)
    : Session (Heap P) P Handle → Session (Cells P) P Nat → List (Nat × Operation P) → Prop
  | _, _, [] => True
  | augmented, copied, action :: rest =>
      RegularStep augmented copied action
      ∧ RegularRun toLength (augmented.step (Heap.operate toLength) action)
          (copied.step (Objects.operate toLength) action) rest

instance decidableRegularRun (toLength : Json P → Option Nat)
    : (augmented : Session (Heap P) P Handle)
      → (copied : Session (Cells P) P Nat)
      → (actions : List (Nat × Operation P))
      → Decidable (RegularRun toLength augmented copied actions)
  | _, _, [] => .isTrue trivial
  | augmented, copied, action :: rest =>
      have : Decidable (RegularRun toLength (augmented.step (Heap.operate toLength) action)
          (copied.step (Objects.operate toLength) action) rest) :=
        decidableRegularRun toLength _ _ rest
      inferInstanceAs (Decidable (_ ∧ _))

theorem forall₂_getElem? {α β : Type} {related : α → β → Prop} {left : List α} {right : List β}
    (all : List.Forall₂ related left right) (place : Nat)
    : left[place]? = none ∧ right[place]? = none
      ∨ ∃ a b, left[place]? = some a ∧ right[place]? = some b ∧ related a b := by
  induction all generalizing place with
  | nil => exact .inl ⟨rfl, rfl⟩
  | cons head _ ih =>
      cases place with
      | zero => exact .inr ⟨_, _, rfl, rfl, head⟩
      | succ place => exact ih place

omit [DecidableEq P] in
theorem Agrees.handle? {H H' : Type} {same : H → H' → Prop} {result : Result P H}
    {other : Result P H'} (agrees : Agrees same result other)
    : List.Forall₂ same result.handle?.toList other.handle?.toList := by
  cases agrees with
  | handle isSame => exact .cons isSame .nil
  | _ => exact .nil

theorem Related.step {augmented : Session (Heap P) P Handle} {copied : Session (Cells P) P Nat}
    {action : Nat × Operation P} (related : Related raw augmented copied)
    (regular : RegularStep augmented copied action)
    : ∃ raw', Related raw' (augmented.step (Heap.operate toLength) action)
        (copied.step (Objects.operate toLength) action) := by
  unfold Session.step
  rcases forall₂_getElem? related.handles action.1 with ⟨absent, absent'⟩
    | ⟨handle, address, found, found', corresponds⟩
  · rw [absent, absent']
    exact ⟨raw, related⟩
  · rw [found, found']
    obtain ⟨raw', grows, simulates, keeps, agrees⟩
        : Agreement raw augmented.state (augmented.state.operate toLength handle action.2)
            (Objects.operate toLength copied.state address action.2) :=
      operate_agreement related.simulates corresponds (regular handle found)
    have still (h : Handle) (other : Nat) (before : Corresponds raw augmented.state h other)
        : Corresponds raw' (augmented.state.operate toLength handle action.2).2 h other :=
      before.mono grows keeps
    exact ⟨raw', simulates,
      List.rel_append (related.handles.imp still) agrees.handle?,
      List.rel_append (related.results.imp (fun _ _ before => before.mono still))
        (.cons agrees .nil)⟩

theorem Related.run {augmented : Session (Heap P) P Handle} {copied : Session (Cells P) P Nat}
    {actions : List (Nat × Operation P)} (related : Related raw augmented copied)
    (regular : RegularRun toLength augmented copied actions)
    : ∃ raw', Related raw' (actions.foldl (Session.step (Heap.operate toLength)) augmented)
        (actions.foldl (Session.step (Objects.operate toLength)) copied) := by
  induction actions generalizing raw augmented copied with
  | nil => exact ⟨raw, related⟩
  | cons action rest ih =>
      obtain ⟨raw', next⟩ := related.step regular.1
      exact ih next regular.2

omit [DecidableEq P] in
/-- Nothing is put into an object before a program works. -/
theorem related_start (o : List (Key × Json P))
    : Related (fun _ => False) (augmentObject o) (deepCopy o) := by
  obtain ⟨fresh, roots⟩ := build_fresh 0 (.object o)
  have forest : Forest (deepCopy o).state := by
    have appended : Forest (([] : Cells P) ++ (build 0 (.object o)).2) := Forest.nil.append fresh
    rwa [List.nil_append] at appended
  obtain ⟨before, entries, isBuilt⟩
      : ∃ before entries, (build 0 (.object o)).2 = before ++ [objectOf entries] := ⟨_, _, rfl⟩
  have isRoot : (build 0 (.object o)).1 = .ref ((build 0 (.object o)).2.length - 1) := by
    simp [build]
  have found
      : (build 0 (.object o)).2[(build 0 (.object o)).2.length - 1]? = some (objectOf entries) := by
    simp [isBuilt]
  have orphan (place : Nat) (key : Key)
      : ¬Child (build 0 (.object o)).2 place key ((build 0 (.object o)).2.length - 1) :=
    roots.orphan 0 _ (by rw [isRoot]; rfl) place key
  have targeted {address : Nat} (isTargeted : (augmentObject o).state.Targeted address)
      : address = (build 0 (.object o)).2.length - 1 := by
    obtain ⟨id, augmented, isProxy, rfl⟩ := isTargeted
    rw [List.mem_singleton.mp (List.mem_of_getElem? isProxy)]
    rfl
  have noChild (place child : Nat) (key : Key)
      (isChild : Child (build 0 (.object o)).2 place key child)
      : ¬(augmentObject o).state.Targeted child := by
    intro isTargeted
    obtain rfl := targeted isTargeted
    exact orphan place key isChild
  have only {id : Nat} {augmented : Augmented P}
      (isProxy : (augmentObject o).state.proxies[id]? = some augmented)
      : id = 0 ∧ augmented
        = proxyOf ((build 0 (.object o)).2.length - 1) (objectOf entries) := by
    obtain ⟨isFirst, same⟩ := List.getElem?_eq_some_iff.mp isProxy
    have isZero : id = 0 := Nat.lt_one_iff.mp isFirst
    subst isZero
    exact ⟨rfl, same.symm⟩
  refine ⟨⟨rfl, fun _ _ => rfl, ?_, forest, forest.closed, fun _ isRaw => isRaw.elim,
    fun _ isRaw => isRaw.elim, fun _ _ _ isRaw => isRaw.elim, fun _ _ _ _ _ isRaw => isRaw, ?_, ?_,
    ?_⟩, ?_, .nil⟩
  · intro id other first second isFirst isSecond _
    rw [(only isFirst).1, (only isSecond).1]
  · intro address table _ isTable
    exact fresh.pristine table (List.mem_of_getElem? isTable)
  · intro place key child _ isChild
    exact noChild place child key isChild
  · intro id augmented isProxy
    rw [(only isProxy).2]
    refine matches_proxyOf found found (fun isRaw => isRaw) (.inl rfl) ?_
    intro key child refers
    exact ⟨fun isRaw => isRaw, noChild _ child key ⟨_, found, refers⟩⟩
  · exact .cons ⟨_, rfl, rfl⟩ .nil

omit [DecidableEq P] in
theorem corresponds_biUnique (holds : Simulates raw heap copy)
    : Relator.BiUnique (Corresponds raw heap) := by
  constructor
  · intro h k address first second
    cases h with
    | plain a =>
        obtain ⟨rfl, isRaw⟩ := first
        cases k with
        | plain b => exact congrArg Handle.plain second.1.symm
        | proxy id =>
            obtain ⟨augmented, isProxy, rfl⟩ := second
            exact absurd (targeted_of_proxy isProxy) (holds.rawFree _ isRaw)
    | proxy id =>
        obtain ⟨augmented, isProxy, rfl⟩ := first
        cases k with
        | plain b =>
            obtain ⟨rfl, isRaw⟩ := second
            exact absurd (targeted_of_proxy isProxy) (holds.rawFree _ isRaw)
        | proxy other =>
            obtain ⟨augmented', isProxy', same⟩ := second
            rw [holds.unique _ _ _ _ isProxy isProxy' same.symm]
  · intro h address other first second
    cases h with
    | plain a => exact first.1.symm.trans second.1
    | proxy id =>
        obtain ⟨augmented, isProxy, rfl⟩ := first
        obtain ⟨augmented', isProxy', rfl⟩ := second
        rw [Option.some.inj (isProxy.symm.trans isProxy')]

def afterOnProxy (toLength : Json P → Option Nat) (o : List (Key × Json P))
    (actions : List (Nat × Operation P))
    : Session (Heap P) P Handle :=
  actions.foldl (Session.step (Heap.operate toLength)) (augmentObject o)

def afterOnCopy (toLength : Json P → Option Nat) (o : List (Key × Json P))
    (actions : List (Nat × Operation P))
    : Session (Cells P) P Nat :=
  actions.foldl (Session.step (Objects.operate toLength)) (deepCopy o)

/-- The objects of `o` are never changed. As long as the operations are regular, they give
what they give on a copy, where one relation says for the whole run which objects are the
same.
-/
theorem augmentObject_agrees (toLength : Json P → Option Nat) (o : List (Key × Json P))
    (actions : List (Nat × Operation P))
    : (∀ address, address < (augmentObject o).state.cells.length
        → (afterOnProxy toLength o actions).state.cells[address]?
          = (augmentObject o).state.cells[address]?)
      ∧ (RegularRun toLength (augmentObject o) (deepCopy o) actions
        → ∃ same : Handle → Nat → Prop,
            Relator.BiUnique same
            ∧ List.Forall₂ same (afterOnProxy toLength o actions).handles
                (afterOnCopy toLength o actions).handles
            ∧ List.Forall₂ (Agrees same) (afterOnProxy toLength o actions).results
                (afterOnCopy toLength o actions).results) := by
  refine ⟨(guarded_start o).run.1.kept, ?_⟩
  intro regular
  obtain ⟨raw, related⟩ := (related_start o).run regular
  exact ⟨Corresponds raw (afterOnProxy toLength o actions).state,
    corresponds_biUnique related.simulates, related.handles, related.results⟩

/-- A nested array is read, changed, deleted from and read again, and a property is deleted and
set anew.
-/
theorem augmentObject_agrees_nested
    : let o := [(.name "a", .object [(.name "b", .array [.primitive 1, .primitive 2])])]
      let actions : List (Nat × Operation Nat) :=
        [(0, .get (.name "a")), (1, .get (.name "b")),
          (2, .set (.index 3) (.object [(.name "c", .primitive 3)])), (2, .delete (.index 0)),
          (2, .get (.index 3)), (3, .set (.name "c") (.primitive 4)), (0, .delete (.name "a")),
          (0, .has (.name "a")), (0, .set (.name "a") (.primitive 5)), (0, .ownKeys)]
      (afterOnProxy (fun _ => none) o actions).state.cells[2]?
          = (augmentObject o).state.cells[2]?
        ∧ ∃ same : Handle → Nat → Prop,
            Relator.BiUnique same
            ∧ List.Forall₂ (Agrees same) (afterOnProxy (fun _ => none) o actions).results
                (afterOnCopy (fun _ => none) o actions).results := by
  intro o actions
  obtain ⟨kept, agrees⟩ := augmentObject_agrees (fun _ => none) o actions
  obtain ⟨same, unique, -, results⟩ := agrees (by decide)
  exact ⟨kept 2 (by decide), same, unique, results⟩

/-- A property named `constructor` is never read, a deleted `toString` is not inherited again,
and the keys of a property that is set anew keep their place.
-/
theorem augmentObject_differs
    : let toLength : Json Nat → Option Nat := fun _ => none
      let setConstructor : List (Nat × Operation Nat) :=
        [(0, .set (.name "constructor") (.primitive 1)), (0, .get (.name "constructor"))]
      let ownString : List (Key × Json Nat) := [(.name "toString", .primitive 1)]
      let eraseString : List (Nat × Operation Nat) :=
        [(0, .delete (.name "toString")), (0, .get (.name "toString"))]
      let both : List (Key × Json Nat) := [(.name "a", .primitive 1), (.name "b", .primitive 2)]
      let setAnew : List (Nat × Operation Nat) :=
        [(0, .delete (.name "a")), (0, .set (.name "a") (.primitive 1)), (0, .ownKeys)]
      ((afterOnProxy toLength [] setConstructor).results
          = [.boolean true, .builtin (.object "constructor")]
        ∧ (afterOnCopy toLength [] setConstructor).results = [.boolean true, .primitive 1])
      ∧ ((afterOnProxy toLength ownString eraseString).results = [.boolean true, .undefined]
        ∧ (afterOnCopy toLength ownString eraseString).results
          = [.boolean true, .builtin (.object "toString")])
      ∧ ((afterOnProxy toLength both setAnew).results
          = [.boolean true, .boolean true, .keys false [.name "a", .name "b"]]
        ∧ (afterOnCopy toLength both setAnew).results
          = [.boolean true, .boolean true, .keys false [.name "b", .name "a"]]) := by
  decide

end N8n.AugmentObject
