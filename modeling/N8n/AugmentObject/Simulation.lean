import N8n.AugmentObject.AugmentObject
import N8n.Library.ObjectHeaps

/-! Proxies and a deep copy of their data side by side: each proxy stands for the object of the
copy that has the address of its data.
-/

namespace N8n.AugmentObject

open N8n.Objects

variable {P : Type}

/-! ### What a proxy stands for -/

def Augmented.data : Augmented P → Nat
  | .object data _ _ => data
  | .array data _ => data

/-- Some proxy has the address as its data. -/
def Heap.Targeted (heap : Heap P) (address : Nat) : Prop :=
  ∃ (id : Nat) (augmented : Augmented P),
    heap.proxies[id]? = some augmented ∧ augmented.data = address

/-- The value on the copy that a value stands for. -/
def Heap.referent (heap : Heap P) : NewValue P → Option (Value P)
  | .undefined => none
  | .primitive p => some (.primitive p)
  | .handle (.plain address) => some (.ref address)
  | .handle (.proxy id) => (heap.proxies[id]?).map (fun augmented => .ref augmented.data)

/-- What an object proxy has under a key. -/
def view (target : Table (Value P)) (newData : Table (NewValue P))
    (deletedProperties : List Key) (key : Key)
    : Option (NewValue P) :=
  if key ∈ deletedProperties then none
  else
    match newData.get? key with
    | some value => some value
    | none => (target.get? key).map ofValue

/-- The plain object is none of those that a program has handles of, and no proxy has it as
its data yet.
-/
def Heap.Untouched (raw : Nat → Prop) (heap : Heap P) (address : Nat) : Prop :=
  ¬raw address ∧ ¬heap.Targeted address

/-- An object proxy has the properties of the object of the copy. The addresses in `raw` are
those of the objects that a program put into an object, and of the objects in them.
-/
structure ObjectMatches (raw : Nat → Prop) (heap : Heap P) (copy : Cells P) (data : Nat)
    (newData : Table (NewValue P)) (deletedProperties : List Key)
    (target copied : Table (Value P)) : Prop where
  isTarget : heap.cells[data]? = some target
  isCopied : copy[data]? = some copied
  notRaw : ¬raw data
  targetObject : target.length = none
  copiedObject : copied.length = none
  newObject : newData.length = none
  agrees
    : ∀ key,
        (view target newData deletedProperties key).map heap.referent
        = (copied.get? key).map some
  rawValues : ∀ key address, newData.get? key = some (.handle (.plain address)) → raw address
  unvisited
    : ∀ key address,
        key ∉ deletedProperties
        → newData.get? key = none
        → target.get? key = some (.ref address)
        → heap.Untouched raw address
  deletedOwn : ∀ key ∈ deletedProperties, (target.get? key).isSome

/-- An array proxy has the elements of the array of the copy. -/
structure ArrayMatches (raw : Nat → Prop) (heap : Heap P) (copy : Cells P) (data : Nat)
    (newData : Option (Table (NewValue P))) (target copied : Table (Value P)) : Prop where
  isTarget : heap.cells[data]? = some target
  isCopied : copy[data]? = some copied
  notRaw : ¬raw data
  copiedArray : copied.isArray = true
  agrees : (heap.current data newData).map heap.referent = copied.map some
  bounded : (heap.current data newData).Bounded
  unvisited
    : ∀ key address,
        (heap.current data newData).get? key = some (.handle (.plain address))
        → heap.Untouched raw address

def Matches (raw : Nat → Prop) (heap : Heap P) (copy : Cells P) : Augmented P → Prop
  | .object data newData deletedProperties =>
      ∃ target copied, ObjectMatches raw heap copy data newData deletedProperties target copied
  | .array data newData => ∃ target copied, ArrayMatches raw heap copy data newData target copied

/-- What holds of the proxies and the copy after every operation. -/
structure Simulates (raw : Nat → Prop) (heap : Heap P) (copy : Cells P) : Prop where
  length : copy.length = heap.cells.length
  same : ∀ address, ¬heap.Targeted address → copy[address]? = heap.cells[address]?
  unique
    : ∀ (id other : Nat) (first second : Augmented P),
        heap.proxies[id]? = some first
        → heap.proxies[other]? = some second
        → first.data = second.data
        → id = other
  forest : Forest copy
  closed : ∀ place key child, Child heap.cells place key child → child < heap.cells.length
  rawBound : ∀ address, raw address → address < heap.cells.length
  rawFree : ∀ address, raw address → ¬heap.Targeted address
  rawChildren : ∀ place key child, raw place → Child heap.cells place key child → raw child
  notRawChildren : ∀ place key child, ¬raw place → Child heap.cells place key child → ¬raw child
  pristine
    : ∀ (address : Nat) table, ¬raw address → heap.cells[address]? = some table → table.Pristine
  fresh
    : ∀ place key child,
        heap.Untouched raw place → Child heap.cells place key child → ¬heap.Targeted child
  isMatch
    : ∀ (id : Nat) augmented, heap.proxies[id]? = some augmented → Matches raw heap copy augmented

variable {raw raw' : Nat → Prop} {heap heap' : Heap P} {copy copy' cells : Cells P}
  {id address : Nat} {augmented changed : Augmented P}

@[simp] theorem referent_ofValue (value : Value P)
    : heap.referent (ofValue value) = some value := by
  cases value <;> rfl

theorem targeted_of_proxy (isProxy : heap.proxies[id]? = some augmented)
    : heap.Targeted augmented.data := ⟨id, augmented, isProxy, rfl⟩

theorem Matches.lt (isMatch : Matches raw heap copy augmented)
    : augmented.data < heap.cells.length := by
  cases augmented with
  | _ =>
      obtain ⟨target, copied, holds⟩ := isMatch
      exact (List.getElem?_eq_some_iff.mp holds.isTarget).1

theorem Simulates.targeted_lt (holds : Simulates raw heap copy) (targeted : heap.Targeted address)
    : address < heap.cells.length := by
  obtain ⟨id, augmented, isProxy, rfl⟩ := targeted
  exact (holds.isMatch id augmented isProxy).lt

variable {copied target : Table (Value P)} {key : Key} {data : Nat}

/-- An object of the copy with a child has it under the same key as the proxy. -/
theorem ObjectMatches.child {newData : Table (NewValue P)} {deletedProperties : List Key}
    (holds : ObjectMatches raw heap copy data newData deletedProperties target copied)
    (kept : key ∉ deletedProperties) (unread : newData.get? key = none)
    (refers : target.get? key = some (.ref address))
    : Child copy data key address := by
  have agrees := holds.agrees key
  simp only [view, if_neg kept, unread, refers, Option.map_some, referent_ofValue] at agrees
  refine ⟨copied, holds.isCopied, ?_⟩
  cases found : copied.get? key with
  | none => simp [found] at agrees
  | some value =>
      simp only [found, Option.map_some, Option.some.injEq] at agrees
      rw [agrees]

variable {newData : Option (Table (NewValue P))}

section

variable (holds : ArrayMatches raw heap copy data newData target copied)

include holds

theorem ArrayMatches.get? (key : Key)
    : ((heap.current data newData).get? key).map heap.referent = (copied.get? key).map some := by
  rw [← Table.get?_map, holds.agrees, Table.get?_map]

theorem ArrayMatches.child
    (found : (heap.current data newData).get? key = some (.handle (.plain address)))
    : Child copy data key address := by
  have agrees := holds.get? key
  simp only [found, Option.map_some, Heap.referent] at agrees
  refine ⟨copied, holds.isCopied, ?_⟩
  cases isValue : copied.get? key with
  | none => simp [isValue] at agrees
  | some value =>
      simp only [isValue, Option.map_some, Option.some.injEq] at agrees
      rw [agrees]

end

/-- A match depends on the data, on the object of the copy, and on what the values stand for. -/
theorem Matches.transfer (isMatch : Matches raw heap copy augmented)
    (sameCells : ∀ table, heap.cells[augmented.data]? = some table
      → heap'.cells[augmented.data]? = some table)
    (sameCopy : ∀ table, copy[augmented.data]? = some table
      → copy'[augmented.data]? = some table)
    (notRaw : ¬raw augmented.data → ¬raw' augmented.data)
    (rawGrows : ∀ address, raw address → raw' address)
    (referents : ∀ value referent, heap.referent value = some referent
      → heap'.referent value = some referent)
    (untouched : ∀ key address, Child copy augmented.data key address
      → heap.Untouched raw address → heap'.Untouched raw' address)
    : Matches raw' heap' copy' augmented := by
  cases augmented with
  | object data newData deletedProperties =>
      obtain ⟨target, copied, holds⟩ := isMatch
      refine ⟨target, copied, sameCells _ holds.isTarget, sameCopy _ holds.isCopied,
        notRaw holds.notRaw, holds.targetObject, holds.copiedObject, holds.newObject, ?_,
        fun key address found => rawGrows _ (holds.rawValues key address found), ?_,
        holds.deletedOwn⟩
      · intro key
        have agrees := holds.agrees key
        cases found : view target newData deletedProperties key with
        | none => simpa [found] using agrees
        | some value =>
            cases isCopied : copied.get? key with
            | none => simp [found, isCopied] at agrees
            | some referent =>
                simp only [found, isCopied, Option.map_some, Option.some.injEq] at agrees ⊢
                exact referents _ _ agrees
      · intro key address kept unread refers
        exact untouched key address (holds.child kept unread refers)
          (holds.unvisited key address kept unread refers)
  | array data newData =>
      obtain ⟨target, copied, holds⟩ := isMatch
      have sameCurrent : heap'.current data newData = heap.current data newData := by
        cases newData with
        | some newData => rfl
        | none =>
            have isTarget : heap'.cells[data]? = some target := sameCells _ holds.isTarget
            simp only [Heap.current, holds.isTarget, isTarget]
      refine ⟨target, copied, sameCells _ holds.isTarget, sameCopy _ holds.isCopied,
        notRaw holds.notRaw, holds.copiedArray, ?_, ?_, ?_⟩
      · rw [sameCurrent, ← holds.agrees]
        refine Table.map_congr ?_
        intro key value found
        have agrees := holds.get? key
        rw [found] at agrees
        cases isCopied : copied.get? key with
        | none => simp [isCopied] at agrees
        | some referent =>
            simp only [isCopied, Option.map_some, Option.some.injEq] at agrees
            rw [referents _ _ agrees, agrees]
      · rw [sameCurrent]
        exact holds.bounded
      · intro key address found
        rw [sameCurrent] at found
        exact untouched key address (holds.child found) (holds.unvisited key address found)

/-! ### New plain objects -/

/-- The same new cells on both sides; they are raw where the program puts them into an
object.
-/
theorem Simulates.extend (holds : Simulates raw heap copy)
    (fresh : Fresh heap.cells.length cells) (isRaw : Prop)
    : Simulates
        (fun address => raw address
          ∨ isRaw ∧ heap.cells.length ≤ address ∧ address < heap.cells.length + cells.length)
        ⟨heap.cells ++ cells, heap.proxies⟩ (copy ++ cells) := by
  have sameLength := holds.length
  constructor
  · simp [sameLength]
  · intro address notTargeted
    rcases Nat.lt_or_ge address heap.cells.length with old | new
    · rw [List.getElem?_append_left old, List.getElem?_append_left (sameLength ▸ old)]
      exact holds.same address notTargeted
    · rw [List.getElem?_append_right new, List.getElem?_append_right (sameLength ▸ new), sameLength]
  · exact holds.unique
  · exact holds.forest.append (sameLength ▸ fresh)
  · intro place key child isChild
    simp only [List.length_append]
    rcases child_append.mp isChild with old | ⟨after, new⟩
    · have bound := holds.closed _ _ _ old
      omega
    · have bounds := fresh.children _ _ _ new
      have inside := new.lt
      omega
  · rintro address (old | ⟨-, -, bound⟩)
    · have bound := holds.rawBound address old
      simp only [List.length_append]
      omega
    · simpa using bound
  · rintro address (old | ⟨-, new, -⟩) targeted
    · exact holds.rawFree address old targeted
    · exact absurd (holds.targeted_lt targeted) (Nat.not_lt.mpr new)
  · rintro place key child isRawPlace isChild
    rcases child_append.mp isChild with old | ⟨after, new⟩
    · rcases isRawPlace with oldRaw | ⟨-, newRaw, -⟩
      · exact .inl (holds.rawChildren _ _ _ oldRaw old)
      · exact absurd old.lt (Nat.not_lt.mpr newRaw)
    · rcases isRawPlace with oldRaw | ⟨raws, -⟩
      · exact absurd (holds.rawBound _ oldRaw) (Nat.not_lt.mpr after)
      · have bounds := fresh.children _ _ _ new
        have inside := new.lt
        exact .inr ⟨raws, by omega, by omega⟩
  · rintro place key child notRawPlace isChild isRawChild
    rcases child_append.mp isChild with old | ⟨after, new⟩
    · rcases isRawChild with oldRaw | ⟨-, newRaw, -⟩
      · exact holds.notRawChildren _ _ _ (fun isRaw => notRawPlace (.inl isRaw)) old oldRaw
      · exact absurd (holds.closed _ _ _ old) (Nat.not_lt.mpr newRaw)
    · have bounds := fresh.children _ _ _ new
      have inside := new.lt
      rcases isRawChild with oldRaw | ⟨raws, -⟩
      · have bound := holds.rawBound _ oldRaw
        omega
      · exact notRawPlace (.inr ⟨raws, after, by omega⟩)
  · intro address table notRaw found
    rcases Nat.lt_or_ge address heap.cells.length with old | new
    · rw [List.getElem?_append_left old] at found
      exact holds.pristine address table (fun isRaw => notRaw (.inl isRaw)) found
    · rw [List.getElem?_append_right new] at found
      exact fresh.pristine table (List.mem_of_getElem? found)
  · rintro place key child ⟨notRaw, notTargeted⟩ isChild targeted
    rcases child_append.mp isChild with old | ⟨-, new⟩
    · exact holds.fresh _ _ _ ⟨fun isRaw => notRaw (.inl isRaw), notTargeted⟩ old targeted
    · have bounds := fresh.children _ _ _ new
      exact absurd (holds.targeted_lt targeted) (Nat.not_lt.mpr bounds.1)
  · intro id augmented isProxy
    have isMatch := holds.isMatch id augmented isProxy
    have notNew {address : Nat} (notRaw : ¬raw address) (old : address < heap.cells.length)
        : ¬(raw address ∨ isRaw ∧ heap.cells.length ≤ address
          ∧ address < heap.cells.length + cells.length) := by
      rintro (isRaw | ⟨-, new, -⟩)
      · exact notRaw isRaw
      · exact absurd old (Nat.not_lt.mpr new)
    refine isMatch.transfer ?_ ?_ ?_ (fun _ => .inl) (fun _ _ same => same) ?_
    · intro table found
      rw [List.getElem?_append_left isMatch.lt]
      exact found
    · intro table found
      rw [List.getElem?_append_left (sameLength ▸ isMatch.lt)]
      exact found
    · intro notRaw
      exact notNew notRaw isMatch.lt
    · rintro key address isChild ⟨notRaw, notTargeted⟩
      exact ⟨notNew notRaw (sameLength ▸ holds.forest.closed _ _ _ isChild), notTargeted⟩

/-! ### Changed objects -/

variable {written : Table (Value P)} {assigned : Option (Value P)}

variable {table : Table (Value P)}

theorem Simulates.setRaw (holds : Simulates raw heap copy) (isRaw : raw address)
    (found : heap.cells[address]? = some table)
    (values : ∀ other new, written.get? other = some new
      → table.get? other = some new ∨ other = key ∧ assigned = some new)
    (orphan : ∀ child, assigned = some (.ref child)
      → raw child ∧ ∀ place other, ¬Child copy place other child)
    : Simulates raw ⟨heap.cells.set address written, heap.proxies⟩ (copy.set address written) := by
  have inside := (List.getElem?_eq_some_iff.mp found).1
  have isCopied : copy[address]? = some table :=
    (holds.same address (holds.rawFree address isRaw)).trans found
  have either {place child : Nat} {other : Key}
      (isChild : Child (heap.cells.set address written) place other child)
      : Child heap.cells place other child ∨ place = address ∧ raw child := by
    rcases (child_set inside).mp isChild with ⟨rfl, refers⟩ | ⟨-, old⟩
    · rcases values _ _ refers with old | ⟨rfl, rfl⟩
      · exact .inl ⟨table, found, old⟩
      · exact .inr ⟨rfl, (orphan child rfl).1⟩
    · exact .inl old
  constructor
  · simp [holds.length]
  · intro other notTargeted
    by_cases same : address = other
    · subst same
      rw [List.getElem?_set_self inside, List.getElem?_set_self (holds.length ▸ inside)]
    · rw [List.getElem?_set_ne same, List.getElem?_set_ne same]
      exact holds.same other notTargeted
  · exact holds.unique
  · refine holds.forest.set isCopied values ?_
    intro child isValue
    obtain ⟨isRawChild, noParent⟩ := orphan child isValue
    exact ⟨holds.length ▸ holds.rawBound child isRawChild, noParent⟩
  · intro place key child isChild
    rw [List.length_set]
    rcases either isChild with old | ⟨-, isRawChild⟩
    · exact holds.closed _ _ _ old
    · exact holds.rawBound child isRawChild
  · intro other isRawOther
    rw [List.length_set]
    exact holds.rawBound other isRawOther
  · exact holds.rawFree
  · intro place key child isRawPlace isChild
    rcases either isChild with old | ⟨-, isRawChild⟩
    · exact holds.rawChildren _ _ _ isRawPlace old
    · exact isRawChild
  · intro place key child notRaw isChild
    rcases either isChild with old | ⟨rfl, -⟩
    · exact holds.notRawChildren _ _ _ notRaw old
    · exact absurd isRaw notRaw
  · intro other found notRaw isTable
    have differs : address ≠ other := by
      rintro rfl
      exact notRaw isRaw
    rw [List.getElem?_set_ne differs] at isTable
    exact holds.pristine other found notRaw isTable
  · intro place key child untouched isChild
    rcases either isChild with old | ⟨rfl, -⟩
    · exact holds.fresh _ _ _ untouched old
    · exact absurd isRaw untouched.1
  · intro id augmented isProxy
    have differs : address ≠ augmented.data := by
      rintro rfl
      exact holds.rawFree _ isRaw (targeted_of_proxy isProxy)
    refine (holds.isMatch id augmented isProxy).transfer ?_ ?_ (fun same => same)
      (fun _ same => same) (fun _ _ same => same) (fun _ _ _ same => same)
    · intro table isTable
      rw [List.getElem?_set_ne differs]
      exact isTable
    · intro table isTable
      rw [List.getElem?_set_ne differs]
      exact isTable

@[simp] theorem data_proxyOf (address : Nat) (table : Table (Value P))
    : (proxyOf address table).data = address := by
  unfold proxyOf
  split <;> rfl

/-- A proxy before any operation on it matches the untouched object of the copy. -/
theorem matches_proxyOf (found : heap.cells[address]? = some table)
    (isCopied : copy[address]? = some table) (notRaw : ¬raw address) (pristine : table.Pristine)
    (children : ∀ key child, table.get? key = some (.ref child) → heap.Untouched raw child)
    : Matches raw heap copy (proxyOf address table) := by
  unfold proxyOf
  split
  · next isArray =>
      have agrees : (table.map ofValue).map heap.referent = table.map some := by
        rw [Table.map_map]
        exact Table.map_congr (fun _ value _ => referent_ofValue value)
      have isCurrent : heap.current address none = table.map ofValue := by
        simp [Heap.current, found]
      refine ⟨table, table, found, isCopied, notRaw, isArray, ?_, ?_, ?_⟩
      · rw [isCurrent, agrees]
      · rw [isCurrent]
        rcases pristine with isObject | ⟨values, rfl⟩
        · simp [Table.isArray, isObject] at isArray
        · rw [map_arrayOf]
          exact bounded_arrayOf
      · intro key child isChild
        rw [isCurrent, Table.get?_map] at isChild
        obtain ⟨value, isValue, same⟩ := Option.map_eq_some_iff.mp isChild
        cases value with
        | primitive p => contradiction
        | ref other =>
            obtain rfl : other = child := by simpa [ofValue] using same
            exact children key other isValue
  · next notArray =>
      have isObject : table.length = none := by simpa [Table.isArray] using notArray
      refine ⟨table, table, found, isCopied, notRaw, isObject, isObject, rfl, ?_, ?_, ?_, ?_⟩
      · intro key
        simp only [view, List.not_mem_nil, if_false]
        change ((table.get? key).map ofValue).map heap.referent = _
        rw [Option.map_map]
        cases table.get? key with
        | none => rfl
        | some value => simp
      · intro _ _ isNew
        contradiction
      · intro key child _ _ refers
        exact children key child refers
      · intro _ isDeleted
        contradiction

/-- The heap with a proxy that keeps something else, and with new proxies. -/
def Heap.retargeted (heap : Heap P) (id : Nat) (changed : Augmented P) (new : List (Augmented P))
    : Heap P :=
  ⟨heap.cells, (heap.proxies ++ new).set id changed⟩

section

variable {new : List (Augmented P)} {other : Nat} {second : Augmented P}

theorem retargeted_self (isProxy : heap.proxies[id]? = some augmented)
    : (heap.retargeted id changed new).proxies[id]? = some changed := by
  have inside := (List.getElem?_eq_some_iff.mp isProxy).1
  refine List.getElem?_set_self ?_
  rw [List.length_append]
  omega

theorem retargeted_last {fresh : Augmented P} (isProxy : heap.proxies[id]? = some augmented)
    : (heap.retargeted id changed [fresh]).proxies[heap.proxies.length]? = some fresh := by
  have differs : id ≠ heap.proxies.length :=
    Nat.ne_of_lt (List.getElem?_eq_some_iff.mp isProxy).1
  unfold Heap.retargeted
  rw [List.getElem?_set_ne differs, List.getElem?_append_right (Nat.le_refl _), Nat.sub_self]
  rfl

theorem retargeted_of_ne (differs : other ≠ id) (found : heap.proxies[other]? = some second)
    : (heap.retargeted id changed new).proxies[other]? = some second := by
  have inside := (List.getElem?_eq_some_iff.mp found).1
  unfold Heap.retargeted
  rw [List.getElem?_set_ne (Ne.symm differs), List.getElem?_append_left inside, found]

variable (isProxy : heap.proxies[id]? = some augmented)

include isProxy

theorem retargeted_of_lt (sameData : changed.data = augmented.data)
    (found : heap.proxies[other]? = some second)
    : ∃ now, (heap.retargeted id changed new).proxies[other]? = some now
        ∧ now.data = second.data := by
  by_cases same : other = id
  · subst same
    cases isProxy.symm.trans found
    exact ⟨changed, retargeted_self isProxy, sameData⟩
  · exact ⟨second, retargeted_of_ne same found, rfl⟩

/-- Which proxies there are. -/
theorem retargeted_cases (atMostOne : new.length ≤ 1)
    (found : (heap.retargeted id changed new).proxies[other]? = some second)
    : other = id ∧ second = changed
      ∨ other ≠ id ∧ heap.proxies[other]? = some second
      ∨ other = heap.proxies.length ∧ second ∈ new := by
  by_cases same : other = id
  · subst same
    rw [retargeted_self isProxy] at found
    exact .inl ⟨rfl, (Option.some.inj found).symm⟩
  · unfold Heap.retargeted at found
    rw [List.getElem?_set_ne (Ne.symm same)] at found
    rcases Nat.lt_or_ge other heap.proxies.length with old | later
    · rw [List.getElem?_append_left old] at found
      exact .inr (.inl ⟨same, found⟩)
    · rw [List.getElem?_append_right later] at found
      have bound := (List.getElem?_eq_some_iff.mp found).1
      exact .inr (.inr ⟨by omega, List.mem_of_getElem? found⟩)

variable (sameData : changed.data = augmented.data)

include sameData

theorem referent_retargeted {value : NewValue P} {referent : Value P}
    (found : heap.referent value = some referent)
    : (heap.retargeted id changed new).referent value = some referent := by
  cases value with
  | undefined => contradiction
  | primitive p => exact found
  | handle h =>
      cases h with
      | plain address => exact found
      | proxy other =>
          obtain ⟨second, isSecond, rfl⟩ := Option.map_eq_some_iff.mp found
          obtain ⟨now, isNow, sameNow⟩
              : ∃ now, (heap.retargeted id changed new).proxies[other]? = some now
                ∧ now.data = second.data := retargeted_of_lt isProxy sameData isSecond
          simp only [Heap.referent, isNow, Option.map_some, sameNow]

theorem targeted_retargeted (atMostOne : new.length ≤ 1)
    (isTargeted : (heap.retargeted id changed new).Targeted address)
    : heap.Targeted address ∨ ∃ fresh ∈ new, fresh.data = address := by
  obtain ⟨other, second, found, rfl⟩ := isTargeted
  rcases retargeted_cases isProxy atMostOne found with ⟨-, rfl⟩ | ⟨-, old⟩ | ⟨-, member⟩
  · exact .inl (sameData ▸ targeted_of_proxy isProxy)
  · exact .inl (targeted_of_proxy old)
  · exact .inr ⟨second, member, rfl⟩

theorem untouched_retargeted (atMostOne : new.length ≤ 1) (untouched : heap.Untouched raw address)
    (notNew : ∀ fresh ∈ new, fresh.data ≠ address)
    : (heap.retargeted id changed new).Untouched raw address := by
  refine ⟨untouched.1, ?_⟩
  intro isTargeted
  rcases targeted_retargeted isProxy sameData atMostOne isTargeted with before | ⟨fresh, member, same⟩
  · exact untouched.2 before
  · exact notNew fresh member same

end

theorem retargeted_nil : heap.retargeted id changed [] = heap.setProxy id changed := by
  simp [Heap.retargeted, Heap.setProxy]

variable {new : List (Augmented P)}

section

variable (holds : Simulates raw heap copy) (isProxy : heap.proxies[id]? = some augmented)
  (sameData : changed.data = augmented.data) (atMostOne : new.length ≤ 1)
  (isNew : ∀ fresh ∈ new, ∃ table, heap.cells[fresh.data]? = some table
    ∧ fresh = proxyOf fresh.data table ∧ heap.Untouched raw fresh.data
    ∧ ∀ place key, Child copy place key fresh.data → place = augmented.data)

include holds isProxy sameData atMostOne isNew

/-- A proxy changes what it keeps, and the object of the copy changes with it. On the way a
proxy may be made of an object whose only place was in this one.
-/
theorem Simulates.retarget (sameLength : copy'.length = copy.length)
    (elsewhere : ∀ place, place ≠ augmented.data → copy'[place]? = copy[place]?)
    (forest : Forest copy') (isMatch : Matches raw (heap.retargeted id changed new) copy' changed)
    : Simulates raw (heap.retargeted id changed new) copy' := by
  have either {other : Nat} {second : Augmented P}
      (found : (heap.retargeted id changed new).proxies[other]? = some second) :=
    retargeted_cases isProxy atMostOne found
  have targeted {address : Nat}
      (isTargeted : (heap.retargeted id changed new).Targeted address) :=
    targeted_retargeted isProxy sameData atMostOne isTargeted
  have stillTargeted {address : Nat} (isTargeted : heap.Targeted address)
      : (heap.retargeted id changed new).Targeted address := by
    obtain ⟨other, second, found, rfl⟩ := isTargeted
    obtain ⟨now, isNow, sameNow⟩ := retargeted_of_lt isProxy sameData found
    exact ⟨other, now, isNow, sameNow⟩
  constructor
  · rw [sameLength]
    exact holds.length
  · intro address notTargeted
    have notBefore : ¬heap.Targeted address := fun before => notTargeted (stillTargeted before)
    rw [elsewhere address (fun same => notBefore (same ▸ targeted_of_proxy isProxy))]
    exact holds.same address notBefore
  · intro first second firstProxy secondProxy isFirst isSecond same
    have oldAndNew {other : Nat} {old fresh : Augmented P} (isOld : heap.proxies[other]? = some old)
        (member : fresh ∈ new)
        : old.data ≠ fresh.data := by
      intro same
      obtain ⟨-, -, -, untouched, -⟩ := isNew fresh member
      exact untouched.2 (same ▸ targeted_of_proxy isOld)
    rcases either isFirst with ⟨rfl, rfl⟩ | ⟨differs, isOld⟩ | ⟨rfl, member⟩
    · rcases either isSecond with ⟨rfl, rfl⟩ | ⟨differs', isOld'⟩ | ⟨rfl, member'⟩
      · rfl
      · exact holds.unique _ _ _ _ isProxy isOld' (sameData.symm.trans same)
      · exact absurd (sameData.symm.trans same) (oldAndNew isProxy member')
    · rcases either isSecond with ⟨rfl, rfl⟩ | ⟨differs', isOld'⟩ | ⟨rfl, member'⟩
      · exact holds.unique _ _ _ _ isOld isProxy (same.trans sameData)
      · exact holds.unique _ _ _ _ isOld isOld' same
      · exact absurd same (oldAndNew isOld member')
    · rcases either isSecond with ⟨rfl, rfl⟩ | ⟨differs', isOld'⟩ | ⟨rfl, member'⟩
      · exact absurd (sameData.symm.trans same.symm) (oldAndNew isProxy member)
      · exact absurd same.symm (oldAndNew isOld' member)
      · rfl
  · exact forest
  · exact holds.closed
  · exact holds.rawBound
  · intro address isRaw isTargeted
    rcases targeted isTargeted with before | ⟨fresh, member, rfl⟩
    · exact holds.rawFree address isRaw before
    · obtain ⟨-, -, -, untouched, -⟩ := isNew fresh member
      exact untouched.1 isRaw
  · exact holds.rawChildren
  · exact holds.notRawChildren
  · exact holds.pristine
  · rintro place key child ⟨notRaw, notTargeted⟩ isChild isTargeted
    have untouched : heap.Untouched raw place :=
      ⟨notRaw, fun before => notTargeted (stillTargeted before)⟩
    rcases targeted isTargeted with before | ⟨fresh, member, rfl⟩
    · exact holds.fresh place key child untouched isChild before
    · obtain ⟨-, -, -, -, onlyHere⟩ := isNew fresh member
      obtain ⟨table, found, refers⟩ := isChild
      have isCopied : copy[place]? = some table := (holds.same place untouched.2).trans found
      refine untouched.2 ?_
      rw [onlyHere place key ⟨table, isCopied, refers⟩]
      exact targeted_of_proxy isProxy
  · intro other second found
    -- A child of another object of the copy stays untouched.
    have untouched {place address : Nat} {key : Key} (differs : place ≠ augmented.data)
        (isChild : Child copy place key address) (before : heap.Untouched raw address)
        : (heap.retargeted id changed new).Untouched raw address := by
      refine untouched_retargeted isProxy sameData atMostOne before ?_
      rintro fresh member rfl
      obtain ⟨-, -, -, -, onlyHere⟩ := isNew fresh member
      exact differs (onlyHere place key isChild)
    rcases either found with ⟨-, rfl⟩ | ⟨differs, isOld⟩ | ⟨-, member⟩
    · exact isMatch
    · have differsData : second.data ≠ augmented.data := fun same =>
        differs (holds.unique _ _ _ _ isOld isProxy same)
      refine (holds.isMatch other second isOld).transfer (fun _ same => same) ?_
        (fun same => same) (fun _ same => same)
        (fun _ _ found => referent_retargeted isProxy sameData found)
        (fun key address isChild => untouched differsData isChild)
      intro table isTable
      rw [elsewhere _ differsData]
      exact isTable
    · obtain ⟨table, isTable, isFresh, before, onlyHere⟩ := isNew second member
      have differsData : second.data ≠ augmented.data := fun same =>
        before.2 (same ▸ targeted_of_proxy isProxy)
      have isCopied : copy[second.data]? = some table :=
        (holds.same _ before.2).trans isTable
      rw [isFresh]
      refine matches_proxyOf isTable ?_ before.1 (holds.pristine _ _ before.1 isTable) ?_
      · rw [elsewhere _ differsData]
        exact isCopied
      · intro key child refers
        exact untouched differsData ⟨table, isCopied, refers⟩
          ⟨holds.notRawChildren _ _ _ before.1 ⟨table, isTable, refers⟩,
            holds.fresh _ _ _ before ⟨table, isTable, refers⟩⟩

variable (isCopied : copy[augmented.data]? = some copied)
  (values : ∀ other new, written.get? other = some new
    → copied.get? other = some new ∨ other = key ∧ assigned = some new)
  (orphan : ∀ child, assigned = some (.ref child)
    → child < copy.length ∧ ∀ place other, ¬Child copy place other child)

include isCopied values orphan

/-- A proxy changes together with one property of the object of the copy. -/
theorem Simulates.write
    (isMatch
      : Matches raw (heap.retargeted id changed new) (copy.set augmented.data written) changed)
    : Simulates raw (heap.retargeted id changed new) (copy.set augmented.data written) := by
  refine holds.retarget isProxy sameData atMostOne isNew List.length_set ?_
    (holds.forest.set isCopied values orphan) isMatch
  intro place differs
  exact List.getElem?_set_ne (Ne.symm differs)

omit atMostOne isNew in
theorem Simulates.setProxy
    (isMatch : Matches raw (heap.setProxy id changed) (copy.set augmented.data written) changed)
    : Simulates raw (heap.setProxy id changed) (copy.set augmented.data written) := by
  rw [← retargeted_nil] at isMatch ⊢
  exact holds.write isProxy sameData (Nat.zero_le 1) (fun _ member => by contradiction) isCopied
    values orphan isMatch

end

end N8n.AugmentObject
