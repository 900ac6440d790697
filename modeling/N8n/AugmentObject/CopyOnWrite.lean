import N8n.AugmentObject.Simulation

/-! Every operation on proxies gives what it gives on a deep copy, and leaves the original data
as it is.
-/

namespace N8n.AugmentObject

open N8n.Objects

variable {P : Type}

/-! ### Results on both sides -/

/-- Two results are the same, where `same` relates the objects of the two sides. The keys of
an object that is no array may come in another order.
-/
inductive Agrees {H H' : Type} (same : H → H' → Prop) : Result P H → Result P H' → Prop
  | undefined : Agrees same .undefined .undefined
  | primitive (p : P) : Agrees same (.primitive p) (.primitive p)
  | length (n : Nat) : Agrees same (.length n) (.length n)
  | builtin (function : Builtin) : Agrees same (.builtin function) (.builtin function)
  | handle {h h'} (isSame : same h h') : Agrees same (.handle h) (.handle h')
  | boolean (b : Bool) : Agrees same (.boolean b) (.boolean b)
  | arrayKeys (names : List Key) : Agrees same (.keys true names) (.keys true names)
  | objectKeys {names others} (perm : names.Perm others)
    : Agrees same (.keys false names) (.keys false others)
  | rangeError : Agrees same .rangeError .rangeError

theorem Agrees.mono {H H' : Type} {same wider : H → H' → Prop} {result : Result P H}
    {other : Result P H'} (agrees : Agrees same result other)
    (grows : ∀ h h', same h h' → wider h h')
    : Agrees wider result other := by
  cases agrees with
  | undefined => exact .undefined
  | primitive p => exact .primitive p
  | length n => exact .length n
  | builtin function => exact .builtin function
  | handle isSame => exact .handle (grows _ _ isSame)
  | boolean b => exact .boolean b
  | arrayKeys names => exact .arrayKeys names
  | objectKeys perm => exact .objectKeys perm
  | rangeError => exact .rangeError

/-- The object of the copy that a handle stands for. -/
def Corresponds (raw : Nat → Prop) (heap : Heap P) : Handle → Nat → Prop
  | .plain address, other => address = other ∧ raw address
  | .proxy id, other => ∃ augmented, heap.proxies[id]? = some augmented ∧ augmented.data = other

/-- The proxies keep their data. -/
def Keeps (heap heap' : Heap P) : Prop :=
  ∀ (id : Nat) augmented,
    heap.proxies[id]? = some augmented
    → ∃ changed, heap'.proxies[id]? = some changed ∧ changed.data = augmented.data

/-- Both sides go on to states that match, with results that agree. -/
def Agreement (raw : Nat → Prop) (heap : Heap P) (proxied : Result P Handle × Heap P)
    (copied : Result P Nat × Cells P)
    : Prop :=
  ∃ raw' : Nat → Prop,
    (∀ address, raw address → raw' address)
    ∧ Simulates raw' proxied.2 copied.2
    ∧ Keeps heap proxied.2
    ∧ Agrees (Corresponds raw' proxied.2) proxied.1 copied.1

variable {raw raw' : Nat → Prop} {heap heap' : Heap P} {copy : Cells P} {id address : Nat}
  {toLength : Json P → Option Nat} {key : Key}

theorem Keeps.refl (heap : Heap P) : Keeps heap heap := fun _ augmented found =>
  ⟨augmented, found, rfl⟩

theorem keeps_retargeted {augmented changed : Augmented P} {new : List (Augmented P)}
    (isProxy : heap.proxies[id]? = some augmented) (sameData : changed.data = augmented.data)
    : Keeps heap (heap.retargeted id changed new) :=
  fun _ _ found => retargeted_of_lt isProxy sameData found

theorem Corresponds.mono {h : Handle} (corresponds : Corresponds raw heap h address)
    (grows : ∀ address, raw address → raw' address) (keeps : Keeps heap heap')
    : Corresponds raw' heap' h address := by
  cases h with
  | plain other => exact ⟨corresponds.1, grows _ corresponds.2⟩
  | proxy id =>
      obtain ⟨augmented, found, rfl⟩ := corresponds
      exact keeps id augmented found

theorem Agreement.read {result : Result P Handle} {other : Result P Nat}
    (holds : Simulates raw heap copy) (agrees : Agrees (Corresponds raw heap) result other)
    : Agreement raw heap (result, heap) (other, copy) :=
  ⟨raw, fun _ => id, holds, Keeps.refl heap, agrees⟩

/-- Reading a value on both sides. -/
def valueResult : Value P → Result P Nat
  | .primitive p => .primitive p
  | .ref child => .handle child

theorem operate_get {copied : Table (Value P)} (isCopied : copy[address]? = some copied)
    : Objects.operate toLength copy address (.get key)
      = match copied.own? key with
        | some (.length n) => (.length n, copy)
        | some (.value value) => (valueResult value, copy)
        | none => (inheritedResult copied.isArray key, copy) := by
  simp only [Objects.operate, isCopied]
  rcases copied.own? key with - | (n | (p | child)) <;> rfl

theorem agrees_resultOf [DecidableEq P] {value : NewValue P} {referent : Value P}
    (refers : heap.referent value = some referent)
    (isRaw : ∀ address, value = .handle (.plain address) → raw address)
    : Agrees (Corresponds raw heap) (resultOf value) (valueResult referent) := by
  cases value with
  | undefined => contradiction
  | primitive p =>
      cases refers
      exact .primitive p
  | handle h =>
      cases h with
      | plain address =>
          cases refers
          exact .handle ⟨rfl, isRaw address rfl⟩
      | proxy id =>
          obtain ⟨augmented, found, rfl⟩ := Option.map_eq_some_iff.mp refers
          exact .handle ⟨augmented, found, rfl⟩

theorem agrees_inherited (same : Handle → Nat → Prop) (isArray : Bool) (key : Key)
    : Agrees same (inheritedResult isArray key : Result P Handle)
        (inheritedResult isArray key) := by
  unfold inheritedResult
  cases inherited? isArray key with
  | none => exact .undefined
  | some function => exact .builtin function

/-! ### Plain objects -/

theorem plain_agreement [DecidableEq P] (holds : Simulates raw heap copy) (isRaw : raw address)
    (operation : Operation P)
    : Agreement raw heap (heap.operate toLength (.plain address) operation)
        (Objects.operate toLength copy address operation) := by
  have inside := holds.rawBound address isRaw
  obtain ⟨table, found⟩ : ∃ table, heap.cells[address]? = some table :=
    ⟨_, List.getElem?_eq_getElem inside⟩
  have isCopied : copy[address]? = some table :=
    (holds.same address (holds.rawFree address isRaw)).trans found
  simp only [Heap.operate]
  cases operation with
  | get key =>
      rw [operate_get found, operate_get isCopied]
      cases own : table.own? key with
      | none =>
          refine .read holds ?_
          simp only [inheritedResult]
          cases inherited? table.isArray key with
          | none => exact .undefined
          | some function => exact .builtin function
      | some property =>
          cases property with
          | length n => exact .read holds (.length n)
          | value value =>
              cases value with
              | primitive p => exact .read holds (.primitive p)
              | ref child =>
                  have isValue : table.get? key = some (.ref child) := by
                    unfold Table.own? at own
                    split at own
                    · obtain ⟨n, -, same⟩ := Option.map_eq_some_iff.mp own
                      contradiction
                    · obtain ⟨value, isValue, same⟩ := Option.map_eq_some_iff.mp own
                      rw [isValue, Property.value.inj same]
                  exact .read holds (.handle
                    ⟨rfl, holds.rawChildren _ _ _ isRaw ⟨table, found, isValue⟩⟩)
  | set key newValue =>
      have extended := holds.extend (build_fresh heap.cells.length newValue).1 True
      simp only [Objects.operate, found, isCopied, holds.length]
      have foundNew
          : (heap.cells ++ (build heap.cells.length newValue).2)[address]? = some table := by
        rw [List.getElem?_append_left inside]
        exact found
      cases written : table.write key (build heap.cells.length newValue).1 (toLength newValue) with
      | none => exact ⟨_, fun _ => .inl, extended, Keeps.refl heap, .rangeError⟩
      | some changed =>
          refine ⟨_, fun _ => .inl, extended.setRaw (.inl isRaw) foundNew
            (fun _ _ after => (Table.get?_write written after).imp id (fun isNew =>
              ⟨isNew.1, congrArg some isNew.2.symm⟩)) ?_, Keeps.refl heap, .boolean true⟩
          intro child refers
          have root := holds.forest.root newValue (holds.length ▸ Option.some.inj refers)
          rw [holds.length] at root
          exact ⟨.inr ⟨trivial, root.1, root.2.1⟩, root.2.2⟩
  | delete key =>
      simp only [Objects.operate, found, isCopied]
      have kept (other : Key) (new : Value P)
          (after : (table.remove key).2.get? other = some new)
          : table.get? other = some new ∨ other = key ∧ none = some new :=
        .inl (Table.get?_remove after)
      have changed := holds.setRaw isRaw found kept (fun child none => by contradiction)
      exact ⟨raw, fun _ => id, changed, Keeps.refl heap, .boolean _⟩
  | has key =>
      simp only [Objects.operate, found, isCopied]
      exact .read holds (.boolean _)
  | ownKeys =>
      simp only [Objects.operate, found, isCopied]
      refine .read holds ?_
      cases table.isArray with
      | true => exact .arrayKeys _
      | false => exact .objectKeys (.refl _)

/-! ### Objects -/

section

variable {data : Nat} {newData : Table (NewValue P)}
  {deletedProperties : List Key} {target copied : Table (Value P)} {value : NewValue P}

section

variable (holds : ObjectMatches raw heap copy data newData deletedProperties target copied)

include holds

theorem ObjectMatches.get?_deleted (deleted : key ∈ deletedProperties)
    : copied.get? key = none := by
  have agrees := holds.agrees key
  simp only [view, if_pos deleted, Option.map_none] at agrees
  exact Option.map_eq_none_iff.mp agrees.symm

theorem ObjectMatches.get?_new (kept : key ∉ deletedProperties)
    (isNew : newData.get? key = some value)
    : ∃ referent, heap.referent value = some referent ∧ copied.get? key = some referent := by
  have agrees := holds.agrees key
  simp only [view, if_neg kept, isNew, Option.map_some] at agrees
  obtain ⟨referent, isReferent, same⟩ := Option.map_eq_some_iff.mp agrees.symm
  exact ⟨referent, same.symm, isReferent⟩

theorem ObjectMatches.get?_target (kept : key ∉ deletedProperties)
    (notNew : newData.get? key = none)
    : copied.get? key = target.get? key := by
  have agrees := holds.agrees key
  simp only [view, if_neg kept, notNew, Option.map_map] at agrees
  cases found : target.get? key with
  | none => simpa [found] using agrees.symm
  | some value =>
      simp only [found, Option.map_some, Function.comp_apply, referent_ofValue] at agrees
      obtain ⟨referent, isReferent, same⟩ := Option.map_eq_some_iff.mp agrees.symm
      rw [isReferent, same]

end

/-- A name of `Object.prototype` that the original object has itself was not deleted. -/
def NotErased (target copied : Table (Value P)) (key : Key) : Prop :=
  (inherited? false key).isSome → (target.own? key).isSome → (copied.own? key).isSome

theorem ObjectMatches.inherited_deleted
    (holds : ObjectMatches raw heap copy data newData deletedProperties target copied)
    (notErased : NotErased target copied key) (deleted : key ∈ deletedProperties)
    : inherited? false key = none := by
  cases isInherited : inherited? false key with
  | none => rfl
  | some function =>
      have isOwn : (target.own? key).isSome := by
        rw [Table.own?_of_object holds.targetObject, Option.isSome_map]
        exact holds.deletedOwn key deleted
      have stillOwn := notErased (by simp [isInherited]) isOwn
      rw [Table.own?_of_object holds.copiedObject, holds.get?_deleted deleted] at stillOwn
      contradiction

section

variable (holds : Simulates raw heap copy)
  (isProxy : heap.proxies[id]? = some (.object data newData deletedProperties))
  (isMatch : ObjectMatches raw heap copy data newData deletedProperties target copied)

include holds isProxy isMatch

/-- A proxy that is made when a property is read first. -/
theorem objectGet_unvisited {child : Nat} {table : Table (Value P)} (kept : key ∉ deletedProperties)
    (notNew : newData.get? key = none) (refers : target.get? key = some (.ref child))
    (found : heap.cells[child]? = some table)
    : Simulates raw
        (heap.retargeted id
          (.object data
            {
              newData with
              properties := newData.properties.set key (.handle (.proxy heap.proxies.length))
            } deletedProperties)
          [proxyOf child table])
        copy := by
  have isChild := isMatch.child kept notNew refers
  have untouched := isMatch.unvisited key child kept notNew refers
  have onlyHere {place other : Nat} {otherKey : Key} (same : other = child)
      (isOther : Child copy place otherKey other)
      : place = data ∧ otherKey = key := by
    subst same
    exact holds.forest.unique _ _ _ _ _ isOther isChild
  refine holds.retarget isProxy rfl (Nat.le_refl 1) ?_ rfl (fun _ _ => rfl) holds.forest ?_
  · intro fresh member
    rw [List.mem_singleton.mp member, data_proxyOf]
    exact ⟨table, found, rfl, untouched, fun place other isOther => (onlyHere rfl isOther).1⟩
  · refine ⟨target, copied, isMatch.isTarget, isMatch.isCopied, isMatch.notRaw,
      isMatch.targetObject, isMatch.copiedObject, isMatch.newObject, ?_, ?_, ?_,
      isMatch.deletedOwn⟩
    · intro other
      by_cases same : other = key
      · subst same
        rw [isMatch.get?_target kept notNew, refers]
        simp only [view, if_neg kept, Table.get?, Dict.get?_set_self, Option.map_some]
        simp only [Heap.referent, retargeted_last isProxy, Option.map_some, data_proxyOf]
      · have sameView
            : view target
                {
                  newData with
                  properties :=
                    newData.properties.set key (.handle (.proxy heap.proxies.length))
                } deletedProperties other
              = view target newData deletedProperties other := by
          simp only [view, Table.get?, Dict.get?_set_of_ne _ _ same]
        rw [sameView]
        have agrees := isMatch.agrees other
        cases viewed : view target newData deletedProperties other with
        | none => simpa [viewed] using agrees
        | some value =>
            rw [viewed] at agrees
            obtain ⟨referent, isReferent, isValue⟩ := Option.map_eq_some_iff.mp agrees.symm
            rw [isReferent, Option.map_some, Option.map_some]
            exact congrArg some (referent_retargeted isProxy (by rfl) isValue.symm)
    · intro other address isPlain
      simp only [Table.get?, Dict.get?_set] at isPlain
      split at isPlain
      · simp at isPlain
      · exact isMatch.rawValues other address isPlain
    · intro other address keptOther notNewOther refersOther
      have differs : other ≠ key := by
        rintro rfl
        simp [Table.get?] at notNewOther
      have notNewBefore : newData.get? other = none := by
        simpa only [Table.get?, Dict.get?_set_of_ne _ _ differs] using notNewOther
      refine untouched_retargeted isProxy rfl (Nat.le_refl 1)
        (isMatch.unvisited other address keptOther notNewBefore refersOther) ?_
      rintro fresh member same
      rw [List.mem_singleton.mp member, data_proxyOf] at same
      exact differs (onlyHere same.symm (isMatch.child keptOther notNewBefore refersOther)).2

theorem objectGet_agreement [DecidableEq P]
    (ownConstructor : key = .name "constructor" → copied.own? key = none)
    (notErased : key ≠ .name "constructor" → NotErased target copied key)
    : Agreement raw heap (heap.objectGet id data newData deletedProperties key)
        (Objects.operate toLength copy data (.get key)) := by
  rw [operate_get isMatch.isCopied]
  have notArray : copied.isArray = false := by simp [Table.isArray, isMatch.copiedObject]
  unfold Heap.objectGet
  by_cases isConstructor : key = .name "constructor"
  · rw [if_pos isConstructor, ownConstructor isConstructor, notArray, isConstructor]
    exact .read holds (.builtin _)
  · rw [if_neg isConstructor, Table.own?_of_object isMatch.copiedObject]
    by_cases deleted : key ∈ deletedProperties
    · rw [if_pos deleted, isMatch.get?_deleted deleted, notArray]
      simp only [Option.map_none, inheritedResult,
        isMatch.inherited_deleted (notErased isConstructor) deleted]
      exact .read holds .undefined
    · rw [if_neg deleted]
      cases isNew : newData.get? key with
      | some value =>
          obtain ⟨referent, refers, isValue⟩ := isMatch.get?_new deleted isNew
          rw [isValue]
          refine .read holds (agrees_resultOf refers ?_)
          rintro address rfl
          exact isMatch.rawValues key address isNew
      | none =>
          simp only [isMatch.isTarget, isMatch.get?_target deleted isNew,
            Table.own?_of_object isMatch.targetObject]
          cases refers : target.get? key with
          | none =>
              have sameArray : target.isArray = copied.isArray := by
                simp [Table.isArray, isMatch.targetObject, isMatch.copiedObject]
              rw [Option.map_none, sameArray]
              exact .read holds (agrees_inherited _ _ _)
          | some value =>
              cases value with
              | primitive p =>
                  simp only [Option.map_some, ofValue, Heap.augment, ne_eq, not_true_eq_false,
                    if_false]
                  exact .read holds (.primitive p)
              | ref child =>
                  have isChild := isMatch.child deleted isNew refers
                  obtain ⟨table, found⟩ : ∃ table, heap.cells[child]? = some table :=
                    ⟨_, List.getElem?_eq_getElem (holds.length ▸ holds.forest.closed _ _ _ isChild)⟩
                  have next := objectGet_unvisited holds isProxy isMatch deleted isNew refers found
                  simp only [Option.map_some, ofValue, Heap.augment, found, ne_eq,
                    NewValue.handle.injEq, reduceCtorEq, not_false_eq_true, if_true]
                  exact ⟨raw, fun _ isRaw => isRaw, next, keeps_retargeted isProxy (by rfl),
                    .handle ⟨_, retargeted_last isProxy, data_proxyOf child table⟩⟩

end

section

variable {newData' : Table (NewValue P)} {deletedProperties' : List Key}
  {written : Table (Value P)}
  (isMatch : ObjectMatches raw heap copy data newData deletedProperties target copied)
  (isProxy : heap.proxies[id]? = some (.object data newData deletedProperties))
  (otherCopied : ∀ other, other ≠ key → written.get? other = copied.get? other)

include isMatch isProxy otherCopied

theorem ObjectMatches.change
    (newObject : newData'.length = none) (writtenObject : written.length = none)
    (otherNew : ∀ other, other ≠ key → newData'.get? other = newData.get? other)
    (otherDeleted : ∀ other, other ≠ key
      → (other ∈ deletedProperties' ↔ other ∈ deletedProperties))
    (here : (view target newData' deletedProperties' key).map heap.referent
      = (written.get? key).map some)
    (rawHere : ∀ address, newData'.get? key = some (.handle (.plain address)) → raw address)
    (unvisitedHere : key ∉ deletedProperties' → newData'.get? key = none
      → target.get? key = none)
    (deletedHere : key ∈ deletedProperties' → (target.get? key).isSome)
    : ObjectMatches raw (heap.setProxy id (.object data newData' deletedProperties'))
        (copy.set data written) data newData' deletedProperties' target written := by
  have inside := (List.getElem?_eq_some_iff.mp isMatch.isCopied).1
  have referents (value : NewValue P) (referent : Value P)
      (found : heap.referent value = some referent)
      : (heap.setProxy id (.object data newData' deletedProperties')).referent value
        = some referent := by
    rw [← retargeted_nil]
    exact referent_retargeted isProxy (by rfl) found
  refine ⟨isMatch.isTarget, List.getElem?_set_self inside, isMatch.notRaw, isMatch.targetObject,
    writtenObject, newObject, ?_, ?_, ?_, ?_⟩
  · intro other
    have agrees
        : (view target newData' deletedProperties' other).map heap.referent
          = (written.get? other).map some := by
      by_cases same : other = key
      · subst same
        exact here
      · have sameView
            : view target newData' deletedProperties' other
              = view target newData deletedProperties other := by
          simp only [view, otherNew other same, otherDeleted other same]
        rw [sameView, isMatch.agrees other, otherCopied other same]
    cases viewed : view target newData' deletedProperties' other with
    | none => simpa [viewed] using agrees
    | some value =>
        rw [viewed] at agrees
        obtain ⟨referent, isReferent, isValue⟩ := Option.map_eq_some_iff.mp agrees.symm
        rw [isReferent, Option.map_some, Option.map_some]
        exact congrArg some (referents value referent isValue.symm)
  · intro other address isPlain
    by_cases same : other = key
    · subst same
      exact rawHere address isPlain
    · rw [otherNew other same] at isPlain
      exact isMatch.rawValues other address isPlain
  · intro other address kept notNew refers
    by_cases same : other = key
    · subst same
      rw [unvisitedHere kept notNew] at refers
      contradiction
    · rw [otherNew other same] at notNew
      rw [otherDeleted other same] at kept
      rw [← retargeted_nil]
      exact untouched_retargeted isProxy (by rfl) (Nat.zero_le 1)
        (isMatch.unvisited other address kept notNew refers) (fun _ member => by contradiction)
  · intro other deleted
    by_cases same : other = key
    · subst same
      exact deletedHere deleted
    · exact isMatch.deletedOwn other ((otherDeleted other same).mp deleted)

/-- A change at one key, of a proxy and of the object of the copy. -/
theorem Simulates.changeObject (holds : Simulates raw heap copy)
    (orphan : ∀ child, written.get? key = some (.ref child)
      → child < copy.length ∧ ∀ place other, ¬Child copy place other child)
    (changed : ObjectMatches raw (heap.setProxy id (.object data newData' deletedProperties'))
      (copy.set data written) data newData' deletedProperties' target written)
    : Simulates raw (heap.setProxy id (.object data newData' deletedProperties'))
        (copy.set data written) := by
  have values (other : Key) (value : Value P) (found : written.get? other = some value)
      : copied.get? other = some value ∨ other = key ∧ written.get? key = some value := by
    by_cases same : other = key
    · exact .inr ⟨same, same ▸ found⟩
    · exact .inl (otherCopied other same ▸ found)
  exact holds.setProxy isProxy (by rfl) isMatch.isCopied values orphan ⟨_, _, changed⟩

end

theorem keeps_setProxy {augmented changed : Augmented P}
    (isProxy : heap.proxies[id]? = some augmented) (sameData : changed.data = augmented.data)
    : Keeps heap (heap.setProxy id changed) := by
  rw [← retargeted_nil]
  exact keeps_retargeted isProxy sameData

section

variable (holds : Simulates raw heap copy)
  (isMatch : ObjectMatches raw heap copy data newData deletedProperties target copied)
  (isProxy : heap.proxies[id]? = some (.object data newData deletedProperties))

include holds isMatch isProxy

/-- A new value under a key, of a proxy and of the object of the copy. -/
theorem Simulates.assignObject {value : Value P}
    (root : ∀ child, value = .ref child
      → raw child ∧ ∀ place other, ¬Child copy place other child)
    : Simulates raw
        (heap.setProxy id (.object data
          { newData with properties := newData.properties.set key (ofValue value) }
          (deletedProperties.filter (fun other => other ≠ key))))
        (copy.set data { copied with properties := copied.properties.set key value }) := by
  have otherCopied (other : Key) (differs : other ≠ key)
      : (copied.properties.set key value).get? other = copied.get? other :=
    Dict.get?_set_of_ne _ _ differs
  refine holds.changeObject isMatch isProxy otherCopied ?_ ?_
  · intro child assigned
    simp only [Table.get?, Dict.get?_set_self, Option.some.injEq] at assigned
    obtain ⟨isRaw, noParent⟩ := root child assigned
    exact ⟨holds.length ▸ holds.rawBound child isRaw, noParent⟩
  · refine isMatch.change isProxy otherCopied isMatch.newObject isMatch.copiedObject
      (fun other differs => Dict.get?_set_of_ne _ _ differs)
      (fun other differs => by simp [differs])
      (by simp [view, Table.get?]) ?_ (by simp [Table.get?]) (by simp)
    intro address isPlain
    simp only [Table.get?, Dict.get?_set_self, Option.some.injEq] at isPlain
    cases value with
    | primitive p => contradiction
    | ref child =>
        obtain rfl : child = address := by simpa [ofValue] using isPlain
        exact (root child rfl).1

/-- A key without a value from now on, for a proxy and for the object of the copy. -/
theorem Simulates.eraseObject {deletedProperties' : List Key}
    (otherDeleted : ∀ other, other ≠ key
      → (other ∈ deletedProperties' ↔ other ∈ deletedProperties))
    (isDeleted : key ∈ deletedProperties' ∨ target.get? key = none)
    (isOwn : key ∈ deletedProperties' → (target.get? key).isSome)
    : Simulates raw
        (heap.setProxy id (.object data
          { newData with properties := newData.properties.delete key } deletedProperties'))
        (copy.set data { copied with properties := copied.properties.delete key }) := by
  have otherCopied (other : Key) (differs : other ≠ key)
      : (copied.properties.delete key).get? other = copied.get? other :=
    by rw [Dict.get?_delete, if_neg differs, Table.get?]
  refine holds.changeObject isMatch isProxy otherCopied ?_ ?_
  · intro child assigned
    simp [Table.get?, Dict.get?_delete] at assigned
  · refine isMatch.change isProxy otherCopied isMatch.newObject isMatch.copiedObject
      (fun other differs => by simp [Table.get?, Dict.get?_delete, differs]) otherDeleted
      ?_ (by simp [Table.get?, Dict.get?_delete]) ?_ isOwn
    · rcases isDeleted with deleted | absent
      · simp [view, deleted, Table.get?, Dict.get?_delete]
      · have none : target.properties.get? key = none := absent
        simp [view, none, Table.get?, Dict.get?_delete]
    · intro kept _
      exact isDeleted.resolve_left kept

end

section

variable (holds : Simulates raw heap copy)
  (isProxy : heap.proxies[id]? = some (.object data newData deletedProperties))
  (isMatch : ObjectMatches raw heap copy data newData deletedProperties target copied)

include holds isProxy isMatch

theorem objectSet_agreement [DecidableEq P] (newValue : Json P)
    : Agreement raw heap (heap.objectSet id data newData deletedProperties key newValue)
        (Objects.operate toLength copy data (.set key newValue)) := by
  have sameLength := holds.length
  have inside : data < copy.length := (List.getElem?_eq_some_iff.mp isMatch.isCopied).1
  have extended := holds.extend (build_fresh heap.cells.length newValue).1 True
  have root (child : Nat) (refers : (build heap.cells.length newValue).1 = .ref child)
      : (raw child ∨ True ∧ heap.cells.length ≤ child
          ∧ child < heap.cells.length + (build heap.cells.length newValue).2.length)
        ∧ ∀ place other,
          ¬Child (copy ++ (build heap.cells.length newValue).2) place other child := by
    have isRoot := holds.forest.root newValue (sameLength ▸ refers)
    rw [sameLength] at isRoot
    exact ⟨.inr ⟨trivial, isRoot.1, isRoot.2.1⟩, isRoot.2.2⟩
  simp only [Heap.objectSet, Objects.operate, isMatch.isCopied, sameLength,
    Table.write_of_object isMatch.copiedObject]
  obtain ⟨target', copied', isMatch'⟩ := extended.isMatch id _ isProxy
  obtain rfl : copied = copied' := by
    have isCopied := isMatch'.isCopied
    rw [List.getElem?_append_left inside, isMatch.isCopied] at isCopied
    exact Option.some.inj isCopied
  exact ⟨_, fun _ => .inl, extended.assignObject isMatch' isProxy root,
    keeps_setProxy isProxy rfl, .boolean true⟩

theorem objectDelete_agreement [DecidableEq P]
    : Agreement raw heap (heap.objectDelete id data newData deletedProperties key)
        (Objects.operate toLength copy data (.delete key)) := by
  simp only [Heap.objectDelete, Objects.operate, isMatch.isCopied, isMatch.isTarget,
    Table.remove_of_object isMatch.copiedObject]
  rw [Table.own?_of_object isMatch.targetObject]
  refine ⟨raw, fun _ isRaw => isRaw, holds.eraseObject isMatch isProxy ?_ ?_ ?_,
    keeps_setProxy isProxy rfl, .boolean true⟩
  · intro other differs
    split
    · simp [differs]
    · exact Iff.rfl
  · cases absent : target.get? key with
    | none => exact .inr rfl
    | some value =>
        refine .inl ?_
        split
        · simp
        · next already => simpa using already
  · intro deleted
    split at deleted
    · next isOwn => simpa using isOwn.1
    · exact isMatch.deletedOwn key deleted

end

theorem ObjectMatches.isSome_view
    (holds : ObjectMatches raw heap copy data newData deletedProperties target copied)
    : (view target newData deletedProperties key).isSome = (copied.get? key).isSome := by
  have agrees := congrArg Option.isSome (holds.agrees key)
  simpa using agrees

variable (isMatch : ObjectMatches raw heap copy data newData deletedProperties target copied)

include isMatch

theorem objectHas_agreement (notErased : NotErased target copied key)
    : heap.objectHas data newData deletedProperties key = copied.hasProperty key := by
  have same : (view target newData deletedProperties key).isSome = (copied.get? key).isSome :=
    isMatch.isSome_view
  simp only [Heap.objectHas, Table.hasProperty, isMatch.isTarget,
    Table.own?_of_object isMatch.copiedObject, Table.own?_of_object isMatch.targetObject,
    Table.own?_of_object isMatch.newObject, Option.isSome_map, ← same, view]
  have arrays
      : newData.isArray = false ∧ target.isArray = false ∧ copied.isArray = false := by
    simp [Table.isArray, isMatch.newObject, isMatch.targetObject, isMatch.copiedObject]
  by_cases deleted : key ∈ deletedProperties
  · simp [deleted, isMatch.inherited_deleted notErased deleted, arrays]
  · cases isNew : newData.get? key with
    | none | some => simp [deleted, arrays]

theorem objectOwnKeys_agreement
    : (heap.objectOwnKeys data newData deletedProperties).Perm copied.ownKeys := by
  simp only [Heap.objectOwnKeys, isMatch.isTarget]
  refine (List.perm_ext_iff_of_nodup ?_ (Table.nodup_ownKeys_of_object isMatch.copiedObject)).mpr ?_
  · refine List.Nodup.filter _ (List.nodup_append.mpr
      ⟨Table.nodup_ownKeys_of_object isMatch.targetObject,
        (Table.nodup_ownKeys_of_object isMatch.newObject).filter _, ?_⟩)
    rintro key original _ member rfl
    have isNew := (List.mem_filter.mp member).2
    simp [original] at isNew
  · intro key
    rw [Table.mem_ownKeys_of_object isMatch.copiedObject, ← isMatch.isSome_view]
    simp only [List.mem_filter, List.mem_append, decide_eq_true_eq,
      Table.mem_ownKeys_of_object isMatch.targetObject,
      Table.mem_ownKeys_of_object isMatch.newObject]
    by_cases deleted : key ∈ deletedProperties
    · simp [view, deleted]
    · cases isNew : newData.get? key with
      | none => simp [view, deleted, isNew]
      | some value =>
          cases target.get? key with
          | none | some => simp [view, deleted, isNew]

end

end N8n.AugmentObject
