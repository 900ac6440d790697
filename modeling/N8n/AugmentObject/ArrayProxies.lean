import N8n.AugmentObject.CopyOnWrite

/-! The operations on an array proxy and on the array of the copy. -/

namespace N8n.AugmentObject

open N8n.Objects

variable {P : Type} {raw : Nat → Prop} {heap : Heap P} {copy : Cells P} {id data : Nat}
  {toLength : Json P → Option Nat} {key : Key} {newData : Option (Table (NewValue P))}
  {target copied : Table (Value P)} {changed : Augmented P} {new : List (Augmented P)}

/-- Spreading an array that nobody changed gives its values. -/
theorem spread_arrayOf (values : List (Value P))
    : Heap.spread (arrayOf values) = (arrayOf values).map ofValue := by
  rw [map_arrayOf]
  unfold Heap.spread
  refine congrArg arrayOf (List.ext_getElem? (fun place => ?_))
  rw [List.getElem?_map, List.getElem?_map]
  change Option.map _ ((List.range values.length)[place]?) = _
  rcases Nat.lt_or_ge place values.length with inside | after
  · simp [get?_arrayOf_index, inside]
  · simp [after]

section

variable (isMatch : ArrayMatches raw heap copy data newData target copied)

include isMatch

theorem ArrayMatches.getData_eq (holds : Simulates raw heap copy)
    : heap.getData data newData = heap.current data newData := by
  cases newData with
  | some newData => rfl
  | none =>
      simp only [Heap.getData, Heap.current, isMatch.isTarget]
      rcases holds.pristine data target isMatch.notRaw isMatch.isTarget with isObject | ⟨values, rfl⟩
      · have sameLength := congrArg Table.length isMatch.agrees
        have isArray := isMatch.copiedArray
        simp only [Heap.current, isMatch.isTarget, Table.length_map, isObject] at sameLength
        simp [Table.isArray, ← sameLength] at isArray
      · exact spread_arrayOf values

/-- What the values of an array stand for is not changed when its proxy is. -/
theorem ArrayMatches.agrees_retargeted (isProxy : heap.proxies[id]? = some (.array data newData))
    (sameData : changed.data = data)
    : (heap.current data newData).map (heap.retargeted id changed new).referent
      = copied.map some := by
  rw [← isMatch.agrees]
  refine Table.map_congr ?_
  intro key value found
  have agrees := isMatch.get? key
  rw [found] at agrees
  obtain ⟨referent, -, isReferent⟩ := Option.map_eq_some_iff.mp agrees.symm
  rw [← isReferent]
  exact referent_retargeted isProxy sameData isReferent.symm

theorem ArrayMatches.copiedBounded
    : copied.Bounded := by
  intro n length isLength isSome
  have sameLength : (heap.current data newData).length = copied.length := by
    simpa using congrArg Table.length isMatch.agrees
  have agrees := isMatch.get? (.index n)
  refine isMatch.bounded n length (sameLength.trans isLength) ?_
  have same := congrArg Option.isSome agrees
  simpa [isSome] using same

theorem ArrayMatches.own?
    : ((heap.current data newData).own? key).map (Table.Property.map heap.referent)
      = (copied.own? key).map (Table.Property.map some) := by
  rw [← Table.own?_map, isMatch.agrees, Table.own?_map]

theorem arrayHas_agreement
    : (heap.current data newData).hasProperty key = copied.hasProperty key := by
  have same := congrArg (fun table => Table.hasProperty table key) isMatch.agrees
  simpa only [Table.hasProperty_map] using same

theorem arrayOwnKeys_agreement
    : (heap.current data newData).ownKeys = copied.ownKeys := by
  have same := congrArg Table.ownKeys isMatch.agrees
  simpa only [Table.ownKeys_map] using same

/-- An array proxy keeps a changed array, and a proxy may be made on the way. -/
theorem ArrayMatches.retargeted {current : Table (NewValue P)} {written : Table (Value P)}
    {copy' : Cells P} (isProxy : heap.proxies[id]? = some (.array data newData))
    (atMostOne : new.length ≤ 1) (isWritten : copy'[data]? = some written)
    (writtenArray : written.isArray = true)
    (agrees : current.map (heap.retargeted id (.array data (some current)) new).referent
      = written.map some) (bounded : current.Bounded)
    (kept : ∀ key address, current.get? key = some (.handle (.plain address))
      → (heap.current data newData).get? key = some (.handle (.plain address))
        ∧ ∀ fresh ∈ new, fresh.data ≠ address)
    : Matches raw (heap.retargeted id (.array data (some current)) new) copy'
        (.array data (some current)) := by
  refine ⟨target, written, isMatch.isTarget, isWritten, isMatch.notRaw, writtenArray, agrees,
    bounded, ?_⟩
  intro key address found
  obtain ⟨before, notNew⟩ := kept key address found
  exact untouched_retargeted isProxy rfl atMostOne (isMatch.unvisited key address before) notNew

end

section

variable (holds : Simulates raw heap copy)
  (isProxy : heap.proxies[id]? = some (.array data newData))
  (isMatch : ArrayMatches raw heap copy data newData target copied)

include holds isProxy isMatch

theorem arrayGet_unvisited {child : Nat} {table : Table (Value P)} {current : Table (NewValue P)}
    (own : copied.own? key = some (.value (.ref child)))
    (refers : (heap.current data newData).get? key = some (.handle (.plain child)))
    (found : heap.cells[child]? = some table)
    (written : (heap.current data newData).write key (.handle (.proxy heap.proxies.length)) none
      = some current)
    : Simulates raw
        (heap.retargeted id (.array data (some current)) [proxyOf child table]) copy := by
  have isChild := isMatch.child refers
  have untouched := isMatch.unvisited key child refers
  refine holds.retarget isProxy rfl (Nat.le_refl 1) ?_ rfl (fun _ _ => rfl) holds.forest ?_
  · intro fresh member
    rw [List.mem_singleton.mp member, data_proxyOf]
    exact ⟨table, found, rfl, untouched,
      fun place other isOther => (holds.forest.unique _ _ _ _ _ isOther isChild).1⟩
  · refine isMatch.retargeted isProxy (Nat.le_refl 1) isMatch.isCopied isMatch.copiedArray ?_
      (isMatch.bounded.write written) ?_
    · have isReferent
          : (heap.retargeted id (.array data (some current)) [proxyOf child table]).referent
              (.handle (.proxy heap.proxies.length))
            = some (.ref child) := by
        simp only [Heap.referent, retargeted_last isProxy, Option.map_some, data_proxyOf]
      have both
          : ((heap.current data newData).map (heap.retargeted id (.array data (some current))
              [proxyOf child table]).referent).write key
              ((heap.retargeted id (.array data (some current)) [proxyOf child table]).referent
                (.handle (.proxy heap.proxies.length))) none
            = ((heap.current data newData).write key (.handle (.proxy heap.proxies.length))
                none).map _ := Table.write_map none
      rw [isMatch.agrees_retargeted isProxy rfl, isReferent, Table.write_map, written,
        Table.write_self isMatch.copiedBounded own] at both
      exact (Option.some.inj both).symm
    · intro other address isPlain
      rcases Table.get?_write written isPlain with before | ⟨-, isProxyHandle⟩
      · refine ⟨before, ?_⟩
        rintro fresh member same
        rw [List.mem_singleton.mp member, data_proxyOf] at same
        subst same
        obtain ⟨-, rfl⟩ := holds.forest.unique _ _ _ _ _ (isMatch.child before) isChild
        rw [Table.get?_write_self written] at isPlain
        simp at isPlain
      · simp at isProxyHandle

theorem arrayGet_agreement [DecidableEq P]
    (allowed : key = .name "constructor" → copied.own? key = none)
    : Agreement raw heap (heap.arrayGet id data newData key)
        (Objects.operate toLength copy data (.get key)) := by
  rw [operate_get isMatch.isCopied]
  unfold Heap.arrayGet
  by_cases isConstructor : key = .name "constructor"
  · rw [if_pos isConstructor, allowed isConstructor, isMatch.copiedArray, isConstructor]
    exact .read holds (.builtin _)
  · rw [if_neg isConstructor]
    have both
        : ((heap.current data newData).own? key).map (Table.Property.map heap.referent)
          = (copied.own? key).map (Table.Property.map some) := isMatch.own?
    cases own : (heap.current data newData).own? key with
    | none =>
        rw [own] at both
        rw [Option.map_eq_none_iff.mp both.symm, isMatch.copiedArray]
        exact .read holds (agrees_inherited _ _ _)
    | some property =>
        rw [own] at both
        obtain ⟨other, isOther, same⟩ := Option.map_eq_some_iff.mp both.symm
        rw [isOther]
        cases property with
        | length n =>
            cases other with
            | length m =>
                obtain rfl := Property.length.inj same
                exact .read holds (.length m)
            | value referent => contradiction
        | value value =>
            cases other with
            | length m => contradiction
            | value referent =>
                have refers : heap.referent value = some referent :=
                  (Property.value.inj same).symm
                cases value with
                | undefined => contradiction
                | primitive p =>
                    simp only [Heap.augment, ne_eq, not_true_eq_false, if_false]
                    exact .read holds
                      (agrees_resultOf refers (fun _ isPlain => by contradiction))
                | handle h =>
                    cases h with
                    | proxy other =>
                        simp only [Heap.augment, ne_eq, not_true_eq_false, if_false]
                        exact .read holds
                          (agrees_resultOf refers (fun _ isPlain => by simp at isPlain))
                    | plain child =>
                        cases refers
                        have isNew := Table.get?_of_own? own
                        obtain ⟨table, found⟩ : ∃ table, heap.cells[child]? = some table :=
                          ⟨_, List.getElem?_eq_getElem
                            (holds.length ▸ holds.forest.closed _ _ _ (isMatch.child isNew))⟩
                        obtain ⟨current, written⟩ := Table.exists_write own
                          (.handle (.proxy heap.proxies.length))
                        have next := arrayGet_unvisited holds isProxy isMatch isOther isNew found
                          written
                        simp only [Heap.augment, found, ne_eq, NewValue.handle.injEq,
                          reduceCtorEq, not_false_eq_true, if_true, isMatch.getData_eq holds,
                          written]
                        exact ⟨raw, fun _ isRaw => isRaw, next, keeps_retargeted isProxy (by rfl),
                          .handle ⟨_, retargeted_last isProxy, data_proxyOf child table⟩⟩

theorem arrayDelete_agreement
    : Agreement raw heap (heap.arrayDelete id data newData key)
        (Objects.operate toLength copy data (.delete key)) := by
  have inside := (List.getElem?_eq_some_iff.mp isMatch.isCopied).1
  simp only [Heap.arrayDelete, Objects.operate, isMatch.isCopied, isMatch.getData_eq holds]
  have both
      : ((heap.current data newData).map heap.referent).remove key
        = (copied.map some).remove key := by rw [isMatch.agrees]
  rw [Table.remove_map, Table.remove_map] at both
  obtain ⟨sameResult, -⟩ := Prod.mk.inj both
  have sameTable
      : ((heap.current data newData).remove key).2.map
          (heap.retargeted id (.array data (some ((heap.current data newData).remove key).2))
            []).referent
        = (copied.remove key).2.map some := by
    have both
        : ((heap.current data newData).map (heap.retargeted id
            (.array data (some ((heap.current data newData).remove key).2)) []).referent).remove key
          = _ := Table.remove_map
    rw [isMatch.agrees_retargeted isProxy rfl, Table.remove_map] at both
    exact (Prod.mk.inj both).2.symm
  rw [sameResult]
  have values (other : Key) (value : Value P)
      (found : (copied.remove key).2.get? other = some value)
      : copied.get? other = some value ∨ other = key ∧ none = some value :=
    .inl (Table.get?_remove found)
  have isMatch'
      : Matches raw
          (heap.retargeted id (.array data (some ((heap.current data newData).remove key).2)) [])
          (copy.set data (copied.remove key).2)
          (.array data (some ((heap.current data newData).remove key).2)) :=
    isMatch.retargeted isProxy (Nat.zero_le 1) (List.getElem?_set_self inside)
      (Table.isArray_remove.trans isMatch.copiedArray) sameTable isMatch.bounded.remove
      (fun _ _ found => ⟨Table.get?_remove found, fun _ member => by contradiction⟩)
  rw [retargeted_nil] at isMatch'
  have next := holds.setProxy isProxy (by rfl) isMatch.isCopied values
    (fun _ assigned => by contradiction) isMatch'
  exact ⟨raw, fun _ isRaw => isRaw, next, keeps_setProxy isProxy rfl, .boolean _⟩

end

section

variable {value : Value P} {newValue : NewValue P} {current : Table (NewValue P)}

variable (key new) (newLength : Option Nat) in
/-- An assignment to an array proxy, with a proxy for the assigned value. -/
theorem Simulates.assignArray (holds : Simulates raw heap copy)
    (isProxy : heap.proxies[id]? = some (.array data newData))
    (isMatch : ArrayMatches raw heap copy data newData target copied)
    (atMostOne : new.length ≤ 1)
    (isNew : ∀ fresh ∈ new, ∃ table,
      heap.cells[fresh.data]? = some table ∧ fresh = proxyOf fresh.data table
      ∧ heap.Untouched raw fresh.data ∧ ∀ place key, ¬Child copy place key fresh.data)
    (notPlain : ∀ address, newValue ≠ .handle (.plain address))
    (isReferent : ∀ current, (heap.retargeted id (.array data (some current)) new).referent newValue
      = some value)
    (root : ∀ child, value = .ref child
      → child < copy.length ∧ ∀ place other, ¬Child copy place other child)
    : match (heap.current data newData).write key newValue newLength with
      | some current =>
          ∃ written, copied.write key value newLength = some written
            ∧ Simulates raw (heap.retargeted id (.array data (some current)) new)
                (copy.set data written)
      | none =>
          copied.write key value newLength = none
          ∧ Simulates raw
              (heap.retargeted id (.array data (some (heap.current data newData))) new) copy := by
  have inside := (List.getElem?_eq_some_iff.mp isMatch.isCopied).1
  have isNew' (fresh : Augmented P) (member : fresh ∈ new)
      : ∃ table, heap.cells[fresh.data]? = some table ∧ fresh = proxyOf fresh.data table
        ∧ heap.Untouched raw fresh.data
        ∧ ∀ place key, Child copy place key fresh.data
          → place = (Augmented.array data newData).data := by
    obtain ⟨table, found, isFresh, untouched, noParent⟩ := isNew fresh member
    exact ⟨table, found, isFresh, untouched,
      fun place key isChild => absurd isChild (noParent place key)⟩
  -- An element that is no proxy yet is not what a new proxy is of.
  have kept (key : Key) (address : Nat)
      (before : (heap.current data newData).get? key = some (.handle (.plain address)))
      : ∀ fresh ∈ new, fresh.data ≠ address := by
    rintro fresh member rfl
    obtain ⟨-, -, -, -, noParent⟩ := isNew fresh member
    exact noParent _ _ (isMatch.child before)
  have both (current : Table (NewValue P))
      : (copied.write key value newLength).map (fun written => written.map some)
        = ((heap.current data newData).write key newValue newLength).map (fun changed =>
            changed.map (heap.retargeted id (.array data (some current)) new).referent) := by
    rw [← Table.write_map, ← Table.write_map, isMatch.agrees_retargeted isProxy rfl,
      isReferent current]
  cases assigned : (heap.current data newData).write key newValue newLength with
  | some current =>
      have sameTable := both current
      rw [assigned] at sameTable
      obtain ⟨written, isWritten, same⟩ := Option.map_eq_some_iff.mp sameTable
      have values (other : Key) (new : Value P) (found : written.get? other = some new)
          : copied.get? other = some new ∨ other = key ∧ some value = some new :=
        (Table.get?_write isWritten found).imp (fun old => old)
          (fun isLast => ⟨isLast.1, congrArg some isLast.2.symm⟩)
      refine ⟨written, isWritten,
        holds.write isProxy rfl atMostOne isNew' isMatch.isCopied values ?_ ?_⟩
      · intro child isValue
        exact root child (Option.some.inj isValue)
      · refine isMatch.retargeted isProxy atMostOne (List.getElem?_set_self inside)
          ((Table.isArray_write isWritten).trans isMatch.copiedArray) same.symm
          (isMatch.bounded.write assigned) ?_
        intro other address found
        rcases Table.get?_write assigned found with before | ⟨-, isPlain⟩
        · exact ⟨before, kept other address before⟩
        · exact absurd isPlain.symm (notPlain address)
  | none =>
      have sameTable := both (heap.current data newData)
      rw [assigned] at sameTable
      refine ⟨Option.map_eq_none_iff.mp sameTable, holds.retarget isProxy rfl atMostOne isNew' rfl
        (fun _ _ => rfl) holds.forest ?_⟩
      exact isMatch.retargeted isProxy atMostOne isMatch.isCopied isMatch.copiedArray
        (isMatch.agrees_retargeted isProxy rfl) isMatch.bounded
        (fun key address before => ⟨before, kept key address before⟩)

end

/-- What an assignment gives on both sides, once new cells are there for the assigned value. -/
theorem agreement_of_assigned {cells : Cells P} {current : Table (NewValue P)}
    {assigned : Option (Table (NewValue P))} {copyAssigned : Option (Table (Value P))}
    {raw' : Nat → Prop} (isProxy : heap.proxies[id]? = some (.array data newData))
    (grows : ∀ address, raw address → raw' address)
    : (match assigned with
      | some current =>
          ∃ written, copyAssigned = some written
            ∧ Simulates raw'
                (Heap.retargeted ⟨cells, heap.proxies⟩ id (.array data (some current)) new)
                (copy.set data written)
      | none =>
          copyAssigned = none
          ∧ Simulates raw'
              (Heap.retargeted ⟨cells, heap.proxies⟩ id (.array data (some current)) new) copy)
      → Agreement raw heap
          (match assigned with
            | some changed =>
                (.boolean true, Heap.setProxy ⟨cells, heap.proxies ++ new⟩ id
                  (.array data (some changed)))
            | none =>
                (.rangeError, Heap.setProxy ⟨cells, heap.proxies ++ new⟩ id
                  (.array data (some current))))
          (match copyAssigned with
            | some changed => (.boolean true, copy.set data changed)
            | none => (.rangeError, copy)) := by
  intro both
  have keeps (changed : Table (NewValue P))
      : Keeps heap (Heap.retargeted ⟨cells, heap.proxies⟩ id (.array data (some changed)) new) :=
    fun _ _ found => retargeted_of_lt isProxy rfl found
  cases assigned with
  | some changed =>
      obtain ⟨written, rfl, next⟩ := both
      exact ⟨raw', grows, next, keeps changed, .boolean true⟩
  | none =>
      obtain ⟨rfl, next⟩ := both
      exact ⟨raw', grows, next, keeps current, .rangeError⟩

theorem arraySet_agreement [DecidableEq P] (holds : Simulates raw heap copy)
    (isProxy : heap.proxies[id]? = some (.array data newData))
    (isMatch : ArrayMatches raw heap copy data newData target copied) (newValue : Json P)
    : Agreement raw heap (heap.arraySet toLength id data newData key newValue)
        (Objects.operate toLength copy data (.set key newValue)) := by
  have sameLength := holds.length
  have inside : data < copy.length := (List.getElem?_eq_some_iff.mp isMatch.isCopied).1
  have extended := holds.extend (build_fresh heap.cells.length newValue).1 False
  have root (child : Nat) (refers : (build heap.cells.length newValue).1 = .ref child)
      : heap.cells.length ≤ child
        ∧ child < (copy ++ (build heap.cells.length newValue).2).length
        ∧ ∀ place other,
          ¬Child (copy ++ (build heap.cells.length newValue).2) place other child := by
    have isRoot := holds.forest.root newValue (sameLength ▸ refers)
    rw [sameLength] at isRoot
    exact ⟨isRoot.1, by simpa [sameLength] using isRoot.2.1, isRoot.2.2⟩
  simp only [Heap.arraySet, Objects.operate, isMatch.isCopied, sameLength, isMatch.getData_eq holds]
  generalize build heap.cells.length newValue = built at extended root ⊢
  obtain ⟨value, cells⟩ := built
  obtain ⟨target', copied', isMatch'⟩ := extended.isMatch id _ isProxy
  obtain rfl : copied = copied' := by
    have isCopied := isMatch'.isCopied
    rw [List.getElem?_append_left inside, isMatch.isCopied] at isCopied
    exact Option.some.inj isCopied
  have sameCurrent
      : Heap.current ⟨heap.cells ++ cells, heap.proxies⟩ data newData
        = heap.current data newData := by
    cases newData with
    | some newData => rfl
    | none =>
        simp only [Heap.current, List.getElem?_append_left (sameLength ▸ inside)]
  cases value with
  | primitive p =>
      have isReferent (current : Table (NewValue P))
          : (Heap.retargeted ⟨heap.cells ++ cells, heap.proxies⟩ id (.array data (some current))
              []).referent (.primitive p)
            = some (.primitive p) := rfl
      have both := extended.assignArray key [] (toLength newValue) isProxy isMatch' (Nat.zero_le 1)
        (fun _ member => by contradiction)
        (fun _ isPlain => by contradiction) isReferent (fun _ isRef => by contradiction)
      rw [sameCurrent] at both
      have agreement := agreement_of_assigned isProxy (fun _ => .inl) both
      rw [List.append_nil] at agreement
      exact agreement
  | ref child =>
      obtain ⟨isNew, bound, noParent⟩ := root child rfl
      obtain ⟨table, found⟩ : ∃ table, (heap.cells ++ cells)[child]? = some table :=
        ⟨_, List.getElem?_eq_getElem (by simpa [sameLength] using bound)⟩
      have untouched
          : Heap.Untouched (fun address => raw address
              ∨ False ∧ heap.cells.length ≤ address
                ∧ address < heap.cells.length + cells.length)
              ⟨heap.cells ++ cells, heap.proxies⟩ child := by
        refine ⟨?_, fun targeted => absurd (holds.targeted_lt targeted) (Nat.not_lt.mpr isNew)⟩
        rintro (isRaw | ⟨never, -⟩)
        · exact absurd (holds.rawBound child isRaw) (Nat.not_lt.mpr isNew)
        · exact never
      have isReferent (current : Table (NewValue P))
          : (Heap.retargeted ⟨heap.cells ++ cells, heap.proxies⟩ id (.array data (some current))
              [proxyOf child table]).referent (.handle (.proxy heap.proxies.length))
            = some (.ref child) := by
        have isLast
            : (Heap.retargeted ⟨heap.cells ++ cells, heap.proxies⟩ id (.array data (some current))
                [proxyOf child table]).proxies[heap.proxies.length]?
              = some (proxyOf child table) := retargeted_last isProxy
        simp only [Heap.referent, isLast, Option.map_some, data_proxyOf]
      have isFresh (fresh : Augmented P) (member : fresh ∈ [proxyOf child table])
          : ∃ table, (heap.cells ++ cells)[fresh.data]? = some table
            ∧ fresh = proxyOf fresh.data table
            ∧ Heap.Untouched (fun address => raw address
                ∨ False ∧ heap.cells.length ≤ address
                  ∧ address < heap.cells.length + cells.length)
                ⟨heap.cells ++ cells, heap.proxies⟩ fresh.data
            ∧ ∀ place key, ¬Child (copy ++ cells) place key fresh.data := by
        rw [List.mem_singleton.mp member, data_proxyOf]
        exact ⟨table, found, rfl, untouched, noParent⟩
      have isRoot (other : Nat) (isRef : Value.ref child = (.ref other : Value P))
          : other < (copy ++ cells).length
            ∧ ∀ place key, ¬Child (copy ++ cells) place key other := by
        obtain rfl := Value.ref.inj isRef
        exact ⟨bound, noParent⟩
      have both := extended.assignArray key [proxyOf child table] (toLength newValue) isProxy
        isMatch' (Nat.le_refl 1) isFresh (fun _ isPlain => by simp at isPlain) isReferent isRoot
      rw [sameCurrent] at both
      have agreement := agreement_of_assigned isProxy (fun _ => .inl) both
      simp only [ofValue, Heap.augment, found]
      exact agreement

end N8n.AugmentObject
