import N8n.Library.ObjectHeaps
import N8n.Library.Prototypes

/-! Heaps of which only some regions are visible: what refers to no other region cannot tell
heaps apart that agree on these.
-/

namespace N8n.Prototypes

open N8n.Objects (Key Table)

variable {N : Type} {visible : Nat → Prop} {heap heap' : Heap N} {address : Address} {key : Key}
  {value : Value N} {record : Record N} {depth : Nat}

def Value.Within (visible : Nat → Prop) (value : Value N) : Prop :=
  ∀ address, value.address? = some address → visible address.region

def Property.Within (visible : Nat → Prop) : Property N → Prop
  | .data value _ _ => value.Within visible
  | .prototype => True

structure Record.Within (visible : Nat → Prop) (record : Record N) : Prop where
  proto : record.proto.Within visible
  properties : ∀ key property, record.table.get? key = some property → property.Within visible

/-- Visible objects refer to visible ones. -/
def Heap.Closed (visible : Nat → Prop) (heap : Heap N) : Prop :=
  ∀ region, visible region → ∀ record ∈ heap region, record.Within visible

def Heap.Agree (visible : Nat → Prop) (heap heap' : Heap N) : Prop :=
  ∀ region, visible region → heap region = heap' region

theorem Value.within_scalar (s : Scalar N) : (Value.scalar s).Within visible := by
  intro address isAddress
  contradiction

theorem Record.Within.of_entries (proto : record.proto.Within visible)
    (entries : ∀ entry ∈ record.table.properties.entries, entry.2.Within visible)
    : record.Within visible :=
  ⟨proto, fun key property found => entries (key, property) (Dict.mem_entries_iff.mpr found)⟩

theorem Record.Within.mono {larger : Nat → Prop} (within : record.Within visible)
    (isLarger : ∀ region, visible region → larger region)
    : record.Within larger := by
  refine ⟨fun address isAddress => isLarger _ (within.proto address isAddress), ?_⟩
  intro key property found
  cases property with
  | data value writable enumerable =>
      exact fun address isAddress =>
        isLarger _ (within.properties key _ found address isAddress)
  | prototype => trivial

variable {changed : Record N} {newLength : Option Nat} {region : Nat}

namespace Heap

theorem Agree.record? (agree : Agree visible heap heap') (isVisible : visible address.region)
    : heap.record? address = heap'.record? address := by
  unfold Heap.record?
  rw [agree _ isVisible]

theorem Closed.record? (closed : heap.Closed visible) (isVisible : visible address.region)
    (found : heap.record? address = some record)
    : record.Within visible :=
  closed _ isVisible record (List.mem_of_getElem? found)

theorem Agree.find? (agree : Agree visible heap heap') (closed : heap.Closed visible)
    (isVisible : visible address.region)
    : heap.find? key depth address = heap'.find? key depth address := by
  induction depth generalizing address with
  | zero => rfl
  | succ depth ih =>
      unfold Heap.find?
      rw [← agree.record? isVisible]
      cases found : heap.record? address with
      | none => rfl
      | some record =>
          simp only
          cases record.table.own? key with
          | some property => rfl
          | none =>
              simp only
              cases isParent : record.proto.address? with
              | none => rfl
              | some parent => exact ih ((closed.record? isVisible found).proto _ isParent)

theorem Closed.find? {property : Property N} (closed : heap.Closed visible)
    (isVisible : visible address.region)
    (found : heap.find? key depth address = some (.value property))
    : property.Within visible := by
  induction depth generalizing address with
  | zero => contradiction
  | succ depth ih =>
      unfold Heap.find? at found
      cases isRecord : heap.record? address with
      | none => simp [isRecord] at found
      | some record =>
          have within := closed.record? isVisible isRecord
          rw [isRecord] at found
          simp only at found
          cases own : record.table.own? key with
          | some first =>
              rw [own] at found
              cases found
              exact within.properties key property (Table.get?_of_own? own)
          | none =>
              rw [own] at found
              simp only at found
              cases isParent : record.proto.address? with
              | none => simp [isParent] at found
              | some parent =>
                  rw [isParent] at found
                  exact ih (within.proto _ isParent) found

theorem Agree.reaches (agree : Agree visible heap heap') (closed : heap.Closed visible)
    {target : Address} (isVisible : visible address.region)
    : heap.reaches target depth address = heap'.reaches target depth address := by
  induction depth generalizing address with
  | zero => rfl
  | succ depth ih =>
      unfold Heap.reaches
      rw [← agree.record? isVisible]
      cases found : heap.record? address with
      | none => rfl
      | some record =>
          simp only
          cases isParent : record.proto.address? with
          | none => rfl
          | some parent =>
              simp only
              rw [ih ((closed.record? isVisible found).proto _ isParent)]

theorem Agree.update (agree : Agree visible heap heap')
    : Agree visible (heap.update address record) (heap'.update address record) := by
  intro region isVisible
  unfold Heap.update
  by_cases same : region = address.region
  · subst same
    simp only [Function.update_self, agree _ isVisible]
  · rw [Function.update_of_ne same, Function.update_of_ne same, agree _ isVisible]

theorem Closed.update (closed : heap.Closed visible) (within : record.Within visible)
    : (heap.update address record).Closed visible := by
  intro region isVisible other member
  unfold Heap.update at member
  by_cases same : region = address.region
  · subst same
    rw [Function.update_self] at member
    rcases List.mem_or_eq_of_mem_set member with old | rfl
    · exact closed _ isVisible other old
    · exact within
  · rw [Function.update_of_ne same] at member
    exact closed _ isVisible other member

theorem Agree.withPrototype (agree : Agree visible heap heap') (closed : heap.Closed visible)
    (within : value.Within visible)
    : heap.withPrototype depth address record value
      = heap'.withPrototype depth address record value := by
  unfold Heap.withPrototype
  cases value with
  | scalar s => cases s <;> rfl
  | object parent => simp only [agree.reaches closed (within parent rfl)]
  | function parent => simp only [agree.reaches closed (within parent rfl)]

theorem within_withPrototype (isWithin : record.Within visible) (within : value.Within visible)
    (isChanged : heap.withPrototype depth address record value = .ok changed)
    : changed.Within visible := by
  unfold Heap.withPrototype at isChanged
  split at isChanged
  · split at isChanged
    · cases isChanged
      exact ⟨within, isWithin.properties⟩
    · contradiction
  · cases isChanged
    exact isWithin
  · split at isChanged
    · cases isChanged
      exact ⟨within, isWithin.properties⟩
    · contradiction
  · split at isChanged
    · cases isChanged
      exact ⟨within, isWithin.properties⟩
    · contradiction

theorem Agree.assigned (agree : Agree visible heap heap') (closed : heap.Closed visible)
    (isWithin : record.Within visible) (within : value.Within visible) (newLength : Option Nat)
    : heap.assigned depth address record key value newLength
      = heap'.assigned depth address record key value newLength := by
  have sameInherited
      : record.proto.address?.bind (heap.find? key depth)
        = record.proto.address?.bind (heap'.find? key depth) := by
    cases isParent : record.proto.address? with
    | none => rfl
    | some parent => exact agree.find? closed (isWithin.proto _ isParent)
  unfold Heap.assigned
  rw [sameInherited, agree.withPrototype closed within]

theorem within_written (isWithin : record.Within visible) (within : value.Within visible)
    {enumerable : Bool} (isChanged : written record key value newLength enumerable = .ok changed)
    : changed.Within visible := by
  unfold written at isChanged
  split at isChanged
  · contradiction
  · next table isTable =>
      cases isChanged
      refine ⟨isWithin.proto, ?_⟩
      intro other property found
      rcases Table.get?_write isTable found with old | ⟨-, rfl⟩
      · exact isWithin.properties other property old
      · exact within

theorem within_assigned (isWithin : record.Within visible) (within : value.Within visible)
    (isChanged : heap.assigned depth address record key value newLength = .ok changed)
    : changed.Within visible := by
  unfold Heap.assigned at isChanged
  split at isChanged
  · split at isChanged
    · exact within_written isWithin within isChanged
    · contradiction
  · split at isChanged
    · exact within_written isWithin within isChanged
    · contradiction
  · exact within_withPrototype isWithin within isChanged
  · split at isChanged
    · contradiction
    · exact within_withPrototype isWithin within isChanged
    · split at isChanged
      · exact within_written isWithin within isChanged
      · contradiction

/-- An assignment to a visible object does the same on both heaps. -/
theorem Agree.put (agree : Agree visible heap heap') (closed : heap.Closed visible)
    (isVisible : visible address.region) (within : value.Within visible) (newLength : Option Nat)
    : (∃ error, heap.put depth address key value newLength = .error error
        ∧ heap'.put depth address key value newLength = .error error)
      ∨ ∃ changed changed',
          heap.put depth address key value newLength = .ok changed
          ∧ heap'.put depth address key value newLength = .ok changed'
          ∧ Agree visible changed changed' ∧ changed.Closed visible := by
  unfold Heap.put
  rw [← agree.record? isVisible]
  cases found : heap.record? address with
  | none => exact .inr ⟨heap, heap', rfl, rfl, agree, closed⟩
  | some record =>
      have isWithin := closed.record? isVisible found
      simp only
      rw [← agree.assigned closed isWithin within]
      cases isChanged : heap.assigned depth address record key value newLength with
      | error error => exact .inl ⟨error, rfl, rfl⟩
      | ok changed =>
          exact .inr ⟨_, _, rfl, rfl, agree.update,
            closed.update (within_assigned isWithin within isChanged)⟩

/-- An assignment changes nothing but the region of the object. -/
theorem put_of_ne {changed : Heap N}
    (isChanged : heap.put depth address key value newLength = .ok changed)
    (differs : region ≠ address.region)
    : changed region = heap region := by
  unfold Heap.put at isChanged
  split at isChanged
  · rw [← Except.ok.inj isChanged]
  · next record _ =>
      cases isAssigned : heap.assigned depth address record key value newLength with
      | error error => simp [isAssigned, Except.map] at isChanged
      | ok after =>
          rw [isAssigned] at isChanged
          rw [← Except.ok.inj isChanged]
          exact Function.update_of_ne differs _ _

theorem Agree.allocate (agree : Agree visible heap heap') (isVisible : visible region)
    : (heap.allocate region record).1 = (heap'.allocate region record).1
      ∧ Agree visible (heap.allocate region record).2 (heap'.allocate region record).2 := by
  unfold Heap.allocate
  refine ⟨by rw [agree region isVisible], ?_⟩
  intro other isOther
  by_cases same : other = region
  · subst same
    simp only [Function.update_self, agree _ isOther]
  · simp only [Function.update_of_ne same, agree _ isOther]

theorem Closed.allocate (closed : heap.Closed visible) (within : record.Within visible)
    : (heap.allocate region record).2.Closed visible := by
  intro other isOther found member
  unfold Heap.allocate at member
  by_cases same : other = region
  · subst same
    simp only [Function.update_self] at member
    rcases List.mem_append.mp member with old | last
    · exact closed _ isOther found old
    · rw [List.mem_singleton.mp last]
      exact within
  · simp only [Function.update_of_ne same] at member
    exact closed _ isOther found member

end Heap

end N8n.Prototypes
