import N8n.Library.JavaScript

/-! Places that hold arrays, where several places may hold the same array: what is taken out of
it at one place is gone at the others.
-/

namespace N8n.SharedArrays

variable {α : Type*}

/-- An array that is given stands under its number, and may be at several places; one that is
made later is at a single place.
-/
inductive Held (α : Type*) where
  | given (array : Nat)
  | made (items : List α)
  deriving DecidableEq

structure Places (α : Type*) where
  arrays : List (List α)
  places : List (Slot (Held α))
  deriving DecidableEq

namespace Places

def held (self : Places α) (place : Nat) : Slot (Held α) := Slot.read self.places place

def array? (self : Places α) (place : Nat) : Option Nat :=
  match self.held place with
  | .value (.given array) => some array
  | _ => none

/-- Without an array, a place has no items. -/
def contents (self : Places α) (place : Nat) : List α :=
  match self.held place with
  | .value (.given array) => self.arrays.getD array []
  | .value (.made items) => items
  | _ => []

/-- Takes all items out of the array at the place. -/
def drain (self : Places α) (place : Nat) : Places α :=
  match self.array? place with
  | some array => { self with arrays := self.arrays.set array [] }
  | none => self

def assign (self : Places α) (place : Nat) (items : List α) : Places α :=
  { self with places := Slot.write self.places place (.value (.made items)) }

/-- Takes all items out of the array at the place, and puts a new one there. -/
def replace (self : Places α) (place : Nat) (items : List α) : Places α :=
  (self.drain place).assign place items

def Shares (self : Places α) (place other : Nat) : Prop :=
  self.array? place ≠ none ∧ self.array? place = self.array? other

instance (self : Places α) (place other : Nat) : Decidable (self.Shares place other) :=
  inferInstanceAs (Decidable (_ ∧ _))

variable {self : Places α} {place other : Nat} {items : List α}

theorem Shares.symm (shares : self.Shares place other) : self.Shares other place :=
  ⟨shares.2 ▸ shares.1, shares.2.symm⟩

theorem contents_of_array {array : Nat} (isArray : self.array? place = some array)
    : self.contents place = self.arrays.getD array [] := by
  unfold array? at isArray
  split at isArray
  · next held =>
      cases isArray
      simp [contents, held]
  · contradiction

theorem Shares.contents (shares : self.Shares place other)
    : self.contents place = self.contents other := by
  obtain ⟨array, isArray⟩ := Option.ne_none_iff_exists'.mp shares.1
  rw [contents_of_array isArray, contents_of_array (shares.2 ▸ isArray)]

theorem held_drain : (self.drain place).held other = self.held other := by
  unfold drain
  split <;> rfl

theorem array?_drain : (self.drain place).array? other = self.array? other := by
  unfold array?
  rw [held_drain]

theorem getD_drain (array : Nat)
    : (self.drain place).arrays.getD array []
        = if self.array? place = some array then [] else self.arrays.getD array [] := by
  unfold drain
  split
  · next drained here =>
      simp only [List.getD_eq_getElem?_getD, List.getElem?_set, here, Option.some.injEq]
      by_cases same : drained = array
      · subst same
        by_cases inside : drained < self.arrays.length
        · simp [inside]
        · simp [inside]
      · simp [same]
  · next here => simp [here]

/-- Draining a place empties those that share its array. -/
theorem contents_drain
    : (self.drain place).contents other
        = if self.Shares place other then [] else self.contents other := by
  cases isArray : self.array? other with
  | none =>
      have apart : ¬ self.Shares place other := fun shares => shares.1 (shares.2.trans isArray)
      rw [if_neg apart]
      unfold contents
      rw [held_drain]
      split
      · next held => simp [array?, held] at isArray
      · rfl
      · rfl
  | some array =>
      have shares : self.Shares place other ↔ self.array? place = some array := by
        unfold Shares
        rw [isArray]
        exact ⟨And.right, fun same => ⟨by simp [same], same⟩⟩
      rw [contents_of_array (array?_drain.trans isArray), contents_of_array isArray, getD_drain]
      simp only [shares]

theorem held_assign
    : (self.assign place items).held other
        = if other = place then .value (.made items) else self.held other :=
  Slot.read_write ..

theorem contents_assign
    : (self.assign place items).contents other
        = if other = place then items else self.contents other := by
  unfold contents
  rw [held_assign]
  by_cases same : other = place
  · simp [same]
  · simp only [same, if_false]
    rfl

theorem contents_replace
    : (self.replace place items).contents other
        = if other = place then items
          else if self.Shares place other then [] else self.contents other := by
  rw [replace, contents_assign, contents_drain]

theorem array?_replace
    : (self.replace place items).array? other
        = if other = place then none else self.array? other := by
  unfold replace array?
  rw [held_assign, held_drain]
  by_cases same : other = place
  · simp [same]
  · simp [same]

/-- What the place still has once the places below `count` have been emptied. -/
def remaining (self : Places α) (count place : Nat) : List α :=
  if ∃ earlier, earlier < count ∧ self.Shares earlier place then [] else self.contents place

/-- Replaces the array of each place below `count` by what `change` makes of it. -/
def replaceEach (change : List α → List α) (self : Places α) (count : Nat) : Places α :=
  (List.range count).foldl
    (fun places place => places.replace place (change (places.contents place))) self

theorem replaceEach_succ (change : List α → List α) (self : Places α) (count : Nat)
    : replaceEach change self (count + 1)
        = (replaceEach change self count).replace count
            (change ((replaceEach change self count).contents count)) := by
  unfold replaceEach
  rw [List.range_succ, List.foldl_concat]

theorem array?_replaceEach (change : List α → List α) (self : Places α) (count place : Nat)
    : (replaceEach change self count).array? place
        = if place < count then none else self.array? place := by
  induction count with
  | zero => rfl
  | succ count ih =>
      rw [replaceEach_succ, array?_replace, ih]
      by_cases same : place = count
      · simp [same]
      · have boundary : place < count + 1 ↔ place < count := by omega
        simp [same, boundary]

theorem contents_replaceEach (change : List α → List α) (self : Places α) (count place : Nat)
    : (replaceEach change self count).contents place
        = if place < count then change (self.remaining place place)
          else self.remaining count place := by
  induction count generalizing place with
  | zero => simp [replaceEach, remaining]
  | succ count ih =>
      rw [replaceEach_succ, contents_replace, ih, ih]
      by_cases same : place = count
      · subst same
        simp
      · by_cases below : place < count
        · have apart : ¬ (replaceEach change self count).Shares count place := by
            intro shares
            refine shares.1 (shares.2.trans ?_)
            rw [array?_replaceEach, if_pos below]
          rw [if_neg same, if_neg apart, if_pos below, if_pos (by omega)]
        · have sharing
              : (replaceEach change self count).Shares count place
                ↔ self.Shares count place := by
            unfold Shares
            simp only [array?_replaceEach, below, Nat.lt_irrefl, if_false]
          have earlier
              : (∃ earlier, earlier < count + 1 ∧ self.Shares earlier place)
                ↔ self.Shares count place
                  ∨ ∃ earlier, earlier < count ∧ self.Shares earlier place := by
            constructor
            · rintro ⟨place, before, shares⟩
              rcases Nat.lt_succ_iff_lt_or_eq.mp before with before | rfl
              · exact .inr ⟨place, before, shares⟩
              · exact .inl shares
            · rintro (shares | ⟨place, before, shares⟩)
              · exact ⟨count, by omega, shares⟩
              · exact ⟨place, by omega, shares⟩
          rw [if_neg same, if_neg below, if_neg (by omega : ¬ place < count + 1)]
          unfold remaining
          simp only [sharing, earlier]
          by_cases shares : self.Shares count place
          · simp [shares]
          · simp [shares]

end Places

end N8n.SharedArrays
