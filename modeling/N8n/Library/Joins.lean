import Mathlib.Algebra.Order.BigOperators.Group.List
import Mathlib.Algebra.Order.Group.Nat

/-! The join of two lists: each item on the left gets its partners on the right, all of them or
the first one. A looser condition gives the join of a stricter one exactly when no partner that
it finds fails the stricter one.
-/

namespace N8n.Joins

variable {α β : Type*}

/-- The partners of an item, with their places. -/
def partners (firstOnly : Bool) (accepts : α → β → Bool) (right : List β) (a : α)
    : List (β × Nat) :=
  let matching := right.zipIdx.filter (fun b => accepts a b.1)
  if firstOnly then matching.take 1 else matching

/-- An item with its partners, each in an entry of its own or all in one. -/
def entries (separate : Bool) (a : α) (bs : List β) : List (α × List β) :=
  if bs.isEmpty then [] else if separate then bs.map (fun b => (a, [b])) else [(a, bs)]

structure Joined (α β : Type*) where
  matched : List (α × List β)
  matched2 : List β
  unmatched1 : List α
  unmatched2 : List β

/-- The place is one of a partner of some item on the left. -/
def picked (firstOnly : Bool) (accepts : α → β → Bool) (left : List α) (right : List β)
    (place : Nat)
    : Bool :=
  left.any (fun a => (partners firstOnly accepts right a).any (fun b => b.2 = place))

def join (separate firstOnly : Bool) (accepts : α → β → Bool) (left : List α) (right : List β)
    : Joined α β where
  matched :=
    left.flatMap (fun a =>
      entries separate a ((partners firstOnly accepts right a).map Prod.fst))
  matched2 :=
    (right.zipIdx.filter (fun b => picked firstOnly accepts left right b.2)).map Prod.fst
  unmatched1 := left.filter (fun a => (partners firstOnly accepts right a).isEmpty)
  unmatched2 :=
    (right.zipIdx.filter (fun b => !picked firstOnly accepts left right b.2)).map Prod.fst

variable {separate firstOnly : Bool} {loose strict : α → β → Bool} {left : List α}
  {right : List β} {a : α} {b : β × Nat}

theorem of_mem_partners (member : b ∈ partners firstOnly strict right a) : strict a b.1 = true := by
  have inside : b ∈ right.zipIdx.filter (fun b => strict a b.1) := by
    unfold partners at member
    split at member
    · exact List.mem_of_mem_take member
    · exact member
  exact (List.mem_filter.mp inside).2

/-- An item without partners has no match. -/
theorem partners_isEmpty
    : (partners firstOnly strict right a).isEmpty = !right.any (strict a) := by
  have matching : (right.zipIdx.filter (fun b => strict a b.1)).isEmpty = !right.any (strict a) := by
    rw [Bool.eq_iff_iff, List.isEmpty_iff, List.filter_eq_nil_iff, Bool.not_eq_true',
      List.any_eq_false]
    constructor
    · intro none b member
      obtain ⟨place, inside, rfl⟩ := List.getElem_of_mem member
      exact none (right[place], place) (List.mk_mem_zipIdx_iff_getElem?.mpr (by simp [inside]))
    · intro none b member
      exact none b.1 (List.fst_mem_of_mem_zipIdx member)
  rw [← matching, partners]
  split
  · cases right.zipIdx.filter (fun b => strict a b.1) <;> rfl
  · rfl

section

variable (weaker : ∀ a b, strict a b = true → loose a b = true)

include weaker

/-- The partners of the stricter condition are among the items that meet the looser one. -/
theorem partners_strict_eq
    : partners firstOnly strict right a
      = if firstOnly then ((right.zipIdx.filter (fun b => loose a b.1)).filter
          (fun b => strict a b.1)).take 1
        else (right.zipIdx.filter (fun b => loose a b.1)).filter (fun b => strict a b.1) := by
  have both : right.zipIdx.filter (fun b => strict a b.1)
      = (right.zipIdx.filter (fun b => loose a b.1)).filter (fun b => strict a b.1) := by
    rw [List.filter_filter]
    refine List.filter_congr (fun b _ => ?_)
    cases isStrict : strict a b.1
    · rfl
    · simp [weaker a b.1 isStrict]
  rw [← both]
  rfl

theorem partners_eq (passes : ∀ b ∈ partners firstOnly loose right a, strict a b.1 = true)
    : partners firstOnly strict right a = partners firstOnly loose right a := by
  rw [partners_strict_eq weaker]
  unfold partners at passes ⊢
  cases firstOnly with
  | false => exact List.filter_eq_self.mpr passes
  | true =>
      cases matching : right.zipIdx.filter (fun b => loose a b.1) with
      | nil => rfl
      | cons b rest =>
          have isStrict : strict a b.1 = true := passes b (by simp [matching])
          simp [isStrict]

theorem length_partners_le (firstOnly : Bool) (right : List β) (a : α)
    : (partners firstOnly strict right a).length ≤ (partners firstOnly loose right a).length := by
  have shorter := List.length_filter_le (fun b => strict a b.1)
    (right.zipIdx.filter (fun b => loose a b.1))
  rw [partners_strict_eq weaker, partners]
  split
  · simp only [List.length_take]
    omega
  · exact shorter

end

theorem entries_injective (separate : Bool) (a : α)
    : Function.Injective (entries separate a : List β → List (α × List β)) := by
  intro bs cs same
  cases separate with
  | false => cases bs <;> cases cs <;> simp_all [entries]
  | true =>
      have all (ds : List β) : entries true a ds = ds.map (fun b => (a, [b])) := by
        cases ds <;> rfl
      rw [all, all] at same
      exact List.map_injective_iff.mpr (fun b c same => by simpa using same) same

theorem length_entries (a : α) (bs : List β)
    : (entries separate a bs).length = if separate then bs.length else min 1 bs.length := by
  cases separate <;> cases bs <;> simp [entries]

/-- Pieces of which none is shorter, but which make up the same list, are the same. -/
theorem eq_of_flatMap {γ δ : Type*} {items : List γ} {f g : γ → List δ}
    (longer : ∀ item ∈ items, (g item).length ≤ (f item).length)
    (same : items.flatMap f = items.flatMap g)
    : ∀ item ∈ items, f item = g item := by
  induction items with
  | nil => simp
  | cons first rest ih =>
      obtain ⟨here, later⟩ := List.forall_mem_cons.mp longer
      have total : (rest.flatMap g).length ≤ (rest.flatMap f).length := by
        rw [List.length_flatMap, List.length_flatMap]
        exact List.sum_le_sum later
      have lengths := congrArg List.length same
      simp only [List.flatMap_cons, List.length_append] at same lengths
      obtain ⟨head, tail⟩ := List.append_inj same (by omega)
      exact List.forall_mem_cons.mpr ⟨head, ih later tail⟩

theorem join_eq_iff (weaker : ∀ a b, strict a b = true → loose a b = true)
    : join separate firstOnly loose left right = join separate firstOnly strict left right
      ↔ ∀ a ∈ left, ∀ b ∈ partners firstOnly loose right a, strict a b.1 = true := by
  constructor
  · intro same a member b partner
    have pieces := eq_of_flatMap (fun a _ => ?_) (congrArg Joined.matched same) a member
    · have names := entries_injective separate a pieces
      obtain ⟨c, inside, isSame⟩ :=
        List.mem_map.mp (names ▸ List.mem_map_of_mem (f := Prod.fst) partner)
      exact isSame ▸ of_mem_partners inside
    · have shorter := length_partners_le weaker firstOnly right a
      simp only [length_entries, List.length_map]
      split <;> omega
  · intro passes
    have same (a) (member : a ∈ left) := partners_eq weaker (passes a member)
    have places (place : Nat)
        : picked firstOnly loose left right place = picked firstOnly strict left right place := by
      rw [Bool.eq_iff_iff]
      simp only [picked, List.any_eq_true]
      exact exists_congr (fun a => and_congr_right (fun member => by rw [same a member]))
    simp only [join, places, Joined.mk.injEq, true_and, and_true]
    refine ⟨?_, List.filter_congr (fun a member => by rw [same a member])⟩
    exact List.flatMap_congr (fun a member => by rw [same a member])

end N8n.Joins
