import Mathlib.Data.List.Pairwise
import Mathlib.Tactic.Common

/-! Lists of intervals of natural numbers, in which every interval was grown as far as it could
be before the next one was opened: they meet pairwise exactly if the number of intervals over
a point rises to a peak and falls behind it.
-/

namespace N8n.Library

structure Interval where
  first : Nat
  last : Nat
  ordered : first ≤ last

variable {earlier later : Interval} {point : Nat}

namespace Interval

def Contains (interval : Interval) (point : Nat) : Prop :=
  interval.first ≤ point ∧ point ≤ interval.last

instance (interval : Interval) (point : Nat) : Decidable (interval.Contains point) :=
  inferInstanceAs (Decidable (_ ∧ _))

def Meets (left right : Interval) : Prop :=
  ∃ point, left.Contains point ∧ right.Contains point

/-- The later interval starts no earlier, and does not hold the point behind the earlier one,
which the earlier one would have taken.
-/
structure GrownBefore (earlier later : Interval) : Prop where
  first_le : earlier.first ≤ later.first
  stopped : ¬later.Contains (earlier.last + 1)

theorem first_mem (interval : Interval) : interval.Contains interval.first :=
  ⟨Nat.le_refl _, interval.ordered⟩

theorem last_mem (interval : Interval) : interval.Contains interval.last :=
  ⟨interval.ordered, Nat.le_refl _⟩

/-- A later interval that meets the earlier one lies in it. -/
theorem GrownBefore.last_le (grown : earlier.GrownBefore later) (meets : earlier.Meets later)
    : later.last ≤ earlier.last := by
  obtain ⟨point, ⟨_, below⟩, above, _⟩ := meets
  by_contra longer
  exact grown.stopped ⟨by omega, by omega⟩

/-- A later interval that does not meet the earlier one leaves a gap. -/
theorem GrownBefore.gap (grown : earlier.GrownBefore later) (apart : ¬earlier.Meets later)
    : earlier.last + 1 < later.first := by
  have ordered := later.ordered
  by_contra near
  by_cases inside : later.first ≤ earlier.last
  · exact apart ⟨later.first, ⟨grown.first_le, inside⟩, later.first_mem⟩
  · exact grown.stopped ⟨by omega, by omega⟩

/-- How many of the intervals hold the point. -/
def depth (intervals : List Interval) (point : Nat) : Nat :=
  intervals.countP (fun interval => decide (interval.Contains point))

section

variable {intervals : List Interval} {other : Nat}
  (moves : ∀ interval ∈ intervals, interval.Contains point → interval.Contains other)

include moves

theorem depth_le
    : depth intervals point ≤ depth intervals other :=
  List.countP_mono_left fun interval member holds =>
    decide_eq_true (moves interval member (of_decide_eq_true holds))

theorem depth_lt {extra : Interval} (member : extra ∈ intervals) (holds : extra.Contains other)
    (misses : ¬extra.Contains point)
    : depth intervals point < depth intervals other := by
  obtain ⟨before, behind, rfl⟩ := List.append_of_mem member
  have left : depth before point ≤ depth before other :=
    depth_le fun interval inside => moves interval (List.mem_append_left _ inside)
  have right : depth behind point ≤ depth behind other :=
    depth_le fun interval inside => moves interval (by simp [inside])
  simp only [depth] at left right ⊢
  rw [List.countP_append, List.countP_append,
    List.countP_cons_of_neg (by simpa using misses),
    List.countP_cons_of_pos (by simpa using holds)]
  omega

end

end Interval

/-- The values rise up to a peak and fall behind it. -/
def Unimodal (value : Nat → Nat) : Prop :=
  ∃ peak,
    (∀ index < peak, value index ≤ value (index + 1))
    ∧ ∀ index ≥ peak, value (index + 1) ≤ value index

section Grown

open Interval

variable {intervals : List Interval}

variable (grown : intervals.Pairwise GrownBefore)

include grown

/-- Of two intervals of the list, one was grown before the other. -/
theorem grown_or_grown {left right : Interval} (leftMember : left ∈ intervals)
    (rightMember : right ∈ intervals)
    : left = right ∨ left.GrownBefore right ∨ right.GrownBefore left := by
  by_cases same : left = right
  · exact .inl same
  · have symmetric : Std.Symm (fun left right : Interval =>
        left.GrownBefore right ∨ right.GrownBefore left) :=
      ⟨fun _ _ either => either.symm⟩
    have either : intervals.Pairwise (fun left right =>
        left.GrownBefore right ∨ right.GrownBefore left) :=
      grown.imp Or.inl
    exact .inr (either.forall leftMember rightMember same)

/-- Behind the end of an interval that stops in front of another one there are fewer. -/
theorem depth_behind_lt (member : earlier ∈ intervals)
    : depth intervals (earlier.last + 1) < depth intervals earlier.last := by
  refine depth_lt ?_ member earlier.last_mem (fun holds => by have := holds.2; omega)
  intro other otherMember holds
  rcases grown_or_grown grown member otherMember with rfl | after | before
  · exact absurd holds.2 (by omega)
  · exact absurd holds after.stopped
  · exact ⟨Nat.le_trans before.first_le earlier.ordered, by have := holds.2; omega⟩

/-- In front of an interval that does not meet an earlier one there are fewer. -/
theorem depth_front_lt (member : later ∈ intervals) (front : point + 1 = later.first)
    : depth intervals point < depth intervals later.first := by
  refine depth_lt ?_ member later.first_mem (fun holds => by have := holds.1; omega)
  intro other otherMember holds
  have ordered := later.ordered
  rcases grown_or_grown grown member otherMember with rfl | after | before
  · exact absurd holds.1 (by omega)
  · have := after.first_le
    exact absurd holds.1 (by omega)
  · refine ⟨before.first_le, ?_⟩
    by_contra short
    have ends : other.last = point := by have := holds.2; omega
    exact before.stopped ⟨by omega, by omega⟩

/-- Intervals that meet pairwise are nested, so all of them hold a point of the innermost. -/
theorem exists_common (meets : intervals.Pairwise Meets)
    : ∃ peak, ∀ interval ∈ intervals, interval.Contains peak := by
  induction intervals with
  | nil => exact ⟨0, by simp⟩
  | cons outer rest ih =>
      obtain ⟨outerGrown, restGrown⟩ := List.pairwise_cons.mp grown
      obtain ⟨outerMeets, restMeets⟩ := List.pairwise_cons.mp meets
      cases rest with
      | nil => exact ⟨outer.first, by simp [outer.first_mem]⟩
      | cons inner more =>
          obtain ⟨peak, common⟩ := ih restGrown restMeets
          refine ⟨peak, fun interval member => ?_⟩
          rcases List.mem_cons.mp member with rfl | inRest
          · have holds := common inner (.head _)
            have before := outerGrown inner (.head _)
            have shorter := before.last_le (outerMeets inner (.head _))
            exact ⟨Nat.le_trans before.first_le holds.1, Nat.le_trans holds.2 shorter⟩
          · exact common interval inRest

theorem pairwise_meets_iff
    : intervals.Pairwise Meets ↔ Unimodal (depth intervals) := by
  constructor
  · intro meets
    obtain ⟨peak, common⟩ := exists_common grown meets
    refine ⟨peak, fun index below => ?_, fun index above => ?_⟩
    · refine depth_le fun interval member holds => ⟨by have := holds.1; omega, ?_⟩
      have := (common interval member).2
      omega
    · refine depth_le fun interval member holds => ⟨?_, by have := holds.2; omega⟩
      have := (common interval member).1
      omega
  · rintro ⟨peak, rising, falling⟩
    refine grown.imp_of_mem fun {earlier later} earlierMember laterMember before => ?_
    -- two intervals with a gap between them are a fall in front of a rise
    by_contra apart
    have gap := before.gap apart
    have falls := depth_behind_lt grown earlierMember
    have ends : peak ≤ earlier.last := by
      by_contra inFront
      have := rising earlier.last (by omega)
      omega
    obtain ⟨point, front⟩ : ∃ point, point + 1 = later.first := ⟨later.first - 1, by omega⟩
    have rises := depth_front_lt grown laterMember front
    have drops := falling point (by omega)
    rw [front] at drops
    omega

end Grown

end N8n.Library
