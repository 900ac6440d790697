import Mathlib.Data.List.Count
import Mathlib.Data.List.Induction
import Mathlib.Data.List.Nodup
import Mathlib.Data.List.Perm.Basic

/-! Lines of items that are built by moving items to the front: how often an item is in the
line, and when the line respects an order.
-/

namespace N8n.FrontMoves

variable {α : Type*} {leads : α → α → Prop}

theorem concat_sublist_concat (items : List α) {line : List α} {last new : α}
    : (items ++ [last]).Sublist (line ++ [new])
      ↔ (items ++ [last]).Sublist line ∨ (last = new ∧ items.Sublist line) := by
  rw [← List.reverse_sublist, List.reverse_append, List.reverse_append, List.reverse_singleton,
    List.reverse_singleton, List.singleton_append, List.singleton_append,
    List.cons_sublist_cons', List.reverse_sublist]
  have turned : (last :: items.reverse).Sublist line.reverse ↔ (items ++ [last]).Sublist line := by
    rw [← List.reverse_concat, List.reverse_sublist]
  exact or_congr_left turned

/-- What an item leads to is in every beginning of the line that has the item. -/
def PrefixClosed (leads : α → α → Prop) (line : List α) : Prop :=
  ∀ before, before <+: line → ∀ item ∈ before, ∀ next, leads item next → next ∈ before

namespace PrefixClosed

variable {line items : List α} {item next : α}

theorem nil : PrefixClosed leads [] := by
  intro before isPrefix item member
  rw [List.prefix_nil.mp isPrefix] at member
  contradiction

theorem mem (closed : PrefixClosed leads line) (member : item ∈ line) (leadsOn : leads item next)
    : next ∈ line :=
  closed line (List.prefix_refl _) item member next leadsOn

theorem append_cons (front : PrefixClosed leads items) (behind : PrefixClosed leads line)
    (follows : ∀ next, leads item next → next ∈ items)
    : PrefixClosed leads (items ++ item :: line) := by
  rintro before ⟨after, split⟩ first member next leadsOn
  rcases List.append_eq_append_iff.mp split with ⟨rest, inItems, -⟩ | ⟨rest, rfl, behindIt⟩
  · exact front before ⟨rest, inItems.symm⟩ first member next leadsOn
  · rcases List.mem_append.mp member with inItems | inRest
    · exact List.mem_append_left _ (front.mem inItems leadsOn)
    · cases rest with
      | nil => contradiction
      | cons second rest =>
          obtain ⟨rfl, isLine⟩ := List.cons.inj behindIt
          rcases List.mem_cons.mp inRest with rfl | later
          · exact List.mem_append_left _ (follows next leadsOn)
          · exact List.mem_append_right _ (List.mem_cons_of_mem _
              (behind rest ⟨after, isLine.symm⟩ first later next leadsOn))

/-- An item that stands behind one that leads to it stands in front of it too. -/
theorem one_lt_count [DecidableEq α] (closed : PrefixClosed leads line)
    (behind : [item, next].Sublist line) (leadsOn : leads item next)
    : 1 < line.count next := by
  obtain ⟨before, after, rfl, inBefore, inAfter⟩ := List.cons_sublist_iff.mp behind
  have early := closed before (List.prefix_append _ _) item inBefore next leadsOn
  have later := List.singleton_sublist.mp inAfter
  rw [List.count_append]
  have early := List.count_pos_iff.mpr early
  have later := List.count_pos_iff.mpr later
  omega

end PrefixClosed

variable [DecidableEq α]

/-- Moves or puts each of the items, the last one first, to the front. -/
def moveToFront (items line : List α) : List α :=
  items.foldr (fun item line => item :: line.erase item) line

variable {items line : List α} {item : α}

theorem moveToFront_cons
    : moveToFront (item :: items) line = item :: (moveToFront items line).erase item := rfl

theorem count_moveToFront (x : α)
    : (moveToFront items line).count x = max (line.count x) (if x ∈ items then 1 else 0) := by
  induction items with
  | nil => simp [moveToFront]
  | cons item rest ih =>
      rw [moveToFront_cons]
      by_cases same : x = item
      · subst same
        rw [List.count_cons_self, List.count_erase_self, ih]
        simp only [List.mem_cons_self, if_true]
        split <;> omega
      · rw [List.count_cons_of_ne (Ne.symm same), List.count_erase_of_ne same, ih]
        simp [same]

theorem mem_moveToFront {x : α} : x ∈ moveToFront items line ↔ x ∈ items ∨ x ∈ line := by
  rw [← List.count_pos_iff, count_moveToFront, ← List.count_pos_iff (l := line)]
  by_cases member : x ∈ items
  · simp only [member, if_true, true_or, iff_true]
    omega
  · simp [member]

theorem nodup_moveToFront_nil (items : List α) : (moveToFront items []).Nodup := by
  rw [List.nodup_iff_count_le_one]
  intro x
  rw [count_moveToFront, List.count_nil]
  split <;> omega

/-- The items stand in front, each once, and the line without their first places behind. -/
theorem moveToFront_eq_append (items line : List α)
    : moveToFront items line = moveToFront items [] ++ line.diff (moveToFront items []) := by
  induction items with
  | nil => simp [moveToFront]
  | cons item rest ih =>
      rw [moveToFront_cons, ih, moveToFront_cons, List.cons_append]
      congr 1
      by_cases member : item ∈ moveToFront rest []
      · rw [List.erase_append_left _ member]
        exact congrArg _ ((List.perm_cons_erase member).diff_left line)
      · rw [List.erase_append_right _ member, List.erase_of_not_mem member,
          List.diff_cons_right]

theorem exists_prefix_of_erase {before : List α} (isPrefix : before <+: line.erase item)
    : ∃ whole, whole <+: line ∧ ∀ x, x ∈ item :: before ↔ x ∈ item :: whole := by
  induction line generalizing before with
  | nil => exact ⟨[], List.prefix_refl _, by simp [List.prefix_nil.mp isPrefix]⟩
  | cons first rest ih =>
      by_cases same : first = item
      · subst same
        rw [List.erase_cons_head] at isPrefix
        exact ⟨first :: before, List.cons_prefix_cons.mpr ⟨rfl, isPrefix⟩, by simp⟩
      · rw [List.erase_cons_tail (by simpa using same)] at isPrefix
        cases before with
        | nil => exact ⟨[], List.nil_prefix, fun _ => .rfl⟩
        | cons second before =>
            obtain ⟨rfl, shorter⟩ := List.cons_prefix_cons.mp isPrefix
            obtain ⟨whole, inRest, alike⟩ := ih shorter
            refine ⟨second :: whole, List.cons_prefix_cons.mpr ⟨rfl, inRest⟩, fun x => ?_⟩
            have alike := alike x
            simp only [List.mem_cons] at alike ⊢
            tauto

/-- A beginning of the new line has the items of a beginning of the items and the line. -/
theorem exists_prefix_of_moveToFront {before : List α}
    (isPrefix : before <+: moveToFront items line)
    : ∃ whole, whole <+: items ++ line ∧ ∀ x, x ∈ before ↔ x ∈ whole := by
  induction items generalizing before with
  | nil => exact ⟨before, isPrefix, fun _ => .rfl⟩
  | cons item rest ih =>
      cases before with
      | nil => exact ⟨[], List.nil_prefix, fun _ => .rfl⟩
      | cons first before =>
          obtain ⟨rfl, shorter⟩ := List.cons_prefix_cons.mp isPrefix
          obtain ⟨middle, inMoved, alike⟩ := exists_prefix_of_erase shorter
          obtain ⟨whole, inBoth, same⟩ := ih inMoved
          refine ⟨first :: whole, List.cons_prefix_cons.mpr ⟨rfl, inBoth⟩, fun x => ?_⟩
          rw [alike x, List.mem_cons, List.mem_cons, same x]

theorem PrefixClosed.moveToFront (closed : PrefixClosed leads (items ++ line))
    : PrefixClosed leads (moveToFront items line) := by
  intro before isPrefix item member next leadsOn
  obtain ⟨whole, inBoth, same⟩ := exists_prefix_of_moveToFront isPrefix
  exact (same next).mpr (closed whole inBoth item ((same item).mp member) next leadsOn)

/-- Puts each target in front, and then what is found from it. -/
def gather (find : α → List α) (targets : List α) : List α :=
  targets.foldl (fun line target => moveToFront (find target) (target :: line)) []

variable {find : α → List α} {targets : List α} {target x : α}

theorem gather_snoc
    : gather find (targets ++ [target])
      = moveToFront (find target) (target :: gather find targets) := by
  simp [gather]

theorem mem_gather
    : x ∈ gather find targets ↔ ∃ target ∈ targets, x = target ∨ x ∈ find target := by
  induction targets using List.reverseRecOn with
  | nil => simp [gather]
  | append_singleton init last ih =>
      rw [gather_snoc, mem_moveToFront, List.mem_cons, ih, ← or_assoc, or_comm,
        or_comm (a := x ∈ find last)]
      simp only [List.mem_append, List.mem_singleton, or_and_right, exists_or, exists_eq_left]

theorem count_gather_snoc (apart : target ∉ find target)
    : (gather find (targets ++ [target])).count x
      = if x = target then (gather find targets).count x + 1
        else max ((gather find targets).count x) (if x ∈ find target then 1 else 0) := by
  rw [gather_snoc, count_moveToFront]
  by_cases same : x = target
  · subst same
    simp [apart]
  · rw [List.count_cons_of_ne (Ne.symm same), if_neg same]

/-- An item stands in the line more than once if it is a target behind one that it is found
from, or that it is.
-/
theorem one_lt_count_gather (apart : ∀ target ∈ targets, target ∉ find target)
    : 1 < (gather find targets).count x
      ↔ ∃ earlier, [earlier, x].Sublist targets ∧ (x = earlier ∨ x ∈ find earlier) := by
  induction targets using List.reverseRecOn with
  | nil => simp [gather]
  | append_singleton init last ih =>
      have before := ih (fun target member => apart target (List.mem_append_left _ member))
      have pair (earlier : α)
          : [earlier, x].Sublist (init ++ [last])
            ↔ [earlier, x].Sublist init ∨ (x = last ∧ earlier ∈ init) := by
        rw [← List.singleton_sublist]
        exact concat_sublist_concat [earlier]
      rw [count_gather_snoc (apart last (by simp))]
      simp only [pair, or_and_right, exists_or]
      rw [← before]
      split
      · next same =>
        subst same
        rw [Nat.lt_add_left_iff_pos, List.count_pos_iff, mem_gather]
        constructor
        · rintro ⟨earlier, member, found⟩
          exact .inr ⟨earlier, ⟨rfl, member⟩, found⟩
        · rintro (twice | ⟨earlier, ⟨-, member⟩, found⟩)
          · exact mem_gather.mp (List.count_pos_iff.mp (Nat.lt_trans Nat.zero_lt_one twice))
          · exact ⟨earlier, member, found⟩
      · next differ =>
        simp only [differ, false_and, exists_false, or_false]
        split <;> omega

/-- No item is found from a target that an earlier one leads to, or is. -/
theorem nodup_gather_iff (apart : ∀ target ∈ targets, target ∉ find target)
    : (gather find targets).Nodup
      ↔ targets.Pairwise (fun earlier later => later ≠ earlier ∧ later ∉ find earlier) := by
  rw [List.nodup_iff_count_le_one, List.pairwise_iff_forall_sublist]
  constructor
  · intro once earlier later pair
    rw [← not_or]
    intro found
    exact Nat.not_lt.mpr (once later)
      ((one_lt_count_gather apart).mpr ⟨earlier, pair, found⟩)
  · intro separate x
    by_contra twice
    obtain ⟨earlier, pair, found⟩ :=
      (one_lt_count_gather apart).mp (Nat.lt_of_not_le twice)
    exact not_or.mpr (separate pair) found

/-- From the target is found what it leads to, further and further. -/
structure Finds (leads : α → α → Prop) (find : α → List α) (target : α) : Prop where
  closed : PrefixClosed leads (find target)
  follows : ∀ next, leads target next → next ∈ find target
  reached : ∀ item ∈ find target, ∃ before, (before = target ∨ before ∈ find target)
    ∧ leads before item
  apart : target ∉ find target

theorem prefixClosed_gather (finds : ∀ target ∈ targets, Finds leads find target)
    : PrefixClosed leads (gather find targets) := by
  induction targets using List.reverseRecOn with
  | nil => exact .nil
  | append_singleton init last ih =>
      have here := finds last (by simp)
      rw [gather_snoc]
      refine PrefixClosed.moveToFront (here.closed.append_cons ?_ here.follows)
      exact ih (fun target member => finds target (List.mem_append_left _ member))

/-- The last target puts items in front of others of their kind only where these stand in
the line twice.
-/
theorem pairwise_gather_snoc (closed : PrefixClosed leads (gather find targets))
    (finds : Finds leads find target)
    : (gather find (targets ++ [target])).Pairwise (fun earlier later => ¬ leads earlier later)
      ↔ (gather find targets).Pairwise (fun earlier later => ¬ leads earlier later)
        ∧ ∀ item ∈ find target, (gather find targets).count item ≤ 1 := by
  have front (x : α) : x ∈ moveToFront (find target) [] ↔ x ∈ find target := by
    simp [mem_moveToFront]
  have split
      : gather find (targets ++ [target])
        = moveToFront (find target) []
          ++ target :: (gather find targets).diff (moveToFront (find target) []) := by
    rw [gather_snoc, moveToFront_eq_append, List.cons_diff_of_not_mem]
    exact mt (front target).mp finds.apart
  constructor
  · intro ordered
    have once : ∀ item ∈ find target, (gather find targets).count item ≤ 1 := by
      intro item found
      by_contra twice
      obtain ⟨before, isBefore, leadsOn⟩ := finds.reached item found
      have behind : item ∈ (gather find targets).diff (moveToFront (find target) []) := by
        have atMost := List.nodup_iff_count_le_one.mp (nodup_moveToFront_nil (find target)) item
        rw [← List.count_pos_iff, List.count_diff]
        omega
      rw [split, List.pairwise_append, List.pairwise_cons] at ordered
      rcases isBefore with rfl | isFound
      · exact ordered.2.1.1 item behind leadsOn
      · exact ordered.2.2 before ((front before).mpr isFound) item
          (.tail _ behind) leadsOn
    refine ⟨?_, once⟩
    rw [List.pairwise_iff_forall_sublist]
    intro earlier later pair leadsOn
    have twice := closed.one_lt_count pair leadsOn
    have notFound : later ∉ find target := fun found => absurd (once later found) (by omega)
    have notBefore : earlier ∉ find target :=
      fun found => notFound (finds.closed.mem found leadsOn)
    have kept : ([earlier, later].diff (moveToFront (find target) [])).Sublist
        ((gather find targets).diff (moveToFront (find target) [])) := pair.diff_right
    rw [List.cons_diff_of_not_mem (mt (front earlier).mp notBefore),
      List.cons_diff_of_not_mem (mt (front later).mp notFound), List.nil_diff] at kept
    rw [split, List.pairwise_append, List.pairwise_cons] at ordered
    exact List.pairwise_iff_forall_sublist.mp ordered.2.1.2 kept leadsOn
  · rintro ⟨ordered, once⟩
    have closedAll : PrefixClosed leads (gather find (targets ++ [target])) := by
      rw [gather_snoc]
      exact (finds.closed.append_cons closed finds.follows).moveToFront
    rw [List.pairwise_iff_forall_sublist]
    intro earlier later pair leadsOn
    have twice := closedAll.one_lt_count pair leadsOn
    rw [count_gather_snoc finds.apart] at twice
    -- what is found from the target stands in the line once
    have notFound : later ∉ find target := by
      intro found
      have atMost := once later found
      have differ : later ≠ target := fun same => finds.apart (same ▸ found)
      rw [if_neg differ, if_pos found] at twice
      omega
    have notBefore : earlier ∉ find target :=
      fun found => notFound (finds.closed.mem found leadsOn)
    have notTarget : earlier ≠ target :=
      fun same => notFound (finds.follows later (same ▸ leadsOn))
    rw [split] at pair
    obtain ⟨inFront, behind, parts, front_, behind_⟩ := List.sublist_append_iff.mp pair
    cases inFront with
    | nil =>
        rw [List.nil_append] at parts
        subst parts
        rcases List.cons_sublist_cons'.mp behind_ with inRest | ⟨same, -⟩
        · exact List.pairwise_iff_forall_sublist.mp ordered
            (inRest.trans (List.diff_sublist ..)) leadsOn
        · exact notTarget same
    | cons first rest =>
        obtain ⟨rfl, -⟩ := List.cons.inj parts
        exact notBefore ((front earlier).mp (front_.subset (.head _)))

/-- The line is in order unless a target, or what an earlier one leads to, is a target, and a
third target leads to that again.
-/
theorem pairwise_gather_iff (finds : ∀ target ∈ targets, Finds leads find target)
    : (gather find targets).Pairwise (fun earlier later => ¬ leads earlier later)
      ↔ ∀ first second third, [first, second, third].Sublist targets
          → (second = first ∨ second ∈ find first) → second ∉ find third := by
  induction targets using List.reverseRecOn with
  | nil => simp [gather]
  | append_singleton init last ih =>
      have before : ∀ target ∈ init, Finds leads find target :=
        fun target member => finds target (List.mem_append_left _ member)
      rw [pairwise_gather_snoc (prefixClosed_gather before) (finds last (by simp)), ih before]
      have triple (first second third : α)
          : [first, second, third].Sublist (init ++ [last])
            ↔ [first, second, third].Sublist init
              ∨ (third = last ∧ [first, second].Sublist init) :=
        concat_sublist_concat [first, second]
      have apart : ∀ target ∈ init, target ∉ find target :=
        fun target member => (before target member).apart
      constructor
      · rintro ⟨ordered, once⟩ first second third isTriple found again
        rcases (triple first second third).mp isTriple with old | ⟨rfl, pair⟩
        · exact ordered first second third old found again
        · exact Nat.not_lt.mpr (once second again)
            ((one_lt_count_gather apart).mpr ⟨first, pair, found⟩)
      · intro ordered
        refine ⟨fun first second third isTriple => ?_, fun item found => ?_⟩
        · exact ordered first second third ((triple ..).mpr (.inl isTriple))
        · by_contra twice
          obtain ⟨first, pair, earlier⟩ :=
            (one_lt_count_gather apart).mp (Nat.lt_of_not_le twice)
          exact ordered first item last ((triple ..).mpr (.inr ⟨rfl, pair⟩)) earlier found

end N8n.FrontMoves
