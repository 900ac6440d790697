import Mathlib.Data.Finset.Card
import N8n.Utils.RemoveCircularRefs

/-! The runs of `removeCircularRefs` explore the encounters, and cut the slots of those whose
targets were seen.
-/

namespace N8n.CircularRefs

open N8n.Library N8n.Library.EdgeGraph

/-- The slot had an encounter whose target was seen by then. -/
def IsCut (heap : Heap) (root : Nat) (log : List Encounter) (slot : Slot) : Prop :=
  ∃ e ∈ log, ¬ (encounterGraph heap).IsFirst root log e ∧ e.slot = slot

/-- The state has what the encounters of the log leave of the heap. -/
structure Represents (heap : Heap) (root : Nat) (log : List Encounter) (state : State) : Prop where
  seen : ∀ place, place ∈ state.seen ↔ place ∈ (encounterGraph heap).seen root log
  shape : state.heap.map Cell.shape = heap.map Cell.shape
  untouched : ∀ place, (∀ e ∈ log, e.slot.holder ≠ place) → state.heap[place]? = heap[place]?
  kept : ∀ slot, ¬ IsCut heap root log slot → state.heap.value? slot = heap.value? slot
  cut : ∀ slot, IsCut heap root log slot → state.heap.value? slot = some .circularReference

def Explored (heap : Heap) (root : Nat) (log todo : List Encounter) (state : State) : Prop :=
  ∃ next, (encounterGraph heap).Explores root log todo next ∧ Represents heap root next state

/-- The number of the places that have not been seen. -/
def unseen (heap : Heap) (root : Nat) (log : List Encounter) : Nat :=
  (Finset.range heap.length \ ((encounterGraph heap).seen root log).toFinset).card

variable {heap : Heap} {root obj : Nat} {log next done rest : List Encounter} {state : State}
  {e : Encounter} {slot : Slot}

theorem IsLog.value? (isLog : (encounterGraph heap).IsLog root log) (member : e ∈ log)
    : heap.value? e.slot = some (.reference e.target)
      ∧ isTraversableObject heap (.reference e.target) = true := by
  have leaves := (isLog.source_mem member).2
  exact ⟨(mem_encounters_iff.mp leaves).2.1, (mem_encounters_iff.mp leaves).2.2.1⟩

theorem isCut_snoc_of_first (outside : e.target ∉ (encounterGraph heap).seen root log)
    : IsCut heap root (log ++ [e]) slot ↔ IsCut heap root log slot := by
  have first : (encounterGraph heap).IsFirst root (log ++ [e]) e := isFirst_snoc outside
  constructor
  · rintro ⟨f, member, notFirst, rfl⟩
    rcases List.mem_append.mp member with before | here
    · exact ⟨f, before, fun isFirst => notFirst ((isFirst_snoc_iff before).mpr isFirst), rfl⟩
    · exact absurd (List.mem_singleton.mp here ▸ first) notFirst
  · rintro ⟨f, member, notFirst, rfl⟩
    exact ⟨f, List.mem_append_left _ member,
      fun isFirst => notFirst ((isFirst_snoc_iff member).mp isFirst), rfl⟩

theorem isCut_snoc_of_seen (known : e.target ∈ (encounterGraph heap).seen root log)
    (new : e ∉ log)
    : IsCut heap root (log ++ [e]) slot ↔ slot = e.slot ∨ IsCut heap root log slot := by
  constructor
  · rintro ⟨f, member, notFirst, rfl⟩
    rcases List.mem_append.mp member with before | here
    · exact .inr
        ⟨f, before, fun isFirst => notFirst ((isFirst_snoc_iff before).mpr isFirst), rfl⟩
    · exact .inl (congrArg Encounter.slot (List.mem_singleton.mp here))
  · rintro (rfl | ⟨f, member, notFirst, rfl⟩)
    · exact ⟨e, by simp, not_isFirst_snoc known new, rfl⟩
    · exact ⟨f, List.mem_append_left _ member,
        fun isFirst => notFirst ((isFirst_snoc_iff member).mp isFirst), rfl⟩

theorem Represents.start (heap : Heap) (root : Nat)
    : Represents heap root [] ⟨heap, OrderedSet.empty.insert root⟩ where
  seen place := by simp [EdgeGraph.seen, OrderedSet.not_mem_empty]
  shape := rfl
  untouched _ _ := rfl
  kept _ _ := rfl
  cut slot isCut := by
    obtain ⟨e, member, -⟩ := isCut
    contradiction

section

variable (represents : Represents heap root log state)

include represents

theorem Represents.first (outside : e.target ∉ (encounterGraph heap).seen root log)
    : Represents heap root (log ++ [e]) { state with seen := state.seen.insert e.target } where
  seen place := by
    rw [OrderedSet.mem_insert, represents.seen, mem_seen_snoc]
    rfl
  shape := represents.shape
  untouched place apart :=
    represents.untouched place (fun f member => apart f (List.mem_append_left _ member))
  kept slot notCut := represents.kept slot ((isCut_snoc_of_first outside).not.mp notCut)
  cut slot isCut := represents.cut slot ((isCut_snoc_of_first outside).mp isCut)

theorem Represents.value? (slot : Slot)
    : state.heap.value? slot = heap.value? slot
      ∨ state.heap.value? slot = some .circularReference := by
  by_cases isCut : IsCut heap root log slot
  · exact .inr (represents.cut slot isCut)
  · exact .inl (represents.kept slot isCut)

theorem Represents.seen_snoc (known : e.target ∈ (encounterGraph heap).seen root log) (place : Nat)
    : place ∈ state.seen ↔ place ∈ (encounterGraph heap).seen root (log ++ [e]) := by
  rw [represents.seen, mem_seen_snoc]
  exact ⟨.inl, fun either => either.elim id (fun same => same ▸ known)⟩

end

/-- The slot of an encounter whose target is seen is cut. -/
theorem Represents.again (represents : Represents heap root log state)
    (known : e.target ∈ (encounterGraph heap).seen root log) (new : e ∉ log)
    (found : heap.value? e.slot = some (.reference e.target))
    : Represents heap root (log ++ [e]) (state.assign e.slot) := by
  obtain ⟨old, present⟩ : ∃ old, state.heap.value? e.slot = some old := by
    rcases represents.value? e.slot with same | cut
    · exact ⟨_, same.trans found⟩
    · exact ⟨_, cut⟩
  exact {
    seen := represents.seen_snoc known
    shape := (Heap.shape_assign present).trans represents.shape
    untouched := fun place apart => by
      have others := represents.untouched place
        (fun f member => apart f (List.mem_append_left _ member))
      exact (Heap.getElem?_assign_of_ne (apart e (by simp))).trans others
    kept := fun slot notCut => by
      rw [isCut_snoc_of_seen known new, not_or] at notCut
      rw [State.assign, Heap.value?_assign present, if_neg notCut.1]
      exact represents.kept slot notCut.2
    cut := fun slot isCut => by
      rw [State.assign, Heap.value?_assign present]
      split
      · rfl
      · rename_i differ
        exact represents.cut slot
          (((isCut_snoc_of_seen known new).mp isCut).resolve_left differ)
  }

theorem Represents.still (represents : Represents heap root log state)
    (known : e.target ∈ (encounterGraph heap).seen root log) (new : e ∉ log)
    (isCut : IsCut heap root log e.slot)
    : Represents heap root (log ++ [e]) state where
  seen := represents.seen_snoc known
  shape := represents.shape
  untouched place apart :=
    represents.untouched place (fun f member => apart f (List.mem_append_left _ member))
  kept slot notCut := represents.kept slot
    (fun before => notCut ((isCut_snoc_of_seen known new).mpr (.inr before)))
  cut slot cutBefore := by
    rcases (isCut_snoc_of_seen known new).mp cutBefore with rfl | before
    · exact represents.cut _ isCut
    · exact represents.cut slot before

theorem isTraversable_of_seen (rooted : isTraversableObject heap (.reference root) = true)
    (isLog : (encounterGraph heap).IsLog root log) {place : Nat}
    (known : place ∈ (encounterGraph heap).seen root log)
    : isTraversableObject heap (.reference place) = true := by
  rcases mem_seen_iff.mp known with rfl | ⟨e, member, rfl⟩
  · exact rooted
  · exact (IsLog.value? isLog member).2

theorem unseen_lt (grows : log <+: next)
    (traversable : isTraversableObject heap (.reference e.target) = true)
    (outside : e.target ∉ (encounterGraph heap).seen root next)
    : unseen heap root (next ++ [e]) < unseen heap root log := by
  obtain ⟨properties, present, -⟩ := isTraversableObject_iff.mp traversable
  have inside : e.target < heap.length := (List.getElem?_eq_some_iff.mp present).choose
  apply Finset.card_lt_card
  rw [Finset.ssubset_iff_of_subset]
  · refine ⟨e.target, ?_, ?_⟩
    · simpa [inside] using fun before => outside (seen_mono grows before)
    · simp [mem_seen_snoc, encounterGraph]
  · refine Finset.sdiff_subset_sdiff subset_rfl ?_
    intro place member
    rw [List.mem_toFinset] at member ⊢
    exact seen_mono (grows.trans (List.prefix_append next [e])) member

/-- A call for an object that is now seen explores what it has. -/
def ExploresFrom (heap : Heap) (root : Nat) (bound : Nat)
    (recurse : State → Nat → Option State)
    : Prop :=
  ∀ log state obj,
    (encounterGraph heap).IsLog root log → obj ∈ (encounterGraph heap).seen root log
    → (∀ e ∈ log, e.obj ≠ obj)
    → Represents heap root log { state with seen := state.seen.insert obj }
    → unseen heap root log < bound
    → ∃ next, recurse state obj = some next ∧ Explored heap root log (encounters heap obj) next

section Turns

variable {recurse : State → Nat → Option State} {bound : Nat}

section Encountered

variable (inside : obj ∈ (encounterGraph heap).seen root log) (fresh : ∀ e ∈ log, e.obj ≠ obj)
  (split : encounters heap obj = done ++ (e :: rest)) (explored : Explored heap root log done state)

include inside fresh split explored

/-- The next encounter of the object has not been taken, and its target is seen or not. -/
theorem Explored.upNext
    : ∃ now,
        (encounterGraph heap).Explores root log done now ∧ Represents heap root now state
        ∧ e ∉ now
        ∧ (encounterGraph heap).IsLog root (now ++ [e]) := by
  obtain ⟨now, explores, represents⟩ := explored
  have leaves : e ∈ encounters heap obj := by simp [split]
  have new : e ∉ now := explores.next_not_mem inside fresh split
  obtain rfl : e.obj = obj := (mem_encounters_iff.mp leaves).1
  have known := seen_mono explores.grows inside
  exact ⟨now, explores, represents, new, .snoc explores.isLog known leaves new⟩

section

variable (found : heap.value? e.slot = some (.reference e.target))

include found

theorem Explored.again (known : e.target ∈ state.seen)
    : Explored heap root log (done ++ [e]) (state.assign e.slot) := by
  obtain ⟨now, explores, represents, new, isLog⟩ := explored.upNext inside fresh split
  have seenNow := (represents.seen e.target).mp known
  exact ⟨now ++ [e], explores.trans (.again isLog seenNow), represents.again seenNow new found⟩

theorem Explored.still (cut : state.heap.value? e.slot = some .circularReference)
    : Explored heap root log (done ++ [e]) state := by
  obtain ⟨now, explores, represents, new, isLog⟩ := explored.upNext inside fresh split
  have isCut : IsCut heap root now e.slot := by
    by_contra notCut
    rw [represents.kept _ notCut, found] at cut
    cases cut
  have seenNow : e.target ∈ (encounterGraph heap).seen root now := by
    obtain ⟨f, member, -, same⟩ := isCut
    have other := (IsLog.value? explores.isLog member).1
    rw [same, found] at other
    obtain same := Value.reference.inj (Option.some.inj other)
    exact same ▸ target_mem_seen member
  exact ⟨now ++ [e], explores.trans (.again isLog seenNow), represents.still seenNow new isCut⟩

end

theorem Explored.enter (enters : ExploresFrom heap root bound recurse)
    (less : unseen heap root log ≤ bound)
    (traversable : isTraversableObject heap (.reference e.target) = true)
    (unknown : e.target ∉ state.seen)
    : ∃ next, recurse state e.target = some next ∧ Explored heap root log (done ++ [e]) next := by
  obtain ⟨now, explores, represents, new, isLog⟩ := explored.upNext inside fresh split
  have outside := (represents.seen e.target).not.mp unknown
  have apart : ∀ f ∈ now ++ [e], f.obj ≠ e.target := by
    rintro f member same
    rcases List.mem_append.mp member with before | here
    · exact outside (same ▸ (explores.isLog.source_mem before).1)
    · obtain rfl := List.mem_singleton.mp here
      exact outside (same ▸ isLog.of_snoc.1)
  obtain ⟨next, called, final, visits, represents⟩ := enters (now ++ [e]) state e.target isLog
    (target_mem_seen (by simp)) apart (represents.first outside)
    ((unseen_lt explores.grows traversable outside).trans_le less)
  exact ⟨next, called, final, explores.trans (.enter outside visits), represents⟩

end Encountered

/-- A loop whose turns each explore some of the encounters, by induction on the turns. -/
theorem foldlM_explored {ι : Type} (turn : State → ι → Option State)
    (edges : ι → List Encounter) {items : List ι}
    (each : ∀ item ∈ items, ∀ done rest state,
      encounters heap obj = done ++ (edges item ++ rest) → Explored heap root log done state
      → ∃ next, turn state item = some next ∧ Explored heap root log (done ++ edges item) next)
    (split : encounters heap obj = done ++ (items.flatMap edges ++ rest))
    (explored : Explored heap root log done state)
    : ∃ next,
        items.foldlM turn state = some next
        ∧ Explored heap root log (done ++ items.flatMap edges) next := by
  induction items generalizing done state with
  | nil => exact ⟨state, rfl, by simpa using explored⟩
  | cons item items ih =>
      rw [List.flatMap_cons, List.append_assoc] at split
      obtain ⟨middle, turned, first⟩ := each item (.head _) done _ state split explored
      rw [← List.append_assoc] at split
      obtain ⟨next, looped, visited⟩ :=
        ih (fun item member => each item (.tail _ member)) split first
      refine ⟨next, ?_, ?_⟩
      · rw [List.foldlM_cons, turned]
        exact looped
      · rwa [List.flatMap_cons, ← List.append_assoc]

variable (rooted : isTraversableObject heap (.reference root) = true)
  (enters : ExploresFrom heap root bound recurse) (less : unseen heap root log ≤ bound)
  (inside : obj ∈ (encounterGraph heap).seen root log) (fresh : ∀ e ∈ log, e.obj ≠ obj)

include rooted enters less inside fresh

theorem visitElement_explored {name : String} {array index : Nat}
    (split : encounters heap obj
      = done ++ ((elementEncounter? heap obj name array index).toList ++ rest))
    (explored : Explored heap root log done state)
    : ∃ next,
        visitElement recurse array state index = some next
        ∧ Explored heap root log
            (done ++ (elementEncounter? heap obj name array index).toList) next := by
  obtain ⟨now, explores, represents⟩ := id explored
  have read := represents.value? ⟨array, .element index⟩
  cases met : elementEncounter? heap obj name array index with
  | none =>
      refine ⟨state, ?_, by simpa using explored⟩
      rcases read with same | cut
      · cases found : heap.value? ⟨array, .element index⟩ with
        | none => simp [visitElement, same, found]
        | some value =>
            cases value with
            | reference target =>
                have plain : isTraversableObject heap (.reference target) = false := by
                  simpa [elementEncounter?, found] using met
                have unknown : target ∉ state.seen := by
                  intro known
                  have traversable := isTraversable_of_seen rooted explores.isLog
                    ((represents.seen target).mp known)
                  simp [traversable] at plain
                have still := (isTraversableObject_congr represents.shape target).trans plain
                simp [visitElement, same, found, unknown, still]
            | _ => simp [visitElement, same, found]
      · simp [visitElement, cut]
  | some e =>
      rw [met] at split
      obtain ⟨target, found, traversable, rfl⟩ := elementEncounter?_eq_some_iff.mp met
      rcases read with same | cut
      · rw [found] at same
        by_cases known : target ∈ state.seen
        · exact ⟨_, by simp [visitElement, same, known],
            explored.again inside fresh split found known⟩
        · obtain ⟨next, called, visited⟩ :=
            explored.enter inside fresh split enters less traversable known
          have still := (isTraversableObject_congr represents.shape target).trans traversable
          exact ⟨next, by simpa [visitElement, same, known, still] using called, visited⟩
      · exact ⟨state, by simp [visitElement, cut], explored.still inside fresh split found cut⟩

theorem visitEntry_explored {entry : String × Value} (own : entry ∈ heap.entries obj)
    (split : encounters heap obj = done ++ (entryEncounters heap obj entry ++ rest))
    (explored : Explored heap root log done state)
    : ∃ next,
        visitEntry recurse obj state entry = some next
        ∧ Explored heap root log (done ++ entryEncounters heap obj entry) next := by
  obtain ⟨now, explores, represents⟩ := id explored
  obtain ⟨name, value⟩ := entry
  have found := mem_entries.mp own
  cases value with
  | reference place =>
      have still := isTraversableObject_congr represents.shape place
      by_cases traversable : isTraversableObject heap (.reference place) = true
      · rw [traversable] at still
        have single : entryEncounters heap obj (name, .reference place)
            = [⟨obj, name, ⟨obj, .property name⟩, place⟩] := by
          simp [entryEncounters, traversable]
        rw [single] at split ⊢
        by_cases known : place ∈ state.seen
        · exact ⟨_, by simp [visitEntry, still, known],
            explored.again inside fresh split found known⟩
        · obtain ⟨next, called, visited⟩ :=
            explored.enter inside fresh split enters less traversable known
          exact ⟨next, by simpa [visitEntry, still, known] using called, visited⟩
      · rw [Bool.not_eq_true] at traversable
        rw [traversable] at still
        by_cases isArray : ∃ elements, heap[place]? = some (.array elements)
        · obtain ⟨elements, present⟩ := isArray
          obtain ⟨others, presentNow, length⟩ := exists_array represents.shape present
          have all : entryEncounters heap obj (name, .reference place)
              = (List.range elements.length).flatMap
                  (fun index => (elementEncounter? heap obj name place index).toList) := by
            simp [entryEncounters, traversable, present]
          rw [all] at split ⊢
          obtain ⟨next, looped, visited⟩ := foldlM_explored (visitElement recurse place)
            (fun index => (elementEncounter? heap obj name place index).toList)
            (fun index _ done rest state split explored =>
              visitElement_explored rooted enters less inside fresh split explored)
            split explored
          refine ⟨next, ?_, visited⟩
          rw [← looped, ← length]
          simp [visitEntry, still, presentNow]
        · have none : entryEncounters heap obj (name, .reference place) = [] := by
            simp only [entryEncounters, traversable, Bool.false_eq_true, if_false]
            split
            · exact absurd ⟨_, by assumption⟩ isArray
            · rfl
          have noneNow : visitEntry recurse obj state (name, .reference place) = some state := by
            simp only [visitEntry, still, Bool.false_eq_true, if_false]
            split
            · exact absurd (array_of_array represents.shape (by assumption)) isArray
            · rfl
          exact ⟨state, noneNow, by rwa [none, List.append_nil]⟩
  | _ =>
      exact ⟨state, rfl, by simpa [entryEncounters] using explored⟩

end Turns

/-- By induction on the calls within each other. -/
theorem removeCircularRefs_exploresFrom
    (rooted : isTraversableObject heap (.reference root) = true) (calls : Nat)
    : ExploresFrom heap root calls (removeCircularRefs calls) := by
  induction calls with
  | zero =>
      intro log state obj _ _ _ _ less
      exact absurd less (Nat.not_lt_zero _)
  | succ calls ih =>
      intro log state obj isLog inside fresh represents less
      have untouched : state.heap[obj]? = heap[obj]? := by
        refine represents.untouched obj ?_
        rintro e member here
        obtain ⟨-, -, -, atEntry | ⟨array, index, elements, -, present, inArray⟩⟩ :=
          mem_encounters_iff.mp (isLog.source_mem member).2
        · exact fresh e member (here ▸ atEntry ▸ rfl)
        · obtain ⟨properties, isObject, -⟩ :=
            isTraversableObject_iff.mp (isTraversable_of_seen rooted isLog inside)
          rw [← here, inArray, present] at isObject
          cases isObject
      have same : state.heap.entries obj = heap.entries obj := by
        rw [Heap.entries, untouched]
        rfl
      rw [removeCircularRefs, same]
      have explored : Explored heap root log [] { state with seen := state.seen.insert obj } :=
        ⟨log, .refl isLog, represents⟩
      have split : encounters heap obj
          = [] ++ ((heap.entries obj).flatMap (entryEncounters heap obj) ++ []) := by
        simp [encounters]
      exact foldlM_explored (visitEntry (removeCircularRefs calls) obj)
        (entryEncounters heap obj)
        (fun entry own done rest state split explored =>
          visitEntry_explored rooted ih (Nat.lt_succ_iff.mp less) inside fresh own split explored)
        split explored

end N8n.CircularRefs
