import Mathlib.Data.List.Flatten
import N8n.NodeParameters.ResolveOrder

/-! What `getParameterResolveOrder` makes of an arbitrary dependency map. It returns the
indexes in their order, followed by an index once more for each parameter that its property
misses at its first turn: the `continue` for a missing parameter goes on with the next
dependency, not with the next index.
-/

namespace N8n.NodeParameters

section Turns

variable (properties : List INodeProperties) (dependencies : List (String × List String))

def nameAt (index : Nat) : String := (properties[index]?.map INodeProperties.name).getD ""

def namesBefore (count : Nat) : List String := (List.range count).map (nameAt properties)

def neededAt (index : Nat) : List String :=
  (Record.lookup dependencies (nameAt properties index)).getD []

/-- The parameters that the property misses at its first turn. -/
def missingAt (index : Nat) : List String :=
  missingParameters (namesBefore properties index) (neededAt properties dependencies index)

/-- The parameters that the property misses for ever. -/
def unlistedAt (index : Nat) : List String :=
  missingParameters (namesBefore properties properties.length)
    (neededAt properties dependencies index)

/-- The indexes that the first turns add again. -/
def againUpTo (count : Nat) : List Nat :=
  (List.range count).flatMap (fun index =>
    (missingAt properties dependencies index).map (fun _ => index))

/-- How many properties in a row, right in front of this one, depend on nothing. -/
def freeRun : Nat → Nat
  | 0 => 0
  | count + 1 => if neededAt properties dependencies count = [] then freeRun count + 1 else 0

/-- The loop ends with this, with no bound on its turns. -/
inductive Resolves : ResolveState → Except JsError (List Nat) → Prop where
  | done {state : ResolveState} (none : state.indexToResolve = [])
    : Resolves state (.ok state.executionOrder)
  | throws {state : ResolveState} {index : Nat} {others : List Nat} {thrown : JsError}
    (next : state.indexToResolve = index :: others)
    (fails : resolveIndex properties dependencies state index others = .error thrown)
    : Resolves state (.error thrown)
  | turn {state after : ResolveState} {index : Nat} {others : List Nat}
    {result : Except JsError (List Nat)} (next : state.indexToResolve = index :: others)
    (resolved : resolveIndex properties dependencies state index others = .ok after)
    (rest : Resolves after result)
    : Resolves state result

/-- The loop ends with this before the bound on its turns is reached. -/
structure Ends (fuel : Nat) (state : ResolveState) (result : Except JsError (List Nat)) : Prop
    where
  resolves : Resolves properties dependencies state result
  computed : resolveAll properties dependencies fuel state = result

/-- The state behind a turn for an index whose property misses these. -/
def dependentTurn (state : ResolveState) (index : Nat) (others : List Nat)
    (missing : List String)
    : ResolveState :=
  let indexToResolve := others ++ missing.map (fun _ => index)
  {
    executionOrder := state.executionOrder ++ [index]
    indexToResolve
    resolvedParameters := state.resolvedParameters ++ [nameAt properties index]
    lastIndexLength := indexToResolve.length
    lastIndexReduction :=
      if indexToResolve.length < state.lastIndexLength then ((state.iterations + 1 : Nat) : Int)
      else state.lastIndexReduction
    iterations := state.iterations + 1
  }

end Turns

variable {properties : List INodeProperties} {dependencies : List (String × List String)}
  {state : ResolveState} {index fuel : Nat} {others : List Nat}

/-! ### One turn -/

theorem resolveIndex_of_none
    (absent : Record.lookup dependencies (nameAt properties index) = none)
    : resolveIndex properties dependencies state index others = .error .typeError := by
  rw [nameAt] at absent
  simp only [resolveIndex, absent]

theorem resolveIndex_free
    (found : Record.lookup dependencies (nameAt properties index) = some [])
    : resolveIndex properties dependencies state index others
      = .ok
        {
          state with
          executionOrder := state.executionOrder ++ [index]
          indexToResolve := others
          resolvedParameters := state.resolvedParameters ++ [nameAt properties index]
          iterations := state.iterations + 1
        } := by
  rw [nameAt] at found
  simp only [resolveIndex, found]
  rfl

theorem resolveIndex_dependent
    (present : neededAt properties dependencies index ≠ [])
    : resolveIndex properties dependencies state index others
      = if ((state.iterations + 1 : Nat) : Int)
            > (dependentTurn properties state index others
                (missingParameters state.resolvedParameters
                  (neededAt properties dependencies index))).lastIndexReduction
              + properties.length then
          .error maxIterationsReached
        else
          .ok (dependentTurn properties state index others
            (missingParameters state.resolvedParameters
              (neededAt properties dependencies index))) := by
  cases found : Record.lookup dependencies (nameAt properties index) with
  | none => simp [neededAt, found] at present
  | some needed =>
      have isNeeded : neededAt properties dependencies index = needed := by
        simp [neededAt, found]
      rw [isNeeded] at present ⊢
      have notEmpty : needed.isEmpty = false := by simpa using present
      rw [nameAt] at found
      simp only [resolveIndex, found, notEmpty]
      rfl

theorem Ends.done (none : state.indexToResolve = [])
    : Ends properties dependencies (fuel + 1) state (.ok state.executionOrder) where
  resolves := .done none
  computed := by rw [resolveAll, none]

theorem Ends.throws {thrown : JsError} (next : state.indexToResolve = index :: others)
    (fails : resolveIndex properties dependencies state index others = .error thrown)
    : Ends properties dependencies (fuel + 1) state (.error thrown) where
  resolves := .throws next fails
  computed := by
    rw [resolveAll, next]
    simp only [fails]
    rfl

theorem Ends.turn {after : ResolveState} {result : Except JsError (List Nat)}
    (next : state.indexToResolve = index :: others)
    (resolved : resolveIndex properties dependencies state index others = .ok after)
    (rest : Ends properties dependencies fuel after result)
    : Ends properties dependencies (fuel + 1) state result where
  resolves := .turn next resolved rest.resolves
  computed := by
    rw [resolveAll, next]
    simp only [resolved]
    exact rest.computed

theorem missingParameters_congr {resolved others needed : List String}
    (same : ∀ name, name ∈ resolved ↔ name ∈ others)
    : missingParameters resolved needed = missingParameters others needed :=
  List.filter_congr fun name _ => by simp [same name]

/-! ### Behind the first turns -/

/-- Every property has been resolved, and those that are left depend on others. The queue has
just become shorter, or this was no longer ago than there are properties.
-/
structure Behind (properties : List INodeProperties) (dependencies : List (String × List String))
    (state : ResolveState) : Prop where
  resolved : ∀ name, name ∈ state.resolvedParameters
    ↔ name ∈ namesBefore properties properties.length
  dependent : ∀ index ∈ state.indexToResolve,
    index < properties.length ∧ neededAt properties dependencies index ≠ []
  shrunk : state.indexToResolve.length ≤ state.lastIndexLength
  recent : (state.iterations : Int) ≤ state.lastIndexReduction + properties.length
    ∨ state.indexToResolve.length < state.lastIndexLength

section

variable (behind : Behind properties dependencies state)
  (next : state.indexToResolve = index :: others)

include behind next

theorem Behind.resolveIndex
    : resolveIndex properties dependencies state index others
      = if ((state.iterations + 1 : Nat) : Int)
            > (dependentTurn properties state index others
                (unlistedAt properties dependencies index)).lastIndexReduction
              + properties.length then
          .error maxIterationsReached
        else
          .ok (dependentTurn properties state index others
            (unlistedAt properties dependencies index)) := by
  have present := (behind.dependent index (by simp [next])).2
  rw [resolveIndex_dependent present, missingParameters_congr behind.resolved]
  rfl

/-- How many turns the loop can still take when it is stuck. -/
def budget (properties : List INodeProperties) (dependencies : List (String × List String))
    (state : ResolveState) : Nat :=
  (state.lastIndexReduction + properties.length + 1 - state.iterations).toNat
    + (properties.length + 1)
      * state.indexToResolve.countP (fun index => unlistedAt properties dependencies index = [])
    + if state.indexToResolve.length < state.lastIndexLength then properties.length + 2 else 0

variable (goesOn : ¬((state.iterations + 1 : Nat) : Int)
    > (dependentTurn properties state index others
        (unlistedAt properties dependencies index)).lastIndexReduction + properties.length)

include goesOn

theorem Behind.turn
    : Behind properties dependencies (dependentTurn properties state index others
        (unlistedAt properties dependencies index)) where
  resolved name := by
    have inside := (behind.dependent index (by simp [next])).1
    have known : nameAt properties index ∈ namesBefore properties properties.length :=
      List.mem_map_of_mem (List.mem_range.mpr inside)
    rw [dependentTurn, List.mem_append, behind.resolved, List.mem_singleton]
    constructor
    · rintro (already | rfl)
      · exact already
      · exact known
    · exact .inl
  dependent other member := by
    apply behind.dependent
    rw [next, List.mem_cons]
    rcases List.mem_append.mp member with waiting | again
    · exact .inr waiting
    · obtain ⟨_, _, rfl⟩ := List.mem_map.mp again
      exact .inl rfl
  shrunk := Nat.le_refl _
  recent := .inl (Int.not_lt.mp goesOn)

theorem Behind.budget_lt
    : budget properties dependencies (dependentTurn properties state index others
          (unlistedAt properties dependencies index))
      < budget properties dependencies state := by
  have shrunk := behind.shrunk
  have recent := behind.recent
  simp only [dependentTurn] at goesOn
  simp only [budget, dependentTurn, next, List.countP_append, List.countP_cons,
    List.length_append, List.length_cons, List.length_map] at goesOn shrunk recent ⊢
  by_cases none : unlistedAt properties dependencies index = []
  · -- the index leaves the queue
    simp only [none, List.map_nil, List.countP_nil, List.length_nil, Nat.add_zero, decide_true,
      if_true, Nat.lt_irrefl, if_false] at goesOn ⊢
    rw [if_pos (by omega), Nat.mul_succ]
    split <;> omega
  · -- the index stays in it
    have stays : ((unlistedAt properties dependencies index).map (fun _ => index)).countP
        (fun index => unlistedAt properties dependencies index = []) = 0 := by
      rw [List.countP_eq_zero]
      intro other member
      obtain ⟨_, _, rfl⟩ := List.mem_map.mp member
      simpa using none
    have again := List.length_pos_of_ne_nil none
    simp only [stays, none, decide_false, Bool.false_eq_true, if_false, Nat.add_zero,
      Nat.lt_irrefl] at goesOn ⊢
    by_cases shorter : others.length + (unlistedAt properties dependencies index).length
        < state.lastIndexLength
    · rw [if_pos shorter, if_pos (by omega)]
      omega
    · rw [if_neg shorter] at goesOn ⊢
      omega

end

/-- When all that is needed is listed, what is left is resolved as it stands in the queue, by
induction on the queue.
-/
theorem Behind.drains (behind : Behind properties dependencies state)
    (listed : ∀ index < properties.length, unlistedAt properties dependencies index = [])
    (enough : state.indexToResolve.length < fuel)
    : Ends properties dependencies fuel state
        (.ok (state.executionOrder ++ state.indexToResolve)) := by
  induction queue : state.indexToResolve generalizing state fuel with
  | nil =>
      obtain ⟨fuel, rfl⟩ : ∃ less, fuel = less + 1 := ⟨fuel - 1, by omega⟩
      rw [List.append_nil]
      exact .done queue
  | cons index others ih =>
      obtain ⟨fuel, rfl⟩ : ∃ less, fuel = less + 1 := ⟨fuel - 1, by omega⟩
      have none := listed index (behind.dependent index (by simp [queue])).1
      have shrunk := behind.shrunk
      rw [queue, List.length_cons] at enough shrunk
      have goesOn : ¬((state.iterations + 1 : Nat) : Int)
          > (dependentTurn properties state index others
              (unlistedAt properties dependencies index)).lastIndexReduction
            + properties.length := by
        simp only [dependentTurn, none, List.map_nil, List.append_nil]
        rw [if_pos (by omega)]
        omega
      have after := behind.turn queue goesOn
      have left : (dependentTurn properties state index others
          (unlistedAt properties dependencies index)).indexToResolve = others := by
        simp [dependentTurn, none]
      refine .turn queue ((behind.resolveIndex queue).trans (if_neg goesOn)) ?_
      have whole : state.executionOrder ++ index :: others
          = (dependentTurn properties state index others
              (unlistedAt properties dependencies index)).executionOrder ++ others := by
        simp [dependentTurn]
      rw [whole]
      exact ih after (by rw [left]; omega) left

/-- When something needed is not listed, the loop gives up, by induction on the bound. -/
theorem Behind.givesUp (behind : Behind properties dependencies state)
    (stuck : ∃ index ∈ state.indexToResolve, unlistedAt properties dependencies index ≠ [])
    (enough : budget properties dependencies state < fuel)
    : Ends properties dependencies fuel state (.error maxIterationsReached) := by
  induction fuel generalizing state with
  | zero => omega
  | succ fuel ih =>
      obtain ⟨culprit, member, unlisted⟩ := stuck
      cases queue : state.indexToResolve with
      | nil => simp [queue] at member
      | cons index others =>
          have step := behind.resolveIndex queue
          split at step
          · exact .throws queue step
          case isFalse goesOn =>
            refine .turn queue step (ih (behind.turn queue goesOn) ⟨culprit, ?_, unlisted⟩ ?_)
            · rw [queue] at member
              rw [dependentTurn, List.mem_append]
              rcases List.mem_cons.mp member with rfl | waiting
              · obtain ⟨name, isUnlisted⟩ := List.exists_mem_of_ne_nil _ unlisted
                exact .inr (List.mem_map.mpr ⟨name, isUnlisted, rfl⟩)
              · exact .inl waiting
            · have less := behind.budget_lt queue goesOn
              omega

/-! ### The first turns -/

section Inputs

variable (properties : List INodeProperties) (dependencies : List (String × List String))

/-- Every property has an entry in the map. -/
def AllKnown : Prop :=
  ∀ index < properties.length,
    (Record.lookup dependencies (nameAt properties index)).isSome = true

/-- Some property needs a parameter that no property has the name of. -/
def Unlisted : Prop := ∃ index < properties.length, unlistedAt properties dependencies index ≠ []

/-- The last property depends on others, and each one that does misses more of them at its
first turn than there are properties in a row in front of it that depend on nothing.
-/
def Stalled : Prop :=
  (∃ last, properties.length = last + 1 ∧ neededAt properties dependencies last ≠ [])
  ∧ ∀ index < properties.length, neededAt properties dependencies index ≠ []
    → freeRun properties dependencies index < (missingAt properties dependencies index).length

end Inputs

/-- The state behind the first turns of so many properties. -/
structure FirstTurns (properties : List INodeProperties)
    (dependencies : List (String × List String)) (count : Nat) (state : ResolveState) : Prop
    where
  inside : count ≤ properties.length
  order : state.executionOrder = List.range count
  queue : state.indexToResolve
    = List.range' count (properties.length - count) ++ againUpTo properties dependencies count
  resolved : state.resolvedParameters = namesBefore properties count
  iterations : state.iterations = count
  lastLength : state.lastIndexLength
    = state.indexToResolve.length + freeRun properties dependencies count
  known : ∀ index < count, (Record.lookup dependencies (nameAt properties index)).isSome = true
  low : state.lastIndexReduction ≤ count
  reduction : (state.lastIndexReduction = -1
      ∧ ∀ index < count, neededAt properties dependencies index ≠ []
        → freeRun properties dependencies index
          < (missingAt properties dependencies index).length)
    ∨ 0 ≤ state.lastIndexReduction
      ∧ ∃ index < count, neededAt properties dependencies index ≠ []
        ∧ (missingAt properties dependencies index).length
          ≤ freeRun properties dependencies index
  recent : 0 < count → freeRun properties dependencies count = 0
    → (state.iterations : Int) ≤ state.lastIndexReduction + properties.length

theorem againUpTo_succ (count : Nat)
    : againUpTo properties dependencies (count + 1)
      = againUpTo properties dependencies count
        ++ (missingAt properties dependencies count).map (fun _ => count) := by
  simp [againUpTo, List.range_succ]

theorem firstTurns_start
    : FirstTurns properties dependencies 0 (resolveStart properties) where
  inside := Nat.zero_le _
  order := rfl
  queue := by simp [resolveStart, againUpTo, List.range_eq_range']
  resolved := rfl
  iterations := rfl
  lastLength := by simp [resolveStart, freeRun]
  known := by simp
  low := by simp [resolveStart]
  reduction := .inl ⟨rfl, by simp⟩
  recent := by simp

section

variable {count : Nat} (turns : FirstTurns properties dependencies count state)
  (more : count < properties.length)

include turns more

theorem FirstTurns.next
    : state.indexToResolve
      = count :: (List.range' (count + 1) (properties.length - (count + 1))
          ++ againUpTo properties dependencies count) := by
  have length : properties.length - count = properties.length - (count + 1) + 1 := by omega
  rw [turns.queue, length, List.range'_succ]
  rfl

/-- A property that depends on nothing. -/
theorem FirstTurns.free
    (found : Record.lookup dependencies (nameAt properties count) = some [])
    : ∃ after, resolveIndex properties dependencies state count
          (List.range' (count + 1) (properties.length - (count + 1))
            ++ againUpTo properties dependencies count) = .ok after
        ∧ FirstTurns properties dependencies (count + 1) after := by
  have free : neededAt properties dependencies count = [] := by simp [neededAt, found]
  have none : missingAt properties dependencies count = [] := by
    simp [missingAt, free, missingParameters]
  have run : freeRun properties dependencies (count + 1)
      = freeRun properties dependencies count + 1 := if_pos free
  refine ⟨_, resolveIndex_free found, ?_⟩
  constructor
  · exact more
  · simp only [turns.order, List.range_succ]
  · simp [againUpTo_succ, none]
  · simp [turns.resolved, namesBefore, List.range_succ]
  · simp only [turns.iterations]
  · have length := turns.lastLength
    rw [turns.next more, List.length_cons] at length
    simp only [run]
    omega
  · intro index below
    rcases Nat.lt_succ_iff_lt_or_eq.mp below with earlier | rfl
    · exact turns.known index earlier
    · rw [found]
      rfl
  · have low := turns.low
    simp only
    omega
  · rcases turns.reduction with ⟨none, stalls⟩ | ⟨some, index, below, dependent, shrinks⟩
    · refine .inl ⟨none, fun index below dependent => ?_⟩
      rcases Nat.lt_succ_iff_lt_or_eq.mp below with earlier | rfl
      · exact stalls index earlier dependent
      · exact absurd free dependent
    · exact .inr ⟨some, index, by omega, dependent, shrinks⟩
  · intro _ noRun
    omega

theorem FirstTurns.length_dependentTurn
    : (dependentTurn properties state count
        (List.range' (count + 1) (properties.length - (count + 1))
          ++ againUpTo properties dependencies count)
        (missingAt properties dependencies count)).indexToResolve.length
        < state.lastIndexLength
      ↔ (missingAt properties dependencies count).length
        ≤ freeRun properties dependencies count := by
  have length := turns.lastLength
  rw [turns.next more] at length
  simp only [dependentTurn, List.length_append, List.length_cons, List.length_map] at length ⊢
  omega

variable (present : neededAt properties dependencies count ≠ [])

include present

/-- A property that depends on others, when the loop does not give up. -/
theorem FirstTurns.dependent
    (goesOn : ¬((state.iterations + 1 : Nat) : Int)
      > (dependentTurn properties state count
          (List.range' (count + 1) (properties.length - (count + 1))
            ++ againUpTo properties dependencies count)
          (missingAt properties dependencies count)).lastIndexReduction + properties.length)
    : FirstTurns properties dependencies (count + 1)
        (dependentTurn properties state count
          (List.range' (count + 1) (properties.length - (count + 1))
            ++ againUpTo properties dependencies count)
          (missingAt properties dependencies count)) := by
  have shorter := turns.length_dependentTurn more
  have run : freeRun properties dependencies (count + 1) = 0 := if_neg present
  have iterations := turns.iterations
  constructor
  · exact more
  · simp only [dependentTurn, turns.order, List.range_succ]
  · simp [dependentTurn, againUpTo_succ]
  · simp [dependentTurn, turns.resolved, namesBefore, List.range_succ]
  · simp only [dependentTurn, iterations]
  · simp only [run]
    rfl
  · intro index below
    rcases Nat.lt_succ_iff_lt_or_eq.mp below with earlier | rfl
    · exact turns.known index earlier
    · cases found : Record.lookup dependencies (nameAt properties index) with
      | none => simp [neededAt, found] at present
      | some needed => rfl
  · have low := turns.low
    simp only [dependentTurn] at shorter ⊢
    split <;> omega
  · by_cases shrinks : (missingAt properties dependencies count).length
        ≤ freeRun properties dependencies count
    · refine .inr ⟨?_, count, Nat.lt_succ_self count, present, shrinks⟩
      rw [← shorter] at shrinks
      simp only [dependentTurn] at shrinks ⊢
      rw [if_pos shrinks]
      omega
    · have kept : (dependentTurn properties state count
          (List.range' (count + 1) (properties.length - (count + 1))
            ++ againUpTo properties dependencies count)
          (missingAt properties dependencies count)).lastIndexReduction
          = state.lastIndexReduction := by
        have notShorter := mt shorter.mp shrinks
        simp only [dependentTurn] at notShorter ⊢
        rw [if_neg notShorter]
      rw [kept]
      rcases turns.reduction with ⟨none, stalls⟩ | ⟨some, index, below, dependent, less⟩
      · refine .inl ⟨none, fun index below dependent => ?_⟩
        rcases Nat.lt_succ_iff_lt_or_eq.mp below with earlier | rfl
        · exact stalls index earlier dependent
        · omega
      · exact .inr ⟨some, index, by omega, dependent, less⟩
  · intro _ _
    exact Int.not_lt.mp goesOn

/-- The loop gives up at the last of the first turns, when the queue never became shorter. -/
theorem FirstTurns.stalled
    (givesUp : ((state.iterations + 1 : Nat) : Int)
      > (dependentTurn properties state count
          (List.range' (count + 1) (properties.length - (count + 1))
            ++ againUpTo properties dependencies count)
          (missingAt properties dependencies count)).lastIndexReduction + properties.length)
    : properties.length = count + 1 ∧ Stalled properties dependencies := by
  have shorter := turns.length_dependentTurn more
  have iterations := turns.iterations
  by_cases shrinks : (missingAt properties dependencies count).length
      ≤ freeRun properties dependencies count
  · rw [← shorter] at shrinks
    simp only [dependentTurn] at shrinks givesUp
    rw [if_pos shrinks] at givesUp
    omega
  · have notShorter := mt shorter.mp shrinks
    simp only [dependentTurn] at notShorter givesUp
    rw [if_neg notShorter] at givesUp
    rcases turns.reduction with ⟨none, stalls⟩ | ⟨some, _⟩
    · have isLast : properties.length = count + 1 := by omega
      refine ⟨isLast, ⟨count, isLast, present⟩, fun index below dependent => ?_⟩
      rw [isLast] at below
      rcases Nat.lt_succ_iff_lt_or_eq.mp below with earlier | rfl
      · exact stalls index earlier dependent
      · omega
    · omega

end

/-! ### The result -/

/-- What the loop ends with. -/
inductive Outcome (properties : List INodeProperties)
    (dependencies : List (String × List String)) : Except JsError (List Nat) → Prop where
  | unknown (unknown : ¬AllKnown properties dependencies)
    : Outcome properties dependencies (.error .typeError)
  | givesUp (known : AllKnown properties dependencies)
    (reason : Stalled properties dependencies ∨ Unlisted properties dependencies)
    : Outcome properties dependencies (.error maxIterationsReached)
  | returns (known : AllKnown properties dependencies)
    (moves : ¬Stalled properties dependencies) (listed : ¬Unlisted properties dependencies)
    : Outcome properties dependencies
        (.ok (List.range properties.length
          ++ againUpTo properties dependencies properties.length))

theorem unlistedAt_subset {index : Nat} (inside : index < properties.length) {name : String}
    (member : name ∈ unlistedAt properties dependencies index)
    : name ∈ missingAt properties dependencies index := by
  simp only [unlistedAt, missingAt, missingParameters, List.mem_filter, decide_eq_true_eq]
    at member ⊢
  refine ⟨member.1, fun known => member.2.1 ?_, member.2.2⟩
  obtain ⟨earlier, below, isName⟩ := List.mem_map.mp known
  exact List.mem_map.mpr ⟨earlier, List.mem_range.mpr
    (Nat.lt_trans (List.mem_range.mp below) inside), isName⟩

theorem mem_againUpTo {count : Nat}
    : index ∈ againUpTo properties dependencies count
      ↔ index < count ∧ missingAt properties dependencies index ≠ [] := by
  simp only [againUpTo, List.mem_flatMap, List.mem_range, List.mem_map]
  constructor
  · rintro ⟨index, below, name, member, rfl⟩
    exact ⟨below, List.ne_nil_of_mem member⟩
  · rintro ⟨below, some⟩
    obtain ⟨name, member⟩ := List.exists_mem_of_ne_nil _ some
    exact ⟨index, below, name, member, rfl⟩

theorem length_againUpTo_le {count : Nat} (inside : count ≤ properties.length)
    : (againUpTo properties dependencies count).length
      ≤ ((properties.take count).flatMap (neededBy dependencies)).length := by
  induction count with
  | zero => simp [againUpTo]
  | succ count ih =>
      have more : count < properties.length := inside
      have earlier := ih (Nat.le_of_lt more)
      have isNeeded : neededAt properties dependencies count
          = neededBy dependencies properties[count] := by
        simp [neededAt, nameAt, neededBy, more]
      have fewer : (missingAt properties dependencies count).length
          ≤ (neededBy dependencies properties[count]).length := by
        rw [← isNeeded]
        exact List.length_filter_le _ _
      rw [againUpTo_succ, List.take_succ_eq_append_getElem more, List.flatMap_append]
      simp only [List.length_append, List.length_map, List.flatMap_cons, List.flatMap_nil,
        List.append_nil]
      omega

section

variable (turns : FirstTurns properties dependencies properties.length state)

include turns

theorem FirstTurns.behind (some : 0 < properties.length)
    : Behind properties dependencies state where
  resolved name := by rw [turns.resolved]
  dependent index member := by
    rw [turns.queue, Nat.sub_self, List.range'_zero, List.nil_append, mem_againUpTo] at member
    refine ⟨member.1, fun none => member.2 ?_⟩
    simp [missingAt, none, missingParameters]
  shrunk := by
    rw [turns.lastLength]
    exact Nat.le_add_right _ _
  recent := by
    by_cases run : freeRun properties dependencies properties.length = 0
    · exact .inl (turns.recent some run)
    · rw [turns.lastLength]
      exact .inr (by omega)

/-- Without a reduction of the queue there was no way past a last property that depends on
others.
-/
theorem FirstTurns.not_stalled
    : ¬Stalled properties dependencies := by
  rintro ⟨⟨last, isLast, present⟩, stalls⟩
  have noRun : freeRun properties dependencies properties.length = 0 := by
    rw [isLast]
    exact if_neg present
  have recent := turns.recent (by omega) noRun
  rw [turns.iterations] at recent
  rcases turns.reduction with ⟨none, _⟩ | ⟨_, index, below, dependent, shrinks⟩
  · omega
  · have := stalls index below dependent
    omega

theorem FirstTurns.ends_behind (enough : (properties.length + 1)
      * ((againUpTo properties dependencies properties.length).length + 2) + 1 < fuel)
    : ∃ result, Ends properties dependencies fuel state result
        ∧ Outcome properties dependencies result := by
  have queue : state.indexToResolve = againUpTo properties dependencies properties.length := by
    rw [turns.queue, Nat.sub_self]
    rfl
  by_cases some : 0 < properties.length
  · have behind := turns.behind some
    by_cases unlisted : Unlisted properties dependencies
    · refine ⟨_, behind.givesUp ?_ ?_, .givesUp turns.known (.inr unlisted)⟩
      · obtain ⟨index, inside, some⟩ := unlisted
        obtain ⟨name, member⟩ := List.exists_mem_of_ne_nil _ some
        rw [queue]
        exact ⟨index, mem_againUpTo.mpr
          ⟨inside, List.ne_nil_of_mem (unlistedAt_subset inside member)⟩, some⟩
      · have low := turns.low
        have iterations := turns.iterations
        have fewer : state.indexToResolve.countP
            (fun index => unlistedAt properties dependencies index = [])
            ≤ (againUpTo properties dependencies properties.length).length := by
          rw [queue]
          exact List.countP_le_length
        have scaled := Nat.mul_le_mul_left (properties.length + 1) fewer
        rw [Nat.mul_add] at enough
        rw [budget]
        split <;> omega
    · have listed : ∀ index < properties.length,
          unlistedAt properties dependencies index = [] := by
        intro index inside
        by_contra some
        exact unlisted ⟨index, inside, some⟩
      have few : state.indexToResolve.length < fuel := by
        rw [queue]
        rw [Nat.add_mul, Nat.one_mul] at enough
        omega
      refine ⟨_, behind.drains listed few, ?_⟩
      rw [turns.order, queue]
      exact .returns turns.known turns.not_stalled unlisted
  · have none : properties.length = 0 := by omega
    have isEmpty : state.indexToResolve = [] := by
      rw [queue, none]
      rfl
    obtain ⟨fuel, rfl⟩ : ∃ less, fuel = less + 1 := ⟨fuel - 1, by omega⟩
    have listed : ¬Unlisted properties dependencies := by
      rintro ⟨index, inside, _⟩
      omega
    have returns := Outcome.returns turns.known turns.not_stalled listed
    rw [← turns.order, ← queue, isEmpty, List.append_nil] at returns
    exact ⟨_, .done isEmpty, returns⟩

end

/-- The loop ends, with one of the outcomes, by induction on the first turns that are left. -/
theorem FirstTurns.ends {left count : Nat}
    (turns : FirstTurns properties dependencies count state)
    (isLeft : count + left = properties.length)
    (enough : left + (properties.length + 1)
      * ((againUpTo properties dependencies properties.length).length + 2) + 1 < fuel)
    : ∃ result, Ends properties dependencies fuel state result
        ∧ Outcome properties dependencies result := by
  induction left generalizing count state fuel with
  | zero =>
      obtain rfl : count = properties.length := by omega
      exact turns.ends_behind (by omega)
  | succ left ih =>
      have more : count < properties.length := by omega
      obtain ⟨fuel, rfl⟩ : ∃ less, fuel = less + 1 := ⟨fuel - 1, by omega⟩
      have queue := turns.next more
      cases found : Record.lookup dependencies (nameAt properties count) with
      | none =>
          refine ⟨_, .throws queue (resolveIndex_of_none found), .unknown fun known => ?_⟩
          have isSome := known count more
          rw [found] at isSome
          contradiction
      | some needed =>
          by_cases free : needed = []
          · subst free
            obtain ⟨after, step, turned⟩ := turns.free more found
            obtain ⟨result, ends, outcome⟩ : ∃ result,
                Ends properties dependencies fuel after result
                ∧ Outcome properties dependencies result :=
              ih turned (by omega) (by omega)
            exact ⟨result, .turn queue step ends, outcome⟩
          · have present : neededAt properties dependencies count ≠ [] := by
              simpa [neededAt, found] using free
            have step : resolveIndex properties dependencies state count
                  (List.range' (count + 1) (properties.length - (count + 1))
                    ++ againUpTo properties dependencies count) = _ :=
              resolveIndex_dependent present
            rw [turns.resolved] at step
            split at step
            case isTrue givesUp =>
              obtain ⟨isLast, stalled⟩ := turns.stalled more present givesUp
              refine ⟨_, .throws queue step, .givesUp (fun index inside => ?_) (.inl stalled)⟩
              by_cases isCount : index = count
              · rw [isCount, found]
                rfl
              · exact turns.known index (by omega)
            case isFalse goesOn =>
              obtain ⟨result, ends, outcome⟩ : ∃ result,
                  Ends properties dependencies fuel _ result
                  ∧ Outcome properties dependencies result :=
                ih (turns.dependent more present goesOn) (by omega) (by omega)
              exact ⟨result, .turn queue step ends, outcome⟩

theorem getParameterResolveOrder_ends (properties : List INodeProperties)
    (dependencies : List (String × List String))
    : Resolves properties dependencies (resolveStart properties)
          (getParameterResolveOrder properties dependencies)
        ∧ Outcome properties dependencies (getParameterResolveOrder properties dependencies) := by
  have enough : properties.length + (properties.length + 1)
        * ((againUpTo properties dependencies properties.length).length + 2) + 1
      < resolveFuel properties dependencies := by
    have fewer : (againUpTo properties dependencies properties.length).length
        ≤ (properties.flatMap (neededBy dependencies)).length := by
      have bound : (againUpTo properties dependencies properties.length).length
          ≤ ((properties.take properties.length).flatMap (neededBy dependencies)).length :=
        length_againUpTo_le (Nat.le_refl properties.length)
      rwa [List.take_length] at bound
    rw [resolveFuel]
    have scaled := Nat.mul_le_mul_left (properties.length + 1) fewer
    simp only [Nat.add_mul, Nat.mul_add, Nat.one_mul] at scaled ⊢
    omega
  obtain ⟨result, ends, outcome⟩ := firstTurns_start.ends (Nat.zero_add _) enough
  have computed : getParameterResolveOrder properties dependencies = result := ends.computed
  rw [computed]
  exact ⟨ends.resolves, outcome⟩

/-! ### The order of the dependencies -/

section Purpose

variable (properties : List INodeProperties) (dependencies : List (String × List String))

/-- The map names the second property among those that the first one depends on, and not as a
parameter at the root level.
-/
def DependsOn (index other : Nat) : Prop :=
  index < properties.length ∧ other < properties.length
  ∧ nameAt properties other ∈ neededAt properties dependencies index
  ∧ (nameAt properties other).toList.head? ≠ some '/'

def Cyclic : Prop :=
  ∃ index, Relation.TransGen (DependsOn properties dependencies) index index

/-- The loop ends. It gives up only when the dependencies are cyclic or name no property, and
otherwise returns each index once, behind those that its property depends on.
-/
structure InDependencyOrder : Prop where
  ends : Resolves properties dependencies (resolveStart properties)
    (getParameterResolveOrder properties dependencies)
  answer :
    (getParameterResolveOrder properties dependencies = .error maxIterationsReached
      ∧ (Cyclic properties dependencies ∨ Unlisted properties dependencies))
    ∨ ∃ order, getParameterResolveOrder properties dependencies = .ok order
      ∧ order.Perm (List.range properties.length)
      ∧ ∀ index other, DependsOn properties dependencies index other
        → order.idxOf other < order.idxOf index

/-- Every property stands behind those that it depends on. -/
def Sorted : Prop := ∀ index other, DependsOn properties dependencies index other → other < index

end Purpose

/-- A stalled loop has come to a property that depends on itself, or on none that is listed. -/
theorem Stalled.reason (stalled : Stalled properties dependencies)
    : Cyclic properties dependencies ∨ Unlisted properties dependencies := by
  obtain ⟨⟨last, isLast, present⟩, stalls⟩ := stalled
  have some : missingAt properties dependencies last ≠ [] := by
    intro none
    have stall := stalls last (by omega) present
    rw [none] at stall
    contradiction
  obtain ⟨name, member⟩ := List.exists_mem_of_ne_nil _ some
  simp only [missingAt, missingParameters, List.mem_filter, decide_eq_true_eq] at member
  by_cases isSelf : name = nameAt properties last
  · subst isSelf
    exact .inl ⟨last, .single ⟨by omega, by omega, member.1, member.2.2⟩⟩
  · refine .inr ⟨last, by omega, List.ne_nil_of_mem (a := name) ?_⟩
    simp only [unlistedAt, missingParameters, List.mem_filter, decide_eq_true_eq]
    refine ⟨member.1, fun known => ?_, member.2.2⟩
    obtain ⟨index, inside, isName⟩ := List.mem_map.mp known
    rw [isLast, List.mem_range] at inside
    rcases Nat.lt_succ_iff_lt_or_eq.mp inside with earlier | rfl
    · exact member.2.1 (List.mem_map.mpr ⟨index, List.mem_range.mpr earlier, isName⟩)
    · exact isSelf isName.symm

/-- Without unlisted parameters, nothing is missing exactly if the properties are sorted, as
far as single properties of a name go.
-/
theorem againUpTo_eq_nil_of_sorted (sorted : Sorted properties dependencies)
    (listed : ¬Unlisted properties dependencies)
    : againUpTo properties dependencies properties.length = [] := by
  rw [List.eq_nil_iff_forall_not_mem]
  intro index again
  obtain ⟨inside, some⟩ := mem_againUpTo.mp again
  obtain ⟨name, member⟩ := List.exists_mem_of_ne_nil _ some
  simp only [missingAt, missingParameters, List.mem_filter, decide_eq_true_eq] at member
  refine listed ⟨index, inside, List.ne_nil_of_mem (a := name) ?_⟩
  simp only [unlistedAt, missingParameters, List.mem_filter, decide_eq_true_eq]
  refine ⟨member.1, fun known => ?_, member.2.2⟩
  obtain ⟨other, otherInside, rfl⟩ := List.mem_map.mp known
  have before := sorted index other
    ⟨inside, List.mem_range.mp otherInside, member.1, member.2.2⟩
  exact member.2.1 (List.mem_map.mpr ⟨other, List.mem_range.mpr before, rfl⟩)

theorem idxOf_range {index count : Nat} (inside : index < count)
    : (List.range count).idxOf index = index := by
  have here := List.Nodup.idxOf_getElem (List.nodup_range (n := count)) index (by simpa using inside)
  simpa using here

theorem inDependencyOrder_iff
    : InDependencyOrder properties dependencies
      ↔ AllKnown properties dependencies
        ∧ (Sorted properties dependencies ∨ Unlisted properties dependencies
          ∨ Stalled properties dependencies) := by
  obtain ⟨ends, outcome⟩ := getParameterResolveOrder_ends properties dependencies
  constructor
  · rintro ⟨-, answer⟩
    generalize getParameterResolveOrder properties dependencies = result at outcome answer
    cases outcome with
    | unknown unknown =>
        rcases answer with ⟨same, _⟩ | ⟨order, same, _⟩
        · simp [maxIterationsReached] at same
        · contradiction
    | givesUp known reason => exact ⟨known, .inr reason.symm⟩
    | returns known moves listed =>
        refine ⟨known, .inl ?_⟩
        rcases answer with ⟨same, _⟩ | ⟨order, same, perm, sorted⟩
        · contradiction
        · cases same
          have lengths := perm.length_eq
          rw [List.length_append, Nat.add_eq_left, List.length_eq_zero_iff] at lengths
          rw [lengths, List.append_nil] at sorted
          intro index other depends
          have before := sorted index other depends
          rwa [idxOf_range depends.1, idxOf_range depends.2.1] at before
  · rintro ⟨known, condition⟩
    refine ⟨ends, ?_⟩
    clear ends
    generalize getParameterResolveOrder properties dependencies = result at outcome ⊢
    cases outcome with
    | unknown unknown => exact absurd known unknown
    | givesUp _ reason =>
        refine .inl ⟨rfl, ?_⟩
        rcases reason with stalled | unlisted
        · exact stalled.reason
        · exact .inr unlisted
    | returns _ moves listed =>
        rcases condition with sorted | unlisted | stalled
        · refine .inr ⟨_, rfl, ?_, ?_⟩
          · rw [againUpTo_eq_nil_of_sorted sorted listed, List.append_nil]
          · intro index other depends
            rw [againUpTo_eq_nil_of_sorted sorted listed, List.append_nil,
              idxOf_range depends.1, idxOf_range depends.2.1]
            exact sorted index other depends
        · exact absurd unlisted listed
        · exact absurd stalled moves

/-- The first property depends on the second one, and is resolved before it as well. -/
theorem not_inDependencyOrder_later
    : ¬InDependencyOrder
        [.mk "text" .string .null false none none [] [],
          .mk "switch" .boolean .null false none none [] []]
        [("text", ["switch"]), ("switch", [])] := by
  intro inOrder
  have computed : getParameterResolveOrder
      [.mk "text" .string .null false none none [] [],
        .mk "switch" .boolean .null false none none [] []]
      [("text", ["switch"]), ("switch", [])] = .ok [0, 1, 0] := by
    decide +kernel
  have answer := inOrder.answer
  rw [computed] at answer
  rcases answer with ⟨same, _⟩ | ⟨order, same, perm, _⟩
  · contradiction
  · rw [← Except.ok.inj same] at perm
    have lengths := perm.length_eq
    contradiction

end N8n.NodeParameters
