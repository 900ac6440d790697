import N8n.Workflow.ParentsAndChildren

/-! The calls that `getConnectedNodes` makes, and the order and the repetitions of the names
that it lists.
-/

namespace N8n

open FrontMoves Library

variable {connections : IConnections} {selector : ConnectionSelector}

structure ConnectedNodesCall where
  nodeName : String
  depth : Option Nat
  checkedNodes : List String

/-- The first call makes the other one. -/
def IConnections.Calls (connections : IConnections) (selector : ConnectionSelector)
    (call next : ConnectedNodesCall)
    : Prop :=
  call.depth ≠ some 0
  ∧ call.nodeName ∉ call.checkedNodes
  ∧ connections.Leads selector call.nodeName next.nodeName
  ∧ next.nodeName ∉ call.checkedNodes ++ [call.nodeName]
  ∧ next.depth = call.depth.map (fun depth => depth - 1)
  ∧ next.checkedNodes = call.checkedNodes ++ [call.nodeName]

/-- The nodes with connections that a call may still check. -/
def IConnections.unchecked (connections : IConnections) (checkedNodes : List String)
    : List String :=
  connections.keys.filter (fun nodeName => nodeName ∉ checkedNodes)

variable {nodeName : String} {checkedNodes : List String}

theorem unchecked_lt (known : nodeName ∈ connections.keys) (unchecked : nodeName ∉ checkedNodes)
    : (connections.unchecked (checkedNodes ++ [nodeName])).length
      < (connections.unchecked checkedNodes).length := by
  have fewer : connections.unchecked (checkedNodes ++ [nodeName])
      = (connections.unchecked checkedNodes).filter (fun other => other ≠ nodeName) := by
    unfold IConnections.unchecked
    rw [List.filter_filter]
    refine List.filter_congr fun other _ => ?_
    simp [not_or, and_comm]
  rw [fewer]
  refine List.length_filter_lt_length_iff_exists.mpr ⟨nodeName, ?_, by simp⟩
  exact List.mem_filter.mpr ⟨known, by simpa using unchecked⟩

theorem IConnections.Leads.mem_keys {other : String}
    (leads : connections.Leads selector nodeName other)
    : nodeName ∈ connections.keys := by
  obtain ⟨_, present, -⟩ := leads
  exact Dict.mem_keys_of_get? present

/-- No call makes calls without end. -/
theorem wellFounded_calls
    : WellFounded (fun later earlier => connections.Calls selector earlier later) := by
  refine Subrelation.wf (fun {later earlier} calls => ?_)
    (measure (fun call : ConnectedNodesCall =>
      (connections.unchecked call.checkedNodes).length)).wf
  obtain ⟨-, unchecked, leads, -, -, checked⟩ := calls
  change (connections.unchecked later.checkedNodes).length
    < (connections.unchecked earlier.checkedNodes).length
  rw [checked]
  exact unchecked_lt leads.mem_keys unchecked

/-- The names that the connections of the node lead to, in the order of the loops. -/
def IConnections.targets (connections : IConnections) (selector : ConnectionSelector)
    (nodeName : String)
    : List String :=
  match connections.get? nodeName with
  | none => []
  | some nodeConnections =>
      (selector.types nodeConnections).flatMap (fun type =>
        ((nodeConnections.get? type).getD []).flatMap (fun atIndex =>
          (atIndex.getD []).map IConnection.node))

theorem mem_targets_iff {other : String}
    : other ∈ connections.targets selector nodeName
      ↔ connections.Leads selector nodeName other := by
  unfold IConnections.targets IConnections.Leads
  cases connections.get? nodeName with
  | none => simp
  | some nodeConnections =>
      simp only [List.mem_flatMap, List.mem_map, Option.some.injEq, exists_eq_left']
      refine exists_congr fun type => and_congr_right fun _ => ?_
      cases nodeConnections.get? type with
      | none => simp
      | some byIndex =>
          simp only [Option.getD_some, Option.some.injEq, exists_eq_left']
          constructor
          · rintro ⟨atIndex, inside, connection, member, same⟩
            exact ⟨connection, ⟨atIndex, inside, member⟩, same⟩
          · rintro ⟨connection, ⟨atIndex, inside, member⟩, same⟩
            exact ⟨atIndex, inside, connection, member, same⟩

variable {fuel : Nat} {depth : Option Nat}

/-- What a call lists is gathered from the targets that are not checked. -/
theorem go_eq_gather (deeper : depth ≠ some 0) (unchecked : nodeName ∉ checkedNodes)
    : getConnectedNodes.go connections selector (fuel + 1) nodeName depth checkedNodes
      = gather
          (fun next =>
            getConnectedNodes.go connections selector fuel next
              (depth.map (fun depth => depth - 1)) (checkedNodes ++ [nodeName]))
          ((connections.targets selector nodeName).filter
            (fun next => next ∉ checkedNodes ++ [nodeName])) := by
  rw [getConnectedNodes.go, if_neg deeper, IConnections.targets]
  cases connections.get? nodeName with
  | none => rfl
  | some nodeConnections =>
      simp only [gather, List.foldl_filter, List.foldl_flatMap, List.foldl_map]
      congr 1
      funext returnNodes type
      cases nodeConnections.get? type with
      | none => rfl
      | some byIndex =>
          simp only [if_neg unchecked, Option.getD_some]
          congr 1
          funext nodes atIndex
          congr 1
          funext nodes connection
          by_cases checked : connection.node ∈ checkedNodes ++ [nodeName]
          · simp [checked]
          · simp only [checked, if_false, not_false_eq_true, decide_true, if_true]
            rfl

theorem gather_congr {find other : String → List String} {targets : List String}
    (same : ∀ target ∈ targets, find target = other target)
    : gather find targets = gather other targets := by
  induction targets using List.reverseRecOn with
  | nil => rfl
  | append_singleton init last ih =>
      rw [gather_snoc, gather_snoc, same last (by simp),
        ih (fun target member => same target (List.mem_append_left _ member))]

theorem go_eq_nil (idle : depth = some 0 ∨ nodeName ∈ checkedNodes ∨ nodeName ∉ connections.keys)
    : getConnectedNodes.go connections selector fuel nodeName depth checkedNodes = [] := by
  cases fuel with
  | zero => rfl
  | succ fuel =>
      rw [List.eq_nil_iff_forall_not_mem]
      intro found listed
      obtain ⟨deeper, unchecked, _, leads, -⟩ := mem_go_succ.mp listed
      rcases idle with reached | checked | unknown
      · exact deeper reached
      · exact unchecked checked
      · exact unknown leads.mem_keys

/-- What a call lists does not depend on the fuel, once it is enough; by induction on the fuel. -/
theorem go_succ_eq (enough : (connections.unchecked checkedNodes).length ≤ fuel)
    : getConnectedNodes.go connections selector (fuel + 1) nodeName depth checkedNodes
      = getConnectedNodes.go connections selector fuel nodeName depth checkedNodes := by
  by_cases idle : depth = some 0 ∨ nodeName ∈ checkedNodes ∨ nodeName ∉ connections.keys
  · rw [go_eq_nil idle, go_eq_nil idle]
  simp only [not_or, not_not] at idle
  obtain ⟨deeper, unchecked, known⟩ := idle
  have fewer := unchecked_lt known unchecked
  induction fuel generalizing nodeName depth checkedNodes with
  | zero => omega
  | succ fuel ih =>
      rw [go_eq_gather deeper unchecked, go_eq_gather deeper unchecked]
      refine gather_congr fun next _ => ?_
      generalize depth.map (fun depth => depth - 1) = newDepth
      by_cases idle
        : newDepth = some 0 ∨ next ∈ checkedNodes ++ [nodeName] ∨ next ∉ connections.keys
      · rw [go_eq_nil idle, go_eq_nil idle]
      · simp only [not_or, not_not] at idle
        obtain ⟨deeper, unchecked, known⟩ := idle
        exact ih (by omega) deeper unchecked known (unchecked_lt known unchecked)

theorem go_eq_of_enough (enough : connections.entries.length < fuel)
    : getConnectedNodes.go connections selector fuel nodeName depth []
      = getConnectedNodes connections nodeName selector depth := by
  rw [getConnectedNodes]
  have all : (connections.unchecked []).length ≤ connections.entries.length := by
    refine (List.length_filter_le _ _).trans ?_
    simp [Dict.keys]
  induction fuel, enough using Nat.le_induction with
  | base => rfl
  | succ fuel enough ih => rw [go_succ_eq (by omega), ih]

/-- The call returns the other nodes that a walk of one to `depth` steps leads to. -/
def ListsReachable (connections : IConnections) (nodeName : String)
    (selector : ConnectionSelector) (depth : Option Nat)
    (result : Except JsError (List String))
    : Prop :=
  ∃ names,
    result = .ok names
    ∧ ∀ found,
        found ∈ names
        ↔ found ≠ nodeName
          ∧ ∃ places,
              Walk (connections.Leads selector) nodeName places found
              ∧ 1 ≤ places.length
              ∧ WithinDepth depth places.length

theorem listsReachable_getConnectedNodes
    : ListsReachable connections nodeName selector depth
        (.ok (getConnectedNodes connections nodeName selector depth)) := by
  refine ⟨_, rfl, fun found => ?_⟩
  rw [mem_getConnectedNodes_iff]
  refine and_congr_right fun differ => exists_congr fun places => and_congr_right fun walk => ?_
  refine (and_iff_right ?_).symm
  cases walk with
  | nil _ => exact absurd rfl differ
  | cons step further => exact Nat.le_add_left 1 _

/-- The recursion ends, and what is reachable is listed unless a node has the name of the
method that the table is asked with.
-/
theorem callGetConnectedNodes_listsReachable_iff (connections : IConnections)
    (nodeName : String) (selector : ConnectionSelector) (depth : Option Nat)
    : WellFounded (fun later earlier => connections.Calls selector earlier later)
      ∧ (∀ fuel, connections.entries.length < fuel
        → getConnectedNodes.go connections selector fuel nodeName depth []
          = getConnectedNodes connections nodeName selector depth)
      ∧ (ListsReachable connections nodeName selector depth
            (callGetConnectedNodes connections nodeName selector depth)
        ↔ depth = some 0 ∨ "hasOwnProperty" ∉ connections.keys) := by
  refine ⟨wellFounded_calls, fun fuel enough => go_eq_of_enough enough, ?_⟩
  unfold callGetConnectedNodes IConnections.hasOwnProperty
  by_cases reached : depth = some 0
  · have nothing : getConnectedNodes connections nodeName selector depth = [] :=
      go_eq_nil (.inl reached)
    rw [if_pos reached, ← nothing]
    exact iff_of_true listsReachable_getConnectedNodes (.inl reached)
  · rw [if_neg reached, or_iff_right reached]
    split
    · next hidden =>
      refine iff_of_false ?_ (not_not_intro hidden)
      rintro ⟨names, returned, -⟩
      contradiction
    · next owned => exact iff_of_true listsReachable_getConnectedNodes owned

def hidingMethod : IConnections :=
  Dict.empty.set "hasOwnProperty" (Dict.empty.set .main [some [⟨"B", .main, 0⟩]])

theorem not_listsReachable_hidingMethod
    : ¬ ListsReachable hidingMethod "hasOwnProperty" (.single .main) none
        (callGetConnectedNodes hidingMethod "hasOwnProperty" (.single .main) none) := by
  rintro ⟨names, returned, -⟩
  contradiction

/-- A walk that stays away from the node leads from the one place to the other. -/
def IConnections.ReachesAround (connections : IConnections) (selector : ConnectionSelector)
    (nodeName : String) (depth : Option Nat) (first last : String)
    : Prop :=
  ∃ places,
    Walk (connections.Leads selector) first places last
    ∧ nodeName ∉ first :: places
    ∧ WithinDepth depth places.length

theorem mem_go_around {next found : String} (differ : next ≠ nodeName)
    : found = next
        ∨ found ∈ getConnectedNodes.go connections selector connections.entries.length next depth
            [nodeName]
      ↔ connections.ReachesAround selector nodeName depth next found := by
  rw [mem_go_iff]
  constructor
  · rintro (rfl | ⟨places, walk, -, -, avoids, within, -⟩)
    · refine ⟨[], .nil _, by simpa using differ.symm, fun limit _ => Nat.zero_le limit⟩
    · refine ⟨places, walk, fun member => ?_, within⟩
      exact avoids nodeName member (List.mem_singleton_self _)
  · rintro ⟨places, walk, around, within⟩
    obtain ⟨rest, further, distinct, shorter⟩ := walk.exists_nodup
    have fewer := shorter.length_le
    simp only [List.length_cons, Nat.add_le_add_iff_right] at fewer
    by_cases stays : rest = []
    · subst stays
      cases further
      exact .inl rfl
    · refine .inr ⟨rest, further, stays, distinct, fun place member => ?_,
        fun limit same => fewer.trans (within limit same), length_le_of_nodup further distinct⟩
      rw [List.mem_singleton]
      rintro rfl
      exact around (shorter.subset member)

theorem getConnectedNodes_eq_gather (deeper : depth ≠ some 0)
    : getConnectedNodes connections nodeName selector depth
      = gather
          (fun next =>
            getConnectedNodes.go connections selector connections.entries.length next
              (depth.map (fun depth => depth - 1)) [nodeName])
          ((connections.targets selector nodeName).filter (fun next => next ≠ nodeName)) := by
  rw [getConnectedNodes, go_eq_gather deeper List.not_mem_nil]
  simp

/-- No name is listed twice exactly if no connection of the node leads to where an earlier one
leads, around the node.
-/
theorem getConnectedNodes_nodup_iff (connections : IConnections) (nodeName : String)
    (selector : ConnectionSelector) (depth : Option Nat)
    : (getConnectedNodes connections nodeName selector depth).Nodup
      ↔ depth = some 0
        ∨ ((connections.targets selector nodeName).filter (fun next => next ≠ nodeName)).Pairwise
            (fun earlier later =>
              ¬ connections.ReachesAround selector nodeName
                  (depth.map (fun depth => depth - 1)) earlier later) := by
  by_cases reached : depth = some 0
  · rw [getConnectedNodes, go_eq_nil (.inl reached)]
    simp [reached]
  rw [getConnectedNodes_eq_gather reached, nodup_gather_iff ?apart, or_iff_right reached]
  case apart =>
    intro target member listed
    obtain ⟨places, walk, moves, distinct, -⟩ := mem_go_iff.mp listed
    exact (List.nodup_cons.mp distinct).1 (walk.last_mem moves)
  refine List.Pairwise.iff_of_mem fun {earlier later} member _ => ?_
  have differ : earlier ≠ nodeName := by simpa using (List.mem_filter.mp member).2
  rw [← mem_go_around differ, not_or]

def mainTo (names : List String) : INodeConnections :=
  Dict.empty.set .main [some (names.map (fun name => ⟨name, .main, 0⟩))]

def reachedTwice : IConnections :=
  (Dict.empty.set "Start" (mainTo ["B", "C"])).set "B" (mainTo ["C"])

/-- `C` is met below `B` and then as a target of its own. -/
theorem not_getConnectedNodes_nodup_reachedTwice
    : ¬ (getConnectedNodes reachedTwice "Start" (.single .main) none).Nodup := by
  decide

/-- No walk that starts where the node leads to comes back. -/
def IConnections.AcyclicBelow (connections : IConnections) (selector : ConnectionSelector)
    (nodeName : String)
    : Prop :=
  ∀ place places loop,
    Walk (connections.Leads selector) nodeName places place
    → Walk (connections.Leads selector) place loop place → loop = []

/-- Whatever a name leads to stands in front of it. -/
def InTopologicalOrder (leads : String → String → Prop) (names : List String) : Prop :=
  names.Pairwise (fun earlier later => ¬ leads earlier later)

theorem IConnections.AcyclicBelow.step {nodeName next : String}
    (acyclic : connections.AcyclicBelow selector nodeName)
    (leads : connections.Leads selector nodeName next)
    : connections.AcyclicBelow selector next :=
  fun place places loop walk => acyclic place (next :: places) loop (.cons leads walk)

/-- The nodes that are checked do not lie below the node. -/
def Above (connections : IConnections) (selector : ConnectionSelector)
    (checkedNodes : List String) (nodeName : String)
    : Prop :=
  ∀ place places, Walk (connections.Leads selector) nodeName places place
    → place ∉ checkedNodes

theorem Above.step {nodeName next : String} {checkedNodes : List String}
    (above : Above connections selector checkedNodes nodeName)
    (acyclic : connections.AcyclicBelow selector nodeName)
    (leads : connections.Leads selector nodeName next)
    : Above connections selector (checkedNodes ++ [nodeName]) next := by
  intro place places walk checked
  rcases List.mem_append.mp checked with old | here
  · exact above place (next :: places) (.cons leads walk) old
  · obtain rfl := List.mem_singleton.mp here
    have loops := acyclic place [] (next :: places) (.nil place) (.cons leads walk)
    contradiction

section

variable (acyclic : connections.AcyclicBelow selector nodeName)
  (above : Above connections selector checkedNodes nodeName)
  (enough : (connections.unchecked checkedNodes).length ≤ fuel)

include acyclic above enough

/-- Below a node without cycles, a call with enough fuel lists all that walks lead to. -/
theorem mem_go_below {found : String}
    : found ∈ getConnectedNodes.go connections selector fuel nodeName none checkedNodes
      ↔ ∃ places, places ≠ [] ∧ Walk (connections.Leads selector) nodeName places found := by
  rw [mem_go_iff]
  constructor
  · rintro ⟨places, walk, moves, -⟩
    exact ⟨places, moves, walk⟩
  · rintro ⟨places, moves, walk⟩
    obtain ⟨rest, further, distinct, shorter⟩ := walk.exists_nodup
    have avoids : ∀ place ∈ nodeName :: rest, place ∉ checkedNodes := by
      intro place member
      obtain ⟨front, reached⟩ := further.exists_prefix member
      exact above place front reached
    refine ⟨rest, further, ?_, distinct, avoids, by simp [WithinDepth], ?_⟩
    · rintro rfl
      cases further
      exact moves (acyclic nodeName [] places (.nil _) walk)
    · have left : ((nodeName :: rest).dropLast).Nodup :=
        distinct.sublist (List.dropLast_sublist _)
      have known : (nodeName :: rest).dropLast ⊆ connections.unchecked checkedNodes := by
        intro place member
        obtain ⟨next, leads⟩ := further.leaves member
        exact List.mem_filter.mpr
          ⟨leads.mem_keys, by simpa using avoids place (List.dropLast_subset _ member)⟩
      have count := (List.subperm_of_subset left known).length_le
      simp only [List.length_dropLast, List.length_cons, Nat.add_sub_cancel] at count
      exact count.trans enough

theorem finds_of_prefixClosed (closed
      : PrefixClosed (connections.Leads selector)
          (getConnectedNodes.go connections selector fuel nodeName none checkedNodes))
    : Finds (connections.Leads selector)
        (fun next => getConnectedNodes.go connections selector fuel next none checkedNodes)
        nodeName where
  closed := closed
  follows next leads :=
    (mem_go_below acyclic above enough).mpr ⟨[next], by simp, .single leads⟩
  reached item listed := by
    obtain ⟨places, moves, walk⟩ := (mem_go_below acyclic above enough).mp listed
    obtain ⟨before, front, further, leads, -⟩ := walk.exists_last_step moves
    refine ⟨before, ?_, leads⟩
    cases further with
    | nil _ => exact .inl rfl
    | cons step further =>
        exact .inr ((mem_go_below acyclic above enough).mpr
          ⟨_, by simp, .cons step further⟩)
  apart listed := by
    obtain ⟨places, moves, walk⟩ := (mem_go_below acyclic above enough).mp listed
    exact moves (acyclic nodeName [] places (.nil _) walk)

/-- By induction on the fuel. -/
theorem finds_go
    : Finds (connections.Leads selector)
        (fun next => getConnectedNodes.go connections selector fuel next none checkedNodes)
        nodeName := by
  refine finds_of_prefixClosed acyclic above enough ?_
  induction fuel generalizing nodeName checkedNodes with
  | zero => exact .nil
  | succ fuel ih =>
      have unchecked : nodeName ∉ checkedNodes := above nodeName [] (.nil _)
      rw [go_eq_gather (show (none : Option Nat) ≠ some 0 by simp) unchecked]
      refine prefixClosed_gather fun next member => ?_
      have leads := mem_targets_iff.mp (List.mem_filter.mp member).1
      have fewer := unchecked_lt leads.mem_keys unchecked
      have aboveNext := above.step acyclic leads
      exact finds_of_prefixClosed (acyclic.step leads) aboveNext (by omega)
        (ih (acyclic.step leads) aboveNext (by omega))

end

/-- The names are in order exactly if no connection of the node leads to where an earlier one
leads, and a third one to a node above that.
-/
theorem getConnectedNodes_inTopologicalOrder_iff {nodeName : String}
    (acyclic : connections.AcyclicBelow selector nodeName)
    : InTopologicalOrder (connections.Leads selector)
          (getConnectedNodes connections nodeName selector none)
      ↔ ∀ first second third,
          [first, second, third].Sublist (connections.targets selector nodeName)
          → (∃ places, Walk (connections.Leads selector) first places second)
          → ¬ ∃ places, places ≠ [] ∧ Walk (connections.Leads selector) third places second := by
  have aboveAll : Above connections selector [] nodeName := fun _ _ _ => List.not_mem_nil
  have others
      : (connections.targets selector nodeName).filter (fun next => next ≠ nodeName)
        = connections.targets selector nodeName := by
    rw [List.filter_eq_self]
    rintro next member
    have loops := acyclic nodeName [] [next] (.nil _)
    have leads := mem_targets_iff.mp member
    by_contra same
    obtain rfl : next = nodeName := by simpa using same
    have := loops (.single leads)
    contradiction
  have enough
      : (connections.unchecked [nodeName]).length ≤ connections.entries.length := by
    refine (List.length_filter_le _ _).trans ?_
    simp [Dict.keys]
  have below {next found : String} (leads : connections.Leads selector nodeName next)
      : found ∈ getConnectedNodes.go connections selector connections.entries.length next none
            [nodeName]
        ↔ ∃ places, places ≠ [] ∧ Walk (connections.Leads selector) next places found :=
    mem_go_below (acyclic.step leads) (aboveAll.step acyclic leads) enough
  rw [InTopologicalOrder, getConnectedNodes_eq_gather (by simp), others, pairwise_gather_iff ?finds]
  case finds =>
    intro next member
    have leads := mem_targets_iff.mp member
    exact finds_go (acyclic.step leads) (aboveAll.step acyclic leads) enough
  refine forall_congr' fun first => forall_congr' fun second => forall_congr' fun third =>
    forall_congr' fun triple => ?_
  have leadsTo (next : String) (member : next ∈ [first, second, third])
      : connections.Leads selector nodeName next :=
    mem_targets_iff.mp (triple.subset member)
  rw [Option.map_none, below (leadsTo first (by simp)), below (leadsTo third (by simp))]
  refine imp_congr ⟨?_, ?_⟩ .rfl
  · rintro (rfl | ⟨places, -, walk⟩)
    · exact ⟨[], .nil _⟩
    · exact ⟨places, walk⟩
  · rintro ⟨places, walk⟩
    cases walk with
    | nil _ => exact .inl rfl
    | cons step further => exact .inr ⟨_, by simp, .cons step further⟩

theorem acyclicBelow_of_rank (rank : String → Nat)
    (falls
      : ∀ source ∈ connections.keys, ∀ next ∈ connections.targets selector source,
          rank next < rank source)
    (nodeName : String)
    : connections.AcyclicBelow selector nodeName := by
  have falling {first last : String} {places : List String}
      (walk : Walk (connections.Leads selector) first places last)
      : rank last + places.length ≤ rank first := by
    induction walk with
    | nil _ => exact Nat.le_refl _
    | cons leads _ ih =>
        have less := falls _ leads.mem_keys _ (mem_targets_iff.mpr leads)
        rw [List.length_cons]
        omega
  intro place places loop _ walk
  have level := falling walk
  exact List.length_eq_zero_iff.mp (by omega)

instance (nodeName other : String) : Decidable (connections.Leads selector nodeName other) :=
  decidable_of_iff _ mem_targets_iff

instance (names : List String)
    : Decidable (InTopologicalOrder (connections.Leads selector) names) :=
  inferInstanceAs (Decidable (names.Pairwise _))

def reachedThrice : IConnections :=
  ((Dict.empty.set "Start" (mainTo ["A", "V", "U"])).set "A" (mainTo ["V"])).set "U" (mainTo ["V"])

theorem acyclicBelow_reachedThrice : reachedThrice.AcyclicBelow (.single .main) "Start" :=
  acyclicBelow_of_rank
    (fun name => if name = "Start" then 2 else if name = "V" then 0 else 1) (by decide) "Start"

theorem getConnectedNodes_inTopologicalOrder_iff_reachedThrice
    : InTopologicalOrder (reachedThrice.Leads (.single .main))
          (getConnectedNodes reachedThrice "Start" (.single .main) none)
      ↔ ∀ first second third,
          [first, second, third].Sublist (reachedThrice.targets (.single .main) "Start")
          → (∃ places, Walk (reachedThrice.Leads (.single .main)) first places second)
          → ¬ ∃ places,
              places ≠ [] ∧ Walk (reachedThrice.Leads (.single .main)) third places second :=
  getConnectedNodes_inTopologicalOrder_iff acyclicBelow_reachedThrice

/-- `V` is listed for `A` and by itself, and only one of its places is taken back for `U`. -/
theorem not_inTopologicalOrder_reachedThrice
    : reachedThrice.AcyclicBelow (.single .main) "Start"
      ∧ ¬ InTopologicalOrder (reachedThrice.Leads (.single .main))
          (getConnectedNodes reachedThrice "Start" (.single .main) none) :=
  ⟨acyclicBelow_reachedThrice, by decide⟩

end N8n
