import N8n.Library.Intervals
import N8n.Library.Selection
import N8n.PartialExecution.RecreatedStack

/-! The groups of `getSourceDataGroups` partition the incoming connections of a node. Two of
them could be merged exactly if the number of connections into the inputs, in the order of the
inputs, does not rise to a peak and fall behind it.
-/

namespace N8n.PartialExecution

open Library

def atIndex (inputIndex : Int) (connection : GraphConnection) : Bool :=
  decide ((connection.inputIndex : Int) = inputIndex)

/-- The loop returns these groups: its turns, with no bound on their number. -/
inductive LoopReturns
    : List GraphConnection → List GraphConnection → SourceConnectionGroup → Int
      → List SourceConnectionGroup → Prop
  | done {currentGroup : SourceConnectionGroup} {currentInputIndex : Int}
      : LoopReturns [] [] currentGroup currentInputIndex [currentGroup]
  | takeWithData {withData withoutData : List GraphConnection}
      {currentGroup : SourceConnectionGroup} {currentInputIndex : Int}
      {connection : GraphConnection} {groups : List SourceConnectionGroup}
      (found : withData.find? (atIndex (currentInputIndex + 1)) = some connection)
      (rest : LoopReturns (withData.eraseP (atIndex (currentInputIndex + 1))) withoutData
        { currentGroup with connections := currentGroup.connections ++ [connection] }
        (currentInputIndex + 1) groups)
      : LoopReturns withData withoutData currentGroup currentInputIndex groups
  | takeWithoutData {withData withoutData : List GraphConnection}
      {currentGroup : SourceConnectionGroup} {currentInputIndex : Int}
      {connection : GraphConnection} {groups : List SourceConnectionGroup}
      (noData : withData.find? (atIndex (currentInputIndex + 1)) = none)
      (found : withoutData.find? (atIndex (currentInputIndex + 1)) = some connection)
      (rest : LoopReturns withData (withoutData.eraseP (atIndex (currentInputIndex + 1)))
        ⟨false, currentGroup.connections ++ [connection]⟩ (currentInputIndex + 1) groups)
      : LoopReturns withData withoutData currentGroup currentInputIndex groups
  | close {withData withoutData : List GraphConnection}
      {currentGroup : SourceConnectionGroup} {currentInputIndex : Int}
      {groups : List SourceConnectionGroup}
      (present : withData ++ withoutData ≠ [])
      (noData : withData.find? (atIndex (currentInputIndex + 1)) = none)
      (none : withoutData.find? (atIndex (currentInputIndex + 1)) = none)
      (rest : LoopReturns withData withoutData newGroup
        (beforeLowest (withData ++ withoutData)) groups)
      : LoopReturns withData withoutData currentGroup currentInputIndex
          (currentGroup :: groups)

variable {currentGroup : SourceConnectionGroup} {currentInputIndex : Int}

/-- The bound on the turns is never reached, by induction on it. -/
theorem groupConnections_returns {fuel : Nat} {withData withoutData : List GraphConnection}
    (grouping : Grouping fuel withData withoutData currentGroup currentInputIndex)
    : LoopReturns withData withoutData currentGroup currentInputIndex
        (groupConnections fuel withData withoutData currentGroup currentInputIndex) := by
  induction fuel generalizing withData withoutData currentGroup currentInputIndex with
  | zero =>
      rcases grouping with ⟨_, present, _, enough⟩ | ⟨_, _, _, _, enough⟩
      · have lengths := List.length_pos_of_ne_nil present
        rw [List.length_append] at lengths
        omega
      · omega
  | succ fuel ih =>
      rw [groupConnections]
      split
      case isTrue done =>
        obtain ⟨rfl, rfl⟩ : withData = [] ∧ withoutData = [] := by simpa using done
        exact .done
      case isFalse more =>
        simp only
        split
        case h_1 connection found =>
          have taken : withData.find? (atIndex (currentInputIndex + 1)) = some connection := found
          obtain ⟨isAt, fewer⟩ := length_eraseP_of_find? taken
          refine .takeWithData taken
            (ih (grouping.take currentGroup.complete (of_decide_eq_true isAt) ?_))
          omega
        case h_2 noData =>
          split
          case h_1 connection found =>
            have taken : withoutData.find? (atIndex (currentInputIndex + 1)) = some connection :=
              found
            obtain ⟨isAt, fewer⟩ := length_eraseP_of_find? taken
            refine .takeWithoutData noData taken
              (ih (grouping.take false (of_decide_eq_true isAt) ?_))
            omega
          case h_2 none =>
            have present : withData ++ withoutData ≠ [] := by simpa using more
            refine .close present noData none (ih ?_)
            rcases grouping with ⟨_, _, isLowest, _⟩ | ⟨_, _, _, _, enough⟩
            · obtain ⟨connection, member, lowest⟩ := exists_at_lowest present
              rw [← isLowest] at lowest
              rw [List.find?_eq_none] at noData none
              rcases List.mem_append.mp member with inData | inWithout
              · exact absurd (noData connection inData) (by simp [lowest])
              · exact absurd (none connection inWithout) (by simp [lowest])
            · exact .inl ⟨rfl, present, rfl, by omega⟩

variable {groups : List SourceConnectionGroup}

theorem LoopReturns.perm {withData withoutData : List GraphConnection}
    (returns : LoopReturns withData withoutData currentGroup currentInputIndex groups)
    : (groups.flatMap SourceConnectionGroup.connections).Perm
        (currentGroup.connections ++ (withData ++ withoutData)) := by
  induction returns with
  | done => simp
  | @takeWithData withData withoutData currentGroup _ connection _ found _ ih =>
      refine ih.trans ?_
      rw [List.append_assoc, List.singleton_append]
      exact ((perm_cons_eraseP found).append_right withoutData).append_left _
  | @takeWithoutData withData withoutData currentGroup _ connection _ _ found _ ih =>
      refine ih.trans ?_
      rw [List.append_assoc, List.singleton_append]
      refine (List.perm_middle.symm.trans ?_).append_left _
      exact (perm_cons_eraseP found).append_left withData
  | @close withData withoutData currentGroup _ groups _ _ _ _ ih =>
      rw [List.flatMap_cons]
      exact ih.append_left _

/-- The mark of a group tells whether all its connections have data. -/
def Marked (sourceHasData : GraphConnection → Bool) (group : SourceConnectionGroup) : Prop :=
  group.complete = true ↔ ∀ connection ∈ group.connections, sourceHasData connection = true

theorem LoopReturns.marked {sourceHasData : GraphConnection → Bool}
    {withData withoutData : List GraphConnection} {currentGroup : SourceConnectionGroup}
    {currentInputIndex : Int} {groups : List SourceConnectionGroup}
    (returns : LoopReturns withData withoutData currentGroup currentInputIndex groups)
    (allData : ∀ connection ∈ withData, sourceHasData connection = true)
    (noneData : ∀ connection ∈ withoutData, sourceHasData connection = false)
    (marked : Marked sourceHasData currentGroup)
    : ∀ group ∈ groups, Marked sourceHasData group := by
  induction returns with
  | done => simpa using marked
  | takeWithData found _ ih =>
      refine ih (fun other member => allData other (List.mem_of_mem_eraseP member)) noneData ?_
      have has := allData _ (List.mem_of_find?_eq_some found)
      rw [Marked] at marked ⊢
      simp [marked, has, or_imp, forall_and]
  | takeWithoutData _ found _ ih =>
      refine ih allData (fun other member => noneData other (List.mem_of_mem_eraseP member)) ?_
      have hasNot := noneData _ (List.mem_of_find?_eq_some found)
      simp only [Marked, Bool.false_eq_true, false_iff]
      intro all
      rw [all _ (by simp)] at hasNot
      contradiction
  | close _ _ _ _ ih =>
      intro group member
      rcases List.mem_cons.mp member with rfl | later
      · exact marked
      · exact ih allData noneData (by simp [Marked, newGroup]) group later

/-- The inputs that the connections of the group enter. -/
def span (group : SourceConnectionGroup) : Interval :=
  match group.connections with
  | [] => ⟨0, 0, Nat.le_refl 0⟩
  | connection :: rest =>
      ⟨connection.inputIndex, connection.inputIndex + rest.length, Nat.le_add_right _ _⟩

/-- The group holds connections into consecutive inputs. -/
def HoldsInputs (group : SourceConnectionGroup) : Prop :=
  group.connections ≠ [] ∧ ∃ first, Consecutive first group.connections

variable {group : SourceConnectionGroup} {first : Nat}

theorem span_bounds (notEmpty : group.connections ≠ [])
    (consecutive : Consecutive first group.connections)
    : (span group).first = first
      ∧ (span group).last + 1 = first + group.connections.length := by
  unfold span
  split
  case h_1 none => exact absurd none notEmpty
  case h_2 connection rest shape =>
    have head : connection.inputIndex = first + 0 :=
      consecutive.inputIndex_eq (by rw [shape]; rfl)
    rw [shape, List.length_cons]
    simp only
    omega

theorem span_contains_iff {point : Nat} (holds : HoldsInputs group)
    : (span group).Contains point
      ↔ point ∈ group.connections.map GraphConnection.inputIndex := by
  obtain ⟨notEmpty, first, consecutive⟩ := holds
  obtain ⟨isFirst, isLast⟩ := span_bounds notEmpty consecutive
  rw [consecutive, List.mem_range'_1]
  constructor
  · rintro ⟨above, below⟩
    omega
  · exact fun inside => ⟨by omega, by omega⟩

/-- How many of the connections enter the input. -/
def connectionsInto (connections : List GraphConnection) (input : Nat) : Nat :=
  (connections.map GraphConnection.inputIndex).count input

theorem HoldsInputs.nodup (holds : HoldsInputs group)
    : (group.connections.map GraphConnection.inputIndex).Nodup := by
  obtain ⟨_, first, consecutive⟩ := holds
  rw [consecutive]
  exact List.nodup_range'

theorem HoldsInputs.meets_iff {other : SourceConnectionGroup} (holds : HoldsInputs group)
    (otherHolds : HoldsInputs other)
    : (span group).Meets (span other)
      ↔ ∃ connection ∈ group.connections, ∃ otherConnection ∈ other.connections,
          connection.inputIndex = otherConnection.inputIndex := by
  constructor
  · rintro ⟨point, inGroup, inOther⟩
    obtain ⟨connection, member, isAt⟩ := List.mem_map.mp ((span_contains_iff holds).mp inGroup)
    obtain ⟨otherConnection, otherMember, otherAt⟩ :=
      List.mem_map.mp ((span_contains_iff otherHolds).mp inOther)
    exact ⟨connection, member, otherConnection, otherMember, isAt.trans otherAt.symm⟩
  · rintro ⟨connection, member, otherConnection, otherMember, same⟩
    refine ⟨connection.inputIndex, ?_, ?_⟩
    · exact (span_contains_iff holds).mpr (List.mem_map_of_mem member)
    · rw [same]
      exact (span_contains_iff otherHolds).mpr (List.mem_map_of_mem otherMember)

/-- The connections into an input are as many as the groups that reach over it. -/
theorem connectionsInto_flatMap (hold : ∀ group ∈ groups, HoldsInputs group) (input : Nat)
    : connectionsInto (groups.flatMap SourceConnectionGroup.connections) input
      = Interval.depth (groups.map span) input := by
  induction groups with
  | nil => rfl
  | cons group rest ih =>
      obtain ⟨holds, holdRest⟩ := List.forall_mem_cons.mp hold
      have later := ih holdRest
      have here : (group.connections.map GraphConnection.inputIndex).count input
          = if (span group).Contains input then 1 else 0 := by
        rw [holds.nodup.count]
        exact if_congr (span_contains_iff holds).symm rfl rfl
      simp only [connectionsInto, Interval.depth] at later ⊢
      rw [List.flatMap_cons, List.map_append, List.count_append, later, here, List.map_cons,
        List.countP_cons]
      simp only [decide_eq_true_eq]
      omega

/-- The open group starts at the lowest of the inputs that connections remain for. -/
structure Opened (first : Nat) (currentGroup : SourceConnectionGroup)
    (currentInputIndex : Int) (remaining : List GraphConnection) : Prop where
  consecutive : Consecutive first currentGroup.connections
  index : currentInputIndex + 1 = first + currentGroup.connections.length
  least : ∀ connection ∈ remaining, first ≤ connection.inputIndex
  begins : currentGroup.connections = []
    → ∃ connection ∈ remaining, connection.inputIndex = first

variable {remaining : List GraphConnection}

theorem Opened.take {less : List GraphConnection}
    (opened : Opened first currentGroup currentInputIndex remaining) {connection : GraphConnection}
    (complete : Bool) (isAt : atIndex (currentInputIndex + 1) connection = true)
    (taken : remaining.Perm (connection :: less))
    : Opened first ⟨complete, currentGroup.connections ++ [connection]⟩
        (currentInputIndex + 1) less where
  consecutive := by
    have next : (connection.inputIndex : Int) = currentInputIndex + 1 := of_decide_eq_true isAt
    have index := opened.index
    exact opened.consecutive.append (by omega)
  index := by
    rw [List.length_append, List.length_singleton, opened.index]
    omega
  least other member :=
    opened.least other (taken.mem_iff.mpr (.tail _ member))
  begins none := by simp at none

/-- The index in front of the lowest one is below all of them. -/
theorem beforeLowest_lt {connections : List GraphConnection}
    : ∀ connection ∈ connections, beforeLowest connections < connection.inputIndex := by
  cases connections with
  | nil => simp
  | cons head rest =>
      have below (lowest : Int)
          : rest.foldl (fun lowest other => min lowest other.inputIndex) lowest ≤ lowest
            ∧ ∀ connection ∈ rest,
                rest.foldl (fun lowest other => min lowest (other.inputIndex : Int)) lowest
                  ≤ connection.inputIndex := by
        induction rest generalizing lowest with
        | nil => simp
        | cons next rest ih =>
            obtain ⟨start, others⟩ := ih (min lowest next.inputIndex)
            rw [List.foldl_cons]
            refine ⟨by omega, fun connection member => ?_⟩
            rcases List.mem_cons.mp member with rfl | later
            · omega
            · exact others connection later
      obtain ⟨start, others⟩ := below head.inputIndex
      intro connection member
      rw [beforeLowest]
      rcases List.mem_cons.mp member with rfl | later
      · omega
      · have := others connection later
        omega

theorem opened_newGroup (present : remaining ≠ [])
    : ∃ first, Opened first newGroup (beforeLowest remaining) remaining := by
  obtain ⟨lowest, member, isLowest⟩ := exists_at_lowest present
  refine ⟨lowest.inputIndex, rfl, ?_, ?_, fun _ => ⟨lowest, member, rfl⟩⟩
  · rw [← isLowest]
    simp [newGroup]
  · intro connection inRemaining
    have := beforeLowest_lt connection inRemaining
    omega

/-- When no connection remains for the next input, the open group has some. -/
theorem Opened.holdsInputs (opened : Opened first currentGroup currentInputIndex remaining)
    (none : ∀ connection ∈ remaining, ¬atIndex (currentInputIndex + 1) connection = true)
    : HoldsInputs currentGroup := by
  refine ⟨fun isEmpty => ?_, first, opened.consecutive⟩
  obtain ⟨connection, member, isFirst⟩ := opened.begins isEmpty
  have index := opened.index
  rw [isEmpty, List.length_nil] at index
  exact none connection member (decide_eq_true (by omega))

theorem LoopReturns.grown {withData withoutData : List GraphConnection}
    {currentGroup : SourceConnectionGroup} {currentInputIndex : Int}
    {groups : List SourceConnectionGroup}
    (returns : LoopReturns withData withoutData currentGroup currentInputIndex groups)
    {first : Nat}
    (opened : Opened first currentGroup currentInputIndex (withData ++ withoutData))
    : (∀ group ∈ groups, HoldsInputs group)
      ∧ groups.Pairwise (fun earlier later => (span earlier).GrownBefore (span later)) := by
  induction returns generalizing first with
  | done => simpa using opened.holdsInputs (by simp)
  | takeWithData found _ ih =>
      refine ih (opened.take _ (List.find?_some found) ?_)
      exact (perm_cons_eraseP found).symm.append_right _
  | takeWithoutData _ found _ ih =>
      refine ih (opened.take _ (List.find?_some found) ?_)
      exact ((perm_cons_eraseP found).symm.append_left _).trans List.perm_middle
  | @close withData withoutData currentGroup currentInputIndex groups present noData none rest
      ih =>
      obtain ⟨_, reopened⟩ := opened_newGroup present
      obtain ⟨hold, grown⟩ := ih reopened
      have nothing
          : ∀ connection ∈ withData ++ withoutData,
              ¬atIndex (currentInputIndex + 1) connection = true := by
        intro connection member
        rcases List.mem_append.mp member with inData | inWithout
        · exact List.find?_eq_none.mp noData connection inData
        · exact List.find?_eq_none.mp none connection inWithout
      have holds := opened.holdsInputs nothing
      refine ⟨List.forall_mem_cons.mpr ⟨holds, hold⟩,
        List.pairwise_cons.mpr ⟨fun later member => ?_, grown⟩⟩
      -- a later group is made of connections that remained
      have remained {input : Nat} (inside : (span later).Contains input)
          : ∃ connection ∈ withData ++ withoutData, connection.inputIndex = input := by
        obtain ⟨connection, inLater, isAt⟩ :=
          List.mem_map.mp ((span_contains_iff (hold later member)).mp inside)
        have grouped := List.mem_flatMap.mpr ⟨later, member, inLater⟩
        exact ⟨connection, rest.perm.mem_iff.mp grouped, isAt⟩
      obtain ⟨isFirst, isLast⟩ := span_bounds holds.1 opened.consecutive
      constructor
      · obtain ⟨connection, inRemaining, isAt⟩ := remained (span later).first_mem
        rw [isFirst, ← isAt]
        exact opened.least connection inRemaining
      · intro inside
        obtain ⟨connection, inRemaining, isAt⟩ := remained inside
        have index := opened.index
        exact nothing connection inRemaining (decide_eq_true (by omega))

section Partition

variable {Item : Type} (localeCompare : String → String → Int) (graph : DirectedGraph)
  (node : INode) (runData : IRunData Item) (pinnedData : IPinData Item)

/-- The source of the connection has run or pinned data. -/
def sourceHasData (connection : GraphConnection) : Bool :=
  (runData.get? connection.fromNode.name).isSome
    || (pinnedData.get? connection.fromNode.name).isSome

def connectionsWithData : List GraphConnection :=
  (graph.getConnections (some node)).filter (sourceHasData runData pinnedData)

def connectionsWithoutData : List GraphConnection :=
  (graph.getConnections (some node)).filter (fun connection =>
    !sourceHasData runData pinnedData connection && connection.type = .main)

/-- The incoming connections that carry data, and the main ones that do not. -/
def incoming : List GraphConnection :=
  (graph.getConnections (some node)).filter (fun connection =>
    sourceHasData runData pinnedData connection || connection.type = .main)

/-- `getSourceDataGroups` comes to its end, with these groups. -/
def Returns (groups : List SourceConnectionGroup) : Prop :=
  let withData := sortConnections localeCompare
    (connectionsWithData graph node runData pinnedData)
  let withoutData := sortConnections localeCompare
    (connectionsWithoutData graph node runData pinnedData)
  (incoming graph node runData pinnedData = [] ∧ groups = [])
  ∨ (incoming graph node runData pinnedData ≠ []
    ∧ LoopReturns withData withoutData newGroup (beforeLowest (withData ++ withoutData)) groups)

/-- The groups partition the incoming connections, and no two of them could be one. -/
structure PartitionsInputs : Prop where
  ends : Returns localeCompare graph node runData pinnedData
    (getSourceDataGroups localeCompare graph node runData pinnedData)
  covers :
    ((getSourceDataGroups localeCompare graph node runData pinnedData).flatMap
      SourceConnectionGroup.connections).Perm (incoming graph node runData pinnedData)
  onePerInput :
    ∀ group ∈ getSourceDataGroups localeCompare graph node runData pinnedData,
      (group.connections.map GraphConnection.inputIndex).Nodup
  marked :
    ∀ group ∈ getSourceDataGroups localeCompare graph node runData pinnedData,
      Marked (sourceHasData runData pinnedData) group
  unmergeable :
    (getSourceDataGroups localeCompare graph node runData pinnedData).Pairwise
      (fun group other =>
        ∃ connection ∈ group.connections, ∃ otherConnection ∈ other.connections,
          connection.inputIndex = otherConnection.inputIndex)

variable {localeCompare graph node runData pinnedData}

theorem sortConnections_perm (connections : List GraphConnection)
    : (sortConnections localeCompare connections).Perm connections :=
  List.perm_insertionSort _ _

/-- The two working lists hold the incoming connections. -/
theorem sorted_perm_incoming
    : (sortConnections localeCompare (connectionsWithData graph node runData pinnedData)
        ++ sortConnections localeCompare
          (connectionsWithoutData graph node runData pinnedData)).Perm
        (incoming graph node runData pinnedData) := by
  refine ((sortConnections_perm _).append (sortConnections_perm _)).trans ?_
  unfold connectionsWithData connectionsWithoutData incoming
  induction graph.getConnections (some node) with
  | nil => exact .nil
  | cons connection rest ih =>
      by_cases data : sourceHasData runData pinnedData connection
      · simpa [data] using ih
      · by_cases isMain : connection.type = .main
        · simpa [data, isMain] using List.perm_middle.trans (ih.cons connection)
        · simpa [data, isMain] using ih

theorem getSourceDataGroups_eq
    : getSourceDataGroups localeCompare graph node runData pinnedData
      = if (connectionsWithData graph node runData pinnedData).isEmpty
          && (connectionsWithoutData graph node runData pinnedData).isEmpty then []
        else
          groupConnections
            (2 * ((connectionsWithData graph node runData pinnedData).length
              + (connectionsWithoutData graph node runData pinnedData).length) + 1)
            (sortConnections localeCompare (connectionsWithData graph node runData pinnedData))
            (sortConnections localeCompare
              (connectionsWithoutData graph node runData pinnedData))
            newGroup
            (beforeLowest
              (sortConnections localeCompare
                  (connectionsWithData graph node runData pinnedData)
                ++ sortConnections localeCompare
                  (connectionsWithoutData graph node runData pinnedData))) :=
  rfl

theorem getSourceDataGroups_returns
    : Returns localeCompare graph node runData pinnedData
        (getSourceDataGroups localeCompare graph node runData pinnedData) := by
  have sorted : (sortConnections localeCompare (connectionsWithData graph node runData pinnedData)
      ++ sortConnections localeCompare
        (connectionsWithoutData graph node runData pinnedData)).Perm
      (incoming graph node runData pinnedData) :=
    sorted_perm_incoming
  have lengths (connections : List GraphConnection)
      : (sortConnections localeCompare connections).length = connections.length :=
    (sortConnections_perm connections).length_eq
  have total := sorted.length_eq
  rw [List.length_append, lengths, lengths] at total
  rw [getSourceDataGroups_eq]
  split
  case isTrue isEmpty =>
    rw [Bool.and_eq_true, List.isEmpty_iff, List.isEmpty_iff] at isEmpty
    rw [isEmpty.1, isEmpty.2] at total
    exact .inl ⟨List.eq_nil_of_length_eq_zero total.symm, rfl⟩
  case isFalse present =>
    rw [Bool.and_eq_true, List.isEmpty_iff, List.isEmpty_iff] at present
    have nonempty : incoming graph node runData pinnedData ≠ [] := by
      intro none
      rw [none, List.length_nil, Nat.add_eq_zero_iff, List.length_eq_zero_iff,
        List.length_eq_zero_iff] at total
      exact present total
    refine .inr ⟨nonempty, groupConnections_returns (.inl ⟨rfl, ?_, rfl, ?_⟩)⟩
    · intro none
      rw [none] at sorted
      exact nonempty sorted.nil_eq.symm
    · rw [lengths, lengths]
      omega

section

variable (returns : Returns localeCompare graph node runData pinnedData groups)

include returns

theorem Returns.covers
    : (groups.flatMap SourceConnectionGroup.connections).Perm
        (incoming graph node runData pinnedData) := by
  rcases returns with ⟨none, rfl⟩ | ⟨_, loop⟩
  · rw [none]
    exact .nil
  · exact loop.perm.trans sorted_perm_incoming

theorem Returns.marked
    : ∀ group ∈ groups, Marked (sourceHasData runData pinnedData) group := by
  rcases returns with ⟨_, rfl⟩ | ⟨_, loop⟩
  · simp
  · refine loop.marked ?_ ?_ (by simp [Marked, newGroup])
    · intro connection member
      exact (List.mem_filter.mp ((sortConnections_perm _).mem_iff.mp member)).2
    · intro connection member
      have kept := (List.mem_filter.mp ((sortConnections_perm _).mem_iff.mp member)).2
      simpa using (Bool.and_eq_true_iff.mp kept).1

theorem Returns.grown
    : (∀ group ∈ groups, HoldsInputs group)
      ∧ groups.Pairwise (fun earlier later => (span earlier).GrownBefore (span later)) := by
  rcases returns with ⟨_, rfl⟩ | ⟨present, loop⟩
  · simp
  · have remaining : sortConnections localeCompare
          (connectionsWithData graph node runData pinnedData)
        ++ sortConnections localeCompare
          (connectionsWithoutData graph node runData pinnedData) ≠ [] := by
      intro none
      have sorted := sorted_perm_incoming.symm.length_eq.trans (congrArg List.length none)
      exact present (List.eq_nil_of_length_eq_zero sorted)
    obtain ⟨first, opened⟩ := opened_newGroup remaining
    exact loop.grown opened

/-- The groups meet pairwise exactly if the connections into the inputs rise to a peak and fall
behind it.
-/
theorem Returns.unmergeable_iff
    : groups.Pairwise (fun group other =>
        ∃ connection ∈ group.connections, ∃ otherConnection ∈ other.connections,
          connection.inputIndex = otherConnection.inputIndex)
      ↔ Unimodal (connectionsInto (incoming graph node runData pinnedData)) := by
  obtain ⟨hold, grown⟩ := returns.grown
  have counted : connectionsInto (incoming graph node runData pinnedData)
      = Interval.depth (groups.map span) := by
    funext input
    rw [← connectionsInto_flatMap hold]
    exact ((returns.covers.map GraphConnection.inputIndex).count_eq input).symm
  rw [counted, ← pairwise_meets_iff (List.pairwise_map.mpr grown), List.pairwise_map]
  constructor <;>
    refine fun pairs => pairs.imp_of_mem fun {group other} member otherMember related => ?_
  · exact ((hold group member).meets_iff (hold other otherMember)).mpr related
  · exact ((hold group member).meets_iff (hold other otherMember)).mp related

end

end Partition

end N8n.PartialExecution
