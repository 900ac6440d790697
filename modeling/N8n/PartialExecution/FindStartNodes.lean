import N8n.Library.Walks
import N8n.PartialExecution.GraphSearches
import N8n.PartialExecution.IncomingData

/-! The nodes that a partial execution starts from
(`packages/core/src/execution-engine/partial-execution-utils/find-start-nodes.ts`).
-/

namespace N8n.PartialExecution

open Library

variable {Item : Type}

/-- The checks of properties, parents and errors are not implemented in the source. -/
def isDirty (node : INode) (runData : IRunData Item) (pinData : IPinData Item) : Bool :=
  if (pinData.get? node.name).isSome then false
  else if (runData.get? node.name).isSome then false
  else true

def isALoop (graph : DirectedGraph) (node : INode) : Except JsError Bool := do
  let children ← graph.getChildren node
  return node ∈ children

/-- `-1` as an index of the runs of a node. -/
def lastRunIndex (runData : IRunData Item) (nodeName : String) : Nat :=
  (runData.get? nodeName).elim 0 List.length - 1

/-- The check of loop nodes: has the last run no data at the output behind the loop? -/
def isUnfinishedLoop (graph : DirectedGraph) (runData : IRunData Item) (current : INode)
    : Except JsError Bool := do
  if current.type = "n8n-nodes-base.splitInBatches" then
    let nodeRunData ← getIncomingData runData current.name (lastRunIndex runData current.name)
      .main (if ← isALoop graph current then 0 else 1)
    return nodeRunData.elim true List.isEmpty
  else return false

/-- The check of outgoing connections: is there run data at the output, or pinned data? -/
def hasData (runData : IRunData Item) (pinData : IPinData Item) (connection : GraphConnection)
    : Except JsError Bool := do
  let nodeRunData ← getIncomingDataFromAnyRun runData connection.fromNode.name connection.type
    connection.outputIndex
  let hasNoRunData := nodeRunData.elim true (fun found => found.data.isEmpty)
  let hasNoPinnedData := (pinData.get? connection.fromNode.name).isNone
  return !(hasNoRunData && hasNoPinnedData)

/-- `startNodes.add(node)`. -/
def addStartNode (startNodes : List INode) (node : INode) : List INode :=
  if node ∈ startNodes then startNodes else startNodes ++ [node]

/-- No node is in `seen` twice, so `fuel` need not exceed the number of nodes. -/
def findStartNodesRecursive (graph : DirectedGraph) (destination : INode)
    (runData : IRunData Item) (pinData : IPinData Item)
    : Nat → INode → List INode → List INode → Except JsError (List INode)
  | 0, _, startNodes, _ => .ok startNodes
  | fuel + 1, current, startNodes, seen => do
      if isDirty current runData pinData then return addStartNode startNodes current
      else if current = destination then return addStartNode startNodes current
      else if ← isUnfinishedLoop graph runData current then
        return addStartNode startNodes current
      else if current ∈ seen then return startNodes
      else
        let outGoingConnections ← graph.getDirectChildConnections current
        outGoingConnections.foldlM
          (fun startNodes outGoingConnection => do
            if ← hasData runData pinData outGoingConnection then
              findStartNodesRecursive graph destination runData pinData fuel
                outGoingConnection.toNode startNodes (seen ++ [current])
            else return startNodes)
          startNodes

def findStartNodes (graph : DirectedGraph) (trigger destination : INode)
    (pinData : IPinData Item) (runData : IRunData Item)
    : Except JsError (List INode) :=
  findStartNodesRecursive graph destination runData pinData (graph.nodes.values.length + 1)
    trigger [] []

/-! ### The checks -/

variable {runData : IRunData Item} {pinData : IPinData Item}

/-- Data arrives along the connection: there is pinned data or a run with items. -/
def CarriesData (runData : IRunData Item) (pinData : IPinData Item)
    (connection : GraphConnection)
    : Prop :=
  (pinData.get? connection.fromNode.name).isSome
  ∨ ∃ run ∈ runsOf runData connection.fromNode.name,
      HasItems run connection.type connection.outputIndex

theorem lacksType_of_hasData {error : JsError} {connection : GraphConnection}
    (thrown : hasData runData pinData connection = .error error)
    : error = .typeError
      ∧ ∃ run ∈ runsOf runData connection.fromNode.name, LacksType run connection.type := by
  unfold hasData getIncomingDataFromAnyRun at thrown
  cases found : findIncomingData runData connection.fromNode.name connection.type
      connection.outputIndex
      (List.range ((runData.get? connection.fromNode.name).elim 0 List.length)) with
  | error error' =>
      rw [found] at thrown
      obtain rfl := Except.error.inj thrown
      exact lacksType_of_findIncomingData found
  | ok result =>
      rw [found] at thrown
      contradiction

theorem carriesData_iff {connection : GraphConnection} {carries : Bool}
    (checked : hasData runData pinData connection = .ok carries)
    : carries = true ↔ CarriesData runData pinData connection := by
  obtain ⟨result, found, same⟩ := Exec.ok_of_bind checked
  cases same
  have all : (runData.get? connection.fromNode.name).elim 0 List.length
      = (runsOf runData connection.fromNode.name).length := by
    unfold runsOf
    cases runData.get? connection.fromNode.name <;> rfl
  unfold getIncomingDataFromAnyRun at found
  rw [all] at found
  have inRuns : (∃ incoming, result = some incoming ∧ incoming.data ≠ [])
      ↔ ∃ run ∈ runsOf runData connection.fromNode.name,
          HasItems run connection.type connection.outputIndex := by
    rw [hasItems_iff_of_findIncomingData found]
    constructor
    · rintro ⟨index, _, run, here, items⟩
      exact ⟨run, List.mem_of_getElem? here, items⟩
    · rintro ⟨run, member, items⟩
      obtain ⟨index, inside, same⟩ := List.getElem_of_mem member
      have here : (runsOf runData connection.fromNode.name)[index]? = some run := by
        rw [List.getElem?_eq_getElem inside, same]
      exact ⟨index, List.mem_range.mpr inside, run, here, items⟩
  unfold CarriesData
  rw [← inRuns]
  cases pinData.get? connection.fromNode.name <;> cases result <;> simp

/-! ### Where the search stops -/

section Search

variable (graph : DirectedGraph) (destination : INode) (runData : IRunData Item)
variable (pinData : IPinData Item)

/-- The output of a loop node that tells whether it is done: the first one if the node lies on
a loop, else the second one.
-/
def IsDoneOutput (node : INode) (outputIndex : Nat) : Prop :=
  outputIndex = 0 ∧ Relation.TransGen graph.Connected node node
  ∨ outputIndex = 1 ∧ ¬ Relation.TransGen graph.Connected node node

/-- The last run of a loop node has no items at that output. -/
def IsUnfinishedLoop (node : INode) : Prop :=
  node.type = "n8n-nodes-base.splitInBatches"
  ∧ ∃ outputIndex, IsDoneOutput graph node outputIndex
    ∧ ¬ ∃ run, (runsOf runData node.name).getLast? = some run ∧ HasItems run .main outputIndex

def IsBoundary (node : INode) : Prop :=
  isDirty node runData pinData = true ∨ node = destination
  ∨ IsUnfinishedLoop graph runData node

/-- A connection that carries data leads from the one node to the other. -/
def Flows (source target : INode) : Prop :=
  ∃ connection ∈ graph.connections.values,
    connection.fromNode = source ∧ connection.toNode = target
    ∧ CarriesData runData pinData connection

/-- A run of the node lacks the outputs of a type that the search looks at. -/
def CannotBeRead (node : INode) : Prop :=
  ∃ run ∈ runsOf runData node.name, ∃ type,
    LacksType run type
    ∧ ((∃ connection ∈ graph.connections.values,
          connection.fromNode = node ∧ connection.type = type)
      ∨ node.type = "n8n-nodes-base.splitInBatches" ∧ type = .main)

/-- What the search from a node adds: boundaries that data from the node arrives at, and one
on every path of data to the destination that comes through no node twice and through none
that was seen before.
-/
structure Found (current : INode) (seen startNodes result : List INode) : Prop where
  kept : ∀ node ∈ startNodes, node ∈ result
  sound : ∀ node ∈ result,
    node ∈ startNodes
    ∨ IsBoundary graph destination runData pinData node
      ∧ Relation.ReflTransGen (Flows graph runData pinData) current node
  cuts : ∀ places, Walk (Flows graph runData pinData) current places destination
    → (current :: places).Nodup → (∀ place ∈ current :: places, place ∉ seen)
      → ∃ node ∈ current :: places, node ∈ result

/-- How the search from a node ends. -/
def Ends (current : INode) (seen startNodes : List INode)
    : Except JsError (List INode) → Prop
  | .error error =>
      error = .typeError
      ∧ ∃ node, Relation.ReflTransGen (Flows graph runData pinData) current node
          ∧ CannotBeRead graph runData node
  | .ok result => Found graph destination runData pinData current seen startNodes result

variable {graph destination runData pinData} {current : INode}
  {seen startNodes : List INode}

theorem cannotBeRead_of_isUnfinishedLoop (wellFormed : graph.WellFormed)
    (inside : current ∈ graph.nodes.values) {error : JsError}
    (thrown : isUnfinishedLoop graph runData current = .error error)
    : error = .typeError ∧ CannotBeRead graph runData current := by
  obtain ⟨children, found, _⟩ := wellFormed.getChildren inside
  unfold isUnfinishedLoop isALoop at thrown
  by_cases isLoopNode : current.type = "n8n-nodes-base.splitInBatches"
  · simp only [isLoopNode, if_true, found, bind, Except.bind, pure, Except.pure] at thrown
    split at thrown
    case h_1 error' read =>
      obtain rfl := Except.error.inj thrown
      obtain ⟨same, run, member, lacks⟩ := lacksType_of_getIncomingData read
      exact ⟨same, run, member, .main, lacks, .inr ⟨isLoopNode, rfl⟩⟩
    case h_2 => contradiction
  · rw [if_neg isLoopNode] at thrown
    contradiction

theorem getElem?_lastRunIndex (runData : IRunData Item) (nodeName : String)
    : (runsOf runData nodeName)[lastRunIndex runData nodeName]?
      = (runsOf runData nodeName).getLast? := by
  rw [List.getLast?_eq_getElem?]
  unfold lastRunIndex runsOf
  cases runData.get? nodeName <;> rfl

theorem isUnfinishedLoop_iff (wellFormed : graph.WellFormed)
    (inside : current ∈ graph.nodes.values) {unfinished : Bool}
    (checked : isUnfinishedLoop graph runData current = .ok unfinished)
    : unfinished = true ↔ IsUnfinishedLoop graph runData current := by
  obtain ⟨children, found, mem_children⟩ := wellFormed.getChildren inside
  unfold isUnfinishedLoop isALoop at checked
  by_cases isLoopNode : current.type = "n8n-nodes-base.splitInBatches"
  · rw [if_pos isLoopNode, found] at checked
    obtain ⟨inLoop, asked, checked⟩ := Exec.ok_of_bind checked
    cases asked
    obtain ⟨nodeRunData, read, same⟩ := Exec.ok_of_bind checked
    cases same
    have hasItems := hasItems_iff_of_getIncomingData read
    simp only [getElem?_lastRunIndex] at hasItems
    have isOutput : ∀ outputIndex, IsDoneOutput graph current outputIndex
        ↔ outputIndex = if current ∈ children then 0 else 1 := by
      intro outputIndex
      by_cases inLoop : current ∈ children
      · simp [IsDoneOutput, inLoop, (mem_children current).mp inLoop]
      · simp [IsDoneOutput, inLoop, mt (mem_children current).mpr inLoop]
    simp only [IsUnfinishedLoop, isLoopNode, isOutput, true_and, exists_eq_left]
    simp only [decide_eq_true_eq] at hasItems
    rw [← hasItems]
    cases nodeRunData <;> simp
  · rw [if_neg isLoopNode] at checked
    cases checked
    simp [IsUnfinishedLoop, isLoopNode]

/-! ### The search -/

theorem mem_addStartNode {node : INode}
    : node ∈ addStartNode startNodes current ↔ node ∈ startNodes ∨ node = current := by
  unfold addStartNode
  split
  case isTrue old =>
    constructor
    · exact .inl
    · rintro (member | rfl)
      · exact member
      · exact old
  case isFalse => simp

/-- Where the search stops, it adds the node that it is at. -/
theorem Found.add (boundary : IsBoundary graph destination runData pinData current)
    : Found graph destination runData pinData current seen startNodes
        (addStartNode startNodes current) where
  kept node member := mem_addStartNode.mpr (.inl member)
  sound node member := by
    rcases mem_addStartNode.mp member with old | rfl
    · exact .inl old
    · exact .inr ⟨boundary, .refl⟩
  cuts places _ _ _ := ⟨current, (.head _), mem_addStartNode.mpr (.inr rfl)⟩

/-- A node that was seen before is on no path that avoids those. -/
theorem Found.of_seen (again : current ∈ seen)
    : Found graph destination runData pinData current seen startNodes startNodes where
  kept _ member := member
  sound _ member := .inl member
  cuts _ _ _ apart := absurd again (apart current (.head _))

variable (graph destination runData pinData) in
/-- What the loop over connections out of a node adds, as a path goes on along one of them. -/
structure FoundAlong (connections : List GraphConnection) (current : INode)
    (seen startNodes result : List INode)
    : Prop where
  kept : ∀ node ∈ startNodes, node ∈ result
  sound : ∀ node ∈ result,
    node ∈ startNodes
    ∨ IsBoundary graph destination runData pinData node
      ∧ Relation.ReflTransGen (Flows graph runData pinData) current node
  cuts : ∀ connection ∈ connections, CarriesData runData pinData connection
    → ∀ places, Walk (Flows graph runData pinData) connection.toNode places destination
    → (connection.toNode :: places).Nodup
    → (∀ place ∈ connection.toNode :: places, place ∉ seen ++ [current])
    → ∃ node ∈ connection.toNode :: places, node ∈ result

variable (graph destination runData pinData) in
/-- How the loop over connections out of a node ends. -/
def EndsAlong (connections : List GraphConnection) (current : INode)
    (seen startNodes : List INode)
    : Except JsError (List INode) → Prop
  | .error error =>
      error = .typeError
      ∧ ∃ node, Relation.ReflTransGen (Flows graph runData pinData) current node
          ∧ CannotBeRead graph runData node
  | .ok result =>
      FoundAlong graph destination runData pinData connections current seen startNodes result

/-- The loop, by induction on the connections. -/
theorem EndsAlong.foldlM {step : List INode → GraphConnection → Except JsError (List INode)}
    {connections : List GraphConnection}
    (turn : ∀ connection ∈ connections, ∀ startNodes,
      EndsAlong graph destination runData pinData [connection] current seen startNodes
        (step startNodes connection))
    : EndsAlong graph destination runData pinData connections current seen startNodes
        (connections.foldlM step startNodes) := by
  induction connections generalizing startNodes with
  | nil => exact ⟨fun _ member => member, fun _ member => .inl member, by simp⟩
  | cons connection rest ih =>
      have first := turn connection (.head _) startNodes
      rw [List.foldlM_cons]
      cases taken : step startNodes connection with
      | error error =>
          rw [taken] at first
          exact first
      | ok between =>
          rw [taken] at first
          have later : EndsAlong graph destination runData pinData rest current seen between
              (rest.foldlM step between) :=
            ih (fun other member => turn other (.tail _ member))
          change EndsAlong graph destination runData pinData (connection :: rest) current seen
            startNodes (rest.foldlM step between)
          cases ran : rest.foldlM step between with
          | error error =>
              rw [ran] at later
              exact later
          | ok result =>
              rw [ran] at later
              refine ⟨fun node member => later.kept node (first.kept node member), ?_, ?_⟩
              · intro node member
                rcases later.sound node member with earlier | new
                · exact first.sound node earlier
                · exact .inr new
              · intro other member carries places walk distinct apart
                rcases List.mem_cons.mp member with rfl | inRest
                · obtain ⟨node, onPath, found⟩ :=
                    first.cuts other (by simp) carries places walk distinct apart
                  exact ⟨node, onPath, later.kept node found⟩
                · exact later.cuts other inRest carries places walk distinct apart

/-- Along one connection, the search goes on from its target if it carries data. -/
theorem EndsAlong.of_ends {connection : GraphConnection}
    {recursive : Except JsError (List INode)}
    (here : connection ∈ graph.connections.values) (leaves : connection.fromNode = current)
    (ends : CarriesData runData pinData connection
      → Ends graph destination runData pinData connection.toNode (seen ++ [current]) startNodes
          recursive)
    : EndsAlong graph destination runData pinData [connection] current seen startNodes
        (do
          if ← hasData runData pinData connection then recursive
          else return startNodes) := by
  cases checked : hasData runData pinData connection with
  | error error =>
      obtain ⟨rfl, run, member, lacks⟩ := lacksType_of_hasData checked
      refine ⟨rfl, current, .refl, run, leaves ▸ member, connection.type, lacks, .inl ?_⟩
      exact ⟨connection, here, leaves, rfl⟩
  | ok carries =>
      have carries_iff := carriesData_iff checked
      cases carries with
      | false =>
          refine ⟨fun _ member => member, fun _ member => .inl member, ?_⟩
          intro other member carries
          obtain rfl := List.mem_singleton.mp member
          exact absurd (carries_iff.mpr carries) (by simp)
      | true =>
          have carries := carries_iff.mp rfl
          have onward := ends carries
          have flows : Flows graph runData pinData current connection.toNode :=
            ⟨connection, here, leaves, rfl, carries⟩
          change EndsAlong graph destination runData pinData [connection] current seen
            startNodes recursive
          cases recursive with
          | error error =>
              obtain ⟨same, node, path, unread⟩ := onward
              exact ⟨same, node, path.head flows, unread⟩
          | ok result =>
              refine ⟨onward.kept, ?_, ?_⟩
              · intro node member
                exact (onward.sound node member).imp_right
                  (fun new => ⟨new.1, new.2.head flows⟩)
              · intro other member _ places walk distinct apart
                obtain rfl := List.mem_singleton.mp member
                exact onward.cuts places walk distinct apart

/-- A search that goes on finds what the loop over the connections does. -/
theorem Found.of_along (notDestination : current ≠ destination) {result : List INode}
    (along : FoundAlong graph destination runData pinData
      (graph.connections.values.filter (fun connection => connection.fromNode = current))
      current seen startNodes result)
    : Found graph destination runData pinData current seen startNodes result where
  kept := along.kept
  sound := along.sound
  cuts places walk distinct apart := by
    cases walk with
    | nil => contradiction
    | @cons _ _ _ rest flows walk =>
        obtain ⟨connection, here, leaves, rfl, carries⟩ := flows
        have member : connection ∈ graph.connections.values.filter
            (fun connection => connection.fromNode = current) := by
          simp [here, leaves]
        obtain ⟨fresh, distinct⟩ := List.nodup_cons.mp distinct
        have apartFromHere : ∀ place ∈ connection.toNode :: rest, place ∉ seen ++ [current] := by
          intro place onPath again
          rcases List.mem_append.mp again with old | same
          · exact apart place (.tail _ onPath) old
          · exact fresh (List.mem_singleton.mp same ▸ onPath)
        obtain ⟨node, onPath, found⟩ :=
          along.cuts connection member carries rest walk distinct apartFromHere
        exact ⟨node, List.mem_cons_of_mem _ onPath, found⟩

theorem Ends.of_along (notDestination : current ≠ destination)
    {outcome : Except JsError (List INode)}
    (along : EndsAlong graph destination runData pinData
      (graph.connections.values.filter (fun connection => connection.fromNode = current))
      current seen startNodes outcome)
    : Ends graph destination runData pinData current seen startNodes outcome := by
  cases outcome with
  | error error => exact along
  | ok result => exact Found.of_along notDestination along

/-- The search, by induction on the fuel, which is what `seen` leaves of the nodes. -/
theorem findStartNodesRecursive_ends (wellFormed : graph.WellFormed)
    (inside : current ∈ graph.nodes.values) (fuel : Nat)
    (enough : graph.nodes.values.length < fuel + seen.length) (distinct : seen.Nodup)
    (within : ∀ node ∈ seen, node ∈ graph.nodes.values)
    : Ends graph destination runData pinData current seen startNodes
        (findStartNodesRecursive graph destination runData pinData fuel current startNodes
          seen) := by
  induction fuel generalizing current seen startNodes with
  | zero =>
      have few := distinct.length_le_of_subset within
      omega
  | succ fuel ih =>
      rw [findStartNodesRecursive]
      by_cases dirty : isDirty current runData pinData = true
      · rw [if_pos dirty]
        exact Found.add (.inl dirty)
      rw [if_neg dirty]
      by_cases isDestination : current = destination
      · rw [if_pos isDestination]
        exact Found.add (.inr (.inl isDestination))
      rw [if_neg isDestination]
      cases checked : isUnfinishedLoop graph runData current with
      | error error =>
          obtain ⟨same, unread⟩ := cannotBeRead_of_isUnfinishedLoop wellFormed inside checked
          exact ⟨same, current, .refl, unread⟩
      | ok unfinished =>
          have unfinished_iff := isUnfinishedLoop_iff wellFormed inside checked
          cases unfinished with
          | true => exact Found.add (.inr (.inr (unfinished_iff.mp rfl)))
          | false =>
              simp only [bind, Except.bind, Bool.false_eq_true, if_false]
              by_cases again : current ∈ seen
              · rw [if_pos again]
                exact Found.of_seen again
              rw [if_neg again, wellFormed.getDirectChildConnections inside]
              have grown : (seen ++ [current]).Nodup :=
                distinct.append (List.nodup_singleton _) (List.disjoint_singleton.mpr again)
              have withinGrown : ∀ node ∈ seen ++ [current], node ∈ graph.nodes.values := by
                intro node member
                rcases List.mem_append.mp member with old | same
                · exact within node old
                · exact List.mem_singleton.mp same ▸ inside
              have along (connection : GraphConnection)
                  (member : connection ∈ graph.connections.values.filter
                    (fun connection => connection.fromNode = current))
                  (startNodes : List INode)
                  : EndsAlong graph destination runData pinData [connection] current seen
                      startNodes
                      (do
                        if ← hasData runData pinData connection then
                          findStartNodesRecursive graph destination runData pinData fuel
                            connection.toNode startNodes (seen ++ [current])
                        else return startNodes) := by
                obtain ⟨here, leaves⟩ := List.mem_filter.mp member
                apply EndsAlong.of_ends here (of_decide_eq_true leaves)
                intro _
                apply ih (wellFormed.toExists connection here) _ grown withinGrown
                rw [List.length_append, List.length_singleton]
                omega
              exact Ends.of_along isDestination (EndsAlong.foldlM along)

variable (graph destination runData pinData) in
/-- The start nodes are boundaries that data from the trigger arrives at, and there is one on
every path of data from the trigger to the destination.
-/
structure IsCut (trigger : INode) (startNodes : List INode) : Prop where
  boundary : ∀ node ∈ startNodes,
    IsBoundary graph destination runData pinData node
    ∧ Relation.ReflTransGen (Flows graph runData pinData) trigger node
  cuts : ∀ places, Walk (Flows graph runData pinData) trigger places destination
    → ∃ node ∈ trigger :: places, node ∈ startNodes

/-- A search that starts from nothing cuts every path, as it cuts the path without its loops. -/
theorem IsCut.of_found {trigger : INode}
    (found : Found graph destination runData pinData trigger [] [] startNodes)
    : IsCut graph destination runData pinData trigger startNodes where
  boundary node member := (found.sound node member).resolve_left (by simp)
  cuts places walk := by
    obtain ⟨rest, further, distinct, fewer⟩ := walk.exists_nodup
    obtain ⟨node, onPath, member⟩ := found.cuts rest further distinct (by simp)
    exact ⟨node, fewer.subset onPath, member⟩

theorem getDirectChildConnections_of_not_mem (wellFormed : graph.WellFormed)
    (outside : current ∉ graph.nodes.values)
    : graph.getDirectChildConnections current = .error (.assertion none) := by
  have unknown : graph.nodeExists current = false := by
    rw [Bool.eq_false_iff]
    exact fun known => outside (wellFormed.nodeExists_iff.mp known)
  simp only [DirectedGraph.getDirectChildConnections, DirectedGraph.ok, unknown]
  rfl

/-- A trigger outside the graph is a start node, or an assertion fails. -/
theorem findStartNodes_of_not_mem {trigger : INode} (wellFormed : graph.WellFormed)
    (outside : trigger ∉ graph.nodes.values)
    : (∃ startNodes,
        findStartNodes graph trigger destination pinData runData = .ok startNodes
        ∧ IsCut graph destination runData pinData trigger startNodes)
      ∨ findStartNodes graph trigger destination pinData runData
          = .error (.assertion none) := by
  have asserted := getDirectChildConnections_of_not_mem wellFormed outside
  rw [findStartNodes, findStartNodesRecursive]
  by_cases dirty : isDirty trigger runData pinData = true
  · rw [if_pos dirty]
    exact .inl ⟨_, rfl, .of_found (.add (.inl dirty))⟩
  rw [if_neg dirty]
  by_cases isDestination : trigger = destination
  · rw [if_pos isDestination]
    exact .inl ⟨_, rfl, .of_found (.add (.inr (.inl isDestination)))⟩
  rw [if_neg isDestination]
  by_cases isLoopNode : trigger.type = "n8n-nodes-base.splitInBatches"
  · have thrown : isUnfinishedLoop graph runData trigger = .error (.assertion none) := by
      rw [isUnfinishedLoop, if_pos isLoopNode, isALoop, DirectedGraph.getChildren,
        DirectedGraph.getChildrenRecursive, asserted]
      rfl
    rw [thrown]
    exact .inr rfl
  · have passed : isUnfinishedLoop graph runData trigger = .ok false := by
      rw [isUnfinishedLoop, if_neg isLoopNode]
      rfl
    rw [passed, asserted]
    exact .inr rfl

end Search

def loopNode : INode := ⟨"2", "Loop", "n8n-nodes-base.splitInBatches", false⟩

def afterLoop : INode := ⟨"3", "Last", "set", false⟩

/-- A trigger before a loop node, whose first output leads on, and no connection back. -/
def unclosedLoop : DirectedGraph where
  nodes := Dict.empty.insertAll INode.name
    [⟨"1", "Trigger", "set", false⟩, loopNode, afterLoop]
  connections := Dict.empty.insertAll makeKey
    [
      ⟨⟨"1", "Trigger", "set", false⟩, loopNode, .main, 0, 0⟩,
      ⟨loopNode, afterLoop, .main, 0, 0⟩
    ]

theorem unclosedLoop_wellFormed : unclosedLoop.WellFormed where
  nodesKeyed := Dict.KeyedBy.empty.insertAll _
  connectionsKeyed := Dict.KeyedBy.empty.insertAll _
  fromExists := by decide +kernel
  toExists := by decide +kernel

def runWith (outputs : List (Slot (List Unit))) : ITaskData Unit :=
  ⟨some (Dict.empty.set .main outputs)⟩

/-- The trigger has run, and the loop node with an item at its first output only. -/
def unclosedLoopRunData : IRunData Unit :=
  (Dict.empty.set "Trigger" [runWith [.value [()]]]).set "Loop"
    [runWith [.value [()], .value []]]

theorem findStartNodes_unclosedLoop
    : findStartNodes unclosedLoop ⟨"1", "Trigger", "set", false⟩ afterLoop .empty
        unclosedLoopRunData = .ok [loopNode] :=
  Exec.ok_of_toOption (by decide +kernel)

end N8n.PartialExecution
