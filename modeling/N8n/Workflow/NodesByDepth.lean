import N8n.Library.Distances
import N8n.Library.OrderedSets
import N8n.Workflow.MapConnectionsByDestination

/-! The search for nodes by depth (`packages/workflow/src/workflow.ts`) is breadth-first:
each node within the maximal depth is found once, at its distance.
-/

namespace N8n

open Library

structure IConnectedNode where
  name : String
  indicies : List Nat
  depth : Nat
  deriving DecidableEq, Repr

-- `packages/workflow/src/utils.ts`
def dedupe (items : List Nat) : List Nat := (OrderedSet.ofList items).elements

/-- The variables of the search. A node of `returnConns` is the object that `visited` has
under its name.
-/
structure SearchState where
  visited : Dict String IConnectedNode
  returnConns : List String
  queue : List IConnectedNode

/-- The node that was visited gets the indexes of the entry as well. -/
def SearchState.again (state : SearchState) (node curr : IConnectedNode) : SearchState :=
  let indicies := dedupe (node.indicies ++ curr.indicies)
  { state with visited := state.visited.set curr.name { node with indicies } }

/-- The entry becomes the node that was visited under its name. -/
def SearchState.first (state : SearchState) (sourceNode : String) (curr : IConnectedNode)
    : SearchState :=
  { state with
    visited := state.visited.set curr.name curr
    returnConns :=
      if curr.name ≠ sourceNode then state.returnConns ++ [curr.name]
      else state.returnConns }

/-- The entries that the main connections of the node put into the queue. -/
def IConnections.nextEntries (connections : IConnections) (nodeName : String) (depth : Nat)
    : List IConnectedNode :=
  (connections.ofType nodeName .main).flatMap (fun connectionsByIndex =>
    (connectionsByIndex.getD []).map (fun connection =>
      { name := connection.node, indicies := [connection.index], depth }))

/-- The callback of `toAdd.forEach` in the turn that counts to `depth`. -/
def searchNode (connections : IConnections) (sourceNode : String) (depth : Nat)
    (state : SearchState) (curr : IConnectedNode)
    : Except JsError SearchState :=
  -- `visited` is a plain object: an inherited member is found under its name, and it has
  -- no `indicies` to add to.
  if curr.name ∈ inheritedNames then .error .typeError
  else
    match state.visited.get? curr.name with
    | some node => .ok (state.again node curr)
    | none => do
        let state := state.first sourceNode curr
        if ¬ (← connections.hasOwnProperty curr.name) then return state
        return { state with
          queue := state.queue ++ connections.nextEntries curr.name depth }

/-- The loop over the levels; `none` where the turns do not suffice. -/
def searchLoop (connections : IConnections) (sourceNode : String) (maxDepth : Int)
    : (turns depth : Nat) → SearchState → Option (Except JsError SearchState)
  | 0, _, _ => none
  | turns + 1, depth, state =>
      if state.queue = [] ∨ maxDepth ≠ -1 ∧ maxDepth < depth then some (.ok state)
      else
        let toAdd := state.queue
        match toAdd.foldlM (searchNode connections sourceNode (depth + 1))
            { state with queue := [] } with
        | .error error => some (.error error)
        | .ok next => searchLoop connections sourceNode maxDepth turns (depth + 1) next

def SearchState.start (sourceNode : String) : SearchState :=
  ⟨.empty, [], [{ name := sourceNode, indicies := [], depth := 0 }]⟩

def searchNodesBFS (connections : IConnections) (sourceNode : String) (maxDepth : Int)
    (turns : Nat)
    : Option (Except JsError (List IConnectedNode)) :=
  (searchLoop connections sourceNode maxDepth turns 0 (.start sourceNode)).map
    (Except.map (fun final => final.returnConns.filterMap final.visited.get?))

/-! ### What the search is for -/

/-- A main connection of the node enters the other one at the input. -/
def IConnections.Enters (connections : IConnections) (nodeName other : String)
    (inputIndex : Nat)
    : Prop :=
  ∃ place connection,
    connections.HasEdge place connection ∧ place.node = nodeName ∧ place.type = .main
    ∧ connection.node = other ∧ connection.index = inputIndex

def IConnections.MainStep (connections : IConnections) (nodeName other : String) : Prop :=
  ∃ inputIndex, connections.Enters nodeName other inputIndex

/-- The depth is not beyond the maximal one, of which -1 means that there is none. -/
def WithinMaxDepth (maxDepth : Int) (depth : Nat) : Prop := maxDepth = -1 ∨ depth ≤ maxDepth

structure IsBreadthFirst (connections : IConnections) (sourceNode : String) (maxDepth : Int)
    (found : List IConnectedNode)
    : Prop where
  once : (found.map IConnectedNode.name).Nodup
  reached : ∀ nodeName,
    nodeName ∈ found.map IConnectedNode.name
    ↔ nodeName ≠ sourceNode
      ∧ ∃ places,
          Walk connections.MainStep sourceNode places nodeName
          ∧ WithinMaxDepth maxDepth places.length
  depth : ∀ node ∈ found,
    IsDistance connections.MainStep sourceNode node.depth node.name
  distinct : ∀ node ∈ found, node.indicies.Nodup
  indicies : ∀ node ∈ found, ∀ inputIndex,
    inputIndex ∈ node.indicies
    ↔ ∃ before, connections.Enters before node.name inputIndex
      ∧ (before = sourceNode
        ∨ ∃ depth, IsDistance connections.MainStep sourceNode depth before
            ∧ (maxDepth = -1 ∨ depth < maxDepth))

/-! ### One node of the queue -/

variable {connections : IConnections} {sourceNode : String} {maxDepth : Int}

variable {nodeName : String}

theorem mem_nextEntries_iff {depth : Nat} {entry : IConnectedNode}
    : entry ∈ connections.nextEntries nodeName depth
      ↔ ∃ inputIndex,
          connections.Enters nodeName entry.name inputIndex
          ∧ entry = { name := entry.name, indicies := [inputIndex], depth } := by
  simp only [IConnections.nextEntries, List.mem_flatMap, List.mem_map]
  constructor
  · intro ⟨byIndex, here, connection, inside, same⟩
    subst same
    obtain ⟨outputIndex, at_index⟩ := List.mem_iff_getElem?.mp here
    cases byIndex with
    | none => contradiction
    | some list =>
        refine ⟨connection.index,
          ⟨⟨nodeName, .main, outputIndex⟩, connection, ?_, rfl, rfl, rfl, rfl⟩, rfl⟩
        exact IConnections.hasEdge_iff.mpr
          (NodeInputConnections.mem_at_iff.mpr ⟨list, at_index, inside⟩)
  · intro ⟨inputIndex, ⟨place, connection, edge, fromNode, fromMain, toNode, toIndex⟩, same⟩
    obtain ⟨list, at_index, inside⟩ :=
      NodeInputConnections.mem_at_iff.mp (IConnections.hasEdge_iff.mp edge)
    subst fromNode toIndex
    rw [fromMain] at at_index
    refine ⟨some list, List.mem_of_getElem? at_index, connection, inside, ?_⟩
    rw [same, toNode]

/-- What the variables have after the nodes `done` of the queue at the distance. -/
structure SearchLevel (connections : IConnections) (sourceNode : String) (depth : Nat)
    (done : List IConnectedNode) (state : SearchState)
    : Prop where
  visited : ∀ nodeName,
    (∃ node, state.visited.get? nodeName = some node)
    ↔ (∃ nearer < depth, IsDistance connections.MainStep sourceNode nearer nodeName)
      ∨ ∃ entry ∈ done, entry.name = nodeName
  node : ∀ nodeName node, state.visited.get? nodeName = some node
    → node.name = nodeName ∧ IsDistance connections.MainStep sourceNode node.depth nodeName
  distinct : ∀ nodeName node, state.visited.get? nodeName = some node → node.indicies.Nodup
  indicies : ∀ nodeName node, state.visited.get? nodeName = some node → ∀ inputIndex,
    inputIndex ∈ node.indicies
    ↔ (∃ before nearer, nearer + 1 < depth
        ∧ IsDistance connections.MainStep sourceNode nearer before
        ∧ connections.Enters before nodeName inputIndex)
      ∨ ∃ entry ∈ done, entry.name = nodeName ∧ inputIndex ∈ entry.indicies
  found : ∀ nodeName,
    nodeName ∈ state.returnConns
    ↔ nodeName ≠ sourceNode ∧ ∃ node, state.visited.get? nodeName = some node
  once : state.returnConns.Nodup
  queue : ∀ entry,
    entry ∈ state.queue
    ↔ ∃ before inputIndex,
        IsDistance connections.MainStep sourceNode depth before
        ∧ (∃ entry ∈ done, entry.name = before)
        ∧ connections.Enters before entry.name inputIndex
        ∧ entry = { name := entry.name, indicies := [inputIndex], depth := depth + 1 }

/-- The queue has the nodes that connections from the level before enter. -/
def IsSearchQueue (connections : IConnections) (sourceNode : String) (depth : Nat)
    (queue : List IConnectedNode)
    : Prop :=
  ∀ entry,
    entry ∈ queue
    ↔ (depth = 0 ∧ entry = { name := sourceNode, indicies := [], depth := 0 })
      ∨ ∃ nearer before inputIndex,
          depth = nearer + 1
          ∧ IsDistance connections.MainStep sourceNode nearer before
          ∧ connections.Enters before entry.name inputIndex
          ∧ entry = { name := entry.name, indicies := [inputIndex], depth }

/-- An entry is at the depth of its queue, or was visited in an earlier turn. -/
structure IsQueueEntry (connections : IConnections) (sourceNode : String) (depth : Nat)
    (entry : IConnectedNode)
    : Prop where
  sameDepth : entry.depth = depth
  distinct : entry.indicies.Nodup
  distance : ∃ nearer ≤ depth, IsDistance connections.MainStep sourceNode nearer entry.name

variable {depth : Nat} {queue done : List IConnectedNode} {state : SearchState}
  {curr : IConnectedNode}

theorem IsSearchQueue.isEntry (isQueue : IsSearchQueue connections sourceNode depth queue)
    (member : curr ∈ queue)
    : IsQueueEntry connections sourceNode depth curr := by
  rcases (isQueue curr).mp member with ⟨rfl, same⟩
    | ⟨nearer, before, inputIndex, rfl, here, enters, same⟩
  · rw [same]
    exact ⟨rfl, List.nodup_nil, 0, Nat.le_refl 0, IsDistance.zero_iff.mpr rfl⟩
  · obtain ⟨distance, there, least⟩ := here.after ⟨inputIndex, enters⟩
    refine ⟨by rw [same], by rw [same]; exact List.nodup_singleton _, distance, least, there⟩

theorem mem_dedupe {items : List Nat} {item : Nat} : item ∈ dedupe items ↔ item ∈ items :=
  OrderedSet.mem_ofList

/-- A node that was visited gets the indexes of the entry. -/
theorem SearchLevel.again (level : SearchLevel connections sourceNode depth done state)
    {node : IConnectedNode} (known : state.visited.get? curr.name = some node)
    : SearchLevel connections sourceNode depth (done ++ [curr]) (state.again node curr) := by
  have sameNames (nodeName : String)
      : (∃ other, (state.again node curr).visited.get? nodeName = some other)
        ↔ ∃ other, state.visited.get? nodeName = some other := by
    rw [SearchState.again, Dict.get?_set]
    split
    · next same => simp [same, known]
    · rfl
  have sameDone (nodeName : String)
      : (∃ node, state.visited.get? nodeName = some node)
        ↔ (∃ nearer < depth, IsDistance connections.MainStep sourceNode nearer nodeName)
          ∨ ∃ entry ∈ done ++ [curr], entry.name = nodeName := by
    rw [level.visited]
    simp only [List.mem_append, List.mem_singleton, or_and_right, exists_or, exists_eq_left]
    constructor
    · rintro (nearer | before)
      · exact .inl nearer
      · exact .inr (.inl before)
    · rintro (nearer | before | same)
      · exact .inl nearer
      · exact .inr before
      · rw [← same]
        exact (level.visited curr.name).mp ⟨node, known⟩
  refine ⟨fun nodeName => (sameNames nodeName).trans (sameDone nodeName), ?_, ?_, ?_, ?_,
    level.once, ?_⟩
  case refine_1 =>
    intro nodeName other present
    rw [SearchState.again, Dict.get?_set] at present
    split at present
    · next same =>
        cases present
        rw [same]
        exact level.node curr.name node known
    · exact level.node nodeName other present
  case refine_2 =>
    intro nodeName other present
    rw [SearchState.again, Dict.get?_set] at present
    split at present
    · cases present
      exact (OrderedSet.ofList _).nodup
    · exact level.distinct nodeName other present
  case refine_3 =>
    intro nodeName other present inputIndex
    simp only [List.mem_append, List.mem_singleton, or_and_right, exists_or, exists_eq_left]
    rw [SearchState.again, Dict.get?_set] at present
    split at present
    · next same =>
        cases present
        rw [mem_dedupe, List.mem_append, same,
          level.indicies curr.name node known inputIndex, or_assoc]
        simp
    · next other_name =>
        have differs : curr.name ≠ nodeName := fun same => other_name same.symm
        simp only [differs, false_and, or_false]
        exact level.indicies nodeName other present inputIndex
  case refine_4 =>
    intro nodeName
    rw [sameNames nodeName]
    exact level.found nodeName
  case refine_5 =>
    intro entry
    refine (level.queue entry).trans ⟨?_, ?_⟩
    · rintro ⟨before, inputIndex, here, ⟨first, member, named⟩, rest⟩
      exact ⟨before, inputIndex, here, ⟨first, List.mem_append_left _ member, named⟩, rest⟩
    · rintro ⟨before, inputIndex, here, visited, rest⟩
      refine ⟨before, inputIndex, here, ?_, rest⟩
      rcases (level.visited before).mp ((sameDone before).mpr (.inr visited)) with
        ⟨nearer, less, there⟩ | visited
      · exact absurd (there.unique here) (Nat.ne_of_lt less)
      · exact visited

section

variable (level : SearchLevel connections sourceNode depth done state)
  (isEntry : IsQueueEntry connections sourceNode depth curr)
  (unknown : state.visited.get? curr.name = none)

include level isEntry unknown

/-- A node that was not visited is at the depth of the level. -/
theorem SearchLevel.isDistance
    : IsDistance connections.MainStep sourceNode depth curr.name
      ∧ ∀ entry ∈ done, entry.name ≠ curr.name := by
  have notVisited : ¬ ∃ node, state.visited.get? curr.name = some node := by simp [unknown]
  rw [level.visited, not_or] at notVisited
  obtain ⟨notNearer, notDone⟩ := notVisited
  obtain ⟨nearer, least, there⟩ := isEntry.distance
  obtain rfl : nearer = depth := by
    by_contra different
    exact notNearer ⟨nearer, by omega, there⟩
  exact ⟨there, fun entry member same => notDone ⟨entry, member, same⟩⟩

/-- A node that was not visited becomes one, and its connections go to the queue. -/
theorem SearchLevel.first
    : SearchLevel connections sourceNode depth (done ++ [curr])
        { state.first sourceNode curr with
          queue := state.queue ++ connections.nextEntries curr.name (depth + 1) } := by
  obtain ⟨here, notDone⟩ := level.isDistance isEntry unknown
  have nowVisited (nodeName : String)
      : (∃ node, (state.visited.set curr.name curr).get? nodeName = some node)
        ↔ (∃ node, state.visited.get? nodeName = some node) ∨ nodeName = curr.name := by
    rw [Dict.get?_set]
    split
    · next same => simp [same]
    · next differs => simp [differs]
  refine ⟨?_, ?_, ?_, ?_, ?_, ?_, ?_⟩
  case refine_1 =>
    intro nodeName
    refine (nowVisited nodeName).trans ?_
    rw [level.visited, or_assoc]
    simp only [List.mem_append, List.mem_singleton, or_and_right, exists_or, exists_eq_left]
    rw [eq_comm (a := nodeName)]
  case refine_2 =>
    intro nodeName node present
    rw [SearchState.first, Dict.get?_set] at present
    split at present
    · next same =>
        cases present
        exact ⟨same.symm, by rw [isEntry.sameDepth, same]; exact here⟩
    · exact level.node nodeName node present
  case refine_3 =>
    intro nodeName node present
    rw [SearchState.first, Dict.get?_set] at present
    split at present
    · cases present
      exact isEntry.distinct
    · exact level.distinct nodeName node present
  case refine_4 =>
    intro nodeName node present inputIndex
    simp only [List.mem_append, List.mem_singleton, or_and_right, exists_or, exists_eq_left]
    rw [SearchState.first, Dict.get?_set] at present
    split at present
    · next same =>
        cases present
        subst same
        have noEarlier : ¬ ∃ before nearer, nearer + 1 < depth
            ∧ IsDistance connections.MainStep sourceNode nearer before
            ∧ connections.Enters before curr.name inputIndex := by
          rintro ⟨before, nearer, less, there, enters⟩
          obtain ⟨distance, reached, least⟩ := there.after ⟨inputIndex, enters⟩
          have equal := reached.unique here
          omega
        have noneDone
            : ¬ ∃ entry ∈ done, entry.name = curr.name ∧ inputIndex ∈ entry.indicies :=
          fun ⟨entry, member, named, _⟩ => notDone entry member named
        simp [noEarlier, noneDone]
    · next differs =>
        have other : curr.name ≠ nodeName := fun same => differs same.symm
        simp only [other, false_and, or_false]
        exact level.indicies nodeName node present inputIndex
  case refine_5 =>
    intro nodeName
    refine Iff.trans ?_ (and_congr_right' (nowVisited nodeName).symm)
    by_cases source : curr.name = sourceNode
    · simp only [SearchState.first, source, ne_eq, not_true_eq_false, if_false]
      rw [level.found, and_or_left]
      simp
    · simp only [SearchState.first, ne_eq, source, not_false_eq_true, if_true]
      rw [List.mem_append, List.mem_singleton, level.found, and_or_left]
      refine or_congr_right ⟨?_, And.right⟩
      rintro rfl
      exact ⟨source, rfl⟩
  case refine_6 =>
    by_cases source : curr.name = sourceNode
    · simpa [SearchState.first, source] using level.once
    · simp only [SearchState.first, ne_eq, source, not_false_eq_true, if_true]
      refine List.nodup_append.mpr ⟨level.once, List.nodup_singleton _, ?_⟩
      rintro nodeName found _ last rfl
      obtain ⟨-, node, known⟩ := (level.found nodeName).mp found
      rw [List.mem_singleton.mp last, unknown] at known
      contradiction
  case refine_7 =>
    intro entry
    simp only [List.mem_append, List.mem_singleton, or_and_right, exists_or, exists_eq_left]
    rw [level.queue, mem_nextEntries_iff]
    constructor
    · rintro (⟨before, inputIndex, there, visited, rest⟩ | ⟨inputIndex, enters, same⟩)
      · exact ⟨before, inputIndex, there, .inl ⟨visited, rest⟩⟩
      · exact ⟨curr.name, inputIndex, here, .inr ⟨rfl, enters, same⟩⟩
    · rintro ⟨before, inputIndex, there, ⟨visited, rest⟩ | ⟨rfl, enters, same⟩⟩
      · exact .inl ⟨before, inputIndex, there, visited, rest⟩
      · exact .inr ⟨inputIndex, enters, same⟩

end

section

variable (ordinary : connections.OrdinaryNames)
  (level : SearchLevel connections sourceNode depth done state)

include ordinary level

theorem searchNode_isLevel (isEntry : IsQueueEntry connections sourceNode depth curr)
    (named : curr.name ∉ inheritedNames)
    : ∃ next,
        searchNode connections sourceNode (depth + 1) state curr = .ok next
        ∧ SearchLevel connections sourceNode depth (done ++ [curr]) next := by
  have method : connections.hasOwnProperty curr.name = .ok (curr.name ∈ connections.keys) :=
    if_neg (fun hides => ordinary.sources "hasOwnProperty" hides (by decide))
  unfold searchNode
  rw [if_neg named]
  cases known : state.visited.get? curr.name with
  | some node => exact ⟨_, rfl, level.again known⟩
  | none =>
      refine ⟨_, ?_, level.first isEntry known⟩
      by_cases present : curr.name ∈ connections.keys
      · simp [method, present, SearchState.first, bind, Except.bind, pure, Except.pure]
      · have noNext : connections.nextEntries curr.name (depth + 1) = [] := by
          simp [IConnections.nextEntries, IConnections.ofType,
            Dict.get?_eq_none_iff.mpr present]
        simp [method, present, noNext, SearchState.first, bind, Except.bind, pure, Except.pure]

/-- The turn visits the nodes of its queue, by induction over those that remain. -/
theorem foldlM_searchNode_isLevel
    (entries : ∀ curr ∈ queue, IsQueueEntry connections sourceNode depth curr)
    (named : ∀ curr ∈ queue, curr.name ∉ inheritedNames)
    : ∃ next,
        queue.foldlM (searchNode connections sourceNode (depth + 1)) state = .ok next
        ∧ SearchLevel connections sourceNode depth (done ++ queue) next := by
  induction queue generalizing done state with
  | nil => exact ⟨state, rfl, by simpa using level⟩
  | cons curr rest ih =>
      obtain ⟨middle, visits, reached⟩ := searchNode_isLevel ordinary level
        (entries curr (.head _)) (named curr (.head _))
      obtain ⟨next, turns, ends⟩ := ih reached
        (fun other later => entries other (.tail _ later))
        (fun other later => named other (.tail _ later))
      refine ⟨next, ?_, by simpa using ends⟩
      rw [List.foldlM_cons, visits]
      exact turns

end

/-! ### The levels -/

/-- The queue at a depth has the names of that depth, and names that are nearer. -/
theorem IsSearchQueue.named_iff (isQueue : IsSearchQueue connections sourceNode depth queue)
    : (∃ nearer < depth, IsDistance connections.MainStep sourceNode nearer nodeName)
        ∨ (∃ entry ∈ queue, entry.name = nodeName)
      ↔ ∃ nearer < depth + 1, IsDistance connections.MainStep sourceNode nearer nodeName := by
  constructor
  · rintro (⟨nearer, less, there⟩ | ⟨entry, member, rfl⟩)
    · exact ⟨nearer, Nat.lt_succ_of_lt less, there⟩
    · obtain ⟨nearer, least, there⟩ := (isQueue.isEntry member).distance
      exact ⟨nearer, Nat.lt_succ_of_le least, there⟩
  · rintro ⟨nearer, less, there⟩
    rcases Nat.lt_succ_iff_lt_or_eq.mp less with nearerStill | rfl
    · exact .inl ⟨nearer, nearerStill, there⟩
    · cases nearer with
      | zero =>
          exact .inr ⟨_, (isQueue _).mpr (.inl ⟨rfl, rfl⟩), (IsDistance.zero_iff.mp there).symm⟩
      | succ nearer =>
          obtain ⟨before, here, inputIndex, enters⟩ := there.previous
          exact .inr ⟨{ name := nodeName, indicies := [inputIndex], depth := nearer + 1 },
            (isQueue _).mpr (.inr ⟨nearer, before, inputIndex, rfl, here, enters, rfl⟩), rfl⟩

/-- The queue that a turn leaves is the one of the next depth. -/
theorem SearchLevel.isQueue (level : SearchLevel connections sourceNode depth queue state)
    (isQueue : IsSearchQueue connections sourceNode depth queue)
    : IsSearchQueue connections sourceNode (depth + 1) state.queue := by
  intro entry
  rw [level.queue]
  constructor
  · rintro ⟨before, inputIndex, here, -, rest⟩
    exact .inr ⟨depth, before, inputIndex, rfl, here, rest⟩
  · rintro (⟨never, -⟩ | ⟨nearer, before, inputIndex, same, here, rest⟩)
    · contradiction
    · obtain rfl := Nat.succ.inj same
      refine ⟨before, inputIndex, here, ?_, rest⟩
      have visited := isQueue.named_iff.mpr ⟨depth, Nat.lt_succ_self depth, here⟩
      refine visited.resolve_left ?_
      rintro ⟨nearer, less, there⟩
      exact absurd (there.unique here) (Nat.ne_of_lt less)

theorem SearchLevel.succ (level : SearchLevel connections sourceNode depth queue state)
    (isQueue : IsSearchQueue connections sourceNode depth queue)
    : SearchLevel connections sourceNode (depth + 1) [] { state with queue := [] } where
  visited nodeName := by
    rw [level.visited, isQueue.named_iff]
    simp
  node := level.node
  distinct := level.distinct
  indicies nodeName node present inputIndex := by
    rw [level.indicies nodeName node present]
    simp only [List.not_mem_nil, false_and, exists_false, or_false]
    constructor
    · rintro (⟨before, nearer, less, there⟩ | ⟨entry, member, rfl, index⟩)
      · exact ⟨before, nearer, Nat.lt_succ_of_lt less, there⟩
      · rcases (isQueue entry).mp member with ⟨-, same⟩
          | ⟨nearer, before, inputIndex, rfl, here, enters, same⟩
        · rw [same] at index
          contradiction
        · rw [same] at index
          obtain rfl := List.mem_singleton.mp index
          exact ⟨before, nearer, Nat.lt_succ_self _, here, enters⟩
    · rintro ⟨before, nearer, less, here, enters⟩
      rcases Nat.lt_succ_iff_lt_or_eq.mp less with earlier | rfl
      · exact .inl ⟨before, nearer, earlier, here, enters⟩
      · refine .inr ⟨{ name := nodeName, indicies := [inputIndex], depth := nearer + 1 }, ?_,
          rfl, List.mem_singleton_self _⟩
        exact (isQueue _).mpr (.inr ⟨nearer, before, inputIndex, rfl, here, enters, rfl⟩)
  found := level.found
  once := level.once
  queue := by simp

theorem IConnections.Enters.mem_keys {other : String} {inputIndex : Nat}
    (enters : connections.Enters nodeName other inputIndex)
    : nodeName ∈ connections.keys := by
  obtain ⟨place, connection, ⟨ofNode, present, -⟩, rfl, -⟩ := enters
  exact Dict.mem_keys_of_get? present

theorem IsSearchQueue.ordinary (isQueue : IsSearchQueue connections sourceNode depth queue)
    (ordinary : connections.OrdinaryNames) (source : sourceNode ∉ inheritedNames)
    (member : curr ∈ queue)
    : curr.name ∉ inheritedNames := by
  rcases (isQueue curr).mp member with ⟨-, same⟩ | ⟨nearer, before, inputIndex, -, -, enters, -⟩
  · rw [same]
    exact source
  · obtain ⟨place, connection, edge, -, -, named, -⟩ := enters
    rw [← named]
    exact ordinary.targets place connection edge

/-- Each level above a queue that is not empty has a node with connections. -/
theorem IsSearchQueue.depth_le (isQueue : IsSearchQueue connections sourceNode depth queue)
    (member : curr ∈ queue)
    : depth ≤ connections.keys.length := by
  rcases (isQueue curr).mp member with ⟨rfl, -⟩
    | ⟨nearer, before, inputIndex, rfl, here, enters, -⟩
  · exact Nat.zero_le _
  · have levels (m : Nat) (above : m < nearer + 1)
        : ∃ nodeName ∈ connections.keys, IsDistance connections.MainStep sourceNode m nodeName := by
      rcases Nat.lt_succ_iff_lt_or_eq.mp above with higher | rfl
      · obtain ⟨below, there⟩ := here.exists_lower higher
        obtain ⟨nodeName, found, _, leaves⟩ := there.previous
        exact ⟨nodeName, leaves.mem_keys, found⟩
      · exact ⟨before, enters.mem_keys, here⟩
    exact IsDistance.length_le levels

/-- The search has stopped at a depth, with no node left or beyond the maximal depth. -/
structure SearchStopped (connections : IConnections) (sourceNode : String) (maxDepth : Int)
    (depth : Nat) (final : SearchState)
    : Prop where
  level : SearchLevel connections sourceNode depth [] { final with queue := [] }
  isQueue : IsSearchQueue connections sourceNode depth final.queue
  stops : final.queue = [] ∨ maxDepth ≠ -1 ∧ maxDepth < depth
  within : ∀ nearer < depth, WithinMaxDepth maxDepth nearer

/-- The turns suffice, by induction on them: each begins one level further down. -/
theorem searchLoop_stops (ordinary : connections.OrdinaryNames)
    (source : sourceNode ∉ inheritedNames) {turns : Nat}
    (level : SearchLevel connections sourceNode depth [] { state with queue := [] })
    (isQueue : IsSearchQueue connections sourceNode depth state.queue)
    (within : ∀ nearer < depth, WithinMaxDepth maxDepth nearer)
    (enough : connections.keys.length + 1 ≤ turns + depth)
    : ∃ final last,
        searchLoop connections sourceNode maxDepth (turns + 1) depth state = some (.ok final)
        ∧ SearchStopped connections sourceNode maxDepth last final := by
  induction turns generalizing depth state with
  | zero =>
      have empty : state.queue = [] := by
        refine List.eq_nil_iff_forall_not_mem.mpr fun curr member => ?_
        have above := isQueue.depth_le member
        omega
      exact ⟨state, depth, if_pos (.inl empty), level, isQueue, .inl empty, within⟩
  | succ turns ih =>
      by_cases stops : state.queue = [] ∨ maxDepth ≠ -1 ∧ maxDepth < depth
      · exact ⟨state, depth, if_pos stops, level, isQueue, stops, within⟩
      · obtain ⟨next, visits, reached⟩ := foldlM_searchNode_isLevel ordinary level
          (fun curr member => isQueue.isEntry member)
          (fun curr member => isQueue.ordinary ordinary source member)
        rw [List.nil_append] at reached
        have deeper (nearer : Nat) (above : nearer < depth + 1)
            : WithinMaxDepth maxDepth nearer := by
          unfold WithinMaxDepth
          omega
        obtain ⟨final, last, ran, stopped⟩ :=
          ih (reached.succ isQueue) (reached.isQueue isQueue) deeper (by omega)
        refine ⟨final, last, ?_, stopped⟩
        rw [searchLoop, if_neg stops]
        simp only [visits]
        exact ran

variable {final : SearchState}

section

variable (stopped : SearchStopped connections sourceNode maxDepth depth final)

include stopped

theorem SearchStopped.lt_iff {distance : Nat}
    (here : IsDistance connections.MainStep sourceNode distance nodeName)
    : distance < depth ↔ WithinMaxDepth maxDepth distance := by
  refine ⟨stopped.within distance, fun within => ?_⟩
  rcases stopped.stops with empty | ⟨bounded, beyond⟩
  · by_contra further
    obtain ⟨lower, there⟩ := here.exists_lower (Nat.le_of_not_lt further)
    rcases stopped.isQueue.named_iff.mpr ⟨depth, Nat.lt_succ_self depth, there⟩ with
      ⟨nearer, less, again⟩ | ⟨entry, member, -⟩
    · exact absurd (again.unique there) (Nat.ne_of_lt less)
    · rw [empty] at member
      contradiction
  · rcases within with unbounded | inside
    · contradiction
    · omega

theorem SearchStopped.succ_lt_iff {before : String} {distance inputIndex : Nat}
    (here : IsDistance connections.MainStep sourceNode distance before)
    (enters : connections.Enters before nodeName inputIndex)
    : distance + 1 < depth ↔ maxDepth = -1 ∨ distance < maxDepth := by
  constructor
  · intro above
    have within := stopped.within _ above
    unfold WithinMaxDepth at within
    omega
  · intro inside
    rcases stopped.stops with empty | ⟨bounded, beyond⟩
    · have above := (stopped.lt_iff here).mpr (by unfold WithinMaxDepth; omega)
      rcases Nat.lt_or_eq_of_le (Nat.succ_le_of_lt above) with less | same
      · exact less
      · have member := (stopped.isQueue { name := nodeName, indicies := [inputIndex], depth }).mpr
          (.inr ⟨distance, before, inputIndex, same.symm, here, enters, rfl⟩)
        rw [empty] at member
        contradiction
    · omega

end

/-! ### What the search returns -/

theorem level_start
    : SearchLevel connections sourceNode 0 []
        { SearchState.start sourceNode with queue := [] } := by
  constructor <;> simp [SearchState.start]

theorem isQueue_start
    : IsSearchQueue connections sourceNode 0 (SearchState.start sourceNode).queue := by
  intro entry
  rw [SearchState.start, List.mem_singleton]
  constructor
  · exact fun same => .inl ⟨rfl, same⟩
  · rintro (⟨-, same⟩ | ⟨_, _, _, never, -⟩)
    · exact same
    · contradiction

theorem SearchLevel.names_found
    (level : SearchLevel connections sourceNode depth [] { final with queue := [] })
    : (final.returnConns.filterMap final.visited.get?).map IConnectedNode.name
      = final.returnConns := by
  have present (nodeName : String) (member : nodeName ∈ final.returnConns)
      : (final.visited.get? nodeName).map IConnectedNode.name = some nodeName := by
    obtain ⟨-, node, known⟩ := (level.found nodeName).mp member
    have known : final.visited.get? nodeName = some node := known
    rw [known, Option.map_some, (level.node nodeName node known).1]
  rw [List.map_filterMap]
  calc final.returnConns.filterMap (fun nodeName => (final.visited.get? nodeName).map _)
      = final.returnConns.map id := List.filterMap_eq_map_iff_forall_eq_some.mpr present
    _ = final.returnConns := List.map_id _

theorem SearchStopped.isBreadthFirst
    (stopped : SearchStopped connections sourceNode maxDepth depth final)
    : IsBreadthFirst connections sourceNode maxDepth
        (final.returnConns.filterMap final.visited.get?) := by
  have level := stopped.level
  have visited {node : IConnectedNode}
      (member : node ∈ final.returnConns.filterMap final.visited.get?)
      : final.visited.get? node.name = some node ∧ node.name ≠ sourceNode := by
    obtain ⟨nodeName, listed, known⟩ := List.mem_filterMap.mp member
    have named := (level.node nodeName node known).1
    rw [named]
    exact ⟨known, ((level.found nodeName).mp listed).1⟩
  have distance {node : IConnectedNode}
      (member : node ∈ final.returnConns.filterMap final.visited.get?)
      : IsDistance connections.MainStep sourceNode node.depth node.name :=
    (level.node node.name node (visited member).1).2
  refine ⟨?_, ?_, fun node member => distance member,
    fun node member => level.distinct node.name node (visited member).1, ?_⟩
  case refine_1 =>
    rw [level.names_found]
    exact level.once
  case refine_2 =>
    intro nodeName
    rw [level.names_found]
    refine (level.found nodeName).trans (and_congr_right' ?_)
    refine (level.visited nodeName).trans ?_
    simp only [List.not_mem_nil, false_and, exists_false, or_false]
    constructor
    · rintro ⟨nearer, above, there⟩
      obtain ⟨places, walk, same⟩ := there.reached
      exact ⟨places, walk, same ▸ stopped.within nearer above⟩
    · rintro ⟨places, walk, within⟩
      obtain ⟨nearer, there, least⟩ := IsDistance.exists_of_walk walk
      refine ⟨nearer, (stopped.lt_iff there).mpr ?_, there⟩
      unfold WithinMaxDepth at within ⊢
      omega
  case refine_3 =>
    intro node member inputIndex
    obtain ⟨known, notSource⟩ := visited member
    refine (level.indicies node.name node known inputIndex).trans ?_
    simp only [List.not_mem_nil, false_and, exists_false, or_false]
    constructor
    · rintro ⟨before, nearer, above, here, enters⟩
      exact ⟨before, enters, .inr ⟨nearer, here, (stopped.succ_lt_iff here enters).mp above⟩⟩
    · rintro ⟨before, enters, rfl | ⟨nearer, here, inside⟩⟩
      -- The node is not the source, so that the depth of the search is at least two.
      · refine ⟨before, 0, ?_, IsDistance.zero_iff.mpr rfl, enters⟩
        have above : ∃ nearer < depth, IsDistance connections.MainStep before nearer node.name := by
          simpa using (level.visited node.name).mp ⟨node, known⟩
        obtain ⟨nearer, above, there⟩ := above
        cases nearer with
        | zero => exact absurd (IsDistance.zero_iff.mp there) notSource
        | succ nearer => omega
      · exact ⟨before, nearer, (stopped.succ_lt_iff here enters).mpr inside, here, enters⟩

/-- Turns for each node with connections, for the source and for the end suffice. -/
theorem searchNodesBFS_isBreadthFirst (ordinary : connections.OrdinaryNames)
    (source : sourceNode ∉ inheritedNames) (maxDepth : Int) {turns : Nat}
    (enough : connections.keys.length + 2 ≤ turns)
    : ∃ found,
        searchNodesBFS connections sourceNode maxDepth turns = some (.ok found)
        ∧ IsBreadthFirst connections sourceNode maxDepth found := by
  obtain ⟨more, rfl⟩ : ∃ more, turns = more + 1 := ⟨turns - 1, by omega⟩
  have within : ∀ nearer < 0, WithinMaxDepth maxDepth nearer := by simp
  have remaining : connections.keys.length + 1 ≤ more + 0 := by omega
  obtain ⟨final, last, ran, stopped⟩ :=
    searchLoop_stops ordinary source level_start isQueue_start within remaining
  refine ⟨_, ?_, stopped.isBreadthFirst⟩
  rw [searchNodesBFS, ran]
  rfl

theorem ordinaryNames_of_edges (sources : ∀ nodeName ∈ connections.keys, nodeName ∉ inheritedNames)
    (targets : ∀ edge ∈ connections.edges, edge.2.node ∉ inheritedNames)
    : connections.OrdinaryNames :=
  ⟨sources, fun place connection edge =>
    targets (place, connection) (IConnections.mem_edges_iff.mpr edge)⟩

/-- A cycle whose last node is entered from two nodes, at two inputs. -/
def cycleOfThree : IConnections :=
  ⟨[("Start", ⟨[(.main, [some [⟨"Merge", .main, 0⟩, ⟨"Set", .main, 0⟩]])], by decide⟩),
    ("Set", ⟨[(.main, [none, some [⟨"Merge", .main, 1⟩]])], by decide⟩),
    ("Merge", ⟨[(.main, [some [⟨"Start", .main, 0⟩]])], by decide⟩)], by decide⟩

theorem searchNodesBFS_isBreadthFirst_cycleOfThree
    : ∃ found,
        searchNodesBFS cycleOfThree "Start" (-1) 5 = some (.ok found)
        ∧ IsBreadthFirst cycleOfThree "Start" (-1) found :=
  searchNodesBFS_isBreadthFirst (ordinaryNames_of_edges (by decide) (by decide)) (by decide) (-1)
    (by decide)

example
    : searchNodesBFS cycleOfThree "Start" (-1) 5
      = some (.ok [⟨"Merge", [0, 1], 1⟩, ⟨"Set", [0], 1⟩]) := by
  decide +kernel

end N8n
