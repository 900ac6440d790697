import N8n.Library.LowLinkComponents
import N8n.PartialExecution.DirectedGraph

/-! Strongly connected components of a graph (`getStronglyConnectedComponents` in
`packages/core/src/execution-engine/partial-execution-utils/directed-graph.ts`).
The function is a search with low links, so its result is right exactly when the search
links every node in time.
-/

namespace N8n.PartialExecution

open DepthFirst

/-- The variables that `followNode` shares between its calls; the stack has its top first. -/
structure ComponentSearch where
  id : Nat
  visited : List INode
  ids : Dict INode Nat
  lowLinkValues : Dict INode Nat
  stack : List INode
  stronglyConnectedComponents : List (List INode)

namespace ComponentSearch

def initial : ComponentSearch := ⟨0, [], Dict.empty, Dict.empty, [], []⟩

def enter (state : ComponentSearch) (node : INode) : ComponentSearch where
  id := state.id + 1
  visited := state.visited ++ [node]
  ids := state.ids.set node state.id
  lowLinkValues := state.lowLinkValues.set node state.id
  stack := node :: state.stack
  stronglyConnectedComponents := state.stronglyConnectedComponents

/-- A map entry that is asserted to exist. -/
def defined (values : Dict INode Nat) (node : INode) : Except JsError Nat :=
  match values.get? node with
  | some value => .ok value
  | none => .error (.assertion none)

/-- What happens once a child was followed. -/
def lowerLink (state : ComponentSearch) (node child : INode)
    : Except JsError ComponentSearch := do
  if child ∈ state.stack then
    let childLowLinkValue ← defined state.lowLinkValues child
    let ownLowLinkValue ← defined state.lowLinkValues node
    let lowestLowLinkValue := min childLowLinkValue ownLowLinkValue
    return { state with lowLinkValues := state.lowLinkValues.set node lowestLowLinkValue }
  else
    return state

/-- Pops nodes while their low link is `ownId`; they form a component if there are any. -/
def popComponent (state : ComponentSearch) (ownId : Nat) : ComponentSearch :=
  let scc := state.stack.takeWhile (fun next => state.lowLinkValues.get? next = some ownId)
  {
    state with
    stack := state.stack.dropWhile (fun next => state.lowLinkValues.get? next = some ownId)
    stronglyConnectedComponents :=
      if scc.length > 0 then state.stronglyConnectedComponents ++ [scc]
      else state.stronglyConnectedComponents
  }

/-- What happens once all children were followed. -/
def closeNode (state : ComponentSearch) (node : INode) : Except JsError ComponentSearch := do
  let ownId ← defined state.ids node
  let ownLowLinkValue ← defined state.lowLinkValues node
  if ownId = ownLowLinkValue then return state.popComponent ownId
  else return state

end ComponentSearch

namespace DirectedGraph

/-- The fuel stands for the call stack, which is taken to hold a call for every node. -/
def followNode (graph : DirectedGraph)
    : Nat → ComponentSearch → INode → Except JsError ComponentSearch
  | 0, _, _ => .error .rangeError
  | fuel + 1, state, node =>
      if node ∈ state.visited then .ok state
      else do
        let directChildren ← graph.getDirectChildConnections node
        let followed ← (directChildren.map (fun connection => connection.toNode)).foldlM
          (fun state child => do
            let afterChild ← followNode graph fuel state child
            afterChild.lowerLink node child)
          (state.enter node)
        followed.closeNode node

def getStronglyConnectedComponents (graph : DirectedGraph)
    : Except JsError (List (List INode)) := do
  let nodes := graph.nodes.values
  let final ← nodes.foldlM (followNode graph (nodes.length + 1)) .initial
  return final.stronglyConnectedComponents

/-- The nodes that the connections of a node lead to, in the order of the connections. -/
def children (graph : DirectedGraph) (node : INode) : List INode :=
  (graph.connections.values.filter (fun connection => connection.fromNode = node)).map
    (fun connection => connection.toNode)

theorem WellFormed.children_mem {graph : DirectedGraph} (wellFormed : graph.WellFormed)
    {node child : INode} (member : child ∈ graph.children node)
    : child ∈ graph.nodes.values := by
  obtain ⟨connection, listed, rfl⟩ := List.mem_map.mp member
  exact wellFormed.toExists connection (List.mem_filter.mp listed).1

end DirectedGraph

/-- The variables of the function show the state of the search. -/
structure Shows (state : ComponentSearch) (s : Search INode) : Prop where
  visited : state.visited = s.order
  id : state.id = s.order.length
  ids : ∀ node ∈ s.order, state.ids.get? node = some (s.rank node)
  lowLinkValues : ∀ node ∈ s.order, state.lowLinkValues.get? node = some (s.low node)
  stack : state.stack = s.stack
  components : state.stronglyConnectedComponents = s.components

theorem shows_initial : Shows .initial .start := by
  constructor <;> simp [ComponentSearch.initial, Search.start]

variable {graph : DirectedGraph} {state : ComponentSearch} {s s' : Search INode}
  {node child : INode} {pending : List INode} {rest : List (INode × List INode)}

theorem Shows.enter (shows_ : Shows state s) (fresh : node ∉ s.order)
    : Shows (state.enter node) (s.enter graph.children node) where
  visited := by simp [ComponentSearch.enter, Search.enter, shows_.visited]
  id := by simp [ComponentSearch.enter, Search.enter, shows_.id]
  ids := by
    intro other known
    simp only [ComponentSearch.enter, Dict.get?_set]
    rcases List.mem_append.mp known with old | new
    · have differ : other ≠ node := fun same => fresh (same ▸ old)
      rw [if_neg differ, Search.rank_enter old]
      exact shows_.ids other old
    · obtain rfl := List.mem_singleton.mp new
      rw [if_pos rfl, Search.rank_enter_self fresh, shows_.id]
  lowLinkValues := by
    intro other known
    simp only [ComponentSearch.enter, Dict.get?_set]
    rcases List.mem_append.mp known with old | new
    · have differ : other ≠ node := fun same => fresh (same ▸ old)
      rw [if_neg differ, Search.low_enter differ]
      exact shows_.lowLinkValues other old
    · obtain rfl := List.mem_singleton.mp new
      rw [if_pos rfl, Search.low_enter_self, shows_.id]
  stack := by simp [ComponentSearch.enter, Search.enter, shows_.stack]
  components := shows_.components

section

variable (shows_ : Shows state s)

include shows_

theorem Shows.lowerLink (coherent : s.Coherent graph.children)
    (top : s.frames = (node, child :: pending) :: rest) (known : child ∈ s.order)
    : ∃ next,
        state.lowerLink node child = .ok next
        ∧ Shows next (s.examine node child ((node, pending) :: rest)) := by
  have nodeKnown : node ∈ s.order := coherent.stackKnown node (coherent.top_onStack top)
  by_cases onStack : child ∈ s.stack
  · refine ⟨{ state with
        lowLinkValues := state.lowLinkValues.set node (min (s.low child) (s.low node)) }, ?_, ?_⟩
    · simp only [ComponentSearch.lowerLink, shows_.stack, onStack, if_true,
        ComponentSearch.defined, shows_.lowLinkValues child known,
        shows_.lowLinkValues node nodeKnown]
      rfl
    · refine { shows_ with lowLinkValues := ?_ }
      intro other otherKnown
      rw [Dict.get?_set]
      by_cases same : other = node
      · subst same
        rw [if_pos rfl, Search.low_examine_self, if_pos onStack]
      · rw [if_neg same, Search.low_examine same]
        exact shows_.lowLinkValues other otherKnown
  · refine ⟨state, by simp [ComponentSearch.lowerLink, shows_.stack, onStack]; rfl, ?_⟩
    refine { shows_ with lowLinkValues := ?_ }
    simpa [Search.examine, onStack] using shows_.lowLinkValues

/-- The loop that pops compares the same numbers as the search. -/
theorem Shows.takeWhile_eq {stack : List INode} (known : ∀ next ∈ stack, next ∈ s.order)
    (link : Nat)
    : stack.takeWhile (fun next => state.lowLinkValues.get? next = some link)
        = stack.takeWhile (fun next => s.low next = link)
      ∧ stack.dropWhile (fun next => state.lowLinkValues.get? next = some link)
        = stack.dropWhile (fun next => s.low next = link) := by
  induction stack with
  | nil => simp
  | cons next below ih =>
      have here : (state.lowLinkValues.get? next = some link) ↔ s.low next = link := by
        rw [shows_.lowLinkValues next (known next (.head _)), Option.some.injEq]
      obtain ⟨taken, dropped⟩ := ih fun v member => known v (.tail _ member)
      by_cases same : s.low next = link
      · simp [here, same, taken, dropped]
      · simp [here, same]

theorem Shows.popComponent (coherent : s.Coherent graph.children) (root : s.low node = s.rank node)
    : Shows (state.popComponent (s.rank node)) (s.close node rest) := by
  obtain ⟨taken, dropped⟩ := shows_.takeWhile_eq coherent.stackKnown (s.rank node)
  simp only [Search.close, root, if_true]
  exact {
    visited := shows_.visited
    id := shows_.id
    ids := shows_.ids
    lowLinkValues := shows_.lowLinkValues
    stack := by
      simp only [ComponentSearch.popComponent, shows_.stack]
      exact dropped
    components := by
      simp only [ComponentSearch.popComponent, shows_.stack, shows_.components, taken,
        Search.popped, gt_iff_lt, List.length_pos_iff]
      split <;> simp_all
  }

theorem Shows.closeNode (coherent : s.Coherent graph.children) (top : s.frames = (node, []) :: rest)
    : ∃ next, state.closeNode node = .ok next ∧ Shows next (s.close node rest) := by
  have known : node ∈ s.order := coherent.stackKnown node (coherent.top_onStack top)
  have closed : state.closeNode node
      = if s.rank node = s.low node then .ok (state.popComponent (s.rank node))
        else .ok state := by
    simp only [ComponentSearch.closeNode, ComponentSearch.defined, shows_.ids node known,
      shows_.lowLinkValues node known]
    rfl
  by_cases root : s.low node = s.rank node
  · exact ⟨_, by rw [closed, if_pos root.symm], shows_.popComponent coherent root⟩
  · refine ⟨state, by rw [closed, if_neg (Ne.symm root)], ?_⟩
    simp only [Search.close, root, if_false]
    exact { shows_ with }

end

def unvisited (graph : DirectedGraph) (s : Search INode) : Nat :=
  (graph.nodes.values.filter (fun node => node ∉ s.order)).length

theorem unvisited_mono {s s' : Search INode} (grown : ∀ node ∈ s.order, node ∈ s'.order)
    : unvisited graph s' ≤ unvisited graph s := by
  refine (List.monotone_filter_right _ ?_).length_le
  intro node fresh
  simp only [decide_eq_true_eq] at fresh ⊢
  exact fun known => fresh (grown node known)

theorem unvisited_enter (member : node ∈ graph.nodes.values) (fresh : node ∉ s.order)
    : unvisited graph (s.enter graph.children node) < unvisited graph s := by
  have nested
      : graph.nodes.values.filter
            (fun other => other ∉ (s.enter graph.children node).order)
        = (graph.nodes.values.filter (fun other => other ∉ s.order)).filter
            (fun other => other ≠ node) := by
    rw [List.filter_filter]
    refine List.filter_congr fun other _ => ?_
    simp [Search.enter, and_comm]
  rw [unvisited, unvisited, nested, List.length_filter_lt_length_iff_exists]
  exact ⟨node, List.mem_filter.mpr ⟨member, by simpa using fresh⟩, by simp⟩

/-- A call has taken the search from `s` to `s'`, over nodes of the graph only. -/
structure Advances (graph : DirectedGraph) (state : ComponentSearch) (s s' : Search INode)
    : Prop where
  steps : Search.Steps graph.children s s'
  shows_ : Shows state s'
  inside : ∀ node ∈ s'.order, node ∈ graph.nodes.values

/-- With this fuel the function follows any node that the search calls, and returns. -/
def FollowsWith (graph : DirectedGraph) (fuel : Nat) : Prop :=
  ∀ {state s node}, Shows state s → s.Coherent graph.children → Search.Calls s.frames node
    → node ∈ graph.nodes.values → (∀ other ∈ s.order, other ∈ graph.nodes.values)
    → unvisited graph s < fuel
    → ∃ final s', graph.followNode fuel state node = .ok final ∧ Advances graph final s s'
        ∧ s'.frames = s.frames ∧ node ∈ s'.order
        ∧ s'.toTrace = visit graph.children fuel s.toTrace node

/-- The loop over the children of a node, by induction on the children. -/
theorem followChildren_advances {fuel : Nat} (follows : FollowsWith graph fuel)
    {children : List INode} (shows_ : Shows state s)
    (coherent : s.Coherent graph.children) (top : s.frames = (node, children) :: rest)
    (targets : ∀ child ∈ children, child ∈ graph.nodes.values)
    (inside : ∀ other ∈ s.order, other ∈ graph.nodes.values)
    (enough : unvisited graph s < fuel)
    : ∃ final s',
        children.foldlM
            (fun state child => do
              let afterChild ← graph.followNode fuel state child
              afterChild.lowerLink node child)
            state
          = .ok final
        ∧ Advances graph final s s'
        ∧ s'.frames = (node, []) :: rest
        ∧ s'.toTrace
          = children.foldl
              (fun trace y => (visit graph.children fuel trace y).follow node y) s.toTrace := by
  induction children generalizing state s with
  | nil => exact ⟨state, s, rfl, ⟨.refl, shows_, inside⟩, top, rfl⟩
  | cons child later ih =>
      obtain ⟨followed, s₁, returned, ⟨steps, shown, within⟩, same, known, trace⟩ :=
        follows shows_ coherent (top ▸ .child) (targets child (by simp)) inside enough
      have coherent₁ := Search.Steps.coherent steps coherent
      have top₁ : s₁.frames = (node, child :: later) :: rest := same.trans top
      obtain ⟨lowered, lowers, shownLowered⟩ := shown.lowerLink coherent₁ top₁ known
      have examined : Search.Steps graph.children s
          (s₁.examine node child ((node, later) :: rest)) :=
        .tail steps (.examine top₁ known)
      obtain ⟨final, s', loops, ⟨stepsOn, shownFinal, withinFinal⟩, frames, traceOn⟩ :=
        ih shownLowered (coherent₁.examine top₁ known) rfl
          (fun other member => targets other (.tail _ member)) within
          (Nat.lt_of_le_of_lt (unvisited_mono fun other old => examined.order_mono old) enough)
      refine ⟨final, s', ?_, ⟨.trans examined stepsOn, shownFinal, withinFinal⟩, frames, ?_⟩
      · rw [List.foldlM_cons, returned]
        change (do let state ← followed.lowerLink node child; _) = _
        rw [lowers]
        exact loops
      · rw [traceOn, List.foldl_cons, ← trace]
        rfl

/-- Enough fuel is more than the nodes still to be visited, by induction on the fuel. -/
theorem followsWith (wellFormed : graph.WellFormed) (fuel : Nat) : FollowsWith graph fuel := by
  induction fuel with
  | zero => exact fun _ _ _ _ _ enough => absurd enough (Nat.not_lt_zero _)
  | succ fuel ih =>
      intro state s node shows_ coherent called member inside enough
      by_cases known : node ∈ s.order
      · refine ⟨state, s, ?_, ⟨.refl, shows_, inside⟩, rfl, known, ?_⟩
        · simp [DirectedGraph.followNode, shows_.visited, known]
        · simp [visit, known]
      · have entered := coherent.enter called known
        have insideEntered
            : ∀ other ∈ (s.enter graph.children node).order, other ∈ graph.nodes.values := by
          intro other old
          rcases List.mem_append.mp old with old | new
          · exact inside other old
          · exact List.mem_singleton.mp new ▸ member
        obtain ⟨followed, s₁, loops, ⟨steps, shown, within⟩, top, trace⟩ :=
          followChildren_advances ih (shows_.enter known) entered rfl
            (fun child listed => wellFormed.children_mem listed) insideEntered
            (by have := unvisited_enter member known; omega)
        have first : Search.Steps graph.children s s₁ :=
          .head (.enter called known) steps
        have coherent₁ := Search.Steps.coherent first coherent
        obtain ⟨final, closes, shownFinal⟩ := shown.closeNode coherent₁ top
        refine ⟨final, s₁.close node s.frames, ?_, ⟨.tail first (.close top), shownFinal, ?_⟩,
          by simp, ?_, ?_⟩
        · have present : graph.nodeExists node = true := wellFormed.nodeExists_iff.mpr member
          have call
              : graph.followNode (fuel + 1) state node
                = ((graph.children node).foldlM
                    (fun state child => do
                      let afterChild ← graph.followNode fuel state child
                      afterChild.lowerLink node child)
                    (state.enter node)).bind
                  (fun followed => followed.closeNode node) := by
            simp only [DirectedGraph.followNode, shows_.visited, known, if_false,
              DirectedGraph.getDirectChildConnections, DirectedGraph.ok, present, if_true]
            rfl
          rw [call, loops]
          exact closes
        · simpa using within
        · rw [Search.order_close]
          exact Search.Steps.order_mono steps (by simp [Search.enter])
        · rw [Search.toTrace_close, trace]
          simp only [visit]
          rw [if_neg known]
          rfl

theorem followNodes_advances {fuel : Nat} (follows : FollowsWith graph fuel)
    {nodes : List INode} (shows_ : Shows state s) (coherent : s.Coherent graph.children)
    (top : s.frames = []) (members : ∀ node ∈ nodes, node ∈ graph.nodes.values)
    (inside : ∀ other ∈ s.order, other ∈ graph.nodes.values)
    (enough : unvisited graph s < fuel)
    : ∃ final s',
        nodes.foldlM (graph.followNode fuel) state = .ok final
        ∧ Advances graph final s s'
        ∧ s'.frames = []
        ∧ (∀ node ∈ nodes, node ∈ s'.order)
        ∧ s'.toTrace = nodes.foldl (visit graph.children fuel) s.toTrace := by
  induction nodes generalizing state s with
  | nil => exact ⟨state, s, rfl, ⟨.refl, shows_, inside⟩, top, by simp, rfl⟩
  | cons node later ih =>
      obtain ⟨followed, s₁, returned, ⟨steps, shown, within⟩, same, known, trace⟩ :=
        follows shows_ coherent (top ▸ .root) (members node (by simp)) inside enough
      obtain ⟨final, s', loops, ⟨stepsOn, shownFinal, withinFinal⟩, frames, visited, traceOn⟩ :=
        ih shown (Search.Steps.coherent steps coherent) (same.trans top)
          (fun other member => members other (.tail _ member)) within
          (Nat.lt_of_le_of_lt
            (unvisited_mono fun other old => Search.Steps.order_mono steps old) enough)
      refine ⟨final, s', ?_, ⟨.trans steps stepsOn, shownFinal, withinFinal⟩, frames, ?_, ?_⟩
      · rw [List.foldlM_cons, returned]
        exact loops
      · intro other member
        rcases List.mem_cons.mp member with rfl | below
        · exact Search.Steps.order_mono stepsOn known
        · exact visited other below
      · rw [traceOn, List.foldl_cons, trace]

/-- The function always returns the components of a finished search over the graph. -/
theorem DirectedGraph.WellFormed.getStronglyConnectedComponents
    (wellFormed : graph.WellFormed)
    : ∃ s,
        graph.getStronglyConnectedComponents = .ok s.components
        ∧ Search.Steps graph.children .start s
        ∧ s.frames = []
        ∧ (∀ node, node ∈ s.order ↔ node ∈ graph.nodes.values)
        ∧ s.toTrace = DepthFirst.traverse graph.children graph.nodes.values := by
  have enough : unvisited graph .start < graph.nodes.values.length + 1 :=
    Nat.lt_succ_of_le (List.length_filter_le _ _)
  obtain ⟨final, s, loops, ⟨steps, shown, within⟩, frames, visited, trace⟩ :=
    followNodes_advances (followsWith wellFormed _) shows_initial Search.coherent_start rfl
      (fun node member => member) (by simp [Search.start]) enough
  refine ⟨s, ?_, steps, frames, fun node => ⟨within node, visited node⟩, trace⟩
  rw [DirectedGraph.getStronglyConnectedComponents, loops, ← shown.components]
  rfl

/-- The function returns the strongly connected components exactly when its depth-first
search links every node in time to the first visited node of its component.
-/
theorem getStronglyConnectedComponents_correct_iff (wellFormed : graph.WellFormed)
    : (∃ result,
        graph.getStronglyConnectedComponents = .ok result
        ∧ AreComponents graph.children graph.nodes.values result)
      ↔ Timely graph.children graph.nodes.values
          (DepthFirst.traverse graph.children graph.nodes.values) := by
  obtain ⟨s, returned, steps, frames, all, trace⟩ := wellFormed.getStronglyConnectedComponents
  rw [← trace, ← Search.areComponents_iff_timely steps frames all]
  constructor
  · rintro ⟨result, same, components⟩
    cases returned.symm.trans same
    exact components
  · exact fun components => ⟨s.components, returned, components⟩

/-- Two nodes that lead to each other. -/
def backAndForth : DirectedGraph where
  nodes := Dict.empty.insertAll INode.name
    [⟨"1", "Loop", "set", false⟩, ⟨"2", "Wait", "set", false⟩]
  connections := Dict.empty.insertAll makeKey
    [
      ⟨⟨"1", "Loop", "set", false⟩, ⟨"2", "Wait", "set", false⟩, .main, 1, 0⟩,
      ⟨⟨"2", "Wait", "set", false⟩, ⟨"1", "Loop", "set", false⟩, .main, 0, 0⟩
    ]

theorem backAndForth_components
    : ∃ result,
        backAndForth.getStronglyConnectedComponents = .ok result
        ∧ AreComponents backAndForth.children backAndForth.nodes.values result := by
  have wellFormed : backAndForth.WellFormed := {
    nodesKeyed := Dict.KeyedBy.empty.insertAll _
    connectionsKeyed := Dict.KeyedBy.empty.insertAll _
    fromExists := by decide +kernel
    toExists := by decide +kernel
  }
  refine (getStronglyConnectedComponents_correct_iff wellFormed).mpr ?_
  have order : (DepthFirst.traverse backAndForth.children backAndForth.nodes.values).order
      = [⟨"1", "Loop", "set", false⟩, ⟨"2", "Wait", "set", false⟩] := by
    decide +kernel
  have links : ∀ v ∈ backAndForth.nodes.values,
      Links (DepthFirst.traverse backAndForth.children backAndForth.nodes.values).followed v
        ⟨"1", "Loop", "set", false⟩ := by
    decide +kernel
  have together : ∀ v ∈ backAndForth.nodes.values,
      Mutual backAndForth.children v ⟨"1", "Loop", "set", false⟩ := by
    have nodes : backAndForth.nodes.values
        = [⟨"1", "Loop", "set", false⟩, ⟨"2", "Wait", "set", false⟩] := by
      decide +kernel
    intro v member
    rw [nodes] at member
    rcases List.mem_cons.mp member with rfl | second
    · exact .refl _
    · obtain rfl := List.mem_singleton.mp second
      exact ⟨.edge (by decide +kernel), .edge (by decide +kernel)⟩
  intro v member root first
  have earliest := first.2 _ (together v member)
  rw [order, List.idxOf_cons_self, Nat.le_zero] at earliest
  have same : (⟨"1", "Loop", "set", false⟩ : INode) = root :=
    (List.idxOf_inj List.mem_cons_self).mp (List.idxOf_cons_self.trans earliest.symm)
  exact same ▸ links v member

/-- A cycle inside a cycle: `Wait` goes back to `Loop` before `Loop` goes back to `Start`. -/
def nestedCycles : DirectedGraph where
  nodes := Dict.empty.insertAll INode.name
    [⟨"1", "Start", "set", false⟩, ⟨"2", "Loop", "set", false⟩, ⟨"3", "Wait", "set", false⟩]
  connections := Dict.empty.insertAll makeKey
    [
      ⟨⟨"1", "Start", "set", false⟩, ⟨"2", "Loop", "set", false⟩, .main, 0, 0⟩,
      ⟨⟨"2", "Loop", "set", false⟩, ⟨"3", "Wait", "set", false⟩, .main, 0, 0⟩,
      ⟨⟨"3", "Wait", "set", false⟩, ⟨"2", "Loop", "set", false⟩, .main, 0, 0⟩,
      ⟨⟨"2", "Loop", "set", false⟩, ⟨"1", "Start", "set", false⟩, .main, 1, 0⟩
    ]

/-- `Wait` takes over the low link of `Loop` before that comes down to `Start`, so closing
`Start` pops nothing.
-/
theorem nestedCycles_not_components
    : ¬ ∃ result,
        nestedCycles.getStronglyConnectedComponents = .ok result
        ∧ AreComponents nestedCycles.children nestedCycles.nodes.values result := by
  rintro ⟨result, returned, components⟩
  have empty : nestedCycles.getStronglyConnectedComponents = .ok [] := by decide +kernel
  cases empty.symm.trans returned
  obtain ⟨component, member, _⟩ :=
    components.covering ⟨"1", "Start", "set", false⟩ (by decide +kernel)
  simp at member

end N8n.PartialExecution
