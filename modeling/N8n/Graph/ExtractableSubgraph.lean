import N8n.Graph.GraphUtils

/-! A selection without errors has at most one entry and at most one exit. The path between
them runs inside the selection, because a path can leave it only at the exit. The path is not
looked for when the entry or the exit is the node with the empty name.
-/

namespace N8n.Graph

open Library
open DepthFirst (Reaches)

variable {graphIds : OrderedSet String} {adjacencyList : IConnectionAdjacencyList}

section Purpose

variable (graphIds : OrderedSet String) (adjacencyList : IConnectionAdjacencyList)

/-- A selected node with a main edge from outside the selection. -/
def Enters (node : String) : Prop :=
  node ∈ graphIds ∧ ∃ source, source ∉ graphIds ∧ node ∈ mainNodes adjacencyList source

/-- A selected node with a main edge that leaves the selection. -/
def Leaves (node : String) : Prop :=
  node ∈ graphIds ∧ ∃ target, target ∉ graphIds ∧ target ∈ mainNodes adjacencyList node

/-- A path of main edges between selected nodes. -/
def PathInside : String → String → Prop :=
  Relation.ReflTransGen (fun node next =>
    node ∈ graphIds ∧ next ∈ graphIds ∧ next ∈ mainNodes adjacencyList node)

structure Sound (data : ExtractableSubgraphData) : Prop where
  start : ∀ node, Enters graphIds adjacencyList node ↔ data.start = some node
  end_ : ∀ node, Leaves graphIds adjacencyList node ↔ data.end_ = some node
  path : ∀ start end_, data.start = some start → data.end_ = some end_ → start ≠ end_
    → PathInside graphIds adjacencyList start end_

/-- Where the only entry or the only exit is the node with the empty name, there is a path. -/
def EmptyNameConnected : Prop :=
  ∀ start end_,
    inputErrors graphIds adjacencyList = [] → outputErrors graphIds adjacencyList = []
      → start ∈ inputNodes graphIds adjacencyList → end_ ∈ outputNodes graphIds adjacencyList
      → start ≠ end_ → (start = "" ∨ end_ = "")
      → hasPath start end_ adjacencyList = true

end Purpose

variable {node : String}

theorem mem_mainNodes_iff {source : String}
    : node ∈ mainNodes adjacencyList source
      ↔ ∃ tos, (source, tos) ∈ adjacencyList.entries
          ∧ ∃ connection ∈ tos, connection.type = .main ∧ connection.node = node := by
  simp only [mainNodes, List.mem_map, List.mem_filter, decide_eq_true_eq, Dict.mem_entries_iff]
  cases found : adjacencyList.get? source with
  | none => simp
  | some tos => simp [and_assoc]

theorem mem_inputNodes_iff
    : node ∈ inputNodes graphIds adjacencyList ↔ Enters graphIds adjacencyList node := by
  simp only [inputNodes, getInputEdges, OrderedSet.mem_ofList, List.mem_map, List.mem_filter,
    List.mem_flatMap, decide_eq_true_eq, Enters, mem_mainNodes_iff]
  constructor
  · rintro ⟨edge, ⟨⟨⟨source, tos⟩, entry, crosses⟩, isMain⟩, rfl⟩
    by_cases inside : source ∈ graphIds
    · simp [inside] at crosses
    · simp only [inside, if_false, List.mem_map, List.mem_filter, decide_eq_true_eq] at crosses
      obtain ⟨connection, ⟨member, selected⟩, rfl⟩ := crosses
      exact ⟨selected, source, inside, tos, entry, connection, member, isMain, rfl⟩
  · rintro ⟨selected, source, outside, tos, entry, connection, member, isMain, rfl⟩
    refine ⟨(source, connection), ⟨⟨(source, tos), entry, ?_⟩, isMain⟩, rfl⟩
    simp only [outside, if_false, List.mem_map, List.mem_filter, decide_eq_true_eq]
    exact ⟨connection, ⟨member, selected⟩, rfl⟩

theorem mem_outputNodes_iff
    : node ∈ outputNodes graphIds adjacencyList ↔ Leaves graphIds adjacencyList node := by
  simp only [outputNodes, getOutputEdges, OrderedSet.mem_ofList, List.mem_map, List.mem_filter,
    List.mem_flatMap, decide_eq_true_eq, Leaves, mem_mainNodes_iff]
  constructor
  · rintro ⟨edge, ⟨⟨⟨source, tos⟩, entry, crosses⟩, isMain⟩, rfl⟩
    by_cases inside : source ∈ graphIds
    · simp only [inside, not_true_eq_false, if_false, List.mem_map, List.mem_filter,
        decide_eq_true_eq] at crosses
      obtain ⟨connection, ⟨member, outside⟩, rfl⟩ := crosses
      exact ⟨inside, connection.node, outside, tos, entry, connection, member, isMain, rfl⟩
    · simp [inside] at crosses
  · rintro ⟨selected, _, outside, tos, entry, connection, member, isMain, rfl⟩
    refine ⟨(node, connection), ⟨⟨(node, tos), entry, ?_⟩, isMain⟩, rfl⟩
    simp only [selected, not_true_eq_false, if_false, List.mem_map, List.mem_filter,
      decide_eq_true_eq]
    exact ⟨connection, ⟨member, outside⟩, rfl⟩

/-- Without errors on one side of the boundary there is at most one node there, and it is the
first of the nodes on both lists.
-/
theorem first?_of_boundaryErrors {innerNode : String → ExtractableErrorResult}
    {multipleNodes : OrderedSet String → ExtractableErrorResult}
    {boundaryNodes nodes : OrderedSet String}
    (none : boundaryErrors innerNode multipleNodes boundaryNodes nodes = []) (node : String)
    : node ∈ boundaryNodes ↔ (intersection nodes boundaryNodes).first? = some node := by
  simp only [boundaryErrors, List.append_eq_nil_iff, List.map_eq_nil_iff] at none
  obtain ⟨noInner, notMultiple⟩ := none
  have atMostOne : (intersection nodes boundaryNodes).size ≤ 1 := by
    by_contra more
    rw [if_pos (by omega)] at notMultiple
    contradiction
  rw [OrderedSet.first?_eq_some_iff atMostOne]
  simp only [intersection, OrderedSet.mem_ofList, List.mem_filter, decide_eq_true_eq]
  constructor
  · intro boundary
    refine ⟨?_, boundary⟩
    by_contra inner
    have leftOver : node ∈ difference boundaryNodes nodes :=
      OrderedSet.mem_deleteAll.mpr ⟨boundary, inner⟩
    rw [OrderedSet.mem_def, noInner] at leftOver
    contradiction
  · exact fun both => both.2

theorem start_of_inputErrors (none : inputErrors graphIds adjacencyList = []) (node : String)
    : Enters graphIds adjacencyList node
      ↔ (boundaries graphIds adjacencyList).start = some node :=
  mem_inputNodes_iff.symm.trans (first?_of_boundaryErrors none node)

theorem end_of_outputErrors (none : outputErrors graphIds adjacencyList = []) (node : String)
    : Leaves graphIds adjacencyList node
      ↔ (boundaries graphIds adjacencyList).end_ = some node :=
  mem_outputNodes_iff.symm.trans (first?_of_boundaryErrors none node)

variable {start end_ : String}

theorem hasPath_iff
    : hasPath start end_ adjacencyList = true
      ↔ Reaches (mainNodes adjacencyList) start end_ := by
  unfold hasPath
  rw [search_iff (fun vertex member => absurd member (OrderedSet.not_mem_empty vertex))]
  constructor
  · rintro ⟨vertex, none | onStack, path⟩
    · exact absurd none (OrderedSet.not_mem_empty vertex)
    · exact List.mem_singleton.mp onStack ▸ path
  · exact fun path => ⟨start, .inr (List.mem_singleton_self start), path⟩

theorem PathInside.reaches (path : PathInside graphIds adjacencyList start end_)
    : Reaches (mainNodes adjacencyList) start end_ :=
  path.lift id fun _ _ step => step.2.2

/-- Where nothing but the end leaves the selection, a path from inside it to the end stays
inside up to its first visit of the end.
-/
theorem pathInside_iff (startInside : start ∈ graphIds)
    (onlyExit : ∀ node, Leaves graphIds adjacencyList node → node = end_)
    : PathInside graphIds adjacencyList start end_
      ↔ Reaches (mainNodes adjacencyList) start end_ := by
  constructor
  · exact PathInside.reaches
  · intro path
    induction path using Relation.ReflTransGen.head_induction_on with
    | refl => exact .refl
    | @head node next edge _ ih =>
        by_cases inside : next ∈ graphIds
        · exact .head ⟨startInside, inside, edge⟩ (ih inside)
        · rw [onlyExit node ⟨startInside, next, inside, edge⟩]
          exact .refl

variable {data : ExtractableSubgraphData}

theorem pathErrors_eq_nil_iff
    : pathErrors adjacencyList data = []
      ↔ ∀ start end_, data.start = some start → data.end_ = some end_ → start ≠ ""
          → end_ ≠ "" → hasPath start end_ adjacencyList = true := by
  obtain ⟨start, end_⟩ := data
  cases start with
  | none => simp [pathErrors]
  | some start =>
      cases end_ with
      | none | some => simp [pathErrors]

theorem parseExtractableSubgraphSelection_eq_ok_iff
    : parseExtractableSubgraphSelection graphIds adjacencyList = .ok data
      ↔ (inputErrors graphIds adjacencyList = [] ∧ outputErrors graphIds adjacencyList = []
          ∧ pathErrors adjacencyList (boundaries graphIds adjacencyList) = [])
        ∧ boundaries graphIds adjacencyList = data := by
  simp only [parseExtractableSubgraphSelection]
  rw [← and_assoc, ← List.append_eq_nil_iff, ← List.append_eq_nil_iff,
    ← List.length_eq_zero_iff]
  split
  case isTrue errors =>
    constructor
    · intro same
      contradiction
    · exact fun both => absurd both.1 (by omega)
  case isFalse none =>
    constructor
    · exact fun same => ⟨by omega, Except.ok.inj same⟩
    · exact fun both => congrArg Except.ok both.2

/-- The edge from `a` enters the node with the empty name, that of `b` leaves to `c`. -/
def twoEdges : IConnectionAdjacencyList :=
  ⟨[("a", [⟨"", .main, 0⟩]), ("b", [⟨"c", .main, 0⟩])], by decide⟩

end N8n.Graph
