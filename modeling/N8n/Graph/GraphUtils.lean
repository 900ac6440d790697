import N8n.Library.StackSearch
import N8n.Workflow.Interfaces

/-! Whether the selected nodes of a workflow can be extracted into a sub-workflow
(`packages/workflow/src/graph/graph-utils.ts`).
-/

namespace N8n.Graph

open Library

/-- The array of errors that a selection is turned down with has these; each constructor
stands for the `errorCode` of its name.
-/
inductive ExtractableErrorResult where
  | multipleInputNodes (nodes : OrderedSet String)
  | multipleOutputNodes (nodes : OrderedSet String)
  | inputEdgeToNonRootNode (node : String)
  | outputEdgeFromNonLeafNode (node : String)
  | noContinuousPathFromRootToLeafInSelection (start end_ : String)
  deriving DecidableEq

/-- The connections of a node are a set of objects, of which two may look the same. -/
abbrev IConnectionAdjacencyList := Dict String (List IConnection)

/-- All edges that lead into the graph. -/
def getInputEdges (graphIds : OrderedSet String) (adjacencyList : IConnectionAdjacencyList)
    : List (String × IConnection) :=
  adjacencyList.entries.flatMap (fun (source, tos) =>
    if source ∈ graphIds then []
    else (tos.filter (fun target => target.node ∈ graphIds)).map (fun target => (source, target)))

/-- All edges that lead out of the graph. -/
def getOutputEdges (graphIds : OrderedSet String) (adjacencyList : IConnectionAdjacencyList)
    : List (String × IConnection) :=
  adjacencyList.entries.flatMap (fun (source, tos) =>
    if source ∉ graphIds then []
    else (tos.filter (fun target => target.node ∉ graphIds)).map (fun target => (source, target)))

def intersection (a b : OrderedSet String) : OrderedSet String :=
  .ofList (a.elements.filter (· ∈ b))

def union (a b : OrderedSet String) : OrderedSet String := .ofList (a.elements ++ b.elements)

def difference (minuend subtrahend : OrderedSet String) : OrderedSet String :=
  minuend.deleteAll subtrahend.elements

/-- The nodes that the main edges of a node lead to. -/
def mainNodes (adjacencyList : IConnectionAdjacencyList) (nodeId : String) : List String :=
  (((adjacencyList.get? nodeId).getD []).filter (fun x => x.type = .main)).map
    IConnection.node

/-- The same without the node itself. -/
def otherMainNodes (adjacencyList : IConnectionAdjacencyList) (nodeId : String)
    : List String :=
  (((adjacencyList.get? nodeId).getD []).filter (fun x =>
    x.type = .main ∧ x.node ≠ nodeId)).map IConnection.node

def getRootNodes (graphIds : OrderedSet String) (adjacencyList : IConnectionAdjacencyList)
    : OrderedSet String :=
  -- all nodes with an incoming edge from another node in the graph
  let innerNodes := graphIds.elements.foldl
    (fun innerNodes nodeId => union innerNodes (.ofList (otherMainNodes adjacencyList nodeId)))
    .empty
  difference graphIds innerNodes

def getLeafNodes (graphIds : OrderedSet String) (adjacencyList : IConnectionAdjacencyList)
    : OrderedSet String :=
  graphIds.elements.foldl
    (fun result nodeId =>
      if (intersection (.ofList (otherMainNodes adjacencyList nodeId)) graphIds).size = 0 then
        result.insert nodeId
      else result)
    .empty

/-- The start, and all nodes that main edges lead to. -/
def pathNodes (start : String) (adjacencyList : IConnectionAdjacencyList)
    : Arena (mainNodes adjacencyList) where
  vertices := start :: adjacencyList.keys.flatMap (mainNodes adjacencyList)
  closed nodeId _ next edge := by
    refine List.mem_cons_of_mem start (List.mem_flatMap.mpr ⟨nodeId, ?_, edge⟩)
    by_contra absent
    simp [mainNodes, Dict.get?_eq_none_iff.mpr absent] at edge

theorem start_mem_pathNodes {start : String} {adjacencyList : IConnectionAdjacencyList}
    : ∀ nodeId ∈ [start], nodeId ∈ (pathNodes start adjacencyList).vertices :=
  fun _ member => List.mem_singleton.mp member ▸ (.head _)

def hasPath (start end_ : String) (adjacencyList : IConnectionAdjacencyList) : Bool :=
  search (pathNodes start adjacencyList) end_ [start] start_mem_pathNodes .empty

structure ExtractableSubgraphData where
  start : Option String
  end_ : Option String
  deriving DecidableEq

section Selection

variable (graphIds : OrderedSet String) (adjacencyList : IConnectionAdjacencyList)

-- sub-nodes, which are technically parents, have no main edges
def inputNodes : OrderedSet String :=
  .ofList (((getInputEdges graphIds adjacencyList).filter (fun x => x.2.type = .main)).map
    (fun x => x.2.node))

def outputNodes : OrderedSet String :=
  .ofList (((getOutputEdges graphIds adjacencyList).filter (fun x => x.2.type = .main)).map
    (fun x => x.1))

/-- Without any root, or any leaf, a single boundary node is taken for one: there may be a
loop back to it.
-/
def orSingle (nodes boundaryNodes : OrderedSet String) : OrderedSet String :=
  if nodes.size = 0 ∧ boundaryNodes.size = 1 then boundaryNodes else nodes

def rootNodes : OrderedSet String :=
  orSingle (getRootNodes graphIds adjacencyList) (inputNodes graphIds adjacencyList)

def leafNodes : OrderedSet String :=
  orSingle (getLeafNodes graphIds adjacencyList) (outputNodes graphIds adjacencyList)

/-- The errors for the nodes on one side of the boundary. -/
def boundaryErrors (innerNode : String → ExtractableErrorResult)
    (multipleNodes : OrderedSet String → ExtractableErrorResult)
    (boundaryNodes nodes : OrderedSet String)
    : List ExtractableErrorResult :=
  let both := intersection nodes boundaryNodes
  (difference boundaryNodes nodes).elements.map innerNode
    ++ if both.size > 1 then [multipleNodes both] else []

def inputErrors : List ExtractableErrorResult :=
  boundaryErrors .inputEdgeToNonRootNode .multipleInputNodes
    (inputNodes graphIds adjacencyList) (rootNodes graphIds adjacencyList)

def outputErrors : List ExtractableErrorResult :=
  boundaryErrors .outputEdgeFromNonLeafNode .multipleOutputNodes
    (outputNodes graphIds adjacencyList) (leafNodes graphIds adjacencyList)

def boundaries : ExtractableSubgraphData where
  start :=
    (intersection (rootNodes graphIds adjacencyList) (inputNodes graphIds adjacencyList)).first?
  end_ :=
    (intersection (leafNodes graphIds adjacencyList)
      (outputNodes graphIds adjacencyList)).first?

/-- The check of `start && end`: the empty text counts as no node. -/
def pathErrors (data : ExtractableSubgraphData) : List ExtractableErrorResult :=
  match data.start, data.end_ with
  | some start, some end_ =>
      if start ≠ "" ∧ end_ ≠ "" ∧ hasPath start end_ adjacencyList = false then
        [.noContinuousPathFromRootToLeafInSelection start end_]
      else []
  | _, _ => []

/-- Returns the array of errors, or the nodes with outside connections. -/
def parseExtractableSubgraphSelection
    : Except (List ExtractableErrorResult) ExtractableSubgraphData :=
  let errors := inputErrors graphIds adjacencyList ++ outputErrors graphIds adjacencyList
    ++ pathErrors adjacencyList (boundaries graphIds adjacencyList)
  if errors.length > 0 then .error errors else .ok (boundaries graphIds adjacencyList)

end Selection

end N8n.Graph
