import N8n.Library.Objects
import N8n.Workflow.Interfaces

/-! Nodes connected to a node
(`packages/workflow/src/common/get-connected-nodes.ts` and `workflow.ts`).
-/

namespace N8n

/-- The properties that every object has without owning them. -/
def inheritedNames : List String := Objects.objectPrototype ++ ["__proto__"]

/-- `connections.hasOwnProperty(nodeName)`. A node of that name hides the method. -/
def IConnections.hasOwnProperty (connections : IConnections) (nodeName : String)
    : Except JsError Bool :=
  if "hasOwnProperty" ∈ connections.keys then .error .typeError
  else .ok (nodeName ∈ connections.keys)

/-- The `connectionType` argument of `getConnectedNodes`. -/
inductive ConnectionSelector where
  | single (type : NodeConnectionType)
  | all
  | allNonMain
  deriving DecidableEq, Repr

def ConnectionSelector.types (selector : ConnectionSelector) (connections : INodeConnections)
    : List NodeConnectionType :=
  match selector with
  | .all => connections.keys
  | .allNonMain => connections.keys.filter (· ≠ .main)
  | .single type => [type]

/-- Moves or puts each of `addNodes`, the last one first, to the front. -/
def unshiftAll (addNodes returnNodes : List String) : List String :=
  addNodes.foldr (fun parentNodeName nodes => parentNodeName :: nodes.erase parentNodeName)
    returnNodes

/-- `depth` counts down, `none` stands for the default -1. Each call checks a further
node that has connections, so `fuel` above the number of such nodes is never used up.
-/
def getConnectedNodes.go (connections : IConnections) (selector : ConnectionSelector)
    : Nat → String → Option Nat → List String → List String
  | 0, _, _, _ => []
  | fuel + 1, nodeName, depth, checkedNodesIncoming =>
      if depth = some 0 then []
      else
        match connections.get? nodeName with
        | none => []
        | some nodeConnections =>
            (selector.types nodeConnections).foldl
              (fun returnNodes type =>
                match nodeConnections.get? type with
                | none => returnNodes
                | some byIndex =>
                    if nodeName ∈ checkedNodesIncoming then returnNodes
                    else
                      let checkedNodes := checkedNodesIncoming ++ [nodeName]
                      (byIndex.flatMap (fun connections => connections.getD [])).foldl
                        (fun nodes connection =>
                          if connection.node ∈ checkedNodes then nodes
                          else
                            unshiftAll
                              (getConnectedNodes.go connections selector fuel connection.node
                                (depth.map (fun depth => depth - 1)) checkedNodes)
                              (connection.node :: nodes))
                        returnNodes)
              []

def getConnectedNodes (connections : IConnections) (nodeName : String)
    (connectionType : ConnectionSelector) (depth : Option Nat)
    : List String :=
  getConnectedNodes.go connections connectionType (connections.entries.length + 1) nodeName
    depth []

/-- The call as it ends. The table stays the same, so that the first look at it decides for
all of them.
-/
def callGetConnectedNodes (connections : IConnections) (nodeName : String)
    (connectionType : ConnectionSelector) (depth : Option Nat)
    : Except JsError (List String) :=
  if depth = some 0 then .ok []
  else (connections.hasOwnProperty nodeName).map (fun _ =>
    getConnectedNodes connections nodeName connectionType depth)

structure Workflow where
  nodes : Dict String INode
  connectionsBySourceNode : IConnections
  connectionsByDestinationNode : IConnections
  settings : IWorkflowSettings

namespace Workflow

def getNode (self : Workflow) (nodeName : String) : Option INode := self.nodes.get? nodeName

def getParentNodes (self : Workflow) (nodeName : String) : List String :=
  getConnectedNodes self.connectionsByDestinationNode nodeName (.single .main) none

/-- `connectionsByDestinationNode[nodeName]?.main`, with no inputs for an unknown node. -/
def mainInputs (self : Workflow) (nodeName : String) : NodeInputConnections :=
  ((self.connectionsByDestinationNode.get? nodeName).bind
    (fun connections => connections.get? .main)).getD []

/-- A main input of the node that some connection ends at. -/
def ConnectedInput (self : Workflow) (nodeName : String) (inputIndex : Nat) : Prop :=
  (self.mainInputs nodeName).at inputIndex ≠ []

instance (self : Workflow) (nodeName : String) (inputIndex : Nat)
    : Decidable (self.ConnectedInput nodeName inputIndex) :=
  inferInstanceAs (Decidable (_ ≠ _))

theorem ConnectedInput.lt_length {self : Workflow} {nodeName : String} {inputIndex : Nat}
    (connected : self.ConnectedInput nodeName inputIndex)
    : inputIndex < (self.mainInputs nodeName).length := by
  by_contra outside
  apply connected
  simp [NodeInputConnections.at, List.getElem?_eq_none (Nat.le_of_not_lt outside)]

end Workflow

end N8n
