import N8n.Codegen.SemanticRegistry
import N8n.Library.Dict

/-! The semantic graph of a workflow up to its connections
(`packages/@n8n/workflow-sdk/src/codegen/semantic-graph.ts`); its roots are found later and
change nothing here.
-/

namespace N8n.Codegen

structure ConnectionTarget where
  node : String
  type : String
  index : Nat
  deriving DecidableEq, Repr

/-- A slot of connections before it is normalized: a connection in the short form, or connections
whose index may be missing.
-/
inductive RawSlot where
  | missing
  | tuple (node : String) (type : Option String) (index : Option Nat)
  | targets (targets : List (String × String × Option Nat))
  deriving DecidableEq

/-- The connections of each node and type, by output. -/
abbrev IConnections := Dict String (Dict String (List RawSlot))

structure WorkflowJSON where
  nodes : List NodeJSON
  connections : IConnections

structure SemanticConnection where
  target : String
  targetInputSlot : String
  deriving DecidableEq, Repr

/-- The connections of a node, by the names of its outputs. -/
abbrev NodeOutputs := Dict String (List SemanticConnection)

structure SourceInfo where
  fromNode : String
  outputSlot : String
  deriving DecidableEq, Repr

structure SubnodeConnection where
  connectionType : String
  subnodeName : String
  index : Nat
  deriving DecidableEq, Repr

structure SemanticNode where
  name : String
  json : NodeJSON
  outputs : NodeOutputs
  inputSources : Dict String (List SourceInfo)
  subnodes : List SubnodeConnection

/-- `graph.nodes`. -/
abbrev SemanticGraph := Dict String SemanticNode

def AI_CONNECTION_TYPES : List String :=
  ["ai_languageModel", "ai_memory", "ai_tool", "ai_outputParser", "ai_embedding",
    "ai_vectorStore", "ai_retriever", "ai_document", "ai_textSplitter", "ai_reranker"]

theorem exists_free_name (baseName : String) (taken : List String)
    : ∃ counter, baseName ++ " " ++ toString (counter + 2) ∉ taken :=
  Text.exists_numbered_not_mem (baseName ++ " ") 2 taken

/-- The first free one of `name 2`, `name 3` and so on. -/
def generateUniqueName (baseName : String) (taken : List String) : String :=
  baseName ++ " " ++ toString (Nat.find (exists_free_name baseName taken) + 2)

/-- `type.split('.').pop()`. -/
def typeSuffix (type : String) : String :=
  String.ofList ((type.toList.reverse.takeWhile (fun char => char ≠ '.')).reverse)

/-- The names under which nodes are in the graph; those without a name are counted by the end of
their types.
-/
def nameNodes : List NodeJSON → List String → Dict String Nat → List (String × NodeJSON)
  | [], _, _ => []
  | node :: rest, taken, unnamedCounters =>
      match node.name.filter (fun name => name ≠ "") with
      | none =>
          let suffix := typeSuffix node.type
          let counter := (unnamedCounters.get? suffix).getD 0 + 1
          let name := "__unnamed_" ++ suffix ++ "_" ++ toString counter ++ "__"
          (name, node) :: nameNodes rest (name :: taken) (unnamedCounters.set suffix counter)
      | some name =>
          let unique := if name ∈ taken then generateUniqueName name taken else name
          (unique, node) :: nameNodes rest (unique :: taken) unnamedCounters

def WorkflowJSON.namedNodes (json : WorkflowJSON) : List (String × NodeJSON) :=
  nameNodes json.nodes [] Dict.empty

def createSemanticNode (name : String) (json : NodeJSON) : SemanticNode :=
  ⟨name, json, Dict.empty, Dict.empty, []⟩

def createNodes (namedNodes : List (String × NodeJSON)) : SemanticGraph :=
  namedNodes.foldl (fun graph named => graph.set named.1 (createSemanticNode named.1 named.2))
    Dict.empty

def normalizeSlot : RawSlot → Option (List ConnectionTarget)
  | .missing => none
  | .tuple node type index => some [⟨node, type.getD "main", index.getD 0⟩]
  | .targets targets =>
      some (targets.map (fun target => ⟨target.1, target.2.1, target.2.2.getD 0⟩))

def normalizeConnections (outputs : List RawSlot) : List (Option (List ConnectionTarget)) :=
  outputs.map normalizeSlot

variable (toNumber : ToNumber)

/-- Records a connection at the input of its target; one to a node that does not exist is
skipped.
-/
def parseTarget (sourceName outputName : String)
    (parsed : SemanticGraph × List SemanticConnection) (target : ConnectionTarget)
    : Except JsError (SemanticGraph × List SemanticConnection) :=
  match parsed.1.get? target.node with
  | none => .ok parsed
  | some targetNode => do
      let inputSlot ← getInputName toNumber targetNode.json.type target.index targetNode.json
      let sources := (targetNode.inputSources.get? inputSlot).getD []
      let inputSources := targetNode.inputSources.set inputSlot (sources ++ [⟨sourceName, outputName⟩])
      return (parsed.1.set target.node { targetNode with inputSources },
        parsed.2 ++ [⟨target.node, inputSlot⟩])

def setOutput (sourceName outputName : String)
    (parsed : SemanticGraph × List SemanticConnection)
    : SemanticGraph :=
  match parsed.2, parsed.1.get? sourceName with
  | _ :: _, some sourceNode =>
      parsed.1.set sourceName
        { sourceNode with outputs := sourceNode.outputs.set outputName parsed.2 }
  | _, _ => parsed.1

def parseMainOutput (sourceName : String) (source : NodeJSON) (graph : SemanticGraph)
    (output : Option (List ConnectionTarget) × Nat)
    : Except JsError SemanticGraph :=
  match output.1 with
  | none => .ok graph
  | some targets => do
      let outputName ← getOutputName toNumber source.type output.2 source
      let parsed ← targets.foldlM (parseTarget toNumber sourceName outputName) (graph, [])
      return setOutput sourceName outputName parsed

def parseMainConnections (sourceName : String)
    (outputs : List (Option (List ConnectionTarget))) (graph : SemanticGraph)
    : Except JsError SemanticGraph :=
  match graph.get? sourceName with
  | none => .ok graph
  | some sourceNode =>
      outputs.zipIdx.foldlM (parseMainOutput toNumber sourceName sourceNode.json) graph

def parseErrorConnections (sourceName : String)
    (outputs : List (Option (List ConnectionTarget))) (graph : SemanticGraph)
    : Except JsError SemanticGraph :=
  match graph.get? sourceName with
  | none => .ok graph
  | some _ => do
      let targets := outputs.flatMap (fun targets => targets.getD [])
      let parsed ← targets.foldlM (parseTarget toNumber sourceName "error") (graph, [])
      return setOutput sourceName "error" parsed

def parseAiConnections (sourceName connectionType : String)
    (outputs : List (Option (List ConnectionTarget))) (graph : SemanticGraph)
    : SemanticGraph :=
  match graph.get? sourceName with
  | none => graph
  | some _ =>
      (outputs.flatMap (fun targets => targets.getD [])).foldl
        (fun graph target =>
          match graph.get? target.node with
          | none => graph
          | some parentNode =>
              graph.set target.node
                { parentNode with
                    subnodes := parentNode.subnodes ++ [⟨connectionType, sourceName, target.index⟩] })
        graph

def parseConnections (sourceName : String) (graph : SemanticGraph)
    (connections : String × List RawSlot)
    : Except JsError SemanticGraph :=
  let outputs := normalizeConnections connections.2
  if connections.1 = "main" then parseMainConnections toNumber sourceName outputs graph
  else if connections.1 = "error" then parseErrorConnections toNumber sourceName outputs graph
  else if connections.1 ∈ AI_CONNECTION_TYPES then
    .ok (parseAiConnections sourceName connections.1 outputs graph)
  else .ok graph

def parseNodeConnections (graph : SemanticGraph)
    (node : String × Dict String (List RawSlot))
    : Except JsError SemanticGraph :=
  node.2.entries.foldlM (parseConnections toNumber node.1) graph

/-- Subnodes are in the order of their indexes. -/
def sortSubnodes (graph : SemanticGraph) : SemanticGraph :=
  graph.mapValues (fun node =>
    { node with
        subnodes := node.subnodes.insertionSort (fun first second => first.index ≤ second.index) })

def buildSemanticGraph (json : WorkflowJSON) : Except JsError SemanticGraph := do
  let graph ←
    json.connections.entries.foldlM (parseNodeConnections toNumber) (createNodes json.namedNodes)
  return sortSubnodes graph

end N8n.Codegen
