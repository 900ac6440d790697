import N8n.Codegen.SemanticGraph
import N8n.Codegen.SlotNames

/-! What the semantic graph has under the names of the outputs, for nodes whose names tell
their indexes.
-/

namespace N8n.Codegen

variable {toNumber : ToNumber} {graph after : SemanticGraph} {jsons : String → Option NodeJSON}

def jsonAt (graph : SemanticGraph) (key : String) : Option NodeJSON :=
  (graph.get? key).map SemanticNode.json

def outputsAt (graph : SemanticGraph) (key : String) : Option NodeOutputs :=
  (graph.get? key).map SemanticNode.outputs

def AllPlain (toNumber : ToNumber) (jsons : String → Option NodeJSON) : Prop :=
  ∀ key json, jsons key = some json → Plain toNumber json

/-- The connection for a target, if the target exists. -/
def connectionTo (toNumber : ToNumber) (jsons : String → Option NodeJSON)
    (target : ConnectionTarget)
    : Option SemanticConnection :=
  (jsons target.node).bind (fun json =>
    ((getInputName toNumber json.type target.index json).toOption).map (fun slot =>
      ⟨target.node, slot⟩))

def connectionsTo (toNumber : ToNumber) (jsons : String → Option NodeJSON)
    (targets : List ConnectionTarget)
    : List SemanticConnection :=
  targets.filterMap (connectionTo toNumber jsons)

/-- Connections are stored when there are some. -/
def storeOutput (outputs : NodeOutputs) (name : String)
    (connections : List SemanticConnection)
    : NodeOutputs :=
  if connections = [] then outputs else outputs.set name connections

/-- The name of an output of a node. -/
def nameAt (toNumber : ToNumber) (jsons : String → Option NodeJSON) (key : String) (index : Nat)
    : String :=
  ((jsons key).bind (fun json => (getOutputName toNumber json.type index json).toOption)).getD ""

/-- What the connections of one type store among the outputs of their source. -/
def storeConnections (toNumber : ToNumber) (jsons : String → Option NodeJSON) (key : String)
    (outputs : NodeOutputs) (connections : String × List RawSlot)
    : NodeOutputs :=
  let slots := normalizeConnections connections.2
  if connections.1 = "main" then
    slots.zipIdx.foldl
      (fun outputs output =>
        storeOutput outputs (nameAt toNumber jsons key output.2)
          (connectionsTo toNumber jsons (output.1.getD [])))
      outputs
  else if connections.1 = "error" then
    storeOutput outputs "error"
      (connectionsTo toNumber jsons (slots.flatMap (fun targets => targets.getD [])))
  else outputs

/-- A step that stores outputs, those of each node by `change`. -/
structure Stores (change : String → NodeOutputs → NodeOutputs) (before after : SemanticGraph)
    : Prop where
  jsons : jsonAt after = jsonAt before
  outputs : ∀ key, outputsAt after key = (outputsAt before key).map (change key)

theorem Stores.refl (graph : SemanticGraph) : Stores (fun _ => id) graph graph :=
  ⟨rfl, fun key => by simp⟩

theorem Stores.trans {first second : String → NodeOutputs → NodeOutputs}
    {before middle after : SemanticGraph} (stores : Stores first before middle)
    (later : Stores second middle after)
    : Stores (fun key outputs => second key (first key outputs)) before after :=
  ⟨later.jsons.trans stores.jsons, fun key => by
    rw [later.outputs, stores.outputs, Option.map_map]
    rfl⟩

theorem Stores.congr {change other : String → NodeOutputs → NodeOutputs}
    {before after : SemanticGraph} (stores : Stores change before after)
    (same
      : ∀ key outputs, outputsAt before key = some outputs → change key outputs = other key outputs)
    : Stores other before after :=
  ⟨stores.jsons, fun key => by
    rw [stores.outputs]
    cases found : outputsAt before key with
    | none => rfl
    | some outputs => rw [Option.map_some, Option.map_some, same key outputs found]⟩

/-- A node is replaced by one with the same JSON. -/
theorem Stores.of_set {key : String} {node : SemanticNode} (found : graph.get? key = some node)
    (changed : SemanticNode) (sameJson : changed.json = node.json)
    (change : NodeOutputs → NodeOutputs) (isChange : changed.outputs = change node.outputs)
    : Stores (fun other => if other = key then change else id) graph (graph.set key changed) := by
  constructor
  · funext other
    simp only [jsonAt, Dict.get?_set]
    split
    · next same => simp [same, found, sameJson]
    · rfl
  · intro other
    simp only [outputsAt, Dict.get?_set]
    split
    · next same => simp [same, found, isChange]
    · simp

section

variable (plain : AllPlain toNumber (jsonAt graph)) (sourceName outputName : String)
  (connections : List SemanticConnection)

include plain sourceName outputName connections

/-- A target is recorded at its input, and its connection is added to those of the output. -/
theorem parseTarget_stores (target : ConnectionTarget)
    : ∃ parsed,
        parseTarget toNumber sourceName outputName (graph, connections) target = .ok parsed
        ∧ Stores (fun _ => id) graph parsed.1
        ∧ parsed.2 = connections ++ connectionsTo toNumber (jsonAt graph) [target] := by
  unfold parseTarget
  cases found : graph.get? target.node with
  | none =>
      refine ⟨_, rfl, .refl graph, ?_⟩
      simp [connectionsTo, connectionTo, jsonAt, found]
  | some targetNode =>
      have isPlain : Plain toNumber targetNode.json :=
        plain target.node targetNode.json (by simp [jsonAt, found])
      obtain ⟨inputSlot, named, -⟩ := isPlain.inputs target.index
      simp only [named]
      refine ⟨_, rfl, ?_, ?_⟩
      · let inputSources :=
          targetNode.inputSources.set inputSlot
            ((targetNode.inputSources.get? inputSlot).getD [] ++ [⟨sourceName, outputName⟩])
        have stores := Stores.of_set found { targetNode with inputSources } rfl id rfl
        exact stores.congr (fun key _ _ => by split <;> rfl)
      · simp [connectionsTo, connectionTo, jsonAt, found, named, Except.toOption]

theorem parseTargets_stores (targets : List ConnectionTarget)
    : ∃ parsed,
        targets.foldlM (parseTarget toNumber sourceName outputName) (graph, connections) = .ok parsed
        ∧ Stores (fun _ => id) graph parsed.1
        ∧ parsed.2 = connections ++ connectionsTo toNumber (jsonAt graph) targets := by
  induction targets generalizing graph connections with
  | nil => exact ⟨_, rfl, .refl graph, by simp [connectionsTo]⟩
  | cons target rest ih =>
      obtain ⟨middle, first, stores, added⟩ :=
        parseTarget_stores plain sourceName outputName connections target
      have plainMiddle : AllPlain toNumber (jsonAt middle.1) := stores.jsons ▸ plain
      obtain ⟨last, later, moreStores, moreAdded⟩ := ih plainMiddle middle.2
      refine ⟨last, ?_, stores.trans moreStores, ?_⟩
      · rw [List.foldlM_cons, first]
        exact later
      · rw [moreAdded, added, stores.jsons, List.append_assoc]
        congr 1
        simp only [connectionsTo, ← List.filterMap_append]
        rfl

end

theorem setOutput_stores {sourceName : String} {source : SemanticNode}
    (found : graph.get? sourceName = some source) (outputName : String)
    (connections : List SemanticConnection)
    : Stores
        (fun key outputs =>
          if key = sourceName then storeOutput outputs outputName connections else outputs)
        graph (setOutput sourceName outputName (graph, connections)) := by
  unfold setOutput
  cases connections with
  | nil =>
      simp only
      exact (Stores.refl graph).congr (fun key outputs _ => by split <;> rfl)
  | cons first rest =>
      simp only [found]
      let change (outputs : NodeOutputs) : NodeOutputs := outputs.set outputName (first :: rest)
      have stores := Stores.of_set found { source with outputs := change source.outputs } rfl change rfl
      refine stores.congr (fun key outputs _ => ?_)
      split <;> rfl

/-- Changes of the outputs of one node. -/
def only (sourceName : String) (change : NodeOutputs → NodeOutputs) (key : String)
    (outputs : NodeOutputs)
    : NodeOutputs :=
  if key = sourceName then change outputs else outputs

theorem foldl_only {α : Type} (sourceName : String) (change : NodeOutputs → α → NodeOutputs)
    (elements : List α) (key : String) (outputs : NodeOutputs)
    : elements.foldl (fun outputs a => only sourceName (fun stored => change stored a) key outputs)
        outputs
      = only sourceName (fun stored => elements.foldl change stored) key outputs := by
  by_cases same : key = sourceName
  · simp [only, same]
  · simp only [only, same, if_false]
    induction elements with
    | nil => rfl
    | cons a rest ih => exact ih

theorem parseMainOutput_stores (plain : AllPlain toNumber (jsonAt graph)) {sourceName : String}
    {source : NodeJSON} (isSource : jsonAt graph sourceName = some source)
    (output : Option (List ConnectionTarget) × Nat)
    : ∃ after,
        parseMainOutput toNumber sourceName source graph output = .ok after
        ∧ Stores
          (only sourceName (fun outputs =>
            storeOutput outputs (nameAt toNumber (jsonAt graph) sourceName output.2)
              (connectionsTo toNumber (jsonAt graph) (output.1.getD []))))
          graph after := by
  obtain ⟨targets, index⟩ := output
  cases targets with
  | none =>
      exact ⟨graph, rfl, (Stores.refl graph).congr (fun key outputs _ => by
        unfold only; split <;> rfl)⟩
  | some targets =>
      obtain ⟨name, named, -⟩ := (plain sourceName source isSource).decodes.outputs index
      obtain ⟨parsed, isParsed, stores, collected⟩ :=
        parseTargets_stores plain sourceName name [] targets
      have isName : nameAt toNumber (jsonAt graph) sourceName index = name := by
        simp [nameAt, isSource, named, Except.toOption]
      obtain ⟨node, found, -⟩ := Option.map_eq_some_iff.mp (stores.jsons ▸ isSource)
      refine ⟨setOutput sourceName name parsed, ?_, ?_⟩
      · simp only [parseMainOutput, named, bind, Except.bind, isParsed]
        rfl
      · refine (stores.trans (setOutput_stores found name parsed.2)).congr (fun key outputs _ => ?_)
        simp only [collected, List.nil_append, isName, only, Option.getD_some, id]

/-- Steps one after the other, whose changes do not depend on what was stored. -/
theorem foldlM_stores {α : Type} {step : SemanticGraph → α → Except JsError SemanticGraph}
    {change : String → NodeOutputs → α → NodeOutputs} (elements : List α)
    (each
      : ∀ middle, jsonAt middle = jsonAt graph → ∀ a ∈ elements,
          ∃ after,
            step middle a = .ok after
            ∧ Stores (fun key outputs => change key outputs a) middle after)
    : ∃ after,
        elements.foldlM step graph = .ok after
        ∧ Stores (fun key outputs => elements.foldl (change key) outputs) graph after := by
  have onward (middle : SemanticGraph) (same : jsonAt middle = jsonAt graph) (some : List α)
      (isPart : some ⊆ elements)
      : ∃ after,
          some.foldlM step middle = .ok after
          ∧ Stores (fun key outputs => some.foldl (change key) outputs) middle after := by
    induction some generalizing middle with
    | nil => exact ⟨middle, rfl, .refl middle⟩
    | cons a rest ih =>
        obtain ⟨next, taken, stores⟩ := each middle same a (isPart (.head _))
        obtain ⟨after, later, moreStores⟩ :=
          ih next (stores.jsons.trans same) (fun b member => isPart (.tail _ member))
        refine ⟨after, ?_, stores.trans moreStores⟩
        rw [List.foldlM_cons, taken]
        exact later
  exact onward graph rfl elements (List.Subset.refl _)

section

variable (plain : AllPlain toNumber (jsonAt graph)) (sourceName : String)
  (outputs : List (Option (List ConnectionTarget)))

include plain sourceName outputs

theorem parseMainConnections_stores
    : ∃ after,
        parseMainConnections toNumber sourceName outputs graph = .ok after
        ∧ Stores
          (only sourceName (fun stored =>
            outputs.zipIdx.foldl
              (fun stored output =>
                storeOutput stored (nameAt toNumber (jsonAt graph) sourceName output.2)
                  (connectionsTo toNumber (jsonAt graph) (output.1.getD [])))
              stored))
          graph after := by
  unfold parseMainConnections
  cases found : graph.get? sourceName with
  | none =>
      refine ⟨graph, rfl, (Stores.refl graph).congr (fun key stored isStored => ?_)⟩
      unfold only
      split
      · next same =>
          subst same
          simp [outputsAt, found] at isStored
      · rfl
  | some sourceNode =>
      have isSource : jsonAt graph sourceName = some sourceNode.json := by simp [jsonAt, found]
      obtain ⟨after, isAfter, stores⟩ :=
        foldlM_stores outputs.zipIdx
          (fun middle same output _ => by
            have isMiddle := same ▸ isSource
            have stores := parseMainOutput_stores (same ▸ plain) isMiddle output
            rwa [same] at stores)
      exact ⟨after, isAfter, stores.congr (fun key stored _ => foldl_only _ _ _ _ _)⟩

theorem parseErrorConnections_stores
    : ∃ after,
        parseErrorConnections toNumber sourceName outputs graph = .ok after
        ∧ Stores
          (only sourceName (fun stored =>
            storeOutput stored "error"
              (connectionsTo toNumber (jsonAt graph)
                (outputs.flatMap (fun targets => targets.getD [])))))
          graph after := by
  unfold parseErrorConnections
  cases found : graph.get? sourceName with
  | none =>
      refine ⟨graph, rfl, (Stores.refl graph).congr (fun key stored isStored => ?_)⟩
      unfold only
      split
      · next same =>
          subst same
          simp [outputsAt, found] at isStored
      · rfl
  | some sourceNode =>
      have isSource : jsonAt graph sourceName = some sourceNode.json := by simp [jsonAt, found]
      obtain ⟨parsed, isParsed, stores, collected⟩ :=
        parseTargets_stores plain sourceName "error" []
          (outputs.flatMap (fun targets => targets.getD []))
      obtain ⟨node, isNode, -⟩ := Option.map_eq_some_iff.mp (stores.jsons ▸ isSource)
      refine ⟨setOutput sourceName "error" parsed, ?_, ?_⟩
      · simp only [bind, Except.bind, isParsed]
        rfl
      · refine (stores.trans (setOutput_stores isNode "error" parsed.2)).congr
          (fun key stored _ => ?_)
        simp only [collected, List.nil_append, only, id]

end

theorem parseAiConnections_stores (sourceName connectionType : String)
    (outputs : List (Option (List ConnectionTarget)))
    : Stores (fun _ => id) graph
        (parseAiConnections sourceName connectionType outputs graph) := by
  unfold parseAiConnections
  split
  · exact .refl graph
  · next isSource =>
      clear isSource
      generalize outputs.flatMap (fun targets => targets.getD []) = targets
      induction targets generalizing graph with
      | nil => exact .refl graph
      | cons target rest ih =>
          rw [List.foldl_cons]
          split
          · exact ih
          · next parentNode found =>
              let subnodes :=
                parentNode.subnodes ++ [⟨connectionType, sourceName, target.index⟩]
              have stores := Stores.of_set found { parentNode with subnodes } rfl id rfl
              exact (stores.congr (fun key _ _ => by split <;> rfl)).trans ih

/-- The connections of one type change the outputs of their source. -/
theorem parseConnections_stores (plain : AllPlain toNumber (jsonAt graph)) (sourceName : String)
    (connections : String × List RawSlot)
    : ∃ after,
        parseConnections toNumber sourceName graph connections = .ok after
        ∧ Stores
          (only sourceName (fun outputs =>
            storeConnections toNumber (jsonAt graph) sourceName outputs connections))
          graph after := by
  have unchanged
      : Stores (only sourceName (fun outputs => outputs)) graph graph :=
    (Stores.refl graph).congr (fun key outputs _ => by unfold only; split <;> rfl)
  unfold parseConnections storeConnections
  simp only
  split
  · exact parseMainConnections_stores plain sourceName _
  · split
    · exact parseErrorConnections_stores plain sourceName _
    · split
      · refine ⟨_, rfl, (parseAiConnections_stores sourceName _ _).congr (fun key outputs _ => ?_)⟩
        unfold only
        split <;> rfl
      · exact ⟨graph, rfl, unchanged⟩

theorem parseNodeConnections_stores (plain : AllPlain toNumber (jsonAt graph))
    (node : String × Dict String (List RawSlot))
    : ∃ after,
        parseNodeConnections toNumber graph node = .ok after
        ∧ Stores
          (only node.1 (fun outputs =>
            node.2.entries.foldl (storeConnections toNumber (jsonAt graph) node.1) outputs))
          graph after := by
  obtain ⟨after, isAfter, stores⟩ :=
    foldlM_stores node.2.entries
      (fun middle same connections _ => by
        have stores := parseConnections_stores (same ▸ plain) node.1 connections
        rwa [same] at stores)
  exact ⟨after, isAfter, stores.congr (fun key outputs _ => foldl_only _ _ _ _ _)⟩

theorem mem_of_mem_nameNodes {nodes : List NodeJSON} {taken : List String}
    {unnamedCounters : Dict String Nat} {named : String × NodeJSON}
    (member : named ∈ nameNodes nodes taken unnamedCounters)
    : named.2 ∈ nodes := by
  induction nodes generalizing taken unnamedCounters with
  | nil => contradiction
  | cons node rest ih =>
      unfold nameNodes at member
      split at member
      all_goals
        rcases List.mem_cons.mp member with rfl | later
        · exact (.head _)
        · exact List.mem_cons_of_mem node (ih later)

theorem createNodes_get? (namedNodes : List (String × NodeJSON)) (key : String)
    : (key ∈ (createNodes namedNodes).keys ↔ key ∈ namedNodes.map Prod.fst)
      ∧ ∀ node, (createNodes namedNodes).get? key = some node
        → (key, node.json) ∈ namedNodes ∧ node.outputs = Dict.empty := by
  unfold createNodes
  induction namedNodes using List.reverseRecOn with
  | nil =>
      refine ⟨Iff.rfl, fun node found => ?_⟩
      contradiction
  | append_singleton before named ih =>
      rw [List.foldl_append, List.foldl_cons, List.foldl_nil]
      constructor
      · rw [Dict.mem_keys_set, ih.1]
        simp [or_comm, eq_comm]
      · intro node found
        rw [Dict.get?_set] at found
        split at found
        · next same =>
            cases found
            exact ⟨by simp [same, createSemanticNode], rfl⟩
        · exact ⟨List.mem_append_left _ (ih.2 node found).1, (ih.2 node found).2⟩

/-- Steps for the entries of a dictionary, of which one has the key. -/
theorem foldl_entries {β γ : Type} (change : String → γ → β → γ) (key : String) (dict : Dict String β)
    (initial : γ)
    : dict.entries.foldl (fun state entry => if key = entry.1 then change key state entry.2 else state)
        initial
      = match dict.get? key with
        | some value => change key initial value
        | none => initial := by
  obtain ⟨entries, distinct⟩ := dict
  simp only [Dict.get?]
  induction entries generalizing initial with
  | nil => rfl
  | cons entry rest ih =>
      obtain ⟨isNew, others⟩ := List.nodup_cons.mp distinct
      rw [List.foldl_cons, List.find?_cons]
      by_cases same : entry.1 = key
      · have skipped (state : γ)
            : rest.foldl
                (fun state entry => if key = entry.1 then change key state entry.2 else state) state
              = state := by
          have later := ih state others
          have absent : rest.find? (fun entry => entry.1 = key) = none := by
            refine List.find?_eq_none.mpr (fun other member isKey => isNew ?_)
            rw [same, ← of_decide_eq_true isKey]
            exact List.mem_map_of_mem member
          rwa [absent] at later
        simp [same, skipped]
      · simp [same, Ne.symm same, ih _ others]

variable {json : WorkflowJSON}

def WorkflowJSON.nodeAt (json : WorkflowJSON) : String → Option NodeJSON :=
  jsonAt (createNodes json.namedNodes)

/-- What the connections of a node store among its outputs. -/
def storedOutputs (toNumber : ToNumber) (json : WorkflowJSON) (key : String) : NodeOutputs :=
  match json.connections.get? key with
  | some types => types.entries.foldl (storeConnections toNumber json.nodeAt key) Dict.empty
  | none => Dict.empty

theorem WorkflowJSON.mem_of_nodeAt {key : String} {node : NodeJSON}
    (found : json.nodeAt key = some node)
    : node ∈ json.nodes := by
  obtain ⟨semanticNode, isNode, rfl⟩ := Option.map_eq_some_iff.mp found
  exact mem_of_mem_nameNodes ((createNodes_get? json.namedNodes key).2 semanticNode isNode).1

theorem WorkflowJSON.nodeAt_isSome (json : WorkflowJSON) (key : String)
    : (json.nodeAt key).isSome ↔ key ∈ json.namedNodes.map Prod.fst := by
  rw [← (createNodes_get? json.namedNodes key).1, nodeAt, jsonAt, Option.isSome_map,
    Option.isSome_iff_ne_none, ne_eq, Dict.get?_eq_none_iff, not_not]

/-- The graph of plain nodes: every node has the outputs that its connections store. -/
theorem buildSemanticGraph_stores (plain : ∀ node ∈ json.nodes, Plain toNumber node)
    : ∃ graph,
        buildSemanticGraph toNumber json = .ok graph
        ∧ jsonAt graph = json.nodeAt
        ∧ ∀ key,
            outputsAt graph key
              = (json.nodeAt key).map (fun _ => storedOutputs toNumber json key) := by
  have allPlain : AllPlain toNumber (jsonAt (createNodes json.namedNodes)) :=
    fun key node found => plain node (WorkflowJSON.mem_of_nodeAt found)
  obtain ⟨after, isAfter, stores⟩ :=
    foldlM_stores json.connections.entries
      (fun middle same node _ => by
        have stores := parseNodeConnections_stores (same ▸ allPlain) node
        rwa [same] at stores)
  have sameJsons : jsonAt (sortSubnodes after) = json.nodeAt := by
    rw [WorkflowJSON.nodeAt, ← stores.jsons]
    funext key
    simp [jsonAt, sortSubnodes, Function.comp_def]
  refine ⟨sortSubnodes after, ?_, sameJsons, fun key => ?_⟩
  · rw [buildSemanticGraph, isAfter]
    rfl
  · have sameOutputs : outputsAt (sortSubnodes after) key = outputsAt after key := by
      simp [outputsAt, sortSubnodes, Function.comp_def]
    rw [sameOutputs, stores.outputs]
    cases found : (createNodes json.namedNodes).get? key with
    | none => simp [WorkflowJSON.nodeAt, outputsAt, jsonAt, found]
    | some node =>
        simp only [WorkflowJSON.nodeAt, outputsAt, jsonAt, found, Option.map_some,
          ((createNodes_get? json.namedNodes key).2 node found).2]
        have changes (outputs : NodeOutputs) (node : String × Dict String (List RawSlot))
            : only node.1
                (fun outputs =>
                  node.2.entries.foldl (storeConnections toNumber json.nodeAt node.1) outputs)
                key outputs
              = if key = node.1 then
                  node.2.entries.foldl (storeConnections toNumber json.nodeAt key) outputs
                else outputs := by
          unfold only
          split
          · next same => rw [same]
          · rfl
        congr 1
        change json.connections.entries.foldl
          (fun outputs node =>
            only node.1
              (fun outputs =>
                node.2.entries.foldl (storeConnections toNumber json.nodeAt node.1) outputs)
              key outputs)
          Dict.empty = _
        simp only [changes]
        rw [foldl_entries
          (fun key outputs (types : Dict String (List RawSlot)) =>
            types.entries.foldl (storeConnections toNumber json.nodeAt key) outputs)]
        unfold storedOutputs
        cases json.connections.get? key <;> rfl

end N8n.Codegen
