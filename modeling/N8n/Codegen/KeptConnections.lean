import N8n.Codegen.StoredOutputs

/-! When the semantic graph of a workflow keeps every connection between its nodes under names
that tell their indexes.
-/

namespace N8n.Codegen

variable {toNumber : ToNumber} {json : WorkflowJSON} {source : String} {node : NodeJSON}

/-- A connection of the workflow, after the connections have been normalized. -/
def WorkflowJSON.Connects (json : WorkflowJSON) (source type : String) (outputIndex : Nat)
    (target : String) (inputIndex : Nat)
    : Prop :=
  ∃ types slots targets connection,
    json.connections.get? source = some types
    ∧ types.get? type = some slots
    ∧ (normalizeConnections slots)[outputIndex]? = some (some targets)
    ∧ connection ∈ targets
    ∧ connection.node = target
    ∧ connection.index = inputIndex

/-- A connection to the input is among those of an output. -/
def HasInput (connections : Option (List SemanticConnection)) (target : String)
    (inputIndex : Nat)
    : Prop :=
  ∃ found,
    connections = some found
    ∧ ∃ connection ∈ found,
        connection.target = target
        ∧ extractInputIndex connection.targetInputSlot = inputIndex

/-- The names of outputs and inputs tell their indexes, and the graph has every connection
between its nodes under such names. Connections of the type `error` are those of the error
output.
-/
structure KeepsConnections (toNumber : ToNumber) (json : WorkflowJSON) : Prop where
  decodes : ∀ node ∈ json.nodes, Decodes toNumber node
  kept
    : ∃ graph,
        buildSemanticGraph toNumber json = .ok graph
        ∧ ∀ source sourceNode outputIndex target inputIndex,
            graph.get? source = some sourceNode
            → target ∈ graph.keys
            → (json.Connects source "main" outputIndex target inputIndex
                → ∃ slot,
                    getOutputName toNumber sourceNode.json.type outputIndex sourceNode.json
                      = .ok slot
                    ∧ (slot ≠ "error" → getOutputIndex slot = outputIndex)
                    ∧ HasInput (sourceNode.outputs.get? slot) target inputIndex)
              ∧ (json.Connects source "error" outputIndex target inputIndex
                → HasInput (sourceNode.outputs.get? "error") target inputIndex)

/-- The targets of a node's error output among its main connections. -/
def errorOutputTargets (toNumber : ToNumber) (node : NodeJSON)
    (outputs : List (Option (List ConnectionTarget)))
    : List ConnectionTarget :=
  if hasErrorOutput node then
    match getErrorOutputIndex toNumber node.type node with
    | .ok errorIndex => ((outputs[errorIndex]?).join).getD []
    | .error _ => []
  else []

/-- The targets at the error output, for the main connections and for those of the type
`error`.
-/
def errorTargets (toNumber : ToNumber) (node : NodeJSON) (connections : String × List RawSlot)
    : List ConnectionTarget :=
  let outputs := normalizeConnections connections.2
  if connections.1 = "main" then errorOutputTargets toNumber node outputs
  else outputs.flatMap (fun targets => targets.getD [])

/-- The inputs of existing nodes among the targets. -/
def existing (json : WorkflowJSON) (targets : List ConnectionTarget) : List (String × Nat) :=
  (targets.filter (fun target => target.node ∈ json.namedNodes.map Prod.fst)).map (fun target =>
    (target.node, target.index))

/-- The main connections of a node and those of the type `error`, as they are listed. -/
def mainAndError (types : Dict String (List RawSlot)) : List (String × List RawSlot) :=
  types.entries.filter (fun connections => connections.1 = "main" ∨ connections.1 = "error")

/-- Where the error output of a node has existing inputs both among its main connections and under
the type `error`, those listed first are listed again.
-/
def ErrorOutputsAgree (toNumber : ToNumber) (json : WorkflowJSON) : Prop :=
  ∀ source node types first second,
    json.nodeAt source = some node
    → json.connections.get? source = some types
    → mainAndError types = [first, second]
    → existing json (errorTargets toNumber node first) ≠ []
    → existing json (errorTargets toNumber node second) ≠ []
    → existing json (errorTargets toNumber node first)
      ⊆ existing json (errorTargets toNumber node second)

/-! ### Inputs -/

section

variable (plain : ∀ node ∈ json.nodes, Plain toNumber node)

include plain

/-- The connection for an existing target tells the target and its index. -/
theorem connectionTo_iff (target : ConnectionTarget)
    : (target.node ∈ json.namedNodes.map Prod.fst
        → ∃ connection,
            connectionTo toNumber json.nodeAt target = some connection
            ∧ connection.target = target.node
            ∧ extractInputIndex connection.targetInputSlot = target.index)
      ∧ (target.node ∉ json.namedNodes.map Prod.fst
        → connectionTo toNumber json.nodeAt target = none) := by
  unfold connectionTo
  rw [← json.nodeAt_isSome]
  cases found : json.nodeAt target.node with
  | none => simp
  | some node =>
      obtain ⟨slot, named, decoded⟩ :=
        (plain node (WorkflowJSON.mem_of_nodeAt found)).inputs target.index
      simp [named, Except.toOption, decoded]

theorem hasInput_iff (targets : List ConnectionTarget) (target : String) (inputIndex : Nat)
    : HasInput (some (connectionsTo toNumber json.nodeAt targets)) target inputIndex
      ↔ (target, inputIndex) ∈ existing json targets := by
  constructor
  · rintro ⟨found, isFound, connection, member, sameTarget, sameIndex⟩
    cases isFound
    obtain ⟨other, isTarget, connected⟩ := List.mem_filterMap.mp member
    by_cases isThere : other.node ∈ json.namedNodes.map Prod.fst
    · obtain ⟨same, isSame, isNode, isIndex⟩ := (connectionTo_iff plain other).1 isThere
      cases connected.symm.trans isSame
      refine List.mem_map.mpr ⟨other, List.mem_filter.mpr ⟨isTarget, by simpa using isThere⟩, ?_⟩
      rw [← sameTarget, ← sameIndex, isNode, isIndex]
    · rw [(connectionTo_iff plain other).2 isThere] at connected
      contradiction
  · intro member
    obtain ⟨other, isTarget, same⟩ := List.mem_map.mp member
    obtain ⟨isTarget, isThere⟩ := List.mem_filter.mp isTarget
    obtain ⟨connection, connected, isNode, isIndex⟩ :=
      (connectionTo_iff plain other).1 (of_decide_eq_true isThere)
    obtain ⟨sameNode, sameIndex⟩ := Prod.mk.inj same
    exact ⟨_, rfl, connection, List.mem_filterMap.mpr ⟨other, isTarget, connected⟩,
      isNode.trans sameNode, isIndex.trans sameIndex⟩

theorem connectionsTo_eq_nil_iff (targets : List ConnectionTarget)
    : connectionsTo toNumber json.nodeAt targets = [] ↔ existing json targets = [] := by
  rw [connectionsTo, List.filterMap_eq_nil_iff, existing, List.map_eq_nil_iff,
    List.filter_eq_nil_iff]
  refine forall_congr' (fun target => imp_congr_right (fun _ => ?_))
  by_cases isThere : target.node ∈ json.namedNodes.map Prod.fst
  · obtain ⟨connection, connected, -⟩ := (connectionTo_iff plain target).1 isThere
    simp [connected, isThere]
  · simp [(connectionTo_iff plain target).2 isThere, isThere]

end

/-! ### Outputs -/

theorem get?_storeOutput (outputs : NodeOutputs) (name slot : String)
    (connections : List SemanticConnection)
    : (storeOutput outputs name connections).get? slot
      = if slot = name ∧ connections ≠ [] then some connections else outputs.get? slot := by
  unfold storeOutput
  by_cases none : connections = []
  · simp [none]
  · simp [none, Dict.get?_set]

/-- Outputs with different names keep what is stored for them. -/
theorem get?_storeOutputs {α : Type} (name : α → String)
    (connections : α → List SemanticConnection) {elements : List α}
    (distinct : (elements.map name).Nodup) (outputs : NodeOutputs)
    : (∀ a ∈ elements,
        (elements.foldl (fun stored a => storeOutput stored (name a) (connections a))
            outputs).get? (name a)
          = if connections a ≠ [] then some (connections a) else outputs.get? (name a))
      ∧ ∀ slot, (∀ a ∈ elements, name a ≠ slot)
        → (elements.foldl (fun stored a => storeOutput stored (name a) (connections a))
            outputs).get? slot
          = outputs.get? slot := by
  induction elements generalizing outputs with
  | nil => simp
  | cons first rest ih =>
      obtain ⟨isNew, others⟩ := List.nodup_cons.mp distinct
      obtain ⟨here, elsewhere⟩ := ih others (storeOutput outputs (name first) (connections first))
      simp only [List.foldl_cons]
      constructor
      · intro a member
        rcases List.mem_cons.mp member with rfl | later
        · rw [elsewhere (name a) (fun b isLater same => isNew (same ▸ List.mem_map_of_mem isLater)),
            get?_storeOutput]
          simp
        · have differs : name a ≠ name first :=
            fun same => isNew (same ▸ List.mem_map_of_mem later)
          rw [here a later, get?_storeOutput]
          simp [differs]
      · intro slot absent
        rw [elsewhere slot (fun b isLater => absent b (.tail _ isLater)),
          get?_storeOutput]
        simp [Ne.symm (absent first (.head _))]

section

variable (isNode : json.nodeAt source = some node)

include isNode

theorem nameAt_of_ok {index : Nat} {name : String}
    (named : getOutputName toNumber node.type index node = .ok name)
    : nameAt toNumber json.nodeAt source index = name := by
  simp [nameAt, isNode, named, Except.toOption]

theorem nameAt_injective (plain : Plain toNumber node)
    : Function.Injective (nameAt toNumber json.nodeAt source) := by
  intro index other same
  obtain ⟨name, named, -⟩ := plain.decodes.outputs index
  obtain ⟨otherName, otherNamed, -⟩ := plain.decodes.outputs other
  rw [nameAt_of_ok isNode named, nameAt_of_ok isNode otherNamed] at same
  exact plain.decodes.distinct index other name named (same ▸ otherNamed)

/-- The main connections are stored under the names of their outputs. -/
theorem get?_storeMain (plain : Plain toNumber node) (slots : List RawSlot) (outputs : NodeOutputs)
    : (∀ index,
        (storeConnections toNumber json.nodeAt source outputs ("main", slots)).get?
            (nameAt toNumber json.nodeAt source index)
          = if connectionsTo toNumber json.nodeAt
                ((((normalizeConnections slots)[index]?).join).getD []) ≠ [] then
              some (connectionsTo toNumber json.nodeAt
                ((((normalizeConnections slots)[index]?).join).getD []))
            else outputs.get? (nameAt toNumber json.nodeAt source index))
      ∧ ∀ slot, (∀ index, nameAt toNumber json.nodeAt source index ≠ slot)
        → (storeConnections toNumber json.nodeAt source outputs ("main", slots)).get? slot
          = outputs.get? slot := by
  have distinct
      : ((normalizeConnections slots).zipIdx.map (fun output =>
          nameAt toNumber json.nodeAt source output.2)).Nodup := by
    have indexes : ((normalizeConnections slots).zipIdx.map Prod.snd).Nodup := by
      rw [List.zipIdx_map_snd]
      exact List.nodup_range'
    have names := indexes.map (nameAt_injective isNode plain)
    rwa [List.map_map] at names
  obtain ⟨here, elsewhere⟩ :=
    get?_storeOutputs (fun output : Option (List ConnectionTarget) × Nat =>
        nameAt toNumber json.nodeAt source output.2)
      (fun output => connectionsTo toNumber json.nodeAt (output.1.getD [])) distinct outputs
  simp only [storeConnections, if_true]
  constructor
  · intro index
    cases found : (normalizeConnections slots)[index]? with
    | some targets =>
        have stored := here (targets, index) (List.mem_zipIdx_iff_getElem?.mpr found)
        simpa using stored
    | none =>
        rw [elsewhere]
        · simp [connectionsTo]
        · intro output member same
          have isIndex := nameAt_injective isNode plain same
          have there := List.mem_zipIdx_iff_getElem?.mp member
          rw [isIndex, found] at there
          contradiction
  · intro slot absent
    exact elsewhere slot (fun output _ => absent output.2)

end

/-- The connections that the main connections or those of the type `error` have at the error
output.
-/
def errorConnections (toNumber : ToNumber) (json : WorkflowJSON) (node : NodeJSON)
    (connections : String × List RawSlot)
    : List SemanticConnection :=
  connectionsTo toNumber json.nodeAt (errorTargets toNumber node connections)

variable {connections : String × List RawSlot}

/-- Both kinds of connections at the error output are stored under its name. -/
theorem get?_error (isNode : json.nodeAt source = some node) (plain : Plain toNumber node)
    (handled : connections.1 = "main" ∨ connections.1 = "error") (outputs : NodeOutputs)
    : (storeConnections toNumber json.nodeAt source outputs connections).get? "error"
      = if errorConnections toNumber json node connections ≠ [] then
          some (errorConnections toNumber json node connections)
        else outputs.get? "error" := by
  obtain ⟨type, slots⟩ := connections
  rcases handled with rfl | rfl
  · obtain ⟨names, errorIndex, isNames, known⟩ := plain.names
    obtain ⟨here, elsewhere⟩ := get?_storeMain isNode plain slots outputs
    simp only [errorConnections, errorTargets, errorOutputTargets, if_true, known.2]
    cases hasError : hasErrorOutput node with
    | true =>
        have named : nameAt toNumber json.nodeAt source errorIndex = "error" := by
          refine nameAt_of_ok isNode ((known.getOutputName errorIndex).trans ?_)
          simp [hasError]
        have stored := here errorIndex
        rw [named] at stored
        simpa using stored
    | false =>
        rw [elsewhere]
        · simp [connectionsTo]
        · intro index
          have named := known.getOutputName index
          rw [if_neg (by simp [hasError])] at named
          rw [nameAt_of_ok isNode named]
          exact isNames.ne_error index
  · simp only [storeConnections, errorConnections, errorTargets, String.reduceEq, if_false, if_true,
      get?_storeOutput, true_and]

theorem get?_of_error (isError : connections.1 = "error") (outputs : NodeOutputs) {slot : String}
    (notError : slot ≠ "error")
    : (storeConnections toNumber json.nodeAt source outputs connections).get? slot
      = outputs.get? slot := by
  simp [storeConnections, isError, get?_storeOutput, notError]

variable {types : Dict String (List RawSlot)}

theorem storedOutputs_eq (found : json.connections.get? source = some types)
    : storedOutputs toNumber json source
      = (mainAndError types).foldl (storeConnections toNumber json.nodeAt source) Dict.empty := by
  rw [storedOutputs, found, mainAndError, List.foldl_filter]
  simp only
  congr 1
  funext outputs connections
  split
  · rfl
  · next other =>
      simp only [decide_eq_true_eq, not_or] at other
      simp [storeConnections, other.1, other.2]

/-- There are at most two entries, one for each of the types. -/
theorem mainAndError_cases (types : Dict String (List RawSlot))
    : mainAndError types = []
      ∨ (∃ only, mainAndError types = [only])
      ∨ ∃ first second, mainAndError types = [first, second] ∧ first.1 ≠ second.1 := by
  have distinct : ((mainAndError types).map Prod.fst).Nodup :=
    types.nodup.sublist (List.filter_sublist.map Prod.fst)
  have handled
      : ∀ connections ∈ mainAndError types, connections.1 = "main" ∨ connections.1 = "error" :=
    fun connections member => by simpa using (List.mem_filter.mp member).2
  match mainAndError types, distinct, handled with
  | [], _, _ => exact .inl rfl
  | [only], _, _ => exact .inr (.inl ⟨only, rfl⟩)
  | [first, second], distinct, _ =>
      refine .inr (.inr ⟨first, second, rfl, ?_⟩)
      simpa using distinct
  | first :: second :: third :: rest, distinct, handled =>
      have one := handled first (by simp)
      have two := handled second (by simp)
      have three := handled third (by simp)
      simp only [List.map_cons, List.nodup_cons, List.mem_cons, not_or] at distinct
      obtain ⟨⟨differs, others, -⟩, ⟨more, -⟩, -⟩ := distinct
      rcases one with one | one <;> rcases two with two | two <;> rcases three with three | three
      all_goals simp_all

variable {slots : List RawSlot} {type : String}

theorem mem_mainAndError (handled : type = "main" ∨ type = "error")
    : (type, slots) ∈ mainAndError types ↔ types.get? type = some slots := by
  rw [mainAndError, List.mem_filter, Dict.mem_entries_iff]
  simp [handled]

/-- Other outputs than the error output keep their connections. -/
theorem storedOutputs_main (isNode : json.nodeAt source = some node) (plain : Plain toNumber node)
    (found : json.connections.get? source = some types) (isMain : types.get? "main" = some slots)
    {index : Nat} {name : String} (named : getOutputName toNumber node.type index node = .ok name)
    (notError : name ≠ "error")
    : (storedOutputs toNumber json source).get? name
      = if connectionsTo toNumber json.nodeAt
            ((((normalizeConnections slots)[index]?).join).getD []) ≠ [] then
          some (connectionsTo toNumber json.nodeAt
            ((((normalizeConnections slots)[index]?).join).getD []))
        else none := by
  have stored (outputs : NodeOutputs) := (get?_storeMain isNode plain slots outputs).1 index
  rw [nameAt_of_ok isNode named] at stored
  have member := (mem_mainAndError (.inl rfl)).mpr isMain
  rw [storedOutputs_eq found]
  rcases mainAndError_cases types with none | ⟨only, single⟩ | ⟨first, second, both, differ⟩
  · rw [none] at member
    contradiction
  · rw [single] at member ⊢
    obtain rfl := List.mem_singleton.mp member
    exact stored Dict.empty
  · have handled (connections : String × List RawSlot) (isThere : connections ∈ mainAndError types)
        : connections.1 = "main" ∨ connections.1 = "error" := by
      simpa using (List.mem_filter.mp isThere).2
    rw [both] at member handled ⊢
    rw [List.foldl_cons, List.foldl_cons, List.foldl_nil]
    rcases List.mem_cons.mp member with rfl | isSecond
    · have isError := (handled second (by simp)).resolve_left (Ne.symm differ)
      rw [get?_of_error isError _ notError]
      exact stored Dict.empty
    · obtain rfl := List.mem_singleton.mp isSecond
      have isError := (handled first (by simp)).resolve_left differ
      rw [stored, get?_of_error isError _ notError]
      rfl

theorem mem_existing (targets : List ConnectionTarget) (target : String) (inputIndex : Nat)
    : (target, inputIndex) ∈ existing json targets
      ↔ target ∈ json.namedNodes.map Prod.fst
        ∧ ∃ connection ∈ targets, connection.node = target ∧ connection.index = inputIndex := by
  constructor
  · intro member
    obtain ⟨connection, isTarget, same⟩ := List.mem_map.mp member
    obtain ⟨isTarget, isThere⟩ := List.mem_filter.mp isTarget
    cases same
    exact ⟨of_decide_eq_true isThere, connection, isTarget, rfl, rfl⟩
  · rintro ⟨isThere, connection, isTarget, rfl, rfl⟩
    exact List.mem_map.mpr
      ⟨connection, List.mem_filter.mpr ⟨isTarget, decide_eq_true isThere⟩, rfl⟩

theorem connects_iff (found : json.connections.get? source = some types)
    (isType : types.get? type = some slots) (outputIndex : Nat) (target : String) (inputIndex : Nat)
    : json.Connects source type outputIndex target inputIndex
      ↔ ∃ connection ∈ (((normalizeConnections slots)[outputIndex]?).join).getD [],
          connection.node = target ∧ connection.index = inputIndex := by
  constructor
  · rintro ⟨others, otherSlots, targets, connection, isTypes, isSlots, isOutput, member, ends⟩
    cases isTypes.symm.trans found
    cases isSlots.symm.trans isType
    exact ⟨connection, by simpa [isOutput] using member, ends⟩
  · rintro ⟨connection, member, ends⟩
    cases isOutput : (normalizeConnections slots)[outputIndex]? with
    | none => simp [isOutput] at member
    | some output =>
        cases output with
        | none => simp [isOutput] at member
        | some targets =>
            rw [isOutput] at member
            exact ⟨types, slots, targets, connection, found, isType, isOutput, member, ends⟩

/-- The inputs at the error output are those of its connections, whose output has the name of
the error output when they are main connections.
-/
theorem mem_existing_errorTargets (plain : Plain toNumber node)
    (found : json.connections.get? source = some types) (handled : type = "main" ∨ type = "error")
    (isType : types.get? type = some slots) (target : String) (inputIndex : Nat)
    : (target, inputIndex) ∈ existing json (errorTargets toNumber node (type, slots))
      ↔ target ∈ json.namedNodes.map Prod.fst
        ∧ ∃ outputIndex,
            json.Connects source type outputIndex target inputIndex
            ∧ (type = "main" → getOutputName toNumber node.type outputIndex node = .ok "error") := by
  rw [mem_existing]
  refine and_congr_right (fun _ => ?_)
  simp only [connects_iff found isType]
  rcases handled with rfl | rfl
  · obtain ⟨names, errorIndex, isNames, known⟩ := plain.names
    have isError (index : Nat)
        : getOutputName toNumber node.type index node = .ok "error"
          ↔ hasErrorOutput node = true ∧ index = errorIndex := by
      rw [known.getOutputName, Except.ok.injEq]
      split
      · next same => simp [same]
      · next differs => simp only [differs, isNames.ne_error index]
    simp only [isError, errorTargets, errorOutputTargets, if_true, known.2, forall_const]
    cases hasError : hasErrorOutput node with
    | true =>
        constructor
        · rintro ⟨connection, member, ends⟩
          exact ⟨errorIndex, ⟨connection, member, ends⟩, rfl, rfl⟩
        · rintro ⟨index, ⟨connection, member, ends⟩, -, rfl⟩
          exact ⟨connection, member, ends⟩
    | false => simp
  · simp only [errorTargets, String.reduceEq, if_false, List.mem_flatMap, false_implies, and_true]
    constructor
    · rintro ⟨connection, ⟨output, isOutput, member⟩, ends⟩
      obtain ⟨index, isIndex⟩ := List.mem_iff_getElem?.mp isOutput
      exact ⟨index, connection, by simpa [isIndex] using member, ends⟩
    · rintro ⟨index, connection, member, ends⟩
      cases isIndex : (normalizeConnections slots)[index]? with
      | none => simp [isIndex] at member
      | some output =>
          refine ⟨connection, ⟨output, List.mem_of_getElem? isIndex, ?_⟩, ends⟩
          simpa [isIndex] using member

/-- The connections at the error output are those listed last, if there are any. -/
theorem storedOutputs_error (isNode : json.nodeAt source = some node) (plain : Plain toNumber node)
    (found : json.connections.get? source = some types)
    : (∀ connections, mainAndError types = [connections]
        → (storedOutputs toNumber json source).get? "error"
          = if errorConnections toNumber json node connections ≠ [] then
              some (errorConnections toNumber json node connections)
            else none)
      ∧ ∀ first second, mainAndError types = [first, second]
        → (storedOutputs toNumber json source).get? "error"
          = if errorConnections toNumber json node second ≠ [] then
              some (errorConnections toNumber json node second)
            else if errorConnections toNumber json node first ≠ [] then
              some (errorConnections toNumber json node first)
            else none := by
  have handled (connections : String × List RawSlot) (isThere : connections ∈ mainAndError types)
      : connections.1 = "main" ∨ connections.1 = "error" := by
    simpa using (List.mem_filter.mp isThere).2
  rw [storedOutputs_eq found]
  constructor
  · intro connections single
    rw [single] at handled ⊢
    exact get?_error isNode plain (handled connections (by simp)) Dict.empty
  · intro first second both
    rw [both] at handled ⊢
    rw [List.foldl_cons, List.foldl_cons, List.foldl_nil,
      get?_error isNode plain (handled second (by simp)),
      get?_error isNode plain (handled first (by simp))]
    rfl

/-! ### Kept connections -/

/-- Where the error outputs agree, nothing is lost when one kind of connections replaces the
other.
-/
theorem hasInput_error (plain : ∀ node ∈ json.nodes, Plain toNumber node)
    (agree : ErrorOutputsAgree toNumber json) (isNode : json.nodeAt source = some node)
    (found : json.connections.get? source = some types) (isThere : connections ∈ mainAndError types)
    {target : String} {inputIndex : Nat}
    (member : (target, inputIndex) ∈ existing json (errorTargets toNumber node connections))
    : HasInput ((storedOutputs toNumber json source).get? "error") target inputIndex := by
  have isPlain := plain node (WorkflowJSON.mem_of_nodeAt isNode)
  obtain ⟨ofOne, ofTwo⟩ := storedOutputs_error isNode isPlain found
  have stored (connections : String × List RawSlot)
      (member : (target, inputIndex) ∈ existing json (errorTargets toNumber node connections))
      : errorConnections toNumber json node connections ≠ []
        ∧ HasInput (some (errorConnections toNumber json node connections)) target inputIndex := by
    refine ⟨fun none => ?_, (hasInput_iff plain _ _ _).mpr member⟩
    rw [errorConnections, connectionsTo_eq_nil_iff plain] at none
    rw [none] at member
    contradiction
  rcases mainAndError_cases types with none | ⟨only, single⟩ | ⟨first, second, both, -⟩
  · rw [none] at isThere
    contradiction
  · rw [single] at isThere
    obtain rfl := List.mem_singleton.mp isThere
    rw [ofOne connections single, if_pos (stored connections member).1]
    exact (stored connections member).2
  · rw [both] at isThere
    rw [ofTwo first second both]
    by_cases none : errorConnections toNumber json node second = []
    · rw [if_neg (not_not.mpr none)]
      rcases List.mem_cons.mp isThere with rfl | isSecond
      · rw [if_pos (stored connections member).1]
        exact (stored connections member).2
      · obtain rfl := List.mem_singleton.mp isSecond
        exact absurd none (stored connections member).1
    · rw [if_pos none]
      rcases List.mem_cons.mp isThere with rfl | isSecond
      · have listed := agree source node types connections second isNode found both
          (List.ne_nil_of_mem member)
          (fun absent => none ((connectionsTo_eq_nil_iff plain _).mpr absent))
        exact (stored second (listed member)).2
      · obtain rfl := List.mem_singleton.mp isSecond
        exact (stored connections member).2

theorem node_of_graph {graph : SemanticGraph} (jsons : jsonAt graph = json.nodeAt)
    (outputs
      : ∀ key,
          outputsAt graph key = (json.nodeAt key).map (fun _ => storedOutputs toNumber json key))
    (key : String)
    : (key ∈ graph.keys ↔ key ∈ json.namedNodes.map Prod.fst)
      ∧ ∀ node, graph.get? key = some node
        → json.nodeAt key = some node.json
          ∧ node.outputs = storedOutputs toNumber json key := by
  constructor
  · rw [← json.nodeAt_isSome, ← jsons, jsonAt, Option.isSome_map, Option.isSome_iff_ne_none,
      ne_eq, Dict.get?_eq_none_iff, not_not]
  · intro node found
    have isJson : json.nodeAt key = some node.json := by
      rw [← jsons]
      simp [jsonAt, found]
    have stored := outputs key
    simp only [outputsAt, found, isJson, Option.map_some] at stored
    exact ⟨isJson, Option.some.inj stored⟩

/-- The graph keeps all connections under names that tell their indexes exactly if every node is
plain and the two kinds of connections at an error output agree.
-/
theorem keepsConnections_iff (toNumber : ToNumber) (json : WorkflowJSON)
    : KeepsConnections toNumber json
      ↔ (∀ node ∈ json.nodes, Plain toNumber node) ∧ ErrorOutputsAgree toNumber json := by
  constructor
  · intro keeps
    have plain (node : NodeJSON) (member : node ∈ json.nodes) : Plain toNumber node :=
      (keeps.decodes node member).plain
    refine ⟨plain, ?_⟩
    intro source node types first second isNode found both _ someSecond input member
    obtain ⟨graph, built, kept⟩ := keeps.kept
    obtain ⟨same, isSame, jsons, outputs⟩ := buildSemanticGraph_stores plain
    cases isSame.symm.trans built
    obtain ⟨target, inputIndex⟩ := input
    obtain ⟨type, slots⟩ := first
    have isThere : (type, slots) ∈ mainAndError types := by simp [both]
    have handled : type = "main" ∨ type = "error" := by
      simpa using (List.mem_filter.mp isThere).2
    have isPlain := plain node (WorkflowJSON.mem_of_nodeAt isNode)
    obtain ⟨isTarget, outputIndex, connects, named⟩ :=
      (mem_existing_errorTargets isPlain found handled ((mem_mainAndError handled).mp isThere)
        target inputIndex).mp member
    obtain ⟨sourceNode, isSource, rfl⟩ := Option.map_eq_some_iff.mp (jsons ▸ isNode)
    obtain ⟨-, isStored⟩ := (node_of_graph jsons outputs source).2 sourceNode isSource
    obtain ⟨ofMain, ofError⟩ :=
      kept source sourceNode outputIndex target inputIndex isSource
        ((node_of_graph jsons outputs target).1.mpr isTarget)
    have atError : HasInput (sourceNode.outputs.get? "error") target inputIndex := by
      rcases handled with rfl | rfl
      · obtain ⟨slot, isSlot, -, has⟩ := ofMain connects
        cases isSlot.symm.trans (named rfl)
        exact has
      · exact ofError connects
    have last : errorConnections toNumber json sourceNode.json second ≠ [] :=
      fun none => someSecond ((connectionsTo_eq_nil_iff plain _).mp none)
    rw [isStored, (storedOutputs_error isNode isPlain found).2 _ second both, if_pos last]
      at atError
    exact (hasInput_iff plain _ _ _).mp atError
  · rintro ⟨plain, agree⟩
    obtain ⟨graph, built, jsons, outputs⟩ := buildSemanticGraph_stores plain
    refine ⟨fun node member => (plain node member).decodes, graph, built, ?_⟩
    intro source sourceNode outputIndex target inputIndex isSource isTarget
    obtain ⟨isNode, isStored⟩ := (node_of_graph jsons outputs source).2 sourceNode isSource
    have isThere := (node_of_graph jsons outputs target).1.mp isTarget
    have isPlain := plain sourceNode.json (WorkflowJSON.mem_of_nodeAt isNode)
    -- What is connected at the error output, of either type, is stored there.
    have atError (type : String) (handled : type = "main" ∨ type = "error")
        (connects : json.Connects source type outputIndex target inputIndex)
        (named
          : type = "main"
            → getOutputName toNumber sourceNode.json.type outputIndex sourceNode.json
              = .ok "error")
        : HasInput (sourceNode.outputs.get? "error") target inputIndex := by
      have connected := connects
      obtain ⟨types, slots, -, -, found, isType, -⟩ := connected
      rw [isStored]
      exact hasInput_error plain agree isNode found ((mem_mainAndError handled).mpr isType)
        ((mem_existing_errorTargets isPlain found handled isType target inputIndex).mpr
          ⟨isThere, outputIndex, connects, named⟩)
    refine ⟨fun connects => ?_, fun connects => ?_⟩
    · obtain ⟨slot, named, decoded⟩ := isPlain.decodes.outputs outputIndex
      refine ⟨slot, named, decoded, ?_⟩
      by_cases isError : slot = "error"
      · subst isError
        exact atError "main" (.inl rfl) connects (fun _ => named)
      · have connected := connects
        obtain ⟨types, slots, -, -, found, isMain, -⟩ := connected
        have member :=
          (mem_existing _ target inputIndex).mpr
            ⟨isThere, (connects_iff found isMain outputIndex target inputIndex).mp connects⟩
        rw [isStored, storedOutputs_main isNode isPlain found isMain named isError, if_pos]
        · exact (hasInput_iff plain _ _ _).mpr member
        · intro none
          rw [connectionsTo_eq_nil_iff plain] at none
          rw [none] at member
          contradiction
    · exact atError "error" (.inr rfl) connects (fun isMain => by simp at isMain)

/-- Numbers of parameters that are no numbers in texts. -/
def numbersOnly : ToNumber
  | .number number => some number
  | _ => none

def switchOfOne : NodeJSON :=
  ⟨"1", some "Switch", "n8n-nodes-base.switch",
    some [("rules", .object [("values", .array [.object []])])], none⟩

/-- A Switch with one rule, whose fallback output leads to another node. -/
def fallbackOnly : WorkflowJSON where
  nodes := [switchOfOne, ⟨"2", some "Rest", "n8n-nodes-base.noOp", none, none⟩]
  connections :=
    Dict.empty.set "Switch"
      (Dict.empty.set "main" [.missing, .targets [("Rest", "main", some 0)]])

theorem fallback_index
    : getOutputName numbersOnly switchOfOne.type 1 switchOfOne = .ok "fallback"
      ∧ getOutputIndex "fallback" = 0
      ∧ ¬ KeepsConnections numbersOnly fallbackOnly := by
  have named : getOutputName numbersOnly switchOfOne.type 1 switchOfOne = .ok "fallback" := by
    decide
  refine ⟨named, by decide, fun keeps => ?_⟩
  obtain ⟨name, isName, decoded⟩ := (keeps.decodes switchOfOne (by simp [fallbackOnly])).outputs 1
  cases named.symm.trans isName
  exact absurd (decoded (by decide)) (by decide)

end N8n.Codegen
