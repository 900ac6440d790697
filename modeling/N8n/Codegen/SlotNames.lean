import N8n.Codegen.SemanticRegistry

/-! Which nodes have outputs and inputs whose indexes can be read back from their names. -/

namespace N8n.Codegen

variable {toNumber : ToNumber} {node : NodeJSON}

theorem parseInt_toString (n : Nat) : parseInt (toString n).toList = n := by
  rw [Text.toList_toString]
  exact Nat.ofDigitChars_ten_toDigits

theorem digitsAfter_numbered (word : String) (n : Nat)
    : digitsAfter word (word ++ toString n) = some (toString n).toList := by
  have digits : (toString n).toList.all Char.isDigit = true :=
    List.all_eq_true.mpr (fun _ member => Text.isDigit_of_mem_toString member)
  have isPrefix : word.toList.isPrefixOf (word.toList ++ (toString n).toList) = true :=
    List.isPrefixOf_iff_prefix.mpr (List.prefix_append _ _)
  have rest : (word.toList ++ (toString n).toList).drop word.length = (toString n).toList := by
    rw [← String.length_toList, List.drop_left]
  simp only [digitsAfter, String.toList_append, isPrefix, if_true, rest, digits,
    Text.toString_ne_nil, ne_eq, not_false_eq_true, and_self]

/-- A name does not have the word before it that it does not start with. -/
theorem numbered_ne {word other : String} (n : Nat) (differs : ¬ word.toList <+: other.toList)
    : word ++ toString n ≠ other := by
  rintro rfl
  exact differs (by simp)

theorem getOutputIndex_output (n : Nat) : getOutputIndex ("output" ++ toString n) = n := by
  unfold getOutputIndex
  rw [if_neg (numbered_ne n (by decide)), if_neg (numbered_ne n (by decide)),
    if_neg (numbered_ne n (by decide)), if_neg (numbered_ne n (by decide)),
    if_neg (numbered_ne n (by decide)), digitsAfter_numbered]
  exact parseInt_toString n

theorem extractInputIndex_numbered {word : String} (n : Nat)
    (noDigit : word.toList.getLast?.all (fun char => !char.isDigit) = true)
    : extractInputIndex (word ++ toString n) = n := by
  have digits : trailingDigits (word ++ toString n) = (toString n).toList := by
    rw [trailingDigits, String.toList_append, List.reverse_append, List.takeWhile_append_of_pos]
    · have stops : word.toList.reverse.takeWhile Char.isDigit = [] := by
        cases reversed : word.toList.reverse with
        | nil => rfl
        | cons last rest =>
            have isLast : word.toList.getLast? = some last := by
              rw [List.getLast?_eq_head?_reverse, reversed]
              rfl
            rw [isLast] at noDigit
            simp [(Bool.not_eq_true' _).mp noDigit]
      rw [stops, List.append_nil, List.reverse_reverse]
    · intro char member
      exact Text.isDigit_of_mem_toString (List.mem_reverse.mp member)
  rw [extractInputIndex, digits]
  split
  · next none => exact absurd none (Text.toString_ne_nil n)
  · exact parseInt_toString n

/-- The indexes of a node's outputs and inputs can be read back from their names, but for the
error output.
-/
structure Decodes (toNumber : ToNumber) (node : NodeJSON) : Prop where
  outputs
    : ∀ index, ∃ name,
        getOutputName toNumber node.type index node = .ok name
        ∧ (name ≠ "error" → getOutputIndex name = index)
  distinct
    : ∀ index other name,
        getOutputName toNumber node.type index node = .ok name
        → getOutputName toNumber node.type other node = .ok name
        → index = other
  inputs
    : ∀ index, ∃ name,
        getInputName toNumber node.type index node = .ok name ∧ extractInputIndex name = index

/-- The type is no property that every object inherits, a Switch has no case, and a Merge has a
number of inputs that an array can have.
-/
structure Plain (toNumber : ToNumber) (node : NodeJSON) : Prop where
  notInherited : node.type ∉ OBJECT_PROPERTIES
  noCase : node.type = "n8n-nodes-base.switch" → numCases toNumber node = .ok 0
  inRange : node.type = "n8n-nodes-base.merge" → ∃ count, numInputs toNumber node = .ok count

/-- Names of outputs that tell their indexes. -/
structure Names (outputs : List String) : Prop where
  decoded : ∀ entry ∈ outputs.zipIdx, getOutputIndex entry.1 = entry.2
  notError : "error" ∉ outputs

def outputNameAt (outputs : List String) (index : Nat) : String :=
  (outputs[index]?).getD ("output" ++ toString index)

theorem Names.getOutputIndex {outputs : List String} (names : Names outputs) (index : Nat)
    : getOutputIndex (outputNameAt outputs index) = index := by
  unfold outputNameAt
  cases found : outputs[index]? with
  | none => exact getOutputIndex_output index
  | some name =>
      exact names.decoded (name, index) (List.mem_zipIdx_iff_getElem?.mpr found)

theorem Names.ne_error {outputs : List String} (names : Names outputs) (index : Nat)
    : outputNameAt outputs index ≠ "error" := by
  unfold outputNameAt
  cases found : outputs[index]? with
  | none => exact numbered_ne index (by decide)
  | some name =>
      rintro rfl
      exact names.notError (List.mem_of_getElem? found)

theorem names_nil : Names [] := ⟨by decide, by decide⟩

theorem names_if : Names ["trueBranch", "falseBranch"] := ⟨by decide, by decide⟩

theorem names_fallback : Names ["fallback"] := ⟨by decide, by decide⟩

theorem names_merge : Names ["output"] := ⟨by decide, by decide⟩

theorem names_splitInBatches : Names ["done", "loop"] := ⟨by decide, by decide⟩

/-- What the registry knows of the outputs of a node. -/
def Outputs (toNumber : ToNumber) (node : NodeJSON) (outputs : List String) (errorIndex : Nat)
    : Prop :=
  (∀ index,
    getRegularOutputName toNumber node.type index node = .ok (outputNameAt outputs index))
  ∧ getErrorOutputIndex toNumber node.type node = .ok errorIndex

theorem outputs_of_semantics {semantics : NodeSemantics} {outputs : List String}
    (known : NODE_SEMANTICS toNumber node.type = some semantics)
    (named : semantics.outputs node = .ok outputs)
    : Outputs toNumber node outputs outputs.length := by
  constructor
  · intro index
    simp only [getRegularOutputName, known, named]
    rfl
  · simp only [getErrorOutputIndex, known, named]
    rfl

/-- The names of the outputs of a plain node tell their indexes. -/
theorem Plain.names (plain : Plain toNumber node)
    : ∃ outputs errorIndex, Names outputs ∧ Outputs toNumber node outputs errorIndex := by
  by_cases isIf : node.type = "n8n-nodes-base.if"
  · exact ⟨_, _, names_if, outputs_of_semantics (by rw [isIf]; rfl) rfl⟩
  · by_cases isSwitch : node.type = "n8n-nodes-base.switch"
    · refine ⟨_, _, names_fallback, outputs_of_semantics (by rw [isSwitch]; rfl) ?_⟩
      simp only [plain.noCase isSwitch]
      rfl
    · by_cases isMerge : node.type = "n8n-nodes-base.merge"
      · exact ⟨_, _, names_merge, outputs_of_semantics (by rw [isMerge]; rfl) rfl⟩
      · by_cases isSplit : node.type = "n8n-nodes-base.splitInBatches"
        · exact ⟨_, _, names_splitInBatches, outputs_of_semantics (by rw [isSplit]; rfl) rfl⟩
        · have unknown : NODE_SEMANTICS toNumber node.type = none := by
            simp [NODE_SEMANTICS, isIf, isSwitch, isMerge, isSplit, plain.notInherited]
          refine ⟨[], 1, names_nil, fun index => ?_, ?_⟩
          · simp [getRegularOutputName, unknown, outputNameAt]
          · simp [getErrorOutputIndex, unknown]

/-- One output may be the error output; the others have the names of the registry. -/
theorem Outputs.getOutputName {outputs : List String} {errorIndex : Nat}
    (known : Outputs toNumber node outputs errorIndex) (index : Nat)
    : getOutputName toNumber node.type index node
      = .ok (if hasErrorOutput node ∧ index = errorIndex then "error"
          else outputNameAt outputs index) := by
  unfold Codegen.getOutputName
  cases hasErrorOutput node with
  | false => simp [known.1]
  | true =>
      simp only [if_true, known.2, known.1, true_and]
      change (if index = errorIndex then _ else _) = _
      split <;> rfl

/-- The name of an input that the registry has no name for. -/
theorem extractInputIndex_input (n : Nat) : extractInputIndex ("input" ++ toString n) = n :=
  extractInputIndex_numbered n (by decide)

theorem inputs_of_semantics {semantics : NodeSemantics} {inputs : List String}
    (known : NODE_SEMANTICS toNumber node.type = some semantics)
    (named : semantics.inputs node = .ok inputs)
    (decoded : ∀ index name, inputs[index]? = some name → extractInputIndex name = index)
    (index : Nat)
    : ∃ name,
        getInputName toNumber node.type index node = .ok name
        ∧ extractInputIndex name = index := by
  refine ⟨(inputs[index]?).getD ("input" ++ toString index), ?_, ?_⟩
  · simp only [getInputName, known, named]
    rfl
  · cases found : inputs[index]? with
    | none => exact extractInputIndex_input index
    | some name => exact decoded index name found

theorem single_input (index : Nat) (name : String) (found : ["input"][index]? = some name)
    : extractInputIndex name = index := by
  match index with
  | 0 =>
      cases found
      decide
  | index + 1 => simp at found

theorem Plain.inputs (plain : Plain toNumber node) (index : Nat)
    : ∃ name,
        getInputName toNumber node.type index node = .ok name
        ∧ extractInputIndex name = index := by
  by_cases isIf : node.type = "n8n-nodes-base.if"
  · exact inputs_of_semantics (by rw [isIf]; rfl) rfl single_input index
  · by_cases isSwitch : node.type = "n8n-nodes-base.switch"
    · exact inputs_of_semantics (by rw [isSwitch]; rfl) rfl single_input index
    · by_cases isMerge : node.type = "n8n-nodes-base.merge"
      · obtain ⟨count, inRange⟩ := plain.inRange isMerge
        have named
            : (numInputs toNumber node).map (numbered "branch") = .ok (numbered "branch" count) := by
          rw [inRange]
          rfl
        refine inputs_of_semantics (by rw [isMerge]; rfl) named ?_ index
        intro branch name found
        simp only [numbered, List.getElem?_map] at found
        obtain ⟨same, isBranch, rfl⟩ := Option.map_eq_some_iff.mp found
        obtain ⟨-, rfl⟩ := List.getElem?_eq_some_iff.mp isBranch
        rw [List.getElem_range]
        exact extractInputIndex_numbered branch (by decide)
      · by_cases isSplit : node.type = "n8n-nodes-base.splitInBatches"
        · exact inputs_of_semantics (by rw [isSplit]; rfl) rfl single_input index
        · have unknown : NODE_SEMANTICS toNumber node.type = none := by
            simp [NODE_SEMANTICS, isIf, isSwitch, isMerge, isSplit, plain.notInherited]
          exact ⟨_, by simp [getInputName, unknown], extractInputIndex_input index⟩

theorem Plain.decodes (plain : Plain toNumber node) : Decodes toNumber node := by
  obtain ⟨outputs, errorIndex, names, known⟩ := plain.names
  constructor
  · intro index
    refine ⟨_, known.getOutputName index, ?_⟩
    split
    · exact fun notError => absurd rfl notError
    · exact fun _ => names.getOutputIndex index
  · intro index other name here there
    rw [known.getOutputName] at here there
    have same := Except.ok.inj (here.trans there.symm)
    split at same
    · next isError =>
        split at same
        · next otherError => exact isError.2.trans otherError.2.symm
        · exact absurd same.symm (names.ne_error other)
    · split at same
      · exact absurd same (names.ne_error index)
      · rw [← names.getOutputIndex index, same, names.getOutputIndex]
  · exact plain.inputs

theorem semantics_inherited (inherited : node.type ∈ OBJECT_PROPERTIES)
    : NODE_SEMANTICS toNumber node.type
      = some ⟨fun _ => .error .typeError, fun _ => .error .typeError⟩ := by
  have others
      : ∀ type ∈ OBJECT_PROPERTIES,
          type ≠ "n8n-nodes-base.if" ∧ type ≠ "n8n-nodes-base.switch"
          ∧ type ≠ "n8n-nodes-base.merge" ∧ type ≠ "n8n-nodes-base.splitInBatches" := by
    decide
  obtain ⟨notIf, notSwitch, notMerge, notSplit⟩ := others node.type inherited
  rw [NODE_SEMANTICS, if_neg notIf, if_neg notSwitch, if_neg notMerge, if_neg notSplit,
    if_pos inherited]

theorem fallback_of_case {count : Nat} (isSwitch : node.type = "n8n-nodes-base.switch")
    (hasCase : numCases toNumber node = .ok (count + 1))
    : getOutputName toNumber node.type (count + 1) node = .ok "fallback" := by
  have known
      : Outputs toNumber node (numbered "case" (count + 1) ++ ["fallback"])
          (numbered "case" (count + 1) ++ ["fallback"]).length := by
    refine outputs_of_semantics (by rw [isSwitch]; rfl) ?_
    simp only [hasCase]
    rfl
  rw [known.getOutputName, if_neg (by simp [numbered]), outputNameAt,
    List.getElem?_append_right (by simp [numbered])]
  simp [numbered]

/-- A Switch with cases has a fallback output, whose name has no index. -/
theorem Decodes.plain (decodes : Decodes toNumber node) : Plain toNumber node := by
  constructor
  · intro inherited
    obtain ⟨name, isName, -⟩ := decodes.inputs 0
    rw [getInputName, semantics_inherited inherited] at isName
    contradiction
  · intro isSwitch
    cases cases : numCases toNumber node with
    | error thrown =>
        obtain ⟨name, isName, -⟩ := decodes.outputs 0
        have semantics
            : NODE_SEMANTICS toNumber node.type
              = some
                ⟨fun node =>
                    (numCases toNumber node).map (fun count =>
                      numbered "case" count ++ ["fallback"]),
                  fun _ => .ok ["input"]⟩ := by
          rw [isSwitch]
          rfl
        unfold getOutputName at isName
        cases hasError : hasErrorOutput node
        all_goals
          simp only [hasError, getErrorOutputIndex, getRegularOutputName, semantics, cases,
            if_true, Bool.false_eq_true, if_false] at isName
          contradiction
    | ok count =>
        cases count with
        | zero => rfl
        | succ count =>
            obtain ⟨name, isName, decoded⟩ := decodes.outputs (count + 1)
            rw [fallback_of_case isSwitch cases] at isName
            cases isName
            exact absurd (decoded (by decide)) (by simp [show getOutputIndex "fallback" = 0 from rfl])
  · intro isMerge
    obtain ⟨name, isName, -⟩ := decodes.inputs 0
    have semantics
        : NODE_SEMANTICS toNumber node.type
          = some
            ⟨fun _ => .ok ["output"],
              fun node => (numInputs toNumber node).map (numbered "branch")⟩ := by
      rw [isMerge]
      rfl
    rw [getInputName, semantics] at isName
    cases inputs : numInputs toNumber node with
    | error thrown =>
        simp only [inputs] at isName
        contradiction
    | ok count => exact ⟨count, rfl⟩

theorem decodes_iff : Decodes toNumber node ↔ Plain toNumber node :=
  ⟨Decodes.plain, Plain.decodes⟩

end N8n.Codegen
