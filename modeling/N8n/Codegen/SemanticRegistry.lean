import N8n.Library.Text
import N8n.Library.Unicode
import N8n.NodeParameters.NodeProperties

/-! The names of the outputs and inputs of nodes
(`packages/@n8n/workflow-sdk/src/codegen/semantic-registry.ts`), and the indexes that are read
back from the names (`codegen/composite-handlers/build-utils.ts`).
-/

namespace N8n.Codegen

open N8n.NodeParameters (Value INodeParameters)

inductive OnError where
  | continueErrorOutput
  | continueRegularOutput
  | stopWorkflow
  deriving DecidableEq, Repr

structure NodeJSON where
  id : String
  name : Option String
  type : String
  parameters : Option INodeParameters
  onError : Option OnError
  deriving DecidableEq

/-- What the language makes of a value that stands for a number; `none` is no number. -/
abbrev ToNumber := Value → Option Rat

/-- The length of `Array.from({ length: value })`, which throws when it is out of range. -/
def arrayLength (toNumber : ToNumber) (value : Value) : Except JsError Nat :=
  match toNumber value with
  | none => .ok 0
  | some number =>
      if number.floor.toNat < 2 ^ 32 then .ok number.floor.toNat else .error .rangeError

/-- `value.length`. -/
def lengthOf : Value → Option Value
  | .array items => some (.number items.length)
  | .string text => some (.number (Unicode.utf16 text.toList).length)
  | value => value.get "length"

/-- `value ?? other`. -/
def orElse (value : Option Value) (other : Value) : Value :=
  match value with
  | none | some .null => other
  | some value => value

/-- `value?.[name]`. -/
def member (value : Option Value) (name : String) : Option Value :=
  value.bind (fun value => value.get name)

/-- The rules of a Switch, under either of their names. -/
def rulesArray (node : NodeJSON) : Option Value :=
  let rules := member (node.parameters.map Value.object) "rules"
  match member rules "rules" with
  | none | some .null => member rules "values"
  | rules => rules

def numCases (toNumber : ToNumber) (node : NodeJSON) : Except JsError Nat :=
  arrayLength toNumber (orElse ((rulesArray node).bind lengthOf) (.number 4))

def numInputs (toNumber : ToNumber) (node : NodeJSON) : Except JsError Nat :=
  arrayLength toNumber
    (orElse (member (node.parameters.map Value.object) "numberInputs") (.number 2))

def numbered (word : String) (count : Nat) : List String :=
  (List.range count).map (fun i => word ++ toString i)

structure NodeSemantics where
  outputs : NodeJSON → Except JsError (List String)
  inputs : NodeJSON → Except JsError (List String)

/-- The properties that every object inherits. -/
def OBJECT_PROPERTIES : List String :=
  ["constructor", "hasOwnProperty", "isPrototypeOf", "propertyIsEnumerable", "toLocaleString",
    "toString", "valueOf", "__defineGetter__", "__defineSetter__", "__lookupGetter__",
    "__lookupSetter__", "__proto__"]

/-- A property that the registry inherits has no outputs and inputs whose length could be
read.
-/
def NODE_SEMANTICS (toNumber : ToNumber) (type : String) : Option NodeSemantics :=
  if type = "n8n-nodes-base.if" then
    some ⟨fun _ => .ok ["trueBranch", "falseBranch"], fun _ => .ok ["input"]⟩
  else if type = "n8n-nodes-base.switch" then
    some
      ⟨fun node => (numCases toNumber node).map (fun count => numbered "case" count ++ ["fallback"]),
        fun _ => .ok ["input"]⟩
  else if type = "n8n-nodes-base.merge" then
    some
      ⟨fun _ => .ok ["output"], fun node => (numInputs toNumber node).map (numbered "branch")⟩
  else if type = "n8n-nodes-base.splitInBatches" then
    some ⟨fun _ => .ok ["done", "loop"], fun _ => .ok ["input"]⟩
  else if type ∈ OBJECT_PROPERTIES then
    some ⟨fun _ => .error .typeError, fun _ => .error .typeError⟩
  else none

def hasErrorOutput (node : NodeJSON) : Bool := node.onError = some .continueErrorOutput

def getErrorOutputIndex (toNumber : ToNumber) (type : String) (node : NodeJSON)
    : Except JsError Nat :=
  match NODE_SEMANTICS toNumber type with
  | some semantics => (semantics.outputs node).map List.length
  | none => .ok 1

/-- The name of an output that is not the error output. -/
def getRegularOutputName (toNumber : ToNumber) (type : String) (index : Nat) (node : NodeJSON)
    : Except JsError String :=
  match NODE_SEMANTICS toNumber type with
  | none => .ok ("output" ++ toString index)
  | some semantics =>
      (semantics.outputs node).map (fun outputs =>
        (outputs[index]?).getD ("output" ++ toString index))

def getOutputName (toNumber : ToNumber) (type : String) (index : Nat) (node : NodeJSON)
    : Except JsError String :=
  if hasErrorOutput node then
    (getErrorOutputIndex toNumber type node).bind (fun errorIndex =>
      if index = errorIndex then .ok "error" else getRegularOutputName toNumber type index node)
  else getRegularOutputName toNumber type index node

def getInputName (toNumber : ToNumber) (type : String) (index : Nat) (node : NodeJSON)
    : Except JsError String :=
  match NODE_SEMANTICS toNumber type with
  | none => .ok ("input" ++ toString index)
  | some semantics =>
      (semantics.inputs node).map (fun inputs =>
        (inputs[index]?).getD ("input" ++ toString index))

def parseInt (digits : List Char) : Nat := Nat.ofDigitChars 10 digits 0

/-- The digits of `/(\d+)$/`. -/
def trailingDigits (name : String) : List Char :=
  (name.toList.reverse.takeWhile Char.isDigit).reverse

/-- The digits of `/^word(\d+)$/`. -/
def digitsAfter (word name : String) : Option (List Char) :=
  if word.toList.isPrefixOf name.toList then
    let digits := name.toList.drop word.length
    if digits ≠ [] ∧ digits.all Char.isDigit then some digits else none
  else none

def extractInputIndex (slotName : String) : Nat :=
  match trailingDigits slotName with
  | [] => 0
  | digits => parseInt digits

def getOutputIndex (outputName : String) : Nat :=
  if outputName = "trueBranch" then 0
  else if outputName = "falseBranch" then 1
  else if outputName = "done" then 0
  else if outputName = "loop" then 1
  else if outputName = "error" then 0
  else
    match digitsAfter "output" outputName with
    | some digits => parseInt digits
    | none =>
        match digitsAfter "case" outputName with
        | some digits => parseInt digits
        | none => 0

end N8n.Codegen
