import Mathlib.Data.List.Infix
import N8n.NodeParameters.NodeProperties

/-! Which parameters a node displays (`packages/workflow/src/node-helpers.ts`). The rules of
a parameter look at the values of others, at the node and at its type.
-/

namespace N8n.NodeParameters

/-- What the rules use of a library and of the language's regular expressions and order of
values, `get` and `test` and the operators. Nothing is assumed of them.
-/
structure Operators where
  get : INodeParameters → String → Option Value
  test : String → Option Value → Except JsError Bool
  isAtLeast : Option Value → Value → Bool
  isAtMost : Option Value → Value → Bool
  isGreater : Option Value → Value → Bool
  isLess : Option Value → Value → Bool

/-- The node and its type, as far as the rules look at them. A node or a type that is not
given has no version and no name.
-/
structure NodeContext where
  operators : Operators
  typeVersion : Option Rat
  typeName : Option String
  features : Option (List (String × List DisplayCondition))

/-- `value.includes(target)`. -/
def includes (target : String) : Option Value → Except JsError Bool
  | some (.string text) => pure (decide (target.toList <:+: text.toList))
  | some (.array items) => pure (decide (Value.string target ∈ items))
  | _ => throw .typeError

/-- `value.startsWith(target)`. -/
def startsWith (target : String) : Option Value → Except JsError Bool
  | some (.string text) => pure (decide (target.toList <+: text.toList))
  | _ => throw .typeError

/-- `value.endsWith(target)`. -/
def endsWith (target : String) : Option Value → Except JsError Bool
  | some (.string text) => pure (decide (target.toList <:+ text.toList))
  | _ => throw .typeError

/-- `actualValues.includes(condition)`, which never finds an object. -/
def includesValue (actualValues : List (Option Value)) (condition : Option Value) : Bool :=
  match condition with
  | some (.array _) | some (.object _) => false
  | _ => decide (condition ∈ actualValues)

namespace DisplayCondition

/-- One value under a condition other than a plain value. -/
def holdsFor (operators : Operators) (propertyValue : Option Value)
    : DisplayCondition → Except JsError Bool
  | .plain _ => pure false
  | .eq target => pure (decide (propertyValue = some target))
  | .not target => pure (decide (propertyValue ≠ some target))
  | .gte target => pure (operators.isAtLeast propertyValue target)
  | .lte target => pure (operators.isAtMost propertyValue target)
  | .gt target => pure (operators.isGreater propertyValue target)
  | .lt target => pure (operators.isLess propertyValue target)
  | .between first last =>
      pure (operators.isAtLeast propertyValue first && operators.isAtMost propertyValue last)
  | .includes target => NodeParameters.includes target propertyValue
  | .startsWith target => NodeParameters.startsWith target propertyValue
  | .endsWith target => NodeParameters.endsWith target propertyValue
  | .regex target => operators.test target propertyValue
  | .exists =>
      pure (decide (propertyValue ≠ none ∧ propertyValue ≠ some .null
        ∧ propertyValue ≠ some (.string "")))

def isNot : DisplayCondition → Bool
  | .not _ => true
  | _ => false

def isMet (operators : Operators) (actualValues : List (Option Value))
    (condition : DisplayCondition)
    : Except JsError Bool :=
  match condition with
  | .plain value => pure (includesValue actualValues value)
  | condition =>
      if actualValues.isEmpty then pure condition.isNot
      else actualValues.allM (fun propertyValue => condition.holdsFor operators propertyValue)

end DisplayCondition

def checkConditions (operators : Operators) (conditions : List DisplayCondition)
    (actualValues : List (Option Value))
    : Except JsError Bool :=
  conditions.anyM (fun condition => condition.isMet operators actualValues)

/-- The names of the features that `getNodeFeatures` finds enabled. -/
def enabledFeatures (context : NodeContext) : Except JsError (List (Option Value)) :=
  match context.features, context.typeVersion with
  | some features, some nodeVersion => do
      if nodeVersion = 0 then return []
      let enabled ← features.filterM (fun (_, conditions) =>
        checkConditions context.operators conditions [some (.number nodeVersion)])
      return enabled.map (fun (name, _) => some (.string name))
  | _, _ => pure []

/-- The value of a resource locator, and any other value as it is. -/
def unwrapResourceLocator (value : Option Value) : Option Value :=
  match value with
  | some (.object entries) =>
      if ((Record.lookup entries "__rl").map Value.isTruthy).getD false then
        Record.lookup entries "value"
      else value
  | _ => value

def elements (value : Option Value) : List (Option Value) :=
  match value with
  | some (.array items) => items.map some
  | value => [value]

def getPropertyValues (context : NodeContext) (nodeValues nodeValuesRoot : INodeParameters)
    (propertyName : String)
    : Except JsError (List (Option Value)) :=
  if propertyName.toList.head? = some '/' then
    pure (elements (unwrapResourceLocator
      (context.operators.get nodeValuesRoot (String.ofList propertyName.toList.tail))))
  else if propertyName = "@version" then
    pure [some (.number (context.typeVersion.getD 0))]
  else if propertyName = "@tool" then
    pure [some (.boolean ((context.typeName.map
      (fun name => decide ("Tool".toList <:+ name.toList))).getD false))]
  else if propertyName = "@feature" then enabledFeatures context
  else pure (elements (unwrapResourceLocator (context.operators.get nodeValues propertyName)))

section displayParameter

variable (context : NodeContext) (nodeValues nodeValuesRoot : INodeParameters)

/-- The loop over the rules to show a parameter: its answer, or `none` to go on. -/
def checkShow : DisplayRules → Except JsError (Option Bool)
  | [] => pure none
  | (propertyName, conditions) :: rest => do
      let values ← getPropertyValues context nodeValues nodeValuesRoot propertyName
      if values.any (fun value => (value.map Value.isExpression).getD false) then
        return some true
      if !(← checkConditions context.operators conditions values) then return some false
      checkShow rest

/-- The loop over the rules to hide a parameter. -/
def checkHide : DisplayRules → Except JsError (Option Bool)
  | [] => pure none
  | (propertyName, conditions) :: rest => do
      let values ← getPropertyValues context nodeValues nodeValuesRoot propertyName
      if !values.isEmpty && (← checkConditions context.operators conditions values) then
        return some false
      checkHide rest

def displayParameter (parameter : INodeProperties) : Except JsError Bool :=
  match parameter.displayOptions with
  | none => pure true
  | some { showRules, hideRules } => do
      if let some answer ← checkShow context nodeValues nodeValuesRoot (showRules.getD []) then
        return answer
      if let some answer ← checkHide context nodeValues nodeValuesRoot (hideRules.getD []) then
        return answer
      return true

end displayParameter

end N8n.NodeParameters
