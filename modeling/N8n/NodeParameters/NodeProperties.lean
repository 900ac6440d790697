import Mathlib.Algebra.Order.Ring.Rat
import N8n.Library.Record

/-! Parameter values and the properties that describe them
(`packages/workflow/src/interfaces.ts`). The values are those of JSON, and an object is kept
in the order of its keys, since no result depends on theirs.
-/

namespace N8n.NodeParameters

/-- `NodeParameterValueType` without `undefined`, which is a missing value. -/
inductive Value where
  | null
  | boolean (b : Bool)
  | number (q : Rat)
  | string (text : String)
  | array (items : List Value)
  | object (entries : List (String × Value))

/-- `INodeParameters`. -/
abbrev INodeParameters := List (String × Value)

namespace Value

mutual

def isEqual : Value → Value → Bool
  | .null, .null => true
  | .boolean first, .boolean second => first == second
  | .number first, .number second => first == second
  | .string first, .string second => first == second
  | .array first, .array second => areItemsEqual first second
  | .object first, .object second => areEntriesEqual first second
  | _, _ => false

def areItemsEqual : List Value → List Value → Bool
  | [], [] => true
  | first :: rest, second :: others => isEqual first second && areItemsEqual rest others
  | _, _ => false

def areEntriesEqual : INodeParameters → INodeParameters → Bool
  | [], [] => true
  | (name, first) :: rest, (other, second) :: others =>
      name == other && isEqual first second && areEntriesEqual rest others
  | _, _ => false

end

mutual

theorem isEqual_iff (first second : Value) : isEqual first second = true ↔ first = second := by
  cases first <;> cases second <;>
    simp [isEqual, areItemsEqual_iff, areEntriesEqual_iff]

theorem areItemsEqual_iff (first second : List Value)
    : areItemsEqual first second = true ↔ first = second := by
  match first, second with
  | [], [] => simp [areItemsEqual]
  | [], _ :: _ => simp [areItemsEqual]
  | _ :: _, [] => simp [areItemsEqual]
  | one :: rest, other :: others =>
      simp [areItemsEqual, isEqual_iff one other, areItemsEqual_iff rest others]

theorem areEntriesEqual_iff (first second : INodeParameters)
    : areEntriesEqual first second = true ↔ first = second := by
  match first, second with
  | [], [] => simp [areEntriesEqual]
  | [], _ :: _ => simp [areEntriesEqual]
  | _ :: _, [] => simp [areEntriesEqual]
  | (name, one) :: rest, (other, two) :: others =>
      simp [areEntriesEqual, isEqual_iff one two, areEntriesEqual_iff rest others]

end

instance : DecidableEq Value :=
  fun first second => decidable_of_iff (isEqual first second = true) (isEqual_iff first second)

def isTruthy : Value → Bool
  | .null => false
  | .boolean b => b
  | .number q => q ≠ 0
  | .string text => text ≠ ""
  | .array _ | .object _ => true

/-- `typeof value === 'object'`. -/
def isObject : Value → Bool
  | .null | .array _ | .object _ => true
  | _ => false

/-- The own properties: those of an array or a text are its places. No parameter is called
`length`.
-/
def own : Value → INodeParameters
  | .object entries => entries
  | .array items => items.zipIdx.map (fun (item, index) => (toString index, item))
  | .string text =>
      text.toList.zipIdx.map (fun (char, index) => (toString index, .string char.toString))
  | _ => []

/-- `value[name]`. -/
def get (value : Value) (name : String) : Option Value := Record.lookup value.own name

def keys (value : Value) : List String := value.own.map Prod.fst

/-- What `for (… of value)` goes through. -/
def iterate : Value → Except JsError (List Value)
  | .array items => .ok items
  | .string text => .ok (text.toList.map (fun char => .string char.toString))
  | _ => .error .typeError

/-- `{ ...entries, ...value }`. -/
def spread (entries : INodeParameters) (value : Value) : INodeParameters :=
  value.own.foldl (fun entries (name, own) => Record.insert entries name own) entries

def isExpression : Value → Bool
  | .string text => text.toList.head? == some '='
  | _ => false

/-- `value.slice(1)` of an expression, and any other value as it is. -/
def withoutPrefix (value : Value) : Value :=
  match value with
  | .string text => if value.isExpression then .string (String.ofList text.toList.tail) else value
  | _ => value

@[simp] theorem own_object (entries : INodeParameters) : own (.object entries) = entries := rfl

@[simp] theorem isTruthy_object (entries : INodeParameters)
    : isTruthy (.object entries) = true := rfl

theorem withoutPrefix_of_not_isExpression {value : Value} (plain : value.isExpression = false)
    : value.withoutPrefix = value := by
  cases value <;> simp_all [withoutPrefix]

theorem eq_null_of_withoutPrefix {value : Value} (isNull : value.withoutPrefix = .null)
    : value = .null := by
  cases value with
  | string text =>
      simp only [withoutPrefix] at isNull
      split at isNull <;> simp at isNull
  | _ => exact isNull

theorem get_object (entries : INodeParameters) (name : String)
    : get (.object entries) name = Record.lookup entries name := rfl

end Value

inductive NodePropertyTypes where
  | boolean | button | collection | color | dateTime | fixedCollection | hidden | icon | json
  | callout | notice | multiOptions | number | options | string | credentialsSelect
  | resourceLocator | curlImport | resourceMapper | filter | assignmentCollection
  | credentials | workflowSelector
  deriving DecidableEq, Repr

/-- `DisplayCondition`, and a value that is compared as it is. -/
inductive DisplayCondition where
  | plain (value : Option Value)
  | eq (target : Value)
  | not (target : Value)
  | gte (target : Value)
  | lte (target : Value)
  | gt (target : Value)
  | lt (target : Value)
  | between (first last : Value)
  | includes (target : String)
  | startsWith (target : String)
  | endsWith (target : String)
  | regex (target : String)
  | exists

/-- The rules by the names of the parameters they look at, in their order. -/
abbrev DisplayRules := List (String × List DisplayCondition)

/-- Its `show` and its `hide`. -/
structure IDisplayOptions where
  showRules : Option DisplayRules
  hideRules : Option DisplayRules

/-- `INodeProperties`. The options of a collection are properties, those of a fixed collection
are named lists of them.
-/
inductive INodeProperties where
  | mk (name : String) (type : NodePropertyTypes) (default : Value) (noDataExpression : Bool)
      (multipleValues : Option Bool) (displayOptions : Option IDisplayOptions)
      (options : List INodeProperties) (collections : List (String × List INodeProperties))

namespace INodeProperties

def name : INodeProperties → String
  | .mk name _ _ _ _ _ _ _ => name

def type : INodeProperties → NodePropertyTypes
  | .mk _ type _ _ _ _ _ _ => type

def default : INodeProperties → Value
  | .mk _ _ default _ _ _ _ _ => default

def noDataExpression : INodeProperties → Bool
  | .mk _ _ _ noDataExpression _ _ _ _ => noDataExpression

def multipleValues : INodeProperties → Option Bool
  | .mk _ _ _ _ multipleValues _ _ _ => multipleValues

def displayOptions : INodeProperties → Option IDisplayOptions
  | .mk _ _ _ _ _ displayOptions _ _ => displayOptions

def options : INodeProperties → List INodeProperties
  | .mk _ _ _ _ _ _ options _ => options

def collections : INodeProperties → List (String × List INodeProperties)
  | .mk _ _ _ _ _ _ _ collections => collections

end INodeProperties

end N8n.NodeParameters
