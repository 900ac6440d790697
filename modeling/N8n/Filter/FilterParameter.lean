import Mathlib.Data.List.Infix
import N8n.Filter.TypeValidation
import N8n.Library.Dict

/-! The conditions of filters, how they are executed and how they are validated
(`packages/workflow/src/node-parameters/filter-parameter.ts`). The log is left out.
-/

namespace N8n.Filter

/-- The operation is a text of its own, and each type of operator knows some of them. -/
structure FilterOperatorValue where
  type : FilterOperatorType
  operation : String
  rightType : Option FilterOperatorType
  singleValue : Option Bool
  deriving DecidableEq, Repr

structure FilterConditionValue (DateTime : Type) where
  leftValue : Value DateTime
  operator : FilterOperatorValue
  rightValue : Value DateTime

inductive TypeValidation where
  | strict
  | loose
  deriving DecidableEq, Repr

structure FilterOptionsValue where
  caseSensitive : Bool
  typeValidation : TypeValidation
  version : Option Nat
  deriving DecidableEq, Repr

/-- The combinator of a filter does not matter for a single condition. -/
structure FilterValue (DateTime : Type) where
  options : FilterOptionsValue
  conditions : List (FilterConditionValue DateTime)

inductive ErrorFormat where
  | full
  | inline
  deriving DecidableEq, Repr

/-- `Partial<FilterConditionMetadata>`. -/
structure FilterConditionMetadata where
  index : Option Nat := none
  unresolvedExpressions : Option Bool := none
  itemIndex : Option Nat := none
  errorFormat : Option ErrorFormat := none
  deriving DecidableEq, Repr

structure FilterError where
  message : String
  description : String
  deriving DecidableEq, Repr

/-- What may be thrown. -/
inductive Thrown where
  | filterError (error : FilterError)
  | error (error : JsError)
  deriving DecidableEq, Repr

/-- `Result`, whose error has not been thrown. -/
abbrev Result (α : Type) := Except FilterError α

variable {DateTime : Type} (runtime : Runtime DateTime)

def parseSingleFilterValue (value : Value DateTime) (type : FilterOperatorType) (strict : Bool)
    (version : Nat)
    : ValidationResult DateTime :=
  let isEmpty :=
    match value with
    | .array _ items => items.isEmpty
    | _ => isBlank value
  if type = .any || value.isNullish then .valid value
  else if type = .boolean && !strict then
    let result := validateFieldType runtime "filter" value type false false
    if 2 ≤ version && result.isValid then result else .valid (.boolean value.isTruthy)
  else if type = .number && value.isNaN then .valid value
  -- Number('') and Number([]) convert to 0 in validateFieldType, which is not intuitive,
  -- consider them empty values
  else if type = .number && isEmpty && 3 ≤ version then .valid .null
  else validateFieldType runtime "filter" value type strict true

def withIndefiniteArticle (noun : String) : String :=
  let article :=
    match noun.toList with
    | [] => "an"
    | first :: _ => if first ∈ "aeiou".toList then "an" else "a"
  article ++ " " ++ noun

def isExpression : Value DateTime → Bool
  | .string s => s.toList.head? = some '='
  | _ => false

inductive ValuePosition where
  | first
  | second
  deriving DecidableEq, Repr

def ValuePosition.name : ValuePosition → String
  | .first => "first"
  | .second => "second"

def messageSuffix (metadata : FilterConditionMetadata) : String :=
  let index := metadata.index.getD 0
  let itemIndex := metadata.itemIndex.getD 0
  match metadata.errorFormat.getD .full with
  | .full => "[condition " ++ toString index ++ ", item " ++ toString itemIndex ++ "]"
  | .inline => "[item " ++ toString itemIndex ++ "]"

def composeInvalidTypeMessage (strict : Bool) (metadata : FilterConditionMetadata)
    (type : FilterOperatorType) (fromType value : String)
    : String :=
  let fromType := runtime.toLocaleLowerCase fromType
  let suffix := messageSuffix metadata
  if strict then
    "Wrong type: '" ++ value ++ "' is " ++ withIndefiniteArticle fromType
      ++ " but was expecting " ++ withIndefiniteArticle type.name ++ " " ++ suffix
  else
    "Conversion error: the " ++ fromType ++ " '" ++ value ++ "' can't be converted to "
      ++ withIndefiniteArticle type.name ++ " " ++ suffix

def getTypeDescription (isStrict : Bool) : String :=
  if isStrict then
    "Try changing the type of comparison. Alternatively you can enable "
      ++ "'Convert types where required'."
  else "Try changing the type of the comparison."

def conversionFunction : FilterOperatorType → Option String
  | .string => some ".toString()"
  | .number => some ".toNumber()"
  | .boolean => some ".toBoolean()"
  | _ => none

def composeInvalidTypeDescription (strict : Bool) (type : FilterOperatorType)
    (valuePosition : ValuePosition)
    : String :=
  match strict, conversionFunction type with
  | true, some conversion =>
      "\n<p>Try either:</p>\n<ol>\n  <li>Enabling 'Convert types where required'</li>\n"
        ++ "  <li>Converting the " ++ valuePosition.name ++ " field to "
        ++ withIndefiniteArticle type.name ++ " by adding <code>" ++ conversion
        ++ "</code></li>\n</ol>\n\t\t\t"
  | _, _ => getTypeDescription strict

/-- What a side has been parsed to, and nothing where an expression stands for it. -/
def ValidationResult.parsed : ValidationResult DateTime → Value DateTime
  | .valid newValue => newValue
  | .invalid _ => .undefined

def parseFilterConditionValues (condition : FilterConditionValue DateTime)
    (options : FilterOptionsValue) (metadata : FilterConditionMetadata)
    : Except Thrown (Result (Value DateTime × Value DateTime)) := do
  let strict := options.typeValidation = .strict
  let version := options.version.getD 1
  let operator := condition.operator
  let rightType := operator.rightType.getD operator.type
  let parsedLeftValue :=
    parseSingleFilterValue runtime condition.leftValue operator.type strict version
  let parsedRightValue :=
    parseSingleFilterValue runtime condition.rightValue rightType strict version
  let unresolvedExpressions := metadata.unresolvedExpressions.getD false
  let leftValid :=
    parsedLeftValue.isValid || unresolvedExpressions && isExpression condition.leftValue
  let rightValid :=
    parsedRightValue.isValid || operator.singleValue.getD false
      || unresolvedExpressions && isExpression condition.rightValue
  let leftValueString ← (runtime.engine.text condition.leftValue).mapError .error
  let rightValueString ← (runtime.engine.text condition.rightValue).mapError .error
  if !leftValid && !rightValid
      && condition.leftValue.typeOf = condition.rightValue.typeOf then
    return .error
      ⟨
        "Comparison type expects " ++ withIndefiniteArticle operator.type.name
          ++ " but both fields are " ++ withIndefiniteArticle condition.leftValue.typeOf,
        getTypeDescription strict
      ⟩
  else if !leftValid then
    return .error
      ⟨
        composeInvalidTypeMessage runtime strict metadata operator.type
          condition.leftValue.typeOf leftValueString,
        composeInvalidTypeDescription strict operator.type .first
      ⟩
  else if !rightValid then
    return .error
      ⟨
        composeInvalidTypeMessage runtime strict metadata rightType
          condition.rightValue.typeOf rightValueString,
        composeInvalidTypeDescription strict rightType .second
      ⟩
  else return .ok (parsedLeftValue.parsed, parsedRightValue.parsed)

/-- The groups of `^/(.*?)/([gimusy]*)$`. The flags come after the last slash. -/
def regexMatch (pattern : String) : Option (String × String) :=
  match pattern.toList with
  | '/' :: rest =>
      let flags := rest.rtakeWhile (· != '/')
      let body := (rest.rdropWhile (· != '/')).dropLast
      if rest.contains '/' && flags.all "gimusy".toList.contains
          && body.all (fun char => !([0x0A, 0x0D, 0x2028, 0x2029].contains char.toNat)) then
        some (String.ofList body, String.ofList flags)
      else none
  | _ => none

/-- A pattern is a text, or falsy. -/
def parseRegexPattern (pattern : Value DateTime) : Except JsError (String → Bool) :=
  let text : Except JsError String :=
    match pattern with
    | .string s => .ok s
    | _ => if pattern.isTruthy then .error .typeError else .ok ""
  text.bind (fun pattern =>
    match regexMatch pattern with
    | none => runtime.regExp pattern ""
    | some (body, flags) => runtime.regExp body flags)

/-- `array` may be another value where the operation of an array has another type of operator. -/
def arrayContainsValue (array value : Value DateTime) (ignoreCase : Bool) : Except JsError Bool :=
  match array with
  | .array _ items =>
      match ignoreCase, value with
      | true, .string text =>
          .ok
            (items.any (fun item =>
              match item with
              | .string s => runtime.toLocaleLowerCase s = runtime.toLocaleLowerCase text
              | _ => false))
      | _, _ => .ok (Values.Value.includes items value)
  | _ => .error .typeError

/-- `value.toMillis()`. -/
def toMillis : Value DateTime → Except JsError JsNumber
  | .foreign _ (.dateTime moment) => .ok (runtime.luxon.toMillis moment)
  | _ => .error .typeError

/-- What an operation of a type of operator answers; an unknown one answers nothing. -/
def answer (holds : Bool) : Except JsError (Option (Value DateTime)) :=
  .ok (some (.boolean holds))

def compares (result : Option Ordering) (orders : List Ordering)
    : Except JsError (Option (Value DateTime)) :=
  answer (result.any (· ∈ orders))

/-- The left value of a text operator is a text, as it has been parsed to one. -/
def stringOperation (operation : String) (ignoreCase : Bool) (leftValue rightValue : Value DateTime)
    : Except JsError (Option (Value DateTime)) := do
  let lower (value : Value DateTime) : Value DateTime :=
    match value with
    | .string s => .string (runtime.toLocaleLowerCase s)
    | _ => value
  let leftValue := if ignoreCase then lower leftValue else leftValue
  let rightValue :=
    if ignoreCase && !(operation = "regex" || operation = "notRegex") then lower rightValue
    else rightValue
  let left ←
    match leftValue with
    | .string s => .ok s
    | _ => if leftValue.isNullish then .ok "" else .error .typeError
  let right := if rightValue.isNullish then .string "" else rightValue
  let finds (inside : List Char → List Char → Bool) : Except JsError Bool :=
    (runtime.engine.text right).map (fun text => inside text.toList left.toList)
  let contains := finds (fun part text => part <:+: text)
  let startsWith := finds List.isPrefixOf
  let endsWith := finds List.isSuffixOf
  let isEqual := (Values.Value.string left).isIdentical right
  match operation with
  | "empty" => answer (left = "")
  | "notEmpty" => answer (left ≠ "")
  | "equals" => answer isEqual
  | "notEquals" => answer !isEqual
  | "contains" => answer (← contains)
  | "notContains" => answer !(← contains)
  | "startsWith" => answer (← startsWith)
  | "notStartsWith" => answer !(← startsWith)
  | "endsWith" => answer (← endsWith)
  | "notEndsWith" => answer !(← endsWith)
  | "regex" => answer ((← parseRegexPattern runtime right) left)
  | "notRegex" => answer !((← parseRegexPattern runtime right) left)
  | _ => .ok none

def numberOperation (operation : String) (doesExist : Bool) (left right : Value DateTime)
    : Except JsError (Option (Value DateTime)) := do
  match operation with
  | "empty" => answer !doesExist
  | "notEmpty" => answer doesExist
  | "equals" => answer (left.isIdentical right)
  | "notEquals" => answer !(left.isIdentical right)
  | "gt" => compares (← runtime.engine.compare left right) [.gt]
  | "lt" => compares (← runtime.engine.compare left right) [.lt]
  | "gte" => compares (← runtime.engine.compare left right) [.gt, .eq]
  | "lte" => compares (← runtime.engine.compare left right) [.lt, .eq]
  | _ => .ok none

def dateTimeOperation (operation : String) (doesExist : Bool) (left right : Value DateTime)
    : Except JsError (Option (Value DateTime)) := do
  let compared : Except JsError (Option Ordering) := do
    return (← toMillis runtime left).compare (← toMillis runtime right)
  match operation with
  | "empty" => answer !doesExist
  | "notEmpty" => answer doesExist
  | _ =>
      if !left.isTruthy || !right.isTruthy then answer false
      else
        match operation with
        | "equals" => compares (← compared) [.eq]
        | "notEquals" => answer ((← compared) ≠ some .eq)
        | "after" => compares (← compared) [.gt]
        | "before" => compares (← compared) [.lt]
        | "afterOrEquals" => compares (← compared) [.gt, .eq]
        | "beforeOrEquals" => compares (← compared) [.lt, .eq]
        | _ => .ok none

def booleanOperation (operation : String) (doesExist : Bool) (left right : Value DateTime)
    : Except JsError (Option (Value DateTime)) :=
  match operation with
  | "empty" => answer !doesExist
  | "notEmpty" => answer doesExist
  | "true" => .ok (some left)
  | "false" => answer !left.isTruthy
  | "equals" => answer (left.isIdentical right)
  | "notEquals" => answer !(left.isIdentical right)
  | _ => .ok none

def arrayOperation (operation : String) (ignoreCase : Bool) (leftValue rightValue : Value DateTime)
    : Except JsError (Option (Value DateTime)) := do
  let left := if leftValue.isNullish then .array none [] else leftValue
  let length := Values.Value.length left
  let isEmpty := length.isIdentical (.number 0)
  match operation with
  | "contains" => answer (← arrayContainsValue runtime left rightValue ignoreCase)
  | "notContains" => answer !(← arrayContainsValue runtime left rightValue ignoreCase)
  | "lengthEquals" => answer (length.isIdentical rightValue)
  | "lengthNotEquals" => answer !(length.isIdentical rightValue)
  | "lengthGt" => compares (← runtime.engine.compare length rightValue) [.gt]
  | "lengthLt" => compares (← runtime.engine.compare length rightValue) [.lt]
  | "lengthGte" => compares (← runtime.engine.compare length rightValue) [.gt, .eq]
  | "lengthLte" => compares (← runtime.engine.compare length rightValue) [.lt, .eq]
  | "empty" => answer isEmpty
  | "notEmpty" => answer !isEmpty
  | _ => .ok none

def objectOperation (operation : String) (left : Value DateTime)
    : Except JsError (Option (Value DateTime)) :=
  let isEmpty := !left.isTruthy || runtime.engine.keyCount left = 0
  match operation with
  | "empty" => answer isEmpty
  | "notEmpty" => answer !isEmpty
  | _ => .ok none

/-- The cases of the switch from one type of operator on. A text operator alone ends in a `break`,
the others fall through to the types after them.
-/
def operations (operation : String) (ignoreCase doesExist : Bool) (left right : Value DateTime)
    : FilterOperatorType → List (Except JsError (Option (Value DateTime))) :=
  let number := numberOperation runtime operation doesExist left right
  let dateTime := dateTimeOperation runtime operation doesExist left right
  let boolean := booleanOperation operation doesExist left right
  let array := arrayOperation runtime operation ignoreCase left right
  let object := objectOperation runtime operation left
  fun
  | .string => [stringOperation runtime operation ignoreCase left right]
  | .number => [number, dateTime, boolean, array, object]
  | .dateTime => [dateTime, boolean, array, object]
  | .boolean => [boolean, array, object]
  | .array => [array, object]
  | .object => [object]
  | .any => []

/-- The first answer; an unknown operation is only warned about. -/
def firstAnswer : List (Except JsError (Option (Value DateTime))) → Except JsError (Value DateTime)
  | [] => .ok (.boolean false)
  | operation :: rest => do
      match ← operation with
      | some value => return value
      | none => firstAnswer rest

def executeFilterCondition (condition : FilterConditionValue DateTime)
    (filterOptions : FilterOptionsValue) (metadata : FilterConditionMetadata)
    : Except Thrown (Value DateTime) := do
  let ignoreCase := !filterOptions.caseSensitive
  match ← parseFilterConditionValues runtime condition filterOptions metadata with
  | .error error => throw (.filterError error)
  | .ok (leftValue, rightValue) =>
      let doesExist := !leftValue.isNullish && !leftValue.isNaN
      let operation := condition.operator.operation
      if operation = "exists" then return .boolean doesExist
      else if operation = "notExists" then return .boolean !doesExist
      else
        (firstAnswer
            (operations runtime operation ignoreCase doesExist leftValue rightValue
              condition.operator.type)).mapError .error

/-- The property that a filter belongs to; only its name is read. -/
structure INodeProperties where
  name : String
  deriving DecidableEq, Repr

abbrev Issues := Dict String (List String)

def issueKey (nodeProperties : INodeProperties) (index : Nat) : String :=
  nodeProperties.name ++ "." ++ toString index

/-- `issues[key].push(message)`, which fails where there is no list yet. -/
def pushIssue (issues : Issues) (key message : String) : Except Thrown Issues :=
  match issues.get? key with
  | some messages => .ok (issues.set key (messages ++ [message]))
  | none => .error (.error .typeError)

def validateCondition (nodeProperties : INodeProperties) (options : FilterOptionsValue)
    (issues : Issues) (condition : FilterConditionValue DateTime) (index : Nat)
    : Except Thrown Issues :=
  let metadata : FilterConditionMetadata :=
    {
      index := some index
      unresolvedExpressions := some true
      errorFormat := some .inline
    }
  match parseFilterConditionValues runtime condition options metadata with
  | .error (.filterError error) =>
      pushIssue issues (issueKey nodeProperties index) error.message
  | .error (.error _) => .ok issues
  | .ok _ => .ok issues

def validateFilterParameter (nodeProperties : INodeProperties) (value : FilterValue DateTime)
    : Except Thrown Issues :=
  value.conditions.zipIdx.foldlM
    (fun issues (condition, index) =>
      validateCondition runtime nodeProperties value.options issues condition index)
    .empty

end N8n.Filter
