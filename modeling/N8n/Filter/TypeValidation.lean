import N8n.Library.Text
import N8n.Library.Values

/-! The validation of values against a type (`packages/workflow/src/type-validation.ts`), for the
types that the operators of a filter have.
-/

namespace N8n.Filter

open N8n.Values (Engine)

inductive FilterOperatorType where
  | string
  | number
  | boolean
  | array
  | object
  | dateTime
  | any
  deriving DecidableEq, Repr

def FilterOperatorType.name : FilterOperatorType → String
  | .string => "string"
  | .number => "number"
  | .boolean => "boolean"
  | .array => "array"
  | .object => "object"
  | .dateTime => "dateTime"
  | .any => "any"

/-- The objects of classes: the dates of the language, and those of the library `luxon`. -/
inductive Moment (DateTime : Type) where
  | date (time : JsNumber)
  | dateTime (moment : DateTime)

abbrev Value (DateTime : Type) := Values.Value (Moment DateTime)

/-- What the code uses of the library `luxon`. -/
structure Luxon (DateTime : Type) where
  isValid : DateTime → Bool
  toMillis : DateTime → JsNumber
  text : DateTime → String
  keys : DateTime → List String
  fromJSDate : JsNumber → DateTime
  fromISO : String → DateTime
  fromHTTP : String → DateTime
  fromRFC2822 : String → DateTime
  fromSQL : String → DateTime
  fromMillis : JsNumber → DateTime

/-- What the code leaves to the language and to libraries. `regExp` makes the test of a regular
expression from its pattern and flags.
-/
structure Runtime (DateTime : Type) where
  numberText : JsNumber → String
  textNumber : String → JsNumber
  dateText : JsNumber → String
  parseDate : String → JsNumber
  toLowerCase : String → String
  toLocaleLowerCase : String → String
  regExp : String → String → Except JsError (String → Bool)
  stringify : Value DateTime → String
  parseJson : String → Except JsError (Value DateTime)
  parseJSObject : String → Except JsError (Value DateTime)
  luxon : Luxon DateTime

variable {DateTime : Type}

def Runtime.engine (runtime : Runtime DateTime) : Engine (Moment DateTime) where
  numberText := runtime.numberText
  textNumber := runtime.textNumber
  foreignText
    | .date time => runtime.dateText time
    | .dateTime moment => runtime.luxon.text moment
  foreignNumber
    | .date time => time
    | .dateTime moment => runtime.luxon.toMillis moment
  foreignKeys
    | .date _ => []
    | .dateTime moment => runtime.luxon.keys moment

inductive ValidationResult (DateTime : Type) where
  | invalid (errorMessage : String)
  | valid (newValue : Value DateTime)

def ValidationResult.isValid : ValidationResult DateTime → Bool
  | .invalid _ => false
  | .valid _ => true

def applicationError (message : String) : JsError := .error "ApplicationError" message none

section

variable (runtime : Runtime DateTime)

def tryToParseNumber (value : Value DateTime) : Except JsError (Value DateTime) := do
  let number ← runtime.engine.number value
  if number = .nan then throw (applicationError "Failed to parse value to number")
  else return .number number

def tryToParseString (value : Value DateTime) : Except JsError (Value DateTime) :=
  match value with
  | .undefined => .ok (.string "")
  | .null | .array _ _ | .object _ _ | .foreign _ _ => .ok (.string (runtime.stringify value))
  | .boolean _ | .number _ | .string _ => .ok (.string (runtime.engine.primitiveText value))

def isBlank : Value DateTime → Bool
  | .string s => Text.trim s.toList = []
  | _ => false

/-- `true` or `false`, in any case. -/
def booleanText : Value DateTime → Option Bool
  | .string s =>
      if runtime.toLowerCase s = "true" then some true
      else if runtime.toLowerCase s = "false" then some false
      else none
  | _ => none

def tryToParseBoolean (value : Value DateTime) : Except JsError (Value DateTime) := do
  match value, booleanText runtime value with
  | .boolean b, _ => return .boolean b
  | _, some b => return .boolean b
  | _, none =>
      if !isBlank value then
        let num ← runtime.engine.number value
        if num = 0 then return .boolean false
        else if num = 1 then return .boolean true
      throw (applicationError "Failed to parse value as boolean")

/-- Rely on luxon to parse different date formats. -/
def parseDateString (dateString : String) : Except JsError (Value DateTime) :=
  let luxon := runtime.luxon
  let parsed : List DateTime :=
    [
      luxon.fromISO dateString, luxon.fromHTTP dateString, luxon.fromRFC2822 dateString,
      luxon.fromSQL dateString, luxon.fromMillis (runtime.parseDate dateString)
    ]
  match parsed.find? luxon.isValid with
  | some moment => .ok (.foreign none (.dateTime moment))
  | none => .error (applicationError "Value is not a valid date")

def tryToParseDateTime (value : Value DateTime) : Except JsError (Value DateTime) := do
  let known : Option (Value DateTime) :=
    match value with
    | .foreign _ (.dateTime moment) => if runtime.luxon.isValid moment then some value else none
    | .foreign _ (.date time) =>
        let fromJSDate := runtime.luxon.fromJSDate time
        if runtime.luxon.isValid fromJSDate then some (.foreign none (.dateTime fromJSDate))
        else none
    | _ => none
  match known with
  | some moment => return moment
  | none =>
      let text ← runtime.engine.text value
      parseDateString runtime (String.ofList (Text.trim text.toList))

/-- `text.replace(/'/g, '"')`. -/
def withDoubleQuotes (text : String) : String :=
  String.ofList (text.toList.map (fun char => if char.toNat = 39 then Char.ofNat 34 else char))

def tryToParseArray (value : Value DateTime) : Except JsError (Value DateTime) :=
  let error := applicationError "Value is not a valid array"
  match value with
  | .array _ _ => .ok value
  | _ =>
      let parsed : Except JsError (Value DateTime) := do
        let text ← runtime.engine.text value
        runtime.parseJson text <|> runtime.parseJson (withDoubleQuotes text)
      match parsed with
      | .ok (.array reference items) => .ok (.array reference items)
      | _ => .error error

/-- `jsonParse` that accepts objects of the language. The text that is parsed may be `null`. -/
def tryToParseObject (value : Value DateTime) : Except JsError (Value DateTime) :=
  let error := applicationError "Value is not a valid object"
  match value with
  | .object _ _ | .foreign _ _ => .ok value
  | _ =>
      let parsed : Except JsError (Value DateTime) := do
        let text ← runtime.engine.text value
        runtime.parseJson text <|> runtime.parseJSObject text
      match parsed with
      | .ok (.array _ _) | .error _ => .error error
      | .ok o => if o.typeOf = "object" then .ok o else .error error

def getValueDescription (value : Value DateTime) : String :=
  match value with
  | .array _ _ => "array"
  | .object _ _ | .foreign _ _ => "object"
  | _ => "'" ++ runtime.engine.primitiveText value ++ "'"

/-- `try` to parse, and `catch` what is thrown. -/
def caught (errorMessage : String) : Except JsError (Value DateTime) → ValidationResult DateTime
  | .ok newValue => .valid newValue
  | .error _ => .invalid errorMessage

def isArray : Value DateTime → Bool
  | .array _ _ => true
  | _ => false

/-- `isObject(value)`, of the library `lodash`. -/
def isObject : Value DateTime → Bool
  | .array _ _ | .object _ _ | .foreign _ _ => true
  | _ => false

def validateFieldType (fieldName : String) (value : Value DateTime) (type : FilterOperatorType)
    (strict parseStrings : Bool)
    : ValidationResult DateTime :=
  if value.isNullish then .valid .undefined
  else
    let defaultErrorMessage :=
      "'" ++ fieldName ++ "' expects a " ++ type.name ++ " but we got "
        ++ getValueDescription runtime value
    match type with
    | .string =>
        if !parseStrings then .valid value
        else if strict && value.typeOf ≠ "string" then .invalid defaultErrorMessage
        else caught defaultErrorMessage (tryToParseString runtime value)
    | .number =>
        if strict && value.typeOf ≠ "number" then .invalid defaultErrorMessage
        else caught defaultErrorMessage (tryToParseNumber runtime value)
    | .boolean =>
        if strict && value.typeOf ≠ "boolean" then .invalid defaultErrorMessage
        else caught defaultErrorMessage (tryToParseBoolean runtime value)
    | .dateTime =>
        let luxonDocsURL :=
          "https://moment.github.io/luxon/api-docs/index.html#datetimefromformat"
        caught
          (defaultErrorMessage ++ " <br/><br/> Consider using <a href=\"" ++ luxonDocsURL
            ++ "\" target=\"_blank\"><code>DateTime.fromFormat</code></a> to work with custom "
            ++ "date formats.")
          (tryToParseDateTime runtime value)
    | .object =>
        if strict && !isObject value then .invalid defaultErrorMessage
        else caught defaultErrorMessage (tryToParseObject runtime value)
    | .array =>
        if strict && !isArray value then .invalid defaultErrorMessage
        else caught defaultErrorMessage (tryToParseArray runtime value)
    | .any => .valid value

end

end N8n.Filter
