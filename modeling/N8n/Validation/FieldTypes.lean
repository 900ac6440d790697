import Mathlib.Data.List.Infix
import N8n.Library.Exec
import N8n.Library.Numbers
import N8n.Library.Text

/-! When a validated field has its type (`packages/workflow/src/type-validation.ts`). An object
may refuse a conversion, or answer each one differently: a program counts those that it makes.
-/

namespace N8n.Validation

inductive FieldType where
  | string
  | stringAlphanumeric
  | number
  | boolean
  | time
  | object
  | array
  | url
  | jwt
  deriving DecidableEq

def FieldType.name : FieldType → String
  | .string => "string"
  | .stringAlphanumeric => "string-alphanumeric"
  | .number => "number"
  | .boolean => "boolean"
  | .time => "time"
  | .object => "object"
  | .array => "array"
  | .url => "url"
  | .jwt => "jwt"

/-- What `typeof` says of the values that have an identity or are none of the other kinds. -/
inductive HostType where
  | object
  | function
  | symbol
  | bigint
  deriving DecidableEq

inductive Value (Host : Type) where
  | undefined
  | null
  | boolean (b : Bool)
  | number (n : JsNumber)
  | string (s : String)
  | host (h : Host)

/-- What the code leaves to the language and to a parser of its objects. `text` and `number` are
the conversions with `String` and `Number`, after so many others; `isArray` throws for a
revoked proxy, and `stringify` has no text for some objects. `protocol` is that of `new URL`.
-/
structure Language (Host : Type) where
  typeOf : Host → HostType
  isTruthy : Host → Bool
  isArray : Host → Except JsError Bool
  text : Host → Nat → Except JsError String
  number : Host → Nat → Except JsError JsNumber
  numberText : JsNumber → String
  textNumber : String → JsNumber
  toLowerCase : String → String
  stringify : Host → Except JsError (Option String)
  parseJson : String → Except JsError (Value Host)
  parseJSObject : String → Except JsError (Value Host)
  protocol : String → Except JsError String
  isTruthy_object : ∀ h, typeOf h = .object → isTruthy h = true
  object_of_isArray : ∀ h, isArray h = .ok true → typeOf h = .object
  textless_of_isArray : ∀ h error made, isArray h = .error error → ∀ s, text h made ≠ .ok s

variable {Host : Type}

namespace Value

def isNullish : Value Host → Bool
  | .undefined | .null => true
  | _ => false

def isBoolean : Value Host → Bool
  | .boolean _ => true
  | _ => false

def isNumber : Value Host → Bool
  | .number _ => true
  | _ => false

def isString : Value Host → Bool
  | .string _ => true
  | _ => false

end Value

namespace Language

variable (language : Language Host)

def textAt (value : Value Host) (made : Nat) : Except JsError String :=
  match value with
  | .undefined => .ok "undefined"
  | .null => .ok "null"
  | .boolean b => .ok (if b then "true" else "false")
  | .number n => .ok (language.numberText n)
  | .string s => .ok s
  | .host h => language.text h made

def numberAt (value : Value Host) (made : Nat) : Except JsError JsNumber :=
  match value with
  | .undefined => .ok .nan
  | .null => .ok 0
  | .boolean b => .ok (if b then 1 else 0)
  | .number n => .ok n
  | .string s => .ok (language.textNumber s)
  | .host h => language.number h made

/-- The value is an object, and no array. -/
def IsPlain : Value Host → Prop
  | .host h => language.typeOf h = .object ∧ language.isArray h = .ok false
  | _ => False

def HasType : FieldType → Value Host → Prop
  | .number, .number _ | .boolean, .boolean _ => True
  | .string, .string _ | .stringAlphanumeric, .string _ | .time, .string _ | .url, .string _
  | .jwt, .string _ => True
  | .object, value => language.IsPlain value
  | .array, .host h => language.isArray h = .ok true
  | _, _ => False

end Language

inductive ValidationResult (Host : Type) where
  | invalid (errorMessage : String)
  | valid (newValue : Value Host)

/-! ### Regular expressions -/

/-- What a part of a regular expression may leave of a text. -/
abbrev Matcher := List Char → List (List Char)

def one (accepts : Char → Bool) : Matcher
  | [] => []
  | char :: rest => if accepts char then [rest] else []

def inTurn (parts : List Matcher) : Matcher :=
  fun text => parts.foldl (fun texts part => texts.flatMap part) [text]

def optional (part : Matcher) : Matcher := fun text => part text ++ [text]

/-- `/^\d{2}:\d{2}(:\d{2})?((\-|\+)\d{4})?((\-|\+)\d{1,2}(:\d{2})?)?$/s`. -/
def isTimeInput (text : String) : Bool :=
  let digit := one Char.isDigit
  let colon := one (· = ':')
  let sign := one (fun char => char = '-' || char = '+')
  let more := optional (inTurn [colon, digit, digit])
  [] ∈ inTurn
    [
      digit, digit, colon, digit, digit, more,
      optional (inTurn [sign, digit, digit, digit, digit]),
      optional (inTurn [sign, digit, optional digit, more])
    ]
    text.toList

/-- `/^[a-zA-Z_][a-zA-Z0-9_]*$/`. -/
def isAlphanumericString (text : String) : Bool :=
  match text.toList with
  | [] => false
  | first :: rest =>
      !first.isDigit && (first :: rest).all (fun char => Text.isAlphanumeric char || char = '_')

/-- `/^[A-Za-z0-9-_]+\.[A-Za-z0-9-_]+\.[A-Za-z0-9-_.+/=]*$/`. -/
def jwtPattern (text : String) : Bool :=
  let isWord (char : Char) : Bool := Text.isAlphanumeric char || char = '-' || char = '_'
  match text.toList.splitOn '.' with
  | header :: payload :: signature =>
      header ≠ [] && header.all isWord && payload ≠ [] && payload.all isWord
        && signature ≠ []
        && signature.all (fun part =>
            part.all (fun char => isWord char || char = '+' || char = '/' || char = '='))
  | _ => false

/-! ### Conversions -/

/-- One more conversion. -/
def asked {α : Type} (answer : Nat → Except JsError α) : Exec Nat α := fun made =>
  match answer made with
  | .ok result => .ok result (made + 1)
  | .error error => .error error (made + 1)

section

variable (language : Language Host)

/-- `String(value)`. -/
def textOf (value : Value Host) : Exec Nat String := asked (language.textAt value)

/-- `Number(value)`. -/
def numberOf (value : Value Host) : Exec Nat JsNumber := asked (language.numberAt value)

def given {α : Type} : Except JsError α → Exec Nat α
  | .ok result => pure result
  | .error error => throw error

/-- `typeof value === 'object'`. -/
def isObjectType : Value Host → Bool
  | .null => true
  | .host h => language.typeOf h = .object
  | _ => false

def isTruthy : Value Host → Bool
  | .undefined | .null => false
  | .boolean b => b
  | .number n => n ≠ 0 && n ≠ .nan
  | .string s => s ≠ ""
  | .host h => language.isTruthy h

/-- `Array.isArray(value)`. -/
def isArray : Value Host → Exec Nat Bool
  | .host h => given (language.isArray h)
  | _ => pure false

/-- `value && typeof value === 'object' && !Array.isArray(value)`. -/
def isPlainObject (value : Value Host) : Exec Nat Bool :=
  if isTruthy language value && isObjectType language value then
    (!·) <$> isArray language value
  else return false

/-- `isObject(value)`, of the library `lodash`. -/
def isObject : Value Host → Bool
  | .host h => language.typeOf h = .object || language.typeOf h = .function
  | _ => false

def applicationError (message : String) : JsError := .error "ApplicationError" message none

def tryToParseNumber (value : Value Host) : Exec Nat JsNumber := do
  if (← numberOf language value) = .nan then
    throw (applicationError "Failed to parse value to number")
  else numberOf language value

/-- The result may be `undefined`, which no text is. -/
def tryToParseString (value : Value Host) : Exec Nat (Option String) :=
  match value with
  | .undefined => return some ""
  | .host h =>
      if language.typeOf h = .object then given (language.stringify h)
      else some <$> textOf language value
  | _ => some <$> textOf language value

def ofText? : Option String → Value Host
  | none => .undefined
  | some text => .string text

/-- The regular expression is tested with the text of `undefined` where there is no other. -/
def tryToParseAlphanumericString (value : Value Host) : Exec Nat (Option String) := do
  let parsed ← tryToParseString language value
  if isAlphanumericString (parsed.getD "undefined") then return parsed
  else throw (applicationError "Value is not a valid alphanumeric string")

/-- `true` or `false`, in any case. -/
def booleanText : Value Host → Option Bool
  | .string s =>
      if language.toLowerCase s = "true" then some true
      else if language.toLowerCase s = "false" then some false
      else none
  | _ => none

def isBlank : Value Host → Bool
  | .string s => Text.trim s.toList = []
  | _ => false

def tryToParseBoolean (value : Value Host) : Exec Nat Bool := do
  let error := applicationError "Failed to parse value as boolean"
  match value, booleanText language value with
  | .boolean b, _ => return b
  | _, some b => return b
  | _, none =>
      if isBlank value then throw error
      else
        let num ← numberOf language value
        if num = 0 then return false
        else if num = 1 then return true
        else throw error

def tryToParseTime (value : Value Host) : Exec Nat String := do
  if isTimeInput (← textOf language value) then textOf language value
  else throw (applicationError "Value is not a valid time")

/-- `text.replace(/'/g, '"')`. -/
def withDoubleQuotes (text : String) : String :=
  String.ofList (text.toList.map (fun char => if char.toNat = 39 then Char.ofNat 34 else char))

def tryToParseArray (value : Value Host) : Exec Nat (Value Host) :=
  let error := applicationError "Value is not a valid array"
  tryCatch
    (do
      if ← (if isObjectType language value then isArray language value else pure false) then
        return value
      else
        let parsed ←
          tryCatch (do given (language.parseJson (← textOf language value)))
            (fun _ => do
              given (language.parseJson (withDoubleQuotes (← textOf language value))))
        if ← isArray language parsed then return parsed else throw error)
    (fun _ => throw error)

/-- `jsonParse(text, { acceptJSObject: true })`. -/
def jsonParse (text : String) : Except JsError (Value Host) :=
  match language.parseJson text with
  | .ok parsed => .ok parsed
  | .error error =>
      match language.parseJSObject text with
      | .ok parsed => .ok parsed
      | .error _ => .error error

def tryToParseObject (value : Value Host) : Exec Nat (Value Host) := do
  let error := applicationError "Value is not a valid object"
  if ← isPlainObject language value then return value
  else
    tryCatch
      (do
        let o ← given (jsonParse language (← textOf language value))
        if !isObjectType language o then throw error
        else if ← isArray language o then throw error
        else return o)
      (fun _ => throw error)

def ALLOWED_URL_PROTOCOLS : List String := ["http:", "https:", "ftp:", "file:"]

def withProtocol (text : String) : String :=
  if "://".toList <:+: text.toList then text else "https://" ++ text

def tryToParseUrl (value : Value Host) : Exec Nat String := do
  let value : Value Host :=
    match value with
    | .string s => .string (withProtocol s)
    | _ => value
  let refuse : Exec Nat String := do
    let text ← textOf language value
    throw (applicationError ("The value \"" ++ text ++ "\" is not a valid url."))
  tryCatch
    (do
      let parsed ← given (language.protocol (← textOf language value))
      if parsed ∈ ALLOWED_URL_PROTOCOLS then textOf language value else refuse)
    (fun
      | .error "ApplicationError" message description =>
          throw (.error "ApplicationError" message description)
      | _ => refuse)

def tryToParseJwt (value : Value Host) : Exec Nat String := do
  let text ← textOf language value
  let error := applicationError ("The value \"" ++ text ++ "\" is not a valid JWT token.")
  if !isTruthy language value then throw error
  else if jwtPattern (← textOf language value) then textOf language value
  else throw error

def getValueDescription (value : Value Host) : Exec Nat String := do
  if isObjectType language value then
    if value matches .null then return "'null'"
    else if ← isArray language value then return "array"
    else return "object"
  else return "'" ++ (← textOf language value) ++ "'"

def caught (errorMessage : String) (parse : Exec Nat (Value Host))
    : Exec Nat (ValidationResult Host) :=
  tryCatch (.valid <$> parse) (fun _ => return .invalid errorMessage)

def validateFieldType (fieldName : String) (strict parseStrings : Bool) (type : FieldType)
    (value : Value Host)
    : Exec Nat (ValidationResult Host) := do
  if value.isNullish then return .valid .undefined
  else
    let description ← getValueDescription language value
    let defaultErrorMessage :=
      "'" ++ fieldName ++ "' expects a " ++ type.name ++ " but we got " ++ description
    let checked (accepted : Bool) (parse : Exec Nat (Value Host)) :=
      if strict && !accepted then return .invalid defaultErrorMessage
      else caught defaultErrorMessage parse
    match type with
    | .string =>
        if !parseStrings then return .valid value
        else checked value.isString (ofText? <$> tryToParseString language value)
    | .stringAlphanumeric =>
        caught
          ("Value is not a valid alphanumeric string, only letters, numbers and underscore "
            ++ "allowed")
          (ofText? <$> tryToParseAlphanumericString language value)
    | .number => checked value.isNumber (.number <$> tryToParseNumber language value)
    | .boolean => checked value.isBoolean (.boolean <$> tryToParseBoolean language value)
    | .time =>
        tryCatch ((.valid ∘ .string) <$> tryToParseTime language value) (fun _ => do
          let description ← getValueDescription language value
          return .invalid
            ("'" ++ fieldName ++ "' expects time (hh:mm:(:ss)) but we got " ++ description
              ++ "."))
    | .object => checked (isObject language value) (tryToParseObject language value)
    | .array =>
        let accepted ← if strict then isArray language value else pure true
        checked accepted (tryToParseArray language value)
    | .url => caught defaultErrorMessage (.string <$> tryToParseUrl language value)
    | .jwt =>
        caught "Value is not a valid JWT token" (.string <$> tryToParseJwt language value)

end

/-! ### Values that keep their type -/

variable (language : Language Host) (strict parseStrings : Bool)

/-- The value has the type, and a validation gives it back. -/
def Stays (type : FieldType) (newValue : Value Host) (made : Nat) : Prop :=
  language.HasType type newValue
  ∧ ∀ fieldName,
      (validateFieldType language fieldName strict parseStrings type newValue).Ensures made
        (fun again _ => again = .valid newValue) (fun _ => False)

/-- Nothing is thrown, and a valid new value stays what it is. -/
def Trusted (fieldName : String) (type : FieldType) (value : Value Host) (made : Nat) : Prop :=
  (validateFieldType language fieldName strict parseStrings type value).Ensures made
    (fun result final =>
      ∀ newValue, result = .valid newValue → Stays language strict parseStrings type newValue final)
    (fun _ => False)

/-- `JSON.stringify` has a text for the value, or throws. -/
def HasText (value : Value Host) : Prop :=
  ∀ h, value = .host h → language.typeOf h = .object → language.stringify h ≠ .ok none

def Described (value : Value Host) (made : Nat) : Prop :=
  (getValueDescription language value).Ensures made (fun _ _ => True) (fun _ => False)

def Allowed (url : String) : Prop :=
  ∃ protocol, language.protocol url = .ok protocol ∧ protocol ∈ ALLOWED_URL_PROTOCOLS

/-- What a value passes when it is validated again. -/
def Passes : FieldType → Value Host → Prop
  | .boolean, .boolean _ | .string, .string _ => True
  | .number, .number n => n ≠ .nan
  | .stringAlphanumeric, .string s => isAlphanumericString s = true
  | .time, .string s => isTimeInput s = true
  | .url, .string s => withProtocol s = s ∧ Allowed language s
  | .jwt, .string s => jwtPattern s = true
  | .object, value => language.IsPlain value
  | .array, .host h => language.isArray h = .ok true
  | _, _ => False

/-- What the conversions answer behind the first `first` ones, so that a valid new value stays
what it is.
-/
def KeepsType (value : Value Host) (first : Nat) : FieldType → Prop
  | .boolean | .array => True
  | .string =>
      if parseStrings then (strict = true → value.isString = true) → HasText language value
      else value.isString = true
  | .stringAlphanumeric => HasText language value
  | .number =>
      (strict = true → value.isNumber = true)
      → ∀ tested, language.numberAt value first = .ok tested
          → tested ≠ .nan
          → ∀ number, language.numberAt value (first + 1) = .ok number → number ≠ .nan
  | .time =>
      (∀ error, language.textAt value first = .error error → Described language value (first + 1))
      ∧ ∀ tested, language.textAt value first = .ok tested
          → if isTimeInput tested then
              (∀ error, language.textAt value (first + 1) = .error error
                → Described language value (first + 2))
              ∧ ∀ text, language.textAt value (first + 1) = .ok text → isTimeInput text = true
            else Described language value (first + 1)
  | .object =>
      (strict = true → isObject language value = true)
      → language.IsPlain value
        ∨ ∀ text, language.textAt value first = .ok text → jsonParse language text ≠ .ok .null
  | .url =>
      value.isString = false
      → ∀ tested, language.textAt value first = .ok tested
          → Allowed language tested
          → ∀ text, language.textAt value (first + 1) = .ok text
              → withProtocol text = text ∧ Allowed language text
  | .jwt =>
      ∀ described, language.textAt value first = .ok described
      → isTruthy language value = true
      → ∀ tested, language.textAt value (first + 1) = .ok tested
          → jwtPattern tested = true
          → ∀ text, language.textAt value (first + 2) = .ok text → jwtPattern text = true

/-! ### What the conversions ensure -/

section

attribute [local simp] Exec.ensures_bind_iff

variable {language : Language Host} {strict parseStrings : Bool} {value : Value Host}
  {made : Nat} {bad : Nat → Prop}

variable {α : Type} {good : α → Nat → Prop}

@[simp]
theorem ensures_ite_iff {condition : Prop} [Decidable condition] {first second : Exec Nat α}
    : (if condition then first else second).Ensures made good bad
      ↔ if condition then first.Ensures made good bad else second.Ensures made good bad := by
  split <;> rfl

@[simp]
theorem ensures_asked_iff {answer : Nat → Except JsError α}
    : (asked answer).Ensures made good bad
      ↔ (∀ error, answer made = .error error → bad (made + 1))
        ∧ ∀ result, answer made = .ok result → good result (made + 1) := by
  unfold Exec.Ensures asked
  cases answer made <;> simp

@[simp]
theorem ensures_given_iff {answer : Except JsError α}
    : (given answer).Ensures made good bad
      ↔ (∀ error, answer = .error error → bad made)
        ∧ ∀ result, answer = .ok result → good result made := by
  cases answer <;> simp [given]

@[simp]
theorem ensures_caught_iff {message : String} {parse : Exec Nat (Value Host)}
    {good : ValidationResult Host → Nat → Prop}
    : (caught message parse).Ensures made good bad
      ↔ parse.Ensures made (fun newValue => good (.valid newValue)) (good (.invalid message)) := by
  simp [caught]

variable {program : Exec Nat α}

theorem ensures_congr {better : α → Nat → Prop}
    (same : ∀ result final, good result final ↔ better result final)
    : program.Ensures made good bad ↔ program.Ensures made better bad := by
  unfold Exec.Ensures
  split
  · exact same _ _
  · rfl

theorem ensures_true (program : Exec Nat α)
    : program.Ensures made (fun _ _ => True) (fun _ => True) := by
  unfold Exec.Ensures
  split <;> trivial

/-- A handler that always throws gives no result. -/
theorem ensures_tryCatch_iff {handler : JsError → Exec Nat α} {bad : Prop}
    (refuses : ∀ error middle, (handler error).Ensures middle (fun _ _ => False) (fun _ => True))
    : (tryCatch program handler).Ensures made good (fun _ => bad)
      ↔ program.Ensures made good (fun _ => bad) := by
  unfold Exec.Ensures at *
  simp only [tryCatch, tryCatchThe, MonadExceptOf.tryCatch, EStateM.tryCatch,
    EStateM.Backtrackable.restore, EStateM.dummyRestore]
  cases program made with
  | ok => rfl
  | error error middle =>
      have refused := refuses error middle
      cases ran : handler error middle <;> simp_all

theorem stays_url {text : String}
    : (tryToParseUrl language (.string text)).Ensures made (fun again _ => again = text)
        (fun _ => False)
      ↔ withProtocol text = text ∧ Allowed language text := by
  rw [tryToParseUrl, ensures_tryCatch_iff]
  · simp [Allowed, Language.textAt, textOf]
    constructor
    · rintro ⟨noError, accepted⟩
      cases answer : language.protocol (withProtocol text) with
      | error error => exact absurd answer (noError error)
      | ok protocol =>
          obtain ⟨isAllowed, same⟩ := accepted protocol answer
          exact ⟨same, protocol, same ▸ answer, isAllowed⟩
    · rintro ⟨same, protocol, answer, isAllowed⟩
      simp [same, answer, isAllowed]
  · intro error middle
    split <;> simp [Language.textAt, textOf]

theorem stays_iff (type : FieldType)
    : Stays language strict parseStrings type value made ↔ Passes language type value := by
  cases value with
  | host h =>
      have ofArray := language.object_of_isArray h
      have ofObject := language.isTruthy_object h
      cases type <;>
        simp [Stays, Passes, Language.HasType, Language.IsPlain, validateFieldType,
          Value.isNullish, getValueDescription, isObjectType, tryToParseArray, tryToParseObject,
          isPlainObject, isArray, isObject, isTruthy]
      all_goals
        intros
        simp_all
  | string s =>
      have nonempty (isJwt : jwtPattern s = true) : s ≠ "" := by
        rintro rfl
        exact absurd isJwt (by decide)
      cases type <;>
        simp [Stays, Passes, Language.HasType, Language.IsPlain, validateFieldType,
          Value.isNullish, Value.isString, getValueDescription, isObjectType, textOf,
          Language.textAt, isTruthy, tryToParseTime, tryToParseJwt, tryToParseAlphanumericString,
          tryToParseString, ofText?, stays_url]
      exact nonempty
  | _ =>
      cases type <;>
        simp [Stays, Passes, Language.HasType, Language.IsPlain, validateFieldType,
          Value.isNullish, Value.isNumber, Value.isBoolean, getValueDescription, isObjectType,
          textOf, numberOf, Language.textAt, Language.numberAt, tryToParseNumber,
          tryToParseBoolean]

end

/-! ### The exact condition -/

section

attribute [local simp] Exec.ensures_bind_iff

variable {language : Language Host} {value : Value Host} {made : Nat}

theorem ensures_tryToParseUrl_iff {good : String → Nat → Prop}
    : (tryToParseUrl language value).Ensures made good (fun _ => True)
      ↔ match value with
        | .string s => Allowed language (withProtocol s) → good (withProtocol s) (made + 2)
        | _ =>
            ∀ tested, language.textAt value made = .ok tested
            → Allowed language tested
            → ∀ text, language.textAt value (made + 1) = .ok text → good text (made + 2) := by
  unfold tryToParseUrl
  rw [ensures_tryCatch_iff]
  · cases value <;> simp [textOf, Language.textAt, Allowed]
  · intro error middle
    split <;> simp [textOf]

theorem withProtocol_again (text : String)
    : withProtocol (withProtocol text) = withProtocol text := by
  have present : "://".toList <:+: (withProtocol text).toList := by
    unfold withProtocol
    split
    · assumption
    · exact ⟨"https".toList, text.toList, by simp⟩
  exact if_pos present

theorem answers_of_described (described : Described language value made)
    : ∀ h, value = .host h → ∃ answer, language.isArray h = .ok answer := by
  rintro h rfl
  cases answer : language.isArray h with
  | ok isArray => exact ⟨isArray, rfl⟩
  | error error =>
      by_cases isObject : language.typeOf h = .object
      · simp [Described, getValueDescription, isObjectType, isObject, isArray, answer]
          at described
      · simp [Described, getValueDescription, isObjectType, isObject, textOf, Language.textAt]
          at described
        cases text : language.text h made with
        | ok text => exact absurd text (language.textless_of_isArray h error made answer _)
        | error => exact absurd text (described _)

theorem ensures_tryToParseString_iff (made : Nat)
    : (tryToParseString language value).Ensures made (fun parsed _ => parsed.isSome = true)
        (fun _ => True)
      ↔ HasText language value := by
  cases value with
  | host h =>
      by_cases isObject : language.typeOf h = .object
      · simp only [tryToParseString, HasText, isObject, Option.isSome_iff_ne_none]
        aesop
      · simp [tryToParseString, HasText, isObject, textOf]
  | _ => simp [tryToParseString, HasText, textOf, Language.textAt]

theorem tryToParseArray_isArray (value : Value Host)
    : (tryToParseArray language value).Ensures made
        (fun newValue _ => Passes language .array newValue) (fun _ => True) := by
  have isArray_passes (value : Value Host) (made : Nat)
      : (isArray language value).Ensures made
          (fun isArray _ => isArray = true → Passes language .array value) (fun _ => True) := by
    cases value <;> simp [isArray, Passes]
  simp [tryToParseArray, isArray_passes, textOf]

/-- Of the texts of objects only `null` is parsed to no object. -/
theorem ensures_tryToParseObject_iff
    (answers : ∀ h, value = .host h → ∃ answer, language.isArray h = .ok answer)
    : (tryToParseObject language value).Ensures made
        (fun newValue _ => language.IsPlain newValue) (fun _ => True)
      ↔ language.IsPlain value
        ∨ ∀ text, language.textAt value made = .ok text
            → jsonParse language text ≠ .ok .null := by
  have plain (o : Value Host) (middle : Nat) (isObject : isObjectType language o = true)
      : (isArray language o).Ensures middle
          (fun result _ => result = false → language.IsPlain o) (fun _ => True)
        ↔ o ≠ .null := by
    cases o <;> simp_all [isArray, Language.IsPlain, isObjectType]
  have parsed (middle : Nat)
      : (∀ text, language.textAt value middle = .ok text
          → ∀ o, jsonParse language text = .ok o
              → isObjectType language o = true
                → (isArray language o).Ensures (middle + 1)
                  (fun result _ => result = false → language.IsPlain o) (fun _ => True))
        ↔ ∀ text, language.textAt value middle = .ok text
            → jsonParse language text ≠ .ok .null := by
    constructor
    · intro kept text isText isNull
      exact (plain .null (middle + 1) rfl).mp (kept text isText .null isNull rfl) rfl
    · intro noNull text isText o isParsed isObject
      exact (plain o (middle + 1) isObject).mpr
        (fun isNull => noNull text isText (isNull ▸ isParsed))
  by_cases isPlain : language.IsPlain value
  · cases value with
    | host h =>
        simp [tryToParseObject, isPlainObject, isPlain, isObjectType, isArray, isPlain.1,
          isPlain.2, isTruthy, language.isTruthy_object h isPlain.1]
    | _ => exact isPlain.elim
  · simp [tryToParseObject, isPlainObject, textOf, isPlain, parsed]
    intro truthy isObject
    cases value with
    | host h =>
        obtain ⟨answer, isAnswer⟩ := answers h rfl
        have isArray : answer ≠ false := fun isFalse =>
          isPlain ⟨by simpa [isObjectType] using isObject, isFalse ▸ isAnswer⟩
        simp [N8n.Validation.isArray, isAnswer, isArray]
    | _ => simp [isTruthy, isObjectType] at truthy isObject

variable (language) (strict parseStrings : Bool)

/-- Every value that can be described stays what it becomes exactly when its conversions answer
as its type needs.
-/
theorem validateFieldType_trusted_iff (fieldName : String) (type : FieldType)
    (value : Value Host) (made : Nat)
    : Trusted language strict parseStrings fieldName type value made
      ↔ value.isNullish = false
        ∧ (getValueDescription language value).Ensures made
            (fun _ first => KeepsType language strict parseStrings value first type)
            (fun _ => False) := by
  unfold Trusted validateFieldType
  cases nullish : value.isNullish with
  | true => cases type <;> simp [stays_iff, Passes, Language.IsPlain]
  | false =>
      have described {good : String → Nat → Prop}
          (ensures : (getValueDescription language value).Ensures made good (fun _ => False))
          : Described language value made :=
        ensures.mono (fun _ _ _ => trivial) (fun _ => id)
      simp only [Bool.false_eq_true, if_false, Exec.ensures_bind_iff, true_and]
      by_cases isDescribed : Described language value made
      case neg => exact iff_of_false (isDescribed ∘ described) (isDescribed ∘ described)
      have answers := answers_of_described isDescribed
      refine ensures_congr (fun _ first => ?_)
      cases type with
      | number => simp [stays_iff, Passes, tryToParseNumber, numberOf, KeepsType]
      | time => simp [stays_iff, Passes, tryToParseTime, KeepsType, Described, textOf]
      | jwt => simp [stays_iff, Passes, tryToParseJwt, KeepsType, textOf]
      | boolean => simp [stays_iff, Passes, KeepsType, ensures_true]
      | object => simp [stays_iff, Passes, ensures_tryToParseObject_iff answers, KeepsType]
      | url =>
          cases value <;>
            simp [stays_iff, Passes, KeepsType, ensures_tryToParseUrl_iff, Value.isString,
              withProtocol_again]
      | array =>
          simp [stays_iff, KeepsType, tryToParseArray_isArray]
          cases value with
          | host h =>
              obtain ⟨answer, isAnswer⟩ := answers h rfl
              simp [isArray, isAnswer]
          | _ => simp [isArray]
      | stringAlphanumeric =>
          simp only [KeepsType, ← ensures_tryToParseString_iff first]
          simp [stays_iff, tryToParseAlphanumericString]
          refine ensures_congr (fun parsed _ => ?_)
          cases parsed <;>
            simp [show isAlphanumericString "undefined" = true from by decide, Passes, ofText?]
      | string =>
          have isText (parsed : Option String)
              : Passes language .string (ofText? parsed) ↔ parsed.isSome = true := by
            cases parsed <;> simp [Passes, ofText?]
          simp only [KeepsType, ← ensures_tryToParseString_iff first]
          cases parseStrings with
          | true => simp [stays_iff, isText]
          | false => cases value <;> simp [stays_iff, Passes, Value.isString]

end

/-- Only the text `null` is JSON here. -/
def onlyNull : Language Empty where
  typeOf := nofun
  isTruthy := nofun
  isArray := nofun
  text := nofun
  number := nofun
  numberText _ := ""
  textNumber _ := .nan
  toLowerCase text := text
  stringify := nofun
  parseJson text := if text = "null" then .ok .null else .error .typeError
  parseJSObject _ := .error .typeError
  protocol _ := .error .typeError
  isTruthy_object := nofun
  object_of_isArray := nofun
  textless_of_isArray := nofun

theorem not_trusted_null : ¬ Trusted onlyNull false true "field" .object (.string "null") 0 :=
  fun trusted => (trusted .null rfl).1

end N8n.Validation
