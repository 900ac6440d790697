import N8n.Library.JavaScript
import N8n.Library.Numbers
import N8n.Library.Unicode

/-! Values of the source language, with the conversions and comparisons that its operators make. -/

namespace N8n

namespace JsNumber

/-- How two numbers compare; NaN compares with none. -/
def compare : JsNumber → JsNumber → Option Ordering
  | .nan, _ | _, .nan => none
  | .finite first, .finite second =>
      some (if first < second then .lt else if first = second then .eq else .gt)
  | .infinity first, .infinity second =>
      some (if first = second then .eq else if first then .lt else .gt)
  | .finite _, .infinity isNegative => some (if isNegative then .gt else .lt)
  | .infinity isNegative, .finite _ => some (if isNegative then .lt else .gt)

/-- `first === second`. -/
def isEqual (first second : JsNumber) : Bool := first.compare second = some .eq

end JsNumber

namespace Values

/-- `F` has the objects of classes. Two objects are one where they have the same reference, and an
object that nothing else refers to has none. The properties of an object are data.
-/
inductive Value (F : Type) where
  | undefined
  | null
  | boolean (b : Bool)
  | number (n : JsNumber)
  | string (s : String)
  | array (reference : Option Nat) (items : List (Value F))
  | object (reference : Option Nat) (entries : List (String × Value F))
  | foreign (reference : Option Nat) (host : F)

/-- What the language leaves to its implementation and to the classes of the objects. -/
structure Engine (F : Type) where
  numberText : JsNumber → String
  textNumber : String → JsNumber
  foreignText : F → String
  foreignNumber : F → JsNumber
  foreignKeys : F → List String

variable {F : Type}

namespace Value

def typeOf : Value F → String
  | .undefined => "undefined"
  | .boolean _ => "boolean"
  | .number _ => "number"
  | .string _ => "string"
  | .null | .array _ _ | .object _ _ | .foreign _ _ => "object"

def isNullish : Value F → Bool
  | .undefined | .null => true
  | _ => false

/-- `Number.isNaN(value)`. -/
def isNaN : Value F → Bool
  | .number .nan => true
  | _ => false

/-- `Boolean(value)`. -/
def isTruthy : Value F → Bool
  | .undefined | .null => false
  | .boolean b => b
  | .number n => n ≠ 0 && n ≠ .nan
  | .string s => s ≠ ""
  | .array _ _ | .object _ _ | .foreign _ _ => true

def reference? : Value F → Option Nat
  | .array reference _ => reference
  | .object reference _ => reference
  | .foreign reference _ => reference
  | _ => none

/-- `first === second`. -/
def isIdentical (first second : Value F) : Bool :=
  match first, second with
  | .undefined, .undefined => true
  | .null, .null => true
  | .boolean first, .boolean second => first = second
  | .number first, .number second => first.isEqual second
  | .string first, .string second => first = second
  | first, second => first.reference?.isSome && first.reference? = second.reference?

/-- `items.includes(value)`. -/
def includes (items : List (Value F)) (value : Value F) : Bool :=
  items.any (fun item => item.isIdentical value || item.isNaN && value.isNaN)

/-- `value.length` of a value that is not nullish. -/
def length : Value F → Value F
  | .array _ items => .number (.finite items.length)
  | .string s => .number (.finite (Unicode.utf16 s.toList).length)
  | .object _ entries =>
      ((entries.find? (fun entry => entry.1 = "length")).map Prod.snd).getD .undefined
  | _ => .undefined

end Value

namespace Engine

variable (engine : Engine F)

/-- `String(value)` of a value that is no object. -/
def primitiveText : Value F → String
  | .undefined => "undefined"
  | .null => "null"
  | .boolean b => if b then "true" else "false"
  | .number n => engine.numberText n
  | .string s => s
  | _ => ""

mutual

/-- `String(value)`. An object whose property `toString` is no function has no text. -/
def text : Value F → Except JsError String
  | .array _ items => (itemTexts items).map (String.intercalate ",")
  | .object _ entries =>
      if entries.any (fun entry => entry.1 = "toString") then .error .typeError
      else .ok "[object Object]"
  | .foreign _ host => .ok (engine.foreignText host)
  | value => .ok (engine.primitiveText value)

def itemTexts : List (Value F) → Except JsError (List String)
  | [] => .ok []
  | item :: rest => do
      let first ← if item.isNullish then .ok "" else text item
      let others ← itemTexts rest
      return first :: others

end

/-- A value that is no object, for a number. -/
def primitive : Value F → Except JsError (Value F)
  | .foreign _ host => .ok (.number (engine.foreignNumber host))
  | .array reference items => (engine.text (.array reference items)).map .string
  | .object reference entries => (engine.text (.object reference entries)).map .string
  | value => .ok value

def primitiveNumber : Value F → JsNumber
  | .null => 0
  | .boolean b => if b then 1 else 0
  | .number n => n
  | .string s => engine.textNumber s
  | _ => .nan

/-- `Number(value)`. -/
def number (value : Value F) : Except JsError JsNumber :=
  (engine.primitive value).map engine.primitiveNumber

/-- How `<` and its like compare two values. -/
def compare (first second : Value F) : Except JsError (Option Ordering) := do
  match ← engine.primitive first, ← engine.primitive second with
  | .string first, .string second =>
      let units (text : String) : List Nat := (Unicode.utf16 text.toList).map UInt16.toNat
      return some (List.compareLex Ord.compare (units first) (units second))
  | first, second =>
      return (engine.primitiveNumber first).compare (engine.primitiveNumber second)

/-- `Object.keys(value).length` of a value that is not nullish. -/
def keyCount : Value F → Nat
  | .array _ items => items.length
  | .string s => (Unicode.utf16 s.toList).length
  | .object _ entries => entries.length
  | .foreign _ host => (engine.foreignKeys host).length
  | _ => 0

end Engine

end Values

end N8n
