import N8n.Library.Exec
import N8n.WorkflowSdk.Validators

/-! The interpreter of SDK code (`packages/@n8n/workflow-sdk/src/ast-interpreter/interpreter.ts`).
It keeps, besides its own state, a trace of the functions it invokes and of what it reads.
-/

namespace N8n.WorkflowSdk

open N8n.Objects (Key)
open N8n.Prototypes

/-! ### What the program runs in -/

/-- The language and the functions there are: what a function does when it is called in a
region of the heap, how the operators act on values that are no objects, and where the
prototypes are.
-/
structure Environment (N : Type) where
  call : Address → Value N → List (Value N) → Nat → Heap N → Except JsError (Value N) × Heap N
  stringify : List (Value N) → Nat → Heap N → Except JsError (Value N) × Heap N
  repeatString : String → List (Value N) → Nat → Heap N → Except JsError (Value N) × Heap N
  unary : UnaryOperator → Scalar N → Except JsError (Scalar N)
  binary : BinaryOperator → Scalar N → Scalar N → Except JsError (Scalar N)
  typeOf : N → String
  isTruthy : N → Bool
  text : N → String
  number : Nat → N
  stringLength : String → N
  charAt : String → Nat → Option String
  notANumber : N
  infinity : N
  toLength : Value N → Option Nat
  literalJson : Literal N → String
  objectPrototype : Address
  arrayPrototype : Address
  stringPrototype : Address
  booleanPrototype : Address
  atomPrototype : N → Address
  functionApply : Address
  depth : Nat

/-- How the interpreter has come to invoke a function. -/
inductive Route where
  | sdkFunction (name : String)
  | variable (name : String)
  | method (name : String)
  | safeMethod (name : String)
  | apply (function : Address)
  | conversion (name : String)
  deriving DecidableEq, Repr

inductive Callee where
  | function (address : Address)
  | stringify
  | repeatString
  deriving DecidableEq, Repr

inductive Event (N : Type) where
  | invoked (callee : Callee) (route : Route)
  | returned (value : Value N)
  | read (key : Key) (value : Value N)
  | assigned (target : Value N) (key : Key) (value : Value N)
  | converted (value : Value N)
  deriving DecidableEq

structure State (N : Type) where
  heap : Heap N
  variableMap : Dict String (Value N)
  renamedVariables : Dict String String
  trace : List (Event N)

/-- New objects are made in a region of the heap. -/
structure SDKInterpreter (N : Type) where
  environment : Environment N
  sdkFunctions : Dict String Address
  sourceText : Expression N → String
  region : Nat

abbrev Interpretation (N : Type) := Exec (State N)

variable {N : Type} [DecidableEq N]

def record (event : Event N) : Interpretation N Unit :=
  modify (fun state => { state with trace := state.trace ++ [event] })

def raise {α : Type} : Except JsError α → Interpretation N α
  | .ok result => pure result
  | .error error => throw error

/-- A string as a property key. -/
def keyOf (s : String) : Key :=
  match s.toNat? with
  | some n => if toString n = s ∧ n < 4294967295 then .index n else .name s
  | none => .name s

def isTruthy (environment : Environment N) : Value N → Bool
  | .scalar .undefined => false
  | .scalar .null => false
  | .scalar (.boolean b) => b
  | .scalar (.string s) => s ≠ ""
  | .scalar (.atom a) => environment.isTruthy a
  | .object _ => true
  | .function _ => true

def typeOf (environment : Environment N) : Value N → String
  | .scalar .undefined => "undefined"
  | .scalar .null => "object"
  | .scalar (.boolean _) => "boolean"
  | .scalar (.string _) => "string"
  | .scalar (.atom a) => environment.typeOf a
  | .object _ => "object"
  | .function _ => "function"

def scalarText (environment : Environment N) : Scalar N → String
  | .undefined => "undefined"
  | .null => "null"
  | .boolean true => "true"
  | .boolean false => "false"
  | .string s => s
  | .atom a => environment.text a

namespace SDKInterpreter

variable (interpreter : SDKInterpreter N)

/-! ### Operations of the language -/

/-- What is read of a property that an object has or inherits. -/
def propertyFrom (heap : Heap N) (key : Key) (address : Address) : Value N :=
  match heap.find? key interpreter.environment.depth address with
  | none => .undefined
  | some (.length n) => .scalar (.atom (interpreter.environment.number n))
  | some (.value (.data value _ _)) => value
  | some (.value .prototype) => .undefined

/-- `value[key]` on the heap; `undefined` and `null` have no properties. -/
def property (heap : Heap N) (value : Value N) (key : Key) : Value N :=
  match value with
  | .object address => interpreter.propertyFrom heap key address
  | .function address => interpreter.propertyFrom heap key address
  | .scalar (.string s) =>
      match key with
      | .index n =>
          match interpreter.environment.charAt s n with
          | some char => .string char
          | none => interpreter.propertyFrom heap key interpreter.environment.stringPrototype
      | .name name =>
          if name = "length" then .scalar (.atom (interpreter.environment.stringLength s))
          else interpreter.propertyFrom heap key interpreter.environment.stringPrototype
  | .scalar (.boolean _) =>
      interpreter.propertyFrom heap key interpreter.environment.booleanPrototype
  | .scalar (.atom a) =>
      interpreter.propertyFrom heap key (interpreter.environment.atomPrototype a)
  | .scalar _ => .undefined

/-- Runs code that the interpreter does not look into. -/
def external (run : Nat → Heap N → Except JsError (Value N) × Heap N)
    : Interpretation N (Value N) := do
  let state ← get
  let heap := state.heap
  modify (fun state => { state with heap := (run interpreter.region heap).2 })
  let value ← raise (run interpreter.region heap).1
  record (.returned value)
  pure value

def invoke (function : Address) (route : Route) (thisArg : Value N) (args : List (Value N))
    : Interpretation N (Value N) := do
  record (.invoked (.function function) route)
  interpreter.external (interpreter.environment.call function thisArg args)

def allocate (object : Record N) : Interpretation N Address := do
  let state ← get
  let heap := state.heap
  modify (fun state => { state with heap := (heap.allocate interpreter.region object).2 })
  pure (heap.allocate interpreter.region object).1

/-- `object[key] = value` for an object or a function. -/
def put (address : Address) (key : Key) (value : Value N) : Interpretation N Unit := do
  let state ← get
  let heap ← raise (state.heap.put interpreter.environment.depth address key value
    (interpreter.environment.toLength value))
  modify (fun state => { state with heap })

def array (values : List (Value N)) : Interpretation N (Value N) := do
  let elements := values.map (fun value => Property.data value true true)
  let address ← interpreter.allocate
    ⟨.object interpreter.environment.arrayPrototype, true, Objects.arrayOf elements⟩
  pure (.object address)

/-- `func.apply(thisArg, args)`, for which `func` has an `apply` of its own or inherits one. -/
def applyFunction (func : Address) (route : Route) (thisArg : Value N) (args : List (Value N))
    : Interpretation N (Value N) := do
  let state ← get
  match interpreter.property state.heap (.function func) (.name "apply") with
  | .function apply =>
      if apply = interpreter.environment.functionApply then
        interpreter.invoke func route thisArg args
      else do
        let list ← interpreter.array args
        interpreter.invoke apply (.apply func) (.function func) [thisArg, list]
  | _ => throw .typeError

/-- The first of the methods that gives a value that is no object. -/
def convertBy (value : Value N) : List String → Interpretation N (Scalar N)
  | [] => throw .typeError
  | name :: others => do
      let state ← get
      match interpreter.property state.heap value (.name name) with
      | .function address =>
          match ← interpreter.invoke address (.conversion name) value [] with
          | .scalar s => pure s
          | _ => convertBy value others
      | _ => convertBy value others

def toPrimitive (prefersText : Bool) (value : Value N) : Interpretation N (Scalar N) :=
  match value with
  | .scalar s => pure s
  | _ => do
      record (.converted value)
      interpreter.convertBy value
        (if prefersText then ["toString", "valueOf"] else ["valueOf", "toString"])

/-- `String(value)`. -/
def toText (value : Value N) : Interpretation N String := do
  let s ← interpreter.toPrimitive true value
  pure (scalarText interpreter.environment s)

def literalKey : Literal N → Key
  | .scalar s => keyOf (scalarText interpreter.environment s)
  | .regExp place => keyOf (interpreter.sourceText (.literal (.regExp place)))

def literalValue : Literal N → Value N
  | .scalar s => .scalar s
  | .regExp place => .object ⟨interpreter.region, place⟩

/-! ### Expressions -/

section

variable (evaluate : Expression N → Interpretation N (Value N))

/-- The arguments of a call, from left to right. -/
def evaluateAll : List (Expression N) → Interpretation N (List (Value N))
  | [] => pure []
  | node :: rest => do
      let value ← evaluate node
      let values ← evaluateAll rest
      pure (value :: values)

/-- What a table of safe methods has under a name: its own method, or a function that every
object inherits.
-/
def getSafeMethod (own methodName : String) (key : Key)
    : Interpretation N (Option (Option (Value N))) := do
  if methodName = own then pure (some none)
  else
    let state ← get
    let inherited := interpreter.property state.heap
      (.object interpreter.environment.objectPrototype) key
    if isTruthy interpreter.environment inherited then pure (some (some inherited))
    else pure none

def getSafeJSONMethod (object : Expression N) (methodName : String) (key : Key)
    : Interpretation N (Option (Option (Value N))) :=
  match object with
  | .identifier "JSON" => interpreter.getSafeMethod "stringify" methodName key
  | _ => pure none

def getSafeStringMethod (value : Value N) (methodName : String) (key : Key)
    : Interpretation N (Option (String × Option (Value N))) :=
  match value with
  | .scalar (.string s) => do
      let found ← interpreter.getSafeMethod "repeat" methodName key
      pure (found.map (fun safeMethod => (s, safeMethod)))
  | _ => pure none

/-- Calls a safe method; one that is inherited is called with nothing as `this`. -/
def callSafeMethod (callee : Callee) (methodName : String) (inherited : Option (Value N))
    (run : Nat → Heap N → Except JsError (Value N) × Heap N) (args : List (Value N))
    : Interpretation N (Value N) := do
  match inherited with
  | none => do
      record (.invoked callee (.safeMethod methodName))
      interpreter.external run
  | some (.function function) =>
      interpreter.invoke function (.safeMethod methodName) .undefined args
  | some _ => throw .typeError

/-- An identifier is never an index. -/
def methodNameOf : Expression N → Except JsError (String × Key)
  | .identifier name => .ok (name, .name name)
  | .literal (.scalar (.string s)) => .ok (s, keyOf s)
  | _ => .error (unsupportedNodeError "Dynamic method name")

/-- `thisArg[methodName]`, where `thisArg` is an object and no function. -/
def methodOf (heap : Heap N) (thisArg : Value N) (key : Key) : Value N :=
  match thisArg with
  | .object _ => interpreter.property heap thisArg key
  | _ => .undefined

def visitMethodCall (object property : Expression N) (computed : Bool)
    (arguments : List (Expression N))
    : Interpretation N (Value N) := do
  raise (validateMemberExpression property computed)
  raise (rejectSuper object)
  let (methodName, key) ← raise (methodNameOf property)
  let safeMethod ← interpreter.getSafeJSONMethod object methodName key
  match safeMethod with
  | some safeMethod => do
      let args ← evaluateAll evaluate arguments
      interpreter.callSafeMethod .stringify methodName safeMethod
        (interpreter.environment.stringify args) args
  | none => do
      let thisArg ← evaluate object
      let safeStringMethod ← interpreter.getSafeStringMethod thisArg methodName key
      match safeStringMethod with
      | some (s, safeMethod) => do
          let args ← evaluateAll evaluate arguments
          interpreter.callSafeMethod .repeatString methodName safeMethod
            (interpreter.environment.repeatString s args) (.string s :: args)
      | none =>
          if isAllowedMethod methodName then do
            let state ← get
            match interpreter.methodOf state.heap thisArg key with
            | .function func => do
                let args ← evaluateAll evaluate arguments
                interpreter.applyFunction func (.method methodName) thisArg args
            | _ => throw (interpreterError "Cannot call non-function")
          else
            throw (securityError ("Method '" ++ methodName ++ "' is not an allowed SDK method"))

/-- The function that a name stands for, if it is one of the SDK or a variable. -/
def resolveFunction (name : String) : Interpretation N (Value N × Route) := do
  let state ← get
  match interpreter.sdkFunctions.get? name with
  | some func => pure (.function func, .sdkFunction name)
  | none =>
      let resolvedName := (state.renamedVariables.get? name).getD name
      match state.variableMap.get? resolvedName with
      | some value => pure (value, .variable name)
      | none => throw (unknownIdentifierError name)

def visitCallExpression (callee : Expression N) (arguments : List (Expression N))
    : Interpretation N (Value N) := do
  raise (validateCallExpression callee)
  match callee with
  | .identifier name => do
      let (func, route) ← interpreter.resolveFunction name
      match func with
      | .function func => do
          let args ← evaluateAll evaluate arguments
          interpreter.applyFunction func route .undefined args
      | _ => throw (interpreterError "Cannot call non-function")
  | .member object property computed =>
      interpreter.visitMethodCall evaluate object property computed arguments
  | _ => throw (unsupportedNodeError ("Callee type " ++ callee.type))

/-- The key that a member expression reads or assigns. -/
def memberKey (what : String) (property : Expression N) (computed : Bool)
    : Except JsError Key :=
  match property with
  | .literal literal => .ok (interpreter.literalKey literal)
  | .identifier name =>
      if computed then .error (unsupportedNodeError what) else .ok (.name name)
  | _ => .error (unsupportedNodeError what)

def visitMemberExpression (object property : Expression N) (computed : Bool)
    : Interpretation N (Value N) := do
  raise (validateMemberExpression property computed)
  raise (rejectSuper object)
  let obj ← evaluate object
  match obj with
  | .scalar .null => throw (interpreterError "Cannot access property on null")
  | .scalar .undefined => throw (interpreterError "Cannot access property on undefined")
  | _ => do
      let key ← raise (interpreter.memberKey "Dynamic property access" property computed)
      let state ← get
      let value := interpreter.property state.heap obj key
      record (.read key value)
      pure value

/-- `Object.assign(result, source)`, which reads the enumerable properties that the source has
itself.
-/
def assign (result : Address) (source : Record N) : List Key → Interpretation N Unit
  | [] => pure ()
  | key :: others =>
      match source.table.get? key with
      | some (.data value _ true) => do
          interpreter.put result key value
          assign result source others
      | _ => assign result source others

/-- `{ ...spreadValue }`, which takes nothing from a value that is no object. -/
def spreadInto (result : Address) (spreadValue : Value N) : Interpretation N Unit :=
  match spreadValue with
  | .object source => do
      let state ← get
      match state.heap.record? source with
      | none => pure ()
      | some object => interpreter.assign result object object.table.ownKeys
  | _ => pure ()

def objectKey : Expression N → Except JsError Key
  | .identifier name => .ok (.name name)
  | .literal (.scalar (.string s)) => .ok (keyOf s)
  | .literal (.scalar (.atom a)) =>
      if interpreter.environment.typeOf a = "number" then
        .ok (keyOf (interpreter.environment.text a))
      else .error (unsupportedNodeError "Object key type Literal")
  | key => .error (unsupportedNodeError ("Object key type " ++ key.type))

def visitProperties (result : Address) : List (ObjectProperty N) → Interpretation N Unit
  | [] => pure ()
  | .spread argument :: rest => do
      let spreadValue ← evaluate argument
      interpreter.spreadInto result spreadValue
      visitProperties result rest
  | .property key value :: rest => do
      let key ← raise (interpreter.objectKey key)
      let value ← evaluate value
      interpreter.put result key value
      visitProperties result rest

def visitObjectExpression (properties : List (ObjectProperty N))
    : Interpretation N (Value N) := do
  let result ← interpreter.allocate
    ⟨.object interpreter.environment.objectPrototype, true, Objects.Table.empty⟩
  interpreter.visitProperties evaluate result properties
  pure (.object result)

/-- The elements of an array; another value has none. -/
def items (heap : Heap N) (value : Value N) : List (Value N) :=
  match value with
  | .object address =>
      match heap.record? address with
      | none => []
      | some array =>
          (List.range (array.table.length.getD 0)).map (fun place =>
            interpreter.property heap value (.index place))
  | _ => []

def visitElement : Option (Expression N) → Interpretation N (List (Value N))
  | none => pure [.undefined]
  | some (.spread argument) => do
      let spreadValue ← evaluate argument
      let state ← get
      pure (interpreter.items state.heap spreadValue)
  | some element => do
      let value ← evaluate element
      pure [value]

def visitElements : List (Option (Expression N)) → Interpretation N (List (Value N))
  | [] => pure []
  | element :: rest => do
      let values ← interpreter.visitElement evaluate element
      let others ← visitElements rest
      pure (values ++ others)

def visitArrayExpression (elements : List (Option (Expression N)))
    : Interpretation N (Value N) := do
  let result ← interpreter.visitElements evaluate elements
  interpreter.array result

def visitIdentifier (name : String) : Interpretation N (Value N) := do
  raise (validateIdentifier name)
  let state ← get
  let resolvedName := (state.renamedVariables.get? name).getD name
  match state.variableMap.get? resolvedName with
  | some value => pure value
  | none =>
      match interpreter.sdkFunctions.get? name with
      | some function => pure (.function function)
      | none =>
          match name with
          | "undefined" => pure .undefined
          | "null" => pure (.scalar .null)
          | "true" => pure (.scalar (.boolean true))
          | "false" => pure (.scalar (.boolean false))
          | "NaN" => pure (.scalar (.atom interpreter.environment.notANumber))
          | "Infinity" => pure (.scalar (.atom interpreter.environment.infinity))
          | _ => throw (unknownIdentifierError name)

def isN8nRuntimeVariable : Expression N → Bool
  | .identifier name => name.startsWith "$"
  | .member object _ _ => isN8nRuntimeVariable object
  | .call (.identifier name) _ => name.startsWith "$"
  | .call (.member object _ _) _ => isN8nRuntimeVariable object
  | _ => false

mutual
def expressionToString : Expression N → String
  | .identifier name => name
  | .member object property computed =>
      let obj := expressionToString object
      if computed then
        match property with
        | .literal value => obj ++ "[" ++ interpreter.environment.literalJson value ++ "]"
        | _ => obj ++ "[" ++ expressionToString property ++ "]"
      else
        match property with
        | .identifier name => obj ++ "." ++ name
        | _ => obj ++ "."
  | .call callee arguments =>
      expressionToString callee ++ "(" ++ ", ".intercalate (argumentTexts arguments) ++ ")"
  | .literal value =>
      match value with
      | .scalar (.string s) =>
          interpreter.environment.literalJson (.scalar (.string s))
      | .scalar s => scalarText interpreter.environment s
      | .regExp place => interpreter.sourceText (.literal (.regExp place))
  | .binary operator left right =>
      expressionToString left ++ " " ++ operator.text ++ " " ++ expressionToString right
  | .logical operator left right =>
      expressionToString left ++ " " ++ operator.text ++ " " ++ expressionToString right
  | .conditional test consequent alternate =>
      expressionToString test ++ " ? " ++ expressionToString consequent ++ " : "
      ++ expressionToString alternate
  | .unary operator isPrefix argument =>
      if isPrefix then operator.text ++ expressionToString argument
      else expressionToString argument ++ operator.text
  | expression => interpreter.sourceText expression

def argumentTexts : List (Expression N) → List String
  | [] => []
  | .spread argument :: rest => ("..." ++ expressionToString argument) :: argumentTexts rest
  | argument :: rest => expressionToString argument :: argumentTexts rest
end

def evaluateTemplateExpression (expression : Expression N) : Interpretation N String := do
  if isN8nRuntimeVariable expression then
    pure ("$\x7b" ++ interpreter.expressionToString expression ++ "\x7d")
  else do
    let value ← evaluate expression
    interpreter.toText value

def visitTemplateLiteral
    : List TemplateElement → List (Expression N) → Interpretation N String
  | [], _ => pure ""
  | quasi :: quasis, [] => do
      let rest ← visitTemplateLiteral quasis []
      pure (quasi.cooked.getD quasi.raw ++ rest)
  | quasi :: quasis, expression :: expressions => do
      let value ← interpreter.evaluateTemplateExpression evaluate expression
      let rest ← visitTemplateLiteral quasis expressions
      pure (quasi.cooked.getD quasi.raw ++ value ++ rest)

def visitUnaryExpression (operator : UnaryOperator) (argument : Expression N)
    : Interpretation N (Value N) := do
  let arg ← evaluate argument
  match operator with
  | .not => pure (.scalar (.boolean (!isTruthy interpreter.environment arg)))
  | .typeof => pure (.string (typeOf interpreter.environment arg))
  | .void => pure .undefined
  | .other operator => throw (unsupportedNodeError ("Unary operator " ++ operator))
  | operator => do
      let s ← interpreter.toPrimitive false arg
      let result ← raise (interpreter.environment.unary operator s)
      pure (.scalar result)

/-- An operator on two values that are no objects, made so first where they are. -/
def arithmetic (operator : BinaryOperator) (left right : Value N)
    : Interpretation N (Value N) := do
  let left ← interpreter.toPrimitive false left
  let right ← interpreter.toPrimitive false right
  let result ← raise (interpreter.environment.binary operator left right)
  pure (.scalar result)

def looselyEqual (left right : Value N) : Interpretation N (Value N) :=
  match left.address?, right.address? with
  | some _, some _ => pure (.scalar (.boolean (left = right)))
  | none, none => interpreter.arithmetic .equal left right
  | _, _ =>
      if left = .undefined ∨ left = .scalar .null ∨ right = .undefined ∨ right = .scalar .null
        then pure (.scalar (.boolean false))
      else interpreter.arithmetic .equal left right

def strictlyEqual (left right : Value N) : Interpretation N (Value N) :=
  match left, right with
  | .scalar left, .scalar right => do
      let result ← raise (interpreter.environment.binary .strictEqual left right)
      pure (.scalar result)
  | _, _ => pure (.scalar (.boolean (left = right)))

def isString : Value N → Bool
  | .scalar (.string _) => true
  | _ => false

def negate (value : Value N) : Value N :=
  .scalar (.boolean (!isTruthy interpreter.environment value))

def visitBinaryExpression (operator : BinaryOperator) (left right : Expression N)
    : Interpretation N (Value N) := do
  let left ← evaluate left
  let right ← evaluate right
  match operator with
  | .plus =>
      if isString left ∨ isString right then do
        let leftText ← interpreter.toText left
        let rightText ← interpreter.toText right
        pure (.string (leftText ++ rightText))
      else interpreter.arithmetic .plus left right
  | .equal => interpreter.looselyEqual left right
  | .notEqual => do
      let equal ← interpreter.looselyEqual left right
      pure (interpreter.negate equal)
  | .strictEqual => interpreter.strictlyEqual left right
  | .strictNotEqual => do
      let equal ← interpreter.strictlyEqual left right
      pure (interpreter.negate equal)
  | .other operator => throw (unsupportedNodeError ("Binary operator " ++ operator))
  | operator => interpreter.arithmetic operator left right

def visitLogicalExpression (operator : LogicalOperator) (left right : Expression N)
    : Interpretation N (Value N) := do
  let left ← evaluate left
  match operator with
  | .and => if isTruthy interpreter.environment left then evaluate right else pure left
  | .or => if isTruthy interpreter.environment left then pure left else evaluate right
  | .nullish =>
      if left = .undefined ∨ left = .scalar .null then evaluate right else pure left

def visitConditionalExpression (test consequent alternate : Expression N)
    : Interpretation N (Value N) := do
  let test ← evaluate test
  if isTruthy interpreter.environment test then evaluate consequent else evaluate alternate

def visitAssignmentExpression (operator : String) (left right : Expression N)
    : Interpretation N (Value N) :=
  match operator, left with
  | "=", .member object property computed => do
      raise (validateMemberExpression property computed)
      raise (rejectSuper object)
      let obj ← evaluate object
      match obj with
      | .scalar .null => throw (interpreterError "Cannot assign property on null")
      | .scalar .undefined => throw (interpreterError "Cannot assign property on undefined")
      | _ => do
          let key ← raise (interpreter.memberKey "Dynamic property assignment" property computed)
          let value ← evaluate right
          record (.assigned obj key value)
          match obj with
          | .scalar _ => throw .typeError
          | .object address | .function address => do
              interpreter.put address key value
              pure value
  | "=", _ =>
      throw (unsupportedNodeError
        ("Only property assignment (e.g., obj.prop = value) is allowed. "
          ++ "Variable reassignment is not permitted."))
  | operator, _ =>
      throw (unsupportedNodeError ("Assignment operator '" ++ operator
        ++ "' is not allowed. Only '=' is permitted."))

def evaluateNode (node : Expression N) : Interpretation N (Value N) :=
  match node with
  | .call callee arguments => interpreter.visitCallExpression evaluate callee arguments
  | .member object property computed =>
      interpreter.visitMemberExpression evaluate object property computed
  | .object properties => interpreter.visitObjectExpression evaluate properties
  | .array elements => interpreter.visitArrayExpression evaluate elements
  | .identifier name => interpreter.visitIdentifier name
  | .literal value => pure (interpreter.literalValue value)
  | .template quasis expressions => do
      let text ← interpreter.visitTemplateLiteral evaluate quasis expressions
      pure (.string text)
  | .spread argument => evaluate argument
  | .unary operator _ argument => interpreter.visitUnaryExpression evaluate operator argument
  | .binary operator left right => interpreter.visitBinaryExpression evaluate operator left right
  | .logical operator left right =>
      interpreter.visitLogicalExpression evaluate operator left right
  | .conditional test consequent alternate =>
      interpreter.visitConditionalExpression evaluate test consequent alternate
  | .assignment operator left right =>
      interpreter.visitAssignmentExpression evaluate operator left right
  | .other type => throw (validateNodeType type)

end

/-! ### Programs -/

def MAX_EVAL_DEPTH : Nat := 500

/-- Evaluates an expression as long as the nesting is less deep than the budget. -/
def evaluate : (budget : Nat) → Expression N → Interpretation N (Value N)
  | 0, _ =>
      throw (interpreterError "Expression nesting too deep (possible cycle in method chain)")
  | budget + 1, node => interpreter.evaluateNode (evaluate budget) node

/-- The first of `base`, `base1`, `base2` and so on that is not taken. -/
def generateSafeName (variableMap : Dict String (Value N)) (name : String) : String :=
  let base := "my" ++ name.capitalize
  let taken (candidate : String) : Bool :=
    (variableMap.get? candidate).isSome || (interpreter.sdkFunctions.get? candidate).isSome
  let places := variableMap.keys.length + interpreter.sdkFunctions.keys.length
  let candidates :=
    base :: (List.range places).map (fun counter => base ++ toString (counter + 1))
  (candidates.find? (fun candidate => !taken candidate)).getD base

def declare (name : String) (value : Value N) : Interpretation N Unit :=
  modify (fun state => { state with variableMap := state.variableMap.set name value })

def evaluateInit (init : Option (Expression N)) : Interpretation N (Value N) :=
  match init with
  | none => pure .undefined
  | some init => interpreter.evaluate MAX_EVAL_DEPTH init

def visitDeclarator (declarator : VariableDeclarator N) : Interpretation N Unit := do
  match declarator.id with
  | .identifier name =>
      if isAllowedSDKFunction name then
        if isAutoRenameableSDKFunction name then do
          let state ← get
          let safeName := interpreter.generateSafeName state.variableMap name
          let value ← interpreter.evaluateInit declarator.init
          modify (fun state =>
            { state with renamedVariables := state.renamedVariables.set name safeName })
          declare safeName value
        else
          throw (securityError ("'" ++ name
            ++ "' is a reserved SDK function name and cannot be used as a variable name. "
            ++ "Use a different name like 'my" ++ name.capitalize ++ "'."))
      else do
        let value ← interpreter.evaluateInit declarator.init
        declare name value
  | _ => throw (unsupportedNodeError "Destructuring in variable declaration")

def visitVariableDeclaration (kind : String) (declarations : List (VariableDeclarator N))
    : Interpretation N Unit :=
  if kind = "const" then declarations.forM interpreter.visitDeclarator
  else throw (securityError ("'" ++ kind ++ "' declarations are not allowed. Use 'const' only."))

/-- The statements in turn, with the value of the last expression so far. -/
def interpret : (body : List (Statement N)) → (result : Value N) → Interpretation N (Value N)
  | [], result => pure result
  | .variableDeclaration kind declarations :: rest, result => do
      interpreter.visitVariableDeclaration kind declarations
      interpret rest result
  | .expressionStatement expression :: rest, _ => do
      let value ← interpreter.evaluate MAX_EVAL_DEPTH expression
      interpret rest value
  | .exportDefaultDeclaration declaration :: _, _ =>
      interpreter.evaluate MAX_EVAL_DEPTH declaration
  | .other type :: _, _ => throw (validateNodeType type)

end SDKInterpreter

/-- Interprets a program on a heap, in a region of it where nothing is yet. -/
def interpretProgram (environment : Environment N) (sdkFunctions : Dict String Address)
    (region : Nat) (heap : Heap N) (program : Program N)
    : EStateM.Result JsError (State N) (Value N) :=
  let interpreter : SDKInterpreter N := ⟨environment, sdkFunctions, program.sourceText, region⟩
  interpreter.interpret program.body .undefined
    ⟨Function.update heap region program.regExps, Dict.empty, Dict.empty, []⟩

end N8n.WorkflowSdk
