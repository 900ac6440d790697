import N8n.Library.Prototypes

/-! The syntax of SDK code, as far as the interpreter tells its nodes apart, and what may
stand in it (`packages/@n8n/workflow-sdk/src/ast-interpreter/{errors,validators}.ts`).
-/

namespace N8n.WorkflowSdk

open N8n.Prototypes

inductive UnaryOperator where
  | minus
  | plus
  | not
  | typeof
  | void
  | other (operator : String)
  deriving DecidableEq, Repr

inductive BinaryOperator where
  | plus
  | minus
  | times
  | divide
  | remainder
  | power
  | equal
  | notEqual
  | strictEqual
  | strictNotEqual
  | less
  | lessEqual
  | greater
  | greaterEqual
  | other (operator : String)
  deriving DecidableEq, Repr

inductive LogicalOperator where
  | and
  | or
  | nullish
  deriving DecidableEq, Repr

/-- The value of a literal; a regular expression is an object that the parser has made. -/
inductive Literal (N : Type) where
  | scalar (s : Scalar N)
  | regExp (place : Nat)
  deriving DecidableEq, Repr

/-- A piece of a template; without a cooked text the raw one counts. -/
structure TemplateElement where
  cooked : Option String
  raw : String
  deriving DecidableEq, Repr

mutual
/-- `other` is any node of another type; patterns and `super` are among them. -/
inductive Expression (N : Type) where
  | call (callee : Expression N) (arguments : List (Expression N))
  | member (object property : Expression N) (computed : Bool)
  | object (properties : List (ObjectProperty N))
  | array (elements : List (Option (Expression N)))
  | identifier (name : String)
  | literal (value : Literal N)
  | template (quasis : List TemplateElement) (expressions : List (Expression N))
  | spread (argument : Expression N)
  | unary (operator : UnaryOperator) (isPrefix : Bool) (argument : Expression N)
  | binary (operator : BinaryOperator) (left right : Expression N)
  | logical (operator : LogicalOperator) (left right : Expression N)
  | conditional (test consequent alternate : Expression N)
  | assignment (operator : String) (left right : Expression N)
  | other (type : String)

inductive ObjectProperty (N : Type) where
  | spread (argument : Expression N)
  | property (key value : Expression N)
end

def UnaryOperator.text : UnaryOperator → String
  | .minus => "-"
  | .plus => "+"
  | .not => "!"
  | .typeof => "typeof"
  | .void => "void"
  | .other operator => operator

def BinaryOperator.text : BinaryOperator → String
  | .plus => "+"
  | .minus => "-"
  | .times => "*"
  | .divide => "/"
  | .remainder => "%"
  | .power => "**"
  | .equal => "=="
  | .notEqual => "!="
  | .strictEqual => "==="
  | .strictNotEqual => "!=="
  | .less => "<"
  | .lessEqual => "<="
  | .greater => ">"
  | .greaterEqual => ">="
  | .other operator => operator

def LogicalOperator.text : LogicalOperator → String
  | .and => "&&"
  | .or => "||"
  | .nullish => "??"

def Expression.type {N : Type} : Expression N → String
  | .call .. => "CallExpression"
  | .member .. => "MemberExpression"
  | .object _ => "ObjectExpression"
  | .array _ => "ArrayExpression"
  | .identifier _ => "Identifier"
  | .literal _ => "Literal"
  | .template .. => "TemplateLiteral"
  | .spread _ => "SpreadElement"
  | .unary .. => "UnaryExpression"
  | .binary .. => "BinaryExpression"
  | .logical .. => "LogicalExpression"
  | .conditional .. => "ConditionalExpression"
  | .assignment .. => "AssignmentExpression"
  | .other type => type

structure VariableDeclarator (N : Type) where
  id : Expression N
  init : Option (Expression N)

inductive Statement (N : Type) where
  | variableDeclaration (kind : String) (declarations : List (VariableDeclarator N))
  | expressionStatement (expression : Expression N)
  | exportDefaultDeclaration (declaration : Expression N)
  | other (type : String)

/-- What the parser gives: the statements, the regular expressions that are literals in them,
and the source text of an expression, by its location.
-/
structure Program (N : Type) where
  regExps : List (Record N)
  sourceText : Expression N → String
  body : List (Statement N)

def interpreterError (message : String) : JsError := .error "InterpreterError" message none

def unsupportedNodeError (nodeType : String) : JsError :=
  .error "UnsupportedNodeError"
    ("Unsupported syntax: '" ++ nodeType ++ "' is not allowed in SDK code") none

def securityError (pattern : String) : JsError :=
  .error "SecurityError" ("Security violation: '" ++ pattern ++ "' is not allowed") none

def unknownIdentifierError (identifier : String) : JsError :=
  .error "UnknownIdentifierError"
    ("Unknown identifier: '" ++ identifier ++ "' is not defined") none

def AUTO_RENAMEABLE_SDK_FUNCTIONS : List String :=
  ["languageModel", "memory", "tool", "outputParser", "embedding", "embeddings", "vectorStore",
    "retriever", "documentLoader", "textSplitter", "reranker"]

def ALLOWED_SDK_FUNCTIONS : List String :=
  ["workflow", "node", "trigger", "sticky", "placeholder", "newCredential", "ifElse",
    "switchCase", "merge", "splitInBatches", "nextBatch"]
  ++ AUTO_RENAMEABLE_SDK_FUNCTIONS ++ ["fromAi"]

def ALLOWED_METHODS : List String :=
  ["add", "to", "input", "output", "onError", "onTrue", "onFalse", "onCase", "onEachBatch",
    "onDone", "connect", "toJSON", "validate"]

def DANGEROUS_GLOBALS : List String :=
  ["eval", "Function", "require", "import", "process", "global", "globalThis", "window",
    "document", "setTimeout", "setInterval", "setImmediate", "clearTimeout", "clearInterval",
    "clearImmediate", "__dirname", "__filename", "module", "exports", "Buffer", "Reflect",
    "Proxy", "Object", "Array", "String", "Number", "Boolean", "Symbol", "BigInt", "JSON",
    "Math", "Date", "RegExp", "Promise", "WeakRef", "WeakMap", "WeakSet", "Map", "Set",
    "ArrayBuffer", "SharedArrayBuffer", "DataView", "Atomics", "WebAssembly", "fetch",
    "XMLHttpRequest", "queueMicrotask", "structuredClone", "Error", "TypeError", "RangeError",
    "console"]

def FORBIDDEN_NODE_TYPES : String → Option String
  | "ArrowFunctionExpression" =>
      some "Arrow functions are not allowed. Use fromAi() directly instead of ($) => $.fromAi()"
  | "FunctionExpression" => some "Function expressions are not allowed in SDK code"
  | "FunctionDeclaration" => some "Function declarations are not allowed in SDK code"
  | "ClassDeclaration" => some "Class declarations are not allowed in SDK code"
  | "ClassExpression" => some "Class expressions are not allowed in SDK code"
  | "ForStatement" => some "For loops are not allowed in SDK code"
  | "ForInStatement" => some "For-in loops are not allowed in SDK code"
  | "ForOfStatement" => some "For-of loops are not allowed in SDK code"
  | "WhileStatement" => some "While loops are not allowed in SDK code"
  | "DoWhileStatement" => some "Do-while loops are not allowed in SDK code"
  | "TryStatement" => some "Try-catch is not allowed in SDK code"
  | "ThrowStatement" => some "Throw statements are not allowed in SDK code"
  | "WithStatement" => some "With statements are not allowed in SDK code"
  | "UpdateExpression" => some "Update expressions (++, --) are not allowed in SDK code"
  | "NewExpression" => some "new expressions are not allowed. Use SDK factory functions instead."
  | "ImportDeclaration" => some "Import declarations are not allowed in SDK code"
  | "ImportExpression" => some "Dynamic imports are not allowed in SDK code"
  | "ExportNamedDeclaration" =>
      some "Named exports are not allowed. Use export default only."
  | "ExportAllDeclaration" => some "Re-exports are not allowed in SDK code"
  | "AwaitExpression" => some "Await expressions are not allowed in SDK code"
  | "YieldExpression" => some "Yield expressions are not allowed in SDK code"
  | _ => none

/-- The error for a node of a type that has no form of its own here, none of which is
allowed.
-/
def validateNodeType (type : String) : JsError :=
  match FORBIDDEN_NODE_TYPES type with
  | some reason => unsupportedNodeError (type ++ ": " ++ reason)
  | none => unsupportedNodeError type

variable {N : Type}

def validateIdentifier (name : String) : Except JsError Unit :=
  if name ∈ DANGEROUS_GLOBALS then
    .error (securityError ("Access to '" ++ name ++ "' is not allowed"))
  else .ok ()

/-- The callee is an identifier or a member expression, or neither. -/
def validateCallExpression : (callee : Expression N) → Except JsError Unit
  | .identifier name =>
      if name = "eval" then .error (securityError "eval()")
      else if name = "Function" then .error (securityError "Function()")
      else if name = "require" then .error (securityError "require()")
      else .ok ()
  | .member _ (.identifier name) _ =>
      if name = "constructor" then .error (securityError "constructor access") else .ok ()
  | _ => .ok ()

def validateMemberExpression (property : Expression N) (computed : Bool) : Except JsError Unit :=
  let isLiteral : Bool := match property with
    | .literal _ => true
    | _ => false
  let propName : Option String := match property with
    | .identifier name => some name
    | .literal (.scalar (.string s)) => some s
    | _ => none
  if computed ∧ isLiteral = false then
    .error (securityError "Dynamic property access is not allowed. Use static property names.")
  else
    match propName with
    | none => .ok ()
    | some name =>
        if name = "__proto__" ∨ name = "prototype" ∨ name = "constructor" then
          .error (securityError ("Access to '" ++ name ++ "' is not allowed"))
        else .ok ()

def rejectSuper : (object : Expression N) → Except JsError Unit
  | .other "Super" => .error (unsupportedNodeError "super keyword is not supported in SDK code")
  | _ => .ok ()

def isAllowedSDKFunction (name : String) : Bool := name ∈ ALLOWED_SDK_FUNCTIONS

def isAutoRenameableSDKFunction (name : String) : Bool := name ∈ AUTO_RENAMEABLE_SDK_FUNCTIONS

def isAllowedMethod (name : String) : Bool := name ∈ ALLOWED_METHODS

end N8n.WorkflowSdk
