import N8n.Sandbox.ThisSanitizer

/-! The pass that keeps an expression away from unsafe properties and reserved names
(`packages/workflow/src/expression-sandboxing.ts`), and the check that it leaves for run
time.
-/

namespace N8n.Sandbox

def unsafeObjectProperties : List String :=
  [
    "__proto__", "prototype", "constructor", "getPrototypeOf", "mainModule", "binding",
    "_linkedBinding", "_load", "prepareStackTrace", "__lookupGetter__", "__lookupSetter__",
    "__defineGetter__", "__defineSetter__", "caller", "arguments", "getBuiltinModule",
    "dlopen", "execve", "loadEnvFile"
  ]

def isSafeObjectProperty (property : String) : Bool := property ∉ unsafeObjectProperties

/-- The set of unsafe properties holds strings only. -/
def LiteralValue.isSafeObjectProperty : LiteralValue → Bool
  | .string value => Sandbox.isSafeObjectProperty value
  | _ => true

def ExpressionError (message : String) : JsError := .error "ExpressionError" message none

def ExpressionReservedVariableError (variableName : String) : JsError :=
  .error "ExpressionReservedVariableError"
    s!"Cannot use \"{variableName}\" due to security concerns" none

def ExpressionClassExtensionError (baseClass : String) : JsError :=
  .error "ExpressionClassExtensionError"
    s!"Cannot extend \"{baseClass}\" due to security concerns" none

def ExpressionDestructuringError (property : String) : JsError :=
  .error "ExpressionDestructuringError"
    s!"Cannot destructure \"{property}\" due to security concerns" none

def ExpressionComputedDestructuringError : JsError :=
  .error "ExpressionComputedDestructuringError"
    "Computed property names in destructuring are not allowed due to security concerns" none

def ExpressionWithStatementError : JsError :=
  .error "ExpressionWithStatementError"
    "Cannot use \"with\" statements due to security concerns" none

def cannotAccess (property : String) : JsError :=
  ExpressionError s!"Cannot access \"{property}\" due to security concerns"

def NodeType.toText : NodeType → String
  | .file => "File" | .program => "Program"
  | .expressionStatement => "ExpressionStatement" | .blockStatement => "BlockStatement"
  | .staticBlock => "StaticBlock" | .emptyStatement => "EmptyStatement"
  | .debuggerStatement => "DebuggerStatement" | .withStatement => "WithStatement"
  | .returnStatement => "ReturnStatement" | .labeledStatement => "LabeledStatement"
  | .breakStatement => "BreakStatement" | .continueStatement => "ContinueStatement"
  | .ifStatement => "IfStatement" | .switchStatement => "SwitchStatement"
  | .switchCase => "SwitchCase" | .throwStatement => "ThrowStatement"
  | .tryStatement => "TryStatement" | .catchClause => "CatchClause"
  | .whileStatement => "WhileStatement" | .doWhileStatement => "DoWhileStatement"
  | .forStatement => "ForStatement" | .forInStatement => "ForInStatement"
  | .forOfStatement => "ForOfStatement" | .functionDeclaration => "FunctionDeclaration"
  | .variableDeclaration => "VariableDeclaration"
  | .variableDeclarator => "VariableDeclarator" | .thisExpression => "ThisExpression"
  | .arrayExpression => "ArrayExpression" | .objectExpression => "ObjectExpression"
  | .property => "Property" | .functionExpression => "FunctionExpression"
  | .unaryExpression => "UnaryExpression" | .updateExpression => "UpdateExpression"
  | .binaryExpression => "BinaryExpression"
  | .assignmentExpression => "AssignmentExpression"
  | .logicalExpression => "LogicalExpression" | .memberExpression => "MemberExpression"
  | .conditionalExpression => "ConditionalExpression"
  | .callExpression => "CallExpression" | .newExpression => "NewExpression"
  | .sequenceExpression => "SequenceExpression"
  | .arrowFunctionExpression => "ArrowFunctionExpression"
  | .yieldExpression => "YieldExpression" | .awaitExpression => "AwaitExpression"
  | .chainExpression => "ChainExpression" | .importExpression => "ImportExpression"
  | .metaProperty => "MetaProperty" | .super => "Super"
  | .templateLiteral => "TemplateLiteral"
  | .taggedTemplateExpression => "TaggedTemplateExpression"
  | .templateElement => "TemplateElement" | .spreadElement => "SpreadElement"
  | .spreadProperty => "SpreadProperty" | .objectPattern => "ObjectPattern"
  | .arrayPattern => "ArrayPattern" | .restElement => "RestElement"
  | .assignmentPattern => "AssignmentPattern" | .classDeclaration => "ClassDeclaration"
  | .classExpression => "ClassExpression" | .classBody => "ClassBody"
  | .methodDefinition => "MethodDefinition"
  | .propertyDefinition => "PropertyDefinition" | .identifier => "Identifier"
  | .privateIdentifier => "PrivateIdentifier" | .literal => "Literal"
  | .stringLiteral => "StringLiteral"

namespace Ast

/-- `node.type` as a text. -/
def typeText (ast : Ast) : String := (ast.type?.map NodeType.toText).getD "undefined"

/-- The text of a field, such as the name of an identifier. -/
def textOf (fields : List (Field × Ast)) (wanted : Field) : Option String :=
  match field fields wanted with
  | .value (.text text) => some text
  | _ => none

/-- The value of a literal node. -/
def literalValue (fields : List (Field × Ast)) : Option LiteralValue :=
  match field fields .value with
  | .value (.literal constant) => some constant
  | _ => none

/-- `String(node.value)`. -/
def literalText (fields : List (Field × Ast)) : String :=
  ((literalValue fields).map LiteralValue.toText).getD "undefined"

/-- The nodes of a field that holds a list. -/
def elementsOf (fields : List (Field × Ast)) (wanted : Field) : List Ast :=
  match field fields wanted with
  | .list elements => elements
  | _ => []

/-- `node[wanted] = value`, for a field that is there. -/
def setField (fields : List (Field × Ast)) (wanted : Field) (value : Ast)
    : List (Field × Ast) :=
  fields.map (fun entry => if entry.1 = wanted then (wanted, value) else entry)

end Ast

def literalString (value : String) : Ast :=
  .node .literal [(.value, .value (.literal (.string value)))]

def binaryExpression (operator : String) (left right : Ast) : Ast :=
  .node .binaryExpression
    [(.operator, .value (.text operator)), (.left, left), (.right, right)]

def conditionalExpression (test consequent alternate : Ast) : Ast :=
  .node .conditionalExpression
    [(.test, test), (.consequent, consequent), (.alternate, alternate)]

def newExpression (callee : Ast) (arguments : List Ast) : Ast :=
  .node .newExpression [(.callee, callee), (.arguments, .list arguments)]

def throwStatement (argument : Ast) : Ast := .node .throwStatement [(.argument, argument)]

def blockStatement (body : List Ast) : Ast := .node .blockStatement [(.body, .list body)]

def arrowFunctionExpression (params : List Ast) (body : Ast) : Ast :=
  .node .arrowFunctionExpression
    [(.id, .value .absent), (.params, .list params), (.body, body)]

/-- The node that stands for the data of an expression: `this`, or a name for it where the
expression has functions.
-/
inductive DataNode where
  | this
  | named
  deriving DecidableEq, Repr

def sanitizerName : String := "__sanitize"

def DATA_NODE_NAME : String := "___n8n_data"

def DataNode.toAst : DataNode → Ast
  | .this => .node .thisExpression []
  | .named => identifier DATA_NODE_NAME

def RESERVED_VARIABLE_NAMES : List String := [DATA_NODE_NAME, sanitizerName]

/-- Where a node stands whose bound names are collected: it is a target of its own, an entry
of an object pattern, or a declarator.
-/
inductive BindingRole where
  | target
  | patternEntry
  | declarator
  deriving DecidableEq, Repr

mutual
def boundNames (role : BindingRole) : Ast → List String
  | .value _ => []
  | .list _ => []
  | .node type fields =>
      match role, type with
      | .target, .identifier => (Ast.textOf fields .name).toList
      | .target, .objectPattern => boundNamesInEach .patternEntry .properties fields
      | .target, .arrayPattern => boundNamesInEach .target .elements fields
      | .target, .assignmentPattern => boundNamesInField .target .left fields
      | .target, .restElement => boundNamesInField .target .argument fields
      | .target, .variableDeclaration => boundNamesInEach .declarator .declarations fields
      | .patternEntry, .property => boundNamesInField .target .value fields
      | .patternEntry, .restElement => boundNamesInField .target .argument fields
      | .declarator, .variableDeclarator => boundNamesInField .target .id fields
      | _, _ => []

def boundNamesInElements (role : BindingRole) : List Ast → List String
  | [] => []
  | element :: rest => boundNames role element ++ boundNamesInElements role rest

def boundNamesInField (role : BindingRole) (wanted : Field)
    : List (Field × Ast) → List String
  | [] => []
  | (field, value) :: rest =>
      if field = wanted then boundNames role value else boundNamesInField role wanted rest

def boundNamesInEach (role : BindingRole) (wanted : Field)
    : List (Field × Ast) → List String
  | [] => []
  | (field, .list elements) :: rest =>
      if field = wanted then boundNamesInElements role elements
      else boundNamesInEach role wanted rest
  | (field, _) :: rest =>
      if field = wanted then [] else boundNamesInEach role wanted rest
end

def getBoundIdentifiers (ast : Ast) : List String := boundNames .target ast

def getReservedIdentifier (ast : Ast) : Option String :=
  (getBoundIdentifiers ast).find? (fun name => name ∈ RESERVED_VARIABLE_NAMES)

def refuseReserved (ast : Ast) : Except JsError Unit :=
  match getReservedIdentifier ast with
  | some name => throw (ExpressionReservedVariableError name)
  | none => return

def blockedBaseClasses : List String :=
  ["Function", "GeneratorFunction", "AsyncFunction", "AsyncGeneratorFunction"]

def BLOCKED_SPREAD_GLOBALS : List String := ["process", "global", "globalThis", "Buffer"]

/-- `("name" in data) ? data.name : (() => { throw new Error("...") })()` -/
def buildSafeSpreadArg (name : String) (dataNode : DataNode) : Ast :=
  let isInDataContext := binaryExpression "in" (literalString name) dataNode.toAst
  let readFromDataContext := memberExpression dataNode.toAst (identifier name) false
  let throwSecurityError :=
    callExpression
      (arrowFunctionExpression []
        (blockStatement
          [
            throwStatement
              (newExpression (identifier "Error")
                [literalString s!"Cannot spread \"{name}\" due to security concerns"])
          ]))
      []
  conditionalExpression isInDataContext readFromDataContext throwSecurityError

/-- The visitors that look at one bound field after the children. -/
def visitBinding (bound : Field) : VisitorMethod := fun _ type _ traverse => do
  let fields := (← traverse).fields
  refuseReserved (Ast.field fields bound)
  return .unchanged (.node type fields)

def visitVariableDeclarator : VisitorMethod := visitBinding .id

def visitFunction : VisitorMethod := fun _ type _ traverse => do
  let fields := (← traverse).fields
  refuseReserved (Ast.field fields .id)
  (← spread (Ast.field fields .params)).forM refuseReserved
  return .unchanged (.node type fields)

def visitCatchClause : VisitorMethod := visitBinding .param

/-- The visitors of class declarations and of class expressions. -/
def visitClass : VisitorMethod := fun _ type _ traverse => do
  let fields := (← traverse).fields
  refuseReserved (Ast.field fields .id)
  match Ast.field fields .superClass with
  | .value .absent => return .unchanged (.node type fields)
  | .node .identifier superClass =>
      match (Ast.textOf superClass .name).filter (· ∈ blockedBaseClasses) with
      | some name => throw (ExpressionClassExtensionError name)
      | none => return .unchanged (.node type fields)
  | _ =>
      throw (ExpressionError "Cannot use dynamic class extension due to security concerns")

def visitAssignmentExpression : VisitorMethod := visitBinding .left

def visitUpdateExpression : VisitorMethod := visitBinding .argument

def visitForOfStatement : VisitorMethod := visitBinding .left

def visitForInStatement : VisitorMethod := visitBinding .left

/-- `data.__sanitize(key)` -/
def sanitizerCall (dataNode : DataNode) (key : Ast) : Ast :=
  callExpression (memberExpression dataNode.toAst (identifier sanitizerName) false) [key]

def checkStaticProperty : Ast → Except JsError Unit
  | .value .absent => throw .typeError
  | .node .identifier property =>
      match (Ast.textOf property .name).filter (fun name => ¬ isSafeObjectProperty name) with
      | some name => throw (cannotAccess name)
      | none => return
  | property =>
      throw
        (ExpressionError
          s!"Unknown property type {property.typeText} while sanitising expression")

def checkLiteralProperty (property : List (Field × Ast)) : Except JsError Unit :=
  match (Ast.literalValue property).filter (fun value => ¬ value.isSafeObjectProperty) with
  | some value => throw (cannotAccess value.toText)
  | none => return

def visitMemberExpression (dataNode : DataNode) : VisitorMethod := fun _ type _ traverse => do
  let fields := (← traverse).fields
  let node : Ast := .node type fields
  if Ast.flag fields .computed = false then
    checkStaticProperty (Ast.field fields .property)
    return .unchanged node
  else
    match Ast.field fields .property with
    | .value .absent => throw .typeError
    | .node .stringLiteral property | .node .literal property =>
        checkLiteralProperty property
        return .unchanged node
    | property =>
        return {
          node
          current :=
            memberExpression (Ast.field fields .object) (sanitizerCall dataNode property) true
        }

/-- The name of a key that is not computed. -/
def keyName : Ast → Except JsError (Option String)
  | .value .absent => throw .typeError
  | .node .identifier key => return Ast.textOf key .name
  | .node .stringLiteral key | .node .literal key => return some (Ast.literalText key)
  | _ => return none

def checkPatternEntry : Ast → Except JsError Unit
  | .value .absent => throw .typeError
  | .node .property prop => do
      if Ast.flag prop .computed then
        throw ExpressionComputedDestructuringError
      match (← keyName (Ast.field prop .key)).filter (fun name => ¬ isSafeObjectProperty name) with
      | some name => throw (ExpressionDestructuringError name)
      | none => return
  | _ => return

def visitObjectPattern : VisitorMethod := fun _ type _ traverse => do
  let fields := (← traverse).fields
  (← spread (Ast.field fields .properties)).forM checkPatternEntry
  return .unchanged (.node type fields)

/-- The visitors of spread elements and of spread properties. -/
def visitSpread (dataNode : DataNode) : VisitorMethod := fun _ type _ traverse => do
  let fields := (← traverse).fields
  match Ast.field fields .argument with
  | .value .absent => throw .typeError
  | .node .identifier argument =>
      match (Ast.textOf argument .name).filter (· ∈ BLOCKED_SPREAD_GLOBALS) with
      | some name =>
          return .unchanged
            (.node type (Ast.setField fields .argument (buildSafeSpreadArg name dataNode)))
      | none => return .unchanged (.node type fields)
  | _ => return .unchanged (.node type fields)

def visitWithStatement : VisitorMethod := fun _ _ _ _ => throw ExpressionWithStatementError

def prototypeVisitor (dataNode : DataNode) : Visitor
  | .variableDeclarator => some visitVariableDeclarator
  | .functionDeclaration | .functionExpression | .arrowFunctionExpression =>
      some visitFunction
  | .catchClause => some visitCatchClause
  | .classDeclaration | .classExpression => some visitClass
  | .assignmentExpression => some visitAssignmentExpression
  | .updateExpression => some visitUpdateExpression
  | .forOfStatement => some visitForOfStatement
  | .forInStatement => some visitForInStatement
  | .memberExpression => some (visitMemberExpression dataNode)
  | .objectPattern => some visitObjectPattern
  | .spreadElement | .spreadProperty => some (visitSpread dataNode)
  | .withStatement => some visitWithStatement
  | _ => none

def PrototypeSanitizer (astVisit : Visitor → Path → Ast → Except JsError Visited)
    (dataNode : DataNode) (ast : Ast)
    : Except JsError Ast :=
  (astVisit (prototypeVisitor dataNode) ⟨.root, none⟩ ast).map Visited.node

/-- A value while an expression runs: a string, or another value with its own properties. -/
inductive RuntimeValue where
  | text (value : String)
  | object (ownKeys : List String)
  deriving DecidableEq, Repr

/-- `toText` is `String(value)`, which may throw. -/
def sanitizer (toText : RuntimeValue → Except JsError String) (value : RuntimeValue)
    : Except JsError RuntimeValue := do
  let propertyKey ← toText value
  if ¬ isSafeObjectProperty propertyKey then
    throw (cannotAccess propertyKey)
  return .text propertyKey

end N8n.Sandbox
