import N8n.Sandbox.SyntaxTree

/-! The pass that binds `this` of regular functions, and takes `this` and the global object
out of an expression (`packages/workflow/src/expression-sandboxing.ts`).
-/

namespace N8n.Sandbox

def identifier (name : String) : Ast := .node .identifier [(.name, .value (.text name))]

def literalNumber (digit : Fin 10) : Ast :=
  .node .literal [(.value, .value (.literal (.number digit "")))]

def objectExpression (properties : List Ast) : Ast :=
  .node .objectExpression [(.properties, .list properties)]

def property (kind : String) (key value : Ast) : Ast :=
  .node .property
    [
      (.kind, .value (.text kind)), (.key, key), (.value, value),
      (.method, .value (.flag false)), (.shorthand, .value (.flag false)),
      (.computed, .value (.flag false))
    ]

def memberExpression (object property : Ast) (computed : Bool) : Ast :=
  .node .memberExpression
    [(.object, object), (.property, property), (.computed, .value (.flag computed))]

def callExpression (callee : Ast) (arguments : List Ast) : Ast :=
  .node .callExpression [(.callee, callee), (.arguments, .list arguments)]

def sequenceExpression (expressions : List Ast) : Ast :=
  .node .sequenceExpression [(.expressions, .list expressions)]

/-- A statement in a file. -/
def fileOf (expression : Ast) : Ast :=
  .node .file
    [
      (.program,
        .node .program
          [(.body, .list [.node .expressionStatement [(.expression, expression)]])])
    ]

def EMPTY_CONTEXT : Ast :=
  objectExpression
    [
      property "init" (identifier "process") (objectExpression []),
      property "init" (identifier "require") (objectExpression []),
      property "init" (identifier "module") (objectExpression []),
      property "init" (identifier "Buffer") (objectExpression [])
    ]

def SAFE_GLOBAL : Ast := objectExpression []

def SAFE_THIS : Ast := sequenceExpression [literalNumber 0, EMPTY_CONTEXT]

def GLOBAL_IDENTIFIERS : List String := ["globalThis"]

/-- Reading the type of a missing node throws. -/
def readType : Ast → Except JsError (Option NodeType)
  | .value .absent => throw .typeError
  | ast => return ast.type?

/-- The elements that a spread takes out of a field. -/
def spread : Ast → Except JsError (List Ast)
  | .list elements => return elements
  | _ => throw .typeError

/-- The child as it was before something else was put in its place. -/
def Traversed.original (traversed : Traversed) (field : Field) : Ast :=
  ((traversed.find? (fun entry => entry.1 = field)).map (fun entry => entry.2.node)).getD
    (.value .absent)

def visitCallExpression : VisitorMethod := fun _ type fields traverse => do
  if (← readType (Ast.field fields .callee)) ≠ some .functionExpression then
    return .unchanged (.node type (← traverse).fields)
  else
    let children ← traverse
    let fnExpression := children.original .callee
    let arguments ← spread (Ast.field children.fields .arguments)
    return {
      node := .node type children.fields
      current :=
        callExpression (memberExpression fnExpression (identifier "call") false)
          (EMPTY_CONTEXT :: arguments)
    }

def visitFunctionExpression : VisitorMethod := fun _ type _ traverse => do
  let node : Ast := .node type (← traverse).fields
  return {
    node
    current := callExpression (memberExpression node (identifier "bind") false) [EMPTY_CONTEXT]
  }

/-- The name of the path's parent tells whether the identifier is a property name. -/
def visitIdentifier : VisitorMethod := fun path type _ traverse => do
  let fields := (← traverse).fields
  let node : Ast := .node type fields
  match Ast.field fields .name with
  | .value (.text name) =>
      if name ∈ GLOBAL_IDENTIFIERS ∧ path.parentName ≠ some (.field .property) then
        return ⟨node, SAFE_GLOBAL⟩
      else return .unchanged node
  | _ => return .unchanged node

def visitThisExpression : VisitorMethod := fun _ type _ traverse => do
  return ⟨.node type (← traverse).fields, SAFE_THIS⟩

def thisVisitor : Visitor
  | .callExpression => some visitCallExpression
  | .functionExpression => some visitFunctionExpression
  | .identifier => some visitIdentifier
  | .thisExpression => some visitThisExpression
  | _ => none

/-- The pass works on the tree in place. -/
def ThisSanitizer (astVisit : Visitor → Path → Ast → Except JsError Visited) (ast : Ast)
    : Except JsError Ast :=
  (astVisit thisVisitor ⟨.root, none⟩ ast).map Visited.node

end N8n.Sandbox
