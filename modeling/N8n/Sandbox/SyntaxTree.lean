import N8n.Library.JavaScript

/-! Syntax trees as the parser produces them, and visitors over them. The visitor function
itself is a library's: what is stated of it here is its documentation.
-/

namespace N8n.Sandbox

inductive NodeType where
  | file | program
  | expressionStatement | blockStatement | staticBlock | emptyStatement | debuggerStatement
  | withStatement | returnStatement | labeledStatement | breakStatement | continueStatement
  | ifStatement | switchStatement | switchCase | throwStatement | tryStatement | catchClause
  | whileStatement | doWhileStatement | forStatement | forInStatement | forOfStatement
  | functionDeclaration | variableDeclaration | variableDeclarator
  | thisExpression | arrayExpression | objectExpression | property | functionExpression
  | unaryExpression | updateExpression | binaryExpression | assignmentExpression
  | logicalExpression | memberExpression | conditionalExpression | callExpression
  | newExpression | sequenceExpression | arrowFunctionExpression | yieldExpression
  | awaitExpression | chainExpression | importExpression | metaProperty | super
  | templateLiteral | taggedTemplateExpression | templateElement
  | spreadElement | spreadProperty
  | objectPattern | arrayPattern | restElement | assignmentPattern
  | classDeclaration | classExpression | classBody | methodDefinition | propertyDefinition
  | identifier | privateIdentifier | literal | stringLiteral
  deriving DecidableEq, Repr

inductive Field where
  | program | body | expression | expressions | object | property | properties | computed
  | optional | callee | arguments | id | params | superClass | key | value | kind | method
  | shorthand | static | elements | argument | left | right | operator | test | consequent
  | alternate | declarations | init | update | label | metaName | param | block | handler
  | finalizer | cases | discriminant | quasis | quasi | tag | tail | raw | cooked | regex
  | bigint | prefixed | delegate | generator | async | await | name | source
  deriving DecidableEq, Repr

/-- The value of a literal. A number's string form starts with a digit, `Infinity` apart. -/
inductive LiteralValue where
  | string (value : String)
  | number (firstDigit : Fin 10) (rest : String)
  | infinity
  | boolean (value : Bool)
  | null
  | regExp (pattern flags : String)
  deriving DecidableEq, Repr

/-- `String(value)`. -/
def LiteralValue.toText : LiteralValue → String
  | .string value => value
  | .number firstDigit rest => toString firstDigit.val ++ rest
  | .infinity => "Infinity"
  | .boolean value => toString value
  | .null => "null"
  | .regExp pattern flags => "/" ++ pattern ++ "/" ++ flags

/-- What a field of a node holds when it holds no node: `null` or nothing, a flag, a text
or the value of a literal.
-/
inductive AstValue where
  | absent
  | flag (value : Bool)
  | text (value : String)
  | literal (value : LiteralValue)
  deriving DecidableEq, Repr

inductive Ast where
  | value (value : AstValue)
  | list (elements : List Ast)
  | node (type : NodeType) (fields : List (Field × Ast))

namespace Ast

/-- Induction over trees. -/
theorem tree_induction {motive : Ast → Prop} (value : ∀ value, motive (.value value))
    (list : ∀ elements, (∀ element ∈ elements, motive element) → motive (.list elements))
    (node
      : ∀ type fields, (∀ entry ∈ fields, motive entry.2) → motive (.node type fields))
    (ast : Ast)
    : motive ast := by
  refine @Ast.rec motive (fun elements => ∀ element ∈ elements, motive element)
    (fun fields => ∀ entry ∈ fields, motive entry.2) (fun entry => motive entry.2)
    value list node ?_ ?_ ?_ ?_ ?_ ast
  · simp
  · intro head tail here there element member
    rcases List.mem_cons.mp member with rfl | later
    · exact here
    · exact there element later
  · simp
  · intro head tail here there entry member
    rcases List.mem_cons.mp member with rfl | later
    · exact here
    · exact there entry later
  · exact fun _ _ holds => holds

/-- The type of a node. -/
def type? : Ast → Option NodeType
  | .node type _ => some type
  | _ => none

/-- A field of a node, absent where it has none. -/
def field (fields : List (Field × Ast)) (wanted : Field) : Ast :=
  ((fields.find? (fun entry => entry.1 = wanted)).map Prod.snd).getD (.value .absent)

/-- The flag of a field, false where it is missing. -/
def flag (fields : List (Field × Ast)) (wanted : Field) : Bool :=
  match field fields wanted with
  | .value (.flag isSet) => isSet
  | _ => false

end Ast

/-- Where a value stands in what encloses it. -/
inductive PathName where
  | root
  | field (field : Field)
  | index (index : Nat)
  deriving DecidableEq, Repr

/-- A path, with the name of its parent: the path of the nearest enclosing node. -/
structure Path where
  name : PathName
  parentName : Option PathName
  deriving DecidableEq, Repr

/-- A node that has been visited, with its changed children, and what stands in its place
now.
-/
structure Visited where
  node : Ast
  current : Ast

/-- The visited children of a node. -/
abbrev Traversed := List (Field × Visited)

/-- The fields of a node after its children have been visited. -/
def Traversed.fields (traversed : Traversed) : List (Field × Ast) :=
  traversed.map (fun entry => (entry.1, entry.2.current))

def Visited.unchanged (ast : Ast) : Visited := ⟨ast, ast⟩

/-- A method gets the path, the type and the fields of a node, and what `this.traverse`
does there.
-/
abbrev VisitorMethod :=
  Path → NodeType → List (Field × Ast) → Except JsError Traversed → Except JsError Visited

/-- The method for each node type that has one. -/
abbrev Visitor := NodeType → Option VisitorMethod

/-- Visits the elements of a list, from the given index on. -/
def visitElements (visit : Path → Ast → Except JsError Visited)
    (parentName : Option PathName)
    : Nat → List Ast → Except JsError (List Ast)
  | _, [] => .ok []
  | index, element :: rest => do
      let visited ← visit ⟨.index index, parentName⟩ element
      return visited.current :: (← visitElements visit parentName (index + 1) rest)

/-- Visits the fields of the node that stands under the given name. -/
def visitFields (visit : Path → Ast → Except JsError Visited) (name : PathName)
    : List (Field × Ast) → Except JsError Traversed
  | [] => .ok []
  | (field, value) :: rest => do
      let visited ← visit ⟨.field field, some name⟩ value
      return (field, visited) :: (← visitFields visit name rest)

/-- Visits a node, by its method or else by visiting its children. -/
def visitNode (visitor : Visitor) (path : Path) (type : NodeType)
    (fields : List (Field × Ast)) (traverse : Except JsError Traversed)
    : Except JsError Visited :=
  match visitor type with
  | some method => method path type fields traverse
  | none => traverse.map (fun children => .unchanged (.node type children.fields))

/-- The documented behaviour of the library's `visit`: a node that has a method is visited
by it, and nodes below any other value are visited in order.
-/
structure IsAstVisit (astVisit : Visitor → Path → Ast → Except JsError Visited) : Prop where
  value (visitor : Visitor) (path : Path) (value : AstValue)
    : astVisit visitor path (.value value) = .ok (.unchanged (.value value))
  list (visitor : Visitor) (path : Path) (elements : List Ast)
    : astVisit visitor path (.list elements)
      = (visitElements (astVisit visitor) path.parentName 0 elements).map (fun currents =>
          .unchanged (.list currents))
  node (visitor : Visitor) (path : Path) (type : NodeType) (fields : List (Field × Ast))
    : astVisit visitor path (.node type fields)
      = visitNode visitor path type fields (visitFields (astVisit visitor) path.name fields)

mutual
/-- Visiting by recursion over the tree. -/
def visitTree (visitor : Visitor) : Path → Ast → Except JsError Visited
  | _, .value value => .ok (.unchanged (.value value))
  | path, .list elements =>
      (visitTrees visitor path.parentName 0 elements).map (fun currents =>
        .unchanged (.list currents))
  | path, .node type fields =>
      visitNode visitor path type fields (visitFieldTrees visitor path.name fields)

def visitTrees (visitor : Visitor) (parentName : Option PathName)
    : Nat → List Ast → Except JsError (List Ast)
  | _, [] => .ok []
  | index, element :: rest => do
      let visited ← visitTree visitor ⟨.index index, parentName⟩ element
      return visited.current :: (← visitTrees visitor parentName (index + 1) rest)

def visitFieldTrees (visitor : Visitor) (name : PathName)
    : List (Field × Ast) → Except JsError Traversed
  | [] => .ok []
  | (field, value) :: rest => do
      let visited ← visitTree visitor ⟨.field field, some name⟩ value
      return (field, visited) :: (← visitFieldTrees visitor name rest)
end

theorem visitTrees_eq (visitor : Visitor) (parentName : Option PathName) (index : Nat)
    (elements : List Ast)
    : visitTrees visitor parentName index elements
      = visitElements (visitTree visitor) parentName index elements := by
  induction elements generalizing index with
  | nil => rfl
  | cons element rest ih => simp only [visitTrees, visitElements, ih]

theorem visitFieldTrees_eq (visitor : Visitor) (name : PathName)
    (fields : List (Field × Ast))
    : visitFieldTrees visitor name fields = visitFields (visitTree visitor) name fields := by
  induction fields with
  | nil => rfl
  | cons entry rest ih => simp only [visitFieldTrees, visitFields, ih]

theorem isAstVisit_visitTree : IsAstVisit visitTree where
  value _ _ _ := rfl
  list visitor path elements := by rw [visitTree, visitTrees_eq]
  node visitor path type fields := by rw [visitTree, visitFieldTrees_eq]

/-- Visits that agree on all elements agree on the list. -/
theorem visitElements_congr {first second : Path → Ast → Except JsError Visited}
    {elements : List Ast}
    (same : ∀ element ∈ elements, ∀ path, first path element = second path element)
    (parentName : Option PathName) (index : Nat)
    : visitElements first parentName index elements
      = visitElements second parentName index elements := by
  induction elements generalizing index with
  | nil => rfl
  | cons element rest ih =>
      simp only [visitElements, same element (by simp),
        ih (fun other member => same other (.tail _ member))]

theorem visitFields_congr {first second : Path → Ast → Except JsError Visited}
    {fields : List (Field × Ast)}
    (same : ∀ entry ∈ fields, ∀ path, first path entry.2 = second path entry.2)
    (name : PathName)
    : visitFields first name fields = visitFields second name fields := by
  induction fields with
  | nil => rfl
  | cons entry rest ih =>
      simp only [visitFields, same entry (by simp),
        ih (fun other member => same other (.tail _ member))]

/-- The documentation leaves nothing open, by induction on the tree. -/
theorem IsAstVisit.eq_visitTree {astVisit : Visitor → Path → Ast → Except JsError Visited}
    (documented : IsAstVisit astVisit) (visitor : Visitor) (path : Path) (ast : Ast)
    : astVisit visitor path ast = visitTree visitor path ast := by
  induction ast using Ast.tree_induction generalizing path with
  | value value => rw [documented.value]; rfl
  | list elements ih =>
      rw [documented.list, isAstVisit_visitTree.list, visitElements_congr ih]
  | node type fields ih =>
      rw [documented.node, isAstVisit_visitTree.node, visitFields_congr ih]

end N8n.Sandbox
