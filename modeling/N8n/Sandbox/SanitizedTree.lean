import N8n.Library.Exec
import N8n.Sandbox.PrototypeSanitizer

/-! What the pass leaves: a tree in which every property that is read by its name, and every
name that is bound, has been checked or is checked at run time. Elements that take the rest
of an object copy its own properties, whatever their names.
-/

namespace N8n.Sandbox

/-! ### Bound names -/

/-- The name is bound by a pattern, or by the declarations of a loop, at any depth. -/
inductive Binds (name : String) : Ast → Prop
  | identifier {fields : List (Field × Ast)} (named : Ast.textOf fields .name = some name)
    : Binds name (.node .identifier fields)
  | property {fields entry : List (Field × Ast)}
    (member : .node .property entry ∈ Ast.elementsOf fields .properties)
    (below : Binds name (Ast.field entry .value))
    : Binds name (.node .objectPattern fields)
  | restOfObject {fields entry : List (Field × Ast)}
    (member : .node .restElement entry ∈ Ast.elementsOf fields .properties)
    (below : Binds name (Ast.field entry .argument))
    : Binds name (.node .objectPattern fields)
  | element {fields : List (Field × Ast)} {element : Ast}
    (member : element ∈ Ast.elementsOf fields .elements) (below : Binds name element)
    : Binds name (.node .arrayPattern fields)
  | default {fields : List (Field × Ast)} (below : Binds name (Ast.field fields .left))
    : Binds name (.node .assignmentPattern fields)
  | rest {fields : List (Field × Ast)} (below : Binds name (Ast.field fields .argument))
    : Binds name (.node .restElement fields)
  | declaration {fields declarator : List (Field × Ast)}
    (member : .node .variableDeclarator declarator ∈ Ast.elementsOf fields .declarations)
    (below : Binds name (Ast.field declarator .id))
    : Binds name (.node .variableDeclaration fields)

theorem boundNamesInField_eq (role : BindingRole) (wanted : Field)
    (fields : List (Field × Ast))
    : boundNamesInField role wanted fields = boundNames role (Ast.field fields wanted) := by
  induction fields with
  | nil => rfl
  | cons entry rest ih =>
      obtain ⟨field, value⟩ := entry
      by_cases here : field = wanted
      · simp [boundNamesInField, Ast.field, here]
      · simpa [boundNamesInField, Ast.field, here] using ih

theorem boundNamesInElements_eq (role : BindingRole) (elements : List Ast)
    : boundNamesInElements role elements = elements.flatMap (boundNames role) := by
  induction elements with
  | nil => rfl
  | cons element rest ih => simp only [boundNamesInElements, List.flatMap_cons, ih]

theorem boundNamesInEach_eq (role : BindingRole) (wanted : Field)
    (fields : List (Field × Ast))
    : boundNamesInEach role wanted fields
      = (Ast.elementsOf fields wanted).flatMap (boundNames role) := by
  induction fields with
  | nil => rfl
  | cons entry rest ih =>
      obtain ⟨field, value⟩ := entry
      by_cases here : field = wanted
      · cases value <;>
          simp [boundNamesInEach, boundNamesInElements_eq, Ast.elementsOf, Ast.field, here]
      · cases value <;> simpa [boundNamesInEach, Ast.elementsOf, Ast.field, here] using ih

variable {name : String} {ast : Ast}

/-- The collector finds every bound name, by induction on the binding. -/
theorem Binds.mem_getBoundIdentifiers (binds : Binds name ast)
    : name ∈ getBoundIdentifiers ast := by
  unfold getBoundIdentifiers
  induction binds with
  | identifier named => simp [boundNames, named]
  | property member _ ih =>
      simp only [boundNames, boundNamesInEach_eq]
      exact List.mem_flatMap.mpr ⟨_, member, by simpa [boundNames, boundNamesInField_eq] using ih⟩
  | restOfObject member _ ih =>
      simp only [boundNames, boundNamesInEach_eq]
      exact List.mem_flatMap.mpr ⟨_, member, by simpa [boundNames, boundNamesInField_eq] using ih⟩
  | element member _ ih =>
      simp only [boundNames, boundNamesInEach_eq]
      exact List.mem_flatMap.mpr ⟨_, member, ih⟩
  | default _ ih => simpa only [boundNames, boundNamesInField_eq] using ih
  | rest _ ih => simpa only [boundNames, boundNamesInField_eq] using ih
  | declaration member _ ih =>
      simp only [boundNames, boundNamesInEach_eq]
      exact List.mem_flatMap.mpr ⟨_, member, by simpa [boundNames, boundNamesInField_eq] using ih⟩

theorem not_binds_of_refuseReserved (accepted : refuseReserved ast = .ok ⟨⟩)
    (reserved : name ∈ RESERVED_VARIABLE_NAMES)
    : ¬ Binds name ast := by
  intro binds
  unfold refuseReserved at accepted
  split at accepted
  · contradiction
  · next nothing =>
      have notReserved := List.find?_eq_none.mp nothing name binds.mem_getBoundIdentifiers
      simp [reserved] at notReserved

/-! ### Checked nodes -/

/-- A node of a tree. -/
inductive Ast.Has : Ast → Ast → Prop
  | self (ast : Ast) : Ast.Has ast ast
  | element {elements : List Ast} {element inner : Ast} (member : element ∈ elements)
    (below : Ast.Has element inner)
    : Ast.Has (.list elements) inner
  | entry {type : NodeType} {fields : List (Field × Ast)} {entry : Field × Ast} {inner : Ast}
    (member : entry ∈ fields) (below : Ast.Has entry.2 inner)
    : Ast.Has (.node type fields) inner

/-- A property is accessed by a safe name, by a literal whose string form is safe, or by a
key that is checked at run time.
-/
inductive SafeAccess (dataNode : DataNode) (fields : List (Field × Ast)) : Prop
  | named (name : List (Field × Ast)) (computed : Ast.flag fields .computed = false)
    (property : Ast.field fields .property = .node .identifier name)
    (safe : ∀ text, Ast.textOf name .name = some text → isSafeObjectProperty text = true)
  | literal (type : NodeType) (literal : List (Field × Ast))
    (computed : Ast.flag fields .computed = true)
    (property : Ast.field fields .property = .node type literal)
    (isLiteral : type = .literal ∨ type = .stringLiteral)
    (safe : isSafeObjectProperty (Ast.literalText literal) = true)
  | sanitized (key : Ast) (computed : Ast.flag fields .computed = true)
    (property : Ast.field fields .property = sanitizerCall dataNode key)

/-- The name that a key has without being computed: that of an identifier, or the string
form of a literal.
-/
inductive HasKeyName (name : String) : Ast → Prop
  | identifier {fields : List (Field × Ast)} (named : Ast.textOf fields .name = some name)
    : HasKeyName name (.node .identifier fields)
  | literal {type : NodeType} {fields : List (Field × Ast)}
    (isLiteral : type = .literal ∨ type = .stringLiteral)
    (text : Ast.literalText fields = name)
    : HasKeyName name (.node type fields)

/-- A property of an object pattern has a safe key that is not computed. -/
structure SafeEntry (entry : List (Field × Ast)) : Prop where
  notComputed : Ast.flag entry .computed = false
  safe {name : String} (key : HasKeyName name (Ast.field entry .key))
    : isSafeObjectProperty name = true

/-- What a node binds or assigns: declared variables, the name and the parameters of a
function, the error of a catch clause, the name of a class, and targets.
-/
def bindingsOf (type : NodeType) (fields : List (Field × Ast)) : List Ast :=
  match type with
  | .variableDeclarator | .classDeclaration | .classExpression => [Ast.field fields .id]
  | .functionDeclaration | .functionExpression | .arrowFunctionExpression =>
      Ast.field fields .id :: Ast.elementsOf fields .params
  | .catchClause => [Ast.field fields .param]
  | .assignmentExpression | .forOfStatement | .forInStatement => [Ast.field fields .left]
  | .updateExpression => [Ast.field fields .argument]
  | _ => []

/-- Everything that the pass checks of a node. -/
structure CheckedNode (dataNode : DataNode) (type : NodeType) (fields : List (Field × Ast))
    : Prop where
  noWith : type ≠ .withStatement
  access (isMember : type = .memberExpression) : SafeAccess dataNode fields
  entries (isPattern : type = .objectPattern)
    : ∀ entry, .node .property entry ∈ Ast.elementsOf fields .properties → SafeEntry entry
  bindings
    : ∀ bound ∈ bindingsOf type fields, ∀ name ∈ RESERVED_VARIABLE_NAMES, ¬ Binds name bound

/-- All nodes of the tree are checked. -/
def Checked (dataNode : DataNode) (ast : Ast) : Prop :=
  ∀ type fields, ast.Has (.node type fields) → CheckedNode dataNode type fields

variable {elements : List Ast} {type : NodeType}

namespace Checked

variable {dataNode : DataNode}

theorem value (value : AstValue) : Checked dataNode (.value value) := by
  intro type fields has
  cases has

theorem list_iff
    : Checked dataNode (.list elements) ↔ ∀ element ∈ elements, Checked dataNode element := by
  constructor
  · exact fun all element member type fields has => all type fields (.element member has)
  · intro all type fields has
    cases has with
    | element member below => exact all _ member type fields below

theorem node_iff {fields : List (Field × Ast)}
    : Checked dataNode (.node type fields)
      ↔ CheckedNode dataNode type fields ∧ ∀ entry ∈ fields, Checked dataNode entry.2 := by
  constructor
  · intro all
    exact ⟨all type fields (.self _),
      fun entry member type fields has => all type fields (.entry member has)⟩
  · intro ⟨here, below⟩ type fields has
    cases has with
    | self => exact here
    | entry member has => exact below _ member type fields has

/-- A field of a node is checked where all of them are. -/
theorem field {fields : List (Field × Ast)}
    (below : ∀ entry ∈ fields, Checked dataNode entry.2) (wanted : Field)
    : Checked dataNode (Ast.field fields wanted) := by
  unfold Ast.field
  cases found : fields.find? (fun entry => entry.1 = wanted) with
  | none => exact Checked.value .absent
  | some entry => exact below entry (List.mem_of_find?_eq_some found)

end Checked

/-! ### What the pass leaves -/

/-- What stands in the place of a node with the given children, if nothing is thrown. -/
def rewritten (dataNode : DataNode) (type : NodeType) (fields : List (Field × Ast)) : Ast :=
  match type with
  | .memberExpression =>
      if Ast.flag fields .computed = false then .node type fields
      else
        match Ast.field fields .property with
        | .node .stringLiteral _ | .node .literal _ => .node type fields
        | key =>
            memberExpression (Ast.field fields .object) (sanitizerCall dataNode key) true
  | .spreadElement | .spreadProperty =>
      match Ast.field fields .argument with
      | .node .identifier argument =>
          match (Ast.textOf argument .name).filter (· ∈ BLOCKED_SPREAD_GLOBALS) with
          | some name =>
              .node type (Ast.setField fields .argument (buildSafeSpreadArg name dataNode))
          | none => .node type fields
      | _ => .node type fields
  | _ => .node type fields

mutual
/-- The tree with every computed key that is not a literal given to the check at run time,
and with every blocked global that is spread looked up in the data.
-/
def sanitized (dataNode : DataNode) : Ast → Ast
  | .value value => .value value
  | .list elements => .list (sanitizedElements dataNode elements)
  | .node type fields => rewritten dataNode type (sanitizedFields dataNode fields)

def sanitizedElements (dataNode : DataNode) : List Ast → List Ast
  | [] => []
  | element :: rest => sanitized dataNode element :: sanitizedElements dataNode rest

def sanitizedFields (dataNode : DataNode) : List (Field × Ast) → List (Field × Ast)
  | [] => []
  | (field, value) :: rest =>
      (field, sanitized dataNode value) :: sanitizedFields dataNode rest
end

/-- What a visit leaves of a node with the given children. Only a member expression is
replaced by another node.
-/
structure Leaves (dataNode : DataNode) (type : NodeType) (fields : List (Field × Ast))
    (visited : Visited)
    : Prop where
  current : visited.current = rewritten dataNode type fields
  checked : Checked dataNode visited.current
  inPlace (notMember : type ≠ .memberExpression) : visited.node = visited.current

/-- The types of the nodes that the pass may change. -/
def rewrittenTypes : List NodeType := [.memberExpression, .spreadElement, .spreadProperty]

theorem rewritten_of_not_mem (plain : type ∉ rewrittenTypes) (dataNode : DataNode)
    (fields : List (Field × Ast))
    : rewritten dataNode type fields = .node type fields := by
  unfold rewritten
  split <;> simp_all [rewrittenTypes]

section Visits

variable {dataNode : DataNode} {type : NodeType} {fields : List (Field × Ast)}
  {children : Traversed} {visited : Visited} {path : Path}

theorem Leaves.unchanged (same : rewritten dataNode type fields = .node type fields)
    (here : CheckedNode dataNode type fields)
    (below : ∀ entry ∈ fields, Checked dataNode entry.2)
    : Leaves dataNode type fields (.unchanged (.node type fields)) where
  current := same.symm
  checked := Checked.node_iff.mpr ⟨here, below⟩
  inPlace _ := rfl

/-- A node of which the pass checks what it binds, and nothing else. -/
theorem CheckedNode.of_bindings
    (plain : type ∉ [NodeType.withStatement, .memberExpression, .objectPattern])
    (accepted : ∀ bound ∈ bindingsOf type fields, refuseReserved bound = .ok ⟨⟩)
    : CheckedNode dataNode type fields where
  noWith := by
    rintro rfl
    simp at plain
  access := by
    rintro rfl
    simp at plain
  entries := by
    rintro rfl
    simp at plain
  bindings bound member _ reserved :=
    not_binds_of_refuseReserved (accepted bound member) reserved

theorem CheckedNode.of_no_visitor (unvisited : prototypeVisitor dataNode type = none)
    : CheckedNode dataNode type fields := by
  apply CheckedNode.of_bindings
  · intro member
    rcases List.mem_cons.mp member with rfl | member
    · contradiction
    rcases List.mem_cons.mp member with rfl | member
    · contradiction
    obtain rfl := List.mem_singleton.mp member
    contradiction
  · have nothing : bindingsOf type fields = [] := by
      unfold bindingsOf
      split <;> first | rfl | contradiction
    simp [nothing]

theorem spread_ok (listed : spread ast = .ok elements)
    : ast = .list elements := by
  cases ast with
  | list inner => exact congrArg Ast.list (Except.ok.inj listed)
  | value | node => contradiction

theorem elementsOf_of_spread {wanted : Field}
    (listed : spread (Ast.field fields wanted) = .ok elements)
    : Ast.elementsOf fields wanted = elements := by
  simp [Ast.elementsOf, spread_ok listed]

theorem HasKeyName.keyName_eq {key : Ast} (named : HasKeyName name key)
    : keyName key = .ok (some name) := by
  cases named with
  | identifier named => exact congrArg Except.ok named
  | literal isLiteral text =>
      rcases isLiteral with rfl | rfl <;> exact congrArg (Except.ok ∘ some) text

theorem safeEntry_of_accepted {entry : List (Field × Ast)}
    (accepted : checkPatternEntry (.node .property entry) = .ok ⟨⟩)
    : SafeEntry entry := by
  unfold checkPatternEntry at accepted
  cases computed : Ast.flag entry .computed with
  | true => simp [computed, bind, Except.bind] at accepted
  | false =>
      refine ⟨computed, ?_⟩
      intro name named
      by_contra notSafe
      have refused
          : Option.filter (fun name => ¬ isSafeObjectProperty name) (some name) = some name := by
        simp [Option.filter, notSafe]
      simp only [computed, named.keyName_eq, bind, Except.bind, refused] at accepted
      contradiction

section

variable (below : ∀ entry ∈ children.fields, Checked dataNode entry.2)

include below

theorem visitObjectPattern_leaves
    (ran : visitObjectPattern path .objectPattern fields (.ok children) = .ok visited)
    : Leaves dataNode .objectPattern children.fields visited := by
  obtain ⟨_, here, ran⟩ := Exec.ok_of_bind ran
  cases here
  obtain ⟨properties, listed, ran⟩ := Exec.ok_of_bind ran
  obtain ⟨⟨⟩, accepted, ran⟩ := Exec.ok_of_bind ran
  cases ran
  refine .unchanged rfl ?_ below
  refine ⟨by decide, fun isMember => by contradiction, ?_, by simp [bindingsOf]⟩
  intro _ entry member
  exact safeEntry_of_accepted (Exec.ok_of_forM accepted _ (elementsOf_of_spread listed ▸ member))

variable (plain : type ∉ [NodeType.withStatement, .memberExpression, .objectPattern])
  (same : type ∉ rewrittenTypes)

include plain same

theorem visitBinding_leaves {bound : Field}
    (only : bindingsOf type children.fields = [Ast.field children.fields bound])
    (ran : visitBinding bound path type fields (.ok children) = .ok visited)
    : Leaves dataNode type children.fields visited := by
  obtain ⟨_, here, ran⟩ := Exec.ok_of_bind ran
  cases here
  obtain ⟨⟨⟩, accepted, ran⟩ := Exec.ok_of_bind ran
  cases ran
  refine .unchanged (rewritten_of_not_mem same _ _) (.of_bindings plain ?_) below
  simpa [only] using accepted

theorem visitFunction_leaves (both
      : bindingsOf type children.fields
        = Ast.field children.fields .id :: Ast.elementsOf children.fields .params)
    (ran : visitFunction path type fields (.ok children) = .ok visited)
    : Leaves dataNode type children.fields visited := by
  obtain ⟨_, here, ran⟩ := Exec.ok_of_bind ran
  cases here
  obtain ⟨⟨⟩, name, ran⟩ := Exec.ok_of_bind ran
  obtain ⟨params, listed, ran⟩ := Exec.ok_of_bind ran
  obtain ⟨⟨⟩, accepted, ran⟩ := Exec.ok_of_bind ran
  cases ran
  refine .unchanged (rewritten_of_not_mem same _ _) (.of_bindings plain ?_) below
  intro bound member
  rw [both] at member
  rcases List.mem_cons.mp member with rfl | isParam
  · exact name
  · exact Exec.ok_of_forM accepted bound (elementsOf_of_spread listed ▸ isParam)

theorem visitClass_leaves (only : bindingsOf type children.fields = [Ast.field children.fields .id])
    (ran : visitClass path type fields (.ok children) = .ok visited)
    : Leaves dataNode type children.fields visited := by
  obtain ⟨_, here, ran⟩ := Exec.ok_of_bind ran
  cases here
  obtain ⟨⟨⟩, accepted, ran⟩ := Exec.ok_of_bind ran
  obtain rfl : Visited.unchanged (.node type children.fields) = visited := by
    split at ran
    · exact Except.ok.inj ran
    · split at ran
      · contradiction
      · exact Except.ok.inj ran
    · contradiction
  refine .unchanged (rewritten_of_not_mem same _ _) (.of_bindings plain ?_) below
  simpa [only] using accepted

end

theorem Checked.plain (unvisited : prototypeVisitor dataNode type = none)
    (below : ∀ entry ∈ fields, Checked dataNode entry.2)
    : Checked dataNode (.node type fields) :=
  node_iff.mpr ⟨.of_no_visitor unvisited, below⟩

theorem checked_identifier (name : String) : Checked dataNode (identifier name) := by
  apply Checked.plain rfl
  simp [Checked.value]

theorem checked_literalString (value : String) : Checked dataNode (literalString value) := by
  apply Checked.plain rfl
  simp [Checked.value]

theorem checked_dataNode : Checked dataNode dataNode.toAst := by
  cases dataNode with
  | this => exact Checked.plain rfl (by simp)
  | named => exact checked_identifier DATA_NODE_NAME

theorem checked_namedAccess {object : Ast} (checked : Checked dataNode object)
    (safe : isSafeObjectProperty name = true)
    : Checked dataNode (memberExpression object (identifier name) false) := by
  refine Checked.node_iff.mpr ⟨?_, ?_⟩
  · refine ⟨by decide, fun _ => .named _ rfl rfl ?_, fun isPattern => by contradiction,
      by simp [bindingsOf]⟩
    intro text named
    cases named
    exact safe
  · simp [checked, checked_identifier, Checked.value]

theorem checked_callExpression {callee : Ast} {arguments : List Ast}
    (checked : Checked dataNode callee)
    (all : ∀ argument ∈ arguments, Checked dataNode argument)
    : Checked dataNode (callExpression callee arguments) := by
  apply Checked.plain rfl
  simpa [checked, Checked.list_iff] using all

theorem checked_sanitizerCall {key : Ast} (checked : Checked dataNode key)
    : Checked dataNode (sanitizerCall dataNode key) := by
  apply checked_callExpression
  · exact checked_namedAccess checked_dataNode (by decide)
  · simpa using checked

theorem checked_buildSafeSpreadArg (safe : isSafeObjectProperty name = true)
    : Checked dataNode (buildSafeSpreadArg name dataNode) := by
  have isInDataContext
      : Checked dataNode (binaryExpression "in" (literalString name) dataNode.toAst) := by
    apply Checked.plain rfl
    simp [Checked.value, checked_literalString, checked_dataNode]
  have throws (message : String)
      : Checked dataNode
          (throwStatement (newExpression (identifier "Error") [literalString message])) := by
    apply Checked.plain rfl
    suffices Checked dataNode (newExpression (identifier "Error") [literalString message]) by
      simpa using this
    apply Checked.plain rfl
    simp [checked_identifier, Checked.list_iff, checked_literalString]
  have function (message : String)
      : Checked dataNode
          (arrowFunctionExpression []
            (blockStatement
              [throwStatement (newExpression (identifier "Error") [literalString message])]))
      := by
    refine Checked.node_iff.mpr ⟨.of_bindings (by decide) ?_, ?_⟩
    · simp [bindingsOf, Ast.field, Ast.elementsOf, refuseReserved, getReservedIdentifier,
        getBoundIdentifiers, boundNames]
      rfl
    · suffices Checked dataNode (blockStatement _) by
        simpa [Checked.value, Checked.list_iff] using this
      apply Checked.plain rfl
      simp [Checked.list_iff, throws]
  apply Checked.plain rfl
  simp [isInDataContext, checked_namedAccess checked_dataNode safe,
    checked_callExpression (function _)]

theorem safe_of_checkStaticProperty {property : Ast}
    (accepted : checkStaticProperty property = .ok ⟨⟩)
    : ∃ name,
        property = .node .identifier name
        ∧ ∀ text, Ast.textOf name .name = some text → isSafeObjectProperty text = true := by
  unfold checkStaticProperty at accepted
  split at accepted
  · contradiction
  · next name =>
      refine ⟨name, rfl, ?_⟩
      intro text named
      by_contra notSafe
      simp only [named, Option.filter, notSafe] at accepted
      contradiction
  · contradiction

theorem isSafe_of_head {text : String} {first : Char}
    (starts : text.toList.head? = some first)
    (other : ∀ property ∈ unsafeObjectProperties, property.toList.head? ≠ some first)
    : isSafeObjectProperty text = true := by
  simp only [isSafeObjectProperty, decide_eq_true_eq]
  intro member
  exact other text member starts

theorem digit_not_head (firstDigit : Fin 10)
    : ∃ first,
        (toString firstDigit.val).toList.head? = some first
        ∧ ∀ property ∈ unsafeObjectProperties, property.toList.head? ≠ some first := by
  refine ⟨Char.ofNat (48 + firstDigit.val), ?_, ?_⟩
  · revert firstDigit
    decide
  · revert firstDigit
    decide

/-- Only a literal that is a string can have an unsafe string form. -/
theorem LiteralValue.safe_toText {value : LiteralValue}
    (safe : value.isSafeObjectProperty = true)
    : Sandbox.isSafeObjectProperty value.toText = true := by
  cases value with
  | string value => exact safe
  | boolean value => cases value <;> decide
  | number firstDigit rest =>
      obtain ⟨first, starts, other⟩ := digit_not_head firstDigit
      apply isSafe_of_head _ other
      simpa [LiteralValue.toText, String.toList_append, List.head?_append] using starts
  | regExp pattern flags =>
      have starts : (LiteralValue.regExp pattern flags).toText.toList.head? = some '/' := by
        simp [LiteralValue.toText, String.toList_append]
      exact isSafe_of_head starts (by decide)
  | _ => decide

theorem safe_of_checkLiteralProperty {property : List (Field × Ast)}
    (accepted : checkLiteralProperty property = .ok ⟨⟩)
    : isSafeObjectProperty (Ast.literalText property) = true := by
  unfold Ast.literalText
  unfold checkLiteralProperty at accepted
  cases found : Ast.literalValue property with
  | none => decide
  | some value =>
      apply LiteralValue.safe_toText
      by_contra notSafe
      simp only [found, Option.filter, notSafe] at accepted
      contradiction

theorem visitMemberExpression_leaves
    (below : ∀ entry ∈ children.fields, Checked dataNode entry.2)
    (ran : visitMemberExpression dataNode path .memberExpression fields (.ok children)
      = .ok visited)
    : Leaves dataNode .memberExpression children.fields visited := by
  obtain ⟨_, here, ran⟩ := Exec.ok_of_bind ran
  cases here
  cases computed : Ast.flag children.fields .computed with
  | false =>
      simp only [computed, if_true] at ran
      obtain ⟨⟨⟩, accepted, ran⟩ := Exec.ok_of_bind ran
      cases ran
      obtain ⟨name, property, safe⟩ := safe_of_checkStaticProperty accepted
      refine .unchanged (by simp [rewritten, computed]) ?_ below
      exact ⟨by decide, fun _ => .named name computed property safe,
        fun isPattern => by contradiction, by simp [bindingsOf]⟩
  | true =>
      simp only [computed, Bool.true_eq_false, if_false] at ran
      have checkedKey := Checked.field below .property
      have literalLeaves {literalType : NodeType} {literal : List (Field × Ast)}
          (isLiteral : literalType = .literal ∨ literalType = .stringLiteral)
          (property : Ast.field children.fields .property = .node literalType literal)
          (ran
            : (do
                checkLiteralProperty literal
                return Visited.unchanged (.node .memberExpression children.fields))
              = .ok visited)
          : Leaves dataNode .memberExpression children.fields visited := by
        obtain ⟨⟨⟩, accepted, ran⟩ := Exec.ok_of_bind ran
        cases ran
        refine .unchanged ?_ ?_ below
        · rcases isLiteral with rfl | rfl <;> simp [rewritten, computed, property]
        · exact ⟨by decide,
            fun _ => .literal literalType literal computed property isLiteral
              (safe_of_checkLiteralProperty accepted),
            fun isPattern => by contradiction, by simp [bindingsOf]⟩
      split at ran
      · contradiction
      · next literal property => exact literalLeaves (.inr rfl) property ran
      · next literal property => exact literalLeaves (.inl rfl) property ran
      · next notAbsent notString notLiteral =>
          cases ran
          refine ⟨?_, ?_, by simp⟩
          · simp only [rewritten, computed, Bool.true_eq_false, if_false]
          · refine Checked.node_iff.mpr ⟨?_, ?_⟩
            · exact ⟨by decide, fun _ => .sanitized _ rfl rfl,
                fun isPattern => by contradiction, by simp [bindingsOf]⟩
            · simp [Checked.field below, checked_sanitizerCall checkedKey, Checked.value]

theorem isSafe_of_blockedSpread
    : ∀ name ∈ BLOCKED_SPREAD_GLOBALS, isSafeObjectProperty name = true := by
  decide

theorem visitSpread_leaves (isSpread : type = .spreadElement ∨ type = .spreadProperty)
    (below : ∀ entry ∈ children.fields, Checked dataNode entry.2)
    (ran : visitSpread dataNode path type fields (.ok children) = .ok visited)
    : Leaves dataNode type children.fields visited := by
  obtain ⟨_, here, ran⟩ := Exec.ok_of_bind ran
  cases here
  have checked (fields : List (Field × Ast)) : CheckedNode dataNode type fields := by
    rcases isSpread with rfl | rfl <;> exact .of_bindings (by decide) (by simp [bindingsOf])
  dsimp only at ran
  split at ran
  · contradiction
  · next argument property =>
      split at ran
      · next name blocked =>
          cases ran
          have safe : isSafeObjectProperty name = true := by
            have member : name ∈ BLOCKED_SPREAD_GLOBALS := by
              simpa using (Option.filter_eq_some_iff.mp blocked).2
            exact isSafe_of_blockedSpread name member
          refine ⟨?_, Checked.node_iff.mpr ⟨checked _, ?_⟩, fun _ => rfl⟩
          · rcases isSpread with rfl | rfl <;> simp only [rewritten, property, blocked] <;> rfl
          · intro entry member
            obtain ⟨old, inFields, rfl⟩ := List.mem_map.mp member
            split
            · exact checked_buildSafeSpreadArg safe
            · exact below old inFields
      · next notBlocked =>
          cases ran
          refine .unchanged ?_ (checked _) below
          rcases isSpread with rfl | rfl <;> simp only [rewritten, property, notBlocked]
  · next notAbsent notIdentifier =>
      cases ran
      refine .unchanged ?_ (checked _) below
      rcases isSpread with rfl | rfl <;> simp only [rewritten]

theorem visitNode_leaves (below : ∀ entry ∈ children.fields, Checked dataNode entry.2)
    (ran : visitNode (prototypeVisitor dataNode) path type fields (.ok children) = .ok visited)
    : Leaves dataNode type children.fields visited := by
  unfold visitNode at ran
  split at ran
  · next method found =>
      cases type <;> first | contradiction | cases found
      case withStatement => contradiction
      case catchClause | variableDeclarator | assignmentExpression | updateExpression
        | forOfStatement | forInStatement =>
        exact visitBinding_leaves below (by decide) (by decide) rfl ran
      case functionDeclaration | functionExpression | arrowFunctionExpression =>
        exact visitFunction_leaves below (by decide) (by decide) rfl ran
      case classDeclaration | classExpression =>
        exact visitClass_leaves below (by decide) (by decide) rfl ran
      case memberExpression => exact visitMemberExpression_leaves below ran
      case objectPattern => exact visitObjectPattern_leaves below ran
      case spreadElement => exact visitSpread_leaves (.inl rfl) below ran
      case spreadProperty => exact visitSpread_leaves (.inr rfl) below ran
  · next unvisited =>
      cases ran
      refine .unchanged ?_ (.of_no_visitor unvisited) below
      unfold rewritten
      split <;> first | rfl | contradiction

theorem visitNode_error (error : JsError)
    : visitNode (prototypeVisitor dataNode) path type fields (.error error) ≠ .ok visited := by
  intro ran
  unfold visitNode at ran
  split at ran
  · next method found =>
      cases type <;> first | contradiction | cases found
      all_goals contradiction
  · contradiction

/-- What a visit of a whole tree leaves, if it does not throw. -/
structure Sanitizes (dataNode : DataNode) (ast : Ast) (visited : Visited) : Prop where
  current : visited.current = sanitized dataNode ast
  checked : Checked dataNode visited.current
  inPlace (notMember : ast.type? ≠ some .memberExpression) : visited.node = visited.current

theorem visitElements_sanitizes (all
      : ∀ element ∈ elements, ∀ {path : Path} {visited : Visited},
          visitTree (prototypeVisitor dataNode) path element = .ok visited
          → Sanitizes dataNode element visited) {parentName : Option PathName} {index : Nat}
    {currents : List Ast}
    (ran
      : visitElements (visitTree (prototypeVisitor dataNode)) parentName index elements
        = .ok currents)
    : currents = sanitizedElements dataNode elements
      ∧ ∀ current ∈ currents, Checked dataNode current := by
  induction elements generalizing index currents with
  | nil =>
      cases ran
      exact ⟨rfl, by simp⟩
  | cons element rest ih =>
      obtain ⟨visited, ranFirst, ran⟩ := Exec.ok_of_bind ran
      obtain ⟨others, ranRest, ran⟩ := Exec.ok_of_bind ran
      cases ran
      have first := all element (by simp) ranFirst
      obtain ⟨same, checked⟩ :=
        ih (fun other member => all other (.tail _ member)) ranRest
      refine ⟨?_, ?_⟩
      · rw [sanitizedElements, first.current, same]
      · intro current member
        rcases List.mem_cons.mp member with rfl | later
        · exact first.checked
        · exact checked current later

theorem visitFields_sanitizes
    (all
      : ∀ entry ∈ fields, ∀ {path : Path} {visited : Visited},
          visitTree (prototypeVisitor dataNode) path entry.2 = .ok visited
          → Sanitizes dataNode entry.2 visited)
    {name : PathName}
    (ran : visitFields (visitTree (prototypeVisitor dataNode)) name fields = .ok children)
    : children.fields = sanitizedFields dataNode fields
      ∧ ∀ entry ∈ children.fields, Checked dataNode entry.2 := by
  induction fields generalizing children with
  | nil =>
      cases ran
      exact ⟨rfl, by simp [Traversed.fields]⟩
  | cons entry rest ih =>
      obtain ⟨field, value⟩ := entry
      obtain ⟨visited, ranFirst, ran⟩ := Exec.ok_of_bind ran
      obtain ⟨others, ranRest, ran⟩ := Exec.ok_of_bind ran
      cases ran
      have first := all (field, value) (by simp) ranFirst
      obtain ⟨same, checked⟩ :=
        ih (fun other member => all other (.tail _ member)) ranRest
      refine ⟨?_, ?_⟩
      · rw [sanitizedFields, ← first.current, ← same]
        rfl
      · intro current member
        rcases List.mem_cons.mp member with rfl | later
        · exact first.checked
        · exact checked current later

/-- By induction on the tree: children are visited first. -/
theorem visitTree_sanitizes (dataNode : DataNode) (ast : Ast) {path : Path} {visited : Visited}
    (ran : visitTree (prototypeVisitor dataNode) path ast = .ok visited)
    : Sanitizes dataNode ast visited := by
  induction ast using Ast.tree_induction generalizing path visited with
  | value value =>
      cases ran
      exact ⟨rfl, Checked.value value, fun _ => rfl⟩
  | list elements ih =>
      rw [isAstVisit_visitTree.list] at ran
      obtain ⟨currents, ranEach, rfl⟩ := Exec.ok_of_map ran
      obtain ⟨same, checked⟩ := visitElements_sanitizes ih ranEach
      exact ⟨congrArg Ast.list same, Checked.list_iff.mpr checked, fun _ => rfl⟩
  | node type fields ih =>
      rw [isAstVisit_visitTree.node] at ran
      cases traverse : visitFields (visitTree (prototypeVisitor dataNode)) path.name fields with
      | error error => exact absurd (traverse ▸ ran) (visitNode_error error)
      | ok children =>
          rw [traverse] at ran
          obtain ⟨same, checked⟩ := visitFields_sanitizes ih traverse
          have leaves := visitNode_leaves checked ran
          refine ⟨?_, leaves.checked, ?_⟩
          · rw [sanitized, ← same]
            exact leaves.current
          · intro notMember
            exact leaves.inPlace (fun isMember => notMember (congrArg some isMember))

end Visits

/-! ### Reads of properties -/

/-- A run of an expression: what its parts evaluate to, and which values its patterns take
apart.
-/
structure Evaluation where
  evaluates : Ast → RuntimeValue → Prop
  destructures : Ast → RuntimeValue → Prop

/-- The data holds the check, whatever the texts of values are. -/
def Evaluation.RunsSanitizer (evaluation : Evaluation) (dataNode : DataNode) : Prop :=
  ∀ key value,
    evaluation.evaluates (sanitizerCall dataNode key) value
    → ∃ toText argument,
        evaluation.evaluates key argument ∧ sanitizer toText argument = .ok value

/-- A string is a key as it is. Another value may turn into any key. -/
inductive IsKey (key : String) : RuntimeValue → Prop
  | text : IsKey key (.text key)
  | object (ownKeys : List String) : IsKey key (.object ownKeys)

def isLiteralType (type? : Option NodeType) : Prop :=
  type? = some .literal ∨ type? = some .stringLiteral

/-- A member expression or a property of an object pattern reads a property. -/
inductive ReadsByKey (evaluation : Evaluation) (key : String)
    : NodeType → List (Field × Ast) → Prop
  | named {fields name : List (Field × Ast)} (computed : Ast.flag fields .computed = false)
    (property : Ast.field fields .property = .node .identifier name)
    (text : Ast.textOf name .name = some key)
    : ReadsByKey evaluation key .memberExpression fields
  | literal {fields literal : List (Field × Ast)} {type : NodeType}
    (computed : Ast.flag fields .computed = true)
    (property : Ast.field fields .property = .node type literal)
    (isLiteral : isLiteralType (some type)) (text : Ast.literalText literal = key)
    : ReadsByKey evaluation key .memberExpression fields
  | computed {fields : List (Field × Ast)} {value : RuntimeValue}
    (computed : Ast.flag fields .computed = true)
    (notLiteral : ¬ isLiteralType (Ast.field fields .property).type?)
    (evaluated : evaluation.evaluates (Ast.field fields .property) value)
    (isKey : IsKey key value)
    : ReadsByKey evaluation key .memberExpression fields
  | entry {fields entry : List (Field × Ast)}
    (member : .node .property entry ∈ Ast.elementsOf fields .properties)
    (named : HasKeyName key (Ast.field entry .key))
    : ReadsByKey evaluation key .objectPattern fields
  | computedEntry {fields entry : List (Field × Ast)} {value : RuntimeValue}
    (member : .node .property entry ∈ Ast.elementsOf fields .properties)
    (computed : Ast.flag entry .computed = true)
    (evaluated : evaluation.evaluates (Ast.field entry .key) value)
    (isKey : IsKey key value)
    : ReadsByKey evaluation key .objectPattern fields

/-- A rest element of an object pattern copies the own properties of the object that no
other entry of the pattern names.
-/
structure CopiesKey (evaluation : Evaluation) (key : String) (type : NodeType)
    (fields : List (Field × Ast))
    : Prop where
  isPattern : type = .objectPattern
  hasRest : ∃ rest, .node .restElement rest ∈ Ast.elementsOf fields .properties
  owned
    : ∃ ownKeys,
        evaluation.destructures (.node type fields) (.object ownKeys) ∧ key ∈ ownKeys
  notNamed : ¬ ReadsByKey evaluation key type fields

/-- The check returns safe strings only. -/
theorem sanitizer_safe {toText : RuntimeValue → Except JsError String}
    {argument value : RuntimeValue} (returned : sanitizer toText argument = .ok value)
    : ∃ text, value = .text text ∧ isSafeObjectProperty text = true := by
  obtain ⟨propertyKey, _, returned⟩ := Exec.ok_of_bind returned
  cases safe : isSafeObjectProperty propertyKey with
  | true =>
      simp only [safe, not_true_eq_false, if_false] at returned
      exact ⟨propertyKey, (Except.ok.inj returned).symm, safe⟩
  | false =>
      simp only [safe, Bool.false_eq_true, not_false_eq_true, if_true] at returned
      contradiction

theorem CheckedNode.read_safe {dataNode : DataNode} {fields : List (Field × Ast)}
    (checked : CheckedNode dataNode type fields) {evaluation : Evaluation}
    (runs : evaluation.RunsSanitizer dataNode) {key : String}
    (reads : ReadsByKey evaluation key type fields)
    : isSafeObjectProperty key = true := by
  cases reads with
  | named computed property text =>
      cases checked.access rfl with
      | named name _ sameProperty safe =>
          obtain ⟨_, rfl⟩ := Ast.node.inj (property.symm.trans sameProperty)
          exact safe key text
      | literal _ _ isComputed => simp [computed] at isComputed
      | sanitized _ isComputed => simp [computed] at isComputed
  | literal computed property isLiteral text =>
      cases checked.access rfl with
      | named _ notComputed => simp [computed] at notComputed
      | literal type literal _ sameProperty _ safe =>
          obtain ⟨_, rfl⟩ := Ast.node.inj (property.symm.trans sameProperty)
          exact text ▸ safe
      | sanitized key _ sameProperty =>
          obtain ⟨rfl, _⟩ := Ast.node.inj (property.symm.trans sameProperty)
          simp [isLiteralType] at isLiteral
  | computed computed notLiteral evaluated isKey =>
      cases checked.access rfl with
      | named _ notComputed => simp [computed] at notComputed
      | literal type literal _ property isLiteral =>
          rw [property] at notLiteral
          rcases isLiteral with rfl | rfl <;> simp [isLiteralType, Ast.type?] at notLiteral
      | sanitized original _ property =>
          rw [property] at evaluated
          obtain ⟨_, _, _, returned⟩ := runs original _ evaluated
          obtain ⟨text, rfl, safe⟩ := sanitizer_safe returned
          cases isKey with
          | text => exact safe
  | entry member named => exact (checked.entries rfl _ member).safe named
  | computedEntry member computed =>
      have notComputed := (checked.entries rfl _ member).notComputed
      simp [computed] at notComputed

theorem prototypeSanitizer_sanitizes {astVisit : Visitor → Path → Ast → Except JsError Visited}
    (documented : IsAstVisit astVisit) {dataNode : DataNode} {result : Ast}
    (notMember : ast.type? ≠ some .memberExpression)
    (ran : PrototypeSanitizer astVisit dataNode ast = .ok result)
    : result = sanitized dataNode ast ∧ Checked dataNode result := by
  unfold PrototypeSanitizer at ran
  rw [documented.eq_visitTree] at ran
  obtain ⟨visited, ranTree, rfl⟩ := Exec.ok_of_map ran
  have leaves := visitTree_sanitizes dataNode ast ranTree
  rw [leaves.inPlace notMember]
  exact ⟨leaves.current, leaves.checked⟩

/-- If nothing is thrown, all nodes that are left are checked, computed keys are given to the
check at run time, and no property that is read by a key is unsafe.
-/
theorem prototypeSanitizer_checks
    {astVisit : Visitor → Path → Ast → Except JsError Visited}
    (documented : IsAstVisit astVisit) {dataNode : DataNode} {ast result : Ast}
    (notMember : ast.type? ≠ some .memberExpression)
    (ran : PrototypeSanitizer astVisit dataNode ast = .ok result)
    : result = sanitized dataNode ast
      ∧ Checked dataNode result
      ∧ ∀ evaluation : Evaluation, evaluation.RunsSanitizer dataNode
          → ∀ type fields key, result.Has (.node type fields)
            → ReadsByKey evaluation key type fields → isSafeObjectProperty key = true := by
  obtain ⟨same, checked⟩ := prototypeSanitizer_sanitizes documented notMember ran
  refine ⟨same, checked, ?_⟩
  intro evaluation runs type fields key has reads
  exact (checked type fields has).read_safe runs reads

/-- `items[key]` -/
def computedAccess : Ast := fileOf (memberExpression (identifier "items") (identifier "key") true)

theorem computedAccess_checked
    : ∃ result,
        PrototypeSanitizer visitTree .this computedAccess = .ok result
        ∧ Checked .this result := by
  have returns
      : (PrototypeSanitizer visitTree .this computedAccess).toOption.isSome = true := by
    decide +kernel
  obtain ⟨result, found⟩ := Option.isSome_iff_exists.mp returns
  have ran := Exec.ok_of_toOption found
  have checks := prototypeSanitizer_checks isAstVisit_visitTree (by decide) ran
  exact ⟨result, ran, checks.2.1⟩

/-- `{ ...rest }` -/
def restPattern : Ast :=
  .node .objectPattern
    [(.properties, .list [.node .restElement [(.argument, identifier "rest")]])]

/-- `{ constructor: 1 }` -/
def ownConstructor : Ast :=
  objectExpression [property "init" (identifier "constructor") (literalNumber ⟨1, by decide⟩)]

/-- `(({ ...rest }) => rest)({ constructor: 1 })` -/
def restOfOwnConstructor : Ast :=
  fileOf
    (callExpression (arrowFunctionExpression [restPattern] (identifier "rest"))
      [ownConstructor])

/-- The call gives its argument to the pattern. -/
def restRun : Evaluation where
  evaluates ast value := ast = ownConstructor ∧ value = .object ["constructor"]
  destructures pattern value := pattern = restPattern ∧ value = .object ["constructor"]

/-- A rest element copies an own property with an unsafe name. -/
theorem restOfOwnConstructor_copies
    : ¬ ∀ result,
        PrototypeSanitizer visitTree .this restOfOwnConstructor = .ok result
        → restRun.RunsSanitizer .this
        → ∀ type fields key, result.Has (.node type fields)
          → ReadsByKey restRun key type fields ∨ CopiesKey restRun key type fields
          → isSafeObjectProperty key = true := by
  intro safe
  have returns
      : (PrototypeSanitizer visitTree .this restOfOwnConstructor).toOption.isSome = true := by
    decide +kernel
  obtain ⟨result, found⟩ := Option.isSome_iff_exists.mp returns
  have ran := Exec.ok_of_toOption found
  obtain ⟨same, _⟩ := prototypeSanitizer_sanitizes isAstVisit_visitTree (by decide) ran
  have runs : restRun.RunsSanitizer .this := by
    intro key value ⟨isCall, _⟩
    cases isCall
  have unchanged : sanitized .this restOfOwnConstructor = restOfOwnConstructor := rfl
  have has : result.Has restPattern := by
    rw [same, unchanged]
    have inCall
        : Ast.Has
            (callExpression (arrowFunctionExpression [restPattern] (identifier "rest"))
              [ownConstructor])
            restPattern :=
      .entry (.head _) (.entry (.tail _ (.head _)) (.element (.head _) (.self _)))
    exact .entry (.head _) (.entry (.head _) (.element (.head _) (.entry (.head _) inCall)))
  have copies
      : CopiesKey restRun "constructor" .objectPattern
          [(.properties, .list [.node .restElement [(.argument, identifier "rest")]])] := by
    refine ⟨rfl, ⟨[(.argument, identifier "rest")], ?_⟩, ⟨_, ⟨rfl, rfl⟩, by simp⟩, ?_⟩
    · simp [Ast.elementsOf, Ast.field]
    · intro reads
      cases reads with
      | entry member => simp [Ast.elementsOf, Ast.field] at member
      | computedEntry member => simp [Ast.elementsOf, Ast.field] at member
  have isSafe := safe result ran runs _ _ _ has (.inr copies)
  revert isSafe
  decide

end N8n.Sandbox
