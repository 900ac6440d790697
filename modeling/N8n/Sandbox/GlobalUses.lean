import N8n.Sandbox.ThisSanitizer

/-! The uses of `this` and of the global object that are left after the pass. Whether an
identifier is a property name depends on the field in which it sits, but the pass looks at
the field in which its parent sits.
-/

namespace N8n.Sandbox

/-! ### Uses of identifiers -/

/-- What an identifier is for in its place. -/
inductive Usage where
  | variable
  | binding
  | propertyName
  | label
  deriving DecidableEq, Repr

/-- The usage of a field, for a node in a place of the given usage. The parts of a pattern
are for what the pattern is for.
-/
def usageOf (type : NodeType) (computed : Bool) (usage : Usage) (field : Field) : Usage :=
  match type, field with
  | .memberExpression, .property => if computed then .variable else .propertyName
  | .property, .key | .methodDefinition, .key | .propertyDefinition, .key =>
      if computed then .variable else .propertyName
  | .variableDeclarator, .id | .functionDeclaration, .id | .functionExpression, .id
  | .functionDeclaration, .params | .functionExpression, .params
  | .arrowFunctionExpression, .params | .classDeclaration, .id | .classExpression, .id
  | .catchClause, .param => .binding
  | .labeledStatement, .label | .breakStatement, .label | .continueStatement, .label
  | .metaProperty, _ => .label
  | .objectPattern, .properties | .property, .value | .arrayPattern, .elements
  | .restElement, .argument | .assignmentPattern, .left => usage
  | _, _ => .variable

/-- A `this`, or a `globalThis` with its usage and the name of the path of its parent. -/
inductive Mention where
  | this
  | globalThis (usage : Usage) (parentName : Option PathName)
  deriving DecidableEq, Repr

namespace Mention

/-- The usage, if it is a `globalThis`. -/
def usage : Mention → Option Usage
  | .this => none
  | .globalThis usage _ => some usage

/-- The parent of the `globalThis` sits in a field `property`. -/
def belowProperty : Mention → Bool
  | .this => false
  | .globalThis _ parentName => parentName = some (.field .property)

end Mention

/-- What a node itself mentions. -/
def ownMentions (usage : Usage) (path : Path) (type : NodeType) (fields : List (Field × Ast))
    : List Mention :=
  match type with
  | .thisExpression => [.this]
  | .identifier =>
      match Ast.field fields .name with
      | .value (.text "globalThis") => [.globalThis usage path.parentName]
      | _ => []
  | _ => []

mutual
/-- The mentions in a tree, in order. -/
def mentions (usage : Usage) : Path → Ast → List Mention
  | _, .value _ => []
  | path, .list elements => mentionsOfElements usage path.parentName 0 elements
  | path, .node type fields =>
      ownMentions usage path type fields
        ++ mentionsOfFields (usageOf type (Ast.flag fields .computed) usage) path.name fields

def mentionsOfElements (usage : Usage) (parentName : Option PathName)
    : Nat → List Ast → List Mention
  | _, [] => []
  | index, element :: rest =>
      mentions usage ⟨.index index, parentName⟩ element
        ++ mentionsOfElements usage parentName (index + 1) rest

def mentionsOfFields (usageIn : Field → Usage) (name : PathName)
    : List (Field × Ast) → List Mention
  | [] => []
  | (field, value) :: rest =>
      mentions (usageIn field) ⟨.field field, some name⟩ value
        ++ mentionsOfFields usageIn name rest
end

/-- The place of a whole program. -/
def mentionsIn (ast : Ast) : List Mention := mentions .variable ⟨.root, none⟩ ast

/-- The number of times that `globalThis` has the usage. -/
def countGlobals (usage : Usage) (ast : Ast) : Nat :=
  ((mentionsIn ast).map Mention.usage).count (some usage)

/-- No `this` and no `globalThis` as a variable is left, and each one that is the name of a
property is left as it was: none of them is new, so it is enough to count them.
-/
structure GlobalsRemoved (ast result : Ast) : Prop where
  noThis : .this ∉ mentionsIn result
  noVariable : countGlobals .variable result = 0
  propertyNames : countGlobals .propertyName result = countGlobals .propertyName ast

/-- Each `globalThis` has a parent that sits in a field `property` exactly if it is itself
the name of a property; bindings and labels do not matter.
-/
def JudgedByParent (ast : Ast) : Prop :=
  ∀ usage parentName, .globalThis usage parentName ∈ mentionsIn ast
    → (usage = .variable → parentName ≠ some (.field .property))
      ∧ (usage = .propertyName → parentName = some (.field .property))

/-! ### Trees as the parser produces them -/

def Ast.isValue : Ast → Bool
  | .value _ => true
  | _ => false

/-- A call has a callee and a list of arguments, and no other nodes; identifiers and `this`
have no nodes below them.
-/
def hasShape (type : NodeType) (fields : List (Field × Ast)) : Bool :=
  match type with
  | .callExpression =>
      match fields with
      | (.callee, .node _ _) :: (.arguments, .list _) :: rest =>
          rest.all (fun entry => entry.2.isValue)
      | _ => false
  | .identifier | .thisExpression => fields.all (fun entry => entry.2.isValue)
  | _ => true

mutual
def wellFormed : Ast → Bool
  | .value _ => true
  | .list elements => wellFormedElements elements
  | .node type fields => hasShape type fields && wellFormedFields fields

def wellFormedElements : List Ast → Bool
  | [] => true
  | element :: rest => wellFormed element && wellFormedElements rest

def wellFormedFields : List (Field × Ast) → Bool
  | [] => true
  | (_, value) :: rest => wellFormed value && wellFormedFields rest
end

/-! ### Mentions of built nodes -/

/-- The usages of mentions, `none` for a `this`. -/
def usages (found : List Mention) : List (Option Usage) := found.map Mention.usage

/-- The usages of the mentions that the pass leaves. -/
def leftUsages (found : List Mention) : List (Option Usage) :=
  usages (found.filter Mention.belowProperty)

@[simp] theorem usages_nil : usages [] = [] := rfl

@[simp] theorem usages_append (first second : List Mention)
    : usages (first ++ second) = usages first ++ usages second :=
  List.map_append

@[simp] theorem leftUsages_nil : leftUsages [] = [] := rfl

@[simp] theorem leftUsages_append (first second : List Mention)
    : leftUsages (first ++ second) = leftUsages first ++ leftUsages second := by
  simp [leftUsages]

theorem usages_ownMentions (usage : Usage) (path other : Path) (type : NodeType)
    (fields : List (Field × Ast))
    : usages (ownMentions usage path type fields) = usages (ownMentions usage other type fields)
    := by
  unfold ownMentions
  split
  · rfl
  · split <;> rfl
  · rfl

variable {elements : List Ast} {usage : Usage}

theorem usages_elements (same : ∀ element ∈ elements, ∀ path other,
      usages (mentions usage path element) = usages (mentions usage other element))
    (parentName otherName : Option PathName) (index other : Nat)
    : usages (mentionsOfElements usage parentName index elements)
      = usages (mentionsOfElements usage otherName other elements) := by
  induction elements generalizing index other with
  | nil => rfl
  | cons element rest ih =>
      simp only [mentionsOfElements, usages_append]
      rw [same element (by simp),
        ih (fun later member => same later (.tail _ member))]

variable {fields : List (Field × Ast)}

theorem usages_fields {usageIn : Field → Usage}
    (same : ∀ entry ∈ fields, ∀ usage path other,
      usages (mentions usage path entry.2) = usages (mentions usage other entry.2))
    (name other : PathName)
    : usages (mentionsOfFields usageIn name fields)
      = usages (mentionsOfFields usageIn other fields) := by
  induction fields with
  | nil => rfl
  | cons entry rest ih =>
      simp only [mentionsOfFields, usages_append]
      rw [same entry (by simp),
        ih (fun later member => same later (.tail _ member))]

/-- The usages in a tree do not depend on its path. -/
theorem usages_path (usage : Usage) (path other : Path) (ast : Ast)
    : usages (mentions usage path ast) = usages (mentions usage other ast) := by
  induction ast using Ast.tree_induction generalizing usage path other with
  | value value => rfl
  | list elements ih =>
      simp only [mentions]
      exact usages_elements (fun element member => ih element member usage) _ _ _ _
  | node type fields ih =>
      simp only [mentions, usages_append]
      rw [usages_ownMentions usage path other,
        usages_fields (fun entry member => ih entry member) path.name other.name]

theorem mentions_identifier {name : String} (notGlobal : name ≠ "globalThis") (usage : Usage)
    (path : Path)
    : mentions usage path (identifier name) = [] := by
  have none : ownMentions usage path .identifier [(.name, .value (.text name))] = [] := by
    simp only [ownMentions, Ast.field]
    split
    · next same => exact absurd (by simpa using same) notGlobal
    · rfl
  simp [identifier, mentions, mentionsOfFields, none]

theorem mentions_EMPTY_CONTEXT (usage : Usage) (path : Path)
    : mentions usage path EMPTY_CONTEXT = [] := by
  simp [EMPTY_CONTEXT, objectExpression, property, mentions_identifier, mentions,
    mentionsOfElements, mentionsOfFields, ownMentions]

theorem mentions_SAFE_GLOBAL (usage : Usage) (path : Path)
    : mentions usage path SAFE_GLOBAL = [] := by
  simp [SAFE_GLOBAL, objectExpression, mentions, mentionsOfElements, mentionsOfFields,
    ownMentions]

theorem mentions_SAFE_THIS (usage : Usage) (path : Path)
    : mentions usage path SAFE_THIS = [] := by
  simp [SAFE_THIS, sequenceExpression, literalNumber, mentions, mentionsOfElements,
    mentionsOfFields, ownMentions, mentions_EMPTY_CONTEXT]

/-- A function called through one of its methods, and the arguments after the context. -/
theorem usages_methodCall {method : String} (notGlobal : method ≠ "globalThis")
    (usage : Usage) (path calleePath : Path) (parentName : Option PathName) (index : Nat)
    (function : Ast) (arguments : List Ast)
    : usages (mentions usage path
          (callExpression (memberExpression function (identifier method) false)
            (EMPTY_CONTEXT :: arguments)))
      = usages (mentions .variable calleePath function)
        ++ usages (mentionsOfElements .variable parentName index arguments) := by
  have callee := usages_path .variable ⟨.field .object, some (.field .callee)⟩ calleePath function
  have rest : usages (mentionsOfElements .variable (some path.name) 1 arguments)
      = usages (mentionsOfElements .variable parentName index arguments) :=
    usages_elements (fun element _ path other => usages_path .variable path other element)
      _ _ _ _
  simp [callExpression, memberExpression, mentions, mentionsOfElements, mentionsOfFields,
    ownMentions, usageOf, mentions_EMPTY_CONTEXT, mentions_identifier notGlobal, callee, rest]

/-! ### What the pass leaves -/

/-- What visiting a tree leaves: the mentions whose parent sits in a field `property`. A
function that is put into another node has the same mentions by itself.
-/
structure Removed (path : Path) (ast : Ast) (visited : Visited) : Prop where
  current (usage : Usage)
    : usages (mentions usage path visited.current) = leftUsages (mentions usage path ast)
  function (fields : List (Field × Ast)) (usage : Usage)
    (isFunction : ast = .node .functionExpression fields)
    : usages (mentions usage path visited.node) = leftUsages (mentions usage path ast)
  value (value : AstValue) : ast = .value value ↔ visited.current = .value value

/-- The pass visits the tree without an error. -/
def Removes (ast : Ast) : Prop :=
  ∀ path, ∃ visited,
    visitTree thisVisitor path ast = .ok visited ∧ Removed path ast visited

theorem removes_elements (all : ∀ element ∈ elements, Removes element)
    (parentName : Option PathName) (index : Nat)
    : ∃ currents,
        visitElements (visitTree thisVisitor) parentName index elements = .ok currents
        ∧ ∀ usage,
            usages (mentionsOfElements usage parentName index currents)
              = leftUsages (mentionsOfElements usage parentName index elements) := by
  induction elements generalizing index with
  | nil => exact ⟨[], rfl, fun _ => rfl⟩
  | cons element rest ih =>
      obtain ⟨visited, ran, removed⟩ := all element (by simp) ⟨.index index, parentName⟩
      obtain ⟨currents, ranRest, removedRest⟩ :=
        ih (fun other member => all other (.tail _ member)) (index + 1)
      refine ⟨visited.current :: currents, ?_, ?_⟩
      · simp only [visitElements, ran, ranRest]
        rfl
      · intro usage
        simp only [mentionsOfElements, usages_append, leftUsages_append, removed.current,
          removedRest]

theorem removes_fields (all : ∀ entry ∈ fields, Removes entry.2) (name : PathName)
    : ∃ children,
        visitFields (visitTree thisVisitor) name fields = .ok children
        ∧ (∀ usageIn,
            usages (mentionsOfFields usageIn name children.fields)
              = leftUsages (mentionsOfFields usageIn name fields))
        ∧ ∀ wanted value,
            Ast.field children.fields wanted = .value value
            ↔ Ast.field fields wanted = .value value := by
  induction fields with
  | nil => exact ⟨[], rfl, fun _ => rfl, fun _ _ => Iff.rfl⟩
  | cons entry rest ih =>
      obtain ⟨field, ast⟩ := entry
      obtain ⟨visited, ran, removed⟩ := all (field, ast) (by simp) ⟨.field field, some name⟩
      obtain ⟨children, ranRest, removedRest, same⟩ :=
        ih (fun other member => all other (.tail _ member))
      refine ⟨(field, visited) :: children, ?_, ?_, ?_⟩
      · simp only [visitFields, ran, ranRest]
        rfl
      · intro usageIn
        have first := removed.current (usageIn field)
        simp only [Traversed.fields, List.map_cons, mentionsOfFields, usages_append,
          leftUsages_append] at removedRest ⊢
        rw [first, removedRest]
      · intro wanted value
        by_cases here : field = wanted
        · have sameValue := removed.value value
          simp only [Traversed.fields, List.map_cons, Ast.field, List.find?_cons, here,
            decide_true, Option.map_some, Option.getD_some]
          exact sameValue.symm
        · simpa [Traversed.fields, Ast.field, here] using same wanted value

theorem flag_iff {wanted : Field}
    : Ast.flag fields wanted = true ↔ Ast.field fields wanted = .value (.flag true) := by
  unfold Ast.flag
  split
  · next isSet same => simp [same]
  · next other => simp only [Bool.false_eq_true, false_iff]; exact other true

theorem flag_congr {others : List (Field × Ast)}
    (same : ∀ wanted value,
      Ast.field others wanted = .value value ↔ Ast.field fields wanted = .value value)
    (wanted : Field)
    : Ast.flag others wanted = Ast.flag fields wanted := by
  rw [Bool.eq_iff_iff, flag_iff, flag_iff]
  exact same wanted (.flag true)

theorem wellFormedElements_iff
    : wellFormedElements elements = true ↔ ∀ element ∈ elements, wellFormed element = true := by
  induction elements with
  | nil => simp [wellFormedElements]
  | cons element rest ih => simp [wellFormedElements, ih]

theorem wellFormedFields_iff
    : wellFormedFields fields = true ↔ ∀ entry ∈ fields, wellFormed entry.2 = true := by
  induction fields with
  | nil => simp [wellFormedFields]
  | cons entry rest ih => simp [wellFormedFields, ih]

/-- Fields without nodes mention nothing. -/
theorem mentionsOfFields_values (values : ∀ entry ∈ fields, entry.2.isValue = true)
    (usageIn : Field → Usage) (name : PathName)
    : mentionsOfFields usageIn name fields = [] := by
  induction fields with
  | nil => rfl
  | cons entry rest ih =>
      obtain ⟨field, ast⟩ := entry
      have here := values (field, ast) (by simp)
      cases ast with
      | value value =>
          simp [mentionsOfFields, mentions,
            ih (fun other member => values other (.tail _ member))]
      | list | node => simp [Ast.isValue] at here

variable {type : NodeType} {fields : List (Field × Ast)} {path : Path}

variable {children : Traversed}

/-- A node that keeps its type keeps what it mentions, apart from what its children lose. -/
theorem usages_keptNode (removed : ∀ usageIn,
      usages (mentionsOfFields usageIn path.name children.fields)
        = leftUsages (mentionsOfFields usageIn path.name fields))
    (same : ∀ wanted value,
      Ast.field children.fields wanted = .value value ↔ Ast.field fields wanted = .value value)
    (own : ownMentions usage path type children.fields
      = (ownMentions usage path type fields).filter Mention.belowProperty)
    : usages (mentions usage path (.node type children.fields))
      = leftUsages (mentions usage path (.node type fields)) := by
  simp only [mentions, usages_append, leftUsages_append, removed, flag_congr same, own]
  rfl

theorem removes_other (all : ∀ entry ∈ fields, Removes entry.2)
    (noMethod : thisVisitor type = none) (ownNone : ∀ usage path fields,
      ownMentions usage path type fields = [])
    (notFunction : type ≠ .functionExpression)
    : Removes (.node type fields) := by
  intro path
  obtain ⟨children, ran, removed, same⟩ := removes_fields all path.name
  refine ⟨.unchanged (.node type children.fields), ?_, ?_, ?_, ?_⟩
  · rw [isAstVisit_visitTree.node, visitNode, noMethod, ran]
    rfl
  · intro usage
    exact usages_keptNode removed same (by rw [ownNone, ownNone]; rfl)
  · intro other usage isFunction
    exact absurd (Ast.node.inj isFunction).1 notFunction
  · simp [Visited.unchanged]

/-- What a function mentions does not depend on what the function is for. -/
theorem mentions_functionExpression (usage other : Usage) (path : Path)
    (fields : List (Field × Ast))
    : mentions usage path (.node .functionExpression fields)
      = mentions other path (.node .functionExpression fields) := by
  have same (computed : Bool)
      : usageOf .functionExpression computed usage
        = usageOf .functionExpression computed other := by
    funext field
    cases field <;> rfl
  simp only [mentions, ownMentions, same]

theorem removes_functionExpression (all : ∀ entry ∈ fields, Removes entry.2)
    : Removes (.node .functionExpression fields) := by
  intro path
  obtain ⟨children, ran, removed, same⟩ := removes_fields all path.name
  have kept : ∀ usage, usages (mentions usage path (.node .functionExpression children.fields))
      = leftUsages (mentions usage path (.node .functionExpression fields)) :=
    fun usage => usages_keptNode removed same rfl
  refine ⟨⟨.node .functionExpression children.fields,
    callExpression (memberExpression (.node .functionExpression children.fields)
      (identifier "bind") false) [EMPTY_CONTEXT]⟩, ?_, ?_, ?_, ?_⟩
  · rw [isAstVisit_visitTree.node, visitNode, ran]
    rfl
  · intro usage
    rw [usages_methodCall (by decide) usage path path none 0,
      mentions_functionExpression usage .variable path fields]
    simpa [mentionsOfElements] using kept .variable
  · intro other usage _
    exact kept usage
  · simp [callExpression]

theorem removes_thisExpression (all : ∀ entry ∈ fields, Removes entry.2)
    (values : ∀ entry ∈ fields, entry.2.isValue = true)
    : Removes (.node .thisExpression fields) := by
  intro path
  obtain ⟨children, ran, _, _⟩ := removes_fields all path.name
  refine ⟨⟨.node .thisExpression children.fields, SAFE_THIS⟩, ?_, ?_, ?_, ?_⟩
  · rw [isAstVisit_visitTree.node, visitNode, ran]
    rfl
  · intro usage
    rw [mentions_SAFE_THIS, mentions, mentionsOfFields_values values]
    rfl
  · intro other usage isFunction
    exact absurd (Ast.node.inj isFunction).1 (by decide)
  · simp [SAFE_THIS, sequenceExpression]

theorem ownMentions_global (usage : Usage) (path : Path)
    (named : Ast.field fields .name = .value (.text "globalThis"))
    : ownMentions usage path .identifier fields = [.globalThis usage path.parentName] := by
  simp only [ownMentions, named]

theorem ownMentions_notGlobal (usage : Usage) (path : Path)
    (notNamed : Ast.field fields .name ≠ .value (.text "globalThis"))
    : ownMentions usage path .identifier fields = [] := by
  unfold ownMentions
  split
  · contradiction
  · split
    · next named => exact absurd named notNamed
    · rfl
  · next _ notIdentifier => exact absurd rfl notIdentifier

/-- The identifier goes if it is `globalThis`, unless its parent sits in a field `property`. -/
theorem removes_identifier (all : ∀ entry ∈ fields, Removes entry.2)
    (values : ∀ entry ∈ fields, entry.2.isValue = true)
    : Removes (.node .identifier fields) := by
  intro path
  obtain ⟨children, ran, removed, same⟩ := removes_fields all path.name
  have visits : visitTree thisVisitor path (.node .identifier fields)
      = visitIdentifier path .identifier fields (.ok children) := by
    rw [isAstVisit_visitTree.node, visitNode, ran]
    rfl
  have keeps (own : ∀ usage, ownMentions usage path .identifier children.fields
        = (ownMentions usage path .identifier fields).filter Mention.belowProperty)
      : Removed path (.node .identifier fields)
          (.unchanged (.node .identifier children.fields)) := by
    refine ⟨fun usage => usages_keptNode removed same (own usage), ?_, ?_⟩
    · intro other usage isFunction
      exact absurd (Ast.node.inj isFunction).1 (by decide)
    · simp [Visited.unchanged]
  by_cases named : Ast.field fields .name = .value (.text "globalThis")
  · have namedAfter := (same .name (.text "globalThis")).mpr named
    by_cases below : path.parentName = some (.field .property)
    · refine ⟨_, ?_, keeps ?_⟩
      · rw [visits]
        simp [visitIdentifier, bind, Except.bind, namedAfter, below]
        rfl
      · intro usage
        rw [ownMentions_global usage path named, ownMentions_global usage path namedAfter]
        simp [Mention.belowProperty, below]
    · refine ⟨⟨.node .identifier children.fields, SAFE_GLOBAL⟩, ?_, ?_, ?_, ?_⟩
      · rw [visits]
        simp [visitIdentifier, bind, Except.bind, namedAfter, below, GLOBAL_IDENTIFIERS]
        rfl
      · intro usage
        rw [mentions_SAFE_GLOBAL, mentions, mentionsOfFields_values values,
          ownMentions_global usage path named]
        simp [leftUsages, Mention.belowProperty, below]
      · intro other usage isFunction
        exact absurd (Ast.node.inj isFunction).1 (by decide)
      · simp [SAFE_GLOBAL, objectExpression]
  · have notNamedAfter : Ast.field children.fields .name ≠ .value (.text "globalThis") :=
      fun namedAfter => named ((same .name _).mp namedAfter)
    refine ⟨_, ?_, keeps ?_⟩
    · rw [visits]
      simp only [visitIdentifier, bind, Except.bind]
      split
      · next name found =>
          have notGlobal : name ∉ GLOBAL_IDENTIFIERS := by
            intro member
            obtain rfl := List.mem_singleton.mp member
            exact notNamedAfter found
          rw [if_neg (fun both => notGlobal both.1)]
          rfl
      · rfl
    · intro usage
      rw [ownMentions_notGlobal usage path named, ownMentions_notGlobal usage path notNamedAfter]
      rfl

theorem visitTree_list {visited : Visited}
    (ran : visitTree thisVisitor path (.list elements) = .ok visited)
    : ∃ currents, visited.current = .list currents := by
  rw [isAstVisit_visitTree.list] at ran
  cases found : visitElements (visitTree thisVisitor) path.parentName 0 elements with
  | error error =>
      rw [found] at ran
      contradiction
  | ok currents =>
      rw [found] at ran
      cases ran
      exact ⟨currents, rfl⟩

theorem visitCallExpression_function {calleeFields : List (Field × Ast)} {arguments : List Ast}
    (callee : Ast.field fields .callee = .node .functionExpression calleeFields)
    (listed : Ast.field children.fields .arguments = .list arguments)
    : visitCallExpression path type fields (.ok children)
      = .ok {
          node := .node type children.fields
          current :=
            callExpression
              (memberExpression (children.original .callee) (identifier "call") false)
              (EMPTY_CONTEXT :: arguments)
        } := by
  simp [visitCallExpression, readType, callee, Ast.type?, listed, spread, bind, Except.bind,
    pure, Except.pure]

theorem visitCallExpression_other {calleeType : NodeType} {calleeFields : List (Field × Ast)}
    (callee : Ast.field fields .callee = .node calleeType calleeFields)
    (notFunction : calleeType ≠ .functionExpression)
    : visitCallExpression path type fields (.ok children)
      = .ok (.unchanged (.node type children.fields)) := by
  simp [visitCallExpression, readType, callee, Ast.type?, notFunction, bind, Except.bind,
    pure, Except.pure]

/-- A call of a function expression becomes a call of its method `call`. -/
theorem removes_callExpression (all : ∀ entry ∈ fields, Removes entry.2)
    (shape : hasShape .callExpression fields = true)
    : Removes (.node .callExpression fields) := by
  match fields, shape with
  | (.callee, .node calleeType calleeFields) :: (.arguments, .list arguments) :: rest, shape =>
    intro path
    have notFunction : ∀ fields others,
        Ast.node .callExpression fields ≠ .node .functionExpression others :=
      fun _ _ same => absurd (Ast.node.inj same).1 (by decide)
    by_cases isFunction : calleeType = .functionExpression
    · subst isFunction
      have values : ∀ entry ∈ rest, entry.2.isValue = true := List.all_eq_true.mp shape
      have restAll : ∀ entry ∈ rest, Removes entry.2 :=
        fun entry member => all entry (by simp [member])
      obtain ⟨callee, ranCallee, removedCallee⟩ :
          ∃ visited, visitTree thisVisitor ⟨.field .callee, some path.name⟩
              (.node .functionExpression calleeFields) = .ok visited
            ∧ Removed ⟨.field .callee, some path.name⟩
              (.node .functionExpression calleeFields) visited :=
        all (.callee, .node .functionExpression calleeFields) (by simp) _
      obtain ⟨list, ranList, removedList⟩ :
          ∃ visited, visitTree thisVisitor ⟨.field .arguments, some path.name⟩
              (.list arguments) = .ok visited
            ∧ Removed ⟨.field .arguments, some path.name⟩ (.list arguments) visited :=
        all (.arguments, .list arguments) (by simp) _
      obtain ⟨others, ranOthers, _, _⟩ := removes_fields restAll path.name
      obtain ⟨currents, listed⟩ := visitTree_list ranList
      have ran : visitFields (visitTree thisVisitor) path.name
          ((.callee, .node .functionExpression calleeFields) :: (.arguments, .list arguments)
            :: rest)
          = .ok ((.callee, callee) :: (.arguments, list) :: others) := by
        simp only [visitFields, ranCallee, ranList, ranOthers]
        rfl
      refine ⟨{
        node := .node .callExpression
          (Traversed.fields ((.callee, callee) :: (.arguments, list) :: others))
        current := callExpression (memberExpression callee.node (identifier "call") false)
          (EMPTY_CONTEXT :: currents)
      }, ?_, ?_, ?_, ?_⟩
      · rw [isAstVisit_visitTree.node, visitNode, ran]
        exact visitCallExpression_function rfl listed
      · intro usage
        have function := removedCallee.function calleeFields .variable rfl
        have argument := removedList.current .variable
        rw [listed] at argument
        simp only [mentions] at argument
        rw [usages_methodCall (by decide) usage path ⟨.field .callee, some path.name⟩
          (some path.name) 0, function, argument]
        simp [mentions, mentionsOfFields, mentionsOfFields_values values, ownMentions,
          usageOf]
      · intro other usage isFunction
        exact absurd isFunction (notFunction _ _)
      · simp [callExpression]
    · obtain ⟨children, ran, removed, same⟩ := removes_fields all path.name
      refine ⟨.unchanged (.node .callExpression children.fields), ?_, ?_, ?_, ?_⟩
      · rw [isAstVisit_visitTree.node, visitNode, ran]
        exact visitCallExpression_other rfl isFunction
      · exact fun usage => usages_keptNode removed same rfl
      · intro other usage isFunction
        exact absurd isFunction (notFunction _ _)
      · simp [Visited.unchanged]

/-- The pass visits every tree without an error, by induction on the tree. -/
theorem removes_of_wellFormed (ast : Ast) (formed : wellFormed ast = true) : Removes ast := by
  induction ast using Ast.tree_induction with
  | value value =>
      intro path
      refine ⟨.unchanged (.value value), rfl, fun _ => rfl, ?_, fun _ => Iff.rfl⟩
      intro fields usage isFunction
      contradiction
  | list elements ih =>
      intro path
      have all : ∀ element ∈ elements, Removes element := fun element member =>
        ih element member (wellFormedElements_iff.mp formed element member)
      obtain ⟨currents, ran, removed⟩ := removes_elements all path.parentName 0
      refine ⟨.unchanged (.list currents), ?_, ?_, ?_, ?_⟩
      · rw [isAstVisit_visitTree.list, ran]
        rfl
      · intro usage
        simpa only [mentions, Visited.unchanged] using removed usage
      · intro fields usage isFunction
        contradiction
      · simp [Visited.unchanged]
  | node type fields ih =>
      obtain ⟨shape, formedFields⟩ := Bool.and_eq_true_iff.mp formed
      have all : ∀ entry ∈ fields, Removes entry.2 := fun entry member =>
        ih entry member (wellFormedFields_iff.mp formedFields entry member)
      by_cases call : type = .callExpression
      · exact call ▸ removes_callExpression all (call ▸ shape)
      by_cases function : type = .functionExpression
      · exact function ▸ removes_functionExpression all
      by_cases isThis : type = .thisExpression
      · subst isThis
        exact removes_thisExpression all (List.all_eq_true.mp shape)
      by_cases name : type = .identifier
      · subst name
        exact removes_identifier all (List.all_eq_true.mp shape)
      have noMethod : thisVisitor type = none := by
        cases type <;> first | rfl | contradiction
      have noOwn : ∀ usage path fields, ownMentions usage path type fields = [] := by
        intro usage path fields
        cases type <;> first | rfl | contradiction
      exact removes_other all noMethod noOwn function

/-! ### Exactly the uses that are judged right -/

theorem mem_leftUsages {found : List Mention} {usage : Option Usage}
    : usage ∈ leftUsages found
      ↔ ∃ used, usage = some used ∧ .globalThis used (some (.field .property)) ∈ found := by
  simp only [leftUsages, usages, List.mem_map, List.mem_filter]
  constructor
  · intro member
    obtain ⟨mention, ⟨inside, below⟩, rfl⟩ := member
    cases mention with
    | this => simp [Mention.belowProperty] at below
    | globalThis used parentName =>
        have parent : parentName = some (.field .property) := of_decide_eq_true below
        exact ⟨used, rfl, parent ▸ inside⟩
  · intro given
    obtain ⟨used, rfl, inside⟩ := given
    exact ⟨_, ⟨inside, by simp [Mention.belowProperty]⟩, rfl⟩

theorem count_leftUsages_le (found : List Mention) (usage : Usage)
    : (leftUsages found).count (some usage) ≤ (usages found).count (some usage) :=
  (List.filter_sublist.map Mention.usage).count_le _

/-- None is lost exactly if all have a parent in a field `property`, by induction on the
mentions.
-/
theorem count_leftUsages_eq_iff {found : List Mention}
    : (leftUsages found).count (some usage) = (usages found).count (some usage)
      ↔ ∀ parentName, .globalThis usage parentName ∈ found
          → parentName = some (.field .property) := by
  induction found with
  | nil => simp
  | cons mention rest ih =>
      have fewer := count_leftUsages_le rest usage
      cases mention with
      | this =>
          have skip : leftUsages (.this :: rest) = leftUsages rest := rfl
          have other : usages (.this :: rest) = none :: usages rest := rfl
          simp [skip, other, ih]
      | globalThis used parentName =>
          have whole : usages (.globalThis used parentName :: rest)
              = some used :: usages rest := rfl
          by_cases below : parentName = some (.field .property)
          · have keep : leftUsages (.globalThis used parentName :: rest)
                = some used :: leftUsages rest := by
              simp [leftUsages, usages, Mention.belowProperty, below, Mention.usage]
            rw [keep, whole, List.count_cons, List.count_cons, Nat.add_right_cancel_iff, ih]
            constructor
            · intro all name member
              rcases List.mem_cons.mp member with same | later
              · obtain ⟨_, rfl⟩ := Mention.globalThis.inj same
                exact below
              · exact all name later
            · exact fun all name member => all name (.tail _ member)
          · have skip : leftUsages (.globalThis used parentName :: rest) = leftUsages rest := by
              simp [leftUsages, usages, Mention.belowProperty, below]
            rw [skip, whole, List.count_cons]
            by_cases same : used = usage
            · subst same
              simp only [BEq.rfl, if_true]
              constructor
              · intro equal
                omega
              · intro all
                exact absurd (all parentName (by simp)) below
            · have differ : (some used == some usage) = false := by simpa using same
              simp only [differ, Bool.false_eq_true, if_false, Nat.add_zero, ih]
              constructor
              · intro all name member
                rcases List.mem_cons.mp member with equal | later
                · exact absurd (Mention.globalThis.inj equal).1.symm same
                · exact all name later
              · exact fun all name member => all name (.tail _ member)

/-- The pass removes the global object from an expression, and leaves property names alone,
exactly if each `globalThis` is judged right by where its parent sits.
-/
theorem thisSanitizer_removes_iff
    {astVisit : Visitor → Path → Ast → Except JsError Visited}
    (documented : IsAstVisit astVisit) {ast : Ast} (file : ast.type? = some .file)
    (formed : wellFormed ast = true)
    : ∃ result,
        ThisSanitizer astVisit ast = .ok result
        ∧ (GlobalsRemoved ast result ↔ JudgedByParent ast) := by
  obtain ⟨visited, ran, removed⟩ := removes_of_wellFormed ast formed ⟨.root, none⟩
  have inPlace : visited.node = visited.current := by
    cases ast with
    | value | list => contradiction
    | node type fields =>
        cases file
        rw [isAstVisit_visitTree.node] at ran
        simp only [visitNode, thisVisitor] at ran
        cases below : visitFields (visitTree thisVisitor) .root fields with
        | error error =>
            rw [below] at ran
            contradiction
        | ok children =>
            rw [below] at ran
            cases ran
            rfl
  refine ⟨visited.node, ?_, ?_⟩
  · rw [ThisSanitizer, documented.eq_visitTree, ran]
    rfl
  · have left : usages (mentionsIn visited.node) = leftUsages (mentionsIn ast) := by
      rw [inPlace]
      exact removed.current .variable
    constructor
    · intro sanitized usage parentName member
      refine ⟨?_, ?_⟩
      · intro usedAsVariable below
        subst usedAsVariable below
        have none := sanitized.noVariable
        change (usages (mentionsIn visited.node)).count _ = 0 at none
        rw [left] at none
        exact List.count_eq_zero.mp none (mem_leftUsages.mpr ⟨_, rfl, member⟩)
      · intro name
        subst name
        have same := sanitized.propertyNames
        change (usages (mentionsIn visited.node)).count _ = (usages _).count _ at same
        rw [left] at same
        exact count_leftUsages_eq_iff.mp same parentName member
    · intro judged
      refine ⟨?_, ?_, ?_⟩
      · intro member
        have none : (none : Option Usage) ∈ usages (mentionsIn visited.node) :=
          List.mem_map_of_mem (f := Mention.usage) member
        rw [left] at none
        obtain ⟨_, same, _⟩ := mem_leftUsages.mp none
        contradiction
      · change (usages (mentionsIn visited.node)).count _ = 0
        rw [left, List.count_eq_zero]
        intro member
        obtain ⟨_, same, inside⟩ := mem_leftUsages.mp member
        cases same
        exact (judged _ _ inside).1 rfl rfl
      · change (usages (mentionsIn visited.node)).count _ = (usages _).count _
        rw [left, count_leftUsages_eq_iff]
        exact fun parentName member => (judged _ parentName member).2 rfl

/-- `[function () { return this; }, items[list.globalThis]]` -/
def functionAndName : Ast :=
  fileOf
    (.node .arrayExpression
      [
        (.elements,
          .list
            [
              .node .functionExpression
                [
                  (.id, .value .absent), (.params, .list []),
                  (.body,
                    .node .blockStatement
                      [
                        (.body,
                          .list
                            [
                              .node .returnStatement
                                [(.argument, .node .thisExpression [])]
                            ])
                      ])
                ],
              memberExpression (identifier "items")
                (memberExpression (identifier "list") (identifier "globalThis") false) true
            ])
      ])

theorem functionAndName_removed
    : ∃ result,
        ThisSanitizer visitTree functionAndName = .ok result
        ∧ GlobalsRemoved functionAndName result := by
  have formed : wellFormed functionAndName = true := by decide +kernel
  obtain ⟨result, ran, removes⟩ := thisSanitizer_removes_iff isAstVisit_visitTree rfl formed
  refine ⟨result, ran, removes.mpr ?_⟩
  intro usage parentName member
  have mentioned :
      mentionsIn functionAndName
        = [.this, .globalThis .propertyName (some (.field .property))] := by
    decide +kernel
  rw [mentioned] at member
  obtain ⟨rfl, rfl⟩ : usage = .propertyName ∧ parentName = some (.field .property) := by
    simpa using member
  exact ⟨fun isVariable => by contradiction, fun _ => rfl⟩

/-- `a[b[globalThis]]` -/
def globalInKeyOfKey : Ast :=
  fileOf
    (memberExpression (identifier "a")
      (memberExpression (identifier "b") (identifier "globalThis") true) true)

/-- A global object in the key of a key is left where it is. -/
theorem globalInKeyOfKey_left
    : ¬ ∃ result,
        ThisSanitizer visitTree globalInKeyOfKey = .ok result
        ∧ GlobalsRemoved globalInKeyOfKey result := by
  intro ⟨result, ran, removed⟩
  have left : ((ThisSanitizer visitTree globalInKeyOfKey).toOption.map
      (countGlobals .variable)) = some 1 := by
    decide +kernel
  rw [ran] at left
  have none := removed.noVariable
  simp only [Except.toOption, Option.map_some, Option.some.injEq] at left
  omega

end N8n.Sandbox
