import N8n.PythonRunner.TaskAnalyzer

/-! The verdicts of the analyzers on any sequence of calls, beside those of fresh validators, and
the imports that a validator never misses.
-/

namespace N8n.PythonRunner

variable {Digest : Type*} {interpreter : Interpreter Digest} {security_config : SecurityConfig}

/-- The allowlists have the package, or a `*` for packages of its kind. -/
def Allowed (interpreter : Interpreter Digest) (security_config : SecurityConfig)
    (module_name : String)
    : Prop :=
  if module_name ∈ interpreter.stdlib_module_names then
    "*" ∈ security_config.stdlib_allow ∨ module_name ∈ security_config.stdlib_allow
  else "*" ∈ security_config.external_allow ∨ module_name ∈ security_config.external_allow

/-- The path is relative, or its package is not allowed. -/
def ForbiddenPath (interpreter : Interpreter Digest) (security_config : SecurityConfig)
    (module_path : String)
    : Prop :=
  startsWith '.' module_path = true ∨ ¬ Allowed interpreter security_config (topLevel module_path)

/-- An import statement that is relative or names a package that is not allowed. -/
def ForbiddenImport (interpreter : Interpreter Digest) (security_config : SecurityConfig)
    : Node → Prop
  | .importModules _ names => ∃ name ∈ names, ForbiddenPath interpreter security_config name
  | .importFrom _ module level =>
      level > 0
      ∨ ∃ path, module = some path ∧ path ≠ "" ∧ ForbiddenPath interpreter security_config path
  | _ => False

mutual

/-- The node and all nodes below it, in the order of visits. -/
def Node.nodes : Node → List Node
  | .importModules lineno names => [.importModules lineno names]
  | .importFrom lineno module level => [.importFrom lineno module level]
  | .name lineno id => [.name lineno id]
  | .attributeNode lineno value attr => .attributeNode lineno value attr :: value.nodes
  | .call lineno func args keywords =>
      .call lineno func args keywords :: (func.nodes ++ nodesOfAll args ++ nodesOfAll keywords)
  | .subscript lineno value slice => .subscript lineno value slice :: (value.nodes ++ slice.nodes)
  | .constant lineno value => [.constant lineno value]
  | .matchClass lineno cls patterns kwd_attrs kwd_patterns =>
      .matchClass lineno cls patterns kwd_attrs kwd_patterns
      :: (cls.nodes ++ nodesOfAll patterns ++ nodesOfAll kwd_patterns)
  | .other children => .other children :: nodesOfAll children

def nodesOfAll : List Node → List Node
  | [] => []
  | child :: rest => child.nodes ++ nodesOfAll rest

end

namespace SecurityValidator

/-- What a visit does with a node itself. -/
def look (interpreter : Interpreter Digest) (security_config : SecurityConfig)
    (validator : SecurityValidator)
    : Node → SecurityValidator
  | .importModules lineno names => visitImport interpreter security_config validator lineno names
  | .importFrom lineno module level =>
      visitImportFrom interpreter security_config validator lineno module level
  | .name lineno id => visitName validator lineno id
  | .attributeNode lineno _ attr => visitAttribute validator lineno attr
  | .call lineno func args _ => visitCall interpreter security_config validator lineno func args
  | .subscript lineno value slice => visitSubscript validator lineno value slice
  | .constant lineno value => visitConstant interpreter validator lineno value
  | .matchClass lineno _ _ kwd_attrs _ => visitMatchClass validator lineno kwd_attrs
  | .other _ => validator

mutual

/-- A visit looks at every node of the tree. -/
theorem visit_eq_foldl (validator : SecurityValidator)
    : (node : Node)
      → visit interpreter security_config validator node
        = node.nodes.foldl (look interpreter security_config) validator
  | .importModules _ _ => by simp [visit, Node.nodes, look]
  | .importFrom _ _ _ => by simp [visit, Node.nodes, look]
  | .name _ _ => by simp [visit, Node.nodes, look]
  | .attributeNode _ value _ => by simp [visit, Node.nodes, look, visit_eq_foldl _ value]
  | .call _ func args keywords => by
      simp [visit, Node.nodes, look, visit_eq_foldl _ func, genericVisit_eq_foldl _ args,
        genericVisit_eq_foldl _ keywords]
  | .subscript _ value slice => by
      simp [visit, Node.nodes, look, visit_eq_foldl _ value, visit_eq_foldl _ slice]
  | .constant _ _ => by simp [visit, Node.nodes, look]
  | .matchClass _ cls patterns _ kwd_patterns => by
      simp [visit, Node.nodes, look, visit_eq_foldl _ cls, genericVisit_eq_foldl _ patterns,
        genericVisit_eq_foldl _ kwd_patterns]
  | .other children => by simp [visit, Node.nodes, look, genericVisit_eq_foldl _ children]

theorem genericVisit_eq_foldl (validator : SecurityValidator)
    : (nodes : List Node)
      → genericVisit interpreter security_config validator nodes
        = (nodesOfAll nodes).foldl (look interpreter security_config) validator
  | [] => by simp [genericVisit, nodesOfAll]
  | child :: rest => by
      simp [genericVisit, nodesOfAll, visit_eq_foldl _ child, genericVisit_eq_foldl _ rest]

end

/-- Violations are kept, and a module is only marked as checked when it is allowed or there is a
violation.
-/
structure Extends (interpreter : Interpreter Digest) (security_config : SecurityConfig)
    (before after : SecurityValidator)
    : Prop where
  violations : before.violations ≠ [] → after.violations ≠ []
  modules
    : ∀ module_name ∈ after.checked_modules,
        module_name ∈ before.checked_modules
        ∨ Allowed interpreter security_config module_name
        ∨ after.violations ≠ []

variable {before middle after validator : SecurityValidator} {lineno : Nat}

theorem Extends.refl : Extends interpreter security_config validator validator :=
  ⟨id, fun _ member => Or.inl member⟩

theorem Extends.trans (first : Extends interpreter security_config before middle)
    (second : Extends interpreter security_config middle after)
    : Extends interpreter security_config before after := by
  refine ⟨second.violations ∘ first.violations, fun module_name member => ?_⟩
  rcases second.modules module_name member with earlier | known
  · rcases first.modules module_name earlier with present | allowed | violated
    · exact Or.inl present
    · exact Or.inr (Or.inl allowed)
    · exact Or.inr (Or.inr (second.violations violated))
  · exact Or.inr known

theorem addViolation_ne_nil {message : String}
    : (validator.addViolation lineno message).violations ≠ [] := by
  simp [addViolation]

theorem Extends.addViolation {message : String}
    : Extends interpreter security_config validator (validator.addViolation lineno message) :=
  ⟨fun _ => addViolation_ne_nil, fun _ member => Or.inl member⟩

theorem Extends.foldl {α : Type*} {step : SecurityValidator → α → SecurityValidator}
    (extend
      : ∀ validator item, Extends interpreter security_config validator (step validator item))
    (items : List α) (validator : SecurityValidator)
    : Extends interpreter security_config validator (items.foldl step validator) := by
  induction items generalizing validator with
  | nil => exact .refl
  | cons first rest ih => exact (extend validator first).trans (ih _)

theorem Extends.addViolations {messages : List String}
    : Extends interpreter security_config validator (validator.addViolations lineno messages) :=
  Extends.foldl (fun _ _ => .addViolation) messages validator

theorem validateModuleImport_eq_none_iff {module_path : String}
    : validateModuleImport interpreter module_path security_config = none
      ↔ Allowed interpreter security_config (topLevel module_path) := by
  simp only [validateModuleImport, Allowed]
  split <;> simp [or_iff_not_imp_left]

theorem Extends.validateImport {module_path : String}
    : Extends interpreter security_config validator
        (validateImport interpreter security_config validator module_path lineno) := by
  unfold SecurityValidator.validateImport
  split
  · exact .addViolation
  · simp only
    split
    · exact .refl
    · cases message : validateModuleImport interpreter module_path security_config with
      | none =>
          refine ⟨id, fun module_name member => ?_⟩
          rcases List.mem_cons.mp member with rfl | earlier
          · exact Or.inr (Or.inl (validateModuleImport_eq_none_iff.mp message))
          · exact Or.inl earlier
      | some error_msg =>
          exact ⟨fun _ => addViolation_ne_nil, fun _ _ => Or.inr (Or.inr addViolation_ne_nil)⟩

theorem Extends.look {node : Node}
    : Extends interpreter security_config validator
        (look interpreter security_config validator node) := by
  cases node with
  | importModules lineno names =>
      exact Extends.foldl (fun _ _ => .validateImport) names validator
  | importFrom lineno module level =>
      simp only [SecurityValidator.look, visitImportFrom]
      split
      · exact .addViolation
      · split
        · exact .refl
        · split
          · exact .refl
          · exact .validateImport
  | name lineno id =>
      simp only [SecurityValidator.look, visitName]
      split
      · exact .addViolation
      · exact .refl
  | attributeNode lineno value attr =>
      simp only [SecurityValidator.look, visitAttribute]
      split <;> split
      · exact Extends.trans .addViolation .addViolation
      · exact .addViolation
      · exact .addViolation
      · exact .refl
  | call lineno func args keywords =>
      simp only [SecurityValidator.look, visitCall]
      split
      · split
        · exact .validateImport
        · exact .addViolation
      · exact .refl
  | subscript lineno value slice =>
      simp only [SecurityValidator.look, visitSubscript]
      split
      · split
        · exact .addViolation
        · exact .refl
      · exact .refl
  | constant lineno value =>
      simp only [SecurityValidator.look, visitConstant]
      split
      · exact .refl
      · exact .addViolations
  | matchClass lineno cls patterns kwd_attrs kwd_patterns => exact .addViolations
  | other children => exact .refl

/-- A module that is marked as checked is allowed, or there is a violation. -/
def Consistent (interpreter : Interpreter Digest) (security_config : SecurityConfig)
    (validator : SecurityValidator)
    : Prop :=
  ∀ module_name ∈ validator.checked_modules,
    Allowed interpreter security_config module_name ∨ validator.violations ≠ []

theorem Consistent.extend (consistent : Consistent interpreter security_config before)
    (extend : Extends interpreter security_config before after)
    : Consistent interpreter security_config after := by
  intro module_name member
  rcases extend.modules module_name member with earlier | known
  · exact (consistent module_name earlier).imp_right extend.violations
  · exact known

section

variable (consistent : Consistent interpreter security_config validator)

include consistent

theorem validateImport_forbidden {module_path : String}
    (isForbidden : ForbiddenPath interpreter security_config module_path)
    : (validateImport interpreter security_config validator module_path lineno).violations
      ≠ [] := by
  unfold validateImport
  split
  · exact addViolation_ne_nil
  · next notRelative =>
      have notAllowed := isForbidden.resolve_left notRelative
      simp only
      split
      · next checked => exact (consistent _ checked).resolve_left notAllowed
      · cases message : validateModuleImport interpreter module_path security_config with
        | none => exact absurd (validateModuleImport_eq_none_iff.mp message) notAllowed
        | some error_msg => exact addViolation_ne_nil

theorem visitImport_forbidden {names : List String} {name : String} (member : name ∈ names)
    (isForbidden : ForbiddenPath interpreter security_config name)
    : (visitImport interpreter security_config validator lineno names).violations ≠ [] := by
  obtain ⟨earlier, later, rfl⟩ := List.append_of_mem member
  have extend (names : List String) (validator : SecurityValidator)
      : Extends interpreter security_config validator
          (visitImport interpreter security_config validator lineno names) :=
    Extends.foldl (fun _ _ => .validateImport) names validator
  have before := consistent.extend (extend earlier validator)
  rw [visitImport, List.foldl_append, List.foldl_cons]
  exact (extend later _).violations (validateImport_forbidden before isForbidden)

theorem look_forbidden {node : Node}
    (isForbidden : ForbiddenImport interpreter security_config node)
    : (look interpreter security_config validator node).violations ≠ [] := by
  cases node with
  | importModules lineno names =>
      obtain ⟨name, member, isForbidden⟩ := isForbidden
      exact visitImport_forbidden consistent member isForbidden
  | importFrom lineno module level =>
      simp only [look, visitImportFrom]
      split
      · exact addViolation_ne_nil
      · next absolute =>
          obtain ⟨path, rfl, nonempty, isForbidden⟩ := isForbidden.resolve_left absolute
          simp only [if_neg nonempty]
          exact validateImport_forbidden consistent isForbidden
  | _ => contradiction

end

end SecurityValidator

/-- A forbidden import anywhere in a tree is a violation. -/
theorem violationsOf_ne_nil {tree node : Node} (member : node ∈ tree.nodes)
    (isForbidden : ForbiddenImport interpreter security_config node)
    : violationsOf interpreter security_config tree ≠ [] := by
  obtain ⟨earlier, later, split⟩ := List.append_of_mem member
  have extend (nodes : List Node) (validator : SecurityValidator)
      : SecurityValidator.Extends interpreter security_config validator
          (nodes.foldl (SecurityValidator.look interpreter security_config) validator) :=
    SecurityValidator.Extends.foldl (fun _ _ => .look) nodes validator
  have fresh : SecurityValidator.Consistent interpreter security_config ⟨[], []⟩ :=
    fun _ member => absurd member List.not_mem_nil
  rw [violationsOf, SecurityValidator.visit_eq_foldl, split, List.foldl_append, List.foldl_cons]
  exact (extend later _).violations
    (SecurityValidator.look_forbidden (fresh.extend (extend earlier _)) isForbidden)

open TaskAnalyzer

/-- A call of an analyzer with the configuration. -/
structure Call where
  security_config : SecurityConfig
  code : String

/-- What a fresh validator says of the code. -/
def freshVerdict (interpreter : Interpreter Digest) (call : Call) : Verdict :=
  match interpreter.parse call.code with
  | .error error => .failed error
  | .ok tree => verdictOf (violationsOf interpreter call.security_config tree)

/-- An analyzer that allows all accepts everything; any other one says what a fresh validator says.
-/
def expectedVerdict (interpreter : Interpreter Digest) (call : Call) : Verdict :=
  if allowAll call.security_config then .accepted else freshVerdict interpreter call

variable [DecidableEq Digest] {cache : ValidationCache Digest}

/-- The cache after a sequence of calls, and their verdicts. -/
def validateAll (interpreter : Interpreter Digest) (cache : ValidationCache Digest)
    : List Call → ValidationCache Digest × List Verdict
  | [] => (cache, [])
  | call :: rest =>
      let validated := validate interpreter call.security_config cache call.code
      let others := validateAll interpreter validated.1 rest
      (others.1, validated.2 :: others.2)

/-- The violations are those of every code and configuration with the key. -/
def IsVerdictOf (interpreter : Interpreter Digest) (key : CacheKey Digest)
    (violations : List String)
    : Prop :=
  ∀ call : Call,
    toCacheKey interpreter call.security_config call.code = key
    → ∃ tree,
        interpreter.parse call.code = .ok tree
        ∧ violationsOf interpreter call.security_config tree = violations

/-- A cache that does not change any verdict. -/
structure Sound (interpreter : Interpreter Digest) (cache : ValidationCache Digest) : Prop where
  holds : cache.Holds (IsVerdictOf interpreter)
  room : cache.keys.length ≤ MAX_VALIDATION_CACHE_SIZE

omit [DecidableEq Digest] in
/-- A key has the code and both allowlists. -/
theorem toCacheKey_inj (collisionFree : Function.Injective interpreter.sha256) {left right : Call}
    (same
      : toCacheKey interpreter left.security_config left.code
        = toCacheKey interpreter right.security_config right.code)
    : left = right := by
  obtain ⟨⟨leftStdlib, leftExternal⟩, leftCode⟩ := left
  obtain ⟨⟨rightStdlib, rightExternal⟩, rightCode⟩ := right
  have sortedInj {first second : Finset String} (same : sorted first = sorted second)
      : first = second := by
    rw [← Finset.sort_toFinset first (· ≤ ·), ← Finset.sort_toFinset second (· ≤ ·)]
    exact congrArg List.toFinset same
  simp only [toCacheKey, Prod.mk.injEq] at same
  rw [collisionFree same.1, sortedInj same.2.1, sortedInj same.2.2]

/-- A call has its expected verdict, and leaves a sound cache. -/
theorem Sound.validate (collisionFree : Function.Injective interpreter.sha256)
    (sound : Sound interpreter cache) (call : Call)
    : Sound interpreter (validate interpreter call.security_config cache call.code).1
      ∧ (validate interpreter call.security_config cache call.code).2
        = expectedVerdict interpreter call := by
  unfold TaskAnalyzer.validate expectedVerdict
  by_cases all : allowAll call.security_config = true
  · rw [if_pos all, if_pos all]
    exact ⟨sound, rfl⟩
  · rw [if_neg all, if_neg all]
    simp only
    cases cached : cache.get? (toCacheKey interpreter call.security_config call.code) with
    | some violations =>
        obtain ⟨tree, parsed, same⟩ := sound.holds _ _ cached call rfl
        refine ⟨⟨sound.holds.moveToEnd, ?_⟩, ?_⟩
        · exact Nat.le_trans Dict.length_keys_moveToEnd_le sound.room
        · rw [freshVerdict, parsed]
          exact congrArg verdictOf same.symm
    | none =>
        cases parsed : interpreter.parse call.code with
        | error error => exact ⟨sound, by rw [freshVerdict, parsed]⟩
        | ok tree =>
            refine ⟨⟨sound.holds.store ?_, ?_⟩, by rw [freshVerdict, parsed]⟩
            · intro other same
              obtain rfl := toCacheKey_inj collisionFree same
              exact ⟨tree, parsed, rfl⟩
            · exact Dict.length_keys_store_le (by decide) sound.room

theorem sound_empty : Sound interpreter .empty :=
  ⟨fun _ _ found => by contradiction, Nat.zero_le _⟩

theorem Sound.validateAll (collisionFree : Function.Injective interpreter.sha256)
    (sound : Sound interpreter cache) (calls : List Call)
    : Sound interpreter (validateAll interpreter cache calls).1
      ∧ (validateAll interpreter cache calls).2 = calls.map (expectedVerdict interpreter) := by
  induction calls generalizing cache with
  | nil => exact ⟨sound, rfl⟩
  | cons call rest ih =>
      obtain ⟨next, verdict⟩ := sound.validate collisionFree call
      obtain ⟨last, verdicts⟩ := ih next
      exact ⟨last, by rw [PythonRunner.validateAll, verdict, verdicts, List.map_cons]⟩

/-- Calls have the verdicts of fresh validators, or accept where everything is allowed, whatever was
cached before; the cache keeps its bound; and a fresh validator finds every forbidden import.
-/
theorem verdicts_of_cached (collisionFree : Function.Injective interpreter.sha256)
    (calls : List Call)
    : (validateAll interpreter .empty calls).2 = calls.map (expectedVerdict interpreter)
      ∧ (validateAll interpreter .empty calls).1.keys.length ≤ MAX_VALIDATION_CACHE_SIZE
      ∧ ∀ security_config (tree node : Node),
          node ∈ tree.nodes
          → ForbiddenImport interpreter security_config node
          → violationsOf interpreter security_config tree ≠ [] := by
  obtain ⟨sound, verdicts⟩ := sound_empty.validateAll collisionFree calls
  exact ⟨verdicts, sound.room, fun _ _ _ member isForbidden =>
    violationsOf_ne_nil member isForbidden⟩

/-- An interpreter that reads one code, with texts for hashes. -/
def relativeInterpreter : Interpreter String where
  parse code :=
    if code = "from . import relative" then .ok (.other [.importFrom 1 none 1])
    else .error "invalid syntax"
  stdlib_module_names := ["os", "sys"]
  isWord := Char.isAlphanum
  sha256 := id

def relativeCall (allowlist : Finset String) : Call :=
  ⟨⟨allowlist, allowlist⟩, "from . import relative"⟩

theorem relativeCall_twice
    : (validateAll relativeInterpreter .empty [relativeCall ∅, relativeCall ∅]).2
        = [.rejected ["Line 1: Relative imports are disallowed."],
          .rejected ["Line 1: Relative imports are disallowed."]] := by
  have verdicts
      : (validateAll relativeInterpreter .empty [relativeCall ∅, relativeCall ∅]).2 = _ :=
    (verdicts_of_cached Function.injective_id _).1
  rw [verdicts]
  rfl

/-- An analyzer that allows everything accepts what a fresh validator rejects. -/
theorem allowAll_not_freshVerdict
    : (validateAll relativeInterpreter .empty [relativeCall {"*"}]).2
      ≠ [relativeCall {"*"}].map (freshVerdict relativeInterpreter) := by
  intro same
  have accepted : freshVerdict relativeInterpreter (relativeCall {"*"}) = .accepted := by
    have all : allowAll (relativeCall {"*"}).security_config = true := by
      simp [allowAll, relativeCall]
    simpa [validateAll, TaskAnalyzer.validate, all] using same.symm
  have rejected
      : freshVerdict relativeInterpreter (relativeCall {"*"})
        = .rejected ["Line 1: Relative imports are disallowed."] := rfl
  rw [rejected] at accepted
  contradiction

end N8n.PythonRunner
