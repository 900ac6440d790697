import Mathlib.Data.Finset.Sort
import Mathlib.Data.String.Basic
import N8n.Library.Caches

/-! The analyzer of the Python task runner: the visitor that looks for violations in a syntax tree,
and the cache of what it found, which all analyzers share.
-/

namespace N8n.PythonRunner

def MAX_VALIDATION_CACHE_SIZE : Nat := 500

def BLOCKED_NAMES : List String :=
  ["__loader__", "__builtins__", "__globals__", "__spec__", "__name__"]

def BLOCKED_ATTRIBUTES : List String :=
  [
    -- runtime attributes
    "__subclasses__", "__globals__", "__builtins__", "__traceback__", "tb_frame", "tb_next",
    "f_back", "f_globals", "f_locals", "f_code", "f_builtins", "__getattribute__",
    "__qualname__", "__module__", "gi_frame", "gi_code", "gi_yieldfrom", "cr_frame", "cr_code",
    "ag_frame", "ag_code", "obj", "__thisclass__", "__self_class__", "__objclass__",
    -- introspection attributes
    "__base__", "__class__", "__bases__", "__code__", "__closure__", "__loader__", "__cached__",
    "__dict__", "__import__", "__mro__", "__init_subclass__", "__getattr__", "__setattr__",
    "__delattr__", "__self__", "__func__", "__wrapped__", "__annotations__", "__spec__"
  ]

def ERROR_RELATIVE_IMPORT : String := "Relative imports are disallowed."

def ERROR_STDLIB_DISALLOWED (module allowed : String) : String :=
  "Import of standard library module '" ++ module ++ "' is disallowed. Allowed stdlib modules: "
    ++ allowed

def ERROR_EXTERNAL_DISALLOWED (module allowed : String) : String :=
  "Import of external package '" ++ module ++ "' is disallowed. Allowed external packages: "
    ++ allowed

def ERROR_DANGEROUS_NAME (name : String) : String :=
  "Access to name '" ++ name
    ++ "' is disallowed, because it can be used to bypass security restrictions."

def ERROR_DANGEROUS_ATTRIBUTE (attr : String) : String :=
  "Access to attribute '" ++ attr
    ++ "' is disallowed, because it can be used to bypass security restrictions."

def ERROR_DANGEROUS_STRING_PATTERN (attr : String) : String :=
  "String pattern accessing '" ++ attr
    ++ "' is disallowed, because it can be used to bypass security restrictions."

def ERROR_NAME_MANGLED_ATTRIBUTE : String :=
  "Access to name-mangled attributes (pattern: _ClassName__attr) is disallowed for security "
    ++ "reasons."

def ERROR_DYNAMIC_IMPORT : String :=
  "Dynamic __import__() calls are not allowed for security reasons."

def ERROR_MATCH_PATTERN_ATTRIBUTE (attr : String) : String :=
  "Match pattern extracting attribute '" ++ attr
    ++ "' is disallowed, because it can be used to bypass security restrictions."

structure SecurityConfig where
  stdlib_allow : Finset String
  external_allow : Finset String
deriving DecidableEq

/-- `tuple(sorted(allowlist))`. -/
def sorted (allowlist : Finset String) : List String := allowlist.sort (· ≤ ·)

/-- The nodes of a module, with what the visitor reads of them; `other` stands for every other kind
of node, with its children in the order of their fields.
-/
inductive Node where
  | importModules (lineno : Nat) (names : List String)
  | importFrom (lineno : Nat) (module : Option String) (level : Nat)
  | name (lineno : Nat) (id : String)
  | attributeNode (lineno : Nat) (value : Node) (attr : String)
  | call (lineno : Nat) (func : Node) (args keywords : List Node)
  | subscript (lineno : Nat) (value slice : Node)
  /-- `none` for a constant that is no string. -/
  | constant (lineno : Nat) (value : Option String)
  | matchClass (lineno : Nat) (cls : Node) (patterns : List Node) (kwd_attrs : List String)
      (kwd_patterns : List Node)
  | other (children : List Node)

/-- What the interpreter provides: the parser, the names of its standard library, the characters
that `\w` matches, and SHA-256.
-/
structure Interpreter (Digest : Type*) where
  parse : String → Except String Node
  stdlib_module_names : List String
  isWord : Char → Bool
  sha256 : String → Digest

variable {Digest : Type*} (interpreter : Interpreter Digest)

/-- `path.split(".")[0]`. -/
def topLevel (module_path : String) : String :=
  String.ofList (module_path.toList.takeWhile (fun char => char ≠ '.'))

/-- `text.startswith(char)`. -/
def startsWith (char : Char) (text : String) : Bool := text.toList.head? = some char

/-- `", ".join(sorted(allowlist)) if allowlist else "none"`. -/
def allowedText (allowlist : Finset String) : String :=
  if allowlist = ∅ then "none" else ", ".intercalate (sorted allowlist)

/-- The message of a module that is not allowed. -/
def validateModuleImport (module_path : String) (security_config : SecurityConfig)
    : Option String :=
  let stdlib_allow := security_config.stdlib_allow
  let external_allow := security_config.external_allow
  let module_name := topLevel module_path
  if module_name ∈ interpreter.stdlib_module_names then
    if "*" ∈ stdlib_allow ∨ module_name ∈ stdlib_allow then none
    else some (ERROR_STDLIB_DISALLOWED module_path (allowedText stdlib_allow))
  else if "*" ∈ external_allow ∨ module_name ∈ external_allow then none
  else some (ERROR_EXTERNAL_DISALLOWED module_path (allowedText external_allow))

/-- The text without occurrences of a pair of equal characters. -/
def withoutPair (char : Char) : List Char → List Char
  | [] => []
  | [last] => [last]
  | first :: second :: rest =>
      if first = char ∧ second = char then withoutPair char rest
      else first :: withoutPair char (second :: rest)

/-- The groups of `\{([^}]*)\}`, where `opened` is the text behind the last brace. -/
def formatFields : Option (List Char) → List Char → List (List Char)
  | _, [] => []
  | none, char :: rest => formatFields (if char = '{' then some [] else none) rest
  | some inside, char :: rest =>
      if char = '}' then inside :: formatFields none rest
      else formatFields (some (inside ++ [char])) rest

/-- The groups of `\.(\w+)`, where `opened` holds the word that is being read. -/
def attributeAccesses : Option (List Char) → List Char → List (List Char)
  | none, [] => []
  | some word, [] => if word.isEmpty then [] else [word]
  | none, char :: rest => attributeAccesses (if char = '.' then some [] else none) rest
  | some word, char :: rest =>
      if interpreter.isWord char then attributeAccesses (some (word ++ [char])) rest
      else
        (if word.isEmpty then [] else [word])
          ++ attributeAccesses (if char = '.' then some [] else none) rest

/-- The second group of `\[(['\"]?)(\w+)\1\]` at a bracket, given what is behind it. -/
def subscriptAt (behind : List Char) : Option (List Char) :=
  let quote := behind.head?.filter (fun char => char = '\'' || char = '"')
  let inner := if quote.isSome then behind.tail else behind
  let key := inner.takeWhile interpreter.isWord
  let closing := inner.dropWhile interpreter.isWord
  if !key.isEmpty && (quote.toList ++ [']']).isPrefixOf closing then some key else none

/-- The keys of the subscripts in a field. -/
def subscriptAccesses (field : List Char) : List (List Char) :=
  field.tails.filterMap (fun text =>
    match text with
    | '[' :: behind => subscriptAt interpreter behind
    | _ => none)

/-- The names in format fields of a string that are blocked. -/
def blockedInFormat (text : String) : List String :=
  -- escaped braces produce literal braces, not format fields
  let fields := formatFields none (withoutPair '}' (withoutPair '{' text.toList))
  let accesses := fields.flatMap (fun field =>
    attributeAccesses interpreter none field ++ subscriptAccesses interpreter field)
  (accesses.map String.ofList).filter (fun attr => attr ∈ BLOCKED_ATTRIBUTES ∨ attr ∈ BLOCKED_NAMES)

structure SecurityValidator where
  checked_modules : List String
  violations : List String

namespace SecurityValidator

def addViolation (validator : SecurityValidator) (lineno : Nat) (message : String)
    : SecurityValidator :=
  { validator with
    violations := validator.violations ++ ["Line " ++ toString lineno ++ ": " ++ message] }

def addViolations (validator : SecurityValidator) (lineno : Nat) (messages : List String)
    : SecurityValidator :=
  messages.foldl (fun validator message => validator.addViolation lineno message) validator

variable (security_config : SecurityConfig)

/-- Validate that a module import is allowed based on allowlists. Also disallow relative imports. -/
def validateImport (validator : SecurityValidator) (module_path : String) (lineno : Nat)
    : SecurityValidator :=
  if startsWith '.' module_path then validator.addViolation lineno ERROR_RELATIVE_IMPORT
  else
    let module_name := topLevel module_path
    if module_name ∈ validator.checked_modules then validator
    else
      let checked := { validator with checked_modules := module_name :: validator.checked_modules }
      match validateModuleImport interpreter module_path security_config with
      | none => checked
      | some error_msg => checked.addViolation lineno error_msg

def visitImport (validator : SecurityValidator) (lineno : Nat) (names : List String)
    : SecurityValidator :=
  names.foldl (fun validator name =>
    validateImport interpreter security_config validator name lineno) validator

def visitImportFrom (validator : SecurityValidator) (lineno : Nat) (module : Option String)
    (level : Nat)
    : SecurityValidator :=
  if level > 0 then validator.addViolation lineno ERROR_RELATIVE_IMPORT
  else
    match module with
    | none => validator
    | some module =>
        if module = "" then validator
        else validateImport interpreter security_config validator module lineno

def visitName (validator : SecurityValidator) (lineno : Nat) (id : String) : SecurityValidator :=
  if id ∈ BLOCKED_NAMES then validator.addViolation lineno (ERROR_DANGEROUS_NAME id) else validator

/-- `_ClassName__attr`: an underscore in front, and a pair of them that is not in front. -/
def isMangled (attr : String) : Bool :=
  startsWith '_' attr
    && attr.toList.tail.tails.any (fun text => ['_', '_'].isPrefixOf text)
    && !(['_', '_'].isPrefixOf attr.toList)

def visitAttribute (validator : SecurityValidator) (lineno : Nat) (attr : String)
    : SecurityValidator :=
  let checked :=
    if attr ∈ BLOCKED_ATTRIBUTES then
      validator.addViolation lineno (ERROR_DANGEROUS_ATTRIBUTE attr)
    else validator
  if isMangled attr then checked.addViolation lineno ERROR_NAME_MANGLED_ATTRIBUTE else checked

/-- `__import__()`, `builtins.__import__()` or `__builtins__.__import__()`. -/
def isImportCall (func : Node) : Bool :=
  match func with
  | .name _ id => id = "__import__"
  | .attributeNode _ (.name _ id) attr =>
      attr = "__import__" && (id = "builtins" || id = "__builtins__")
  | _ => false

def visitCall (validator : SecurityValidator) (lineno : Nat) (func : Node) (args : List Node)
    : SecurityValidator :=
  if isImportCall func then
    match args.head? with
    | some (.constant _ (some module_name)) =>
        validateImport interpreter security_config validator module_name lineno
    | _ => validator.addViolation lineno ERROR_DYNAMIC_IMPORT
  else validator

/-- `__builtins__[…]` or `obj.__builtins__[…]`. -/
def isBuiltinsAccess (value : Node) : Bool :=
  match value with
  | .name _ id => id = "__builtins__" || id = "builtins"
  | .attributeNode _ _ attr => attr = "__builtins__" || attr = "builtins"
  | _ => false

def visitSubscript (validator : SecurityValidator) (lineno : Nat) (value slice : Node)
    : SecurityValidator :=
  match isBuiltinsAccess value, slice with
  | true, .constant _ (some key) =>
      if key ∈ BLOCKED_ATTRIBUTES then
        validator.addViolation lineno (ERROR_DANGEROUS_ATTRIBUTE key)
      else validator
  | _, _ => validator

def visitConstant (validator : SecurityValidator) (lineno : Nat) (value : Option String)
    : SecurityValidator :=
  match value with
  | none => validator
  | some text =>
      validator.addViolations lineno
        ((blockedInFormat interpreter text).map ERROR_DANGEROUS_STRING_PATTERN)

def visitMatchClass (validator : SecurityValidator) (lineno : Nat) (kwd_attrs : List String)
    : SecurityValidator :=
  validator.addViolations lineno
    ((kwd_attrs.filter (fun attr => attr ∈ BLOCKED_ATTRIBUTES)).map ERROR_MATCH_PATTERN_ATTRIBUTE)

mutual

/-- Each kind of node is looked at before its children are visited. -/
def visit (validator : SecurityValidator) : Node → SecurityValidator
  | .importModules lineno names => visitImport interpreter security_config validator lineno names
  | .importFrom lineno module level =>
      visitImportFrom interpreter security_config validator lineno module level
  | .name lineno id => visitName validator lineno id
  | .attributeNode lineno value attr => visit (visitAttribute validator lineno attr) value
  | .call lineno func args keywords =>
      let checked := visitCall interpreter security_config validator lineno func args
      genericVisit (genericVisit (visit checked func) args) keywords
  | .subscript lineno value slice =>
      let checked := visitSubscript validator lineno value slice
      visit (visit checked value) slice
  | .constant lineno value => visitConstant interpreter validator lineno value
  | .matchClass lineno cls patterns kwd_attrs kwd_patterns =>
      let checked := visitMatchClass validator lineno kwd_attrs
      genericVisit (genericVisit (visit checked cls) patterns) kwd_patterns
  | .other children => genericVisit validator children

def genericVisit (validator : SecurityValidator) : List Node → SecurityValidator
  | [] => validator
  | child :: rest => genericVisit (visit validator child) rest

end

end SecurityValidator

/-- The violations that a fresh validator finds. -/
def violationsOf (security_config : SecurityConfig) (tree : Node) : List String :=
  (SecurityValidator.visit interpreter security_config ⟨[], []⟩ tree).violations

/-- The hash of a code and the allowlists. -/
abbrev CacheKey (Digest : Type*) := Digest × List String × List String

abbrev ValidationCache (Digest : Type*) := Dict (CacheKey Digest) (List String)

/-- What a call of `validate` ends with. -/
inductive Verdict where
  | accepted
  /-- A `SecurityViolationError`, whose description has the violations. -/
  | rejected (violations : List String)
  /-- The code cannot be parsed. -/
  | failed (error : String)
deriving DecidableEq

namespace TaskAnalyzer

variable [DecidableEq Digest] (security_config : SecurityConfig)

def allowAll : Bool := "*" ∈ security_config.stdlib_allow && "*" ∈ security_config.external_allow

def toCacheKey (code : String) : CacheKey Digest :=
  (interpreter.sha256 code, sorted security_config.stdlib_allow,
    sorted security_config.external_allow)

/-- The end of a call whose code has the violations. -/
def verdictOf (violations : List String) : Verdict :=
  if violations.isEmpty then .accepted else .rejected violations

/-- A call of `validate`, with the cache that it leaves. -/
def validate (cache : ValidationCache Digest) (code : String) : ValidationCache Digest × Verdict :=
  if allowAll security_config then (cache, .accepted)
  else
    let cache_key := toCacheKey interpreter security_config code
    match cache.get? cache_key with
    | some cached_violations => (cache.moveToEnd cache_key, verdictOf cached_violations)
    | none =>
        match interpreter.parse code with
        | .error error => (cache, .failed error)
        | .ok tree =>
            let violations := violationsOf interpreter security_config tree
            (cache.store MAX_VALIDATION_CACHE_SIZE cache_key violations, verdictOf violations)

end TaskAnalyzer

end N8n.PythonRunner
