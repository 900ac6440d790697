import N8n.Codegen.StrippedWords
import N8n.WorkflowSdk.Validators

/-! When the variables of generated code are distinct, may be declared and referred to, and do
not get in the way of the workflow's own.
-/

namespace N8n.Codegen

open N8n.Text N8n.WorkflowSdk

variable {nodeName : NodeName} {varName : String} {ctx : VarNameContext}

/-- An identifier of the language, as far as its characters are ASCII. -/
def IsIdentifierName (name : String) : Prop :=
  ∃ first rest,
    name.toList = first :: rest
    ∧ (first.isAlpha = true ∨ first = '_' ∨ first = '$')
    ∧ ∀ char ∈ rest, char.isAlphanum = true ∨ char = '_' ∨ char = '$'

/-- The words that no binding in a module may have: the language reserves them, or strict code
does.
-/
def UNBINDABLE_WORDS : List String :=
  ["await", "break", "case", "catch", "class", "const", "continue", "debugger", "default",
    "delete", "do", "else", "enum", "export", "extends", "false", "finally", "for", "function",
    "if", "import", "in", "instanceof", "new", "null", "return", "super", "switch", "this",
    "throw", "true", "try", "typeof", "var", "void", "while", "with", "yield", "let", "static",
    "implements", "interface", "package", "private", "protected", "public", "arguments", "eval"]

/-- The name can be declared beside `wf`, and the interpreter takes it where it is declared and
where it is referred to.
-/
structure WorksAsVariable (name : String) : Prop where
  identifier : IsIdentifierName name
  bindable : name ∉ UNBINDABLE_WORDS
  besideWorkflow : name ≠ "wf"
  declarable : isAllowedSDKFunction name = true → isAutoRenameableSDKFunction name = true
  referable : validateIdentifier name = .ok ()

/-- Different nodes obtain different names, and all of them work. -/
def VarNamesWork (nodeNames : List NodeName) : Prop :=
  (obtainedVarNames nodeNames).Pairwise (fun node other =>
    node.1 ≠ other.1 → node.2 ≠ other.2)
  ∧ ∀ node ∈ obtainedVarNames nodeNames, WorksAsVariable node.2

/-- The names that do not work and are not among `RESERVED_KEYWORDS`. -/
def MISSED_WORDS : List String :=
  ["await", "enum", "implements", "interface", "package", "private", "protected", "public",
    "arguments", "wf", "placeholder", "newCredential", "nextBatch", "fromAi", "Object", "Array",
    "String", "Number", "Boolean", "Symbol", "BigInt", "JSON", "Math", "Date", "RegExp",
    "Promise", "WeakRef", "WeakMap", "WeakSet", "Map", "Set", "ArrayBuffer",
    "SharedArrayBuffer", "DataView", "Atomics", "WebAssembly", "fetch", "XMLHttpRequest",
    "queueMicrotask", "structuredClone", "Error", "TypeError", "RangeError", "console"]

/-- What keeps an identifier from working. -/
def unusableWords : List String :=
  UNBINDABLE_WORDS ++ "wf" :: DANGEROUS_GLOBALS
    ++ ALLOWED_SDK_FUNCTIONS.filter (fun name => !isAutoRenameableSDKFunction name)

theorem validateIdentifier_eq_ok
    : validateIdentifier varName = .ok () ↔ varName ∉ DANGEROUS_GLOBALS := by
  unfold validateIdentifier
  split
  · next dangerous => simp [dangerous]
  · next harmless => simp [harmless]

theorem worksAsVariable_iff
    : WorksAsVariable varName ↔ IsIdentifierName varName ∧ varName ∉ unusableWords := by
  have parts
      : varName ∉ unusableWords
        ↔ varName ∉ UNBINDABLE_WORDS
          ∧ varName ≠ "wf"
          ∧ varName ∉ DANGEROUS_GLOBALS
          ∧ (isAllowedSDKFunction varName = true
            → isAutoRenameableSDKFunction varName = true) := by
    simp only [unusableWords, List.mem_append, List.mem_cons, List.mem_filter, not_or, not_and,
      isAllowedSDKFunction, decide_eq_true_eq, Bool.not_eq_true', Bool.not_eq_false, and_assoc]
  rw [parts]
  constructor
  · intro works
    exact ⟨works.identifier, works.bindable, works.besideWorkflow,
      validateIdentifier_eq_ok.mp works.referable, works.declarable⟩
  · rintro ⟨identifier, bindable, besideWorkflow, harmless, declarable⟩
    exact ⟨identifier, bindable, besideWorkflow, declarable,
      validateIdentifier_eq_ok.mpr harmless⟩

theorem isIdentifierName_of_wellFormed (formed : WellFormed varName.toList)
    : IsIdentifierName varName := by
  obtain ⟨plain, first, rest, chars, noDigit, -⟩ := formed
  rw [chars] at plain
  refine ⟨first, rest, chars, ?_, fun char member => ?_⟩
  · rcases plain first (.head _) with kept | underscore
    · exact .inl (isAlpha_of_not_isDigit kept noDigit)
    · exact .inr (.inl underscore)
  · exact (plain char (.tail _ member)).imp_right .inl

/-- Beside the missed words and the reserved ones there are two that begin with two underscores.
-/
theorem unusableWords_cases
    : ∀ word ∈ unusableWords,
        word ∈ RESERVED_KEYWORDS ∨ word ∈ MISSED_WORDS ∨ ['_', '_'] <+: word.toList := by
  decide +kernel

theorem missedWords_facts
    : ∀ word ∈ MISSED_WORDS,
        word ∈ unusableWords ∧ word ∉ RESERVED_KEYWORDS ∧ word.toList ≠ []
        ∧ word.toList.all Char.isAlpha = true := by
  decide +kernel

theorem no_underscore_inside
    : ∀ word ∈ RESERVED_KEYWORDS ++ MISSED_WORDS, '_' ∉ word.toList := by
  decide +kernel

theorem no_digit_last
    : ∀ word ∈ unusableWords, word.toList.getLast?.all (fun char => !char.isDigit) = true := by
  decide +kernel

/-- The names of variables that do not work are the stripped words that were missed. -/
theorem strippedWord_of_unusable (unusable : toVarName nodeName ∈ unusableWords)
    : String.ofList (strippedWord nodeName) ∈ MISSED_WORDS := by
  rcases unusableWords_cases _ unusable with reserved | missed | doubled
  · have plain := no_underscore_inside _ (List.mem_append_left _ reserved)
    exact absurd reserved (strippedWord_of_not_mem plain).2
  · have plain := no_underscore_inside _ (List.mem_append_right _ missed)
    rwa [(strippedWord_of_not_mem plain).1]
  · obtain ⟨-, first, rest, chars, -, next⟩ := wellFormed_toVarName nodeName
    obtain ⟨behind, chars'⟩ := doubled
    rw [chars] at chars'
    obtain ⟨rfl, rfl⟩ := List.cons.inj chars'
    obtain ⟨second, here, digit⟩ := next rfl
    obtain rfl : '_' = second := by simpa using here
    exact absurd digit (by decide)

theorem toVarName_of_missed (missed : String.ofList (strippedWord nodeName) ∈ MISSED_WORDS)
    : toVarName nodeName = String.ofList (strippedWord nodeName) := by
  obtain ⟨-, free, nonempty, letters⟩ := missedWords_facts _ missed
  rw [String.toList_ofList] at nonempty letters
  exact toVarName_of_strippedWord (List.all_eq_true.mp letters) nonempty free

theorem numbered_not_mem (baseVarName : String) (counter : Nat)
    : baseVarName ++ toString counter ∉ unusableWords := by
  intro unusable
  have digits := no_digit_last _ unusable
  have nonempty := toString_ne_nil counter
  rw [String.toList_append, List.getLast?_append_of_ne_nil _ nonempty,
    List.getLast?_eq_some_getLast nonempty] at digits
  have digit := isDigit_of_mem_toString (List.getLast_mem nonempty)
  rw [Option.all_some, digit] at digits
  exact Bool.false_ne_true digits

/-- What the loop of `generateCode` keeps: the used names are those of the nodes seen, different
nodes have different ones, and a node has its base name or a counter behind it.
-/
structure VarNameContext.Consistent (ctx : VarNameContext) : Prop where
  used
    : ∀ varName,
        varName ∈ ctx.usedVarNames
        ↔ ∃ nodeName, ctx.nodeNameToVarName.get? nodeName = some varName
  distinct
    : ∀ nodeName other varName,
        ctx.nodeNameToVarName.get? nodeName = some varName
        → ctx.nodeNameToVarName.get? other = some varName
        → nodeName = other
  based
    : ∀ nodeName varName,
        ctx.nodeNameToVarName.get? nodeName = some varName
        → toVarName nodeName ∈ ctx.usedVarNames
          ∧ (varName = toVarName nodeName
            ∨ ∃ counter : Nat, varName = toVarName nodeName ++ toString counter)

theorem VarNameContext.Consistent.empty
    : VarNameContext.Consistent ⟨Dict.empty, []⟩ where
  used varName := by simp
  distinct := by simp
  based := by simp

theorem freeVarName_not_mem (baseVarName : String) (used : List String)
    : freeVarName baseVarName used ∉ used := by
  unfold freeVarName
  split
  · exact Nat.find_spec (exists_unused_counter baseVarName used)
  · assumption

/-- One step gives a node a name of its own and leaves the names of others. -/
theorem getUniqueVarName_spec (consistent : ctx.Consistent) (nodeName : NodeName)
    : (getUniqueVarName nodeName ctx).2.Consistent
      ∧ (getUniqueVarName nodeName ctx).2.nodeNameToVarName.get? nodeName
        = some (getUniqueVarName nodeName ctx).1
      ∧ (∀ other varName,
          ctx.nodeNameToVarName.get? other = some varName
          → (getUniqueVarName nodeName ctx).2.nodeNameToVarName.get? other = some varName)
      ∧ ∀ varName ∈ (getUniqueVarName nodeName ctx).2.usedVarNames,
          varName ∈ ctx.usedVarNames ∨ varName = (getUniqueVarName nodeName ctx).1 := by
  unfold getUniqueVarName
  split
  · next varName here =>
      exact ⟨consistent, here, fun _ _ found => found, fun _ used => .inl used⟩
  · next absent =>
      let base := toVarName nodeName
      let free := freeVarName base ctx.usedVarNames
      have isFree : free ∉ ctx.usedVarNames := freeVarName_not_mem _ _
      have others
          : ∀ other varName,
              ctx.nodeNameToVarName.get? other = some varName
              → (ctx.nodeNameToVarName.set nodeName free).get? other = some varName := by
        intro other varName found
        rw [Dict.get?_set_of_ne]
        · exact found
        · rintro rfl
          simp [absent] at found
      have cases
          : ∀ other varName,
              (ctx.nodeNameToVarName.set nodeName free).get? other = some varName
              → other = nodeName ∧ varName = free
                ∨ ctx.nodeNameToVarName.get? other = some varName := by
        intro other varName found
        rw [Dict.get?_set] at found
        split at found
        · next same => exact .inl ⟨same, (Option.some.inj found).symm⟩
        · exact .inr found
      refine ⟨⟨?_, ?_, ?_⟩, Dict.get?_set_self _ _ _, others,
        fun _ used => (List.mem_cons.mp used).symm⟩
      · intro varName
        constructor
        · intro member
          rcases List.mem_cons.mp member with rfl | before
          · exact ⟨nodeName, Dict.get?_set_self _ _ _⟩
          · obtain ⟨other, found⟩ := (consistent.used varName).mp before
            exact ⟨other, others other varName found⟩
        · rintro ⟨other, found⟩
          rcases cases other varName found with ⟨-, rfl⟩ | before
          · exact (.head _)
          · exact List.mem_cons_of_mem _ ((consistent.used varName).mpr ⟨other, before⟩)
      · intro first second varName found found'
        have notBefore
            : ∀ other, ctx.nodeNameToVarName.get? other = some free → False :=
          fun other before => isFree ((consistent.used free).mpr ⟨other, before⟩)
        rcases cases first varName found with ⟨here, same⟩ | before
        · rcases cases second varName found' with ⟨here', -⟩ | before'
          · exact here.trans here'.symm
          · exact (notBefore second (same ▸ before')).elim
        · rcases cases second varName found' with ⟨-, same⟩ | before'
          · exact (notBefore first (same ▸ before)).elim
          · exact consistent.distinct first second varName before before'
      · intro other varName found
        rcases cases other varName found with ⟨rfl, rfl⟩ | before
        · by_cases taken : base ∈ ctx.usedVarNames
          · exact ⟨List.mem_cons_of_mem _ taken, .inr ⟨_, if_pos taken⟩⟩
          · have same : free = base := if_neg taken
            exact ⟨List.mem_cons.mpr (.inl same.symm), .inl same⟩
        · obtain ⟨taken, based⟩ := consistent.based other varName before
          exact ⟨List.mem_cons_of_mem _ taken, based⟩

/-- What the loop leads to: each node is found with the name that it obtained, and the used names
are those obtained on the way.
-/
theorem registerVarNames_spec (nodeNames : List NodeName) (consistent : ctx.Consistent)
    : let (obtained, after) := registerVarNames nodeNames ctx
      after.Consistent
      ∧ obtained.map Prod.fst = nodeNames
      ∧ (∀ node ∈ obtained, after.nodeNameToVarName.get? node.1 = some node.2)
      ∧ (∀ other varName,
          ctx.nodeNameToVarName.get? other = some varName
          → after.nodeNameToVarName.get? other = some varName)
      ∧ ∀ varName ∈ after.usedVarNames,
          varName ∈ ctx.usedVarNames ∨ ∃ node ∈ obtained, node.2 = varName := by
  induction nodeNames generalizing ctx with
  | nil =>
      exact ⟨consistent, rfl, by simp, fun _ _ found => found, fun _ used => .inl used⟩
  | cons nodeName rest ih =>
      obtain ⟨kept, found, others, usedNow⟩ := getUniqueVarName_spec consistent nodeName
      obtain ⟨after, names, obtained, later, used⟩ := ih kept
      refine ⟨after, congrArg (nodeName :: ·) names, ?_, ?_, ?_⟩
      · intro node member
        rcases List.mem_cons.mp member with rfl | member
        · exact later _ _ found
        · exact obtained node member
      · exact fun other varName before => later other varName (others other varName before)
      · intro varName isUsed
        rcases used varName isUsed with before | ⟨node, member, same⟩
        · rcases usedNow varName before with before | same
          · exact .inl before
          · exact .inr ⟨_, (.head _), same.symm⟩
        · exact .inr ⟨node, List.mem_cons_of_mem _ member, same⟩

/-- Generated variables work if and only if no node's name, without what stands around it, is
one of the words that were missed.
-/
theorem varNamesWork_iff (nodeNames : List NodeName)
    : VarNamesWork nodeNames
      ↔ ∀ nodeName ∈ nodeNames, String.ofList (strippedWord nodeName) ∉ MISSED_WORDS := by
  obtain ⟨after, names, obtained, -, used⟩ :=
    registerVarNames_spec nodeNames VarNameContext.Consistent.empty
  constructor
  · intro works nodeName member missed
    rw [← names] at member
    obtain ⟨node, here, rfl⟩ := List.mem_map.mp member
    have taken := (after.based node.1 node.2 (obtained node here)).1
    rcases used _ taken with before | ⟨other, there, same⟩
    · simp at before
    · have unusable := (missedWords_facts _ missed).1
      rw [← toVarName_of_missed missed, ← same] at unusable
      exact (worksAsVariable_iff.mp (works.2 other there)).2 unusable
  · intro noneMissed
    refine ⟨List.pairwise_of_forall_mem_list (fun node here other there differ same => ?_), ?_⟩
    · exact differ (after.distinct node.1 other.1 node.2 (obtained node here)
        (same ▸ obtained other there))
    · intro node here
      have member : node.1 ∈ nodeNames := names ▸ List.mem_map_of_mem here
      have formed := wellFormed_toVarName node.1
      rcases (after.based node.1 node.2 (obtained node here)).2 with base | ⟨counter, numbered⟩
      · rw [base]
        exact worksAsVariable_iff.mpr ⟨isIdentifierName_of_wellFormed formed,
          fun unusable => noneMissed node.1 member (strippedWord_of_unusable unusable)⟩
      · rw [numbered]
        refine worksAsVariable_iff.mpr ⟨isIdentifierName_of_wellFormed ?_, numbered_not_mem _ _⟩
        rw [String.toList_append]
        refine formed.append (fun char digit => .inl ?_)
        simp [Char.isAlphanum, isDigit_of_mem_toString digit]

/-- A node that is called Await is declared under a reserved word. -/
theorem await_unusable : ¬ VarNamesWork [[65, 119, 97, 105, 116]] := by
  intro works
  have obtained
      : obtainedVarNames [[65, 119, 97, 105, 116]] = [([65, 119, 97, 105, 116], "await")] := by
    decide
  have reserved := (works.2 ([65, 119, 97, 105, 116], "await") (by simp [obtained])).bindable
  exact reserved (by decide)

end N8n.Codegen
