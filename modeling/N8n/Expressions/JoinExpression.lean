import N8n.Expressions.SplitExpression

/-! The text that the chunks of an expression are joined to
(`packages/workflow/src/extensions/expression-parser.ts`), and the expressions that are
joined to themselves after they have been split.
-/

namespace N8n.Expressions

/-- Puts a backslash in front of the first `}}`. -/
def escapeTmplExpression : List Char → List Char
  | [] => []
  | char :: rest =>
      if ['}', '}'] <+: char :: rest then '\\' :: char :: rest
      else char :: escapeTmplExpression rest

def joinChunk : ExpressionChunk → List Char
  | .text text => text
  | .code text hasClosingBrackets =>
      '{' :: '{' :: escapeTmplExpression text
        ++ if hasClosingBrackets then ['}', '}'] else []

def joinExpression (parts : List ExpressionChunk) : List Char := parts.flatMap joinChunk

namespace Brackets

def escaped (brackets : Brackets) : List Char := ['\\', brackets.char, brackets.char]

/-- Each `\}}` behind a `}` comes after another one. -/
def escapesAgain (code : List Char) : Prop :=
  ∀ front behind, code = front ++ '}' :: closing.escaped ++ behind
    → closing.escaped <:+: front ++ ['}']

end Brackets

variable {brackets searchingFor : Brackets} {text before after buffer code : List Char}

/-- What is in front of the first brackets has no brackets. -/
theorem splitAtBrackets_before
    (found : splitAtBrackets brackets text = some (before, after))
    : splitAtBrackets brackets before = none := by
  induction text using bracketCases brackets generalizing before after with
  | nil => simp [splitAtBrackets] at found
  | escaped rest ih =>
      rw [splitAtBrackets_escaped] at found
      obtain ⟨⟨front, back⟩, inside, same⟩ := Option.map_eq_some_iff.mp found
      cases same
      rw [splitAtBrackets_escaped, ih inside]
      rfl
  | here rest ih =>
      rw [splitAtBrackets_here] at found
      cases found
      rfl
  | char first rest notEscaped notHere ih =>
      rw [splitAtBrackets_cons notEscaped notHere] at found
      obtain ⟨⟨front, back⟩, inside, same⟩ := Option.map_eq_some_iff.mp found
      cases same
      have starts : front <+: rest := ⟨_, (splitAtBrackets_append inside).symm⟩
      rw [splitAtBrackets_cons, ih inside]
      · rfl
      · exact fun both => notEscaped ⟨both.1, both.2.trans starts⟩
      · intro isPrefix
        exact notHere (isPrefix.trans (List.cons_prefix_cons.mpr ⟨rfl, starts⟩))

theorem escapesAgain_escaped (rest : List Char)
    : Brackets.escapesAgain (Brackets.closing.escaped ++ rest) := by
  intro front behind same
  have starts : front ++ ['}'] <+: Brackets.closing.escaped ++ rest :=
    ⟨Brackets.closing.escaped ++ behind, by simp [same]⟩
  have long : Brackets.closing.escaped.length ≤ (front ++ ['}']).length := by
    match front, same with
    | [], same => exact absurd (List.cons.inj same).1 (by decide)
    | [first], same =>
        have third := (List.cons.inj (List.cons.inj (List.cons.inj same).2).2).1
        exact absurd third (by decide)
    | first :: second :: front, _ => simp [Brackets.escaped]
  exact (List.prefix_of_prefix_length_le (List.prefix_append _ rest) starts long).isInfix

theorem escapesAgain_cons {char : Char} {rest : List Char}
    (notEscaped : ¬(char = '\\' ∧ ['}', '}'] <+: rest))
    (apart : ¬(char = '}' ∧ Brackets.closing.escaped <+: rest))
    : Brackets.escapesAgain (char :: rest) ↔ Brackets.escapesAgain rest := by
  constructor
  · intro again front behind same
    have inside := again (char :: front) behind (by simp [same])
    rcases List.infix_cons_iff.mp inside with isPrefix | later
    · have parts := List.cons_prefix_cons.mp isPrefix
      refine absurd ⟨parts.1.symm, parts.2.trans ?_⟩ notEscaped
      exact ⟨Brackets.closing.escaped ++ behind, by simp [same]⟩
    · exact later
  · intro again front behind same
    match front, same with
    | [], same =>
        obtain ⟨rfl, rest_eq⟩ := List.cons.inj same
        exact absurd ⟨rfl, behind, rest_eq.symm⟩ apart
    | first :: front, same =>
        obtain ⟨rfl, rest_eq⟩ := List.cons.inj same
        exact (again front behind rest_eq).trans (List.suffix_cons _ _).isInfix

/-- The code starts with `}` after the brackets are unescaped only if it did before, or if
it started with the escaped brackets.
-/
theorem head_escapeCode {rest : List Char} (starts : ['}'] <+: escapeCode rest)
    : ['}'] <+: rest ∨ Brackets.closing.escaped <+: rest := by
  cases rest with
  | nil => exact .inl starts
  | cons first others =>
      rw [escapeCode] at starts
      split at starts
      · next both =>
          obtain ⟨rfl, behind, same⟩ := both
          exact .inr ⟨behind, by rw [← same]; rfl⟩
      · exact .inl (List.cons_prefix_cons.mpr
          ⟨(List.cons_prefix_cons.mp starts).1, List.nil_prefix⟩)

/-- In front of other characters, either escaping meets brackets that begin there, or it
leaves the character.
-/
theorem escapeTmplExpression_cons {first : Char} {rest : List Char}
    (notEscaped : ¬(first = '\\' ∧ ['}', '}'] <+: rest))
    (notHere : ¬['}', '}'] <+: first :: rest)
    : (∃ behind,
        first = '}'
        ∧ rest = Brackets.closing.escaped ++ behind
        ∧ escapeTmplExpression (escapeCode (first :: rest)) = '\\' :: '}' :: '}' :: '}' :: behind)
      ∨ (¬(first = '}' ∧ Brackets.closing.escaped <+: rest)
        ∧ escapeTmplExpression (escapeCode (first :: rest))
          = first :: escapeTmplExpression (escapeCode rest)) := by
  have unchanged : escapeCode (first :: rest) = first :: escapeCode rest :=
    if_neg notEscaped
  rw [unchanged]
  by_cases meets : first = '}' ∧ Brackets.closing.escaped <+: rest
  · obtain ⟨rfl, behind, rfl⟩ := meets
    refine .inl ⟨behind, rfl, rfl, ?_⟩
    simp [Brackets.escaped, Brackets.char, escapeCode, escapeTmplExpression]
  · have apart : ¬['}', '}'] <+: first :: escapeCode rest := by
      intro isPrefix
      obtain ⟨same, starts⟩ := List.cons_prefix_cons.mp isPrefix
      rcases head_escapeCode starts with here | escaped
      · exact notHere (List.cons_prefix_cons.mpr ⟨same, here⟩)
      · exact meets ⟨same.symm, escaped⟩
    refine .inr ⟨meets, ?_⟩
    rw [escapeTmplExpression, if_neg apart]

/-- Escaping undoes what was done to the code, unless it meets other brackets first, by
reading the code.
-/
theorem escapeTmplExpression_escapeCode_iff (none : splitAtBrackets .closing code = none)
    : escapeTmplExpression (escapeCode code) = code ↔ Brackets.escapesAgain code := by
  induction code using bracketCases .closing with
  | nil =>
      refine ⟨fun _ front behind same => ?_, fun _ => rfl⟩
      simp at same
  | escaped rest ih =>
      refine ⟨fun _ => escapesAgain_escaped rest, fun _ => ?_⟩
      simp [escapeCode, escapeTmplExpression, Brackets.char]
  | here rest ih =>
      rw [splitAtBrackets_here] at none
      contradiction
  | char first rest notEscaped notHere ih =>
      rw [splitAtBrackets_cons notEscaped notHere, Option.map_eq_none_iff] at none
      rcases escapeTmplExpression_cons notEscaped notHere with
        ⟨behind, rfl, rfl, moved⟩ | ⟨apart, kept⟩
      · refine ⟨fun same => ?_, fun again => ?_⟩
        · rw [moved] at same
          exact absurd (List.cons.inj same).1 (by decide)
        · have inside := (again [] behind rfl).length_le
          simp [Brackets.escaped] at inside
      · rw [kept, List.cons_inj_right, escapesAgain_cons notEscaped apart]
        exact ih none

theorem length_escapeTmplExpression (none : splitAtBrackets .closing code = none)
    : (escapeTmplExpression (escapeCode code)).length = code.length := by
  induction code using bracketCases .closing with
  | nil => rfl
  | escaped rest ih => simp [escapeCode, escapeTmplExpression, Brackets.char]
  | here rest ih =>
      rw [splitAtBrackets_here] at none
      contradiction
  | char first rest notEscaped notHere ih =>
      rw [splitAtBrackets_cons notEscaped notHere, Option.map_eq_none_iff] at none
      rcases escapeTmplExpression_cons notEscaped notHere with
        ⟨behind, rfl, rfl, moved⟩ | ⟨apart, kept⟩
      · rw [moved]
        rfl
      · rw [kept, List.length_cons, ih none, List.length_cons]

namespace Brackets

/-- What is kept of a text without brackets: a text outside brackets as it is, code if its
brackets are escaped again.
-/
def keeps : Brackets → List Char → Prop
  | .opening, _ => True
  | .closing, code => escapesAgain code

/-- The rest, without further brackets, makes a chunk: it does not end in escaped brackets,
and there is some code behind the last opening brackets.
-/
def keepsRest (searchingFor : Brackets) (rest : List Char) : Prop :=
  ¬searchingFor.escaped <:+ rest ∧ (searchingFor = .closing → rest ≠ [])

end Brackets

/-- Each part of the text is kept. -/
inductive Kept : Brackets → List Char → Prop where
  | rest {searchingFor : Brackets} {text : List Char}
    : splitAtBrackets searchingFor text = none
      → searchingFor.keeps text
      → searchingFor.keepsRest text
      → Kept searchingFor text
  | part {searchingFor : Brackets} {text before after : List Char}
    : splitAtBrackets searchingFor text = some (before, after)
      → searchingFor.keeps before
      → Kept searchingFor.other after
      → Kept searchingFor text

theorem kept_iff_of_some (found : splitAtBrackets searchingFor text = some (before, after))
    : Kept searchingFor text ↔ searchingFor.keeps before ∧ Kept searchingFor.other after := by
  refine ⟨fun kept => ?_, fun parts => .part found parts.1 parts.2⟩
  cases kept with
  | rest none _ _ =>
      rw [none] at found
      contradiction
  | part split kept rest =>
      cases split.symm.trans found
      exact ⟨kept, rest⟩

theorem kept_iff_of_none (none : splitAtBrackets searchingFor text = none)
    : Kept searchingFor text ↔ searchingFor.keeps text ∧ searchingFor.keepsRest text := by
  refine ⟨fun kept => ?_, fun parts => .rest none parts.1 parts.2⟩
  cases kept with
  | rest _ kept keptRest => exact ⟨kept, keptRest⟩
  | part split _ _ =>
      rw [none] at split
      contradiction

namespace Brackets

/-- The brackets that are joined in front of a chunk. -/
def inFront : Brackets → List Char
  | .opening => []
  | .closing => ['{', '{']

/-- The brackets that are joined behind a chunk. -/
def behind : Brackets → List Char
  | .opening => []
  | .closing => ['}', '}']

/-- What the text of a chunk is joined to. -/
def rejoined : Brackets → List Char → List Char
  | .opening, text => text
  | .closing, code => escapeTmplExpression (escapeCode code)

theorem rejoined_iff (none : splitAtBrackets searchingFor text = none)
    : searchingFor.rejoined text = text ↔ searchingFor.keeps text := by
  cases searchingFor with
  | opening => exact iff_of_true rfl trivial
  | closing => exact escapeTmplExpression_escapeCode_iff none

theorem length_rejoined (none : splitAtBrackets searchingFor text = none)
    : (searchingFor.rejoined text).length = text.length := by
  cases searchingFor with
  | opening => rfl
  | closing => exact length_escapeTmplExpression none

theorem joinChunk_chunk (searchingFor : Brackets) (text : List Char) (found : Bool)
    : joinChunk (searchingFor.chunk text found)
      = searchingFor.inFront ++ searchingFor.rejoined text
        ++ if found then searchingFor.behind else [] := by
  cases searchingFor <;> cases found <;> simp [chunk, joinChunk, inFront, rejoined, behind]

theorem behind_inFront (searchingFor : Brackets)
    : [searchingFor.char, searchingFor.char]
      = searchingFor.behind ++ searchingFor.other.inFront := by
  cases searchingFor <;> rfl

end Brackets

/-- The last chunk is the text, unless it is lost. -/
theorem joinExpression_rest (none : splitAtBrackets searchingFor text = none)
    : joinExpression (splitLoop text.length searchingFor [] text)
          = searchingFor.inFront ++ text
      ↔ Kept searchingFor text := by
  rw [kept_iff_of_none none, splitLoop_of_none (Nat.le_refl _) none]
  split
  · next lost =>
      rcases lost with rfl | ends
      · cases searchingFor with
        | opening => simp [joinExpression, Brackets.inFront, Brackets.keeps, Brackets.keepsRest,
            Brackets.escaped]
        | closing => simp [joinExpression, Brackets.inFront, Brackets.keepsRest]
      · refine iff_of_false ?_ (fun parts => parts.2.1 ends)
        intro same
        have nonempty := ends.length_le
        have empty := congrArg List.length same
        simp [joinExpression] at nonempty empty
        omega
  · next present =>
      rw [not_or] at present
      have joined : joinExpression [searchingFor.chunk ([] ++ text) false]
          = searchingFor.inFront ++ searchingFor.rejoined text := by
        simp [joinExpression, Brackets.joinChunk_chunk]
      rw [joined, List.append_cancel_left_eq, Brackets.rejoined_iff none]
      exact (and_iff_left ⟨present.2, fun _ => present.1⟩).symm

/-- A split text is joined to itself exactly if each part of it is kept, part by part, by
induction on the length.
-/
theorem joinExpression_splitLoop_iff (searchingFor : Brackets) (text : List Char)
    : joinExpression (splitLoop text.length searchingFor [] text)
          = searchingFor.inFront ++ text
      ↔ Kept searchingFor text := by
  induction length : text.length using Nat.strong_induction_on
    generalizing searchingFor text with
  | _ size ih =>
      subst length
      cases found : splitAtBrackets searchingFor text with
      | none => exact joinExpression_rest found
      | some sides =>
          obtain ⟨before, after⟩ := sides
          have none := splitAtBrackets_before found
          have rest := ih after.length (length_lt_of_splitAtBrackets found)
            searchingFor.other after rfl
          have whole : searchingFor.inFront ++ text
              = searchingFor.inFront
                ++ (before ++ (searchingFor.behind ++ (searchingFor.other.inFront ++ after))) := by
            rw [← List.append_assoc searchingFor.behind, ← Brackets.behind_inFront]
            simp [splitAtBrackets_append found]
          have joined : joinExpression (splitLoop text.length searchingFor [] text)
              = searchingFor.inFront
                ++ (searchingFor.rejoined before
                  ++ (searchingFor.behind
                    ++ joinExpression (splitLoop after.length searchingFor.other [] after))) := by
            rw [splitLoop_some (Nat.le_refl _) found]
            simp [joinExpression, Brackets.joinChunk_chunk]
          rw [kept_iff_of_some found, ← rest, ← Brackets.rejoined_iff none, joined, whole,
            List.append_cancel_left_eq]
          constructor
          · intro same
            obtain ⟨here, there⟩ := List.append_inj same (Brackets.length_rejoined none)
            exact ⟨here, List.append_cancel_left there⟩
          · intro ⟨here, there⟩
            rw [here, there]

/-- Splitting loses no text exactly if no part of it ends in escaped brackets that are
dropped, nothing is missing behind the last opening brackets, and the first escaped brackets
of each piece of code are not behind a further bracket.
-/
theorem joinExpression_splitExpression_iff (expression : List Char)
    : joinExpression (splitExpression expression) = expression
      ↔ Kept .opening expression :=
  joinExpression_splitLoop_iff .opening expression

/-- The text `a\{{` is lost. -/
theorem escapedOpening_lost
    : ¬joinExpression (splitExpression ['a', '\\', '{', '{']) = ['a', '\\', '{', '{'] := by
  decide

end N8n.Expressions
