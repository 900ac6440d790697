import N8n.Expressions.JoinExpression

/-! The chunk lists that are split into themselves again after they have been joined. Joining
escapes the first `}}` of a piece of code and unescaping undoes that, so it is the rest of the
code that must not have brackets, nor an end that takes part in the brackets behind it.
-/

namespace N8n.Expressions

variable {brackets searchingFor : Brackets} {text code : List Char}
  {chunks : List ExpressionChunk}

namespace Brackets

/-- Apart from escaped brackets there are no brackets in the text, and its last character is
neither one of them nor a backslash.
-/
def clear (brackets : Brackets) : List Char → Bool
  | first :: second :: third :: rest =>
      if first = '\\' ∧ second = brackets.char ∧ third = brackets.char then
        clear brackets rest
      else if first = brackets.char ∧ second = brackets.char then false
      else clear brackets (second :: third :: rest)
  | [_, last] => last ≠ brackets.char && last ≠ '\\'
  | [last] => last ≠ brackets.char && last ≠ '\\'
  | [] => true

end Brackets

theorem clear_escaped (rest : List Char)
    : brackets.clear ('\\' :: brackets.char :: brackets.char :: rest) = brackets.clear rest := by
  simp [Brackets.clear]

theorem clear_here (rest : List Char)
    : brackets.clear (brackets.char :: brackets.char :: rest) = false := by
  have differ : brackets.char ≠ '\\' := by cases brackets <;> decide
  cases rest <;> simp [Brackets.clear, differ]

theorem clear_cons {char : Char} {rest : List Char} (more : rest ≠ [])
    (notEscaped : ¬(char = '\\' ∧ [brackets.char, brackets.char] <+: rest))
    (notHere : ¬[brackets.char, brackets.char] <+: char :: rest)
    : brackets.clear (char :: rest) = brackets.clear rest := by
  match rest with
  | [] => contradiction
  | [second] => rfl
  | second :: third :: rest =>
      simp only [List.cons_prefix_cons, List.nil_prefix, and_true, not_and] at notEscaped notHere
      rw [Brackets.clear, if_neg, if_neg]
      · intro both
        exact notHere both.1.symm both.2.symm
      · intro all
        exact notEscaped all.1 all.2.1.symm all.2.2.symm

/-- The brackets behind a text are found there exactly if it is clear of them, by reading the
text.
-/
theorem clear_iff (more : List Char)
    : brackets.clear text = true
      ↔ splitAtBrackets brackets (text ++ brackets.char :: brackets.char :: more)
        = some (text, more) := by
  induction text using bracketCases brackets generalizing more with
  | nil => simp [Brackets.clear, splitAtBrackets_here]
  | escaped rest ih =>
      rw [clear_escaped, List.cons_append, List.cons_append, List.cons_append,
        splitAtBrackets_escaped]
      refine (ih more).trans ?_
      simp
  | here rest ih =>
      rw [clear_here, List.cons_append, List.cons_append, splitAtBrackets_here]
      simp
  | char first rest notEscaped notHere ih =>
      -- a single character in front of the brackets may take part in them
      have single (last : Char) (tail : List Char)
          : (last ≠ brackets.char && last ≠ '\\') = true
            ↔ splitAtBrackets brackets (last :: brackets.char :: brackets.char :: tail)
              = some ([last], tail) := by
        by_cases isBracket : last = brackets.char
        · subst isBracket
          simp [splitAtBrackets_here]
        · by_cases isBackslash : last = '\\'
          · subst isBackslash
            simp [splitAtBrackets_escaped]
          · have apart : ¬[brackets.char, brackets.char]
                <+: last :: brackets.char :: brackets.char :: tail :=
              fun isPrefix => isBracket (List.cons_prefix_cons.mp isPrefix).1.symm
            rw [splitAtBrackets_cons (fun both => isBackslash both.1) apart,
              splitAtBrackets_here]
            simp [isBracket, isBackslash]
      match rest with
      | [] => exact single first more
      | [second] =>
          rw [clear_cons (by simp) notEscaped notHere, List.cons_append]
          have here : ¬[brackets.char, brackets.char]
              <+: first :: ([second] ++ brackets.char :: brackets.char :: more) := by
            simpa using notHere
          by_cases escapes : first = '\\' ∧ second = brackets.char
          · obtain ⟨rfl, rfl⟩ := escapes
            simp [Brackets.clear, splitAtBrackets]
          · rw [splitAtBrackets_cons _ here]
            · refine (ih more).trans ?_
              simp
            · intro both
              exact escapes ⟨both.1, (List.cons_prefix_cons.mp both.2).1.symm⟩
      | second :: third :: rest =>
          rw [clear_cons (by simp) notEscaped notHere, List.cons_append,
            splitAtBrackets_cons (by simpa using notEscaped) (by simpa using notHere)]
          refine (ih more).trans ?_
          simp

/-- What stands behind the first `}}`. -/
def behindBrackets : List Char → Option (List Char)
  | [] => none
  | char :: rest =>
      if ['}', '}'] <+: char :: rest then some (rest.drop 1) else behindBrackets rest

/-- The part of the code that joining leaves as it is: what is behind the first `}}`, or all. -/
def leftAsIs (code : List Char) : List Char := (behindBrackets code).getD code

theorem head_escapeTmplExpression (starts : ['}'] <+: escapeTmplExpression code)
    : ['}'] <+: code := by
  cases code with
  | nil => exact starts
  | cons first rest =>
      rw [escapeTmplExpression] at starts
      split at starts
      · exact absurd (List.cons_prefix_cons.mp starts).1 (by decide)
      · exact List.cons_prefix_cons.mpr ⟨(List.cons_prefix_cons.mp starts).1, List.nil_prefix⟩

/-- Joined code does not begin with brackets. -/
theorem not_prefix_escapeTmplExpression : ¬['}', '}'] <+: escapeTmplExpression code := by
  intro starts
  cases code with
  | nil => simp [escapeTmplExpression] at starts
  | cons first rest =>
      rw [escapeTmplExpression] at starts
      split at starts
      · exact absurd (List.cons_prefix_cons.mp starts).1 (by decide)
      case isFalse apart =>
        obtain ⟨same, later⟩ := List.cons_prefix_cons.mp starts
        exact apart (List.cons_prefix_cons.mpr ⟨same, head_escapeTmplExpression later⟩)

/-- Unescaping takes back what joining does to code, by reading the code. -/
theorem escapeCode_escapeTmplExpression (code : List Char)
    : escapeCode (escapeTmplExpression code) = code := by
  induction code with
  | nil => rfl
  | cons first rest ih =>
      by_cases here : ['}', '}'] <+: first :: rest
      · rw [escapeTmplExpression, if_pos here, escapeCode, if_pos ⟨rfl, here⟩]
      · rw [escapeTmplExpression, if_neg here, escapeCode, if_neg, ih]
        exact fun both => not_prefix_escapeTmplExpression both.2

theorem clear_escapeTmplExpression (code : List Char)
    : Brackets.closing.clear (escapeTmplExpression code)
      = Brackets.closing.clear (leftAsIs code) := by
  induction code with
  | nil => rfl
  | cons first rest ih =>
      by_cases here : ['}', '}'] <+: first :: rest
      · obtain ⟨behind, same⟩ := here
        rw [← same]
        exact clear_escaped behind
      · rw [escapeTmplExpression, if_neg here]
        cases found : behindBrackets rest with
        | none =>
            -- there is nothing to escape
            have unchanged : escapeTmplExpression rest = rest := by
              clear ih here
              induction rest with
              | nil => rfl
              | cons next others ih =>
                  rw [behindBrackets] at found
                  split at found
                  · contradiction
                  case isFalse apart => rw [escapeTmplExpression, if_neg apart, ih found]
            rw [unchanged, leftAsIs, behindBrackets, if_neg here, found]
            rfl
        | some behind =>
            have left : leftAsIs (first :: rest) = leftAsIs rest := by
              rw [leftAsIs, leftAsIs, behindBrackets, if_neg here, found]
              rfl
            have more : escapeTmplExpression rest ≠ [] := by
              intro empty
              have unescaped := escapeCode_escapeTmplExpression rest
              rw [empty] at unescaped
              rw [← unescaped] at found
              contradiction
            rw [left, ← ih, clear_cons more]
            · exact fun both => not_prefix_escapeTmplExpression both.2
            · intro isPrefix
              obtain ⟨same, later⟩ := List.cons_prefix_cons.mp isPrefix
              exact here (List.cons_prefix_cons.mpr ⟨same, head_escapeTmplExpression later⟩)

def ExpressionChunk.isCode : ExpressionChunk → Bool
  | .text _ => false
  | .code _ _ => true

/-- Texts without opening brackets take turns with closed pieces of code. -/
structure Alternating (chunks : List ExpressionChunk) : Prop where
  turns : chunks.IsChain (fun chunk next => chunk.isCode ≠ next.isCode)
  plain : ∀ text, .text text ∈ chunks → splitAtBrackets .opening text = none
  closed : ∀ code hasClosingBrackets,
    .code code hasClosingBrackets ∈ chunks → hasClosingBrackets = true

/-- The list starts with a text, what stands in front of brackets stops there, and the last
text is neither empty nor ends in escaped brackets.
-/
def Rebuildable : List ExpressionChunk → Prop
  | [] => True
  | [.text text] => text ≠ [] ∧ ¬Brackets.opening.escaped <:+ text
  | .text text :: .code code _ :: rest =>
      Brackets.opening.clear text = true ∧ Brackets.closing.clear (leftAsIs code) = true
        ∧ Rebuildable rest
  | _ => False

theorem Alternating.tail {chunk : ExpressionChunk}
    (alternating : Alternating (chunk :: chunks))
    : Alternating chunks where
  turns := alternating.turns.tail
  plain text member := alternating.plain text (.tail _ member)
  closed code closed member := alternating.closed code closed (.tail _ member)

/-- The first chunk, unless it is the last, ends at the first brackets. -/
theorem splitLoop_eq_cons_iff {chunk : ExpressionChunk}
    (apart : ∀ buffer, chunk :: chunks ≠ [searchingFor.chunk buffer false])
    : splitLoop text.length searchingFor [] text = chunk :: chunks
      ↔ ∃ before after,
          splitAtBrackets searchingFor text = some (before, after)
          ∧ searchingFor.chunk before true = chunk
          ∧ splitLoop after.length searchingFor.other [] after = chunks := by
  cases found : splitAtBrackets searchingFor text with
  | none =>
      rw [splitLoop_of_none (Nat.le_refl _) found]
      simp only [reduceCtorEq, false_and, exists_const, iff_false]
      split
      · simp
      · exact fun same => apart _ same.symm
  | some sides =>
      obtain ⟨before, after⟩ := sides
      rw [splitLoop_some (Nat.le_refl _) found, List.nil_append, List.cons.injEq]
      constructor
      · exact fun parts => ⟨before, after, rfl, parts.1, parts.2⟩
      · rintro ⟨_, _, same, parts⟩
        cases same
        exact parts

theorem splitLoop_text_iff {behind : List Char} (more : chunks ≠ [])
    : splitLoop (text ++ '{' :: '{' :: behind).length .opening [] (text ++ '{' :: '{' :: behind)
        = .text text :: chunks
      ↔ Brackets.opening.clear text = true
        ∧ splitLoop behind.length .closing [] behind = chunks := by
  rw [splitLoop_eq_cons_iff (by simp [more])]
  constructor
  · rintro ⟨before, after, found, same, rest⟩
    obtain rfl := ExpressionChunk.text.inj same
    have sides := List.append_cancel_left (splitAtBrackets_append found)
    obtain rfl := (List.cons.inj (List.cons.inj sides).2).2
    exact ⟨(clear_iff _).mpr found, rest⟩
  · rintro ⟨clear, rest⟩
    exact ⟨text, behind, (clear_iff _).mp clear, rfl, rest⟩

/-- A closed piece of code. What is split off has the length of the joined code, so it is that
code.
-/
theorem splitLoop_code_iff {behind : List Char}
    : splitLoop (escapeTmplExpression code ++ '}' :: '}' :: behind).length .closing []
          (escapeTmplExpression code ++ '}' :: '}' :: behind)
        = .code code true :: chunks
      ↔ Brackets.closing.clear (leftAsIs code) = true ∧ splitExpression behind = chunks := by
  rw [splitLoop_eq_cons_iff (by simp [Brackets.chunk]), ← clear_escapeTmplExpression]
  constructor
  · rintro ⟨before, after, found, same, rest⟩
    obtain rfl := (ExpressionChunk.code.inj same).1
    have lengths := length_escapeTmplExpression (splitAtBrackets_before found)
    obtain ⟨isCode, sides⟩ := List.append_inj (splitAtBrackets_append found) lengths
    obtain rfl := (List.cons.inj (List.cons.inj sides).2).2
    refine ⟨(clear_iff behind).mpr ?_, rest⟩
    rw [isCode] at found ⊢
    exact found
  · rintro ⟨clear, rest⟩
    refine ⟨_, behind, (clear_iff behind).mp clear, ?_, rest⟩
    rw [Brackets.chunk, escapeCode_escapeTmplExpression]

/-- Splitting never starts with code. -/
theorem splitExpression_ne_code {hasClosingBrackets : Bool}
    : splitExpression text ≠ .code code hasClosingBrackets :: chunks := by
  intro same
  rw [splitExpression, splitLoop_eq_cons_iff (by simp [Brackets.chunk])] at same
  obtain ⟨_, _, _, isText, _⟩ := same
  contradiction

/-- The list is rebuilt exactly if it is rebuildable, by induction on the list, a text and a
piece of code at a time.
-/
theorem splitExpression_joinExpression_iff (alternating : Alternating chunks)
    : splitExpression (joinExpression chunks) = chunks ↔ Rebuildable chunks := by
  induction chunks using Rebuildable.induct with
  | case1 => exact iff_of_true rfl trivial
  | case2 text =>
      have joined : joinExpression [.text text] = text := List.append_nil text
      rw [joined, splitExpression, splitLoop_of_none (Nat.le_refl _)
        (alternating.plain text List.mem_cons_self), Rebuildable]
      split
      case isTrue lost => exact iff_of_false (by simp) (fun kept => lost.elim kept.1 kept.2)
      case isFalse kept => exact iff_of_true rfl (not_or.mp kept)
  | case3 text code closed rest ih =>
      obtain rfl := alternating.closed code closed (by simp)
      have joined : joinExpression (.text text :: .code code true :: rest)
          = text ++ '{' :: '{'
            :: (escapeTmplExpression code ++ '}' :: '}' :: joinExpression rest) := by
        simp [joinExpression, joinChunk]
      rw [joined, splitExpression, splitLoop_text_iff (by simp), splitLoop_code_iff,
        ih alternating.tail.tail, Rebuildable]
  | case4 chunks notEmpty notText notPair =>
      rcases chunks with _ | ⟨⟨text⟩ | ⟨code, closed⟩, _ | ⟨⟨next⟩ | ⟨code', closed'⟩, rest⟩⟩
      · exact absurd rfl notEmpty
      · exact absurd rfl (notText text)
      · have turns := alternating.turns
        simp [ExpressionChunk.isCode] at turns
      · exact absurd rfl (notPair text code' closed' rest)
      · exact iff_of_false splitExpression_ne_code (by simp [Rebuildable])
      · exact iff_of_false splitExpression_ne_code (by simp [Rebuildable])
      · exact iff_of_false splitExpression_ne_code (by simp [Rebuildable])

/-- A text and a piece of code with one pair of brackets are rebuilt. -/
theorem splitExpression_joinExpression_oneString
    : splitExpression (joinExpression [.text ['a'], .code ['"', '}', '}', '"'] true])
        = [.text ['a'], .code ['"', '}', '}', '"'] true] :=
  (splitExpression_joinExpression_iff
    ⟨by simp [ExpressionChunk.isCode],
      by simp [splitAtBrackets], by simp⟩).mpr (by
        simp [Rebuildable, Brackets.clear, leftAsIs, behindBrackets, Brackets.char])

/-- Of two pairs of brackets, joining escapes the first. -/
theorem not_rebuilt_twoStrings
    : ¬∀ chunks, Alternating chunks → splitExpression (joinExpression chunks) = chunks := by
  intro rebuilt
  have kept := rebuilt [.text [], .code ['"', '}', '}', '"', '+', '"', '}', '}', '"'] true]
    ⟨by simp [ExpressionChunk.isCode], by simp [splitAtBrackets], by simp⟩
  revert kept
  decide

end N8n.Expressions
