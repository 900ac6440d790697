import N8n.Library.Text

/-! Division of a parameter's text into texts and the code between double braces
(`packages/workflow/src/extensions/expression-parser.ts`).
-/

namespace N8n.Expressions

inductive ExpressionChunk where
  | text (text : List Char)
  | code (text : List Char) (hasClosingBrackets : Bool)
  deriving DecidableEq, Repr

/-- The brackets that the loop is searching for. -/
inductive Brackets where
  | opening
  | closing
  deriving DecidableEq, Repr

namespace Brackets

/-- The character that stands twice. -/
def char : Brackets → Char
  | .opening => '{'
  | .closing => '}'

def other : Brackets → Brackets
  | .opening => .closing
  | .closing => .opening

@[simp] theorem other_opening : opening.other = closing := rfl

@[simp] theorem other_closing : closing.other = opening := rfl

end Brackets

/-- What a match leaves on its two sides. -/
structure BracketMatch where
  before : List Char
  escape : Bool
  after : List Char

/-- `/(?<escape>\\|)(?<brackets>…)/.exec(expr)`, where the leftmost match counts. -/
def execBrackets (brackets : Brackets) : List Char → Option BracketMatch
  | [] => none
  | char :: rest =>
      if char = '\\' ∧ [brackets.char, brackets.char] <+: rest then
        some ⟨[], true, rest.drop 2⟩
      else if [brackets.char, brackets.char] <+: char :: rest then
        some ⟨[], false, rest.drop 1⟩
      else
        (execBrackets brackets rest).map (fun found =>
          { found with before := char :: found.before })

/-- Replaces the first `\}}`. -/
def escapeCode : List Char → List Char
  | [] => []
  | char :: rest =>
      if char = '\\' ∧ ['}', '}'] <+: rest then rest else char :: escapeCode rest

/-- The chunk that ends where the brackets searched for stand, or at the end. -/
def Brackets.chunk (searchingFor : Brackets) (buffer : List Char) (found : Bool)
    : ExpressionChunk :=
  match searchingFor with
  | .opening => .text buffer
  | .closing => .code (escapeCode buffer) found

/-- The loop over the matches; a turn takes two characters or more, so `fuel` as long as the
text is enough.
-/
def splitLoop : Nat → Brackets → List Char → List Char → List ExpressionChunk
  | 0, _, _, _ => []
  | _ + 1, _, _, [] => []
  | fuel + 1, searchingFor, buffer, char :: rest =>
      match execBrackets searchingFor (char :: rest) with
      | none => [searchingFor.chunk (buffer ++ char :: rest) false]
      | some found =>
          if found.escape then
            splitLoop fuel searchingFor
              (buffer ++ found.before ++ ['\\', searchingFor.char, searchingFor.char])
              found.after
          else
            searchingFor.chunk (buffer ++ found.before) true
              :: splitLoop fuel searchingFor.other [] found.after

def splitExpression (expression : List Char) : List ExpressionChunk :=
  splitLoop expression.length .opening [] expression

/-- The two sides of the first brackets without a backslash in front. -/
def splitAtBrackets (brackets : Brackets) : List Char → Option (List Char × List Char)
  | first :: second :: third :: rest =>
      if first = '\\' ∧ second = brackets.char ∧ third = brackets.char then
        (splitAtBrackets brackets rest).map (fun sides =>
          (first :: second :: third :: sides.1, sides.2))
      else if first = brackets.char ∧ second = brackets.char then some ([], third :: rest)
      else
        (splitAtBrackets brackets (second :: third :: rest)).map (fun sides =>
          (first :: sides.1, sides.2))
  | [first, second] =>
      if first = brackets.char ∧ second = brackets.char then some ([], []) else none
  | _ => none

variable {brackets searchingFor : Brackets} {text before after buffer expression : List Char}

theorem splitAtBrackets_escaped (rest : List Char)
    : splitAtBrackets brackets ('\\' :: brackets.char :: brackets.char :: rest)
      = (splitAtBrackets brackets rest).map (fun sides =>
          ('\\' :: brackets.char :: brackets.char :: sides.1, sides.2)) := by
  simp [splitAtBrackets]

theorem splitAtBrackets_here (rest : List Char)
    : splitAtBrackets brackets (brackets.char :: brackets.char :: rest) = some ([], rest) := by
  have differ : brackets.char ≠ '\\' := by cases brackets <;> decide
  cases rest <;> simp [splitAtBrackets, differ]

theorem splitAtBrackets_cons {char : Char} {rest : List Char}
    (notEscaped : ¬(char = '\\' ∧ [brackets.char, brackets.char] <+: rest))
    (notHere : ¬[brackets.char, brackets.char] <+: char :: rest)
    : splitAtBrackets brackets (char :: rest)
      = (splitAtBrackets brackets rest).map (fun sides => (char :: sides.1, sides.2)) := by
  match rest with
  | [] => rfl
  | [second] =>
      simp only [List.cons_prefix_cons, List.nil_prefix, and_true] at notHere
      simp [splitAtBrackets, eq_comm] at notHere ⊢
      simpa [eq_comm] using notHere
  | second :: third :: rest =>
      simp only [List.cons_prefix_cons, List.nil_prefix, and_true, not_and] at notEscaped notHere
      rw [splitAtBrackets, if_neg, if_neg]
      · intro both
        exact notHere both.1.symm both.2.symm
      · intro all
        exact notEscaped all.1 all.2.1.symm all.2.2.symm

/-- Reading a text by its brackets: it ends, has escaped brackets in front, has brackets in
front, or has another character in front.
-/
theorem bracketCases (brackets : Brackets) {motive : List Char → Prop} (nil : motive [])
    (escaped
      : ∀ rest, motive rest → motive ('\\' :: brackets.char :: brackets.char :: rest))
    (here : ∀ rest, motive rest → motive (brackets.char :: brackets.char :: rest))
    (char
      : ∀ char rest, ¬(char = '\\' ∧ [brackets.char, brackets.char] <+: rest)
        → ¬[brackets.char, brackets.char] <+: char :: rest → motive rest
        → motive (char :: rest))
    (text : List Char)
    : motive text := by
  induction length : text.length using Nat.strong_induction_on generalizing text with
  | _ size ih =>
      subst length
      cases text with
      | nil => exact nil
      | cons first rest =>
          by_cases isEscaped : first = '\\' ∧ [brackets.char, brackets.char] <+: rest
          · obtain ⟨rfl, tail, rfl⟩ := isEscaped
            exact escaped tail (ih tail.length (by simp; omega) tail rfl)
          · by_cases isHere : [brackets.char, brackets.char] <+: first :: rest
            · obtain ⟨tail, same⟩ := isHere
              have shorter : tail.length < (first :: rest).length := by
                rw [← same]
                simp only [List.cons_append, List.nil_append, List.length_cons]
                omega
              rw [← same]
              exact here tail (ih tail.length shorter tail rfl)
            · exact char first rest isEscaped isHere (ih rest.length (by simp) rest rfl)

theorem splitAtBrackets_append (found : splitAtBrackets brackets text = some (before, after))
    : text = before ++ brackets.char :: brackets.char :: after := by
  induction text using bracketCases brackets generalizing before after with
  | nil => simp [splitAtBrackets] at found
  | escaped rest ih =>
      rw [splitAtBrackets_escaped] at found
      obtain ⟨⟨front, back⟩, inside, same⟩ := Option.map_eq_some_iff.mp found
      cases same
      simp [← ih inside]
  | here rest ih =>
      rw [splitAtBrackets_here] at found
      cases found
      rfl
  | char first rest notEscaped notHere ih =>
      rw [splitAtBrackets_cons notEscaped notHere] at found
      obtain ⟨⟨front, back⟩, inside, same⟩ := Option.map_eq_some_iff.mp found
      cases same
      simp [← ih inside]

theorem length_lt_of_splitAtBrackets
    (found : splitAtBrackets brackets text = some (before, after))
    : after.length < text.length := by
  rw [splitAtBrackets_append found]
  simp
  omega

/-- A text that ends in another character has no brackets that reach beyond it. -/
theorem splitAtBrackets_append_of_none {last : Char} (more : List Char)
    (notBracket : last ≠ brackets.char) (notBackslash : last ≠ '\\')
    (none : splitAtBrackets brackets (text ++ [last]) = none)
    : splitAtBrackets brackets
          (text ++ last :: brackets.char :: brackets.char :: more)
        = some (text ++ [last], more) := by
  induction text using bracketCases brackets with
  | nil =>
      rw [List.nil_append, splitAtBrackets_cons, splitAtBrackets_here]
      · rfl
      · exact fun both => notBackslash both.1
      · intro isPrefix
        exact notBracket (List.cons_prefix_cons.mp isPrefix).1.symm
  | escaped rest ih =>
      simp only [List.cons_append, splitAtBrackets_escaped, Option.map_eq_none_iff] at none ⊢
      simp [ih none]
  | here rest ih =>
      simp only [List.cons_append, splitAtBrackets_here] at none
      contradiction
  | char first rest notEscaped notHere ih =>
      have escapedNot : ∀ tail, ¬(first = '\\'
          ∧ [brackets.char, brackets.char] <+: rest ++ last :: tail) := by
        intro tail both
        apply notEscaped
        refine ⟨both.1, ?_⟩
        match rest, both.2 with
        | [], isPrefix => exact absurd (List.cons_prefix_cons.mp isPrefix).1.symm notBracket
        | [second], isPrefix =>
            have later := (List.cons_prefix_cons.mp isPrefix).2
            exact absurd (List.cons_prefix_cons.mp later).1.symm notBracket
        | second :: third :: rest, isPrefix =>
            simpa using isPrefix
      have hereNot : ∀ tail, ¬[brackets.char, brackets.char]
          <+: first :: (rest ++ last :: tail) := by
        intro tail isPrefix
        apply notHere
        match rest, isPrefix with
        | [], isPrefix =>
            have later := (List.cons_prefix_cons.mp isPrefix).2
            exact absurd (List.cons_prefix_cons.mp later).1.symm notBracket
        | second :: rest, isPrefix => simpa using isPrefix
      rw [List.cons_append, splitAtBrackets_cons (escapedNot _) (hereNot _)] at none ⊢
      simp [ih (Option.map_eq_none_iff.mp none)]

/-- What stands behind the brackets does not matter to what stands in front. -/
theorem splitAtBrackets_append_of_some (more : List Char)
    (found : splitAtBrackets brackets text = some (before, after))
    : splitAtBrackets brackets (text ++ more) = some (before, after ++ more) := by
  induction text using bracketCases brackets generalizing before after with
  | nil => simp [splitAtBrackets] at found
  | escaped rest ih =>
      rw [splitAtBrackets_escaped] at found
      obtain ⟨⟨front, back⟩, inside, same⟩ := Option.map_eq_some_iff.mp found
      cases same
      simp only [List.cons_append, splitAtBrackets_escaped, ih inside, Option.map_some]
  | here rest ih =>
      rw [splitAtBrackets_here] at found
      cases found
      simp only [List.cons_append, splitAtBrackets_here]
  | char first rest notEscaped notHere ih =>
      rw [splitAtBrackets_cons notEscaped notHere] at found
      obtain ⟨⟨front, back⟩, inside, same⟩ := Option.map_eq_some_iff.mp found
      cases same
      have long : 2 ≤ rest.length := by
        rw [splitAtBrackets_append inside]
        simp
        omega
      match rest, long with
      | second :: third :: rest, _ =>
          rw [List.cons_append, splitAtBrackets_cons, ih inside]
          · rfl
          · simpa using notEscaped
          · simpa using notHere

/-- The match, from the start of the text, and the first brackets that are not escaped. -/
theorem execBrackets_cases (brackets : Brackets) (text : List Char)
    : (execBrackets brackets text = none ∧ splitAtBrackets brackets text = none)
      ∨ (∃ before after,
          execBrackets brackets text = some ⟨before, false, after⟩
          ∧ splitAtBrackets brackets text = some (before, after))
      ∨ ∃ before after,
          execBrackets brackets text = some ⟨before, true, after⟩
          ∧ text = before ++ '\\' :: brackets.char :: brackets.char :: after
          ∧ splitAtBrackets brackets text
            = (splitAtBrackets brackets after).map (fun sides =>
                (before ++ '\\' :: brackets.char :: brackets.char :: sides.1, sides.2)) := by
  induction text using bracketCases brackets with
  | nil => exact .inl ⟨rfl, rfl⟩
  | escaped rest ih =>
      refine .inr (.inr ⟨[], rest, ?_, rfl, splitAtBrackets_escaped rest⟩)
      simp [execBrackets]
  | here rest ih =>
      refine .inr (.inl ⟨[], rest, ?_, splitAtBrackets_here rest⟩)
      have differ : brackets.char ≠ '\\' := by cases brackets <;> decide
      simp [execBrackets, differ]
  | char first rest notEscaped notHere ih =>
      have next : execBrackets brackets (first :: rest)
          = (execBrackets brackets rest).map (fun found =>
              { found with before := first :: found.before }) := by
        rw [execBrackets, if_neg notEscaped, if_neg notHere]
      rw [next, splitAtBrackets_cons notEscaped notHere]
      rcases ih with ⟨noMatch, none⟩ | ⟨before, after, found, split⟩
        | ⟨before, after, found, same, split⟩
      · exact .inl ⟨by rw [noMatch]; rfl, by rw [none]; rfl⟩
      · exact .inr (.inl ⟨first :: before, after, by rw [found]; rfl, by rw [split]; rfl⟩)
      · refine .inr (.inr ⟨first :: before, after, by rw [found]; rfl, by rw [same]; rfl, ?_⟩)
        rw [split, Option.map_map]
        rfl

/-- More fuel than characters makes no difference, by induction on the fuel. -/
theorem splitLoop_fuel {fuel other : Nat} (enough : text.length ≤ fuel)
    (otherEnough : text.length ≤ other)
    : splitLoop fuel searchingFor buffer text = splitLoop other searchingFor buffer text := by
  induction fuel generalizing other searchingFor buffer text with
  | zero =>
      obtain rfl := List.length_eq_zero_iff.mp (Nat.le_zero.mp enough)
      cases other <;> rfl
  | succ fuel ih =>
      cases text with
      | nil => cases other <;> rfl
      | cons char rest =>
          cases other with
          | zero => simp at otherEnough
          | succ other =>
              rcases execBrackets_cases searchingFor (char :: rest) with ⟨noMatch, _⟩
                | ⟨before, after, found, split⟩ | ⟨before, after, found, same, _⟩
              · simp only [splitLoop, noMatch]
              · have shorter := length_lt_of_splitAtBrackets split
                simp only [splitLoop, found, Bool.false_eq_true, if_false]
                rw [List.length_cons] at enough otherEnough shorter
                exact congrArg _ (ih (by omega) (by omega))
              · have shorter := congrArg List.length same
                simp only [List.length_append, List.length_cons] at shorter enough otherEnough
                simp only [splitLoop, found, if_true]
                exact ih (by omega) (by omega)

/-- Brackets that are not escaped end a chunk, by induction on the fuel. -/
theorem splitLoop_some {fuel : Nat} (enough : text.length ≤ fuel)
    (found : splitAtBrackets searchingFor text = some (before, after))
    : splitLoop fuel searchingFor buffer text
      = searchingFor.chunk (buffer ++ before) true
        :: splitLoop after.length searchingFor.other [] after := by
  have shorter := length_lt_of_splitAtBrackets found
  induction fuel generalizing buffer text before with
  | zero => omega
  | succ fuel ih =>
      cases text with
      | nil => simp [splitAtBrackets] at found
      | cons char rest =>
          rw [splitLoop]
          rcases execBrackets_cases searchingFor (char :: rest) with ⟨_, none⟩
            | ⟨front, back, matched, split⟩ | ⟨front, back, matched, same, split⟩
          · simp [none] at found
          · cases split.symm.trans found
            simp only [matched, Bool.false_eq_true, if_false]
            rw [splitLoop_fuel (by omega) (Nat.le_refl _)]
          · rw [split] at found
            obtain ⟨⟨inner, tail⟩, inside, sides⟩ := Option.map_eq_some_iff.mp found
            cases sides
            have less := congrArg List.length same
            simp only [List.length_append, List.length_cons] at less enough
            simp only [matched, if_true]
            rw [ih (by omega) inside (length_lt_of_splitAtBrackets inside)]
            simp

/-- Without such brackets there is at most one chunk, which has all that is left. -/
theorem splitLoop_none {fuel : Nat} (none : splitAtBrackets searchingFor text = none)
    : ∀ chunk ∈ splitLoop fuel searchingFor buffer text,
        chunk = searchingFor.chunk (buffer ++ text) false := by
  induction fuel generalizing buffer text with
  | zero => simp [splitLoop]
  | succ fuel ih =>
      cases text with
      | nil => simp [splitLoop]
      | cons char rest =>
          rw [splitLoop]
          rcases execBrackets_cases searchingFor (char :: rest) with ⟨noMatch, _⟩
            | ⟨front, back, matched, split⟩ | ⟨front, back, matched, same, split⟩
          · simp [noMatch]
          · simp [split] at none
          · rw [split, Option.map_eq_none_iff] at none
            simp only [matched, if_true]
            intro chunk member
            rw [ih none chunk member, same]
            simp

theorem not_infix_of_execBrackets (noMatch : execBrackets brackets text = none)
    : ¬['\\', brackets.char, brackets.char] <:+: text := by
  induction text with
  | nil => simp
  | cons first rest ih =>
      rw [execBrackets] at noMatch
      split at noMatch
      · contradiction
      · next notEscaped =>
          split at noMatch
          · contradiction
          · intro isInfix
            rcases List.infix_cons_iff.mp isInfix with isPrefix | later
            · have parts := List.cons_prefix_cons.mp isPrefix
              exact notEscaped ⟨parts.1.symm, parts.2⟩
            · exact ih (Option.map_eq_none_iff.mp noMatch) later

/-- Behind escaped brackets, the text ends in such brackets if what is left does. -/
theorem suffix_behind_escaped {front back : List Char} (some : back ≠ [])
    : ['\\', brackets.char, brackets.char]
          <:+ front ++ '\\' :: brackets.char :: brackets.char :: back
      ↔ ['\\', brackets.char, brackets.char] <:+ back := by
  have differ : brackets.char ≠ '\\' := by cases brackets <;> decide
  have ends : back <:+ front ++ '\\' :: brackets.char :: brackets.char :: back :=
    ⟨front ++ ['\\', brackets.char, brackets.char], by simp⟩
  refine ⟨fun suffix => ?_, fun suffix => suffix.trans ends⟩
  rcases List.suffix_or_suffix_of_suffix suffix ends with inside | short
  · exact inside
  · have shorter := short.length_le
    match back, some, shorter with
    | [last], _, _ =>
        have shifted : [brackets.char, brackets.char, last]
            <:+ front ++ '\\' :: brackets.char :: brackets.char :: [last] :=
          ⟨front ++ ['\\'], by simp⟩
        have same := (List.suffix_of_suffix_length_le suffix shifted (by simp)).eq_of_length rfl
        exact absurd (List.cons.inj same).1.symm differ
    | [middle, last], _, _ =>
        have shifted : [brackets.char, middle, last]
            <:+ front ++ '\\' :: brackets.char :: brackets.char :: [middle, last] :=
          ⟨front ++ ['\\', brackets.char], by simp⟩
        have same := (List.suffix_of_suffix_length_le suffix shifted (by simp)).eq_of_length rfl
        exact absurd (List.cons.inj same).1.symm differ
    | [first, middle, last], _, _ => exact (short.eq_of_length rfl) ▸ List.suffix_refl _

/-- Without brackets that are not escaped, all that is left makes one chunk, but nothing is
left of a text that ends in escaped brackets, by induction on the fuel.
-/
theorem splitLoop_of_none {fuel : Nat} (enough : text.length ≤ fuel)
    (none : splitAtBrackets searchingFor text = none)
    : splitLoop fuel searchingFor buffer text
      = if text = [] ∨ ['\\', searchingFor.char, searchingFor.char] <:+ text then []
        else [searchingFor.chunk (buffer ++ text) false] := by
  induction fuel generalizing buffer text with
  | zero =>
      obtain rfl := List.length_eq_zero_iff.mp (Nat.le_zero.mp enough)
      rfl
  | succ fuel ih =>
      cases text with
      | nil => rfl
      | cons char rest =>
          rw [splitLoop]
          rcases execBrackets_cases searchingFor (char :: rest) with ⟨noMatch, _⟩
            | ⟨front, back, matched, split⟩ | ⟨front, back, matched, same, split⟩
          · have apart : ¬(char :: rest = []
                ∨ ['\\', searchingFor.char, searchingFor.char] <:+ char :: rest) := by
              intro empty
              rcases empty with empty | suffix
              · contradiction
              · exact not_infix_of_execBrackets noMatch suffix.isInfix
            rw [noMatch, if_neg apart]
          · rw [split] at none
            contradiction
          · rw [split, Option.map_eq_none_iff] at none
            have less := congrArg List.length same
            simp only [List.length_append, List.length_cons] at less enough
            simp only [matched, if_true]
            rw [ih (by omega) none, same]
            cases back with
            | nil =>
                rw [if_pos (.inl rfl), if_pos (.inr ⟨front, rfl⟩)]
            | cons first others =>
                have some : first :: others ≠ [] := by simp
                simp only [some, suffix_behind_escaped some, false_or]
                simp

/-- There is that chunk, unless the text ends in escaped brackets. -/
theorem splitLoop_last {fuel : Nat} {last : Char} (enough : (text ++ [last]).length ≤ fuel)
    (notBracket : last ≠ searchingFor.char)
    (none : splitAtBrackets searchingFor (text ++ [last]) = none)
    : splitLoop fuel searchingFor buffer (text ++ [last])
      = [searchingFor.chunk (buffer ++ text ++ [last]) false] := by
  rw [splitLoop_of_none enough none, if_neg, List.append_assoc]
  intro ends
  rcases ends with empty | ⟨front, same⟩
  · simp at empty
  · have lasts := congrArg List.getLast? same
    simp at lasts
    exact notBracket lasts.symm

end N8n.Expressions
