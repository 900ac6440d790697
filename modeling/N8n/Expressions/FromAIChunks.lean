import N8n.Expressions.CallReader
import N8n.Expressions.SplitExpression

/-! The code in an expression that the `$fromAI` check accepts. The check knows quotes and
the division into chunks does not, so the two agree unless double braces stand inside quotes.
-/

namespace N8n.Expressions

open Text

/-- The text of a code chunk, apart from the marker, is one complete call. -/
def IsCallChunk (text : List Char) : Prop := IsFromAICall (stripMarker (trim text))

/-- Every piece between double braces is closed and is one complete call. -/
inductive HoldsCalls : List Char → Prop
  | none {text : List Char} (noBrackets : splitAtBrackets .opening text = .none)
    : HoldsCalls text
  | call {text before inside code rest : List Char}
    (opens : splitAtBrackets .opening text = some (before, inside))
    (closes : splitAtBrackets .closing inside = some (code, rest))
    (call : IsCallChunk (escapeCode code)) (later : HoldsCalls rest)
    : HoldsCalls text

/-- Where double braces surround the whole expression, no others close it earlier. Elsewhere
all double braces surround complete calls.
-/
def BracketsAgree (expression : List Char) : Prop :=
  if isWrapped (trim expression) then
    splitAtBrackets .closing (inner (trim expression)) = none
  else HoldsCalls expression

/-! ### Characters in front of a call -/

/-- No bracket, backslash or quote. -/
def IsPlain (char : Char) : Prop :=
  char ≠ '\\' ∧ char ≠ '{' ∧ char ≠ '}' ∧ ∀ quote : Quote, char ≠ quote.char

theorem IsPlain.of_isSpace {char : Char} (space : isSpace char = true) : IsPlain char := by
  refine ⟨?_, ?_, ?_, ?_⟩
  · intro same
    exact absurd (same ▸ space) (by decide)
  · intro same
    exact absurd (same ▸ space) (by decide)
  · intro same
    exact absurd (same ▸ space) (by decide)
  · intro quote same
    obtain ⟨_, _, _, _, visible⟩ := quote.char_ne
    simp [same, visible] at space

/-- The letters of the name keep their case class: none of them is a special character. -/
theorem IsPlain.of_name {char : Char} (member : char.toLower ∈ "$fromai".toList)
    : IsPlain char := by
  refine ⟨?_, ?_, ?_, ?_⟩
  · intro same
    exact absurd (same ▸ member) (by decide)
  · intro same
    exact absurd (same ▸ member) (by decide)
  · intro same
    exact absurd (same ▸ member) (by decide)
  · intro quote same
    subst same
    cases quote <;> exact absurd member (by decide)

theorem IsPlain.of_marker {char : Char} (member : char ∈ FROM_AI_AUTO_GENERATED_MARKER)
    : IsPlain char := by
  refine ⟨?_, ?_, ?_, ?_⟩
  · intro same
    exact absurd (same ▸ member) (by decide)
  · intro same
    exact absurd (same ▸ member) (by decide)
  · intro same
    exact absurd (same ▸ member) (by decide)
  · intro quote same
    subst same
    cases quote <;> exact absurd member (by decide)

variable {front back text : List Char}

theorem isPlain_of_isName (named : isName front = true) : ∀ char ∈ front, IsPlain char := by
  obtain ⟨name, spaces⟩ := isName_iff.mp named
  intro char member
  rw [← List.take_append_drop 7 front] at member
  rcases List.mem_append.mp member with inName | inSpaces
  · have lower := List.mem_map_of_mem (f := Char.toLower) inName
    exact .of_name (name ▸ lower)
  · exact .of_isSpace (spaces char inSpaces)

/-- The front of a call is plain, with whitespace and marker. -/
theorem isPlain_of_front (named : isName (strippedFront front) = true)
    : ∀ char ∈ front, IsPlain char := by
  have trimmed : ∀ (text : List Char), (∀ char ∈ trimStart text, IsPlain char)
      → ∀ char ∈ text, IsPlain char := by
    intro text plain char member
    obtain ⟨spaces, same, blank⟩ := exists_trimStart text
    rw [same] at member
    rcases List.mem_append.mp member with inSpaces | inText
    · exact .of_isSpace (blank char inSpaces)
    · exact plain char inText
  apply trimmed
  unfold strippedFront at named
  split at named
  · next marked =>
      intro char member
      obtain ⟨rest, same⟩ := marked
      rw [← same] at member named
      rw [List.drop_left] at named
      rcases List.mem_append.mp member with inMarker | inRest
      · exact .of_marker inMarker
      · exact trimmed rest (isPlain_of_isName named) char inRest
  · exact isPlain_of_isName named

theorem isPlain_of_opened (named : isName (strippedFront front) = true)
    : ∀ char ∈ front ++ ['('], IsPlain char ∨ char = '(' := by
  intro char member
  rcases List.mem_append.mp member with inFront | last
  · exact .inl (isPlain_of_front named char inFront)
  · exact .inr (List.mem_singleton.mp last)

theorem splitAtBrackets_front {brackets : Brackets}
    (plain : ∀ char ∈ front, IsPlain char ∨ char = '(') (rest : List Char)
    : splitAtBrackets brackets (front ++ rest)
      = (splitAtBrackets brackets rest).map (fun sides => (front ++ sides.1, sides.2)) := by
  induction front with
  | nil => simp
  | cons char front ih =>
      have notSpecial : char ≠ '\\' ∧ char ≠ brackets.char := by
        rcases plain char (by simp) with plain | rfl
        · exact ⟨plain.1, by cases brackets; exacts [plain.2.1, plain.2.2.1]⟩
        · exact ⟨by decide, by cases brackets <;> decide⟩
      rw [List.cons_append, splitAtBrackets_cons,
        ih (fun other member => plain other (.tail _ member)), Option.map_map]
      · rfl
      · exact fun both => notSpecial.1 both.1
      · exact fun isPrefix => notSpecial.2 (List.cons_prefix_cons.mp isPrefix).1.symm

theorem splitAtBrackets_spaces {brackets : Brackets}
    (blank : ∀ char ∈ text, isSpace char = true)
    : splitAtBrackets brackets text = none := by
  have plain : ∀ char ∈ text, IsPlain char ∨ char = '(' :=
    fun char member => .inl (.of_isSpace (blank char member))
  rw [← List.append_nil text, splitAtBrackets_front plain]
  rfl

theorem escapeCode_front (plain : ∀ char ∈ front, IsPlain char ∨ char = '(')
    (rest : List Char)
    : escapeCode (front ++ rest) = front ++ escapeCode rest := by
  induction front with
  | nil => rfl
  | cons char front ih =>
      have notBackslash : char ≠ '\\' := by
        rcases plain char (by simp) with plain | rfl
        · exact plain.1
        · decide
      rw [List.cons_append, escapeCode, if_neg (fun both => notBackslash both.1),
        ih (fun other member => plain other (.tail _ member))]
      rfl

/-! ### Reading on -/

namespace Reading

theorem next_quoted_cases (quote : Quote) (dollar : Bool) (char : Char)
    : (quoted quote dollar).next char = rejected
      ∨ (char = '\\' ∧ (quoted quote dollar).next char = escaped quote)
      ∨ (char = quote.char
        ∧ (quoted quote dollar).next char = outside (some quote.char))
      ∨ (char ≠ '\\' ∧ char ≠ quote.char
        ∧ (quoted quote dollar).next char = quoted quote (char = '$')) := by
  simp only [next]
  split
  · exact .inl rfl
  · split
    · next backslash => exact .inr (.inl ⟨backslash, rfl⟩)
    · next noEscape =>
        split
        · next close => exact .inr (.inr (.inl ⟨close, rfl⟩))
        · next noEnd => exact .inr (.inr (.inr ⟨noEscape, noEnd, rfl⟩))

theorem next_outside_cases (lastOutsideChar : Option Char) (char : Char)
    : (outside lastOutsideChar).next char = rejected
      ∨ (∃ quote : Quote,
          char = quote.char ∧ (outside lastOutsideChar).next char = quoted quote false)
      ∨ (char = ')' ∧ (outside lastOutsideChar).next char = closed)
      ∨ (char ≠ '\\' ∧ (∀ quote : Quote, char ≠ quote.char)
        ∧ ∃ last, (outside lastOutsideChar).next char = outside last) := by
  simp only [next]
  cases found : Quote.ofChar char with
  | some quote =>
      simp only
      split
      · exact .inl rfl
      · exact .inr (.inl ⟨quote, (Quote.char_of_ofChar found).symm, rfl⟩)
  | none =>
      simp only
      split
      · next close => exact .inr (.inr (.inl ⟨close, rfl⟩))
      · split
        · next literal =>
            refine .inr (.inr (.inr ⟨?_, ?_, _, rfl⟩))
            · intro same
              exact absurd (same ▸ literal) (by decide)
            · intro quote same
              rw [same, Quote.ofChar_char] at found
              contradiction
        · exact .inl rfl

/-- A backslash in front of two closing braces makes no difference to the reader. -/
theorem read_escapeCode (state : Reading) (text : List Char)
    : state.read (escapeCode text) = state.read text := by
  induction text generalizing state with
  | nil => rfl
  | cons char rest ih =>
      unfold escapeCode
      split
      · next escaped =>
          obtain ⟨rfl, tail, rfl⟩ := escaped
          have same : state.read ['\\', '}', '}'] = state.read ['}', '}'] := by
            cases state with
            | quoted quote dollar =>
                obtain ⟨_, _, notBrace, _⟩ := quote.char_ne
                simp [next, Ne.symm notBrace]
            | escaped quote =>
                obtain ⟨_, _, notBrace, _⟩ := quote.char_ne
                simp [next, Ne.symm notBrace]
            | _ => rfl
          change (state.read ['}', '}']).read tail = (state.read ['\\', '}', '}']).read tail
          rw [same]
      · exact ih (state.next char)

/-- Two readers of which at most one can end closed: one of them is inside quotes where the
other is not, or they are inside different quotes.
-/
def Apart : Reading → Reading → Prop
  | .rejected, _ => True
  | _, .rejected => True
  | .quoted first _, .quoted second _ => first ≠ second
  | .escaped first, .escaped second => first ≠ second
  | .quoted _ _, .outside _ => True
  | .outside _, .quoted _ _ => True
  | .quoted _ _, .closed => True
  | .closed, .quoted _ _ => True
  | _, _ => False

theorem apart_rejected_right (state : Reading) : Apart state rejected := by
  cases state <;> trivial

theorem Apart.symm {first second : Reading} (apart : Apart first second)
    : Apart second first := by
  cases first <;> cases second <;> first | trivial | exact Ne.symm apart

theorem apart_quoted_outside (quote : Quote) (dollar : Bool) (lastOutsideChar : Option Char)
    (char : Char)
    : Apart ((quoted quote dollar).next char) ((outside lastOutsideChar).next char) := by
  rcases next_outside_cases lastOutsideChar char with rejects | ⟨other, rfl, opens⟩
    | ⟨rfl, closes⟩ | ⟨noEscape, noQuote, last, stays⟩
  · rw [rejects]
    exact apart_rejected_right _
  · rw [opens]
    rcases next_quoted_cases quote dollar other.char with rejects | ⟨backslash, _⟩
      | ⟨_, closes⟩ | ⟨_, differ, stays⟩
    · rw [rejects]
      trivial
    · exact absurd backslash other.char_ne.1
    · rw [closes]
      trivial
    · rw [stays]
      exact fun same => differ (congrArg Quote.char same.symm)
  · rw [closes]
    rcases next_quoted_cases quote dollar ')' with rejects | ⟨backslash, _⟩
      | ⟨parenthesis, _⟩ | ⟨_, _, stays⟩
    · rw [rejects]
      trivial
    · exact absurd backslash (by decide)
    · cases quote <;> exact absurd parenthesis (by decide)
    · rw [stays]
      trivial
  · rw [stays]
    rcases next_quoted_cases quote dollar char with rejects | ⟨backslash, _⟩ | ⟨close, _⟩
      | ⟨_, _, inside⟩
    · rw [rejects]
      trivial
    · exact absurd backslash noEscape
    · exact absurd close (noQuote quote)
    · rw [inside]
      trivial

theorem apart_quoted_quoted {first second : Quote} (differ : first ≠ second)
    (dollar otherDollar : Bool) (char : Char)
    : Apart ((quoted first dollar).next char) ((quoted second otherDollar).next char) := by
  have chars : first.char ≠ second.char := fun same => differ (Quote.char_injective same)
  rcases next_quoted_cases first dollar char with rejects | ⟨backslash, escapes⟩ | ⟨rfl, closes⟩
    | ⟨noEscape, _, stays⟩
  · rw [rejects]
    trivial
  · rw [escapes]
    rcases next_quoted_cases second otherDollar char with rejects | ⟨_, alike⟩ | ⟨close, _⟩
      | ⟨noEscape, _, _⟩
    · rw [rejects]
      trivial
    · rw [alike]
      exact differ
    · exact absurd (close.symm.trans backslash) second.char_ne.1
    · exact absurd backslash noEscape
  · rw [closes]
    rcases next_quoted_cases second otherDollar first.char with rejects | ⟨backslash, _⟩
      | ⟨same, _⟩ | ⟨_, _, inside⟩
    · rw [rejects]
      trivial
    · exact absurd backslash first.char_ne.1
    · exact absurd same chars
    · rw [inside]
      trivial
  · rw [stays]
    rcases next_quoted_cases second otherDollar char with rejects | ⟨backslash, _⟩
      | ⟨_, closes⟩ | ⟨_, _, inside⟩
    · rw [rejects]
      trivial
    · exact absurd backslash noEscape
    · rw [closes]
      trivial
    · rw [inside]
      exact differ

theorem apart_quoted_closed (quote : Quote) (dollar : Bool) (char : Char)
    : Apart ((quoted quote dollar).next char) (closed.next char) := by
  cases space : isSpace char with
  | false =>
      have rejects : closed.next char = rejected := by simp [next, space]
      rw [rejects]
      exact apart_rejected_right _
  | true =>
      have stays : closed.next char = closed := by simp [next, space]
      rw [stays]
      rcases next_quoted_cases quote dollar char with rejects | ⟨rfl, _⟩ | ⟨rfl, _⟩
        | ⟨_, _, inside⟩
      · rw [rejects]
        trivial
      · exact absurd space (by decide)
      · obtain ⟨_, _, _, _, visible⟩ := quote.char_ne
        simp [visible] at space
      · rw [inside]
        trivial

theorem Apart.next {first second : Reading} (apart : Apart first second) (char : Char)
    : Apart (first.next char) (second.next char) := by
  cases first with
  | rejected => trivial
  | outside last =>
      cases second with
      | rejected => exact apart_rejected_right _
      | quoted quote dollar => exact (apart_quoted_outside quote dollar last char).symm
      | _ => exact apart.elim
  | quoted quote dollar =>
      cases second with
      | rejected => exact apart_rejected_right _
      | quoted other otherDollar => exact apart_quoted_quoted apart dollar otherDollar char
      | outside last => exact apart_quoted_outside quote dollar last char
      | closed => exact apart_quoted_closed quote dollar char
      | escaped _ => exact apart.elim
  | escaped quote =>
      cases second with
      | rejected => exact apart_rejected_right _
      | escaped other => exact apart
      | _ => exact apart.elim
  | closed =>
      cases second with
      | rejected => exact apart_rejected_right _
      | quoted quote dollar => exact (apart_quoted_closed quote dollar char).symm
      | _ => exact apart.elim

/-- Readers that are apart stay apart, by induction on the text. -/
theorem Apart.read {first second : Reading} (apart : Apart first second) (text : List Char)
    : Apart (first.read text) (second.read text) := by
  induction text generalizing first second with
  | nil => exact apart
  | cons char rest ih => exact ih (apart.next char)

/-- Plain characters leave the reader inside the same quotes. -/
theorem read_quoted_plain {quote : Quote} (dollar : Bool)
    (plain : ∀ char ∈ front, IsPlain char ∨ char = '(')
    : ∃ last, (quoted quote dollar).read front = quoted quote last := by
  induction front generalizing dollar with
  | nil => exact ⟨dollar, rfl⟩
  | cons char front ih =>
      have notSpecial : char ≠ '\\' ∧ char ≠ '{' ∧ char ≠ quote.char := by
        rcases plain char (by simp) with ⟨noEscape, noBrace, _, noQuote⟩ | rfl
        · exact ⟨noEscape, noBrace, noQuote quote⟩
        · exact ⟨by decide, by decide, by cases quote <;> decide⟩
      obtain ⟨noEscape, noBrace, noQuote⟩ := notSpecial
      rw [read_cons]
      simp only [Reading.next, noEscape, noBrace, noQuote, and_false, if_false]
      exact ih _ (fun other member => plain other (.tail _ member))

end Reading

/-- A text that ends a quoted string does not start a call of its own. -/
theorem not_readsAsCall {quote : Quote} {dollar : Bool}
    (closes : (Reading.quoted quote dollar).read text = .closed)
    : ¬ReadsAsCall text := by
  intro reads
  obtain ⟨front, back, rfl, absent, named, alsoCloses⟩ := reads
  have plain := isPlain_of_opened named
  have split : front ++ '(' :: back = (front ++ ['(']) ++ back := by simp
  obtain ⟨last, stays⟩ := Reading.read_quoted_plain dollar plain
  rw [split, Reading.read_append, stays] at closes
  have apart : Reading.Apart (.quoted quote last) (.outside none) := trivial
  have both := apart.read back
  rw [closes, alsoCloses] at both
  exact both

/-! ### Braces inside an accepted text -/

/-- A text that closes a call ends in its parenthesis or in whitespace. -/
theorem exists_last_of_closed {lastOutsideChar : Option Char}
    (closes : (Reading.outside lastOutsideChar).read text = .closed)
    : ∃ init last, text = init ++ [last] ∧ (last = ')' ∨ isSpace last = true) := by
  obtain ⟨arguments, rest, rfl, _, blank⟩ := arguments_of_read.1 lastOutsideChar closes
  cases rest using List.reverseRecOn with
  | nil => exact ⟨arguments, ')', rfl, .inl rfl⟩
  | append_singleton rest last =>
      exact ⟨arguments ++ ')' :: rest, last, by simp, .inr (blank last (by simp))⟩

theorem exists_last_of_quoted {quote : Quote} {dollar : Bool}
    (closes : (Reading.quoted quote dollar).read text = .closed)
    : ∃ init last, text = init ++ [last] ∧ (last = ')' ∨ isSpace last = true) := by
  obtain ⟨inside, rest, rfl, _, _, later⟩ := arguments_of_read.2 quote dollar closes
  obtain ⟨init, last, rfl, ends⟩ := exists_last_of_closed later
  exact ⟨inside ++ quote.char :: init, last, by simp, ends⟩

theorem last_notBracket {last : Char} (ends : last = ')' ∨ isSpace last = true)
    (brackets : Brackets)
    : last ≠ brackets.char ∧ last ≠ '\\' := by
  rcases ends with rfl | space
  · exact ⟨by cases brackets <;> decide, by decide⟩
  · obtain ⟨noEscape, noOpen, noClose, _⟩ := IsPlain.of_isSpace space
    exact ⟨by cases brackets; exacts [noOpen, noClose], noEscape⟩

theorem Reading.next_brace (state : Reading)
    : state.next '{' = .rejected ∨ ∃ quote, state.next '{' = .quoted quote false := by
  cases state with
  | quoted quote dollar =>
      obtain ⟨_, notBrace, _⟩ := quote.char_ne
      rcases Reading.next_quoted_cases quote dollar '{' with rejects | ⟨backslash, _⟩
        | ⟨close, _⟩ | ⟨_, _, stays⟩
      · exact .inl rejects
      · exact absurd backslash (by decide)
      · exact absurd close.symm notBrace
      · exact .inr ⟨quote, stays⟩
  | escaped quote => exact .inr ⟨quote, rfl⟩
  | _ => exact .inl rfl

theorem quoted_of_braces {state : Reading} (closes : state.read ('{' :: '{' :: text) = .closed)
    : ∃ quote, (Reading.quoted quote false).read text = .closed := by
  rw [Reading.read_cons, Reading.read_cons] at closes
  rcases (state.next '{').next_brace with rejects | ⟨quote, inside⟩
  · rw [rejects, Reading.read_rejected] at closes
    contradiction
  · exact ⟨quote, inside ▸ closes⟩

theorem not_closed_of_closed {state : Reading} (closed : state = .closed) (rest : List Char)
    : state.read ('}' :: rest) ≠ .closed := by
  subst closed
  change Reading.rejected.read rest ≠ .closed
  simp

/-! ### Expressions in double braces -/

/-- What the check reads: the text inside the double braces around it, if it has them. -/
def checkedText (expression : List Char) : List Char :=
  if isWrapped (trim expression) then inner (trim expression) else expression

theorem isEmpty_trim (text : List Char) : (trim text).isEmpty = text.all isSpace := by
  rw [Bool.eq_iff_iff, List.isEmpty_iff, List.all_eq_true, trim, trimEnd,
    List.rdropWhile_eq_nil_iff]
  constructor
  · intro all
    obtain ⟨spaces, same, spacesBlank⟩ := exists_trimStart text
    intro char member
    rw [same] at member
    exact (List.mem_append.mp member).elim (spacesBlank char) (all char)
  · exact fun all char member => all char (mem_of_mem_trimStart member)

/-- The check accepts the expressions whose text is one complete call. -/
theorem isFromAIOnlyExpression_iff (expression : List Char)
    : isFromAIOnlyExpression ('=' :: expression) = true
      ↔ IsCallChunk (checkedText expression) := by
  have accepted : isFromAIOnlyExpression ('=' :: expression)
      = ((fromAIPattern (stripMarker (trim (checkedText expression)))).bind
          (walkArguments none none)).any (fun remainder => remainder.all isSpace) := by
    have stripped : (if ['='] <+: '=' :: expression then ('=' :: expression).drop 1
        else '=' :: expression) = expression :=
      if_pos (List.cons_prefix_cons.mpr ⟨rfl, List.nil_prefix⟩)
    have text : (if isWrapped (trim expression) then trim (inner (trim expression))
        else trim expression) = trim (checkedText expression) := by
      unfold checkedText
      split <;> rfl
    unfold isFromAIOnlyExpression
    simp only
    rw [stripped, text]
    cases (fromAIPattern (stripMarker (trim (checkedText expression)))).bind
        (walkArguments none none) with
    | none => rfl
    | some remainder => exact isEmpty_trim remainder
  rw [accepted, accepts_iff, IsCallChunk, isFromAICall_iff]

/-- All code chunks are complete calls. -/
def ChunksAreCalls (chunks : List ExpressionChunk) : Prop :=
  ∀ text closed, .code text closed ∈ chunks → IsCallChunk text

theorem chunksAreCalls_text {chunks : List ExpressionChunk}
    : ChunksAreCalls (.text text :: chunks) ↔ ChunksAreCalls chunks := by
  simp [ChunksAreCalls]

theorem chunksAreCalls_code {closed : Bool} {chunks : List ExpressionChunk}
    : ChunksAreCalls (.code text closed :: chunks)
      ↔ IsCallChunk text ∧ ChunksAreCalls chunks := by
  constructor
  · intro all
    exact ⟨all text closed (by simp), fun other flag member =>
      all other flag (.tail _ member)⟩
  · intro both other flag member
    rcases List.mem_cons.mp member with same | later
    · obtain ⟨rfl, _⟩ := ExpressionChunk.code.inj same
      exact both.1
    · exact both.2 other flag later

/-- Without opening braces there is no code. -/
theorem chunksAreCalls_of_none {fuel : Nat} {buffer : List Char}
    (none : splitAtBrackets .opening text = none)
    : ChunksAreCalls (splitLoop fuel .opening buffer text) := by
  intro code closed member
  have same := splitLoop_none none _ member
  contradiction

theorem exists_inner (wrapped : isWrapped (trim text) = true)
    : ∃ before after,
        text = before ++ '{' :: '{' :: (inner (trim text) ++ '}' :: '}' :: after)
        ∧ (∀ char ∈ before, isSpace char = true)
        ∧ ∀ char ∈ after, isSpace char = true := by
  obtain ⟨before, after, same, blankBefore, blankAfter⟩ := exists_trim text
  obtain ⟨opens, closes⟩ := Bool.and_eq_true_iff.mp wrapped
  obtain ⟨rest, starts⟩ : ['{', '{'] <+: trim text := of_decide_eq_true opens
  obtain ⟨init, ends⟩ : ['}', '}'] <:+ trim text := of_decide_eq_true closes
  refine ⟨before, after, ?_, blankBefore, blankAfter⟩
  rw [← starts] at ends
  match init, ends with
  | [], ends => exact absurd (List.cons.inj ends).1 (by decide)
  | [_], ends =>
      obtain ⟨_, second⟩ := List.cons.inj ends
      exact absurd (List.cons.inj second).1 (by decide)
  | first :: second :: body, ends =>
      have behind : rest = body ++ ['}', '}'] := by
        simpa using (List.cons.inj (List.cons.inj ends).2).2.symm
      have inside : inner (trim text) = body := by
        rw [← starts, behind]
        simp [inner, List.rdrop]
      rw [inside]
      conv_lhs => rw [same, ← starts, behind]
      simp

/-- A text up to braces that close inside of its call is no call. -/
theorem not_isCallChunk_of_cut {before after : List Char} (reads : ReadsAsCall text)
    (found : splitAtBrackets .closing text = some (before, after))
    : ¬IsCallChunk (escapeCode before) := by
  intro call
  obtain ⟨front, back, rfl, absent, named, closes⟩ := reads
  have plain := isPlain_of_opened named
  have split : front ++ '(' :: back = (front ++ ['(']) ++ back := by simp
  rw [split, splitAtBrackets_front plain] at found
  obtain ⟨⟨arguments, rest⟩, inside, sides⟩ := Option.map_eq_some_iff.mp found
  cases sides
  rw [escapeCode_front plain, List.append_assoc, IsCallChunk, isFromAICall_iff] at call
  obtain ⟨otherFront, otherBack, same, otherAbsent, _, otherCloses⟩ := call
  obtain ⟨_, rfl⟩ := first_unique absent otherAbsent same
  change (Reading.outside none).read (escapeCode arguments) = .closed at otherCloses
  rw [Reading.read_escapeCode] at otherCloses
  have parts := splitAtBrackets_append inside
  rw [parts, Reading.read_append] at closes
  exact not_closed_of_closed otherCloses _ closes

/-- Removing the backslash of escaped braces leaves a call a call. -/
theorem isCallChunk_escapeCode (reads : ReadsAsCall text) : IsCallChunk (escapeCode text) := by
  obtain ⟨front, back, rfl, absent, named, closes⟩ := reads
  have plain := isPlain_of_opened named
  have split : front ++ '(' :: back = (front ++ ['(']) ++ back := by simp
  rw [IsCallChunk, isFromAICall_iff, split, escapeCode_front plain]
  exact ⟨front, escapeCode back, by simp, absent, named,
    (Reading.read_escapeCode _ back).symm ▸ closes⟩

/-- A wrapped expression is one chunk of code if no braces close it earlier. -/
theorem chunksAreCalls_wrapped {expression : List Char}
    (wrapped : isWrapped (trim expression) = true)
    (reads : ReadsAsCall (inner (trim expression)))
    : ChunksAreCalls (splitExpression expression)
      ↔ splitAtBrackets .closing (inner (trim expression)) = none := by
  obtain ⟨before, after, same, blankBefore, blankAfter⟩ := exists_inner wrapped
  generalize inner (trim expression) = body at same reads ⊢
  have opens : splitAtBrackets .opening expression
      = some (before, body ++ '}' :: '}' :: after) := by
    rw [same, splitAtBrackets_front
      (fun char member => .inl (.of_isSpace (blankBefore char member)))]
    have here : splitAtBrackets .opening ('{' :: '{' :: (body ++ '}' :: '}' :: after))
        = some ([], body ++ '}' :: '}' :: after) :=
      splitAtBrackets_here _
    rw [here, Option.map_some, List.append_nil]
  unfold splitExpression
  rw [splitLoop_some (Nat.le_refl _) opens, Brackets.other_opening]
  refine chunksAreCalls_text.trans ?_
  cases found : splitAtBrackets .closing body with
  | none =>
      have closed : splitAtBrackets .closing (body ++ '}' :: '}' :: after)
          = some (body, after) := by
        obtain ⟨front, back, rfl, _, _, closes⟩ := reads
        obtain ⟨init, last, rfl, ends⟩ := exists_last_of_closed closes
        obtain ⟨notBracket, notBackslash⟩ := last_notBracket ends .closing
        have parts : front ++ '(' :: (init ++ [last]) = (front ++ '(' :: init) ++ [last] := by
          simp
        rw [parts] at found ⊢
        rw [List.append_assoc]
        exact splitAtBrackets_append_of_none after notBracket notBackslash found
      simp only [iff_true]
      rw [splitLoop_some (Nat.le_refl _) closed]
      exact chunksAreCalls_code.mpr ⟨isCallChunk_escapeCode reads,
        chunksAreCalls_of_none (splitAtBrackets_spaces blankAfter)⟩
  | some sides =>
      obtain ⟨code, rest⟩ := sides
      have early := splitAtBrackets_append_of_some ('}' :: '}' :: after) found
      simp only [reduceCtorEq, iff_false]
      rw [splitLoop_some (Nat.le_refl _) early]
      intro all
      exact not_isCallChunk_of_cut reads found (chunksAreCalls_code.mp all).1

/-! ### Expressions without double braces around them -/

/-- The texts that an accepted expression ends in: some reader closes on them, perhaps behind
a front without special characters.
-/
def Closes (text : List Char) : Prop :=
  ∃ front state back,
    text = front ++ back
    ∧ (∀ char ∈ front, IsPlain char ∨ char = '(')
    ∧ Reading.read state back = .closed

theorem ReadsAsCall.closes (reads : ReadsAsCall text) : Closes text := by
  obtain ⟨front, back, rfl, _, named, closed⟩ := reads
  exact ⟨front ++ ['('], .outside none, back, by simp, isPlain_of_opened named, closed⟩

/-- Behind opening braces, the reader is inside quotes. -/
theorem Closes.inside {before inside : List Char} (closes : Closes text)
    (opens : splitAtBrackets .opening text = some (before, inside))
    : ∃ quote, (Reading.quoted quote false).read inside = .closed := by
  obtain ⟨front, state, back, rfl, plain, closed⟩ := closes
  rw [splitAtBrackets_front plain] at opens
  obtain ⟨⟨text, rest⟩, found, sides⟩ := Option.map_eq_some_iff.mp opens
  cases sides
  rw [splitAtBrackets_append found, Reading.read_append] at closed
  exact quoted_of_braces closed

/-- The chunks of such a text are complete calls exactly if it holds complete calls, by
induction on its length.
-/
theorem chunksAreCalls_iff_holdsCalls {fuel : Nat} (enough : text.length ≤ fuel)
    (closes : Closes text)
    : ChunksAreCalls (splitLoop fuel .opening [] text) ↔ HoldsCalls text := by
  induction length : text.length using Nat.strong_induction_on generalizing text fuel with
  | _ size ih =>
      subst length
      cases opens : splitAtBrackets .opening text with
      | none =>
          simp only [chunksAreCalls_of_none opens, true_iff]
          exact .none opens
      | some sides =>
          obtain ⟨before, inside⟩ := sides
          obtain ⟨quote, closed⟩ := closes.inside opens
          have shorter := length_lt_of_splitAtBrackets opens
          rw [splitLoop_some enough opens, Brackets.other_opening]
          refine chunksAreCalls_text.trans ?_
          cases found : splitAtBrackets .closing inside with
          | none =>
              -- the code goes on to the end of the expression, outside of the quotes
              have notCall : ¬IsCallChunk (escapeCode inside) := by
                rw [IsCallChunk, isFromAICall_iff]
                rw [← Reading.read_escapeCode] at closed
                exact not_readsAsCall closed
              obtain ⟨init, last, rfl, ends⟩ := exists_last_of_quoted closed
              obtain ⟨notBracket, _⟩ := last_notBracket ends .closing
              constructor
              · intro all
                rw [splitLoop_last (Nat.le_refl _) notBracket found] at all
                exact absurd (chunksAreCalls_code.mp all).1 notCall
              · intro holds
                cases holds with
                | none noBrackets => simp [opens] at noBrackets
                | call otherOpens otherCloses _ _ =>
                    cases opens.symm.trans otherOpens
                    simp [found] at otherCloses
          | some sides =>
              obtain ⟨code, rest⟩ := sides
              have shorterRest := length_lt_of_splitAtBrackets found
              have restCloses : Closes rest := by
                rw [splitAtBrackets_append found, Reading.read_append] at closed
                exact ⟨[], _, rest, rfl, by simp, closed⟩
              rw [splitLoop_some (Nat.le_refl _) found]
              refine chunksAreCalls_code.trans ?_
              rw [Brackets.other_closing,
                ih rest.length (by omega) (Nat.le_refl _) restCloses rfl]
              constructor
              · intro both
                exact .call opens found both.1 both.2
              · intro holds
                cases holds with
                | none noBrackets => simp [opens] at noBrackets
                | call otherOpens otherCloses call later =>
                    cases opens.symm.trans otherOpens
                    obtain ⟨rfl, rfl⟩ :=
                      Prod.mk.inj (Option.some.inj (found.symm.trans otherCloses))
                    exact ⟨call, later⟩

end N8n.Expressions
