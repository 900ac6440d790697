import N8n.Expressions.IsFromAIOnlyExpression

/-! Reading the arguments of a `$fromAI` call one character at a time. The walk of the check
and the grammar of complete calls both come down to this reader, and the reader says what a
text does that is cut off or goes on.
-/

namespace N8n.Expressions

open Text

/-- Where the reader is in the arguments. Inside quotes, it knows whether the last character
was a dollar sign that may start an interpolation.
-/
inductive Reading where
  | outside (lastOutsideChar : Option Char)
  | quoted (quote : Quote) (dollar : Bool)
  | escaped (quote : Quote)
  | closed
  | rejected
  deriving DecidableEq, Repr

namespace Reading

def next : Reading → Char → Reading
  | .outside lastOutsideChar, char =>
      match Quote.ofChar char with
      | some quote =>
          if quote = .backtick ∧ lastOutsideChar.any isWordChar then .rejected
          else .quoted quote false
      | none =>
          if char = ')' then .closed
          else if isLiteralChar char then
            .outside (if isSpace char then lastOutsideChar else some char)
          else .rejected
  | .quoted quote dollar, char =>
      if quote = .backtick ∧ dollar ∧ char = '{' then .rejected
      else if char = '\\' then .escaped quote
      else if char = quote.char then .outside (some quote.char)
      else .quoted quote (char = '$')
  | .escaped quote, _ => .quoted quote false
  | .closed, char => if isSpace char then .closed else .rejected
  | .rejected, _ => .rejected

def read (state : Reading) (text : List Char) : Reading := text.foldl next state

@[simp] theorem read_nil (state : Reading) : state.read [] = state := rfl

@[simp] theorem read_cons (state : Reading) (char : Char) (rest : List Char)
    : state.read (char :: rest) = (state.next char).read rest := rfl

theorem read_append (state : Reading) (first second : List Char)
    : state.read (first ++ second) = (state.read first).read second :=
  List.foldl_append

@[simp] theorem read_rejected (text : List Char) : rejected.read text = rejected := by
  induction text with
  | nil => rfl
  | cons _ _ ih => exact ih

theorem read_closed (text : List Char)
    : closed.read text = if text.all isSpace then closed else rejected := by
  induction text with
  | nil => rfl
  | cons char rest ih =>
      cases space : isSpace char with
      | true => simp [next, space, ih]
      | false => simp [next, space]

end Reading

theorem Quote.ofChar_char (quote : Quote) : Quote.ofChar quote.char = some quote := by
  cases quote <;> decide

theorem Quote.char_of_ofChar {char : Char} {quote : Quote}
    (found : Quote.ofChar char = some quote)
    : quote.char = char := by
  simpa using List.find?_some found

theorem Quote.char_ne (quote : Quote)
    : quote.char ≠ '\\' ∧ quote.char ≠ '{' ∧ quote.char ≠ '}' ∧ quote.char ≠ '$'
      ∧ isSpace quote.char = false := by
  cases quote <;> decide

theorem Quote.char_injective : Function.Injective Quote.char := by
  intro first second same
  cases first <;> cases second <;> first | rfl | exact absurd same (by decide)

/-- The reader where the walk is. -/
def Reading.ofWalk : Option Quote → Option Char → Reading
  | some quote, _ => .quoted quote false
  | none, lastOutsideChar => .outside lastOutsideChar

/-- A dollar sign only matters in front of a brace. -/
theorem Reading.read_dollar {quote : Quote} {dollar : Bool} {rest : List Char}
    (noInterpolation : ¬(quote = .backtick ∧ dollar = true ∧ rest.head? = some '{'))
    : (Reading.quoted quote dollar).read rest = .closed
      ↔ (Reading.quoted quote false).read rest = .closed := by
  cases rest with
  | nil => simp
  | cons char rest =>
      have same : (Reading.quoted quote dollar).next char
          = (Reading.quoted quote false).next char := by
        have plain : ¬(quote = .backtick ∧ dollar = true ∧ char = '{') := by
          simpa using noInterpolation
        simp only [next, plain, if_false, Bool.false_eq_true, false_and, and_false]
      rw [read_cons, read_cons, same]

/-- The walk finds the end where the reader closes, by induction along the walk. Inside
quotes, the last character outside is the opening quote.
-/
theorem walkArguments_iff (inQuotes : Option Quote) (lastOutsideChar : Option Char)
    (text : List Char)
    (opened : ∀ quote, inQuotes = some quote → lastOutsideChar = some quote.char)
    : (walkArguments inQuotes lastOutsideChar text).any (fun remainder =>
          remainder.all isSpace) = true
      ↔ (Reading.ofWalk inQuotes lastOutsideChar).read text = .closed := by
  induction inQuotes, lastOutsideChar, text using walkArguments.induct with
  | case1 inQuotes lastOutsideChar =>
      cases inQuotes <;> simp [walkArguments, Reading.ofWalk]
  | case2 quote lastOutsideChar char rest ih =>
      obtain ⟨notBackslash, _, _, _⟩ := quote.char_ne
      rw [walkArguments, ih opened]
      simp [Reading.ofWalk, Reading.next]
  | case3 quote lastOutsideChar char rest notEscape interpolation =>
      obtain ⟨rfl, rfl, brace⟩ := interpolation
      obtain ⟨rest, rfl⟩ := List.head?_eq_some_iff.mp brace
      rw [walkArguments, if_pos ⟨rfl, rfl, rfl⟩]
      · simp [Reading.ofWalk, Reading.next, Quote.char]
      · exact notEscape
  | case4 quote lastOutsideChar rest notEscape plain ih =>
      obtain ⟨notBackslash, _⟩ := quote.char_ne
      rw [walkArguments, if_neg plain, if_pos rfl, ih (by simp)]
      · simp [Reading.ofWalk, Reading.next, notBackslash, opened quote rfl]
      · exact notEscape
  | case5 quote lastOutsideChar char rest notEscape plain notEnd ih =>
      rw [walkArguments, if_neg plain, if_neg notEnd, ih opened]
      · by_cases backslash : char = '\\'
        · subst backslash
          cases rest with
          | nil => simp [Reading.ofWalk, Reading.next]
          | cons second rest => exact (notEscape second rest rfl rfl).elim
        · simp only [Reading.ofWalk, Reading.read_cons, Reading.next, Bool.false_eq_true,
            false_and, and_false, if_false, backslash, notEnd]
          exact (Reading.read_dollar (by simpa using plain)).symm
      · exact notEscape
  | case6 lastOutsideChar char rest quote found tagged =>
      simp only [walkArguments, found, if_pos tagged, Reading.ofWalk, Reading.read_cons,
        Reading.next, Reading.read_rejected]
      simp
  | case7 lastOutsideChar char rest quote found untagged ih =>
      simp only [walkArguments, found, if_neg untagged, Reading.ofWalk, Reading.read_cons,
        Reading.next]
      refine ih fun other same => ?_
      cases same
      exact congrArg some (Quote.char_of_ofChar found).symm
  | case8 lastOutsideChar rest found =>
      simp only [walkArguments, found, if_true, Reading.ofWalk, Reading.read_cons,
        Reading.next, Option.any_some, Reading.read_closed]
      cases rest.all isSpace <;> simp
  | case9 lastOutsideChar char rest found notEnd literal ih =>
      simp only [walkArguments, found, notEnd, literal, if_true, if_false, Reading.ofWalk,
        Reading.read_cons, Reading.next]
      exact ih (by simp)
  | case10 lastOutsideChar char rest found notEnd notLiteral =>
      simp only [walkArguments, found, notEnd, notLiteral, if_false, Reading.ofWalk,
        Reading.read_cons, Reading.next]
      simp

theorem QuotedText.read {quote : Quote} {text : List Char} (inside : QuotedText quote text)
    (rest : List Char)
    : (Reading.quoted quote false).read (text ++ quote.char :: rest)
      = (Reading.outside (some quote.char)).read rest := by
  obtain ⟨notBackslash, notBrace, _⟩ := quote.char_ne
  induction inside with
  | nil => simp [Reading.next, notBackslash]
  | escaped char tail ih => simpa [Reading.next] using ih
  | @plain char rest' noEnd noEscape noInterpolation tail ih =>
      simp only [List.cons_append, Reading.read_cons, Reading.next, Bool.false_eq_true,
        false_and, and_false, if_false, noEscape, noEnd]
      rw [← ih]
      cases rest' with
      | nil => simp [Reading.next, notBackslash, notBrace]
      | cons second rest' =>
          have plain : ¬(quote = .backtick ∧ char = '$' ∧ second = '{') := by
            simpa using noInterpolation
          simp [Reading.next, plain]

/-- The reader closes at the parenthesis behind complete arguments. -/
theorem Arguments.read {lastOutsideChar : Option Char} {arguments : List Char}
    (complete : Arguments lastOutsideChar arguments) (rest : List Char)
    : (Reading.outside lastOutsideChar).read (arguments ++ ')' :: rest)
      = Reading.closed.read rest := by
  induction complete with
  | nil => simp [Reading.next, show Quote.ofChar ')' = none by decide]
  | @literal lastOutsideChar char tail allowed _ ih =>
      have noQuote : Quote.ofChar char = none := by
        cases found : Quote.ofChar char with
        | none => rfl
        | some quote =>
            rw [← Quote.char_of_ofChar found] at allowed
            cases quote <;> exact absurd allowed (by decide)
      have notEnd : char ≠ ')' := by
        intro same
        subst same
        exact absurd allowed (by decide)
      simp only [List.cons_append, Reading.read_cons, Reading.next, noQuote, notEnd, if_false,
        allowed, if_true]
      exact ih
  | @quoted lastOutsideChar quote text tail untagged inside _ ih =>
      simp only [List.cons_append, List.append_assoc, Reading.read_cons, Reading.next,
        quote.ofChar_char, if_neg untagged]
      rw [inside.read]
      exact ih

/-- A text on which the reader closes has complete arguments in front, by induction on its
length; a string in it is read up to its closing quote.
-/
theorem arguments_of_read {text : List Char}
    : (∀ lastOutsideChar, (Reading.outside lastOutsideChar).read text = .closed
        → ∃ arguments rest,
            text = arguments ++ ')' :: rest
            ∧ Arguments lastOutsideChar arguments
            ∧ ∀ char ∈ rest, isSpace char = true)
      ∧ (∀ quote dollar, (Reading.quoted quote dollar).read text = .closed
        → ∃ inside rest,
            text = inside ++ quote.char :: rest
            ∧ QuotedText quote inside
            ∧ ¬(quote = .backtick ∧ dollar = true ∧ inside.head? = some '{')
            ∧ (Reading.outside (some quote.char)).read rest = .closed) := by
  induction length : text.length using Nat.strong_induction_on generalizing text with
  | _ size ih =>
      subst length
      cases text with
      | nil => simp
      | cons char rest =>
          obtain ⟨outside, quoted⟩ := ih rest.length (by simp) rfl
          refine ⟨?_, ?_⟩
          · intro lastOutsideChar closes
            simp only [Reading.read_cons, Reading.next] at closes
            cases found : Quote.ofChar char with
            | some quote =>
                obtain rfl := Quote.char_of_ofChar found
                by_cases tagged : quote = .backtick ∧ lastOutsideChar.any isWordChar = true
                · simp only [found, if_pos tagged, Reading.read_rejected] at closes
                  contradiction
                · simp only [found, if_neg tagged] at closes
                  obtain ⟨inside, behind, rfl, text, _, later⟩ := quoted quote false closes
                  obtain ⟨arguments, spaces, rfl, complete, blank⟩ :=
                    (ih behind.length (by simp; omega) rfl).1 _ later
                  exact ⟨quote.char :: inside ++ quote.char :: arguments, spaces, by simp,
                    .quoted tagged text complete, blank⟩
            | none =>
                simp only [found] at closes
                split at closes
                · next close =>
                    subst close
                    simp only [Reading.read_closed] at closes
                    split at closes
                    · next blank =>
                        exact ⟨[], rest, rfl, .nil, List.all_eq_true.mp blank⟩
                    · contradiction
                · split at closes
                  · next literal =>
                      obtain ⟨arguments, spaces, rfl, complete, blank⟩ := outside _ closes
                      exact ⟨char :: arguments, spaces, rfl, .literal literal complete, blank⟩
                  · simp at closes
          · intro quote dollar closes
            simp only [Reading.read_cons, Reading.next] at closes
            split at closes
            · simp at closes
            · next noInterpolation =>
                split at closes
                · next backslash =>
                    subst backslash
                    cases rest with
                    | nil => simp at closes
                    | cons second rest =>
                        have shorter : rest.length < ('\\' :: second :: rest).length := by
                          simp only [List.length_cons]
                          omega
                        obtain ⟨inside, behind, rfl, text, _, later⟩ :=
                          (ih rest.length shorter rfl).2 quote false closes
                        exact ⟨'\\' :: second :: inside, behind, rfl, .escaped second text,
                          by simp, later⟩
                · next noEscape =>
                    split at closes
                    · next close =>
                        subst close
                        exact ⟨[], rest, rfl, .nil, by simp, closes⟩
                    · next noEnd =>
                        obtain ⟨inside, behind, rfl, text, plain, later⟩ :=
                          quoted quote _ closes
                        refine ⟨char :: inside, behind, rfl, ?_, ?_, later⟩
                        · exact .plain noEnd noEscape (by simpa using plain) text
                        · simpa using noInterpolation

/-- The front of a call, up to its parenthesis, without whitespace and marker in front. -/
def strippedFront (front : List Char) : List Char :=
  if FROM_AI_AUTO_GENERATED_MARKER <+: trimStart front then
    trimStart ((trimStart front).drop FROM_AI_AUTO_GENERATED_MARKER.length)
  else trimStart front

/-- The name in any case, and whitespace behind it. -/
def isName (front : List Char) : Bool :=
  (front.take 7).map Char.toLower = "$fromai".toList && (front.drop 7).all isSpace

/-- The text reads as one call, with whitespace around it and perhaps the marker. -/
def ReadsAsCall (text : List Char) : Prop :=
  ∃ front back,
    text = front ++ '(' :: back
    ∧ '(' ∉ front
    ∧ isName (strippedFront front) = true
    ∧ (Reading.outside none).read back = .closed

variable {front back text : List Char}

theorem not_mem_strippedFront (absent : '(' ∉ front) : '(' ∉ strippedFront front := by
  have trimmed : '(' ∉ trimStart front := fun member => absent (mem_of_mem_trimStart member)
  unfold strippedFront
  split
  · intro member
    exact trimmed (List.mem_of_mem_drop (mem_of_mem_trimStart member))
  · exact trimmed

theorem stripMarker_trim (front back : List Char)
    : stripMarker (trim (front ++ '(' :: back)) = strippedFront front ++ '(' :: trimEnd back := by
  have visible : isSpace '(' = false := by decide
  have outside : '(' ∉ FROM_AI_AUTO_GENERATED_MARKER := by decide
  rw [trim_around visible, stripMarker, strippedFront]
  simp only [isPrefix_around outside]
  split
  · next marked =>
      rw [List.drop_append_of_le_length marked.length_le, trim_around visible, trimEnd_trimEnd]
  · rfl

theorem isName_iff
    : isName front = true
      ↔ (front.take 7).map Char.toLower = "$fromai".toList
        ∧ ∀ char ∈ front.drop 7, isSpace char = true := by
  unfold isName
  rw [Bool.and_eq_true_iff, decide_eq_true_iff, List.all_eq_true]

theorem fromAIPattern_around (absent : '(' ∉ front)
    : fromAIPattern (front ++ '(' :: back) = if isName front then some back else none := by
  unfold fromAIPattern
  by_cases long : 7 ≤ front.length
  · have visible : isSpace '(' = false := by decide
    rw [List.take_append_of_le_length long, List.drop_append_of_le_length long,
      trimStart_around visible]
    by_cases named : (front.take 7).map Char.toLower = "$fromai".toList
    · rw [if_pos named]
      cases blank : trimStart (front.drop 7) with
      | nil => rw [if_pos (isName_iff.mpr ⟨named, List.dropWhile_eq_nil_iff.mp blank⟩)]; rfl
      | cons first rest =>
          have notName : ¬isName front = true := by
            intro name
            have empty := List.dropWhile_eq_nil_iff.mpr (isName_iff.mp name).2
            rw [trimStart, empty] at blank
            contradiction
          have differ : first ≠ '(' := by
            intro same
            subst same
            have inside : '(' ∈ trimStart (front.drop 7) := by simp [blank]
            exact absent (List.mem_of_mem_drop (mem_of_mem_trimStart inside))
          rw [if_neg notName]
          simp [differ]
    · rw [if_neg named, if_neg (fun name => named (isName_iff.mp name).1)]
  · have short : front.length < 7 := Nat.lt_of_not_le long
    have parenthesis : '(' ∈ (front ++ '(' :: back).take 7 := by
      rw [List.take_append, List.take_of_length_le (Nat.le_of_lt short)]
      obtain ⟨more, same⟩ := Nat.exists_eq_add_of_lt short
      simp [show 7 - front.length = more + 1 by omega]
    have misnamed : ((front ++ '(' :: back).take 7).map Char.toLower ≠ "$fromai".toList := by
      intro same
      have member := List.mem_map_of_mem (f := Char.toLower) parenthesis
      rw [same] at member
      exact absurd member (by decide)
    have notName : ¬isName front = true := by
      intro name
      have length := congrArg List.length (isName_iff.mp name).1
      rw [List.length_map, List.length_take, show "$fromai".toList.length = 7 by decide] at length
      omega
    rw [if_neg misnamed, if_neg notName]

/-- Whitespace neither closes a call nor opens it again. -/
theorem Reading.read_spaces {spaces : List Char} (blank : ∀ char ∈ spaces, isSpace char = true)
    (state : Reading)
    : state.read spaces = .closed ↔ state = .closed := by
  induction spaces generalizing state with
  | nil => rfl
  | cons char rest ih =>
      have space := blank char (by simp)
      have noQuote : ∀ quote : Quote, char ≠ quote.char := by
        intro quote same
        obtain ⟨_, _, _, _, visible⟩ := quote.char_ne
        simp [same, visible] at space
      have noQuoteFound : Quote.ofChar char = none := by
        cases found : Quote.ofChar char with
        | none => rfl
        | some quote => exact absurd (Quote.char_of_ofChar found).symm (noQuote quote)
      rw [read_cons, ih (fun other member => blank other (.tail _ member))]
      cases state with
      | outside lastOutsideChar =>
          have notEnd : char ≠ ')' := by
            intro same
            subst same
            exact absurd space (by decide)
          simp [next, noQuoteFound, notEnd, isLiteralChar, space]
      | quoted quote dollar =>
          simp only [next, noQuote quote, if_false]
          split
          · simp
          · split <;> simp
      | closed => simp [next, space]
      | _ => simp [next]

theorem Reading.read_trimEnd (state : Reading) (text : List Char)
    : state.read (trimEnd text) = .closed ↔ state.read text = .closed := by
  obtain ⟨spaces, same, blank⟩ := exists_trimEnd text
  conv_rhs => rw [same, read_append]
  exact (read_spaces blank _).symm

theorem mem_of_mem_stripMarker_trim {char : Char} (member : char ∈ stripMarker (trim text))
    : char ∈ text := by
  unfold stripMarker at member
  split at member
  · exact mem_of_mem_trim (List.mem_of_mem_drop (mem_of_mem_trim member))
  · exact mem_of_mem_trim member

theorem mem_of_fromAIPattern (found : fromAIPattern text = some back) : '(' ∈ text := by
  unfold fromAIPattern at found
  split at found
  · split at found
    · next rest behind =>
        have inside : '(' ∈ trimStart (text.drop 7) := by simp [behind]
        exact List.mem_of_mem_drop (mem_of_mem_trimStart inside)
    · contradiction
  · contradiction

theorem accepts_iff (text : List Char)
    : ((fromAIPattern (stripMarker (trim text))).bind (walkArguments none none)).any
          (fun remainder => remainder.all isSpace) = true
      ↔ ReadsAsCall text := by
  constructor
  · intro accepted
    cases found : fromAIPattern (stripMarker (trim text)) with
    | none => simp [found] at accepted
    | some rest =>
        obtain ⟨front, back, rfl, absent⟩ := List.eq_append_cons_of_mem
          (mem_of_mem_stripMarker_trim (mem_of_fromAIPattern found))
        rw [stripMarker_trim, fromAIPattern_around (not_mem_strippedFront absent)] at accepted
        split at accepted
        · next named =>
            rw [Option.bind_some, walkArguments_iff none none _ (by simp)] at accepted
            exact ⟨front, back, rfl, absent, named, (Reading.read_trimEnd _ back).mp accepted⟩
        · simp at accepted
  · intro reads
    obtain ⟨front, back, rfl, absent, named, closes⟩ := reads
    rw [stripMarker_trim, fromAIPattern_around (not_mem_strippedFront absent), if_pos named,
      Option.bind_some, walkArguments_iff none none _ (by simp)]
    exact (Reading.read_trimEnd _ back).mpr closes

/-- The texts that read as one call are the complete calls. -/
theorem isFromAICall_iff (text : List Char)
    : IsFromAICall (stripMarker (trim text)) ↔ ReadsAsCall text := by
  constructor
  · intro call
    obtain ⟨name, spaces, arguments, same, named, blank, complete⟩ := call
    have member : '(' ∈ stripMarker (trim text) := by simp [same]
    obtain ⟨front, back, rfl, absent⟩ :=
      List.eq_append_cons_of_mem (mem_of_mem_stripMarker_trim member)
    have nameAbsent : '(' ∉ name ++ spaces := by
      intro parenthesis
      rcases List.mem_append.mp parenthesis with inName | inSpaces
      · have lower := List.mem_map_of_mem (f := Char.toLower) inName
        rw [named] at lower
        exact absurd lower (by decide)
      · exact absurd (blank _ inSpaces) (by decide)
    rw [stripMarker_trim, List.append_assoc, List.cons_append] at same
    obtain ⟨fronts, backs⟩ := first_unique (not_mem_strippedFront absent) nameAbsent same
    have seven : name.length = 7 := by
      rw [← List.length_map Char.toLower, named]
      decide
    refine ⟨front, back, rfl, absent, ?_, ?_⟩
    · rw [fronts, isName_iff, ← seven, List.take_left, List.drop_left]
      exact ⟨named, blank⟩
    · rw [← Reading.read_trimEnd, backs, complete.read]
      rfl
  · intro reads
    obtain ⟨front, back, rfl, absent, named, closes⟩ := reads
    rw [← Reading.read_trimEnd] at closes
    obtain ⟨arguments, rest, same, complete, blank⟩ := arguments_of_read.1 none closes
    obtain ⟨name, spaces⟩ := isName_iff.mp named
    refine ⟨(strippedFront front).take 7, (strippedFront front).drop 7, arguments, ?_, name,
      spaces, complete⟩
    -- behind the closing parenthesis there is whitespace, which is trimmed
    have none : rest = [] := by
      have twice := trimEnd_trimEnd back
      rw [same, trimEnd_around (by decide)] at twice
      have trimmed := (List.cons.inj (List.append_cancel_left twice)).2
      rw [← trimmed]
      exact List.rdropWhile_eq_nil_iff.mpr blank
    rw [stripMarker_trim, List.take_append_drop, same, none, List.append_assoc, List.cons_append]

end N8n.Expressions
