import N8n.Library.Text

/-! The check that an expression is a single `$fromAI` call with literal arguments
(`packages/workflow/src/from-ai-parse-utils.ts`), and the calls that it is meant to accept.
-/

namespace N8n.Expressions

open Text

-- `packages/workflow/src/constants.ts`
def FROM_AI_AUTO_GENERATED_MARKER : List Char :=
  "/*n8n-auto-generated-fromAI-override*/".toList

inductive Quote where
  | double
  | single
  | backtick
  deriving DecidableEq, Repr

namespace Quote

def char : Quote → Char
  | .double => Char.ofNat 34
  | .single => Char.ofNat 39
  | .backtick => Char.ofNat 96

/-- The quote that the character is, if it is one. -/
def ofChar (char : Char) : Option Quote :=
  [double, single, backtick].find? (fun quote => quote.char = char)

end Quote

/-- `/[a-zA-Z0-9_]/`. -/
def isWordChar (char : Char) : Bool := isAlphanumeric char || char = '_'

/-- `/[a-zA-Z0-9.,\s-]/`. -/
def isLiteralChar (char : Char) : Bool :=
  isAlphanumeric char || char = '.' || char = ',' || isSpace char || char = '-'

/-- The text behind the match of `/^\$fromAI\s*\(/i`. -/
def fromAIPattern (str : List Char) : Option (List Char) :=
  if (str.take 7).map Char.toLower = "$fromai".toList then
    match trimStart (str.drop 7) with
    | '(' :: rest => some rest
    | _ => none
  else none

/-- The walk from behind the opening parenthesis, `inQuotes` with the quote character if
inside quotes. Answers what is behind the closing parenthesis.
-/
def walkArguments : Option Quote → Option Char → List Char → Option (List Char)
  | _, _, [] => none
  | some quote, lastOutsideChar, '\\' :: _ :: rest =>
      walkArguments (some quote) lastOutsideChar rest
  | some quote, lastOutsideChar, char :: rest =>
      if quote = .backtick ∧ char = '$' ∧ rest.head? = some '{' then none
      else if char = quote.char then walkArguments none lastOutsideChar rest
      else walkArguments (some quote) lastOutsideChar rest
  | none, lastOutsideChar, char :: rest =>
      match Quote.ofChar char with
      | some quote =>
          if quote = .backtick ∧ lastOutsideChar.any isWordChar then none
          else walkArguments (some quote) (some char) rest
      | none =>
          if char = ')' then some rest
          else if isLiteralChar char then
            walkArguments none (if isSpace char then lastOutsideChar else some char) rest
          else none

def stripMarker (str : List Char) : List Char :=
  if FROM_AI_AUTO_GENERATED_MARKER <+: str then
    trim (str.drop FROM_AI_AUTO_GENERATED_MARKER.length)
  else str

/-- The text has double braces around it. -/
def isWrapped (str : List Char) : Bool := "\x7b\x7b".toList <+: str && "\x7d\x7d".toList <:+ str

/-- `str.slice(2, -2)`. -/
def inner (str : List Char) : List Char := (str.drop 2).rdrop 2

def isFromAIOnlyExpression (expr : List Char) : Bool :=
  let str := if ['='] <+: expr then expr.drop 1 else expr
  let str := trim str
  let str := if isWrapped str then trim (inner str) else str
  match (fromAIPattern (stripMarker str)).bind (walkArguments none none) with
  | some remainder => (trim remainder).isEmpty
  | none => false

/-- The inside of a string in these quotes, without interpolation. -/
inductive QuotedText (quote : Quote) : List Char → Prop
  | nil : QuotedText quote []
  | escaped (char : Char) {rest : List Char} (tail : QuotedText quote rest)
    : QuotedText quote ('\\' :: char :: rest)
  | plain {char : Char} {rest : List Char} (noEnd : char ≠ quote.char)
    (noEscape : char ≠ '\\')
    (noInterpolation : ¬(quote = .backtick ∧ char = '$' ∧ rest.head? = some '{'))
    (tail : QuotedText quote rest)
    : QuotedText quote (char :: rest)

/-- Arguments that are literals: strings, and outside of them the characters of literals
only. No template is tagged with the word in front of it.
-/
inductive Arguments : Option Char → List Char → Prop
  | nil {lastOutsideChar : Option Char} : Arguments lastOutsideChar []
  | literal {lastOutsideChar : Option Char} {char : Char} {rest : List Char}
    (allowed : isLiteralChar char = true)
    (tail : Arguments (if isSpace char then lastOutsideChar else some char) rest)
    : Arguments lastOutsideChar (char :: rest)
  | quoted {lastOutsideChar : Option Char} {quote : Quote} {text rest : List Char}
    (untagged : ¬(quote = .backtick ∧ lastOutsideChar.any isWordChar))
    (inside : QuotedText quote text) (tail : Arguments (some quote.char) rest)
    : Arguments lastOutsideChar (quote.char :: text ++ quote.char :: rest)

/-- One `$fromAI(…)` call with literal arguments and nothing else. -/
def IsFromAICall (text : List Char) : Prop :=
  ∃ name spaces arguments,
    text = name ++ spaces ++ '(' :: arguments ++ [')']
    ∧ name.map Char.toLower = "$fromai".toList
    ∧ (∀ char ∈ spaces, isSpace char = true)
    ∧ Arguments none arguments

end N8n.Expressions
