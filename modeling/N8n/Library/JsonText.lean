import Mathlib.Data.List.TakeWhile
import Mathlib.Tactic.Common

/-! JSON values and their texts. A text is the sequence of its 16-bit units, and a surrogate
may stand alone in it.
-/

namespace N8n.JsonText

abbrev Text := List Nat

def ofString (s : String) : Text := s.toList.map Char.toNat

/-- What a number is written with: `+`, `-`, `.`, `e` and the digits. -/
def isNumberUnit (unit : Nat) : Bool :=
  unit = 43 || unit = 45 || unit = 46 || unit = 101 || (48 ≤ unit && unit ≤ 57)

/-- A finite number, by the decimal text that the language gives it. The text tells the number
from all others.
-/
structure NumberText where
  first : Nat
  rest : Text
  isNumber : ∀ unit ∈ first :: rest, isNumberUnit unit = true

/-- The properties of an object are in the order in which it lists them, and of two with one key
the first counts.
-/
inductive Json where
  | null
  | boolean (b : Bool)
  | number (n : NumberText)
  | string (s : Text)
  | array (items : List Json)
  | object (entries : List (Text × Json))

/-! ### Strings -/

def hexDigit (digit : Nat) : Nat := if digit < 10 then 48 + digit else 87 + digit

def unicodeEscape (unit : Nat) : Text :=
  [92, 117, hexDigit (unit / 4096), hexDigit (unit / 256 % 16), hexDigit (unit / 16 % 16),
    hexDigit (unit % 16)]

def isLeading (unit : Nat) : Bool := 0xD800 ≤ unit && unit < 0xDC00

def isTrailing (unit : Nat) : Bool := 0xDC00 ≤ unit && unit < 0xE000

/-- A unit that is no half of a surrogate pair. -/
def quoteUnit (unit : Nat) : Text :=
  if unit = 8 then [92, 98]
  else if unit = 9 then [92, 116]
  else if unit = 10 then [92, 110]
  else if unit = 12 then [92, 102]
  else if unit = 13 then [92, 114]
  else if unit = 34 then [92, 34]
  else if unit = 92 then [92, 92]
  else if unit < 32 || isLeading unit || isTrailing unit then unicodeEscape unit
  else [unit]

def quoteUnits : Text → Text
  | [] => []
  | [unit] => quoteUnit unit
  | unit :: next :: rest =>
      if isLeading unit && isTrailing next then unit :: next :: quoteUnits rest
      else quoteUnit unit ++ quoteUnits (next :: rest)

def quote (s : Text) : Text := 34 :: quoteUnits s ++ [34]

def hexValue (unit : Nat) : Nat := if unit < 58 then unit - 48 else unit - 87

def unescape (unit : Nat) : Nat :=
  if unit = 98 then 8
  else if unit = 116 then 9
  else if unit = 110 then 10
  else if unit = 102 then 12
  else if unit = 114 then 13
  else unit

/-- The string up to the next quotation mark, and the text behind it. -/
def readUnits : Text → Option (Text × Text)
  | [] => none
  | 34 :: rest => some ([], rest)
  | 92 :: 117 :: a :: b :: c :: d :: rest =>
      let unit := hexValue a * 4096 + hexValue b * 256 + hexValue c * 16 + hexValue d
      (readUnits rest).map (fun read => (unit :: read.1, read.2))
  | 92 :: unit :: rest => (readUnits rest).map (fun read => (unescape unit :: read.1, read.2))
  | unit :: rest => (readUnits rest).map (fun read => (unit :: read.1, read.2))

theorem hexValue_hexDigit {digit : Nat} (small : digit < 16) : hexValue (hexDigit digit) = digit := by
  unfold hexValue hexDigit
  split <;> split <;> omega

theorem readUnits_plain {unit : Nat} (noQuote : unit ≠ 34) (noEscape : unit ≠ 92) (rest : Text)
    : readUnits (unit :: rest) = (readUnits rest).map (fun read => (unit :: read.1, read.2)) := by
  rw [readUnits.eq_def]
  split <;> simp_all

theorem readUnits_quoteUnit (unit : Nat) (rest : Text)
    : readUnits (quoteUnit unit ++ rest)
      = (readUnits rest).map (fun read => (unit :: read.1, read.2)) := by
  unfold quoteUnit
  iterate 7
    split
    · next same =>
        subst same
        rfl
  split
  · next escaped =>
      simp only [isLeading, isTrailing, Bool.or_eq_true, Bool.and_eq_true,
        decide_eq_true_eq] at escaped
      have value : hexValue (hexDigit (unit / 4096)) * 4096
          + hexValue (hexDigit (unit / 256 % 16)) * 256
          + hexValue (hexDigit (unit / 16 % 16)) * 16 + hexValue (hexDigit (unit % 16))
          = unit := by
        simp only [hexValue_hexDigit (Nat.mod_lt _ (by decide : 0 < 16)),
          hexValue_hexDigit (show unit / 4096 < 16 by omega)]
        omega
      simp only [unicodeEscape, List.cons_append, List.nil_append, readUnits, value]
  · next noQuote noEscape _ => exact readUnits_plain noQuote noEscape rest

theorem readUnits_quoteUnits (s rest : Text)
    : readUnits (quoteUnits s ++ 34 :: rest) = some (s, rest) := by
  fun_induction quoteUnits s with
  | case1 => rfl
  | case2 unit => simp [readUnits_quoteUnit, readUnits]
  | case3 unit next others pair ih =>
      simp only [isLeading, isTrailing, Bool.and_eq_true, decide_eq_true_eq] at pair
      rw [List.cons_append, List.cons_append, readUnits_plain (by omega) (by omega),
        readUnits_plain (by omega) (by omega), ih]
      rfl
  | case4 unit next others _ ih =>
      rw [List.append_assoc, readUnits_quoteUnit, ih]
      rfl

/-! ### Values -/

mutual

/-- `JSON.stringify(value)`. -/
def print : Json → Text
  | .null => ofString "null"
  | .boolean true => ofString "true"
  | .boolean false => ofString "false"
  | .number n => n.first :: n.rest
  | .string s => quote s
  | .array items => 91 :: ((printItems items).tail ++ [93])
  | .object entries => 123 :: ((printEntries entries).tail ++ [125])

/-- The items, each behind a comma. -/
def printItems : List Json → Text
  | [] => []
  | item :: rest => 44 :: (print item ++ printItems rest)

def printEntries : List (Text × Json) → Text
  | [] => []
  | (key, value) :: rest => 44 :: (quote key ++ 58 :: (print value ++ printEntries rest))

end

/-- The alternatives that the first unit of a text tells apart. -/
def Json.alternative : Json → Nat
  | .null => 110
  | .boolean true => 116
  | .boolean false => 102
  | .number _ => 0
  | .string _ => 34
  | .array _ => 91
  | .object _ => 123

theorem exists_print (v : Json)
    : ∃ first rest, print v = first :: rest
        ∧ v.alternative = if isNumberUnit first then 0 else first := by
  cases v with
  | boolean b => cases b <;> exact ⟨_, _, rfl, rfl⟩
  | number n => exact ⟨_, _, rfl, by simp [Json.alternative, n.isNumber n.first]⟩
  | _ => exact ⟨_, _, rfl, rfl⟩

/-- A number that a text begins with ends here. -/
def Ends (text : Text) : Prop := ∀ unit ∈ text.head?, isNumberUnit unit = false

theorem NumberText.eq_of_append {n m : NumberText} {s t : Text} (endsLeft : Ends s)
    (endsRight : Ends t) (same : n.first :: n.rest ++ s = m.first :: m.rest ++ t)
    : n = m ∧ s = t := by
  have taken (n : NumberText) {s : Text} (ends : Ends s)
      : (n.first :: n.rest ++ s).takeWhile isNumberUnit = n.first :: n.rest := by
    rw [List.takeWhile_append_of_pos n.isNumber]
    cases s with
    | nil => simp
    | cons unit rest => simp [ends unit rfl]
  have units := congrArg (List.takeWhile isNumberUnit) same
  rw [taken n endsLeft, taken m endsRight] at units
  rw [units, List.append_cancel_left_eq] at same
  obtain ⟨first, rest⟩ := List.cons.inj units
  cases n
  cases m
  simp_all

theorem eq_of_quote {a b s t : Text} (same : quote a ++ s = quote b ++ t) : a = b ∧ s = t := by
  simp only [quote, List.cons_append, List.append_assoc, List.nil_append, List.cons.injEq,
    true_and] at same
  have read := congrArg readUnits same
  rw [readUnits_quoteUnits, readUnits_quoteUnits] at read
  exact Prod.mk.inj (Option.some.inj read)

theorem ends_printItems (items : List Json) (s : Text) : Ends (printItems items ++ 93 :: s) := by
  cases items <;> rintro unit ⟨⟩ <;> rfl

theorem ends_printEntries (entries : List (Text × Json)) (s : Text)
    : Ends (printEntries entries ++ 125 :: s) := by
  cases entries <;> rintro unit ⟨⟩ <;> rfl

theorem print_ne_closing (v : Json) (rest s : Text) : print v ++ rest ≠ 93 :: s := by
  obtain ⟨first, others, isPrint, isFirst⟩ := exists_print v
  intro same
  rw [isPrint] at same
  obtain rfl : first = 93 := (List.cons.inj same).1
  rcases v with _ | (_ | _) | _ | _ | _ | _ <;> simp [Json.alternative, isNumberUnit] at isFirst

/-- The items of an array are also determined with a comma in front of the first one. -/
theorem printItems_of_tail {as bs : List Json} {s t : Text}
    (same : (printItems as).tail ++ 93 :: s = (printItems bs).tail ++ 93 :: t)
    : printItems as ++ 93 :: s = printItems bs ++ 93 :: t := by
  cases as with
  | nil => cases bs with
    | nil => exact same
    | cons b bs =>
        refine absurd same.symm ?_
        simpa [printItems] using print_ne_closing b _ s
  | cons a as => cases bs with
    | nil =>
        refine absurd same ?_
        simpa [printItems] using print_ne_closing a _ t
    | cons b bs => exact congrArg (44 :: ·) same

theorem printEntries_of_tail {as bs : List (Text × Json)} {s t : Text}
    (same : (printEntries as).tail ++ 125 :: s = (printEntries bs).tail ++ 125 :: t)
    : printEntries as ++ 125 :: s = printEntries bs ++ 125 :: t := by
  cases as <;> cases bs
  · exact same
  · simp [printEntries, quote] at same
  · simp [printEntries, quote] at same
  · exact congrArg (44 :: ·) same

mutual

/-- Where numbers end, a value and what follows it are determined by the text. -/
theorem eq_of_print (a b : Json) {s t : Text} (endsLeft : Ends s) (endsRight : Ends t)
    (same : print a ++ s = print b ++ t)
    : a = b ∧ s = t := by
  have alternative : a.alternative = b.alternative := by
    obtain ⟨first, rest, isPrint, isFirst⟩ := exists_print a
    obtain ⟨other, otherRest, isOther, otherFirst⟩ := exists_print b
    rw [isPrint, isOther] at same
    rw [isFirst, otherFirst, (List.cons.inj same).1]
  rcases a with _ | (_ | _) | n | v | items | entries <;>
    rcases b with _ | (_ | _) | m | w | others | others <;>
    simp [Json.alternative] at alternative
  · exact ⟨rfl, List.append_cancel_left same⟩
  · exact ⟨rfl, List.append_cancel_left same⟩
  · exact ⟨rfl, List.append_cancel_left same⟩
  · obtain ⟨rfl, rest⟩ := NumberText.eq_of_append endsLeft endsRight same
    exact ⟨rfl, rest⟩
  · obtain ⟨rfl, rest⟩ := eq_of_quote same
    exact ⟨rfl, rest⟩
  · obtain ⟨rfl, rest⟩ := eq_of_printItems items others
      (printItems_of_tail (by simpa [print] using same))
    exact ⟨rfl, rest⟩
  · obtain ⟨rfl, rest⟩ := eq_of_printEntries entries others
      (printEntries_of_tail (by simpa [print] using same))
    exact ⟨rfl, rest⟩

theorem eq_of_printItems (as bs : List Json) {s t : Text}
    (same : printItems as ++ 93 :: s = printItems bs ++ 93 :: t)
    : as = bs ∧ s = t := by
  cases as with
  | nil => cases bs with
    | nil => exact ⟨rfl, (List.cons.inj same).2⟩
    | cons b bs => simp [printItems] at same
  | cons a as => cases bs with
    | nil => simp [printItems] at same
    | cons b bs =>
        simp only [printItems, List.cons_append, List.append_assoc, List.cons.injEq,
          true_and] at same
        obtain ⟨rfl, rest⟩ := eq_of_print a b (ends_printItems as s) (ends_printItems bs t) same
        obtain ⟨rfl, behind⟩ := eq_of_printItems as bs rest
        exact ⟨rfl, behind⟩

theorem eq_of_printEntries (as bs : List (Text × Json)) {s t : Text}
    (same : printEntries as ++ 125 :: s = printEntries bs ++ 125 :: t)
    : as = bs ∧ s = t := by
  cases as with
  | nil => cases bs with
    | nil => exact ⟨rfl, (List.cons.inj same).2⟩
    | cons b bs => simp [printEntries] at same
  | cons a as => cases bs with
    | nil => simp [printEntries] at same
    | cons b bs =>
        obtain ⟨key, value⟩ := a
        obtain ⟨otherKey, other⟩ := b
        simp only [printEntries, List.cons_append, List.append_assoc, List.cons.injEq,
          true_and] at same
        obtain ⟨rfl, values⟩ := eq_of_quote same
        obtain ⟨rfl, rest⟩ := eq_of_print value other (ends_printEntries as s)
          (ends_printEntries bs t) (List.cons.inj values).2
        obtain ⟨rfl, behind⟩ := eq_of_printEntries as bs rest
        exact ⟨rfl, behind⟩

end

theorem print_injective : Function.Injective print := by
  intro a b same
  have ends : Ends [] := by simp [Ends]
  exact (eq_of_print a b ends ends (by simpa using same)).1

end N8n.JsonText
