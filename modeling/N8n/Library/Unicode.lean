import Mathlib.Data.List.Basic

/-! Texts as the source language keeps them, sequences of 16-bit units in which a surrogate
may stand alone, and their encoding as UTF-8 with the decoder that replaces what it cannot
read.
-/

namespace N8n.Unicode

/-- What stands for a unit or a byte that is no part of a character. -/
def replacement : Char := Char.ofNat 0xFFFD

def byteOrderMark : Char := Char.ofNat 0xFEFF

theorem toNat_cases (char : Char)
    : char.toNat < 0xD800 ∨ 0xDFFF < char.toNat ∧ char.toNat < 0x110000 := char.valid

theorem toNat_ofNat {code : Nat} (valid : code.isValidChar) : (Char.ofNat code).toNat = code := by
  rw [Char.ofNat, dif_pos valid]
  rfl

def utf8Char (char : Char) : List UInt8 :=
  let code := char.toNat
  if code < 0x80 then [.ofNat code]
  else if code < 0x800 then [.ofNat (0xC0 + code / 64), .ofNat (0x80 + code % 64)]
  else if code < 0x10000 then
    [.ofNat (0xE0 + code / 4096), .ofNat (0x80 + code / 64 % 64), .ofNat (0x80 + code % 64)]
  else
    [
      .ofNat (0xF0 + code / 262144), .ofNat (0x80 + code / 4096 % 64),
      .ofNat (0x80 + code / 64 % 64), .ofNat (0x80 + code % 64)
    ]

def utf8 (chars : List Char) : List UInt8 := chars.flatMap utf8Char

/-- A character of which bytes are missing: how many, and between which bounds the next one
has to be.
-/
structure Pending where
  needed : Nat
  code : Nat
  lower : Nat
  upper : Nat

/-- What the first byte of a character leads to: a character, or one that is pending. -/
def firstByte (byte : Nat) : Option Char × Option Pending :=
  if byte < 0x80 then (some (Char.ofNat byte), none)
  else if byte < 0xC2 then (some replacement, none)
  else if byte < 0xE0 then
    (none, some { needed := 1, code := byte - 0xC0, lower := 0x80, upper := 0xBF })
  else if byte < 0xF0 then
    (none,
      some
        {
          needed := 2
          code := byte - 0xE0
          lower := if byte = 0xE0 then 0xA0 else 0x80
          upper := if byte = 0xED then 0x9F else 0xBF
        })
  else if byte < 0xF5 then
    (none,
      some
        {
          needed := 3
          code := byte - 0xF0
          lower := if byte = 0xF0 then 0x90 else 0x80
          upper := if byte = 0xF4 then 0x8F else 0xBF
        })
  else (some replacement, none)

/-- The decoder, which reads a byte that does not continue a character a second time. -/
def decodeFrom : Option Pending → List UInt8 → List Char
  | none, [] => []
  | some _, [] => [replacement]
  | none, byte :: rest =>
      (firstByte byte.toNat).1.toList ++ decodeFrom (firstByte byte.toNat).2 rest
  | some pending, byte :: rest =>
      if pending.lower ≤ byte.toNat ∧ byte.toNat ≤ pending.upper then
        let code := pending.code * 64 + byte.toNat % 64
        if pending.needed = 1 then Char.ofNat code :: decodeFrom none rest
        else
          decodeFrom
            (some { needed := pending.needed - 1, code, lower := 0x80, upper := 0xBF }) rest
      else
        replacement :: (firstByte byte.toNat).1.toList
          ++ decodeFrom (firstByte byte.toNat).2 rest

/-- The characters that bytes are decoded to. -/
def decodeUtf8 (bytes : List UInt8) : List Char := decodeFrom none bytes

variable {byte : Nat}

theorem decodeFrom_first (isByte : byte < 256) {char : Char}
    (first : firstByte byte = (some char, none)) (rest : List UInt8)
    : decodeFrom none (.ofNat byte :: rest) = char :: decodeFrom none rest := by
  simp [decodeFrom, UInt8.toNat_ofNat_of_lt' isByte, first]

variable {pending : Pending}

theorem decodeFrom_opening (isByte : byte < 256) (first : firstByte byte = (none, some pending))
    (rest : List UInt8)
    : decodeFrom none (.ofNat byte :: rest) = decodeFrom (some pending) rest := by
  simp [decodeFrom, UInt8.toNat_ofNat_of_lt' isByte, first]

theorem decodeFrom_last (isByte : byte < 256) (isLast : pending.needed = 1)
    (lower : pending.lower ≤ byte) (upper : byte ≤ pending.upper) (rest : List UInt8)
    : decodeFrom (some pending) (.ofNat byte :: rest)
      = Char.ofNat (pending.code * 64 + byte % 64) :: decodeFrom none rest := by
  simp [decodeFrom, UInt8.toNat_ofNat_of_lt' isByte, isLast, lower, upper]

theorem decodeFrom_next (isByte : byte < 256) (notLast : pending.needed ≠ 1)
    (lower : pending.lower ≤ byte) (upper : byte ≤ pending.upper) (rest : List UInt8)
    : decodeFrom (some pending) (.ofNat byte :: rest)
      = decodeFrom
          (some
            {
              needed := pending.needed - 1
              code := pending.code * 64 + byte % 64
              lower := 0x80
              upper := 0xBF
            })
          rest := by
  simp [decodeFrom, UInt8.toNat_ofNat_of_lt' isByte, notLast, lower, upper]

theorem decodeFrom_utf8Char (char : Char) (rest : List UInt8)
    : decodeFrom none (utf8Char char ++ rest) = char :: decodeFrom none rest := by
  have isCode : Char.ofNat char.toNat = char := Char.ofNat_toNat char
  have bounds := toNat_cases char
  unfold utf8Char
  generalize char.toNat = code at isCode bounds
  simp only
  split
  · next one =>
      have first : firstByte code = (some char, none) := by simp [firstByte, one, isCode]
      exact decodeFrom_first (by omega) first rest
  · split
    · next two =>
        have first
            : firstByte (0xC0 + code / 64)
              = (none,
                  some { needed := 1, code := code / 64, lower := 0x80, upper := 0xBF }) := by
          unfold firstByte
          rw [if_neg (by omega), if_neg (by omega), if_pos (by omega)]
          simp
        refine (decodeFrom_opening (by omega) first _).trans ?_
        refine (decodeFrom_last (by omega) rfl (by simp) (by simp; omega) _).trans ?_
        rw [show code / 64 * 64 + (0x80 + code % 64) % 64 = code by omega, isCode]
        rfl
    · split
      · next three =>
          have first
              : firstByte (0xE0 + code / 4096)
                = (none,
                    some
                      {
                        needed := 2
                        code := code / 4096
                        lower := if 0xE0 + code / 4096 = 0xE0 then 0xA0 else 0x80
                        upper := if 0xE0 + code / 4096 = 0xED then 0x9F else 0xBF
                      }) := by
            unfold firstByte
            rw [if_neg (by omega), if_neg (by omega), if_neg (by omega), if_pos (by omega)]
            simp
          refine (decodeFrom_opening (by omega) first _).trans ?_
          refine (decodeFrom_next (by omega) (by simp) (by simp only; split <;> omega)
            (by simp only; split <;> omega) _).trans ?_
          refine (decodeFrom_last (by omega) rfl (by simp) (by simp; omega) _).trans ?_
          rw [show (code / 4096 * 64 + (0x80 + code / 64 % 64) % 64) * 64
            + (0x80 + code % 64) % 64 = code by omega, isCode]
          rfl
      · next four =>
          have first
              : firstByte (0xF0 + code / 262144)
                = (none,
                    some
                      {
                        needed := 3
                        code := code / 262144
                        lower := if 0xF0 + code / 262144 = 0xF0 then 0x90 else 0x80
                        upper := if 0xF0 + code / 262144 = 0xF4 then 0x8F else 0xBF
                      }) := by
            unfold firstByte
            rw [if_neg (by omega), if_neg (by omega), if_neg (by omega), if_neg (by omega),
              if_pos (by omega)]
            simp
          refine (decodeFrom_opening (by omega) first _).trans ?_
          refine (decodeFrom_next (by omega) (by simp) (by simp only; split <;> omega)
            (by simp only; split <;> omega) _).trans ?_
          refine (decodeFrom_next (by omega) (by simp) (by simp) (by simp; omega) _).trans ?_
          refine (decodeFrom_last (by omega) rfl (by simp) (by simp; omega) _).trans ?_
          rw [show ((code / 262144 * 64 + (0x80 + code / 4096 % 64) % 64) * 64
            + (0x80 + code / 64 % 64) % 64) * 64 + (0x80 + code % 64) % 64 = code by omega,
            isCode]
          rfl

/-- Characters are decoded to themselves. -/
theorem decodeUtf8_utf8 (chars : List Char) : decodeUtf8 (utf8 chars) = chars := by
  induction chars with
  | nil => rfl
  | cons char rest ih =>
      show decodeFrom none (utf8Char char ++ utf8 rest) = _
      rw [decodeFrom_utf8Char]
      exact congrArg (char :: ·) ih

def utf16Char (char : Char) : List UInt16 :=
  let code := char.toNat
  if code < 0x10000 then [.ofNat code]
  else
    [
      .ofNat (0xD800 + (code - 0x10000) / 1024), .ofNat (0xDC00 + (code - 0x10000) % 1024)
    ]

def utf16 (chars : List Char) : List UInt16 := chars.flatMap utf16Char

def isLeading (unit : UInt16) : Bool := 0xD800 ≤ unit.toNat && unit.toNat < 0xDC00

def isTrailing (unit : UInt16) : Bool := 0xDC00 ≤ unit.toNat && unit.toNat < 0xE000

/-- The character that two surrogates make. -/
def paired (leading trailing : UInt16) : Char :=
  Char.ofNat (0x10000 + (leading.toNat - 0xD800) * 1024 + (trailing.toNat - 0xDC00))

/-- The characters of a text, with one in place of each surrogate that stands alone. -/
def characters : List UInt16 → List Char
  | [] => []
  | [unit] =>
      if isLeading unit || isTrailing unit then [replacement] else [Char.ofNat unit.toNat]
  | unit :: next :: rest =>
      if isLeading unit then
        if isTrailing next then paired unit next :: characters rest
        else replacement :: characters (next :: rest)
      else if isTrailing unit then replacement :: characters (next :: rest)
      else Char.ofNat unit.toNat :: characters (next :: rest)

/-- No surrogate stands alone. -/
def isWellFormed : List UInt16 → Bool
  | [] => true
  | [unit] => !isLeading unit && !isTrailing unit
  | unit :: next :: rest =>
      if isLeading unit then isTrailing next && isWellFormed rest
      else !isTrailing unit && isWellFormed (next :: rest)

variable {unit : UInt16}

theorem utf16Char_ofNat (noLeading : isLeading unit = false) (noTrailing : isTrailing unit = false)
    : utf16Char (Char.ofNat unit.toNat) = [unit] := by
  have bound := unit.toNat_lt
  have valid : unit.toNat.isValidChar := by
    simp only [isLeading, isTrailing, Bool.and_eq_false_iff, decide_eq_false_iff_not] at *
    unfold Nat.isValidChar
    omega
  unfold utf16Char
  rw [toNat_ofNat valid]
  simp [bound]

theorem utf16Char_paired {leading trailing : UInt16} (isLead : isLeading leading = true)
    (isTrail : isTrailing trailing = true)
    : utf16Char (paired leading trailing) = [leading, trailing] := by
  simp only [isLeading, isTrailing, Bool.and_eq_true, decide_eq_true_eq] at isLead isTrail
  have valid
      : (0x10000 + (leading.toNat - 0xD800) * 1024 + (trailing.toNat - 0xDC00)).isValidChar := by
    unfold Nat.isValidChar
    omega
  unfold utf16Char paired
  rw [toNat_ofNat valid]
  simp only
  rw [if_neg (by omega)]
  have first
      : 0xD800 + (0x10000 + (leading.toNat - 0xD800) * 1024 + (trailing.toNat - 0xDC00)
          - 0x10000) / 1024
        = leading.toNat := by
    omega
  have second
      : 0xDC00 + (0x10000 + (leading.toNat - 0xD800) * 1024 + (trailing.toNat - 0xDC00)
          - 0x10000) % 1024
        = trailing.toNat := by
    omega
  simp only [first, second, UInt16.ofNat_toNat]

/-- A surrogate is not what stands in its place. -/
theorem ne_replacement (alone : (isLeading unit || isTrailing unit) = true)
    (others rest : List UInt16)
    : utf16Char replacement ++ others ≠ unit :: rest := by
  intro same
  have isUnit : UInt16.ofNat 0xFFFD = unit := (List.cons.inj same).1
  subst isUnit
  revert alone
  decide

/-- A text is what its characters are written as just when no surrogate stands alone. -/
theorem utf16_characters_iff (text : List UInt16)
    : utf16 (characters text) = text ↔ isWellFormed text = true := by
  fun_induction characters text with
  | case1 => simp [isWellFormed, utf16]
  | case2 unit alone =>
      have noText := ne_replacement alone [] []
      simp only [List.append_nil] at noText
      cases lead : isLeading unit <;> simp_all [isWellFormed, utf16]
  | case3 unit notAlone =>
      simp only [Bool.or_eq_true, not_or, Bool.not_eq_true] at notAlone
      simp [isWellFormed, utf16, utf16Char_ofNat notAlone.1 notAlone.2, notAlone]
  | case4 unit next rest isLead isTrail ih =>
      show utf16Char _ ++ utf16 (characters rest) = _ ↔ _
      rw [utf16Char_paired isLead isTrail]
      simp [isWellFormed, isLead, isTrail, ih]
  | case5 unit next rest isLead notTrail ih =>
      have alone : (isLeading unit || isTrailing unit) = true := by simp [isLead]
      have noText := ne_replacement alone (utf16 (characters (next :: rest))) (next :: rest)
      show utf16Char _ ++ utf16 (characters (next :: rest)) = _ ↔ _
      simp [isWellFormed, isLead, notTrail, noText]
  | case6 unit next rest notLead isTrail ih =>
      have alone : (isLeading unit || isTrailing unit) = true := by simp [isTrail]
      have noText := ne_replacement alone (utf16 (characters (next :: rest))) (next :: rest)
      show utf16Char _ ++ utf16 (characters (next :: rest)) = _ ↔ _
      simp [isWellFormed, notLead, isTrail, noText]
  | case7 unit next rest notLead notTrail ih =>
      show utf16Char _ ++ utf16 (characters (next :: rest)) = _ ↔ _
      rw [utf16Char_ofNat (Bool.eq_false_iff.mpr notLead) (Bool.eq_false_iff.mpr notTrail)]
      simp [isWellFormed, notLead, notTrail, ih]

theorem length_utf16_characters (text : List UInt16)
    : (utf16 (characters text)).length = text.length := by
  have length_replacement : (utf16Char replacement).length = 1 := by decide
  fun_induction characters text with
  | case1 => rfl
  | case2 => exact length_replacement
  | case3 unit notAlone =>
      simp only [Bool.or_eq_true, not_or, Bool.not_eq_true] at notAlone
      simp [utf16, utf16Char_ofNat notAlone.1 notAlone.2]
  | case4 unit next rest isLead isTrail ih =>
      show (utf16Char _ ++ utf16 (characters rest)).length = _
      simp [utf16Char_paired isLead isTrail, ih]
  | case5 unit next rest _ _ ih =>
      show (utf16Char _ ++ utf16 (characters (next :: rest))).length = _
      rw [List.length_append, length_replacement, ih]
      simp [Nat.add_comm]
  | case6 unit next rest _ _ ih =>
      show (utf16Char _ ++ utf16 (characters (next :: rest))).length = _
      rw [List.length_append, length_replacement, ih]
      simp [Nat.add_comm]
  | case7 unit next rest notLead notTrail ih =>
      show (utf16Char _ ++ utf16 (characters (next :: rest))).length = _
      rw [utf16Char_ofNat (Bool.eq_false_iff.mpr notLead) (Bool.eq_false_iff.mpr notTrail)]
      simp [ih]

/-- `new TextEncoder().encode(text)`. -/
def encodeText (text : List UInt16) : List UInt8 := utf8 (characters text)

def withoutByteOrderMark : List Char → List Char
  | [] => []
  | char :: rest => if char = byteOrderMark then rest else char :: rest

/-- `new TextDecoder().decode(bytes)`, which leaves out a byte order mark at the start. -/
def decodeText (bytes : List UInt8) : List UInt16 :=
  utf16 (withoutByteOrderMark (decodeUtf8 bytes))

theorem ofNat_eq_byteOrderMark (alone : (isLeading unit || isTrailing unit) = false)
    : Char.ofNat unit.toNat = byteOrderMark ↔ unit = 0xFEFF := by
  simp only [Bool.or_eq_false_iff] at alone
  have isUnit := utf16Char_ofNat alone.1 alone.2
  constructor
  · intro isMark
    rw [isMark] at isUnit
    exact (List.cons.inj isUnit).1.symm
  · rintro rfl
    decide

/-- The first character is a byte order mark just when the first unit is one. -/
theorem head_characters (unit : UInt16) (rest : List UInt16)
    : (characters (unit :: rest)).head? = some byteOrderMark ↔ unit = 0xFEFF := by
  by_cases alone : (isLeading unit || isTrailing unit) = true
  · have noMark : unit ≠ 0xFEFF := by
      rintro rfl
      revert alone
      decide
    have noReplacement : replacement ≠ byteOrderMark := by decide
    cases rest with
    | nil => simp [characters, alone, noMark, noReplacement]
    | cons next rest =>
        unfold characters
        split
        · next isLead =>
            split
            · next isTrail =>
                have isPair := utf16Char_paired isLead isTrail
                have noPair : paired unit next ≠ byteOrderMark := by
                  intro isMark
                  rw [isMark] at isPair
                  have two : (utf16Char byteOrderMark).length = 2 := congrArg List.length isPair
                  have one : (utf16Char byteOrderMark).length = 1 := by decide
                  omega
                simp [noMark, noPair]
            · simp [noMark, noReplacement]
        · next notLead =>
            have isTrail : isTrailing unit = true := by simpa [notLead] using alone
            simp [isTrail, noMark, noReplacement]
  · have notAlone := Bool.eq_false_iff.mpr alone
    have isMark := ofNat_eq_byteOrderMark notAlone
    simp only [Bool.or_eq_false_iff] at notAlone
    cases rest <;> simp [characters, notAlone.1, notAlone.2, isMark]

/-- A text is decoded to itself just when no surrogate stands alone in it and it does not
start with a byte order mark.
-/
theorem decodeText_encodeText_iff (text : List UInt16)
    : decodeText (encodeText text) = text
      ↔ isWellFormed text = true ∧ text.head? ≠ some 0xFEFF := by
  unfold decodeText encodeText
  rw [decodeUtf8_utf8]
  cases text with
  | nil => simp [characters, withoutByteOrderMark, utf16, isWellFormed]
  | cons unit rest =>
      have isHead := head_characters unit rest
      have length := length_utf16_characters (unit :: rest)
      rw [← utf16_characters_iff]
      cases chars : characters (unit :: rest) with
      | nil => simp [chars, utf16] at length
      | cons char others =>
          simp only [chars, List.head?_cons, Option.some.injEq] at isHead length
          by_cases isMark : char = byteOrderMark
          · have isUnit := isHead.mp isMark
            have shorter : utf16 others ≠ unit :: rest := by
              intro same
              have sizes := congrArg List.length same
              have oneMore : (utf16 (char :: others)).length = 1 + (utf16 others).length := by
                subst isMark
                show (utf16Char byteOrderMark ++ utf16 others).length = _
                rw [List.length_append, show (utf16Char byteOrderMark).length = 1 by decide]
              omega
            rw [isUnit] at shorter ⊢
            simpa [withoutByteOrderMark, isMark] using shorter
          · have noUnit := isHead.not.mp isMark
            simp [withoutByteOrderMark, isMark, noUnit]

end N8n.Unicode
