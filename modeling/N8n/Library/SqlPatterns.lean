import N8n.Library.Patterns
import N8n.Library.Unicode

/-! The two pattern languages of SQL databases: `GLOB` as SQLite has it, and
`LIKE … ESCAPE '\'`, by case or up to the case of ASCII letters.
-/

namespace N8n.SqlPatterns

open N8n.Patterns

/-- `UPPER` on one character. -/
def asciiUpper (char : Char) : Char :=
  if 97 ≤ char.toNat ∧ char.toNat ≤ 122 then Char.ofNat (char.toNat - 32) else char

theorem asciiUpper_of_letter {char : Char} (letter : 97 ≤ char.toNat ∧ char.toNat ≤ 122)
    : (asciiUpper char).toNat = char.toNat - 32 := by
  have valid : (char.toNat - 32).isValidChar := Or.inl (by omega)
  rw [asciiUpper, if_pos letter, Unicode.toNat_ofNat valid]

theorem asciiUpper_of_no_letter {char : Char} (other : ¬ (97 ≤ char.toNat ∧ char.toNat ≤ 122))
    : asciiUpper char = char :=
  if_neg other

theorem asciiUpper_asciiUpper (char : Char) : asciiUpper (asciiUpper char) = asciiUpper char := by
  by_cases letter : 97 ≤ char.toNat ∧ char.toNat ≤ 122
  · apply asciiUpper_of_no_letter
    rw [asciiUpper_of_letter letter]
    omega
  · rw [asciiUpper_of_no_letter letter, asciiUpper_of_no_letter letter]

/-- A character that is no letter is the upper case of itself only. -/
theorem asciiUpper_eq_iff {mark : Char} (noLetter : mark.toNat < 65 ∨ 90 < mark.toNat)
    (noLower : ¬ (97 ≤ mark.toNat ∧ mark.toNat ≤ 122)) (char : Char)
    : asciiUpper char = mark ↔ char = mark := by
  constructor
  · intro same
    by_cases letter : 97 ≤ char.toNat ∧ char.toNat ≤ 122
    · have code := asciiUpper_of_letter letter
      rw [same] at code
      omega
    · rw [asciiUpper_of_no_letter letter] at same
      exact same
  · rintro rfl
    exact asciiUpper_of_no_letter noLower

/-- `UPPER`. -/
def upper (text : List Char) : List Char := text.map asciiUpper

/-- A class of characters as far as it is read. -/
structure GlobClass where
  inverted : Bool
  seen : Char → Bool
  /-- What a `-` may start a range from. -/
  prior : Option Char
  /-- The start of a range whose end comes next. -/
  lower : Option Char

def GlobClass.accepts (cls : GlobClass) (char : Char) : Bool := cls.seen char != cls.inverted

def GlobClass.read (cls : GlobClass) (char : Char) (next : Option Char) : GlobClass :=
  match cls.lower with
  | some lower =>
      { cls with
        seen := fun other => cls.seen other || (lower ≤ other && other ≤ char)
        prior := none, lower := none }
  | none =>
      if char = '-' ∧ cls.prior ≠ none ∧ next ≠ none ∧ next ≠ some ']' then
        { cls with lower := cls.prior }
      else
        { cls with seen := fun other => cls.seen other || other = char, prior := some char }

/-- A class after its first character; a `]` is literal there. -/
def GlobClass.first (inverted : Bool) (char : Char) (next : Option Char) : GlobClass :=
  if char = ']' then ⟨inverted, fun other => other = ']', none, none⟩
  else GlobClass.read ⟨inverted, fun _ => false, none, none⟩ char next

inductive GlobPlace where
  | outside
  | opened
  | negated
  | inside (cls : GlobClass)

/-- A class that is never closed matches nothing. -/
def globElements : GlobPlace → List Char → List (Element Char)
  | .outside, [] => []
  | .opened, [] => [.single (fun _ => false)]
  | .negated, [] => [.single (fun _ => false)]
  | .inside _, [] => [.single (fun _ => false)]
  | .outside, char :: rest =>
      if char = '*' then .sequence :: globElements .outside rest
      else if char = '?' then .single (fun _ => true) :: globElements .outside rest
      else if char = '[' then globElements .opened rest
      else .single (fun other => other = char) :: globElements .outside rest
  | .opened, char :: rest =>
      if char = '^' then globElements .negated rest
      else globElements (.inside (GlobClass.first false char rest.head?)) rest
  | .negated, char :: rest =>
      globElements (.inside (GlobClass.first true char rest.head?)) rest
  | .inside cls, char :: rest =>
      if char = ']' ∧ cls.lower = none then .single cls.accepts :: globElements .outside rest
      else globElements (.inside (cls.read char rest.head?)) rest

/-- `text GLOB pattern`. -/
def glob (text pattern : List Char) : Bool := matchesText (globElements .outside pattern) text

/-- A class with one character stands for it. -/
theorem globElements_literal {char : Char} {rest : List Char} (apart : char ≠ '^')
    : globElements .outside ('[' :: char :: ']' :: rest)
      = .single (fun other => other = char) :: globElements .outside rest := by
  have opened
      : globElements .outside ('[' :: char :: ']' :: rest)
        = globElements (.inside (GlobClass.first false char (some ']'))) (']' :: rest) := by
    simp [globElements, apart]
  have closed : (GlobClass.first false char (some ']')).lower = none := by
    by_cases bracket : char = ']' <;> simp [GlobClass.first, GlobClass.read, bracket]
  have accepts
      : (GlobClass.first false char (some ']')).accepts = fun other => decide (other = char) := by
    funext other
    by_cases bracket : char = ']' <;>
      simp [GlobClass.first, GlobClass.read, GlobClass.accepts, bracket]
  rw [opened, globElements, if_pos ⟨rfl, closed⟩, accepts]

theorem globElements_plain {char : Char} {rest : List Char} (noStar : char ≠ '*')
    (noMark : char ≠ '?') (noBracket : char ≠ '[')
    : globElements .outside (char :: rest)
      = .single (fun other => other = char) :: globElements .outside rest := by
  rw [globElements, if_neg noStar, if_neg noMark, if_neg noBracket]

/-- Characters are compared as they are folded; a pattern that ends in its escape character
matches nothing.
-/
def likeElements (fold : Char → Char) : List Char → List (Element Char)
  | [] => []
  | char :: rest =>
      if char = '%' then .sequence :: likeElements fold rest
      else if char = '_' then .single (fun _ => true) :: likeElements fold rest
      else if char = '\\' then
        match rest with
        | [] => [.single (fun _ => false)]
        | escaped :: behind =>
            .single (fun other => fold other = fold escaped) :: likeElements fold behind
      else .single (fun other => fold other = fold char) :: likeElements fold rest

/-- `text LIKE pattern ESCAPE '\'`, by case. -/
def like (text pattern : List Char) : Bool := matchesText (likeElements id pattern) text

/-- `text ILIKE pattern ESCAPE '\'`, and what SQLite takes `LIKE` for. -/
def ilike (text pattern : List Char) : Bool := matchesText (likeElements asciiUpper pattern) text

theorem likeElements_escaped {fold : Char → Char} {char : Char} {rest : List Char}
    : likeElements fold ('\\' :: char :: rest)
      = .single (fun other => fold other = fold char) :: likeElements fold rest := by
  simp [likeElements]

theorem likeElements_plain {fold : Char → Char} {char : Char} {rest : List Char}
    (noPercent : char ≠ '%') (noUnderscore : char ≠ '_') (noEscape : char ≠ '\\')
    : likeElements fold (char :: rest)
      = .single (fun other => fold other = fold char) :: likeElements fold rest := by
  rw [likeElements.eq_def]
  simp only [if_neg noPercent, if_neg noUnderscore, if_neg noEscape]

/-- The case of a pattern's letters does not count where characters are compared up to it. -/
theorem likeElements_upper (pattern : List Char)
    : likeElements asciiUpper (upper pattern) = likeElements asciiUpper pattern := by
  have percent (char : Char) : asciiUpper char = '%' ↔ char = '%' :=
    asciiUpper_eq_iff (by decide) (by decide) char
  have underscore (char : Char) : asciiUpper char = '_' ↔ char = '_' :=
    asciiUpper_eq_iff (by decide) (by decide) char
  have escape (char : Char) : asciiUpper char = '\\' ↔ char = '\\' :=
    asciiUpper_eq_iff (by decide) (by decide) char
  induction size : pattern.length using Nat.strong_induction_on generalizing pattern with
  | _ size ih =>
      cases pattern with
      | nil => rfl
      | cons char rest =>
          have shorter := ih rest.length (by simp [← size]) rest rfl
          rw [upper] at shorter ⊢
          rw [List.map_cons, likeElements.eq_def, likeElements.eq_def]
          simp only [percent, underscore, escape, shorter, asciiUpper_asciiUpper]
          cases rest with
          | nil => rfl
          | cons escaped behind =>
              have shorter := ih behind.length
                (by rw [← size, List.length_cons, List.length_cons]; omega) behind rfl
              rw [upper] at shorter
              simp only [List.map_cons, shorter, asciiUpper_asciiUpper]

end N8n.SqlPatterns
