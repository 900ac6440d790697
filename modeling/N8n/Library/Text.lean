import Mathlib.Data.List.DropRight
import Mathlib.Data.List.Nodup
import Mathlib.Data.List.Perm.Subperm
import Mathlib.Data.List.Range

/-! Texts as lists of characters: whitespace and trimming as the source language has them,
and texts around a character that is no whitespace.
-/

namespace N8n.Text

/-- What `\s` matches and `trim` removes. -/
def isSpace (char : Char) : Bool :=
  let code := char.toNat
  (9 ≤ code && code ≤ 13) || code = 32 || code = 0xA0 || code = 0x1680
    || (0x2000 ≤ code && code ≤ 0x200A) || code = 0x2028 || code = 0x2029 || code = 0x202F
    || code = 0x205F || code = 0x3000 || code = 0xFEFF

def trimStart (text : List Char) : List Char := text.dropWhile isSpace

def trimEnd (text : List Char) : List Char := text.rdropWhile isSpace

def trim (text : List Char) : List Char := trimEnd (trimStart text)

/-- `/[a-zA-Z0-9]/`. -/
def isAlphanumeric (char : Char) : Bool :=
  let code := char.toNat
  (48 ≤ code && code ≤ 57) || (65 ≤ code && code ≤ 90) || (97 ≤ code && code ≤ 122)

variable {char : Char} {text front back : List Char}

/-- A text is its trimmed start, with whitespace in front. -/
theorem exists_trimStart (text : List Char)
    : ∃ spaces, text = spaces ++ trimStart text ∧ ∀ char ∈ spaces, isSpace char = true :=
  ⟨text.takeWhile isSpace, List.takeWhile_append_dropWhile.symm,
    fun _ member => List.mem_takeWhile_imp member⟩

theorem exists_trimEnd (text : List Char)
    : ∃ spaces, text = trimEnd text ++ spaces ∧ ∀ char ∈ spaces, isSpace char = true :=
  ⟨text.rtakeWhile isSpace, List.rdropWhile_append_rtakeWhile.symm,
    fun _ member => List.mem_rtakeWhile_imp member⟩

theorem exists_trim (text : List Char)
    : ∃ before after,
        text = before ++ trim text ++ after
        ∧ (∀ char ∈ before, isSpace char = true)
        ∧ ∀ char ∈ after, isSpace char = true := by
  obtain ⟨before, split, spacesBefore⟩ := exists_trimStart text
  obtain ⟨after, splitEnd, spacesAfter⟩ := exists_trimEnd (trimStart text)
  refine ⟨before, after, ?_, spacesBefore, spacesAfter⟩
  rw [List.append_assoc]
  exact split.trans (congrArg (before ++ ·) splitEnd)

theorem trimStart_around (visible : isSpace char = false)
    : trimStart (front ++ char :: back) = trimStart front ++ char :: back := by
  unfold trimStart
  rw [List.dropWhile_append, List.dropWhile_cons, visible]
  split
  · next empty => simp [List.isEmpty_iff.mp empty]
  · rfl

theorem trimEnd_around (visible : isSpace char = false)
    : trimEnd (front ++ char :: back) = front ++ char :: trimEnd back := by
  induction back using List.reverseRecOn with
  | nil => simp [trimEnd, visible]
  | append_singleton back last ih =>
      unfold trimEnd at ih ⊢
      rw [← List.cons_append, ← List.append_assoc, List.rdropWhile_concat, ih,
        List.rdropWhile_concat]
      split
      · rfl
      · simp

theorem trim_around (visible : isSpace char = false)
    : trim (front ++ char :: back) = trimStart front ++ char :: trimEnd back := by
  rw [trim, trimStart_around visible, trimEnd_around visible]

theorem trimEnd_trimEnd (text : List Char) : trimEnd (trimEnd text) = trimEnd text :=
  List.rdropWhile_idempotent isSpace text

theorem mem_of_mem_trimStart (member : char ∈ trimStart text) : char ∈ text :=
  (List.dropWhile_sublist isSpace).subset member

theorem mem_of_mem_trim (member : char ∈ trim text) : char ∈ text :=
  mem_of_mem_trimStart ((List.rdropWhile_prefix isSpace _).sublist.subset member)

/-- A prefix without the character lies in front of the character. -/
theorem isPrefix_around {pattern : List Char} (absent : char ∉ pattern)
    : pattern <+: front ++ char :: back ↔ pattern <+: front := by
  constructor
  · intro isPrefix
    rcases List.prefix_or_prefix_of_prefix isPrefix (List.prefix_append front (char :: back))
      with inside | beyond
    · exact inside
    · obtain ⟨rest, rfl⟩ := beyond
      rw [List.prefix_append_right_inj] at isPrefix
      cases rest with
      | nil => simp
      | cons first rest =>
          obtain ⟨same, _⟩ := List.cons_prefix_cons.mp isPrefix
          simp [same] at absent
  · intro isPrefix
    exact isPrefix.trans (List.prefix_append front (char :: back))

theorem first_unique {otherFront otherBack : List Char} (absent : char ∉ front)
    (otherAbsent : char ∉ otherFront)
    (same : front ++ char :: back = otherFront ++ char :: otherBack)
    : front = otherFront ∧ back = otherBack := by
  induction front generalizing otherFront with
  | nil =>
      cases otherFront with
      | nil => exact ⟨rfl, (List.cons.inj same).2⟩
      | cons first rest => simp [(List.cons.inj same).1] at otherAbsent
  | cons first rest ih =>
      cases otherFront with
      | nil => simp [(List.cons.inj same).1] at absent
      | cons other otherRest =>
          obtain ⟨rfl, tail⟩ := List.cons.inj same
          obtain ⟨rfl, backs⟩ := ih (fun member => absent (.tail _ member))
            (fun member => otherAbsent (.tail _ member)) tail
          exact ⟨rfl, backs⟩

theorem toList_toString (index : Nat) : (toString index).toList = Nat.toDigits 10 index :=
  Nat.toList_repr

theorem toString_injective {index index' : Nat}
    (same : (toString index).toList = (toString index').toList)
    : index = index' := by
  rw [toList_toString, toList_toString] at same
  have read := congrArg (fun digits => Nat.ofDigitChars 10 digits 0) same
  simpa only [Nat.ofDigitChars_ten_toDigits] using read

theorem isDigit_of_mem_toString {n : Nat} (member : char ∈ (toString n).toList)
    : char.isDigit = true := by
  rw [toList_toString] at member
  exact Nat.isDigit_of_mem_toDigits (by decide) (by decide) member

theorem toString_ne_nil (n : Nat) : (toString n).toList ≠ [] := by
  rw [toList_toString]
  exact Nat.toDigits_ne_nil

/-- Of the names with a number behind them, one is not taken. -/
theorem exists_numbered_not_mem (name : String) (first : Nat) (taken : List String)
    : ∃ counter, name ++ toString (counter + first) ∉ taken := by
  by_contra none
  simp only [not_exists, not_not] at none
  let names :=
    (List.range (taken.length + 1)).map (fun counter => name ++ toString (counter + first))
  have distinct : names.Nodup := by
    refine List.Nodup.map (fun counter other same => ?_) List.nodup_range
    have chars := congrArg String.toList same
    simp only [String.toList_append, List.append_cancel_left_eq] at chars
    have := toString_injective chars
    omega
  have subset : names ⊆ taken := by
    intro name member
    obtain ⟨counter, -, rfl⟩ := List.mem_map.mp member
    exact none counter
  have length := (List.subperm_of_subset distinct subset).length_le
  rw [List.length_map, List.length_range] at length
  omega

end N8n.Text
