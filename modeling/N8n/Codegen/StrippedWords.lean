import N8n.Codegen.VariableNames

/-! The rewriting steps together: what is cut off from a node's name, and what is left of it as
the name of a variable.
-/

namespace N8n.Codegen

open N8n.Text

variable {char : Char} {text word before behind : List Char} {nodeName : NodeName}

/-- The name without what stands for other characters in front and behind; where nothing was in
front, its first letter is in lower case.
-/
def strippedWord (nodeName : NodeName) : List Char :=
  let chars := replaceOthers nodeName
  let word := (chars.dropWhile (fun char => char = '_')).rdropWhile (fun char => char = '_')
  if chars.head? = some '_' then word else lowerFirst word

theorem isAlphanum_of_isAlphanumeric (kept : isAlphanumeric char = true)
    : char.isAlphanum = true := by
  delta Char.isAlphanum Char.isAlpha Char.isUpper Char.isLower Char.isDigit
  simp only [isAlphanumeric, Char.toNat, Bool.or_eq_true, Bool.and_eq_true, decide_eq_true_eq,
    ge_iff_le, UInt32.le_iff_toNat_le] at kept ⊢
  simp only [Char.reduceVal, UInt32.reduceToNat] at kept ⊢
  omega

theorem isAlpha_of_not_isDigit (kept : char.isAlphanum = true) (noDigit : char.isDigit = false)
    : char.isAlpha = true := by
  simpa [Char.isAlphanum, noDigit] using kept

theorem not_isDigit_of_isAlpha (letter : char.isAlpha = true) : char.isDigit = false := by
  delta Char.isAlpha Char.isUpper Char.isLower at letter
  delta Char.isDigit
  grind

theorem isAlphanum_toLower (upper : char.isUpper = true) : char.toLower.isAlphanum = true := by
  have bounds : char.val ≥ 'A'.val ∧ char.val ≤ 'Z'.val := of_decide_eq_true upper
  have lower : char.toLower.isLower = true := by
    delta Char.toLower Char.isLower
    simp only [dif_pos bounds]
    have first : 65 ≤ char.val.toNat := UInt32.le_iff_toNat_le.mp bounds.1
    have last : char.val.toNat ≤ 90 := UInt32.le_iff_toNat_le.mp bounds.2
    simp only [ge_iff_le, UInt32.le_iff_toNat_le, UInt32.toNat_add, Bool.and_eq_true,
      decide_eq_true_eq, Char.reduceVal, UInt32.reduceToNat, UInt32.reduceSub]
    omega
  change ((char.toLower.isUpper || char.toLower.isLower) || char.toLower.isDigit) = true
  simp [lower]

theorem ne_underscore (kept : char.isAlphanum = true) : char ≠ '_' := by
  rintro rfl
  exact absurd kept (by decide)

/-- The characters of names: letters, digits and the underscore. -/
def NameChars (text : List Char) : Prop := ∀ char ∈ text, char.isAlphanum = true ∨ char = '_'

theorem plain_replaceOthers (nodeName : NodeName) : NameChars (replaceOthers nodeName) := by
  intro char member
  obtain ⟨unit, -, rfl⟩ := List.mem_map.mp member
  dsimp only
  split
  · next kept => exact .inl (isAlphanum_of_isAlphanumeric kept)
  · exact .inr rfl

theorem plain_lowerFirst (plain : NameChars text) : NameChars (lowerFirst text) := by
  cases text with
  | nil => exact plain
  | cons first rest =>
      simp only [lowerFirst]
      split
      · next upper =>
          intro char member
          rcases List.mem_cons.mp member with rfl | later
          · exact .inl (isAlphanum_toLower upper)
          · exact plain char (.tail _ later)
      · exact plain

/-- Lower case does not make an underscore of a character. -/
theorem head?_lowerFirst (starts : text.head? ≠ some '_') : (lowerFirst text).head? ≠ some '_' := by
  cases text with
  | nil => exact starts
  | cons first rest =>
      simp only [lowerFirst]
      split
      · next upper => simpa using ne_underscore (isAlphanum_toLower upper)
      · exact starts

theorem lowerFirst_eq_nil : lowerFirst text = [] ↔ text = [] := by
  cases text with
  | nil => simp [lowerFirst]
  | cons first rest =>
      simp only [lowerFirst]
      split <;> simp

theorem mergeUnderscores_cons (differs : char ≠ '_')
    : mergeUnderscores (char :: text) = char :: mergeUnderscores text := by
  simp [mergeUnderscores, differs]

theorem head?_mergeUnderscores (text : List Char)
    : (mergeUnderscores text).head? = text.head? := by
  induction text with
  | nil => rfl
  | cons first rest ih =>
      simp only [mergeUnderscores]
      split
      · next doubled => rw [ih, doubled.2, doubled.1, List.head?_cons]
      · rfl

theorem mem_mergeUnderscores : char ∈ mergeUnderscores text ↔ char ∈ text := by
  induction text with
  | nil => rfl
  | cons first rest ih =>
      simp only [mergeUnderscores]
      split
      · next doubled =>
          have here : '_' ∈ rest := List.mem_of_mem_head? doubled.2
          rw [ih, List.mem_cons, doubled.1]
          constructor
          · exact .inr
          · rintro (rfl | member)
            · exact here
            · exact member
      · rw [List.mem_cons, List.mem_cons, ih]

theorem mergeUnderscores_of_not_mem (none : '_' ∉ text) : mergeUnderscores text = text := by
  induction text with
  | nil => rfl
  | cons first rest ih =>
      obtain ⟨differs, absent⟩ := not_or.mp (fun member => none (List.mem_cons.mpr member))
      rw [mergeUnderscores_cons (Ne.symm differs), ih absent]

theorem mergeUnderscores_eq_nil : mergeUnderscores text = [] ↔ text = [] := by
  rw [← List.head?_eq_none_iff, head?_mergeUnderscores, List.head?_eq_none_iff]

theorem getLast?_mergeUnderscores (text : List Char)
    : (mergeUnderscores text).getLast? = text.getLast? := by
  induction text with
  | nil => rfl
  | cons first rest ih =>
      simp only [mergeUnderscores]
      split
      · next doubled =>
          have here : rest ≠ [] := by
            rintro rfl
            simp at doubled
          rw [ih, List.getLast?_cons_of_ne_nil here]
      · rw [List.getLast?_cons, List.getLast?_cons, ih]

theorem mergeUnderscores_cons_cons (first second : Char) (rest : List Char)
    : mergeUnderscores (first :: second :: rest)
      = if first = '_' ∧ second = '_' then mergeUnderscores (second :: rest)
        else first :: mergeUnderscores (second :: rest) := by
  rw [mergeUnderscores]
  simp

theorem mergeUnderscores_front (all : ∀ char ∈ before, char = '_') (nonempty : before ≠ [])
    (starts : word.head? ≠ some '_')
    : mergeUnderscores (before ++ word) = '_' :: mergeUnderscores word := by
  induction before with
  | nil => exact absurd rfl nonempty
  | cons first rest ih =>
      obtain rfl := all first (.head _)
      cases rest with
      | nil => simp [mergeUnderscores, starts]
      | cons second rest =>
          obtain rfl := all second (by simp)
          rw [List.cons_append, List.cons_append, mergeUnderscores_cons_cons, if_pos ⟨rfl, rfl⟩]
          exact ih (fun char member => all char (.tail _ member)) (by simp)

theorem mergeUnderscores_behind (all : ∀ char ∈ behind, char = '_') (nonempty : behind ≠ [])
    (ends : word.getLast? ≠ some '_')
    : mergeUnderscores (word ++ behind) = mergeUnderscores word ++ ['_'] := by
  induction word with
  | nil =>
      have starts : ([] : List Char).head? ≠ some '_' := by simp
      simpa [mergeUnderscores] using mergeUnderscores_front all nonempty starts
  | cons first rest ih =>
      cases rest with
      | nil =>
          have differs : first ≠ '_' := by simpa using ends
          rw [List.cons_append, mergeUnderscores_cons differs, mergeUnderscores_cons differs,
            ih (by simp), List.cons_append]
      | cons second rest =>
          have later := ih (by rwa [List.getLast?_cons_cons] at ends)
          rw [List.cons_append] at later
          rw [List.cons_append, List.cons_append, mergeUnderscores_cons_cons,
            mergeUnderscores_cons_cons, later]
          split
          · rfl
          · rw [List.cons_append]

/-- The underscores behind a word are gone with the one that they become. -/
theorem dropLastUnderscore_mergeUnderscores (all : ∀ char ∈ behind, char = '_')
    (ends : word.getLast? ≠ some '_')
    : dropLastUnderscore (mergeUnderscores (word ++ behind)) = mergeUnderscores word := by
  by_cases nonempty : behind = []
  · subst nonempty
    rw [List.append_nil, dropLastUnderscore, getLast?_mergeUnderscores, if_neg ends]
  · rw [mergeUnderscores_behind all nonempty ends, dropLastUnderscore,
      if_pos List.getLast?_concat, List.dropLast_concat]

theorem exists_strippedWord (nodeName : NodeName)
    : ∃ before word behind,
        replaceOthers nodeName = before ++ word ++ behind
        ∧ (∀ char ∈ before, char = '_')
        ∧ (∀ char ∈ behind, char = '_')
        ∧ word.head? ≠ some '_'
        ∧ word.getLast? ≠ some '_'
        ∧ strippedWord nodeName = if before = [] then lowerFirst word else word := by
  let chars := replaceOthers nodeName
  let start := chars.dropWhile (fun char => char = '_')
  let word := start.rdropWhile (fun char => char = '_')
  have startsWell : start.head? ≠ some '_' := by
    intro here
    have none := List.head?_dropWhile_not (fun char => char = '_') chars
    simp [start] at here
    simp [here] at none
  have inFront : word <+: start := List.rdropWhile_prefix _ _
  refine ⟨chars.takeWhile (fun char => char = '_'), word,
    start.rtakeWhile (fun char => char = '_'), ?_, ?_, ?_, ?_, ?_, ?_⟩
  · rw [List.append_assoc, List.rdropWhile_append_rtakeWhile, List.takeWhile_append_dropWhile]
  · intro char member
    simpa using List.mem_takeWhile_imp member
  · intro char member
    simpa using List.mem_rtakeWhile_imp member
  · intro here
    obtain ⟨behind, split⟩ := inFront
    exact startsWell (by rw [← split, List.head?_append, here]; rfl)
  · intro here
    have nonempty : word ≠ [] := by
      intro none
      simp [none] at here
    have last := List.rdropWhile_last_not (fun char => char = '_') start nonempty
    rw [List.getLast?_eq_some_getLast nonempty] at here
    exact last (by simpa using here)
  · have front : chars.takeWhile (fun char => char = '_') = [] ↔ chars.head? ≠ some '_' := by
      cases chars <;> simp [List.takeWhile_cons]
    simp only [strippedWord, front]
    by_cases here : chars.head? = some '_' <;> simp [here, chars, word, start]

theorem lowerFirst_mergeUnderscores (starts : word.head? ≠ some '_')
    : lowerFirst (mergeUnderscores word) = mergeUnderscores (lowerFirst word) := by
  cases word with
  | nil => rfl
  | cons first rest =>
      have differs : first ≠ '_' := by simpa using starts
      have lowered := head?_lowerFirst starts
      rw [mergeUnderscores_cons differs, lowerFirst, lowerFirst]
      by_cases upper : first.isUpper = true
      · rw [lowerFirst, if_pos upper] at lowered
        rw [if_pos upper, if_pos upper, mergeUnderscores_cons (by simpa using lowered)]
      · rw [if_neg upper, if_neg upper, mergeUnderscores_cons differs]

theorem dropUnderscoreBeforeLetter_of_ne (starts : text.head? ≠ some '_')
    : dropUnderscoreBeforeLetter text = text := by
  unfold dropUnderscoreBeforeLetter
  split
  · simp at starts
  · rfl

theorem dropUnderscoreBeforeLetter_cons (starts : text.head? ≠ some '_') (plain : NameChars text)
    (nonempty : text ≠ [])
    : dropUnderscoreBeforeLetter ('_' :: text) = prefixDigit text := by
  cases text with
  | nil => exact absurd rfl nonempty
  | cons first rest =>
      have kept : first.isAlphanum = true :=
        (plain first (.head _)).resolve_right (by simpa using starts)
      simp only [dropUnderscoreBeforeLetter, prefixDigit]
      by_cases digit : first.isDigit = true
      · have noLetter : ¬ first.isAlpha = true := fun letter => by
          simp [not_isDigit_of_isAlpha letter] at digit
        rw [if_neg noLetter, if_pos digit]
      · rw [if_pos (isAlpha_of_not_isDigit kept (by simpa using digit)), if_neg digit]

theorem dropUnderscoreBeforeLetter_prefixDigit (starts : text.head? ≠ some '_')
    : dropUnderscoreBeforeLetter (prefixDigit text) = prefixDigit text := by
  cases text with
  | nil => rfl
  | cons first rest =>
      simp only [prefixDigit]
      split
      · next digit =>
          have noLetter : ¬ first.isAlpha = true := fun letter => by
            simp [not_isDigit_of_isAlpha letter] at digit
          rw [dropUnderscoreBeforeLetter, if_neg noLetter]
      · exact dropUnderscoreBeforeLetter_of_ne starts

/-- The name of a variable is the stripped word with its underscores merged, unless the word is
empty or reserved.
-/
theorem toVarName_eq (nodeName : NodeName)
    : toVarName nodeName
      = if strippedWord nodeName = [] then String.ofList (hashFallbackName nodeName)
        else
          let varName := String.ofList (prefixDigit (mergeUnderscores (strippedWord nodeName)))
          if varName ∈ RESERVED_KEYWORDS then varName ++ "_node" else varName := by
  obtain ⟨before, word, behind, chars, inFront, after, starts, ends, stripped⟩ :=
    exists_strippedWord nodeName
  have plain : NameChars word := fun char member =>
    plain_replaceOthers nodeName char (by rw [chars]; simp [member])
  unfold toVarName
  rw [chars, stripped]
  by_cases none : word = []
  · subst none
    have all : ∀ char ∈ before ++ behind, char = '_' := fun char member =>
      (List.mem_append.mp member).elim (inFront char) (after char)
    have ends' : ([] : List Char).getLast? ≠ some '_' := by simp
    have gone := dropLastUnderscore_mergeUnderscores all ends'
    rw [List.nil_append] at gone
    rw [List.append_nil, gone]
    simp [mergeUnderscores, lowerFirst]
  · by_cases first : before = []
    · subst first
      have merged : mergeUnderscores (lowerFirst word) ≠ [] := by
        rwa [ne_eq, mergeUnderscores_eq_nil, lowerFirst_eq_nil]
      have lowered : (mergeUnderscores (lowerFirst word)).head? ≠ some '_' := by
        rw [head?_mergeUnderscores]
        exact head?_lowerFirst starts
      have noUnderscore : mergeUnderscores (lowerFirst word) ≠ ['_'] := by
        intro same
        simp [same] at lowered
      rw [List.nil_append, dropLastUnderscore_mergeUnderscores after ends,
        lowerFirst_mergeUnderscores starts, if_neg (not_or.mpr ⟨merged, noUnderscore⟩),
        if_pos rfl, if_neg (mt lowerFirst_eq_nil.mp none),
        dropUnderscoreBeforeLetter_prefixDigit lowered]
    · have ends' : (before ++ word).getLast? ≠ some '_' := by
        rwa [List.getLast?_append_of_ne_nil _ none]
      have merged : mergeUnderscores word ≠ [] := mt mergeUnderscores_eq_nil.mp none
      have lowered
          : lowerFirst ('_' :: mergeUnderscores word) = '_' :: mergeUnderscores word := rfl
      have plain' : NameChars (mergeUnderscores word) := fun char member =>
        plain char (mem_mergeUnderscores.mp member)
      have noDigit
          : prefixDigit ('_' :: mergeUnderscores word) = '_' :: mergeUnderscores word := rfl
      rw [dropLastUnderscore_mergeUnderscores after ends',
        mergeUnderscores_front inFront first starts, lowered, if_neg (by simp [merged]),
        if_neg first, if_neg none, noDigit,
        dropUnderscoreBeforeLetter_cons (by rwa [head?_mergeUnderscores]) plain' merged]

/-- The characters of a variable's name: the first is no digit, and where it is an underscore, a
digit is next.
-/
def WellFormed (text : List Char) : Prop :=
  NameChars text
  ∧ ∃ first rest,
      text = first :: rest
      ∧ first.isDigit = false
      ∧ (first = '_' → ∃ second ∈ rest.head?, second.isDigit = true)

theorem WellFormed.append (formed : WellFormed text) (plain : NameChars word)
    : WellFormed (text ++ word) := by
  obtain ⟨plainText, first, rest, rfl, noDigit, next⟩ := formed
  refine ⟨?_, first, rest ++ word, rfl, noDigit, fun underscore => ?_⟩
  · intro char member
    exact (List.mem_append.mp member).elim (plainText char) (plain char)
  · obtain ⟨second, here, digit⟩ := next underscore
    refine ⟨second, ?_, digit⟩
    rw [Option.mem_def] at here ⊢
    rw [List.head?_append, here, Option.some_or]

theorem wellFormed_hashFallbackName (nodeName : NodeName)
    : WellFormed (hashFallbackName nodeName) := by
  have digits : ∀ digit < 36, (base36Digit digit).isAlphanum = true := by decide
  have formed : WellFormed "node_".toList :=
    ⟨by simp [NameChars, Char.isAlphanum], 'n', "ode_".toList, rfl, by decide,
      fun same => absurd same (by decide)⟩
  refine formed.append ?_
  intro char member
  refine .inl ?_
  unfold toString36 at member
  split at member
  · obtain rfl := List.mem_singleton.mp member
    decide
  · obtain ⟨digit, here, rfl⟩ := List.mem_map.mp (List.mem_reverse.mp member)
    exact digits digit (Nat.digits_lt_base (by decide) here)

theorem wellFormed_prefixDigit (plain : NameChars text) (starts : text.head? ≠ some '_')
    (nonempty : text ≠ [])
    : WellFormed (prefixDigit text) := by
  cases text with
  | nil => exact absurd rfl nonempty
  | cons first rest =>
      simp only [prefixDigit]
      split
      · next digit =>
          refine ⟨?_, '_', first :: rest, rfl, by decide, fun _ => ⟨first, rfl, digit⟩⟩
          intro char member
          rcases List.mem_cons.mp member with rfl | later
          · exact .inr rfl
          · exact plain char later
      · next noDigit =>
          refine ⟨plain, first, rest, rfl, by simpa using noDigit, fun underscore => ?_⟩
          simp [underscore] at starts

theorem plain_strippedWord (nodeName : NodeName) : NameChars (strippedWord nodeName) := by
  obtain ⟨before, word, behind, chars, -, -, -, -, stripped⟩ := exists_strippedWord nodeName
  have plain : NameChars word := fun char member =>
    plain_replaceOthers nodeName char (by rw [chars]; simp [member])
  rw [stripped]
  split
  · exact plain_lowerFirst plain
  · exact plain

theorem head?_strippedWord (nodeName : NodeName) : (strippedWord nodeName).head? ≠ some '_' := by
  obtain ⟨before, word, behind, -, -, -, starts, -, stripped⟩ := exists_strippedWord nodeName
  rw [stripped]
  split
  · exact head?_lowerFirst starts
  · exact starts

theorem wellFormed_toVarName (nodeName : NodeName) : WellFormed (toVarName nodeName).toList := by
  rw [toVarName_eq]
  by_cases none : strippedWord nodeName = []
  · rw [if_pos none, String.toList_ofList]
    exact wellFormed_hashFallbackName nodeName
  · have formed : WellFormed (prefixDigit (mergeUnderscores (strippedWord nodeName))) := by
      refine wellFormed_prefixDigit ?_ ?_ (mt mergeUnderscores_eq_nil.mp none)
      · intro char member
        exact plain_strippedWord nodeName char (mem_mergeUnderscores.mp member)
      · rw [head?_mergeUnderscores]
        exact head?_strippedWord nodeName
    rw [if_neg none]
    dsimp only
    split
    · rw [String.toList_append, String.toList_ofList]
      exact formed.append (by simp [NameChars, Char.isAlphanum])
    · rw [String.toList_ofList]
      exact formed

/-- A name without underscores is the stripped word itself, and it is not reserved. -/
theorem strippedWord_of_not_mem (none : '_' ∉ (toVarName nodeName).toList)
    : String.ofList (strippedWord nodeName) = toVarName nodeName
      ∧ toVarName nodeName ∉ RESERVED_KEYWORDS := by
  rw [toVarName_eq] at none ⊢
  by_cases empty : strippedWord nodeName = []
  · rw [if_pos empty, String.toList_ofList] at none
    have here : '_' ∈ "node_".toList := by decide
    exact absurd (List.mem_append_left _ here) none
  · rw [if_neg empty] at none ⊢
    dsimp only at none ⊢
    split at none
    · have here : '_' ∈ "_node".toList := by decide
      rw [String.toList_append] at none
      exact absurd (List.mem_append_right _ here) none
    · next free =>
        rw [if_neg free]
        refine ⟨?_, free⟩
        rw [String.toList_ofList] at none
        cases word : mergeUnderscores (strippedWord nodeName) with
        | nil => exact absurd (mergeUnderscores_eq_nil.mp word) empty
        | cons first rest =>
            rw [word, prefixDigit] at none
            split at none
            · simp at none
            · next noDigit =>
                have absent : '_' ∉ strippedWord nodeName := by
                  rw [← mem_mergeUnderscores, word]
                  exact none
                rw [prefixDigit, if_neg noDigit, ← word, mergeUnderscores_of_not_mem absent]

/-- A word of letters that is not reserved becomes the name of a variable as it is. -/
theorem toVarName_of_strippedWord (letters : ∀ char ∈ strippedWord nodeName, char.isAlpha = true)
    (nonempty : strippedWord nodeName ≠ [])
    (free : String.ofList (strippedWord nodeName) ∉ RESERVED_KEYWORDS)
    : toVarName nodeName = String.ofList (strippedWord nodeName) := by
  have absent : '_' ∉ strippedWord nodeName := fun member =>
    absurd (letters _ member) (by decide)
  have unchanged
      : prefixDigit (mergeUnderscores (strippedWord nodeName)) = strippedWord nodeName := by
    rw [mergeUnderscores_of_not_mem absent]
    cases word : strippedWord nodeName with
    | nil => rfl
    | cons first rest =>
        have letter := letters first (by simp [word])
        rw [prefixDigit, if_neg (by simp [not_isDigit_of_isAlpha letter])]
  rw [toVarName_eq, if_neg nonempty, unchanged]
  exact if_neg free

end N8n.Codegen
