import N8n.Library.SqlPatterns

/-! The translations of patterns in which only `%` is a wildcard into the pattern languages of the
databases.
-/

namespace N8n.DataTable

open N8n.Patterns
open N8n.SqlPatterns

variable {fold : Char → Char} {char : Char} {pattern rest : List Char}

/-- Convert a LIKE-style pattern (only % is wildcard) into a SQLite GLOB pattern. -/
def toSqliteGlobFromPercent (input : List Char) : List Char :=
  input.flatMap (fun ch =>
    if ch = '%' then ['*']
    else if ch = '[' then ['[', '[', ']']
    else if ch = ']' then ['[', ']', ']']
    else if ch = '*' then ['[', '*', ']']
    else if ch = '?' then ['[', '?', ']']
    else [ch])

/-- `text.replace(/mark/g, replacement)`. -/
def replaceAll (mark : Char) (replacement text : List Char) : List Char :=
  text.flatMap (fun char => if char = mark then replacement else [char])

/-- Keep '%' as wildcard; make '_' literal; escape the escape char itself. -/
def escapeLikeSpecials (input : List Char) : List Char :=
  replaceAll '_' ['\\', '_'] (replaceAll '\\' ['\\', '\\'] input)

theorem toSqliteGlobFromPercent_cons
    : toSqliteGlobFromPercent (char :: rest)
      = (if char = '%' then ['*']
        else if char = '[' ∨ char = ']' ∨ char = '*' ∨ char = '?' then ['[', char, ']']
        else [char]) ++ toSqliteGlobFromPercent rest := by
  simp only [toSqliteGlobFromPercent, List.flatMap_cons]
  congr 1
  split <;> grind

/-- The translation into GLOB has the same elements as the pattern. -/
theorem globElements_toSqliteGlobFromPercent (pattern : List Char)
    : globElements .outside (toSqliteGlobFromPercent pattern) = withWildcard '%' id pattern := by
  induction pattern with
  | nil => rfl
  | cons char rest ih =>
      rw [toSqliteGlobFromPercent_cons, withWildcard, List.map_cons, ← withWildcard, ← ih]
      by_cases wildcard : char = '%'
      · rw [if_pos wildcard, if_pos wildcard]
        rfl
      · rw [if_neg wildcard, if_neg wildcard]
        by_cases special : char = '[' ∨ char = ']' ∨ char = '*' ∨ char = '?'
        · rw [if_pos special]
          have apart : char ≠ '^' := by
            rintro rfl
            exact absurd special (by decide)
          exact globElements_literal apart
        · rw [if_neg special]
          simp only [not_or] at special
          exact globElements_plain special.2.2.1 special.2.2.2 special.1

theorem escapeLikeSpecials_cons
    : escapeLikeSpecials (char :: rest)
      = (if char = '_' ∨ char = '\\' then ['\\', char] else [char])
        ++ escapeLikeSpecials rest := by
  unfold escapeLikeSpecials replaceAll
  rw [List.flatMap_cons, List.flatMap_append]
  congr 1
  by_cases escape : char = '\\'
  · subst escape
    rfl
  · by_cases underscore : char = '_' <;> simp [escape, underscore]

/-- The escaped pattern has the same elements as the pattern. -/
theorem likeElements_escapeLikeSpecials (fold : Char → Char) (pattern : List Char)
    : likeElements fold (escapeLikeSpecials pattern) = withWildcard '%' fold pattern := by
  induction pattern with
  | nil => rfl
  | cons char rest ih =>
      rw [escapeLikeSpecials_cons, withWildcard, List.map_cons, ← withWildcard, ← ih]
      by_cases special : char = '_' ∨ char = '\\'
      · have literal : char ≠ '%' := by
          rintro rfl
          exact absurd special (by decide)
        rw [if_pos special, if_neg literal]
        exact likeElements_escaped
      · rw [if_neg special]
        rw [not_or] at special
        by_cases wildcard : char = '%'
        · subst wildcard
          rw [if_pos rfl, List.singleton_append, likeElements.eq_def]
          rfl
        · rw [if_neg wildcard]
          exact likeElements_plain wildcard special.1 special.2

end N8n.DataTable
