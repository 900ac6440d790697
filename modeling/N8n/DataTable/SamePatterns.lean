import N8n.DataTable.RowsRepository

/-! The pattern filters and the search on SQLite and on Postgres: all of them say yes to the texts
that can be cut into the literal parts of the pattern.
-/

namespace N8n.DataTable

open N8n.Patterns
open N8n.SqlPatterns
open N8n.WhereClauses

variable {Name Value : Type*} {db : Database Value} {row : Row Name Value} {column : Name}
variable {cell : Value} {pattern text : List Char}

theorem asciiUpper_eq_percent (char : Char) : asciiUpper char = '%' ↔ char = '%' :=
  asciiUpper_eq_iff (by decide) (by decide) char

theorem glob_iff_isCut
    : glob text (toSqliteGlobFromPercent pattern) = true ↔ IsCut (pattern.splitOn '%') text := by
  rw [glob, globElements_toSqliteGlobFromPercent,
    matchesText_withWildcard '%' id pattern text (fun _ => Iff.rfl), List.map_id, List.map_id]

theorem like_iff_isCut
    : like text (escapeLikeSpecials pattern) = true ↔ IsCut (pattern.splitOn '%') text := by
  rw [like, likeElements_escapeLikeSpecials,
    matchesText_withWildcard '%' id pattern text (fun _ => Iff.rfl), List.map_id, List.map_id]

theorem ilike_iff_isCut
    : ilike text (escapeLikeSpecials pattern) = true
      ↔ IsCut ((upper pattern).splitOn '%') (upper text) := by
  rw [ilike, likeElements_escapeLikeSpecials]
  exact matchesText_withWildcard '%' asciiUpper pattern text asciiUpper_eq_percent

theorem upper_upper (text : List Char) : upper (upper text) = upper text := by
  simp [upper, asciiUpper_asciiUpper]

theorem ilike_upper_iff_isCut
    : ilike (upper text) (upper (escapeLikeSpecials pattern)) = true
      ↔ IsCut ((upper pattern).splitOn '%') (upper text) := by
  rw [ilike, likeElements_upper, ← ilike, ilike_iff_isCut, upper_upper]

theorem evaluate_singleton {predicate : Predicate Name Value}
    : Clause.evaluate db row [predicate] = some true
      ↔ Predicate.evaluate db row predicate = some true := by
  rw [Clause.evaluate, any_eq_true]
  simp [eq_comm]

theorem DbType.isSqlite_or_postgres {dbType : DbType} (known : dbType ≠ .other)
    : dbType.isSqlite = true ∨ dbType = .postgres := by
  cases dbType with
  | postgres => exact Or.inr rfl
  | other => exact absurd rfl known
  | _ => exact Or.inl rfl

theorem evaluate_like (known : db.type ≠ .other) (found : row column = some cell)
    : Clause.evaluate db row (getConditionAndParams ⟨column, .like pattern⟩ db.type) = some true
      ↔ IsCut (pattern.splitOn '%') (db.text cell) := by
  obtain isSqlite | isPostgres := DbType.isSqlite_or_postgres known
  · have clause
        : getConditionAndParams (⟨column, .like pattern⟩ : Filter Name Value) db.type
          = [.glob column (toSqliteGlobFromPercent pattern)] := by
      simp [getConditionAndParams, isSqlite]
    rw [clause, evaluate_singleton, Predicate.evaluate, found]
    exact Option.some_inj.trans glob_iff_isCut
  · have clause
        : getConditionAndParams (⟨column, .like pattern⟩ : Filter Name Value) db.type
          = [.likeEscape column (escapeLikeSpecials pattern)] := by
      simp [getConditionAndParams, isPostgres]
    rw [clause, evaluate_singleton, Predicate.evaluate, found, Option.map_some,
      Database.likeEscape, isPostgres, DbType.isSqlite_postgres,
      if_neg Bool.false_ne_true]
    exact Option.some_inj.trans like_iff_isCut

/-- What both databases make of a pattern up to the case of letters. -/
theorem evaluate_searchCondition (known : db.type ≠ .other) (found : row column = some cell)
    : Predicate.evaluate db row (searchCondition db.type (escapeLikeSpecials pattern) column)
        = some true
      ↔ IsCut ((upper pattern).splitOn '%') (upper (db.text cell)) := by
  obtain isSqlite | isPostgres := DbType.isSqlite_or_postgres known
  · rw [searchCondition, if_pos isSqlite, Predicate.evaluate, found, Option.map_some,
      Database.likeEscape, if_pos isSqlite]
    exact Option.some_inj.trans ilike_upper_iff_isCut
  · rw [searchCondition, isPostgres, DbType.isSqlite_postgres,
      if_neg Bool.false_ne_true, if_pos rfl,
      Predicate.evaluate, found, Option.map_some]
    exact Option.some_inj.trans ilike_iff_isCut

/-- An `ilike` filter asks what a search asks of its column. -/
theorem getConditionAndParams_ilike {dbType : DbType} (known : dbType ≠ .other)
    : getConditionAndParams (⟨column, .ilike pattern⟩ : Filter Name Value) dbType
      = [searchCondition dbType (escapeLikeSpecials pattern) column] := by
  obtain isSqlite | isPostgres := DbType.isSqlite_or_postgres known
  · simp [getConditionAndParams, searchCondition, isSqlite]
  · simp [getConditionAndParams, searchCondition, isPostgres]

theorem evaluate_ilike (known : db.type ≠ .other) (found : row column = some cell)
    : Clause.evaluate db row (getConditionAndParams ⟨column, .ilike pattern⟩ db.type) = some true
      ↔ IsCut ((upper pattern).splitOn '%') (upper (db.text cell)) := by
  rw [getConditionAndParams_ilike known, evaluate_singleton, evaluate_searchCondition known found]

/-- A pattern in which only `%` is a wildcard means the same on SQLite and on Postgres. -/
structure SamePattern (Name Value : Type*) (pattern : List Char) : Prop where
  glob_eq_like
    : ∀ text,
        glob text (toSqliteGlobFromPercent pattern) = like text (escapeLikeSpecials pattern)
  like_iff
    : ∀ text, like text (escapeLikeSpecials pattern) = true ↔ IsCut (pattern.splitOn '%') text
  upper_eq_ilike
    : ∀ text,
        ilike (upper text) (upper (escapeLikeSpecials pattern))
        = ilike text (escapeLikeSpecials pattern)
  ilike_iff
    : ∀ text,
        ilike text (escapeLikeSpecials pattern) = true
        ↔ IsCut ((upper pattern).splitOn '%') (upper text)
  likeFilter
    : ∀ (db : Database Value) (row : Row Name Value) (column : Name) (cell : Value),
        db.type ≠ .other
        → row column = some cell
        → (Clause.evaluate db row (getConditionAndParams ⟨column, .like pattern⟩ db.type)
            = some true
          ↔ IsCut (pattern.splitOn '%') (db.text cell))
  ilikeFilter
    : ∀ (db : Database Value) (row : Row Name Value) (column : Name) (cell : Value),
        db.type ≠ .other
        → row column = some cell
        → (Clause.evaluate db row (getConditionAndParams ⟨column, .ilike pattern⟩ db.type)
            = some true
          ↔ IsCut ((upper pattern).splitOn '%') (upper (db.text cell)))
  search
    : ∀ (db : Database Value) (row : Row Name Value) (column : Name) (cell : Value),
        db.type ≠ .other
        → row column = some cell
        → (Predicate.evaluate db row
              (searchCondition db.type (escapeLikeSpecials (searchTerm pattern)) column)
            = some true
          ↔ IsCut ((upper (searchTerm pattern)).splitOn '%') (upper (db.text cell)))

theorem samePattern (Name Value : Type*) (pattern : List Char)
    : SamePattern Name Value pattern where
  glob_eq_like _ := Bool.eq_iff_iff.mpr (glob_iff_isCut.trans like_iff_isCut.symm)
  like_iff _ := like_iff_isCut
  upper_eq_ilike _ := Bool.eq_iff_iff.mpr (ilike_upper_iff_isCut.trans ilike_iff_isCut.symm)
  ilike_iff _ := ilike_iff_isCut
  likeFilter _ _ _ _ known found := evaluate_like known found
  ilikeFilter _ _ _ _ known found := evaluate_ilike known found
  search _ _ _ _ known found := evaluate_searchCondition known found

end N8n.DataTable
