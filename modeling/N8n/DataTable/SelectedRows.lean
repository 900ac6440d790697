import N8n.DataTable.SamePatterns

/-! The rows that a listing selects, beside those that satisfy its filter and contain its search. -/

namespace N8n.DataTable

open N8n.Patterns
open N8n.SqlPatterns
open N8n.WhereClauses

variable {Name Value : Type*} {db : Database Value} {row : Row Name Value}
variable {dto : ListDataTableContentQuery Name Value} {columns : List Name}
variable {table : List (Row Name Value)}

/-! ### What filters and searches are about -/

/-- The text matches a pattern in which `%` is the only wildcard, or what `LIKE` is on a database
other than SQLite and Postgres.
-/
def Database.Matches (db : Database Value) (pattern text : List Char) : Prop :=
  if db.type = .other then db.likePlain text pattern = true
  else IsCut (pattern.splitOn '%') text

def Database.MatchesIgnoringCase (db : Database Value) (pattern text : List Char) : Prop :=
  db.Matches (upper pattern) (upper text)

/-- The text contains the search, or matches it as a pattern when it has a wildcard. -/
def Database.Contains (db : Database Value) (search text : List Char) : Prop :=
  if db.type = .other then
    db.likePlain (upper text) (upper (escapeLikeSpecials (searchTerm search))) = true
  else if '%' ∈ search then db.MatchesIgnoringCase search text
  else upper search <:+: upper text

def Filter.SatisfiedBy (db : Database Value) (row : Row Name Value) (filter : Filter Name Value)
    : Prop :=
  match filter.condition with
  | .comparison .eq none => row filter.columnName = none
  | .comparison _ none => False
  | .comparison operator (some value) =>
      ∃ cell, row filter.columnName = some cell ∧ db.compare operator cell value = true
  | .neq none => row filter.columnName ≠ none
  | .neq (some value) =>
      ∀ cell, row filter.columnName = some cell → db.compare .eq cell value = false
  | .like value => ∃ cell, row filter.columnName = some cell ∧ db.Matches value (db.text cell)
  | .ilike value =>
      ∃ cell, row filter.columnName = some cell ∧ db.MatchesIgnoringCase value (db.text cell)

namespace DataTableFilter

def conditions (filter : DataTableFilter Name Value) : List (Filter Name Value) :=
  filter.filters.getD []

def IsOr (filter : DataTableFilter Name Value) : Prop := filter.type.getD .and = .or

/-- All conditions for `and`, at least one for `or`. -/
def SatisfiedBy (db : Database Value) (row : Row Name Value) (filter : DataTableFilter Name Value)
    : Prop :=
  (filter.IsOr → ∃ condition ∈ filter.conditions, condition.SatisfiedBy db row)
  ∧ (¬ filter.IsOr → ∀ condition ∈ filter.conditions, condition.SatisfiedBy db row)

end DataTableFilter

/-- Some column has a text that contains the search. -/
def FoundIn (db : Database Value) (columns : List Name) (row : Row Name Value)
    (search : List Char)
    : Prop :=
  ∃ column ∈ columns, ∃ cell, row column = some cell ∧ db.Contains search (db.text cell)

namespace ListDataTableContentQuery

/-- The search, when it is not blank. -/
def activeSearch (dto : ListDataTableContentQuery Name Value) : Option (List Char) :=
  dto.search.filter isSearch

/-- The row satisfies the filter and contains the search. -/
structure WantedBy (db : Database Value) (columns : List Name) (row : Row Name Value)
    (dto : ListDataTableContentQuery Name Value)
    : Prop where
  filter : ∀ filter, dto.filter = some filter → filter.SatisfiedBy db row
  search : ∀ search, dto.activeSearch = some search → FoundIn db columns row search

end ListDataTableContentQuery

/-! ### One condition -/

variable {column : Name}

theorem evaluate_comparison {operator : Operator} {value : Option Value}
    : Clause.evaluate db row [.compare operator column value] = some true
      ↔ ∃ cell, row column = some cell ∧ ∃ param, value = some param
          ∧ db.compare operator cell param = true := by
  simp [evaluate_singleton, Predicate.evaluate, Option.bind_eq_some_iff]

theorem evaluate_notEqual {param : Value}
    : Clause.evaluate db row [.notEqual column (some param), .isNull column] = some true
      ↔ ∀ cell, row column = some cell → db.compare .eq cell param = false := by
  rw [Clause.evaluate, any_eq_true]
  cases found : row column with
  | none | some => simp [Predicate.evaluate, found]

variable {search : List Char}

theorem contains_of_known {text : List Char} (known : db.type ≠ .other)
    : db.Contains search text
      ↔ IsCut ((upper (searchTerm search)).splitOn '%') (upper text) := by
  rw [Database.Contains, if_neg known, searchTerm]
  by_cases wildcard : '%' ∈ search
  · rw [if_pos wildcard, if_pos wildcard, Database.MatchesIgnoringCase, Database.Matches,
      if_neg known]
  · have literal : '%' ∉ upper search := by
      intro member
      obtain ⟨char, present, same⟩ := List.mem_map.mp member
      rw [asciiUpper_eq_percent] at same
      exact wildcard (same ▸ present)
    have around : upper ('%' :: (search ++ ['%'])) = '%' :: (upper search ++ ['%']) := by
      have percent : asciiUpper '%' = '%' := (asciiUpper_eq_percent '%').mpr rfl
      simp [upper, percent]
    rw [if_neg wildcard, if_neg wildcard, around, isCut_between literal]

theorem evaluate_searchCondition_null (empty : row column = none)
    : Predicate.evaluate db row (searchCondition db.type search column) = none := by
  unfold searchCondition
  split
  · simp [Predicate.evaluate, empty]
  · split <;> simp [Predicate.evaluate, empty]

/-- The search in a column asks whether its text contains the search. -/
theorem evaluate_search_iff
    : Predicate.evaluate db row
          (searchCondition db.type (escapeLikeSpecials (searchTerm search)) column)
        = some true
      ↔ ∃ cell, row column = some cell ∧ db.Contains search (db.text cell) := by
  cases found : row column with
  | none => simp [evaluate_searchCondition_null found]
  | some cell =>
      simp only [Option.some_inj, exists_eq_left']
      by_cases known : db.type = .other
      · rw [searchCondition, known, DbType.isSqlite_other, if_neg Bool.false_ne_true,
          if_neg (by decide), Predicate.evaluate, found, Option.map_some, Database.Contains,
          if_pos known]
        exact Option.some_inj
      · rw [evaluate_searchCondition known found, contains_of_known known]

theorem evaluate_like_iff {pattern : List Char}
    : Clause.evaluate db row (getConditionAndParams ⟨column, .like pattern⟩ db.type) = some true
      ↔ ∃ cell, row column = some cell ∧ db.Matches pattern (db.text cell) := by
  by_cases known : db.type = .other
  · have clause
        : getConditionAndParams (⟨column, .like pattern⟩ : Filter Name Value) db.type
          = [.likePlain column pattern] := by
      simp [getConditionAndParams, known]
    rw [clause, evaluate_singleton]
    simp [Predicate.evaluate, Database.Matches, known]
  · cases found : row column with
    | none =>
        obtain isSqlite | isPostgres := DbType.isSqlite_or_postgres known
        · simp [getConditionAndParams, isSqlite, evaluate_singleton, Predicate.evaluate, found]
        · simp [getConditionAndParams, isPostgres, evaluate_singleton, Predicate.evaluate, found]
    | some cell =>
        rw [evaluate_like known found]
        simp [Database.Matches, known]

theorem evaluate_ilike_iff {pattern : List Char}
    : Clause.evaluate db row (getConditionAndParams ⟨column, .ilike pattern⟩ db.type) = some true
      ↔ ∃ cell, row column = some cell ∧ db.MatchesIgnoringCase pattern (db.text cell) := by
  by_cases known : db.type = .other
  · have clause
        : getConditionAndParams (⟨column, .ilike pattern⟩ : Filter Name Value) db.type
          = [.upperLikePlain column pattern] := by
      simp [getConditionAndParams, known]
    rw [clause, evaluate_singleton]
    simp [Predicate.evaluate, Database.MatchesIgnoringCase, Database.Matches, known]
  · cases found : row column with
    | none =>
        rw [getConditionAndParams_ilike known, evaluate_singleton,
          evaluate_searchCondition_null found]
        simp
    | some cell =>
        rw [evaluate_ilike known found]
        simp [Database.MatchesIgnoringCase, Database.Matches, known]

/-- The clause of a filter selects the rows that satisfy it. -/
theorem evaluate_getConditionAndParams {filter : Filter Name Value}
    : Clause.evaluate db row (getConditionAndParams filter db.type) = some true
      ↔ filter.SatisfiedBy db row := by
  obtain ⟨column, condition⟩ := filter
  cases condition with
  | comparison operator value =>
      cases value with
      | none =>
          cases operator with
          | eq =>
              exact evaluate_singleton.trans (by simp [Predicate.evaluate, Filter.SatisfiedBy])
          | _ =>
              exact evaluate_comparison.trans (by simp [Filter.SatisfiedBy])
      | some param =>
          cases operator with
          | _ =>
              exact evaluate_comparison.trans (by simp [Filter.SatisfiedBy])
  | neq value =>
      cases value with
      | none => exact evaluate_singleton.trans (by simp [Predicate.evaluate, Filter.SatisfiedBy,
          Option.isSome_iff_ne_none])
      | some param => exact evaluate_notEqual
  | like pattern => exact evaluate_like_iff
  | ilike pattern => exact evaluate_ilike_iff
/-! ### The where-clauses of a listing -/

instance (filter : DataTableFilter Name Value) : Decidable filter.IsOr :=
  inferInstanceAs (Decidable (_ = _))

/-- How the conditions of a filter are joined. -/
def DataTableFilter.joiner (filter : DataTableFilter Name Value) : Joiner :=
  if filter.IsOr ∧ filter.conditions.length ≠ 1 then .or else .and

theorem wheres_foldl {joiner : Joiner} {clauses : List (Clause Name Value)}
    {query : QueryBuilder Name Value} {append}
    (appends : ∀ query : QueryBuilder Name Value, ∀ clause,
      (append query clause).wheres = query.wheres ++ [(joiner, clause)])
    : (clauses.foldl append query).wheres = query.wheres ++ clauses.map (Prod.mk joiner) := by
  induction clauses generalizing query with
  | nil => simp
  | cons first rest ih => rw [List.foldl_cons, ih, appends]; simp

variable {filter : DataTableFilter Name Value} {dbType : DbType}

theorem wheres_applyFilters
    : (applyFilters .new filter dbType).wheres
      = (filter.conditions.map (fun condition => getConditionAndParams condition dbType)).map
          (Prod.mk filter.joiner) := by
  have given : filter.filters.getD [] = filter.conditions := rfl
  rcases shape : filter.conditions with _ | ⟨condition, _ | ⟨second, rest⟩⟩
  · simp [applyFilters, given, shape, QueryBuilder.new]
  · simp [applyFilters, DataTableFilter.joiner, given, shape, QueryBuilder.andWhere,
      QueryBuilder.new]
  · have applied
        : applyFilters .new filter dbType
          = ((condition :: second :: rest).map (getConditionAndParams · dbType)).foldl
              (fun query clause =>
                if filter.IsOr then query.orWhere clause else query.andWhere clause) .new := by
      simp only [applyFilters, given, shape, List.map_cons, DataTableFilter.IsOr]
      congr
    rw [applied]
    by_cases isOr : filter.IsOr
    · have joined : filter.joiner = .or := if_pos ⟨isOr, by simp [shape]⟩
      rw [joined]
      exact wheres_foldl (fun query clause => by rw [if_pos isOr]; rfl)
    · have joined : filter.joiner = .and := if_neg (fun both => isOr both.1)
      rw [joined]
      exact wheres_foldl (fun query clause => by rw [if_neg isOr]; rfl)

/-- The clauses that the filter of a listing adds. -/
def filterWheres (dto : ListDataTableContentQuery Name Value) (dbType : DbType)
    : List (Joiner × Clause Name Value) :=
  match dto.filter with
  | none => []
  | some filter =>
      (filter.conditions.map (fun condition => getConditionAndParams condition dbType)).map
        (Prod.mk filter.joiner)

def searchClause (dbType : DbType) (columns : List Name) (search : List Char)
    : Clause Name Value :=
  columns.map (searchCondition dbType (escapeLikeSpecials (searchTerm search)))

/-- The clause that the search of a listing adds. -/
def searchWheres (dto : ListDataTableContentQuery Name Value) (columns : List Name)
    (dbType : DbType)
    : List (Joiner × Clause Name Value) :=
  match dto.activeSearch with
  | none => []
  | some search => if columns = [] then [] else [(.and, searchClause dbType columns search)]

theorem wheres_countQuery
    : (getManyQuery dto columns dbType).1.wheres
      = filterWheres dto dbType ++ searchWheres dto columns dbType := by
  obtain ⟨filter, search, sortBy, skip, take⟩ := dto
  have filtered
      : (getManyQuery ⟨filter, none, sortBy, skip, take⟩ columns dbType).1.wheres
        = filterWheres ⟨filter, search, sortBy, skip, take⟩ dbType := by
    cases filter with
    | none => rfl
    | some filter => exact wheres_applyFilters
  rw [← filtered]
  cases search with
  | none => simp [searchWheres, ListDataTableContentQuery.activeSearch]
  | some search =>
      by_cases active : isSearch search = true
      · have kept : Option.filter isSearch (some search) = some search := by
          rw [Option.filter_some, if_pos active]
        by_cases empty : columns = [] <;>
          simp [getManyQuery, searchWheres, searchClause, applySearch, QueryBuilder.andWhere,
            ListDataTableContentQuery.activeSearch, active, kept, empty]
      · have dropped : Option.filter isSearch (some search) = none := by
          rw [Option.filter_some, if_neg active]
        simp [getManyQuery, searchWheres, ListDataTableContentQuery.activeSearch, active, dropped]

/-- The rows are listed under the conditions that they are counted under. -/
theorem wheres_query
    : (getManyQuery dto columns dbType).2.wheres
      = (getManyQuery dto columns dbType).1.wheres := by
  simp only [getManyQuery, applyPagination, applySorting]
  grind
/-! ### The rows -/

theorem evaluate_searchClause
    : Clause.evaluate db row (searchClause db.type columns search) = some true
      ↔ FoundIn db columns row search := by
  rw [Clause.evaluate, any_eq_true]
  simp only [searchClause, List.map_map, List.mem_map, Function.comp_apply, evaluate_search_iff,
    FoundIn]

/-- The clauses of a filter alone: an `or` without conditions is no restriction. -/
theorem meaning_filter
    : meaning (Clause.evaluate db row)
          ((filter.conditions.map (fun condition => getConditionAndParams condition db.type)).map
            (Prod.mk filter.joiner))
        = some true
      ↔ filter.SatisfiedBy db row ∨ filter.IsOr ∧ filter.conditions = [] := by
  by_cases isOr : filter.IsOr
  · match shape : filter.conditions with
    | [] => simp [meaning_nil, isOr]
    | [condition] =>
        rw [List.map_singleton, List.map_singleton, meaning_singleton]
        simp [DataTableFilter.SatisfiedBy, isOr, shape, evaluate_getConditionAndParams]
    | first :: second :: rest =>
        have joined : filter.joiner = .or := if_pos ⟨isOr, by simp [shape]⟩
        rw [joined, meaning_or (by simp)]
        simp [DataTableFilter.SatisfiedBy, isOr, shape, evaluate_getConditionAndParams]
  · have joined : filter.joiner = .and := if_neg (fun both => isOr both.1)
    rw [joined, meaning_and]
    simp [DataTableFilter.SatisfiedBy, isOr, evaluate_getConditionAndParams]

/-- A search behind the clauses of a filter: it narrows the last condition of an `or` only. -/
theorem meaning_filter_search {clause : Clause Name Value}
    : meaning (Clause.evaluate db row)
          ((filter.conditions.map (fun condition => getConditionAndParams condition db.type)).map
            (Prod.mk filter.joiner) ++ [(.and, clause)])
        = some true
      ↔ (filter.SatisfiedBy db row ∨ filter.IsOr ∧ filter.conditions = [])
          ∧ Clause.evaluate db row clause = some true
        ∨ filter.IsOr ∧ ∃ condition ∈ filter.conditions.dropLast, condition.SatisfiedBy db row := by
  by_cases isOr : filter.IsOr
  · match shape : filter.conditions with
    | [] => simp [meaning_singleton, isOr]
    | [condition] =>
        have pair (joiner : Joiner) (first : Clause Name Value)
            : meaning (Clause.evaluate db row) [(joiner, first), (.and, clause)] = some true
              ↔ Clause.evaluate db row first = some true
                ∧ Clause.evaluate db row clause = some true := by
          rw [meaning_eq_true]
          simp [groups]
        rw [List.map_singleton, List.map_singleton, List.singleton_append, pair]
        simp [DataTableFilter.SatisfiedBy, isOr, shape, evaluate_getConditionAndParams]
    | first :: second :: rest =>
        have joined : filter.joiner = .or := if_pos ⟨isOr, by simp [shape]⟩
        obtain ⟨init, last, split⟩ : ∃ init last, first :: second :: rest = init ++ [last] :=
          ⟨_, _, (List.dropLast_append_getLast (by simp)).symm⟩
        rw [joined, split, List.map_append, List.map_singleton, meaning_or_and,
          List.dropLast_concat]
        have satisfied
            : filter.SatisfiedBy db row
              ↔ (∃ condition ∈ init, condition.SatisfiedBy db row) ∨ last.SatisfiedBy db row := by
          simp [DataTableFilter.SatisfiedBy, isOr, shape, split]
        have before
            : (∃ clause ∈ init.map (fun condition => getConditionAndParams condition db.type),
                Clause.evaluate db row clause = some true)
              ↔ ∃ condition ∈ init, condition.SatisfiedBy db row := by
          simp [evaluate_getConditionAndParams]
        have nonempty : init ++ [last] ≠ [] := by simp
        rw [before, evaluate_getConditionAndParams, satisfied]
        constructor
        · rintro (earlier | ⟨holds, searched⟩)
          · exact Or.inr ⟨isOr, earlier⟩
          · exact Or.inl ⟨Or.inl (Or.inr holds), searched⟩
        · rintro (⟨(earlier | holds) | ⟨-, empty⟩, searched⟩ | ⟨-, earlier⟩)
          · exact Or.inl earlier
          · exact Or.inr ⟨holds, searched⟩
          · exact absurd empty nonempty
          · exact Or.inl earlier
  · have joined : filter.joiner = .and := if_neg (fun both => isOr both.1)
    have appended (clauses : List (Clause Name Value))
        : clauses.map (Prod.mk Joiner.and) ++ [(.and, clause)]
          = (clauses ++ [clause]).map (Prod.mk .and) := by
      simp
    rw [joined, appended, meaning_and]
    simp [DataTableFilter.SatisfiedBy, isOr, evaluate_getConditionAndParams, or_imp, forall_and]
/-- The filter of a listing keeps the row as long as nothing else is asked. -/
def PassesFilter (db : Database Value) (row : Row Name Value)
    (dto : ListDataTableContentQuery Name Value)
    : Prop :=
  ∀ filter,
    dto.filter = some filter
    → filter.SatisfiedBy db row ∨ filter.IsOr ∧ filter.conditions = []

theorem passesFilter_of_member {condition : Filter Name Value} (isFilter : dto.filter = some filter)
    (isOr : filter.IsOr) (member : condition ∈ filter.conditions)
    (satisfied : condition.SatisfiedBy db row)
    : PassesFilter db row dto := by
  intro other isOther
  cases isFilter.symm.trans isOther
  exact Or.inl ⟨fun _ => ⟨condition, member, satisfied⟩, fun notOr => absurd isOr notOr⟩

theorem meaning_filterWheres
    : meaning (Clause.evaluate db row) (filterWheres dto db.type) = some true
      ↔ PassesFilter db row dto := by
  unfold filterWheres PassesFilter
  cases dto.filter with
  | none => simp [meaning_nil]
  | some filter => simp only [meaning_filter, Option.some_inj, forall_eq']

theorem meaning_filterWheres_search {clause : Clause Name Value}
    : meaning (Clause.evaluate db row) (filterWheres dto db.type ++ [(.and, clause)]) = some true
      ↔ PassesFilter db row dto ∧ Clause.evaluate db row clause = some true
        ∨ ∃ filter,
            dto.filter = some filter
            ∧ filter.IsOr
            ∧ ∃ condition ∈ filter.conditions.dropLast, condition.SatisfiedBy db row := by
  unfold filterWheres PassesFilter
  cases dto.filter with
  | none => simp [meaning_singleton]
  | some filter =>
      simp only [meaning_filter_search, Option.some_inj, forall_eq', exists_eq_left']

/-- A row is selected although it is not wanted. -/
inductive Astray (db : Database Value) (columns : List Name) (row : Row Name Value)
    (dto : ListDataTableContentQuery Name Value)
    : Prop
  /-- An `or` without conditions is no restriction. -/
  | noCondition (filter : DataTableFilter Name Value)
      (isFilter : dto.filter = some filter)
      (isOr : filter.IsOr)
      (empty : filter.conditions = [])
      (search : ∀ search, dto.activeSearch = some search → FoundIn db columns row search)
  /-- Without columns the search is dropped. -/
  | noColumn (search : List Char)
      (isSearch : dto.activeSearch = some search)
      (empty : columns = [])
      (filter : PassesFilter db row dto)
  /-- The search narrows the last condition of an `or` only. -/
  | beforeLast (filter : DataTableFilter Name Value) (search : List Char)
      (isFilter : dto.filter = some filter)
      (isOr : filter.IsOr)
      (condition : Filter Name Value)
      (member : condition ∈ filter.conditions.dropLast)
      (satisfied : condition.SatisfiedBy db row)
      (isSearch : dto.activeSearch = some search)
      (missing : ¬ FoundIn db columns row search)

theorem not_foundIn_nil : ¬ FoundIn db [] row search := by
  rintro ⟨column, member, -⟩
  exact absurd member List.not_mem_nil

theorem Astray.not_wanted (astray : Astray db columns row dto)
    : ¬ dto.WantedBy db columns row := by
  intro wanted
  cases astray with
  | noCondition filter isFilter isOr empty search =>
      obtain ⟨condition, member, -⟩ := (wanted.filter filter isFilter).1 isOr
      rw [empty] at member
      exact absurd member List.not_mem_nil
  | noColumn search isSearch empty filter =>
      have found := wanted.search search isSearch
      rw [empty] at found
      exact not_foundIn_nil found
  | beforeLast filter search isFilter isOr condition member satisfied isSearch missing =>
      exact missing (wanted.search search isSearch)

theorem Astray.passesFilter (astray : Astray db columns row dto) : PassesFilter db row dto := by
  cases astray with
  | noCondition filter isFilter isOr empty search =>
      intro other isOther
      cases isFilter.symm.trans isOther
      exact Or.inr ⟨isOr, empty⟩
  | noColumn search isSearch empty filter => exact filter
  | beforeLast filter search isFilter isOr condition member satisfied isSearch missing =>
      exact passesFilter_of_member isFilter isOr (List.mem_of_mem_dropLast member) satisfied

theorem ListDataTableContentQuery.WantedBy.passesFilter (wanted : dto.WantedBy db columns row)
    : PassesFilter db row dto :=
  fun filter isFilter => Or.inl (wanted.filter filter isFilter)

/-- A row that passes the filter and contains the search is wanted, up to an empty `or`. -/
theorem wanted_or_astray (passes : PassesFilter db row dto)
    (search : ∀ search, dto.activeSearch = some search → FoundIn db columns row search)
    : dto.WantedBy db columns row ∨ Astray db columns row dto := by
  by_cases empty : ∃ filter, dto.filter = some filter ∧ filter.IsOr ∧ filter.conditions = []
  · obtain ⟨filter, isFilter, isOr, empty⟩ := empty
    exact Or.inr (.noCondition filter isFilter isOr empty search)
  · refine Or.inl ⟨fun filter isFilter => ?_, search⟩
    rcases passes filter isFilter with satisfied | noCondition
    · exact satisfied
    · exact absurd ⟨filter, isFilter, noCondition⟩ empty

/-- The count query is about the wanted rows and those that go astray. -/
theorem selects_iff
    : (getManyQuery dto columns db.type).1.selects db row = true
      ↔ dto.WantedBy db columns row ∨ Astray db columns row dto := by
  rw [QueryBuilder.selects, beq_iff_eq, wheres_countQuery, searchWheres]
  cases active : dto.activeSearch with
  | none =>
      rw [List.append_nil, meaning_filterWheres]
      constructor
      · intro passes
        exact wanted_or_astray passes (by simp [active])
      · rintro (wanted | astray)
        · exact wanted.passesFilter
        · exact astray.passesFilter
  | some search =>
      by_cases empty : columns = []
      · simp only [if_pos empty]
        rw [List.append_nil, meaning_filterWheres]
        constructor
        · intro passes
          exact Or.inr (.noColumn search active empty passes)
        · rintro (wanted | astray)
          · exact wanted.passesFilter
          · exact astray.passesFilter
      · simp only [if_neg empty]
        rw [meaning_filterWheres_search, evaluate_searchClause]
        constructor
        · rintro (⟨passes, found⟩ | ⟨filter, isFilter, isOr, condition, member, satisfied⟩)
          · exact wanted_or_astray passes (by simpa [active] using found)
          · by_cases found : FoundIn db columns row search
            · have passes : PassesFilter db row dto :=
                passesFilter_of_member isFilter isOr (List.mem_of_mem_dropLast member) satisfied
              exact wanted_or_astray passes (by simpa [active] using found)
            · exact Or.inr
                (.beforeLast filter search isFilter isOr condition member satisfied active found)
        · rintro (wanted | astray)
          · exact Or.inl ⟨wanted.passesFilter, wanted.search search active⟩
          · cases astray with
            | noCondition filter isFilter isOr none found =>
                exact Or.inl ⟨Astray.passesFilter (.noCondition filter isFilter isOr none found),
                  found search active⟩
            | noColumn _ _ none _ => exact absurd none empty
            | beforeLast filter other isFilter isOr condition member satisfied _ _ =>
                exact Or.inr ⟨filter, isFilter, isOr, condition, member, satisfied⟩

/-! ### Listings -/

/-- A listing selects the wanted rows of a table, and counts the rows that it selects. -/
structure ListsWanted (db : Database Value) (columns : List Name)
    (dto : ListDataTableContentQuery Name Value) (table : List (Row Name Value))
    : Prop where
  rows
    : ∀ row ∈ table,
        row ∈ (getManyQuery dto columns db.type).2.rows db table ↔ dto.WantedBy db columns row
  counted
    : (getManyQuery dto columns db.type).1.rows db table
      = (getManyQuery dto columns db.type).2.rows db table
  count
    : (getManyQuery dto columns db.type).1.count db table
      = ((getManyQuery dto columns db.type).2.rows db table).length

theorem rows_query
    : (getManyQuery dto columns db.type).2.rows db table
      = (getManyQuery dto columns db.type).1.rows db table := by
  have same
      : (getManyQuery dto columns db.type).2.selects db
        = (getManyQuery dto columns db.type).1.selects db := by
    funext row
    rw [QueryBuilder.selects, QueryBuilder.selects, wheres_query]
  rw [QueryBuilder.rows, QueryBuilder.rows, same]

theorem ListsWanted.not_astray (lists : ListsWanted db columns dto table) (member : row ∈ table)
    : ¬ Astray db columns row dto := by
  intro astray
  have selected : row ∈ (getManyQuery dto columns db.type).2.rows db table := by
    rw [rows_query]
    exact List.mem_filter.mpr ⟨member, selects_iff.mpr (Or.inr astray)⟩
  exact astray.not_wanted ((lists.rows row member).mp selected)

/-- A listing selects the wanted rows when no row of the table goes astray. -/
theorem listsWanted_iff
    : ListsWanted db columns dto table ↔ ∀ row ∈ table, ¬ Astray db columns row dto := by
  constructor
  · intro lists row member
    exact lists.not_astray member
  · intro straight
    refine ⟨fun row member => ?_, rows_query.symm, by rw [rows_query, QueryBuilder.count]⟩
    rw [rows_query, QueryBuilder.rows, List.mem_filter, selects_iff]
    constructor
    · rintro ⟨-, wanted | astray⟩
      · exact wanted
      · exact absurd astray (straight row member)
    · intro wanted
      exact ⟨member, Or.inl wanted⟩

/-- Texts in SQLite. -/
def textDatabase : Database (List Char) where
  type := .sqlite
  compare operator cell value := operator = .eq && cell = value
  text := id
  likePlain _ _ := false

/-- `a` or `b` in the first column, and a search for `z`. -/
def eitherSearched : ListDataTableContentQuery Nat (List Char) where
  filter :=
    some ⟨some .or,
      some [⟨0, .comparison .eq (some ['a'])⟩, ⟨0, .comparison .eq (some ['b'])⟩]⟩
  search := some ['z']
  sortBy := none
  skip := none
  take := none

/-- The row with an `a` is listed although it does not contain the search. -/
theorem eitherSearched_not_listsWanted
    : ¬ ListsWanted textDatabase [0] eitherSearched [fun _ => some ['a']] := by
  intro lists
  have missing : ¬ FoundIn textDatabase [0] (fun _ => some ['a']) ['z'] := by
    rintro ⟨column, -, cell, found, contains⟩
    cases found
    rw [Database.Contains, if_neg (by decide), if_neg (by decide)] at contains
    exact absurd contains (by decide)
  refine lists.not_astray List.mem_cons_self
    (.beforeLast _ ['z'] rfl rfl ⟨0, .comparison .eq (some ['a'])⟩ ?_ ?_ (by decide) missing)
  · exact List.mem_cons_self
  · exact ⟨['a'], rfl, rfl⟩

end N8n.DataTable
