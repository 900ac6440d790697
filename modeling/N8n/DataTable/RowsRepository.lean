import N8n.DataTable.SqlUtils
import N8n.Library.Text
import N8n.Library.WhereClauses

/-! The queries that list the rows of a data table: how a filter and a search become where-clauses,
and what a database makes of them.
-/

namespace N8n.DataTable

open N8n.Patterns
open N8n.SqlPatterns
open N8n.WhereClauses

variable {Name Value : Type*}

/-- `DataSourceOptions['type']`. -/
inductive DbType where
  | sqlite
  | sqlitePooled
  | postgres
  | other
deriving DecidableEq

def DbType.isSqlite (dbType : DbType) : Bool := dbType = .sqlite || dbType = .sqlitePooled

@[simp] theorem DbType.isSqlite_postgres : DbType.postgres.isSqlite = false := rfl

@[simp] theorem DbType.isSqlite_other : DbType.other.isSqlite = false := rfl

/-- `=`, `>`, `>=`, `<`, `<=`. -/
inductive Operator where
  | eq
  | gt
  | gte
  | lt
  | lte
deriving DecidableEq

/-- How a database compares values other than NULL, and the text it casts them to. -/
structure Database (Value : Type*) where
  type : DbType
  compare : Operator → Value → Value → Bool
  text : Value → List Char
  /-- `LIKE` without an escape character. -/
  likePlain : List Char → List Char → Bool

/-- `text LIKE pattern ESCAPE '\'`. -/
def Database.likeEscape (db : Database Value) (text pattern : List Char) : Bool :=
  if db.type.isSqlite then ilike text pattern else like text pattern

/-- The cells of a row, `none` for NULL. -/
abbrev Row (Name Value : Type*) := Name → Option Value

/-- The conditions that `getConditionAndParams` and `applySearch` write, with their parameters.
Columns stand for themselves or, in a search, for their cast to text.
-/
inductive Predicate (Name Value : Type*) where
  | isNull (column : Name)
  | isNotNull (column : Name)
  | compare (operator : Operator) (column : Name) (param : Option Value)
  | notEqual (column : Name) (param : Option Value)
  | glob (column : Name) (param : List Char)
  | likeEscape (column : Name) (param : List Char)
  | ilikeEscape (column : Name) (param : List Char)
  | upperLikeEscape (column : Name) (param : List Char)
  | likePlain (column : Name) (param : List Char)
  | upperLikePlain (column : Name) (param : List Char)

/-- NULL compares with nothing. -/
def Predicate.evaluate (db : Database Value) (row : Row Name Value)
    : Predicate Name Value → Option Bool
  | .isNull column => some (row column).isNone
  | .isNotNull column => some (row column).isSome
  | .compare operator column param =>
      (row column).bind (fun cell => param.map (db.compare operator cell))
  | .notEqual column param =>
      (row column).bind (fun cell => param.map (fun value => !db.compare .eq cell value))
  | .glob column param => (row column).map (fun cell => SqlPatterns.glob (db.text cell) param)
  | .likeEscape column param =>
      (row column).map (fun cell => db.likeEscape (db.text cell) param)
  | .ilikeEscape column param => (row column).map (fun cell => ilike (db.text cell) param)
  | .upperLikeEscape column param =>
      (row column).map (fun cell => db.likeEscape (upper (db.text cell)) (upper param))
  | .likePlain column param => (row column).map (fun cell => db.likePlain (db.text cell) param)
  | .upperLikePlain column param =>
      (row column).map (fun cell => db.likePlain (upper (db.text cell)) (upper param))

/-- Predicates joined by OR, in parentheses where there are several. -/
abbrev Clause (Name Value : Type*) := List (Predicate Name Value)

def Clause.evaluate (db : Database Value) (row : Row Name Value) (clause : Clause Name Value)
    : Option Bool :=
  any (clause.map (Predicate.evaluate db row))

inductive Direction where
  | ASC
  | DESC

structure QueryBuilder (Name Value : Type*) where
  wheres : List (Joiner × Clause Name Value)
  order : Option (Name × Direction)
  skip : Nat
  take : Option Nat

namespace QueryBuilder

variable (query : QueryBuilder Name Value)

/-- `createQueryBuilder()`. -/
def new : QueryBuilder Name Value := ⟨[], none, 0, none⟩

def andWhere (clause : Clause Name Value) : QueryBuilder Name Value :=
  { query with wheres := query.wheres ++ [(.and, clause)] }

def orWhere (clause : Clause Name Value) : QueryBuilder Name Value :=
  { query with wheres := query.wheres ++ [(.or, clause)] }

/-- The database takes the row. -/
def selects (db : Database Value) (row : Row Name Value) : Bool :=
  meaning (Clause.evaluate db row) query.wheres == some true

/-- The rows that the query is about, before they are ordered and cut into pages. -/
def rows (db : Database Value) (table : List (Row Name Value)) : List (Row Name Value) :=
  table.filter (query.selects db)

/-- `SELECT COUNT(*)`. -/
def count (db : Database Value) (table : List (Row Name Value)) : Nat := (query.rows db table).length

end QueryBuilder

/-- The condition of a filter with its value, `none` for null. The service rejects patterns that
are no strings.
-/
inductive FilterCondition (Value : Type*) where
  | comparison (operator : Operator) (value : Option Value)
  | neq (value : Option Value)
  | like (value : List Char)
  | ilike (value : List Char)

structure Filter (Name Value : Type*) where
  columnName : Name
  condition : FilterCondition Value

inductive FilterType where
  | and
  | or
deriving DecidableEq

structure DataTableFilter (Name Value : Type*) where
  type : Option FilterType
  filters : Option (List (Filter Name Value))

/-- `ListDataTableContentQueryDto`. -/
structure ListDataTableContentQuery (Name Value : Type*) where
  filter : Option (DataTableFilter Name Value)
  search : Option (List Char)
  sortBy : Option (Name × Direction)
  skip : Option Nat
  take : Option Nat

/-- Converts filter conditions to SQL WHERE clauses with parameters. -/
def getConditionAndParams (filter : Filter Name Value) (dbType : DbType) : Clause Name Value :=
  match filter.condition with
  | .comparison .eq none => [.isNull filter.columnName]
  | .neq none => [.isNotNull filter.columnName]
  | .comparison operator value => [.compare operator filter.columnName value]
  -- Special handling for neq to include NULL values (only if value is not null!)
  | .neq value => [.notEqual filter.columnName value, .isNull filter.columnName]
  -- case-sensitive
  | .like value =>
      if dbType.isSqlite then [.glob filter.columnName (toSqliteGlobFromPercent value)]
      else if dbType = .postgres then [.likeEscape filter.columnName (escapeLikeSpecials value)]
      else [.likePlain filter.columnName value]
  -- case-insensitive
  | .ilike value =>
      if dbType.isSqlite then [.upperLikeEscape filter.columnName (escapeLikeSpecials value)]
      else if dbType = .postgres then [.ilikeEscape filter.columnName (escapeLikeSpecials value)]
      else [.upperLikePlain filter.columnName value]

def applyFilters (query : QueryBuilder Name Value) (filter : DataTableFilter Name Value)
    (dbType : DbType)
    : QueryBuilder Name Value :=
  let filters := filter.filters.getD []
  let filterType := filter.type.getD .and
  match filters.map (fun filter => getConditionAndParams filter dbType) with
  -- Always use AND for a single filter
  | [condition] => query.andWhere condition
  | conditions =>
      conditions.foldl (fun query condition =>
        if filterType = .or then query.orWhere condition else query.andWhere condition) query

/-- The pattern of a search. -/
def searchTerm (rawSearch : List Char) : List Char :=
  if '%' ∈ rawSearch then rawSearch else '%' :: (rawSearch ++ ['%'])

/-- The search in one column. -/
def searchCondition (dbType : DbType) (search : List Char) (column : Name)
    : Predicate Name Value :=
  if dbType.isSqlite then .upperLikeEscape column search
  else if dbType = .postgres then .ilikeEscape column search
  else .upperLikePlain column search

def applySearch (query : QueryBuilder Name Value) (rawSearch : List Char) (columns : List Name)
    (dbType : DbType)
    : QueryBuilder Name Value :=
  if columns = [] then query
  else
    query.andWhere
      (columns.map (searchCondition dbType (escapeLikeSpecials (searchTerm rawSearch))))

/-- `search.trim().length > 0`. -/
def isSearch (search : List Char) : Bool := !(Text.trim search).isEmpty

def applySorting (query : QueryBuilder Name Value) (dto : ListDataTableContentQuery Name Value)
    : QueryBuilder Name Value :=
  match dto.sortBy with
  | none => query
  | some sortBy => { query with order := some sortBy }

def applyPagination (query : QueryBuilder Name Value) (dto : ListDataTableContentQuery Name Value)
    : QueryBuilder Name Value :=
  match dto.take with
  | none | some 0 => { query with skip := dto.skip.getD 0 }
  | some take => { query with skip := dto.skip.getD 0, take := some take }

/-- The query that counts the rows and the one that lists them. -/
def getManyQuery (dto : ListDataTableContentQuery Name Value) (columns : List Name)
    (dbType : DbType)
    : QueryBuilder Name Value × QueryBuilder Name Value :=
  let filtered :=
    match dto.filter with
    | none => .new
    | some filter => applyFilters .new filter dbType
  let searched :=
    match dto.search with
    | none => filtered
    | some search =>
        if isSearch search then applySearch filtered search columns dbType else filtered
  (searched, applyPagination (applySorting searched dto) dto)

end N8n.DataTable
