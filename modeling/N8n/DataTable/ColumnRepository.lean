import N8n.Library.Numbers

/-! The columns of a data table and the calls that add, delete, move and rename one. -/

namespace N8n.DataTable

variable {Id : Type} [DecidableEq Id]

inductive ColumnType where
  | string
  | number
  | boolean
  | date
deriving DecidableEq

/-- A row of the table of columns, for one data table. -/
structure DataTableColumn (Id : Type) where
  id : Id
  name : String
  type : ColumnType
  index : OrderedNumber
deriving DecidableEq

/-- `dataTableCreateColumnSchema`: the index is any number but NaN. -/
structure DataTableCreateColumn where
  name : String
  type : ColumnType
  index : Option OrderedNumber

inductive DataTableColumnError (Id : Type) where
  | systemColumnNameConflict (columnName : String) (type : String)
  | columnNameConflict (columnName : String)
  | columnNotFound (columnId : Id)
  | validation (message : String)
  /-- A statement that the database rejects. -/
  | database

def DATA_TABLE_SYSTEM_COLUMNS : List String := ["id", "createdAt", "updatedAt"]

def DATA_TABLE_SYSTEM_TESTING_COLUMN : String := "dryRunState"

/-- Validates that a column name is not reserved as a system column -/
def validateNotSystemColumn (columnName : String) : Except (DataTableColumnError Id) Unit :=
  if columnName ∈ DATA_TABLE_SYSTEM_COLUMNS then
    .error (.systemColumnNameConflict columnName "system")
  else if columnName = DATA_TABLE_SYSTEM_TESTING_COLUMN then
    .error (.systemColumnNameConflict columnName "testing")
  else .ok ()

/-- Validates that a column name is unique within a data table -/
def validateUniqueColumnName (columnName : String) (columns : List (DataTableColumn Id))
    : Except (DataTableColumnError Id) Unit :=
  if columnName ∈ columns.map DataTableColumn.name then .error (.columnNameConflict columnName)
  else .ok ()

/-- The columns in the order of their indexes. -/
def getColumns (columns : List (DataTableColumn Id)) : List (DataTableColumn Id) :=
  columns.mergeSort (fun a b => a.index ≤ b.index)

def DataTableColumn.shifted (lowestIndex : OrderedNumber) (delta : Int)
    (column : DataTableColumn Id)
    : DataTableColumn Id :=
  if column.index ≥ lowestIndex then { column with index := column.index.shift delta } else column

def shiftColumns (columns : List (DataTableColumn Id)) (lowestIndex : OrderedNumber)
    (delta : Int)
    : List (DataTableColumn Id) :=
  columns.map (DataTableColumn.shifted lowestIndex delta)

/-- `em.insert`: the id is the primary key. -/
def insertColumn (columns : List (DataTableColumn Id)) (column : DataTableColumn Id)
    : Except (DataTableColumnError Id) (List (DataTableColumn Id)) :=
  if column.id ∈ columns.map DataTableColumn.id then .error .database
  else .ok (columns ++ [column])

/-- `em.update(DataTableColumn, { id }, change)`. -/
def updateColumn (columns : List (DataTableColumn Id)) (id : Id)
    (change : DataTableColumn Id → DataTableColumn Id)
    : List (DataTableColumn Id) :=
  columns.map (fun column => if column.id = id then change column else column)

/-- `id` is the one that the new column is given. -/
def addColumn (columns : List (DataTableColumn Id)) (id : Id) (schema : DataTableCreateColumn)
    : Except (DataTableColumnError Id) (List (DataTableColumn Id)) := do
  validateNotSystemColumn schema.name
  validateUniqueColumnName schema.name columns
  match schema.index with
  | none =>
      insertColumn columns
        ⟨id, schema.name, schema.type, OrderedNumber.ofNat (getColumns columns).length⟩
  | some index =>
      insertColumn (shiftColumns columns index 1) ⟨id, schema.name, schema.type, index⟩

def deleteColumn (columns : List (DataTableColumn Id)) (column : DataTableColumn Id)
    : Except (DataTableColumnError Id) (List (DataTableColumn Id)) :=
  .ok (shiftColumns (columns.filter (fun other => other.id ≠ column.id)) column.index (-1))

def moveColumn (columns : List (DataTableColumn Id)) (column : DataTableColumn Id)
    (targetIndex : OrderedNumber)
    : Except (DataTableColumnError Id) (List (DataTableColumn Id)) :=
  let columnCount := columns.length
  if targetIndex < OrderedNumber.ofNat 0 then
    .error (.validation "tried to move column to negative index")
  else if targetIndex ≥ OrderedNumber.ofNat columnCount then
    .error (.validation "tried to move column to an index larger than column count")
  else
    let withoutGap := shiftColumns columns column.index (-1)
    let withPlace := shiftColumns withoutGap targetIndex 1
    .ok (updateColumn withPlace column.id (fun column => { column with index := targetIndex }))

def renameColumn (columns : List (DataTableColumn Id)) (column : DataTableColumn Id)
    (newName : String)
    : Except (DataTableColumnError Id) (List (DataTableColumn Id)) := do
  validateNotSystemColumn newName
  validateUniqueColumnName newName columns
  return updateColumn columns column.id (fun column => { column with name := newName })

def validateColumnExists (columns : List (DataTableColumn Id)) (columnId : Id)
    : Except (DataTableColumnError Id) (DataTableColumn Id) :=
  match columns.find? (fun column => column.id = columnId) with
  | none => .error (.columnNotFound columnId)
  | some column => .ok column

/-- The calls of the service on the columns of a data table. -/
inductive ColumnCall (Id : Type) where
  | addColumn (id : Id) (dto : DataTableCreateColumn)
  | deleteColumn (columnId : Id)
  | moveColumn (columnId : Id) (targetIndex : Nat)
  | renameColumn (columnId : Id) (name : String)

def ColumnCall.perform (columns : List (DataTableColumn Id))
    : ColumnCall Id → Except (DataTableColumnError Id) (List (DataTableColumn Id))
  | .addColumn id dto => DataTable.addColumn columns id dto
  | .deleteColumn columnId => do
      DataTable.deleteColumn columns (← validateColumnExists columns columnId)
  | .moveColumn columnId targetIndex => do
      DataTable.moveColumn columns (← validateColumnExists columns columnId)
        (OrderedNumber.ofNat targetIndex)
  | .renameColumn columnId name => do
      DataTable.renameColumn columns (← validateColumnExists columns columnId) name

/-- A call in a transaction. `commits` is false where the database rejects a statement or the
change of the table itself; the transaction is then rolled back.
-/
structure Transaction (Id : Type) where
  call : ColumnCall Id
  commits : Bool

namespace Transaction

/-- The columns that the transaction leaves when it succeeds. -/
def result? (transaction : Transaction Id) (columns : List (DataTableColumn Id))
    : Option (List (DataTableColumn Id)) :=
  if transaction.commits then (transaction.call.perform columns).toOption else none

def after (transaction : Transaction Id) (columns : List (DataTableColumn Id))
    : List (DataTableColumn Id) :=
  (transaction.result? columns).getD columns

end Transaction

end N8n.DataTable
