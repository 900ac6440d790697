import Mathlib.Data.List.InsertIdx
import Mathlib.Data.List.Nodup
import N8n.DataTable.ColumnRepository

/-! The order of a data table's columns: the calls as operations on the list of columns, and the
indexes that the database keeps beside it.
-/

namespace N8n.DataTable

variable {Id : Type}

/-! ### Lists of columns -/

/-- A column without its place. -/
structure ColumnEntry (Id : Type) where
  id : Id
  name : String
  type : ColumnType

def ColumnEntry.at (entry : ColumnEntry Id) (index : Nat) : DataTableColumn Id :=
  ⟨entry.id, entry.name, entry.type, OrderedNumber.ofNat index⟩

/-- The columns with the indexes from `start` on. -/
def numbered (start : Nat) : List (ColumnEntry Id) → List (DataTableColumn Id)
  | [] => []
  | entry :: rest => entry.at start :: numbered (start + 1) rest

variable {start : Nat} {layout front back next : List (ColumnEntry Id)} {entry : ColumnEntry Id}
variable {columns : List (DataTableColumn Id)} {column : DataTableColumn Id}

@[simp] theorem length_numbered : (numbered start layout).length = layout.length := by
  induction layout generalizing start with
  | nil => rfl
  | cons first rest ih => simp [numbered, ih]

theorem numbered_append
    : numbered start (front ++ back)
      = numbered start front ++ numbered (start + front.length) back := by
  induction front generalizing start with
  | nil => rfl
  | cons first rest ih =>
      have place : start + 1 + rest.length = start + (rest.length + 1) := by omega
      simp [numbered, ih, place]

@[simp] theorem map_id_numbered
    : (numbered start layout).map DataTableColumn.id = layout.map ColumnEntry.id := by
  induction layout generalizing start with
  | nil => rfl
  | cons first rest ih => simp [numbered, ih, ColumnEntry.at]

@[simp] theorem map_name_numbered
    : (numbered start layout).map DataTableColumn.name = layout.map ColumnEntry.name := by
  induction layout generalizing start with
  | nil => rfl
  | cons first rest ih => simp [numbered, ih, ColumnEntry.at]

theorem map_index_numbered
    : (numbered start layout).map DataTableColumn.index
      = (List.range' start layout.length).map OrderedNumber.ofNat := by
  induction layout generalizing start with
  | nil => rfl
  | cons first rest ih => simp [numbered, ih, ColumnEntry.at, List.range'_succ]

/-- A column of the list is an entry at its place. -/
theorem exists_of_mem_numbered (member : column ∈ numbered start layout)
    : ∃ front entry back,
        layout = front ++ entry :: back ∧ column = entry.at (start + front.length) := by
  induction layout generalizing start with
  | nil => exact absurd member List.not_mem_nil
  | cons first rest ih =>
      rcases List.mem_cons.mp member with isFirst | behind
      · exact ⟨[], first, rest, rfl, isFirst⟩
      · obtain ⟨front, entry, back, split, place⟩ := ih behind
        have places : start + 1 + front.length = start + (front.length + 1) := by omega
        exact ⟨first :: front, entry, back, by rw [split]; rfl, by rw [place, places]; rfl⟩

theorem pairwise_numbered
    : (numbered start layout).Pairwise (fun a b => decide (a.index ≤ b.index) = true) := by
  have increasing
      : ((numbered start layout).map DataTableColumn.index).Pairwise (fun a b =>
          decide (a ≤ b) = true) := by
    rw [map_index_numbered, List.pairwise_map]
    refine List.Pairwise.imp (fun {a b} less => ?_) List.pairwise_lt_range'
    exact decide_eq_true (OrderedNumber.ofNat_le.mpr (Nat.le_of_lt less))
  exact List.pairwise_map.mp increasing

theorem nodup_index_numbered : ((numbered start layout).map DataTableColumn.index).Nodup := by
  rw [map_index_numbered]
  exact List.Nodup.map (fun _ _ same => OrderedNumber.ofNat_inj.mp same) List.nodup_range'

/-! ### Tables in order -/

/-- The columns are listed with the indexes from 0 on, and no two share a name or an id. -/
structure InOrder (columns : List (DataTableColumn Id)) (layout : List (ColumnEntry Id)) : Prop where
  listed : getColumns columns = numbered 0 layout
  names : (layout.map ColumnEntry.name).Nodup
  ids : (layout.map ColumnEntry.id).Nodup

theorem InOrder.perm (inOrder : InOrder columns layout) : columns.Perm (numbered 0 layout) := by
  rw [← inOrder.listed]
  exact (List.mergeSort_perm _ _).symm

/-- Columns are listed in order however the database returns them. -/
theorem getColumns_of_perm (perm : columns.Perm (numbered 0 layout))
    : getColumns columns = numbered 0 layout := by
  have listedPerm := (List.mergeSort_perm columns (fun a b => a.index ≤ b.index)).trans perm
  have sorted
      : (getColumns columns).Pairwise (fun a b => decide (a.index ≤ b.index) = true) := by
    apply List.pairwise_mergeSort
    · intro a b c
      simpa using le_trans
    · intro a b
      simpa using le_total a.index b.index
  refine List.Perm.eq_of_pairwise (fun a b member other below above => ?_) sorted
    pairwise_numbered listedPerm
  have same : a.index = b.index :=
    le_antisymm (of_decide_eq_true below) (of_decide_eq_true above)
  exact List.inj_on_of_nodup_map nodup_index_numbered (listedPerm.mem_iff.mp member) other same

theorem InOrder.of_perm (perm : columns.Perm (numbered 0 layout))
    (names : (layout.map ColumnEntry.name).Nodup) (ids : (layout.map ColumnEntry.id).Nodup)
    : InOrder columns layout :=
  ⟨getColumns_of_perm perm, names, ids⟩

section

variable (inOrder : InOrder columns layout)

include inOrder

theorem InOrder.length : columns.length = layout.length := by
  rw [inOrder.perm.length_eq, length_numbered]

theorem InOrder.mem_names {name : String}
    : name ∈ columns.map DataTableColumn.name ↔ name ∈ layout.map ColumnEntry.name := by
  rw [(inOrder.perm.map _).mem_iff, map_name_numbered]

theorem InOrder.mem_ids {id : Id}
    : id ∈ columns.map DataTableColumn.id ↔ id ∈ layout.map ColumnEntry.id := by
  rw [(inOrder.perm.map _).mem_iff, map_id_numbered]

theorem InOrder.exists_place [DecidableEq Id] {columnId : Id}
    (found : validateColumnExists columns columnId = .ok column)
    : ∃ front entry back,
        layout = front ++ entry :: back
        ∧ column = entry.at front.length
        ∧ entry.id = columnId := by
  unfold validateColumnExists at found
  cases isFound : columns.find? (fun column => column.id = columnId) with
  | none => rw [isFound] at found; contradiction
  | some other =>
      rw [isFound] at found
      cases found
      have member := inOrder.perm.mem_iff.mp (List.mem_of_find?_eq_some isFound)
      obtain ⟨front, entry, back, split, place⟩ := exists_of_mem_numbered member
      rw [Nat.zero_add] at place
      refine ⟨front, entry, back, split, place, ?_⟩
      have same := List.find?_some isFound
      rw [place] at same
      exact of_decide_eq_true same

end

/-! ### Shifts -/

variable {delta : Int} {lowest : OrderedNumber}

@[simp] theorem shifted_id
    : (column.shifted lowest delta).id = column.id := by
  unfold DataTableColumn.shifted
  split <;> rfl

@[simp] theorem shifted_name
    : (column.shifted lowest delta).name = column.name := by
  unfold DataTableColumn.shifted
  split <;> rfl

@[simp] theorem shifted_type
    : (column.shifted lowest delta).type = column.type := by
  unfold DataTableColumn.shifted
  split <;> rfl

theorem shiftColumns_below {lowest : Nat} (below : start + layout.length ≤ lowest)
    : shiftColumns (numbered start layout) (OrderedNumber.ofNat lowest) delta
      = numbered start layout := by
  induction layout generalizing start with
  | nil => rfl
  | cons first rest ih =>
      simp only [List.length_cons] at below
      have stays : ¬ lowest ≤ start := by omega
      rw [numbered, shiftColumns, List.map_cons, ← shiftColumns, ih (by omega)]
      simp [DataTableColumn.shifted, ColumnEntry.at, stays]

theorem shiftColumns_up {lowest : Nat} (above : lowest ≤ start)
    : shiftColumns (numbered start layout) (OrderedNumber.ofNat lowest) 1
      = numbered (start + 1) layout := by
  induction layout generalizing start with
  | nil => rfl
  | cons first rest ih =>
      rw [numbered, shiftColumns, List.map_cons, ← shiftColumns, ih (by omega), numbered]
      simp [DataTableColumn.shifted, ColumnEntry.at, above]

theorem shiftColumns_down {lowest : Nat} (above : lowest ≤ start + 1)
    : shiftColumns (numbered (start + 1) layout) (OrderedNumber.ofNat lowest) (-1)
      = numbered start layout := by
  induction layout generalizing start with
  | nil => rfl
  | cons first rest ih =>
      rw [numbered, shiftColumns, List.map_cons, ← shiftColumns, ih (by omega), numbered]
      simp [DataTableColumn.shifted, ColumnEntry.at, above]

theorem shiftColumns_append {columns others : List (DataTableColumn Id)}
    : shiftColumns (columns ++ others) lowest delta
      = shiftColumns columns lowest delta ++ shiftColumns others lowest delta :=
  List.map_append

theorem map_id_shiftColumns
    : (shiftColumns columns lowest delta).map DataTableColumn.id
      = columns.map DataTableColumn.id := by
  rw [shiftColumns, List.map_map]
  exact List.map_congr_left (fun column _ => shifted_id)

theorem shiftColumns_place
    : shiftColumns (numbered 0 (front ++ back)) (OrderedNumber.ofNat front.length) 1
      = numbered 0 front ++ numbered (front.length + 1) back := by
  rw [numbered_append, shiftColumns_append, shiftColumns_below (by simp), Nat.zero_add,
    shiftColumns_up (Nat.le_refl _)]

theorem shiftColumns_gap
    : shiftColumns (numbered 0 front ++ numbered (front.length + 1) back)
          (OrderedNumber.ofNat front.length) (-1)
      = numbered 0 (front ++ back) := by
  rw [shiftColumns_append, shiftColumns_below (by simp), shiftColumns_down (Nat.le_succ _),
    numbered_append, Nat.zero_add]

theorem perm_insert
    : (entry.at front.length :: (numbered 0 front ++ numbered (front.length + 1) back)).Perm
        (numbered 0 (front ++ entry :: back)) := by
  rw [numbered_append, Nat.zero_add]
  exact List.perm_middle.symm

/-! ### Calls that succeed -/

theorem exists_of_bind_ok {ε α β : Type} {first : Except ε α} {rest : α → Except ε β} {result : β}
    (done : (first >>= rest) = .ok result)
    : ∃ value, first = .ok value ∧ rest value = .ok result := by
  cases first with
  | error error => contradiction
  | ok value => exact ⟨value, rfl, done⟩

theorem not_mem_of_validated {name : String} {nothing : Unit}
    (valid : validateUniqueColumnName name columns = .ok nothing)
    : name ∉ columns.map DataTableColumn.name := by
  unfold validateUniqueColumnName at valid
  split at valid
  · contradiction
  · assumption

variable [DecidableEq Id] {id columnId : Id} {dto : DataTableCreateColumn} {name : String}
variable {after : List (DataTableColumn Id)}

/-- What `addColumn` asks of the new column besides its index. -/
structure Accepts (columns : List (DataTableColumn Id)) (id : Id) (dto : DataTableCreateColumn)
    : Prop where
  notSystem : dto.name ∉ DATA_TABLE_SYSTEM_COLUMNS
  notTesting : dto.name ≠ DATA_TABLE_SYSTEM_TESTING_COLUMN
  newName : dto.name ∉ columns.map DataTableColumn.name
  newId : id ∉ columns.map DataTableColumn.id

/-- The columns with the one that is added. -/
def withColumn (columns : List (DataTableColumn Id)) (id : Id) (dto : DataTableCreateColumn)
    : List (DataTableColumn Id) :=
  match dto.index with
  | none => columns ++ [⟨id, dto.name, dto.type, .ofNat (getColumns columns).length⟩]
  | some index => shiftColumns columns index 1 ++ [⟨id, dto.name, dto.type, index⟩]

theorem addColumn_ok_iff
    : addColumn columns id dto = .ok after
      ↔ Accepts columns id dto ∧ after = withColumn columns id dto := by
  constructor
  · intro added
    obtain ⟨_, allowed, added⟩ := exists_of_bind_ok added
    obtain ⟨_, unique, added⟩ := exists_of_bind_ok added
    have newName := not_mem_of_validated unique
    unfold validateNotSystemColumn at allowed
    split at allowed
    · contradiction
    · next notSystem =>
        split at allowed
        · contradiction
        · next notTesting =>
            unfold withColumn
            cases isIndex : dto.index with
            | none =>
                rw [isIndex] at added
                simp only [insertColumn] at added
                split at added
                · contradiction
                · next newId =>
                    exact ⟨⟨notSystem, notTesting, newName, newId⟩, (Except.ok.inj added).symm⟩
            | some index =>
                rw [isIndex] at added
                simp only [insertColumn, map_id_shiftColumns] at added
                split at added
                · contradiction
                · next newId =>
                    exact ⟨⟨notSystem, notTesting, newName, newId⟩, (Except.ok.inj added).symm⟩
  · rintro ⟨accepts, rfl⟩
    have allowed : validateNotSystemColumn dto.name = (.ok () : Except (DataTableColumnError Id) _) := by
      rw [validateNotSystemColumn, if_neg accepts.notSystem, if_neg accepts.notTesting]
    have unique : validateUniqueColumnName dto.name columns = .ok () :=
      if_neg accepts.newName
    unfold addColumn withColumn
    rw [allowed, unique]
    cases dto.index with
    | none => exact if_neg accepts.newId
    | some index =>
        have newId : id ∉ (shiftColumns columns index 1).map DataTableColumn.id := by
          rw [map_id_shiftColumns]
          exact accepts.newId
        exact if_neg newId

theorem moveColumn_ok {targetIndex : Nat}
    (moved : moveColumn columns column (.ofNat targetIndex) = .ok after)
    : targetIndex < columns.length
      ∧ after
        = updateColumn
            (shiftColumns (shiftColumns columns column.index (-1)) (.ofNat targetIndex) 1)
            column.id (fun column => { column with index := .ofNat targetIndex }) := by
  simp only [moveColumn] at moved
  split at moved
  · contradiction
  · split at moved
    · contradiction
    · next inside =>
        rw [ge_iff_le, OrderedNumber.ofNat_le, not_le] at inside
        exact ⟨inside, (Except.ok.inj moved).symm⟩

theorem renameColumn_ok (renamed : renameColumn columns column name = .ok after)
    : name ∉ columns.map DataTableColumn.name
      ∧ after = updateColumn columns column.id (fun column => { column with name := name }) := by
  obtain ⟨_, -, renamed⟩ := exists_of_bind_ok renamed
  obtain ⟨_, unique, renamed⟩ := exists_of_bind_ok renamed
  exact ⟨not_mem_of_validated unique, (Except.ok.inj renamed).symm⟩
/-! ### Calls as operations on the list -/

/-- The list with a new column at its index, or at the end. -/
def Inserted (id : Id) (dto : DataTableCreateColumn) (layout next : List (ColumnEntry Id)) : Prop :=
  match dto.index with
  | none => next = layout ++ [⟨id, dto.name, dto.type⟩]
  | some index =>
      ∀ place, index = .ofNat place → next = layout.insertIdx place ⟨id, dto.name, dto.type⟩

/-- The list of columns after a call that succeeds. -/
def Corresponds (call : ColumnCall Id) (layout next : List (ColumnEntry Id)) : Prop :=
  match call with
  | .addColumn id dto => Inserted id dto layout next
  | .deleteColumn columnId =>
      ∃ front entry back,
        layout = front ++ entry :: back ∧ entry.id = columnId ∧ next = front ++ back
  | .moveColumn columnId targetIndex =>
      ∃ front entry back,
        layout = front ++ entry :: back
        ∧ entry.id = columnId
        ∧ next = (front ++ back).insertIdx targetIndex entry
  | .renameColumn columnId name =>
      ∃ front entry back,
        layout = front ++ entry :: back
        ∧ entry.id = columnId
        ∧ next = front ++ { entry with name := name } :: back

omit [DecidableEq Id] in
theorem insertIdx_front
    : (front ++ back).insertIdx front.length entry = front ++ entry :: back := by
  induction front with
  | nil => simp
  | cons first rest ih => simp [ih]

omit [DecidableEq Id] in
theorem exists_split {place : Nat} (inside : place ≤ layout.length)
    : ∃ front back, layout = front ++ back ∧ front.length = place :=
  ⟨layout.take place, layout.drop place, (List.take_append_drop _ _).symm,
    List.length_take_of_le inside⟩

omit [DecidableEq Id] in
theorem InOrder.add_end (inOrder : InOrder columns layout)
    (newName : entry.name ∉ layout.map ColumnEntry.name)
    (newId : entry.id ∉ layout.map ColumnEntry.id)
    : InOrder (columns ++ [entry.at columns.length]) (layout ++ [entry]) := by
  refine .of_perm ?_ ?_ ?_
  · rw [numbered_append, Nat.zero_add, inOrder.length]
    exact inOrder.perm.append_right _
  · rw [List.map_append, List.map_singleton, List.nodup_middle, List.append_nil]
    exact List.nodup_cons.mpr ⟨newName, inOrder.names⟩
  · rw [List.map_append, List.map_singleton, List.nodup_middle, List.append_nil]
    exact List.nodup_cons.mpr ⟨newId, inOrder.ids⟩

omit [DecidableEq Id] in
theorem InOrder.add_place (inOrder : InOrder columns (front ++ back))
    (newName : entry.name ∉ (front ++ back).map ColumnEntry.name)
    (newId : entry.id ∉ (front ++ back).map ColumnEntry.id)
    : InOrder (shiftColumns columns (.ofNat front.length) 1 ++ [entry.at front.length])
        (front ++ entry :: back) := by
  refine .of_perm ?_ ?_ ?_
  · have shifted : (shiftColumns columns (.ofNat front.length) 1).Perm _ := inOrder.perm.map _
    rw [← shiftColumns, shiftColumns_place] at shifted
    exact ((shifted.append_right _).trans (List.perm_append_singleton _ _)).trans perm_insert
  · rw [List.map_append, List.map_cons, List.nodup_middle, ← List.map_append]
    exact List.nodup_cons.mpr ⟨newName, inOrder.names⟩
  · rw [List.map_append, List.map_cons, List.nodup_middle, ← List.map_append]
    exact List.nodup_cons.mpr ⟨newId, inOrder.ids⟩

omit [DecidableEq Id] in
/-- Without one column the others keep their order. -/
theorem InOrder.rest (inOrder : InOrder columns (front ++ entry :: back))
    : ((front ++ back).map ColumnEntry.name).Nodup
      ∧ ((front ++ back).map ColumnEntry.id).Nodup
      ∧ entry.name ∉ (front ++ back).map ColumnEntry.name
      ∧ entry.id ∉ (front ++ back).map ColumnEntry.id := by
  have names := inOrder.names
  have ids := inOrder.ids
  rw [List.map_append, List.map_cons, List.nodup_middle, ← List.map_append, List.nodup_cons]
    at names ids
  exact ⟨names.2, ids.2, names.1, ids.1⟩

omit [DecidableEq Id] in
theorem numbered_around
    : (numbered 0 (front ++ entry :: back)).Perm
        (entry.at front.length :: (numbered 0 front ++ numbered (front.length + 1) back)) :=
  perm_insert.symm

theorem filter_of_not_mem (absent : id ∉ columns.map DataTableColumn.id)
    : columns.filter (fun other => other.id ≠ id) = columns := by
  apply List.filter_eq_self.mpr
  intro column member
  simp only [ne_eq, decide_eq_true_eq]
  rintro rfl
  exact absent (List.mem_map_of_mem member)

theorem updateColumn_perm {change : DataTableColumn Id → DataTableColumn Id}
    {rest : List (DataTableColumn Id)} (perm : columns.Perm (column :: rest))
    (absent : column.id ∉ rest.map DataTableColumn.id)
    : (updateColumn columns column.id change).Perm (change column :: rest) := by
  have unchanged : updateColumn rest column.id change = rest := by
    rw [updateColumn, List.map_congr_left, List.map_id]
    intro other member
    rw [id_eq, if_neg]
    intro same
    exact absent (same ▸ List.mem_map_of_mem member)
  have updated : (updateColumn columns column.id change).Perm _ := perm.map _
  rw [List.map_cons, if_pos rfl, ← updateColumn, unchanged] at updated
  exact updated

omit [DecidableEq Id] in
theorem map_id_around
    : (numbered 0 front ++ numbered (front.length + 1) back).map DataTableColumn.id
      = (front ++ back).map ColumnEntry.id := by
  simp

section

variable (inOrder : InOrder columns (front ++ entry :: back))

include inOrder

theorem InOrder.delete (deleted : deleteColumn columns (entry.at front.length) = .ok after)
    : InOrder after (front ++ back) := by
  cases deleted
  obtain ⟨names, ids, -, absent⟩ := inOrder.rest
  refine .of_perm ?_ names ids
  have kept
      : (columns.filter (fun other => other.id ≠ entry.id)).Perm
          (numbered 0 front ++ numbered (front.length + 1) back) := by
    refine ((inOrder.perm.trans numbered_around).filter _).trans ?_
    rw [List.filter_cons_of_neg (by simp [ColumnEntry.at]),
      filter_of_not_mem (by rw [map_id_around]; exact absent)]
  have shifted
      : (shiftColumns (columns.filter (fun other => other.id ≠ entry.id))
          (.ofNat front.length) (-1)).Perm _ :=
    kept.map _
  rw [← shiftColumns, shiftColumns_gap] at shifted
  exact shifted

theorem InOrder.move {targetIndex : Nat}
    (moved : moveColumn columns (entry.at front.length) (.ofNat targetIndex) = .ok after)
    : InOrder after ((front ++ back).insertIdx targetIndex entry) := by
  obtain ⟨inside, rfl⟩ := moveColumn_ok moved
  obtain ⟨names, ids, newName, newId⟩ := inOrder.rest
  have closed : (shiftColumns columns (.ofNat front.length) (-1)).Perm _ :=
    (inOrder.perm.trans numbered_around).map _
  rw [List.map_cons, ← shiftColumns, shiftColumns_gap] at closed
  have place : targetIndex ≤ (front ++ back).length := by
    have length := inOrder.length
    simp only [List.length_append, List.length_cons] at length ⊢
    omega
  obtain ⟨before, behind, split, rfl⟩ := exists_split place
  rw [split] at closed names ids newName newId ⊢
  rw [insertIdx_front]
  have opened
      : (shiftColumns (shiftColumns columns (.ofNat front.length) (-1))
          (.ofNat before.length) 1).Perm _ :=
    closed.map _
  rw [List.map_cons, ← shiftColumns, shiftColumns_place] at opened
  refine .of_perm ?_ ?_ ?_
  · have updated (absent) :=
      @updateColumn_perm _ _ _ _
        (fun column => { column with index := .ofNat before.length }) _ opened absent
    simp only [shifted_id, shifted_name, shifted_type, map_id_around] at updated
    exact (updated newId).trans perm_insert
  · rw [List.map_append, List.map_cons, List.nodup_middle, ← List.map_append]
    exact List.nodup_cons.mpr ⟨newName, names⟩
  · rw [List.map_append, List.map_cons, List.nodup_middle, ← List.map_append]
    exact List.nodup_cons.mpr ⟨newId, ids⟩

theorem InOrder.rename (renamed : renameColumn columns (entry.at front.length) name = .ok after)
    : InOrder after (front ++ { entry with name := name } :: back) := by
  obtain ⟨unique, rfl⟩ := renameColumn_ok renamed
  obtain ⟨names, ids, -, absent⟩ := inOrder.rest
  have newName : name ∉ (front ++ back).map ColumnEntry.name := by
    intro member
    apply unique
    rw [inOrder.mem_names, List.map_append, List.map_cons, List.mem_append, List.mem_cons]
    rw [List.map_append, List.mem_append] at member
    exact member.imp_right Or.inr
  refine .of_perm ?_ ?_ ?_
  · have inserted
        : (({ entry with name := name } : ColumnEntry Id).at front.length
            :: (numbered 0 front ++ numbered (front.length + 1) back)).Perm _ :=
      perm_insert
    refine (updateColumn_perm (inOrder.perm.trans numbered_around) ?_).trans inserted
    rw [map_id_around]
    exact absent
  · rw [List.map_append, List.map_cons, List.nodup_middle, ← List.map_append]
    exact List.nodup_cons.mpr ⟨newName, names⟩
  · rw [List.map_append, List.map_cons, List.nodup_middle, ← List.map_append]
    exact List.nodup_cons.mpr ⟨absent, ids⟩

end

omit [DecidableEq Id] in
/-- A column that is added where the list has a place for it. -/
theorem InOrder.add (inOrder : InOrder columns layout) (accepts : Accepts columns id dto)
    (inRange : ∀ index, dto.index = some index → ∃ place ≤ columns.length, index = .ofNat place)
    : ∃ next, Inserted id dto layout next ∧ InOrder (withColumn columns id dto) next := by
  have newName := accepts.newName
  have newId := accepts.newId
  rw [inOrder.mem_names] at newName
  rw [inOrder.mem_ids] at newId
  let entry : ColumnEntry Id := ⟨id, dto.name, dto.type⟩
  unfold Inserted withColumn
  cases isIndex : dto.index with
  | none =>
      have appended : InOrder (columns ++ [entry.at columns.length]) (layout ++ [entry]) :=
        inOrder.add_end newName newId
      refine ⟨layout ++ [entry], rfl, ?_⟩
      rw [getColumns, List.length_mergeSort]
      exact appended
  | some index =>
      obtain ⟨place, inside, rfl⟩ := inRange index isIndex
      rw [inOrder.length] at inside
      obtain ⟨front, back, rfl, rfl⟩ := exists_split inside
      have placed
          : InOrder (shiftColumns columns (.ofNat front.length) 1 ++ [entry.at front.length])
              (front ++ entry :: back) :=
        inOrder.add_place newName newId
      refine ⟨front ++ entry :: back, ?_, placed⟩
      intro place same
      rw [← OrderedNumber.ofNat_inj.mp same, insertIdx_front]

/-! ### Runs -/

namespace Transaction

/-- An added column that is accepted has no index, or the index of a place in the list. -/
def InRange (transaction : Transaction Id) (columns : List (DataTableColumn Id)) : Prop :=
  ∀ id dto index,
    transaction.call = .addColumn id dto
    → transaction.commits = true
    → Accepts columns id dto
    → dto.index = some index
    → ∃ place ≤ columns.length, index = .ofNat place

theorem after_addColumn {transaction : Transaction Id}
    (isAdd : transaction.call = .addColumn id dto) (commits : transaction.commits = true)
    (accepts : Accepts columns id dto)
    : transaction.after columns = withColumn columns id dto := by
  have added := addColumn_ok_iff.mpr ⟨accepts, rfl⟩
  simp [after, result?, commits, isAdd, ColumnCall.perform, added, Except.toOption]

end Transaction

/-- What a transaction makes of columns in order. -/
theorem InOrder.step {transaction : Transaction Id} (inOrder : InOrder columns layout)
    (inRange : transaction.InRange columns) (done : transaction.result? columns = some after)
    : ∃ next, Corresponds transaction.call layout next ∧ InOrder after next := by
  obtain ⟨call, commits⟩ := transaction
  cases commits with
  | false => contradiction
  | true =>
      have performed : call.perform columns = .ok after := by
        unfold Transaction.result? at done
        cases result : call.perform columns with
        | error error => simp [result, Except.toOption] at done
        | ok value => simpa [result, Except.toOption] using done
      cases call with
      | addColumn id dto =>
          obtain ⟨accepts, rfl⟩ := addColumn_ok_iff.mp performed
          exact inOrder.add accepts (fun index isIndex => inRange id dto index rfl rfl accepts isIndex)
      | deleteColumn columnId =>
          obtain ⟨column, found, deleted⟩ := exists_of_bind_ok performed
          obtain ⟨front, entry, back, rfl, rfl, same⟩ := inOrder.exists_place found
          exact ⟨_, ⟨front, entry, back, rfl, same, rfl⟩, inOrder.delete deleted⟩
      | moveColumn columnId targetIndex =>
          obtain ⟨column, found, moved⟩ := exists_of_bind_ok performed
          obtain ⟨front, entry, back, rfl, rfl, same⟩ := inOrder.exists_place found
          exact ⟨_, ⟨front, entry, back, rfl, same, rfl⟩, inOrder.move moved⟩
      | renameColumn columnId name =>
          obtain ⟨column, found, renamed⟩ := exists_of_bind_ok performed
          obtain ⟨front, entry, back, rfl, rfl, same⟩ := inOrder.exists_place found
          exact ⟨_, ⟨front, entry, back, rfl, same, rfl⟩, inOrder.rename renamed⟩

omit [DecidableEq Id] in
theorem not_inOrder_withColumn {index : OrderedNumber} (isIndex : dto.index = some index)
    (outside : ∀ place ≤ columns.length, index ≠ .ofNat place)
    : ¬ InOrder (withColumn columns id dto) next := by
  intro after
  have indexes := after.perm.map DataTableColumn.index
  rw [map_index_numbered, ← after.length] at indexes
  have member : index ∈ (withColumn columns id dto).map DataTableColumn.index := by
    simp [withColumn, isIndex]
  have length : (withColumn columns id dto).length = columns.length + 1 := by
    simp [withColumn, isIndex, shiftColumns]
  rw [indexes.mem_iff, length, List.mem_map] at member
  obtain ⟨place, inside, same⟩ := member
  rw [List.mem_range'_1] at inside
  exact outside place (by omega) same.symm

/-- After each transaction of a run the columns are in order: that of the list operation where it
succeeded, the one before where it was rolled back.
-/
def KeepsOrder : List (Transaction Id) → List (DataTableColumn Id) → List (ColumnEntry Id) → Prop
  | [], _, _ => True
  | transaction :: rest, columns, layout =>
      ∃ next,
        InOrder (transaction.after columns) next
        ∧ (match transaction.result? columns with
          | some _ => Corresponds transaction.call layout next
          | none => next = layout)
        ∧ KeepsOrder rest (transaction.after columns) next

/-- Every transaction of a run is in range where it starts. -/
def RunInRange : List (Transaction Id) → List (DataTableColumn Id) → Prop
  | [], _ => True
  | transaction :: rest, columns =>
      transaction.InRange columns ∧ RunInRange rest (transaction.after columns)

/-- The columns stay in order exactly as long as no column is added at an index beyond the list. -/
theorem InOrder.keepsOrder_iff {transactions : List (Transaction Id)} (inOrder : InOrder columns layout)
    : KeepsOrder transactions columns layout ↔ RunInRange transactions columns := by
  induction transactions generalizing columns layout with
  | nil => exact Iff.rfl
  | cons transaction rest ih =>
      constructor
      · rintro ⟨next, afterwards, -, kept⟩
        refine ⟨?_, (ih afterwards).mp kept⟩
        intro id dto index isAdd commits accepts isIndex
        by_contra outside
        push Not at outside
        rw [Transaction.after_addColumn isAdd commits accepts] at afterwards
        exact not_inOrder_withColumn isIndex outside afterwards
      · rintro ⟨inRange, restInRange⟩
        cases done : transaction.result? columns with
        | none =>
            have unchanged : transaction.after columns = columns := by
              rw [Transaction.after, done, Option.getD_none]
            rw [unchanged] at restInRange
            refine ⟨layout, by rw [unchanged]; exact inOrder, by rw [done], ?_⟩
            rw [unchanged]
            exact (ih inOrder).mpr restInRange
        | some after =>
            have changed : transaction.after columns = after := by
              rw [Transaction.after, done, Option.getD_some]
            obtain ⟨next, corresponds, afterwards⟩ := inOrder.step inRange done
            rw [changed] at restInRange
            refine ⟨next, by rw [changed]; exact afterwards, by rw [done]; exact corresponds, ?_⟩
            rw [changed]
            exact (ih afterwards).mpr restInRange

/-! ### A table with one column -/

def oneColumn : List (ColumnEntry Nat) := [⟨0, "first", .string⟩]

theorem oneColumn_inOrder : InOrder (numbered 0 oneColumn) oneColumn :=
  .of_perm (.refl _) (by decide) (by decide)

/-- A column in front of it, which is then moved behind it. -/
def addedAndMoved : List (Transaction Nat) :=
  [⟨.addColumn 1 ⟨"second", .number, some (.ofNat 0)⟩, true⟩, ⟨.moveColumn 1 1, true⟩]

theorem addedAndMoved_keepsOrder : KeepsOrder addedAndMoved (numbered 0 oneColumn) oneColumn := by
  refine oneColumn_inOrder.keepsOrder_iff.mpr ⟨?_, ?_, trivial⟩
  · intro id dto index isAdd _ _ isIndex
    obtain ⟨rfl, rfl⟩ := ColumnCall.addColumn.inj isAdd
    exact ⟨0, Nat.zero_le _, (Option.some.inj isIndex).symm⟩
  · intro id dto index isAdd
    contradiction

/-- A column far behind it. -/
def addedBeyond : Transaction Nat := ⟨.addColumn 1 ⟨"second", .number, some (.ofNat 5)⟩, true⟩

/-- The indexes are then 0 and 5. -/
theorem addedBeyond_not_keepsOrder
    : ¬ KeepsOrder [addedBeyond] (numbered 0 oneColumn) oneColumn := by
  rintro ⟨next, afterwards, -⟩
  have accepts : Accepts (numbered 0 oneColumn) 1 ⟨"second", .number, some (.ofNat 5)⟩ :=
    ⟨by decide, by decide, by decide, by decide⟩
  rw [Transaction.after_addColumn rfl rfl accepts] at afterwards
  refine not_inOrder_withColumn rfl (fun place inside same => ?_) afterwards
  have far := OrderedNumber.ofNat_inj.mp same
  have length : (numbered 0 oneColumn).length = 1 := rfl
  omega

end N8n.DataTable
