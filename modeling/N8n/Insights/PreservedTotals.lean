import Mathlib.Data.List.Sort
import N8n.Insights.Compaction

/-! What a compaction does to the two tables, for every database that answers its queries: rows
move to the periods that contain them, and the totals stay.
-/

namespace N8n.Insights.Compaction

open N8n.Tables

inductive Place where
  | raw
  | period (periodUnit : Int)
  deriving DecidableEq

def rowsAt (state : State) : Place → List SourceRow
  | .raw => state.insightsRaw.rows.map InsightsRaw.toSource
  | .period periodUnit =>
      (state.insightsByPeriod.rows.filter (fun row => row.key.periodUnit = periodUnit)).map toSource

namespace PeriodUnit

def target (unit : PeriodUnit) : Place := .period (PeriodUnitToNumber unit)

/-- Where the rows for a unit come from. -/
def source : PeriodUnit → Place
  | .hour => .raw
  | .day => PeriodUnit.hour.target
  | .week => PeriodUnit.day.target

def length : PeriodUnit → Int
  | .hour => hourLength
  | .day => dayLength
  | .week => 7 * dayLength

/-- Weeks start on Monday. -/
def IsStart (unit : PeriodUnit) (time : Int) : Prop :=
  match unit with
  | .hour => time % hourLength = 0
  | .day => time % dayLength = 0
  | .week => time % dayLength = 0 ∧ weekday time = 1

instance (unit : PeriodUnit) (time : Int) : Decidable (unit.IsStart time) := by
  unfold IsStart
  split <;> infer_instance

/-- `start` begins a period of the unit, and the time is in it. -/
def Contains (unit : PeriodUnit) (start time : Int) : Prop :=
  unit.IsStart start ∧ start ≤ time ∧ time < start + unit.length

instance (unit : PeriodUnit) (start time : Int) : Decidable (unit.Contains start time) :=
  inferInstanceAs (Decidable (_ ∧ _))

end PeriodUnit

def SourceRow.valueOf (metaId type : Int) (row : SourceRow) : Int :=
  if row.metaId = metaId ∧ row.type = type then row.value else 0

/-- The values for a workflow and a type, taken over both tables. -/
def State.totalOf (state : State) (metaId type : Int) : Int :=
  total (SourceRow.valueOf metaId type)
    (rowsAt state .raw ++ state.insightsByPeriod.rows.map toSource)

/-- A batch of rows leaves its place for the periods of a unit: the row of a period gains the
values of exactly those rows of the batch that the period contains. Rows elsewhere stay.
-/
structure Moved (unit : PeriodUnit) (batch : List SourceRow) (before after : State) : Prop where
  taken : (rowsAt before unit.source).Perm (batch ++ rowsAt after unit.source)
  gained
    : ∀ metaId type start,
        total (fun row => if row.periodStart = start then row.valueOf metaId type else 0)
            (rowsAt after unit.target)
          = total (fun row => if row.periodStart = start then row.valueOf metaId type else 0)
              (rowsAt before unit.target)
            + total
                (fun row =>
                  if unit.Contains start row.periodStart then row.valueOf metaId type else 0)
                batch
  kept
    : ∀ place, place ≠ unit.source → place ≠ unit.target
        → rowsAt after place = rowsAt before place

def Moves (before after : State) : Prop := ∃ unit batch, Moved unit batch before after

theorem startOfHour_eq_iff (time start : Int)
    : startOfHour time = start ↔ PeriodUnit.hour.Contains start time := by
  simp only [startOfHour, PeriodUnit.Contains, PeriodUnit.IsStart, PeriodUnit.length, hourLength]
  omega

theorem startOfDay_eq_iff (time start : Int)
    : startOfDay time = start ↔ PeriodUnit.day.Contains start time := by
  simp only [startOfDay, PeriodUnit.Contains, PeriodUnit.IsStart, PeriodUnit.length, dayLength]
  omega

theorem sqliteWeek_eq_iff (time start : Int)
    : sqliteWeek time = start ↔ PeriodUnit.week.Contains start time := by
  simp only [sqliteWeek, startOfDay, weekday, PeriodUnit.Contains, PeriodUnit.IsStart,
    PeriodUnit.length, dayLength]
  omega

theorem postgresWeek_eq_iff (time start : Int)
    : postgresWeek time = start ↔ PeriodUnit.week.Contains start time := by
  simp only [postgresWeek, startOfDay, weekday, PeriodUnit.Contains, PeriodUnit.IsStart,
    PeriodUnit.length, dayLength]
  omega

/-- The start that the database computes is that of the period with the time in it. -/
theorem getPeriodStartExpr_eq_iff (dbType : DbType) (unit : PeriodUnit) (time start : Int)
    : getPeriodStartExpr dbType unit time = start ↔ unit.Contains start time := by
  cases unit with
  | hour => exact startOfHour_eq_iff time start
  | day => exact startOfDay_eq_iff time start
  | week =>
      cases dbType with
      | sqlite => exact sqliteWeek_eq_iff time start
      | postgresdb => exact postgresWeek_eq_iff time start

variable (database : Database) {state : State} {unit : PeriodUnit} (batch : List SourceRow)
  {rest : List SourceRow}

/-- `ORDER BY … LIMIT …` over some of the rows gives a part of them. -/
theorem limit_isBatch {rows eligible others : List SourceRow}
    (split : (eligible ++ others).Perm rows) (transaction size : Nat)
    : ∃ rest, rows.Perm ((database.orderBy transaction eligible).take size ++ rest) := by
  refine ⟨(database.orderBy transaction eligible).drop size ++ others, ?_⟩
  rw [← List.append_assoc, List.take_append_drop]
  exact split.symm.trans ((database.orderBy_perm transaction eligible).symm.append_right others)

theorem getRawInsightsBatchQuery_isBatch (size : Nat)
    : ∃ rest,
        (rowsAt state .raw).Perm (getRawInsightsBatchQuery database size state ++ rest) :=
  limit_isBatch database (.of_eq (List.append_nil _)) _ _

theorem getPeriodInsightsBatchQuery_isBatch (size maxAgeInDays : Nat)
    : ∃ rest,
        (rowsAt state unit.target).Perm
          (getPeriodInsightsBatchQuery database unit size maxAgeInDays state ++ rest) :=
  limit_isBatch database (List.filter_append_perm _ _) _ _

/-- The table of the periods after the upsert of a batch. -/
def upserted (database : Database) (unit : PeriodUnit) (batch : List SourceRow) (state : State)
    : Table InsightsByPeriodKey :=
  state.insightsByPeriod.upsertAll (getAggregationQuery database.dbType unit batch)

variable {sourceBatchQuery : State → List SourceRow}

theorem compactSourceDataIntoInsightPeriod_idle {sourceTable : SourceTable}
    (idle : state.isRunningCompaction = false)
    : compactSourceDataIntoInsightPeriod database sourceBatchQuery sourceTable unit state
      = ((sourceBatchQuery state).length,
          { deleteBatch sourceTable ((sourceBatchQuery state).map SourceRow.id)
              { state with insightsByPeriod := upserted database unit (sourceBatchQuery state) state }
            with transactions := state.transactions + 1 }) := by
  unfold compactSourceDataIntoInsightPeriod upserted
  cases sourceTable <;> simp [idle, deleteBatch]

theorem total_upserted (counts : InsightsByPeriodKey → Bool)
    : total (Table.worth counts) (upserted database unit batch state).rows
      = total (Table.worth counts) state.insightsByPeriod.rows
        + total
            (fun row => if counts (targetKey database.dbType unit row) then row.value else 0)
            batch := by
  rw [upserted, Table.total_upsertAll, getAggregationQuery, total_groupBy]

theorem upserted_gained (metaId type start : Int)
    : total (fun row => if row.periodStart = start then row.valueOf metaId type else 0)
          (((upserted database unit batch state).rows.filter (fun row =>
            row.key.periodUnit = PeriodUnitToNumber unit)).map toSource)
        = total (fun row => if row.periodStart = start then row.valueOf metaId type else 0)
            (rowsAt state unit.target)
          + total
              (fun row =>
                if unit.Contains start row.periodStart then row.valueOf metaId type else 0)
              batch := by
  have ofKey (rows : List InsightsByPeriod)
      : total (fun row => if row.periodStart = start then row.valueOf metaId type else 0)
          ((rows.filter (fun row =>
            row.key.periodUnit = PeriodUnitToNumber unit)).map toSource)
        = total
            (Table.worth (fun key => key = ⟨metaId, type, PeriodUnitToNumber unit, start⟩)) rows
      := by
    rw [total_map, total_filter]
    refine total_congr (fun row _ => ?_)
    obtain ⟨id, ⟨rowMeta, rowType, rowUnit, rowStart⟩, value⟩ := row
    simp only [toSource, SourceRow.valueOf, Table.worth, decide_eq_true_eq,
      InsightsByPeriodKey.mk.injEq]
    grind
  rw [ofKey, total_upserted, PeriodUnit.target, rowsAt, ofKey]
  congr 1
  refine total_congr (fun row _ => ?_)
  simp only [targetKey, SourceRow.valueOf, decide_eq_true_eq, InsightsByPeriodKey.mk.injEq,
    getPeriodStartExpr_eq_iff]
  grind

theorem total_upserted_rows (metaId type : Int)
    : total (SourceRow.valueOf metaId type) ((upserted database unit batch state).rows.map toSource)
      = total (SourceRow.valueOf metaId type) (state.insightsByPeriod.rows.map toSource)
        + total (SourceRow.valueOf metaId type) batch := by
  have ofKey (rows : List InsightsByPeriod)
      : total (SourceRow.valueOf metaId type) (rows.map toSource)
        = total (Table.worth (fun key => key.metaId = metaId ∧ key.type = type)) rows := by
    rw [total_map]
    refine total_congr (fun row _ => ?_)
    simp only [toSource, SourceRow.valueOf, Table.worth]
    grind
  rw [ofKey, total_upserted, ofKey]
  congr 1
  refine total_congr (fun row _ => ?_)
  simp only [targetKey, SourceRow.valueOf]
  grind

variable {periodUnit : Int}

/-- The upsert changes the rows of its unit only. -/
theorem filter_upserted (other : periodUnit ≠ PeriodUnitToNumber unit)
    : (upserted database unit batch state).rows.filter (fun row => row.key.periodUnit = periodUnit)
      = state.insightsByPeriod.rows.filter (fun row => row.key.periodUnit = periodUnit) := by
  have others
      : ∀ group ∈ getAggregationQuery database.dbType unit batch,
          decide (group.1.periodUnit = periodUnit) = false := by
    intro group member
    obtain ⟨row, -, same⟩ := mem_keys_groupBy member
    rw [← same]
    exact decide_eq_false (Ne.symm other)
  let keep (key : InsightsByPeriodKey) : Bool := key.periodUnit = periodUnit
  exact @Table.filter_upsertAll _ _ _ keep _ others

variable {batch}

/-- The rows of a period table at a place, without those of some ids. -/
theorem rows_deleteIds (table : Table InsightsByPeriodKey) (deleted : List Nat) (periodUnit : Int)
    : ((table.deleteIds deleted).rows.filter (fun row => row.key.periodUnit = periodUnit)).map
          toSource
      = ((table.rows.filter (fun row => row.key.periodUnit = periodUnit)).map toSource).filter
          (fun row => row.id ∉ deleted) := by
  rw [Table.deleteIds, List.filter_map, List.filter_filter, List.filter_filter]
  congr 1
  exact List.filter_congr (fun row _ => Bool.and_comm _ _)

theorem ids_rows (table : Table InsightsByPeriodKey)
    : ((table.rows.map toSource).map SourceRow.id).Nodup := by
  rw [List.map_map]
  exact table.ids

theorem source_ne_target (isSource : unit.source = .period periodUnit)
    : periodUnit ≠ PeriodUnitToNumber unit := by
  rintro rfl
  cases unit <;> simp [PeriodUnit.source, PeriodUnit.target, PeriodUnitToNumber] at isSource

theorem ids_raw (table : InsightsRawTable)
    : ((table.rows.map InsightsRaw.toSource).map SourceRow.id).Nodup := by
  rw [List.map_map]
  exact table.ids

theorem moved_raw (isBatch : (rowsAt state .raw).Perm (batch ++ rest)) (transactions : Nat)
    : Moved .hour batch state
        { state with
            insightsRaw := state.insightsRaw.deleteIds (batch.map SourceRow.id)
            insightsByPeriod := upserted database .hour batch state
            transactions } where
  taken := by
    have same := perm_batch (ids_raw state.insightsRaw) isBatch
    rw [List.filter_map] at same
    exact same
  gained := upserted_gained database batch
  kept place notSource notTarget := by
    cases place with
    | raw => exact absurd rfl notSource
    | period periodUnit =>
        have other : periodUnit ≠ PeriodUnitToNumber .hour := by
          rintro rfl
          exact notTarget rfl
        simp only [rowsAt, filter_upserted database batch other]

theorem moved_period (isSource : unit.source = .period periodUnit)
    (isBatch : (rowsAt state (.period periodUnit)).Perm (batch ++ rest)) (transactions : Nat)
    : Moved unit batch state
        { state with
            insightsByPeriod :=
              (upserted database unit batch state).deleteIds (batch.map SourceRow.id)
            transactions } := by
  have other := source_ne_target isSource
  -- The batch is among the rows after the upsert, which other units do not share.
  have named
      : ∀ id ∈ batch.map SourceRow.id,
          ∃ row ∈ (upserted database unit batch state).rows,
            decide (row.key.periodUnit = periodUnit) ∧ row.id = id := by
    intro id member
    obtain ⟨row, inBatch, rfl⟩ := List.mem_map.mp member
    have inSource := isBatch.symm.subset (List.mem_append_left rest inBatch)
    rw [rowsAt, ← filter_upserted database batch other] at inSource
    obtain ⟨stored, isStored, rfl⟩ := List.mem_map.mp inSource
    obtain ⟨isRow, ofUnit⟩ := List.mem_filter.mp isStored
    exact ⟨stored, isRow, ofUnit, rfl⟩
  have unchanged (elsewhere : Int) (differs : elsewhere ≠ periodUnit)
      : ((upserted database unit batch state).deleteIds (batch.map SourceRow.id)).rows.filter
            (fun row => row.key.periodUnit = elsewhere)
          = (upserted database unit batch state).rows.filter
              (fun row => row.key.periodUnit = elsewhere) := by
    let keep (key : InsightsByPeriodKey) : Bool := key.periodUnit = elsewhere
    let ofSource (key : InsightsByPeriodKey) : Bool := key.periodUnit = periodUnit
    refine @Table.filter_deleteIds _ _ keep ofSource _ (fun key kept => ?_) named
    have ofUnit : key.periodUnit = elsewhere := of_decide_eq_true kept
    exact decide_eq_false (ofUnit ▸ differs)
  constructor
  · rw [isSource]
    simp only [rowsAt]
    rw [rows_deleteIds, filter_upserted database batch other]
    exact perm_batch ((ids_rows _).sublist ((List.filter_sublist.map _).map _)) isBatch
  · intro metaId type start
    rw [← upserted_gained]
    simp only [PeriodUnit.target, rowsAt]
    rw [unchanged _ (Ne.symm other)]
  · intro place notSource notTarget
    cases place with
    | raw => rfl
    | period elsewhere =>
        have differs : elsewhere ≠ periodUnit := by
          rintro rfl
          exact notSource isSource.symm
        have notUnit : elsewhere ≠ PeriodUnitToNumber unit := by
          rintro rfl
          exact notTarget rfl
        simp only [rowsAt, unchanged _ differs, filter_upserted database batch notUnit]

/-- The rows that are added and those that are deleted have the same totals. -/
theorem totals_period (isSource : unit.source = .period periodUnit)
    (isBatch : (rowsAt state (.period periodUnit)).Perm (batch ++ rest)) (metaId type : Int)
    : total (SourceRow.valueOf metaId type)
          (((upserted database unit batch state).deleteIds (batch.map SourceRow.id)).rows.map
            toSource)
        = total (SourceRow.valueOf metaId type) (state.insightsByPeriod.rows.map toSource) := by
  -- All rows after the upsert are the batch and those that are not deleted.
  have ofUnit :=
    (List.filter_append_perm (fun row => decide (row.key.periodUnit = periodUnit))
      (upserted database unit batch state).rows).map toSource
  rw [List.map_append, filter_upserted database batch (source_ne_target isSource)] at ofUnit
  have isPart := ofUnit.symm.trans (isBatch.append_right _)
  rw [List.append_assoc] at isPart
  have split := perm_batch (ids_rows _) isPart
  rw [List.filter_map] at split
  have taken
      : total (SourceRow.valueOf metaId type)
            ((upserted database unit batch state).rows.map toSource)
          = total (SourceRow.valueOf metaId type)
              (batch
                ++ ((upserted database unit batch state).deleteIds
                  (batch.map SourceRow.id)).rows.map toSource) :=
    total_perm split
  rw [total_append, total_upserted_rows] at taken
  omega

/-- The tables after transactions that move rows and keep the totals. -/
structure Compacted (before after : State) : Prop where
  moves : Relation.ReflTransGen Moves before after
  totals : ∀ metaId type, after.totalOf metaId type = before.totalOf metaId type

theorem Compacted.refl (state : State) : Compacted state state :=
  ⟨.refl, fun _ _ => rfl⟩

theorem Compacted.trans {before middle after : State} (first : Compacted before middle)
    (second : Compacted middle after)
    : Compacted before after :=
  ⟨first.moves.trans second.moves,
    fun metaId type => (second.totals metaId type).trans (first.totals metaId type)⟩

/-- What one call does: nothing while another one runs, or a transaction. -/
def Compacts (unit : PeriodUnit) (before : State) (compacted : Nat × State) : Prop :=
  compacted = (0, before)
  ∨ ∃ batch,
      compacted.1 = batch.length
      ∧ Moved unit batch before compacted.2
      ∧ ∀ metaId type, compacted.2.totalOf metaId type = before.totalOf metaId type

theorem Compacts.compacted {compacted : Nat × State} (compacts : Compacts unit state compacted)
    : Compacted state compacted.2 := by
  rcases compacts with rfl | ⟨batch, -, moved, totals⟩
  · exact .refl state
  · exact ⟨.single ⟨unit, batch, moved⟩, totals⟩

theorem compacts_raw (isBatch : ∃ rest, (rowsAt state .raw).Perm (sourceBatchQuery state ++ rest))
    : Compacts .hour state
        (compactSourceDataIntoInsightPeriod database sourceBatchQuery .insightsRaw .hour state)
    := by
  obtain ⟨rest, isPart⟩ := isBatch
  cases running : state.isRunningCompaction with
  | true =>
      left
      simp [compactSourceDataIntoInsightPeriod, running]
  | false =>
      right
      rw [compactSourceDataIntoInsightPeriod_idle database running]
      have moved := moved_raw database isPart (state.transactions + 1)
      refine ⟨sourceBatchQuery state, rfl, moved, fun metaId type => ?_⟩
      have taken := @total_perm _ (SourceRow.valueOf metaId type) _ _ moved.taken
      simp only [PeriodUnit.source, total_append] at taken
      simp only [State.totalOf, total_append]
      rw [taken]
      simp only [deleteBatch, total_upserted_rows]
      omega

theorem compacts_period (isSource : unit.source = .period periodUnit)
    (isBatch
      : ∃ rest, (rowsAt state (.period periodUnit)).Perm (sourceBatchQuery state ++ rest))
    : Compacts unit state
        (compactSourceDataIntoInsightPeriod database sourceBatchQuery .insightsByPeriod unit state)
    := by
  obtain ⟨rest, isPart⟩ := isBatch
  cases running : state.isRunningCompaction with
  | true =>
      left
      simp [compactSourceDataIntoInsightPeriod, running]
  | false =>
      right
      rw [compactSourceDataIntoInsightPeriod_idle database running]
      have moved := moved_period database isSource isPart (state.transactions + 1)
      refine ⟨sourceBatchQuery state, rfl, moved, fun metaId type => ?_⟩
      simp only [State.totalOf, total_append, deleteBatch]
      rw [totals_period database isSource isPart]
      rfl

/-- A loop of calls ends, by induction on the rows that are left at the source: a full batch
takes at least one of them.
-/
theorem compactWhileFull_ends {compact : State → Nat × State} {size : Nat} (positive : 1 ≤ size)
    (compacts : ∀ state, Compacts unit state (compact state)) (state : State)
    : ∃ after,
        Compacted state after
        ∧ ∀ fuel,
            (rowsAt state unit.source).length < fuel
            → compactWhileFull compact size fuel state = some after := by
  have byRows (left : Nat) (state : State) (isLeft : (rowsAt state unit.source).length = left)
      : ∃ after,
          Compacted state after
          ∧ ∀ fuel,
              (rowsAt state unit.source).length < fuel
              → compactWhileFull compact size fuel state = some after := by
    induction left using Nat.strong_induction_on generalizing state with
    | _ left ih =>
        have here := (compacts state).compacted
        by_cases full : (compact state).1 = size
        · have fewer
              : (rowsAt (compact state).2 unit.source).length < (rowsAt state unit.source).length
              := by
            rcases compacts state with none | ⟨batch, count, moved, -⟩
            · rw [none] at full
              simp only at full
              omega
            · have lengths := moved.taken.length_eq
              rw [List.length_append] at lengths
              omega
          obtain ⟨after, later, ends⟩ := ih _ (isLeft ▸ fewer) (compact state).2 rfl
          refine ⟨after, here.trans later, fun fuel enough => ?_⟩
          cases fuel with
          | zero => omega
          | succ fuel =>
              simp only [compactWhileFull, full, if_true]
              exact ends fuel (by omega)
        · refine ⟨(compact state).2, here, fun fuel enough => ?_⟩
          cases fuel with
          | zero => omega
          | succ fuel => simp [compactWhileFull, full]
  exact byRows _ state rfl

theorem compactRawToHour_compacts (config : InsightsConfig) (state : State)
    : Compacts .hour state (compactRawToHour database config state) :=
  compacts_raw database (getRawInsightsBatchQuery_isBatch database _)

theorem compactHourToDay_compacts (config : InsightsConfig) (state : State)
    : Compacts .day state (compactHourToDay database config state) :=
  compacts_period database rfl (getPeriodInsightsBatchQuery_isBatch database _ _)

theorem compactDayToWeek_compacts (config : InsightsConfig) (state : State)
    : Compacts .week state (compactDayToWeek database config state) :=
  compacts_period database rfl (getPeriodInsightsBatchQuery_isBatch database _ _)

/-- For every batch size of at least 1, the compaction ends, with any fuel that is enough. The
totals are those from before, and each transaction on the way has moved a batch of rows into the
hours, days or weeks that contain them.
-/
theorem compactInsights_keepsTotals (database : Database) (config : InsightsConfig)
    (positive : 1 ≤ config.compactionBatchSize) (state : State)
    : ∃ enough after,
        (∀ fuel, enough ≤ fuel → compactInsights database config fuel state = some after)
        ∧ (∀ metaId type, after.totalOf metaId type = state.totalOf metaId type)
        ∧ Relation.ReflTransGen Moves state after := by
  obtain ⟨hourly, toHourly, hourlyEnds⟩ :=
    compactWhileFull_ends positive (compactRawToHour_compacts database config) state
  obtain ⟨daily, toDaily, dailyEnds⟩ :=
    compactWhileFull_ends positive (compactHourToDay_compacts database config) hourly
  obtain ⟨weekly, toWeekly, weeklyEnds⟩ :=
    compactWhileFull_ends positive (compactDayToWeek_compacts database config) daily
  have all := (toHourly.trans toDaily).trans toWeekly
  refine
    ⟨(rowsAt state .raw).length + (rowsAt hourly PeriodUnit.hour.target).length
      + (rowsAt daily PeriodUnit.day.target).length + 1,
      weekly, fun fuel isEnough => ?_, all.totals, all.moves⟩
  simp only [PeriodUnit.source] at hourlyEnds dailyEnds weeklyEnds
  simp only [compactInsights, Option.bind_eq_bind]
  rw [hourlyEnds fuel (by omega), Option.bind_some, dailyEnds fuel (by omega), Option.bind_some,
    weeklyEnds fuel (by omega)]

/-- A database that gives rows of the same start in the order in which they are stored. -/
def sorting : Database where
  dbType := .sqlite
  now _ := 1000 * dayLength
  orderBy _ rows := rows.insertionSort (fun row later => row.periodStart ≤ later.periodStart)
  orderBy_perm _ rows := List.perm_insertionSort _ rows
  orderBy_sorted _ rows := List.pairwise_insertionSort _ rows

def pairs : InsightsConfig := ⟨2, 90, 180⟩

/-- Three runs of the first hour of 1970, the first batch of which cuts the hour in two. -/
def firstHour : State where
  insightsRaw :=
    ⟨[⟨1, 7, 2, 1, 5⟩, ⟨2, 7, 2, 1, 3599999⟩, ⟨3, 7, 2, 1, 70⟩], by decide⟩
  insightsByPeriod := ⟨[⟨1, ⟨7, 2, 0, 0⟩, 10⟩], 2, by decide, by decide, by decide⟩
  isRunningCompaction := false
  transactions := 0

/-- The runs end up in the week that starts on the 29th of December 1969. -/
theorem compactInsights_keepsTotals_firstHour
    : (∃ enough after,
        (∀ fuel, enough ≤ fuel → compactInsights sorting pairs fuel firstHour = some after)
        ∧ (∀ metaId type, after.totalOf metaId type = firstHour.totalOf metaId type)
        ∧ Relation.ReflTransGen Moves firstHour after)
      ∧ (compactInsights sorting pairs 4 firstHour).map (fun after => after.insightsByPeriod.rows)
        = some [⟨3, ⟨7, 2, 2, -259200000⟩, 13⟩] := by
  exact ⟨compactInsights_keepsTotals sorting pairs (by decide) firstHour, by decide⟩

end N8n.Insights.Compaction
