import N8n.Library.Tables

/-! The compaction of insights rows into rows of longer periods
(`packages/cli/src/modules/insights/insights-compaction.service.ts` and the queries of
`database/repositories`). Times are milliseconds since 1970 on the clock of the database
session; sums of values are exact.
-/

namespace N8n.Insights.Compaction

open N8n.Tables

inductive DbType where
  | sqlite
  | postgresdb
  deriving DecidableEq, Repr

inductive PeriodUnit where
  | hour
  | day
  | week
  deriving DecidableEq, Repr

def PeriodUnitToNumber : PeriodUnit → Int
  | .hour => 0
  | .day => 1
  | .week => 2

structure InsightsRaw where
  id : Nat
  metaId : Int
  type : Int
  value : Int
  timestamp : Int
  deriving DecidableEq, Repr

structure InsightsRawTable where
  rows : List InsightsRaw
  ids : (rows.map InsightsRaw.id).Nodup

/-- The columns of the unique index. -/
structure InsightsByPeriodKey where
  metaId : Int
  type : Int
  periodUnit : Int
  periodStart : Int
  deriving DecidableEq, Repr

abbrev InsightsByPeriod := Row InsightsByPeriodKey

/-- A row of a batch query. -/
structure SourceRow where
  id : Nat
  metaId : Int
  type : Int
  periodStart : Int
  value : Int
  deriving DecidableEq, Repr

structure InsightsConfig where
  compactionBatchSize : Nat
  compactionHourlyToDailyThresholdDays : Nat
  compactionDailyToWeeklyThresholdDays : Nat

/-- What is up to the database: the time of each transaction, and the order in which it gives
rows that start at the same time.
-/
structure Database where
  dbType : DbType
  now : Nat → Int
  orderBy : Nat → List SourceRow → List SourceRow
  orderBy_perm : ∀ transaction rows, (orderBy transaction rows).Perm rows
  orderBy_sorted
    : ∀ transaction rows,
        (orderBy transaction rows).Pairwise (fun row later => row.periodStart ≤ later.periodStart)

/-- The two tables and the flag of the repository; transactions are counted. -/
structure State where
  insightsRaw : InsightsRawTable
  insightsByPeriod : Table InsightsByPeriodKey
  isRunningCompaction : Bool
  transactions : Nat

inductive SourceTable where
  | insightsRaw
  | insightsByPeriod
  deriving DecidableEq, Repr

def hourLength : Int := 3600000
def dayLength : Int := 86400000

def startOfHour (time : Int) : Int := time - time % hourLength

def startOfDay (time : Int) : Int := time - time % dayLength

/-- The day of the week, Sunday being 0; 1970 began on a Thursday. -/
def weekday (time : Int) : Int := (time / dayLength + 4) % 7

/-- `date(time, '-6 days', 'weekday 1')`, which advances to a Monday unless it is one. -/
def sqliteWeek (time : Int) : Int :=
  let earlier := time - 6 * dayLength
  startOfDay (earlier + (1 - weekday earlier) % 7 * dayLength)

/-- `DATE_TRUNC('week', time)`, the Monday of the ISO week. -/
def postgresWeek (time : Int) : Int :=
  startOfDay time - (weekday time + 6) % 7 * dayLength

def getPeriodStartExpr (dbType : DbType) (periodUnitToCompactInto : PeriodUnit) (time : Int)
    : Int :=
  match periodUnitToCompactInto, dbType with
  | .hour, _ => startOfHour time
  | .day, _ => startOfDay time
  | .week, .sqlite => sqliteWeek time
  | .week, .postgresdb => postgresWeek time

def getPeriodFilterExpr (now : Int) (maxAgeInDays : Nat) : Int :=
  startOfDay now - maxAgeInDays * dayLength

def InsightsRaw.toSource (row : InsightsRaw) : SourceRow :=
  ⟨row.id, row.metaId, row.type, row.timestamp, row.value⟩

def toSource (row : InsightsByPeriod) : SourceRow :=
  ⟨row.id, row.key.metaId, row.key.type, row.key.periodStart, row.value⟩

def getRawInsightsBatchQuery (database : Database) (compactionBatchSize : Nat) (state : State)
    : List SourceRow :=
  let rows := state.insightsRaw.rows.map InsightsRaw.toSource
  (database.orderBy state.transactions rows).take compactionBatchSize

def getPeriodInsightsBatchQuery (database : Database) (periodUnitToCompactFrom : PeriodUnit)
    (compactionBatchSize maxAgeInDays : Nat) (state : State)
    : List SourceRow :=
  let ofUnit :=
    state.insightsByPeriod.rows.filter (fun row =>
      row.key.periodUnit = PeriodUnitToNumber periodUnitToCompactFrom)
  let limit := getPeriodFilterExpr (database.now state.transactions) maxAgeInDays
  let rows := (ofUnit.map toSource).filter (fun row => row.periodStart < limit)
  (database.orderBy state.transactions rows).take compactionBatchSize

/-- The key of the row to which a row of the batch is added. -/
def targetKey (dbType : DbType) (periodUnit : PeriodUnit) (row : SourceRow)
    : InsightsByPeriodKey :=
  ⟨row.metaId, row.type, PeriodUnitToNumber periodUnit,
    getPeriodStartExpr dbType periodUnit row.periodStart⟩

def getAggregationQuery (dbType : DbType) (periodUnit : PeriodUnit)
    (rowsToCompact : List SourceRow)
    : List (InsightsByPeriodKey × Int) :=
  groupBy (targetKey dbType periodUnit) SourceRow.value rowsToCompact

def InsightsRawTable.deleteIds (table : InsightsRawTable) (deleted : List Nat)
    : InsightsRawTable where
  rows := table.rows.filter (fun row => row.id ∉ deleted)
  ids := table.ids.sublist (List.filter_sublist.map InsightsRaw.id)

def deleteBatch (sourceTable : SourceTable) (deleted : List Nat) (state : State) : State :=
  match sourceTable with
  | .insightsRaw => { state with insightsRaw := state.insightsRaw.deleteIds deleted }
  | .insightsByPeriod =>
      { state with insightsByPeriod := state.insightsByPeriod.deleteIds deleted }

/-- One transaction, and the number of the rows that it has compacted. -/
def compactSourceDataIntoInsightPeriod (database : Database)
    (sourceBatchQuery : State → List SourceRow) (sourceTable : SourceTable)
    (periodUnitToCompactInto : PeriodUnit) (state : State)
    : Nat × State :=
  if state.isRunningCompaction then (0, state)
  else
    let rowsToCompact := sourceBatchQuery state
    let groups := getAggregationQuery database.dbType periodUnitToCompactInto rowsToCompact
    let upserted :=
      { state with insightsByPeriod := state.insightsByPeriod.upsertAll groups }
    let deleted := deleteBatch sourceTable (rowsToCompact.map SourceRow.id) upserted
    (rowsToCompact.length, { deleted with transactions := deleted.transactions + 1 })

def compactRawToHour (database : Database) (config : InsightsConfig) : State → Nat × State :=
  compactSourceDataIntoInsightPeriod database
    (getRawInsightsBatchQuery database config.compactionBatchSize) .insightsRaw .hour

def compactHourToDay (database : Database) (config : InsightsConfig) : State → Nat × State :=
  compactSourceDataIntoInsightPeriod database
    (getPeriodInsightsBatchQuery database .hour config.compactionBatchSize
      config.compactionHourlyToDailyThresholdDays)
    .insightsByPeriod .day

def compactDayToWeek (database : Database) (config : InsightsConfig) : State → Nat × State :=
  compactSourceDataIntoInsightPeriod database
    (getPeriodInsightsBatchQuery database .day config.compactionBatchSize
      config.compactionDailyToWeeklyThresholdDays)
    .insightsByPeriod .week

/-- `do { … } while (numberOfCompactedData === compactionBatchSize)`, for at most `fuel`
rounds.
-/
def compactWhileFull (compact : State → Nat × State) (compactionBatchSize : Nat)
    : Nat → State → Option State
  | 0, _ => none
  | fuel + 1, state =>
      let compacted := compact state
      if compacted.1 = compactionBatchSize then
        compactWhileFull compact compactionBatchSize fuel compacted.2
      else some compacted.2

def compactInsights (database : Database) (config : InsightsConfig) (fuel : Nat) (state : State)
    : Option State := do
  let hourly ←
    compactWhileFull (compactRawToHour database config) config.compactionBatchSize fuel state
  let daily ←
    compactWhileFull (compactHourToDay database config) config.compactionBatchSize fuel hourly
  compactWhileFull (compactDayToWeek database config) config.compactionBatchSize fuel daily

end N8n.Insights.Compaction
