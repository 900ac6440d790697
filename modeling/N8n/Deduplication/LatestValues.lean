import N8n.Deduplication.NewOnce
import N8n.Library.Consensus
import N8n.Library.Numbers

/-! The value that the latest modes store, and the later calls that can be made with it
(`packages/cli/src/deduplication/deduplication-helper.ts`).
-/

namespace N8n.Deduplication

open N8n.Exec

section

variable {Item Hash Key : Type} [LinearOrder Key]
variable {reader : ItemReader Item Hash Key} {mode : DeduplicationMode}

/-- The value can be compared in the mode. -/
def Valid (reader : ItemReader Item Hash Key) (mode : DeduplicationMode)
    (value : Option Item)
    : Prop :=
  (value.bind (keyOf reader mode)).isSome

omit [LinearOrder Key] in
theorem not_valid_none : ¬ Valid reader mode none := by simp [Valid]

theorem compareValues_ok_iff {value1 value2 : Option Item}
    : (∃ order, compareValues reader mode value1 value2 = .ok order)
      ↔ Valid reader mode value1 ∧ Valid reader mode value2 := by
  unfold compareValues Valid
  cases value1.bind (keyOf reader mode) with
  | none => simp
  | some key1 =>
      cases value2.bind (keyOf reader mode) with
      | none | some => simp

variable {stored : Option Item} {sofar : IDeduplicationOutput Item × Option Item}

/-- A check of an item compares it with the stored value, and keeps a valid largest one. -/
theorem valid_of_checkLatest {item : Item} {next : IDeduplicationOutput Item × Option Item}
    (checked : checkLatest reader mode stored sofar item = .ok next)
    : Valid reader mode stored
      ∧ (Valid reader mode sofar.2 → Valid reader mode next.2) := by
  obtain ⟨order, compared, checked⟩ := ok_of_bind checked
  obtain ⟨itemValid, storedValid⟩ := compareValues_ok_iff.mp ⟨order, compared⟩
  refine ⟨storedValid, fun sofarValid => ?_⟩
  split at checked
  · obtain ⟨largestOrder, _, checked⟩ := ok_of_bind checked
    split at checked
    · exact Except.ok.inj checked ▸ itemValid
    · exact Except.ok.inj checked ▸ sofarValid
  · exact Except.ok.inj checked ▸ sofarValid

theorem checkLatest_of_valid {item : Item} (itemValid : Valid reader mode (some item))
    (storedValid : Valid reader mode stored) (sofarValid : Valid reader mode sofar.2)
    : ∃ next, checkLatest reader mode stored sofar item = .ok next := by
  obtain ⟨order, compared⟩ := compareValues_ok_iff.mpr ⟨itemValid, storedValid⟩
  obtain ⟨largestOrder, largest⟩ := compareValues_ok_iff.mpr ⟨itemValid, sofarValid⟩
  unfold checkLatest
  simp only [compared, largest, bind, Except.bind]
  split
  · split
    · exact ⟨_, rfl⟩
    · exact ⟨_, rfl⟩
  · exact ⟨_, rfl⟩

variable {items : List Item}

theorem checkLatest_all (storedValid : Valid reader mode stored)
    (valid : ∀ item ∈ items, Valid reader mode (some item)) (sofarValid : Valid reader mode sofar.2)
    : ∃ last, items.foldlM (checkLatest reader mode stored) sofar = .ok last := by
  induction items generalizing sofar with
  | nil => exact ⟨sofar, rfl⟩
  | cons item rest ih =>
      obtain ⟨next, checked⟩ :=
        checkLatest_of_valid (valid item (.head _)) storedValid sofarValid
      rw [List.foldlM_cons, checked]
      exact ih (fun other member => valid other (.tail _ member))
        ((valid_of_checkLatest checked).2 sofarValid)

theorem sortEntries_of_valid (valid : ∀ item ∈ items, Valid reader mode (some item))
    : ∃ sorted, sortEntries reader mode items = .ok sorted
        ∧ ∀ item ∈ sorted, item ∈ items := by
  unfold sortEntries
  split
  · exact ⟨items, rfl, fun _ => id⟩
  · have each : ∀ item ∈ items, ∃ pair,
        (keyOf reader mode item).map (fun key => (item, key)) = some pair := by
      intro item member
      obtain ⟨key, isKey⟩ := Option.isSome_iff_exists.mp (valid item member)
      exact ⟨(item, key), by simpa using isKey⟩
    obtain ⟨keyed, keying⟩ := BackwardSearch.exists_mapM each
    rw [keying]
    refine ⟨_, rfl, fun item member => ?_⟩
    obtain ⟨pair, sorted, rfl⟩ := List.mem_map.mp member
    rw [List.mem_mergeSort] at sorted
    exact (keyed_of_mapM keying).1 ▸ List.mem_map_of_mem sorted

variable {sorted : List Item}

/-- The last of several items that could be sorted is there, and valid. -/
theorem sortEntries_getLast (several : 1 < items.length)
    (sorting : sortEntries reader mode items = .ok sorted)
    : Valid reader mode sorted.getLast? := by
  unfold sortEntries at sorting
  rw [if_neg (Nat.not_le.mpr several)] at sorting
  split at sorting
  · contradiction
  next keyed keying =>
  cases sorting
  obtain ⟨sameItems, sameKeys⟩ := keyed_of_mapM keying
  have filled : keyed ≠ [] := by
    rintro rfl
    simp [← sameItems] at several
  obtain ⟨last, isLast, inKeyed, -⟩ := exists_largest filled
  rw [List.getLast?_map, isLast]
  simp [Valid, sameKeys last inKeyed]

theorem sortEntries_ne_nil (filled : items ≠ [])
    (sorting : sortEntries reader mode items = .ok sorted)
    : sorted ≠ [] := by
  rcases Nat.lt_or_ge 1 items.length with several | few
  · rintro rfl
    exact not_valid_none (sortEntries_getLast several sorting)
  · unfold sortEntries at sorting
    rw [if_pos few] at sorting
    exact Except.ok.inj sorting ▸ filled

variable {options : ICheckProcessedOptions} {found : DeduplicationMode}

/-- Where entries are stored under a latest mode, a check only answers. -/
theorem handleLatestModes_entries {data : List Hash}
    (sorting : sortEntries reader options.mode items = .ok sorted)
    : handleLatestModes reader items options (some ⟨found, .entries data⟩) = .ok none := by
  unfold handleLatestModes
  rw [sorting]
  rfl

/-- A check of items against a stored value returns only if that is valid, and then stores a
valid one.
-/
theorem handleLatestModes_stored (filled : items ≠ []) {outcome : Option (Outcome Item Hash)}
    (returned
      : handleLatestModes reader items options (some ⟨found, .latest stored⟩) = .ok outcome)
    : Valid reader options.mode stored
      ∧ ∃ largest output, outcome = some ⟨⟨found, .latest largest⟩, output, []⟩
        ∧ Valid reader options.mode largest := by
  obtain ⟨sorted, sorting, returned⟩ := ok_of_bind returned
  obtain ⟨⟨output, largest⟩, looped, answered⟩ := ok_of_bind returned
  have whole : outcome = some ⟨⟨found, .latest largest⟩, output, []⟩ :=
    (Except.ok.inj answered).symm
  cases sorted with
  | nil => exact absurd rfl (sortEntries_ne_nil filled sorting)
  | cons first rest =>
      obtain ⟨next, checked, _⟩ := ok_of_bind looped
      have storedValid := (valid_of_checkLatest checked).1
      let keeps (sofar : IDeduplicationOutput Item × Option Item) : Prop :=
        Valid reader options.mode sofar.2
      have kept : keeps (output, largest) :=
        foldlM_preserves (fun _ _ _ before checked => (valid_of_checkLatest checked).2 before)
          storedValid looped
      exact ⟨storedValid, largest, output, whole, kept⟩

variable [DecidableEq Hash]

/-- No call of the mode with valid items throws. -/
def Accepts (reader : ItemReader Item Hash Key) (mode : DeduplicationMode)
    (row : Option (ProcessedData Item Hash))
    : Prop :=
  ∀ items maxEntries, (∀ item ∈ items, Valid reader mode (some item))
    → ∃ result, checkProcessed reader items ⟨mode, maxEntries⟩ row = .ok result

theorem checkProcessed_latest (isLatest : options.mode ≠ .entries)
    {row : Option (ProcessedData Item Hash)} (sameMode : ∀ found ∈ row, found.mode = options.mode)
    : checkProcessed reader items options row
        = handleLatestModes reader items options row := by
  unfold checkProcessed
  rw [if_neg (by cases row <;> simp_all)]
  split
  · rfl
  · rfl
  · next entries => exact absurd entries isLatest

theorem checkProcessed_otherMode (reader : ItemReader Item Hash Key) (items : List Item)
    {content : ProcessedItems Item Hash} (otherMode : found ≠ options.mode)
    : ∃ error, checkProcessed reader items options (some ⟨found, content⟩) = .error error := by
  unfold checkProcessed
  rw [if_pos (by simpa using otherMode)]
  exact ⟨_, rfl⟩

theorem accepts_entries {data : List Hash} (isLatest : mode ≠ .entries)
    : Accepts reader mode (some ⟨mode, .entries data⟩) := by
  intro items maxEntries valid
  obtain ⟨sorted, sorting, -⟩ := sortEntries_of_valid valid
  refine ⟨none, ?_⟩
  rw [checkProcessed_latest isLatest (by simp)]
  exact handleLatestModes_entries sorting

/-- A stored latest value is accepted exactly if it is valid, where there are valid items. -/
theorem accepts_latest_iff (isLatest : mode ≠ .entries)
    (someValid : ∃ item, Valid reader mode (some item))
    : Accepts reader mode (some (⟨mode, .latest stored⟩ : ProcessedData Item Hash))
      ↔ Valid reader mode stored := by
  have checks (items : List Item) (maxEntries : Option Nat)
      : checkProcessed reader items ⟨mode, maxEntries⟩
          (some (⟨mode, .latest stored⟩ : ProcessedData Item Hash))
        = handleLatestModes reader items ⟨mode, maxEntries⟩ (some ⟨mode, .latest stored⟩) :=
    checkProcessed_latest isLatest (by simp)
  unfold Accepts
  simp only [checks]
  constructor
  · intro accepts
    obtain ⟨item, itemValid⟩ := someValid
    obtain ⟨result, returned⟩ := accepts [item] none (by simpa using itemValid)
    exact (handleLatestModes_stored (by simp) returned).1
  · intro storedValid items maxEntries valid
    obtain ⟨sorted, sorting, there⟩ := sortEntries_of_valid valid
    have sortedValid : ∀ item ∈ sorted, Valid reader mode (some item) :=
      fun item member => valid item (there item member)
    have sofarValid : Valid reader mode ((⟨[], []⟩, stored) : IDeduplicationOutput Item × _).2 :=
      storedValid
    obtain ⟨last, looped⟩ := checkLatest_all storedValid sortedValid sofarValid
    unfold handleLatestModes
    simp only [sorting, looped, bind, Except.bind]
    exact ⟨_, rfl⟩

end

/-- A string or a number, or `null`, which JSON makes of a number that is not finite. -/
inductive LatestItem where
  | string (value : String)
  | number (value : JsNumber)
  | null
  deriving DecidableEq

/-- How texts are hashed, how they convert to numbers and back, and the dates that they can be
parsed as.
-/
structure Conversions (Hash : Type) where
  createHash : String → Hash
  numberText : JsNumber → String
  textNumber : String → JsNumber
  parseDateTime : String → Option OrderedNumber

def ordered? : JsNumber → Option OrderedNumber
  | .finite value => some ((value : WithTop ℚ) : OrderedNumber)
  | .infinity isNegative => some (if isNegative then ⊥ else ⊤)
  | .nan => none

namespace LatestItem

def throughJson : LatestItem → LatestItem
  | .number (.infinity _) => .null
  | .number .nan => .null
  | item => item

end LatestItem

namespace Conversions

variable {Hash : Type} (conversions : Conversions Hash)

/-- `String(item)`. -/
def text : LatestItem → String
  | .string value => value
  | .number value => conversions.numberText value
  | .null => "null"

/-- `Number(item)`. -/
def number : LatestItem → JsNumber
  | .string value => conversions.textNumber value
  | .number value => value
  | .null => 0

def reader : ItemReader LatestItem Hash OrderedNumber where
  createValueHash item := conversions.createHash (conversions.text item)
  number item := ordered? (conversions.number item)
  tryToParseDateTime item := conversions.parseDateTime (conversions.text item)

/-- Some texts are dates, but not those of the numbers that are not finite. -/
structure ParsesDates : Prop where
  some : ∃ text, (conversions.parseDateTime text).isSome
  notInfinity
    : ∀ isNegative, conversions.parseDateTime (conversions.numberText (.infinity isNegative))
        = none
  notNaN : conversions.parseDateTime (conversions.numberText .nan) = none

end Conversions

def ProcessedData.throughJson {Hash : Type} (data : ProcessedData LatestItem Hash)
    : ProcessedData LatestItem Hash :=
  match data.items with
  | .latest latest => { data with items := .latest (latest.map LatestItem.throughJson) }
  | .entries _ => data

section

variable {Hash : Type} [DecidableEq Hash] (conversions : Conversions Hash)
  (items : List LatestItem) (options : ICheckProcessedOptions)

/-- On the row of the context, which nothing else writes meanwhile. -/
def checkProcessedAndRecord
    : Exec (Option (ProcessedData LatestItem Hash)) (IDeduplicationOutput LatestItem) := do
  let processedData ← get
  match checkProcessed conversions.reader items options processedData with
  | .error error => throw error
  | .ok none => pure ⟨[], []⟩
  | .ok (some outcome) => do
      set (some outcome.stored.throughJson)
      pure outcome.output

/-- A call that throws leaves what is stored, and any other leaves what later calls accept. -/
def NotPoisoned (row : Option (ProcessedData LatestItem Hash)) : Prop :=
  (checkProcessedAndRecord conversions items options).Ensures row
    (fun _ after => Accepts conversions.reader options.mode after) (fun after => after = row)

/-- What there is to store is valid as the database gives it back: where nothing is stored, a
single item, and where no items are given, the stored value.
-/
def Storable (row : Option (ProcessedData LatestItem Hash)) : Prop :=
  match row with
  | none =>
      items ≠ []
        ∧ ∀ item, items = [item]
          → Valid conversions.reader options.mode (some item.throughJson)
  | some ⟨mode, .latest stored⟩ =>
      mode = options.mode → items = []
        → Valid conversions.reader options.mode (stored.map LatestItem.throughJson)
  | some ⟨_, .entries _⟩ => True

variable {conversions items options}

omit [DecidableEq Hash] in
variable {mode : DeduplicationMode}

theorem exists_valid (parses : conversions.ParsesDates) (isLatest : mode ≠ .entries)
    : ∃ item, Valid conversions.reader mode (some item) := by
  cases mode with
  | entries => exact absurd rfl isLatest
  | latestIncrementalKey => exact ⟨.null, rfl⟩
  | latestDate =>
      obtain ⟨text, isDate⟩ := parses.some
      exact ⟨.string text, isDate⟩

omit [DecidableEq Hash] in
/-- Of valid items, only infinite numbers change, and these are valid where `null` is. -/
theorem Valid.throughJson (parses : conversions.ParsesDates) {value : Option LatestItem}
    (valid : Valid conversions.reader mode value)
    : Valid conversions.reader mode (value.map LatestItem.throughJson) := by
  rcases value with _ | (text | (finite | isNegative | _) | _)
  · exact valid
  · exact valid
  · exact valid
  · cases mode with
    | entries => exact valid
    | latestIncrementalKey => rfl
    | latestDate =>
        have isDate : (conversions.parseDateTime (conversions.numberText _)).isSome := valid
        rw [parses.notInfinity isNegative] at isDate
        contradiction
  · cases mode with
    | entries => exact valid
    | latestIncrementalKey => rfl
    | latestDate =>
        have isDate : (conversions.parseDateTime (conversions.numberText _)).isSome := valid
        rw [parses.notNaN] at isDate
        contradiction
  · exact valid

theorem notPoisoned_of_error {row : Option (ProcessedData LatestItem Hash)} {error : JsError}
    (threw : checkProcessed conversions.reader items options row = .error error)
    : NotPoisoned conversions items options row := by
  unfold NotPoisoned checkProcessedAndRecord
  refine Ensures.bind (Ensures.get ?_)
  rw [threw]
  exact Ensures.throw rfl

/-- What a call stores is accepted exactly if it is valid as the database gives it back. -/
theorem notPoisoned_stored_iff (parses : conversions.ParsesDates)
    (isLatest : options.mode ≠ .entries) {row : Option (ProcessedData LatestItem Hash)}
    {latest : Option LatestItem} {output : IDeduplicationOutput LatestItem}
    {pushedOut : List Hash}
    (returned : checkProcessed conversions.reader items options row
      = .ok (some ⟨⟨options.mode, .latest latest⟩, output, pushedOut⟩))
    : NotPoisoned conversions items options row
      ↔ Valid conversions.reader options.mode (latest.map LatestItem.throughJson) := by
  unfold NotPoisoned checkProcessedAndRecord
  rw [ensures_bind_iff]
  change Exec.Ensures (match checkProcessed conversions.reader items options row with
    | .error error => throw error
    | .ok none => pure ⟨[], []⟩
    | .ok (some outcome) => do
        set (some outcome.stored.throughJson)
        pure outcome.output) row _ _ ↔ _
  rw [returned]
  exact accepts_latest_iff isLatest (exists_valid parses isLatest)

theorem notPoisoned_entries (isLatest : options.mode ≠ .entries) {data : List Hash}
    : NotPoisoned conversions items options (some ⟨mode, .entries data⟩) := by
  cases checked : checkProcessed conversions.reader items options
    (some ⟨mode, .entries data⟩) with
  | error error => exact notPoisoned_of_error checked
  | ok result =>
      by_cases sameMode : mode = options.mode
      · subst sameMode
        rw [checkProcessed_latest isLatest (by simp)] at checked
        obtain ⟨sorted, sorting, _⟩ := ok_of_bind checked
        rw [handleLatestModes_entries sorting] at checked
        cases checked
        unfold NotPoisoned checkProcessedAndRecord
        refine Ensures.bind (Ensures.get ?_)
        rw [checkProcessed_latest isLatest (by simp), handleLatestModes_entries sorting]
        exact Ensures.pure (accepts_entries isLatest)
      · obtain ⟨error, threw⟩ := checkProcessed_otherMode conversions.reader items sameMode
        rw [threw] at checked
        contradiction

theorem checkProcessed_first (isLatest : options.mode ≠ .entries) {sorted : List LatestItem}
    (sorting : sortEntries conversions.reader options.mode items = .ok sorted)
    : checkProcessed conversions.reader items options none
        = .ok (some ⟨⟨options.mode, .latest sorted.getLast?⟩, ⟨items, []⟩, []⟩) := by
  rw [checkProcessed_latest isLatest (by simp)]
  unfold handleLatestModes
  rw [sorting]
  rfl

theorem notPoisoned_first_iff (parses : conversions.ParsesDates)
    (isLatest : options.mode ≠ .entries)
    : NotPoisoned conversions items options none
      ↔ Storable conversions items options none := by
  unfold Storable
  match items with
  | [] =>
      rw [notPoisoned_stored_iff parses isLatest (checkProcessed_first isLatest rfl)]
      exact iff_of_false not_valid_none (fun both => both.1 rfl)
  | [item] =>
      rw [notPoisoned_stored_iff parses isLatest (checkProcessed_first isLatest rfl)]
      simp
  | first :: second :: rest =>
      refine iff_of_true ?_ (by simp)
      cases sorting : sortEntries conversions.reader options.mode (first :: second :: rest) with
      | error error =>
          apply notPoisoned_of_error
          rw [checkProcessed_latest isLatest (by simp)]
          unfold handleLatestModes
          rw [sorting]
          rfl
      | ok sorted =>
          rw [notPoisoned_stored_iff parses isLatest (checkProcessed_first isLatest sorting)]
          exact (sortEntries_getLast (by simp) sorting).throughJson parses

theorem notPoisoned_later_iff (parses : conversions.ParsesDates)
    (isLatest : options.mode ≠ .entries) {stored : Option LatestItem}
    : NotPoisoned conversions items options (some ⟨mode, .latest stored⟩)
      ↔ Storable conversions items options (some ⟨mode, .latest stored⟩) := by
  unfold Storable
  by_cases sameMode : mode = options.mode
  · subst sameMode
    by_cases none : items = []
    · subst none
      have unchanged
          : checkProcessed conversions.reader [] options (some ⟨options.mode, .latest stored⟩)
            = .ok (some ⟨⟨options.mode, .latest stored⟩, ⟨[], []⟩, []⟩) := by
        rw [checkProcessed_latest isLatest (by simp)]
        rfl
      rw [notPoisoned_stored_iff parses isLatest unchanged]
      simp
    · refine iff_of_true ?_ (fun _ empty => absurd empty none)
      cases checked : checkProcessed conversions.reader items options
        (some ⟨options.mode, .latest stored⟩) with
      | error error => exact notPoisoned_of_error checked
      | ok result =>
          have handled := checked
          rw [checkProcessed_latest isLatest (by simp)] at handled
          obtain ⟨-, largest, output, rfl, valid⟩ := handleLatestModes_stored none handled
          rw [notPoisoned_stored_iff parses isLatest checked]
          exact valid.throughJson parses
  · refine iff_of_true ?_ (fun same => absurd same sameMode)
    obtain ⟨error, threw⟩ := checkProcessed_otherMode conversions.reader items sameMode
    exact notPoisoned_of_error threw

/-- A call leaves a stored value that later calls accept exactly if what it has to store without
a comparison is valid.
-/
theorem notPoisoned_iff (parses : conversions.ParsesDates) (isLatest : options.mode ≠ .entries)
    (row : Option (ProcessedData LatestItem Hash))
    : NotPoisoned conversions items options row ↔ Storable conversions items options row :=
  match row with
  | none => notPoisoned_first_iff parses isLatest
  | some ⟨_, .latest _⟩ => notPoisoned_later_iff parses isLatest
  | some ⟨_, .entries _⟩ => iff_of_true (notPoisoned_entries isLatest) trivial

end

/-- Whole numbers have texts, and one day is a date. -/
def plainConversions : Conversions String where
  createHash := id
  numberText
    | .finite value => toString value
    | .infinity isNegative => if isNegative then "-Infinity" else "Infinity"
    | .nan => "NaN"
  textNumber _ := .nan
  parseDateTime text :=
    if text = "2024-01-01" then some (OrderedNumber.ofNat 1704067200000) else none

theorem plainConversions_parses : plainConversions.ParsesDates where
  some := ⟨"2024-01-01", rfl⟩
  notInfinity isNegative := by cases isNegative <;> rfl
  notNaN := rfl

theorem notPoisoned_oneDate
    : plainConversions.ParsesDates ∧ DeduplicationMode.latestDate ≠ .entries
        ∧ (NotPoisoned plainConversions [.string "2024-01-01"] ⟨.latestDate, none⟩ none
          ↔ Storable plainConversions [.string "2024-01-01"] ⟨.latestDate, none⟩ none) :=
  ⟨plainConversions_parses, by decide,
    notPoisoned_iff plainConversions_parses (by decide) none⟩

/-- A first call without items stores no value, and every later call with items throws. -/
theorem not_notPoisoned_noItems
    : ¬ NotPoisoned plainConversions [] ⟨.latestDate, none⟩ none := by
  have stores
      : checkProcessed plainConversions.reader [] ⟨.latestDate, none⟩ none
        = .ok (some ⟨⟨.latestDate, .latest none⟩, ⟨[], []⟩, []⟩) := rfl
  rw [notPoisoned_stored_iff plainConversions_parses (by decide) stores]
  exact not_valid_none

end N8n.Deduplication
