import N8n.Deduplication.DeduplicationHelper
import N8n.Library.Histories
import N8n.Library.Runs

/-! Overlapping checks of one context, and the items that they report as new. The stored data
is read and written back with any other access in between.
-/

namespace N8n.Deduplication

open N8n.Exec N8n.Histories N8n.Runs

/-! ### Comparisons -/

section

variable {Item Hash Key : Type} [LinearOrder Key]
variable {reader : ItemReader Item Hash Key} {items : List Item} {item : Item}

variable {mode : DeduplicationMode}

theorem compareValues_eq_one {value1 value2 : Option Item}
    : compareValues reader mode value1 value2 = .ok 1
      ↔ ∃ key1 key2, value1.bind (keyOf reader mode) = some key1
          ∧ value2.bind (keyOf reader mode) = some key2 ∧ key2 < key1 := by
  unfold compareValues
  split
  · next key1 key2 first second =>
      simp only [first, second, Except.ok.injEq, Option.some.injEq, exists_and_left,
        exists_eq_left']
      constructor
      · intro isOne
        split at isOne
        · contradiction
        · split at isOne
          · assumption
          · contradiction
      · intro less
        simp [less, ne_of_gt less]
  · next missing =>
      simp only [reduceCtorEq, false_iff, not_exists]
      rintro key1 key2 ⟨first, second, -⟩
      exact missing key1 key2 first second

/-- The largest value only grows, so what was not above it stays so. -/
theorem not_above_of_above {value : Option Item} {larger : Item}
    (grows : compareValues reader mode (some larger) value = .ok 1)
    (below : compareValues reader mode (some item) value ≠ .ok 1)
    : compareValues reader mode (some item) (some larger) ≠ .ok 1 := by
  intro above
  obtain ⟨key, largerKey, isKey, isLarger, less⟩ := compareValues_eq_one.mp above
  obtain ⟨_, valueKey, isLarger', isValue, lessLarger⟩ := compareValues_eq_one.mp grows
  cases isLarger.symm.trans isLarger'
  exact below (compareValues_eq_one.mpr ⟨key, valueKey, isKey, isValue, lessLarger.trans less⟩)

/-- The items found new are above the stored value, and none of them is above the largest. -/
structure LatestSofar (reader : ItemReader Item Hash Key) (mode : DeduplicationMode)
    (stored : Option Item) (sofar : IDeduplicationOutput Item × Option Item) : Prop where
  above : ∀ item ∈ sofar.1.new, compareValues reader mode (some item) stored = .ok 1
  largest : ∀ item ∈ sofar.1.new, compareValues reader mode (some item) sofar.2 ≠ .ok 1
  keeps : ∀ item, compareValues reader mode (some item) stored ≠ .ok 1
    → compareValues reader mode (some item) sofar.2 ≠ .ok 1

theorem compareValues_self (mode : DeduplicationMode) (value : Option Item)
    : compareValues reader mode value value ≠ .ok 1 := by
  rw [Ne, compareValues_eq_one]
  rintro ⟨key1, key2, first, second, less⟩
  rw [Option.some.inj (first.symm.trans second)] at less
  exact lt_irrefl _ less

theorem LatestSofar.step {mode : DeduplicationMode} {stored : Option Item}
    {sofar next : IDeduplicationOutput Item × Option Item}
    (holds : LatestSofar reader mode stored sofar)
    (checked : checkLatest reader mode stored sofar item = .ok next)
    : LatestSofar reader mode stored next := by
  obtain ⟨returnData, largestValue⟩ := sofar
  simp only [checkLatest, bind, Except.bind] at checked
  split at checked
  · contradiction
  next order compared =>
  split at checked
  · next isOne =>
      subst isOne
      split at checked
      · contradiction
      next largestOrder comparedLargest =>
      split at checked
      · next grows =>
          subst grows
          cases checked
          refine ⟨?_, ?_, fun other below => not_above_of_above comparedLargest
              (holds.keeps other below)⟩
          · intro other member
            rcases List.mem_append.mp member with old | new
            · exact holds.above other old
            · exact List.mem_singleton.mp new ▸ compared
          · intro other member
            rcases List.mem_append.mp member with old | new
            · exact not_above_of_above comparedLargest (holds.largest other old)
            · rw [List.mem_singleton.mp new]
              exact compareValues_self mode _
      · next notAbove =>
          cases checked
          refine ⟨?_, ?_, holds.keeps⟩
          · intro other member
            rcases List.mem_append.mp member with old | new
            · exact holds.above other old
            · exact List.mem_singleton.mp new ▸ compared
          · intro other member
            rcases List.mem_append.mp member with old | new
            · exact holds.largest other old
            · rw [List.mem_singleton.mp new]
              intro isAbove
              exact notAbove (Except.ok.inj (comparedLargest.symm.trans isAbove))
  · cases checked
    exact ⟨holds.above, holds.largest, holds.keeps⟩

omit [LinearOrder Key] in
/-- Pairing the items with their keys gives up where an item has none. -/
theorem keyed_of_mapM {keyed : List (Item × Key)}
    (keying : items.mapM (fun item => (keyOf reader mode item).map (fun key => (item, key)))
      = some keyed)
    : keyed.map Prod.fst = items
      ∧ ∀ pair ∈ keyed, keyOf reader mode pair.1 = some pair.2 := by
  induction items generalizing keyed with
  | nil =>
      obtain rfl : [] = keyed := by simpa using keying
      simp
  | cons first rest ih =>
      simp only [List.mapM_cons, Option.pure_def, Option.bind_eq_bind, Option.bind_eq_some_iff,
        Option.map_eq_some_iff] at keying
      obtain ⟨_, ⟨key, isKey, rfl⟩, others, later, same⟩ := keying
      cases same
      obtain ⟨sameItems, sameKeys⟩ := ih later
      refine ⟨by simp [sameItems], ?_⟩
      intro pair member
      rcases List.mem_cons.mp member with rfl | inRest
      · exact isKey
      · exact sameKeys pair inRest

theorem exists_largest {keyed : List (Item × Key)} (filled : keyed ≠ [])
    : ∃ last, (keyed.mergeSort (fun a b => a.2 ≤ b.2)).getLast? = some last
        ∧ last ∈ keyed ∧ ∀ pair ∈ keyed, pair.2 ≤ last.2 := by
  have sorted
      : (keyed.mergeSort (fun a b => decide (a.2 ≤ b.2))).Pairwise
          (fun a b => decide (a.2 ≤ b.2)) :=
    List.pairwise_mergeSort
      (fun a b c => by simpa using fun first second => le_trans first second)
      (fun a b => by simpa using le_total a.2 b.2) keyed
  have same (pair : Item × Key)
      : pair ∈ keyed.mergeSort (fun a b => a.2 ≤ b.2) ↔ pair ∈ keyed := List.mem_mergeSort
  rcases List.eq_nil_or_concat (keyed.mergeSort (fun a b => a.2 ≤ b.2))
    with empty | ⟨front, last, whole⟩
  · obtain ⟨pair, member⟩ := List.exists_mem_of_ne_nil keyed filled
    simp [empty] at same
    exact absurd member (same _ _)
  · rw [List.concat_eq_append] at whole
    rw [whole] at sorted same ⊢
    refine ⟨last, by simp, (same last).mp (by simp), fun pair member => ?_⟩
    rcases List.mem_append.mp ((same pair).mpr member) with inFront | isLast
    · simpa using (List.pairwise_append.mp sorted).2.2 pair inFront last (by simp)
    · rw [List.mem_singleton.mp isLast]

end

/-! ### Runs -/

/-- A call at one of its waits for the database, with what it has read and will write. -/
inductive Task (Item Hash : Type) where
  | checks (items : List Item) (options : ICheckProcessedOptions)
  | records (found : Option (ProcessedData Item Hash)) (outcome : Outcome Item Hash)
  | removes (items : List Item) (options : ICheckProcessedOptions)
  | updates (items : List Item) (found : Option (ProcessedData Item Hash))
    (stored : ProcessedData Item Hash)
  | clears
  deriving DecidableEq

/-- A check that ended with the data then stored, a removal, or a deletion of all data. -/
inductive Event (Item Hash : Type) where
  | checked (output : IDeduplicationOutput Item) (stored : Option (ProcessedData Item Hash))
    (pushedOut : List Hash)
  | removed (items : List Item)
  | cleared
  deriving DecidableEq

inductive Action (Item : Type) where
  | checkProcessedAndRecord (items : List Item) (options : ICheckProcessedOptions)
  | removeProcessed (items : List Item) (options : ICheckProcessedOptions)
  | clearAllProcessedItems
  | resume (place : Nat)
  deriving DecidableEq

/-- The row of the context, the calls that have not ended, and all that happened. -/
structure System (Item Hash : Type) where
  row : Option (ProcessedData Item Hash)
  tasks : List (Task Item Hash)
  events : List (Event Item Hash)
  deriving DecidableEq

section

variable {Item Hash Key : Type} [LinearOrder Key] [DecidableEq Hash]
variable (reader : ItemReader Item Hash Key)

/-- One access to the database and the code up to the next one. An insertion fails when the row
exists, an update changes no row when there is none.
-/
def Task.resume (row : Option (ProcessedData Item Hash))
    : Task Item Hash
      → Option (ProcessedData Item Hash) × Option (Task Item Hash) × List (Event Item Hash)
  | .checks items options =>
      match checkProcessed reader items options row with
      | .error _ => (row, none, [])
      | .ok none => (row, none, [])
      | .ok (some outcome) => (row, some (.records row outcome), [])
  | .records found outcome =>
      match found, row with
      | none, some _ => (row, none, [])
      | some _, none => (none, none, [.checked outcome.output none outcome.pushedOut])
      | _, _ =>
          (some outcome.stored, none,
            [.checked outcome.output (some outcome.stored) outcome.pushedOut])
  | .removes items options =>
      match removeItems reader items options row with
      | none => (row, none, [])
      | some stored => (row, some (.updates items row stored), [])
  | .updates items _ stored => (row.map (fun _ => stored), none, [.removed items])
  | .clears => (none, none, [.cleared])

def System.start : System Item Hash := ⟨none, [], []⟩

def System.step (self : System Item Hash) : Action Item → Option (System Item Hash)
  | .checkProcessedAndRecord items options =>
      some { self with tasks := self.tasks ++ [.checks items options] }
  | .removeProcessed items options =>
      some { self with tasks := self.tasks ++ [.removes items options] }
  | .clearAllProcessedItems => some { self with tasks := self.tasks ++ [.clears] }
  | .resume place =>
      self.tasks[place]?.map (fun task =>
        let (row, next, events) := task.resume reader self.row
        ⟨row, self.tasks.eraseIdx place ++ next.toList, self.events ++ events⟩)

/-! ### What is recorded and forgotten -/

/-- The stored data makes a check report the item as processed. -/
def Records (stored : Option (ProcessedData Item Hash)) (item : Item) : Prop :=
  match stored with
  | none => False
  | some ⟨_, .entries data⟩ => reader.createValueHash item ∈ data
  | some ⟨mode, .latest latest⟩ => compareValues reader mode (some item) latest ≠ .ok 1

/-- The item was cleared, or pushed out by the maximum. -/
def Forgotten (events : List (Event Item Hash)) (item : Item) : Prop :=
  ∃ event ∈ events,
    match event with
    | .checked _ _ pushedOut => reader.createValueHash item ∈ pushedOut
    | .removed items =>
        ∃ other ∈ items, reader.createValueHash other = reader.createValueHash item
    | .cleared => True

/-- An item that one check reports as new and records is forgotten before another check
reports it as new.
-/
def NewOnce (events : List (Event Item Hash)) : Prop :=
  ∀ before output stored pushedOut middle outputNext storedNext pushedOutNext after item,
    events = before ++ .checked output stored pushedOut
      :: (middle ++ .checked outputNext storedNext pushedOutNext :: after)
    → item ∈ output.new → Records reader stored item → item ∈ outputNext.new
    → Forgotten reader middle item

/-- A call writes over the data that it has read. -/
def Undisturbed (self : System Item Hash) : Action Item → Prop
  | .resume place =>
      match self.tasks[place]? with
      | some (.records found _) => self.row = found
      | some (.updates _ found _) => self.row = found
      | _ => True
  | _ => True

instance [DecidableEq Item] (self : System Item Hash) (action : Action Item)
    : Decidable (Undisturbed self action) := by
  unfold Undisturbed
  repeat' split
  all_goals infer_instance

variable {reader} {items : List Item} {options : ICheckProcessedOptions}
variable {found : ProcessedData Item Hash} {outcome : Outcome Item Hash} {item : Item}

/-! ### One check and one removal -/

section

variable (checked : checkProcessed reader items options (some found) = .ok (some outcome))

include checked

/-- A check of stored data is one of the two kinds. -/
theorem checkProcessed_cases
    : (∃ data, found.items = .entries data
        ∧ handleHashedItems reader items options (some found) = some outcome)
      ∨ ∃ stored sofar, found.items = .latest stored
        ∧ LatestSofar reader found.mode stored sofar
        ∧ outcome = ⟨⟨found.mode, .latest sofar.2⟩, sofar.1, []⟩ := by
  obtain ⟨mode, content⟩ := found
  simp only [checkProcessed, Option.any_some] at checked
  split at checked
  · contradiction
  next sameMode =>
  obtain rfl : mode = options.mode := by simpa using sameMode
  have latest (handled : handleLatestModes reader items options (some ⟨options.mode, content⟩)
        = .ok (some outcome))
      : ∃ stored sofar, content = .latest stored
          ∧ LatestSofar reader options.mode stored sofar
          ∧ outcome = ⟨⟨options.mode, .latest sofar.2⟩, sofar.1, []⟩ := by
    obtain ⟨incomingItems, -, handled⟩ := ok_of_bind handled
    cases content with
    | entries data => simp [pure, Except.pure] at handled
    | latest stored =>
        obtain ⟨sofar, looped, handled⟩ := ok_of_bind handled
        refine ⟨stored, sofar, rfl, foldlM_preserves ?_ ⟨by simp, by simp, fun _ => id⟩ looped, ?_⟩
        · exact fun before item after holds checked => holds.step checked
        · exact (Option.some.inj (Except.ok.inj handled)).symm
  split at checked
  · exact .inr (latest checked)
  · exact .inr (latest checked)
  · have handled := Except.ok.inj checked
    cases content with
    | entries data => exact .inl ⟨data, rfl, handled⟩
    | latest stored => simp [handleHashedItems] at handled

/-- An item that the stored data records is not reported as new. -/
theorem not_new_of_records (records : Records reader (some found) item)
    : item ∉ outcome.output.new := by
  obtain ⟨mode, content⟩ := found
  rcases checkProcessed_cases checked with ⟨data, rfl, handled⟩ | ⟨stored, sofar, rfl, holds, rfl⟩
  · cases handled
    intro isNew
    have unknown := (List.mem_filter.mp isNew).2
    simp [show reader.createValueHash item ∈ data from records] at unknown
  · exact fun isNew => records (holds.above item isNew)

/-- What the stored data records stays recorded unless the maximum pushes it out. -/
theorem records_or_pushedOut (records : Records reader (some found) item)
    : Records reader (some outcome.stored) item
      ∨ reader.createValueHash item ∈ outcome.pushedOut := by
  obtain ⟨mode, content⟩ := found
  rcases checkProcessed_cases checked with ⟨data, rfl, handled⟩ | ⟨stored, sofar, rfl, holds, rfl⟩
  · cases handled
    have member : reader.createValueHash item ∈ data := records
    have inData := List.mem_append_left
      ((items.filter (fun other => !data.contains (reader.createValueHash other))).map
        reader.createValueHash) member
    rw [← List.take_append_drop (overflow options.maxEntries _) (data ++ _)] at inData
    exact (List.mem_append.mp inData).symm
  · exact .inl (holds.keeps item records)

end

omit [LinearOrder Key] in
theorem mem_erased {hash : Hash} {data : List Hash} (member : hash ∈ data)
    (kept : ∀ other ∈ items, reader.createValueHash other ≠ hash)
    : hash ∈ items.foldl (fun data item => data.erase (reader.createValueHash item)) data := by
  induction items generalizing data with
  | nil => exact member
  | cons first rest ih =>
      refine ih ((List.mem_erase_of_ne (Ne.symm (kept first (by simp)))).mpr member) ?_
      exact fun other inRest => kept other (.tail _ inRest)

/-- What the stored data records stays recorded unless it is removed. -/
theorem records_or_removed {stored : ProcessedData Item Hash}
    (removed : removeItems reader items options (some found) = some stored)
    (records : Records reader (some found) item)
    : Records reader (some stored) item
      ∨ ∃ other ∈ items, reader.createValueHash other = reader.createValueHash item := by
  obtain ⟨mode, content⟩ := found
  unfold removeItems at removed
  split at removed
  · contradiction
  cases content with
  | latest latest => contradiction
  | entries data =>
      cases removed
      by_cases named
          : ∃ other ∈ items, reader.createValueHash other = reader.createValueHash item
      · exact .inr named
      · have member : reader.createValueHash item ∈ data := records
        exact .inl (mem_erased member (by simpa using named))

/-! ### Whole runs -/

/-- What a call will write comes from what it has read. -/
def FromFound (reader : ItemReader Item Hash Key) : Task Item Hash → Prop
  | .records found outcome =>
      ∃ items options, checkProcessed reader items options found = .ok (some outcome)
  | .updates items found stored =>
      ∃ options, removeItems reader items options found = some stored
  | _ => True

structure Sound (reader : ItemReader Item Hash Key) (system : System Item Hash) : Prop where
  fromFound : ∀ task ∈ system.tasks, FromFound reader task
  remembered : ∀ before output stored pushedOut after item,
    system.events = before ++ .checked output stored pushedOut :: after
    → item ∈ output.new → Records reader stored item
    → Forgotten reader after item ∨ Records reader system.row item
  newOnce : NewOnce reader system.events

theorem start_sound : Sound reader (System.start : System Item Hash) where
  fromFound := by simp [System.start]
  remembered := by simp [System.start]
  newOnce := by simp [System.start, NewOnce]

omit [LinearOrder Key] [DecidableEq Hash] in
theorem Forgotten.append {events : List (Event Item Hash)}
    (forgotten : Forgotten reader events item)
    (more : List (Event Item Hash))
    : Forgotten reader (events ++ more) item := by
  obtain ⟨event, member, forgets⟩ := forgotten
  exact ⟨event, List.mem_append_left _ member, forgets⟩

variable {self : System Item Hash}

section

variable (sound : Sound reader self)

include sound

/-- Items that were remembered stay so when the new event forgets those that the row does not
keep.
-/
theorem Sound.append (row : Option (ProcessedData Item Hash)) {tasks : List (Task Item Hash)}
    (event : Event Item Hash) (fromFound : ∀ task ∈ tasks, FromFound reader task)
    (keeps : ∀ item, Records reader self.row item
      → Forgotten reader [event] item ∨ Records reader row item)
    (stores : ∀ output stored pushedOut, event = .checked output stored pushedOut
      → row = stored ∧ ∀ item ∈ output.new, ¬Records reader self.row item)
    : Sound reader ⟨row, tasks, self.events ++ [event]⟩ where
  fromFound := fromFound
  remembered := by
    intro before output stored pushedOut after item split isNew records
    rcases split_snoc split with ⟨-, -, same⟩ | ⟨shorter, rfl, earlier⟩
    · rw [(stores output stored pushedOut same.symm).1]
      exact .inr records
    · rcases sound.remembered before output stored pushedOut shorter item earlier isNew records
        with forgotten | kept
      · exact .inl (forgotten.append _)
      · rcases keeps item kept with ⟨here, member, forgets⟩ | inRow
        · exact .inl ⟨here, List.mem_append_right _ member, forgets⟩
        · exact .inr inRow
  newOnce := by
    intro before output stored pushedOut middle outputNext storedNext pushedOutNext after item
      split isNew records again
    rw [← List.cons_append, ← List.append_assoc] at split
    rcases split_snoc split with ⟨-, whole, same⟩ | ⟨shorter, -, earlier⟩
    · rcases sound.remembered before output stored pushedOut middle item whole.symm isNew records
        with forgotten | kept
      · exact forgotten
      · exact absurd kept ((stores outputNext storedNext pushedOutNext same.symm).2 item again)
    · exact sound.newOnce before output stored pushedOut middle outputNext storedNext
        pushedOutNext shorter item (by simpa using earlier) isNew records again

theorem Sound.withTasks {tasks : List (Task Item Hash)}
    (fromFound : ∀ task ∈ tasks, FromFound reader task)
    : Sound reader { self with tasks } :=
  ⟨fromFound, sound.remembered, sound.newOnce⟩

/-- An undisturbed call goes on: it only reads, or it writes over what it has read. -/
theorem Sound.resume {next : System Item Hash} {place : Nat}
    (undisturbed : Undisturbed self (.resume place))
    (taken : self.step reader (.resume place) = some next)
    : Sound reader next := by
  simp only [System.step, Option.map_eq_some_iff] at taken
  obtain ⟨task, here, rfl⟩ := taken
  have known := sound.fromFound task (List.mem_of_getElem? here)
  have others : ∀ other ∈ self.tasks.eraseIdx place, FromFound reader other :=
    fun other member => sound.fromFound other (List.mem_of_mem_eraseIdx member)
  have withNext (following : Task Item Hash) (fits : FromFound reader following)
      : ∀ other ∈ self.tasks.eraseIdx place ++ [following], FromFound reader other := by
    intro other member
    rcases List.mem_append.mp member with old | new
    · exact others other old
    · exact List.mem_singleton.mp new ▸ fits
  simp only [Undisturbed, here] at undisturbed
  cases task with
  | checks items options =>
      simp only [Task.resume]
      split
      · simpa using sound.withTasks others
      · simpa using sound.withTasks others
      · next outcome checked =>
          simpa using sound.withTasks
            (withNext (.records self.row outcome) ⟨items, options, checked⟩)
  | records found outcome =>
      subst undisturbed
      obtain ⟨items, options, checked⟩ := known
      have stored := sound.append (some outcome.stored)
        (.checked outcome.output (some outcome.stored) outcome.pushedOut) others
        (by
          intro item records
          cases row : self.row with
          | none => simp [row, Records] at records
          | some data =>
              rw [row] at checked records
              rcases records_or_pushedOut checked records with kept | pushed
              · exact .inr kept
              · exact .inl ⟨_, List.mem_singleton_self _, pushed⟩)
        (by
          intro output stored pushedOut same
          obtain ⟨rfl, rfl, rfl⟩ := Event.checked.inj same
          refine ⟨rfl, fun item isNew records => ?_⟩
          cases row : self.row with
          | none => simp [row, Records] at records
          | some data =>
              rw [row] at checked records
              exact not_new_of_records checked records isNew)
      cases row : self.row <;> simpa [Task.resume, row] using stored
  | removes items options =>
      simp only [Task.resume]
      split
      · simpa using sound.withTasks others
      · next stored removed =>
          simpa using sound.withTasks
            (withNext (.updates items self.row stored) ⟨options, removed⟩)
  | updates items found stored =>
      subst undisturbed
      obtain ⟨options, removed⟩ := known
      have updated := sound.append (self.row.map (fun _ => stored)) (.removed items) others
        (by
          intro item records
          cases row : self.row with
          | none => simp [row, Records] at records
          | some data =>
              rw [row] at removed records
              rcases records_or_removed removed records with kept | named
              · exact .inr kept
              · exact .inl ⟨_, List.mem_singleton_self _, named⟩)
        (by simp)
      simpa [Task.resume] using updated
  | clears =>
      have cleared := sound.append none .cleared others
        (fun item records => .inl ⟨_, List.mem_singleton_self _, trivial⟩) (by simp)
      simpa [Task.resume] using cleared

end

/-- When every call writes over what it has read, no item is new twice. -/
theorem newOnce_of_undisturbed (reader : ItemReader Item Hash Key) (actions : List (Action Item))
    (undisturbed : Along (System.step reader) Undisturbed System.start actions)
    : ∀ taken, taken <+: actions → ∀ reached,
        run (System.step reader) System.start taken = some reached
        → NewOnce reader reached.events := by
  have sound : Throughout (System.step reader) (Sound reader) System.start actions := by
    refine throughout_of_preserved ?_ start_sound undisturbed
    intro self action next sound undisturbed taken
    have started (task : Task Item Hash) (fits : FromFound reader task)
        : Sound reader { self with tasks := self.tasks ++ [task] } := by
      refine sound.withTasks ?_
      intro other member
      rcases List.mem_append.mp member with old | new
      · exact sound.fromFound other old
      · exact List.mem_singleton.mp new ▸ fits
    cases action with
    | checkProcessedAndRecord items options =>
        cases taken
        exact started (.checks items options) trivial
    | removeProcessed items options =>
        cases taken
        exact started (.removes items options) trivial
    | clearAllProcessedItems =>
        cases taken
        exact started .clears trivial
    | resume place => exact sound.resume undisturbed taken
  intro taken isPrefix reached ran
  have reachedSound := throughout_iff_prefix.mp sound taken isPrefix reached ran
  exact reachedSound.newOnce

end

/-- Texts that are their own hashes, and that are neither numbers nor dates. -/
def texts : ItemReader String String Nat := ⟨id, fun _ => none, fun _ => none⟩

def allEntries : ICheckProcessedOptions := ⟨.entries, none⟩

/-- A second check finds one of its two items processed. -/
theorem newOnce_of_undisturbed_twoChecks
    : let actions : List (Action String) :=
        [.checkProcessedAndRecord ["a"] allEntries, .resume 0, .resume 0,
          .checkProcessedAndRecord ["a", "b"] allEntries, .resume 0, .resume 0]
      (run (System.step texts) System.start actions).map (fun system => system.events)
          = some [.checked ⟨["a"], []⟩ (some ⟨.entries, .entries ["a"]⟩) [],
              .checked ⟨["b"], ["a"]⟩ (some ⟨.entries, .entries ["a", "b"]⟩) []]
      ∧ ∀ taken, taken <+: actions → ∀ reached,
          run (System.step texts) System.start taken = some reached
          → NewOnce texts reached.events :=
  ⟨by decide, newOnce_of_undisturbed texts _ (by decide)⟩

/-- Two checks of one item both read the stored data before either writes it back, so both
report the item as new.
-/
theorem overlappingChecks_newTwice
    : ∃ reached,
        run (System.step texts) System.start
            [.checkProcessedAndRecord ["a"] allEntries, .resume 0, .resume 0,
              .checkProcessedAndRecord ["b"] allEntries, .checkProcessedAndRecord ["b"] allEntries,
              .resume 0, .resume 0, .resume 0, .resume 0]
          = some reached
        ∧ ¬NewOnce texts reached.events := by
  refine ⟨⟨some ⟨.entries, .entries ["a", "b"]⟩, [],
      [.checked ⟨["a"], []⟩ (some ⟨.entries, .entries ["a"]⟩) [],
        .checked ⟨["b"], []⟩ (some ⟨.entries, .entries ["a", "b"]⟩) [],
        .checked ⟨["b"], []⟩ (some ⟨.entries, .entries ["a", "b"]⟩) []]⟩, by decide, fun newOnce => ?_⟩
  obtain ⟨event, member, -⟩ := newOnce
    [.checked ⟨["a"], []⟩ (some ⟨.entries, .entries ["a"]⟩) []] ⟨["b"], []⟩
    (some ⟨.entries, .entries ["a", "b"]⟩) [] [] ⟨["b"], []⟩
    (some ⟨.entries, .entries ["a", "b"]⟩) [] [] "b" rfl (by simp) (by simp [Records, texts])
    (by simp)
  simp at member

end N8n.Deduplication
