import Mathlib.Data.List.Count
import Mathlib.Data.List.Induction
import N8n.Deduplication.NewOnce

/-! What the entries of one context remember over calls that follow one another, each after
the one before has ended.
-/

namespace N8n.Deduplication

open N8n.Histories

/-- A call in the mode of entries without a maximum. -/
inductive Call (Item : Type) where
  | checkProcessedAndRecord (items : List Item)
  | removeProcessed (items : List Item)
  | clearAllProcessedItems
  deriving DecidableEq

def entriesOptions : ICheckProcessedOptions := ⟨.entries, none⟩

section

variable {Item Hash Key : Type} [LinearOrder Key] [DecidableEq Hash]
variable (reader : ItemReader Item Hash Key)

/-- The row of the context after the call. -/
def Call.apply (row : Option (ProcessedData Item Hash))
    : Call Item → Option (ProcessedData Item Hash)
  | .checkProcessedAndRecord items =>
      match checkProcessed reader items entriesOptions row with
      | .ok (some outcome) => some outcome.stored
      | _ => row
  | .removeProcessed items => (removeItems reader items entriesOptions row).or row
  | .clearAllProcessedItems => none

def rowAfter (history : List (Call Item)) : Option (ProcessedData Item Hash) :=
  history.foldl (Call.apply reader) none

/-- The answer of a check; none where it throws. -/
def classification (row : Option (ProcessedData Item Hash)) (items : List Item)
    : Option (IDeduplicationOutput Item) :=
  match checkProcessed reader items entriesOptions row with
  | .ok (some outcome) => some outcome.output
  | .ok none => some ⟨[], []⟩
  | .error _ => none

def Call.Tells (stringForm : Item → String) (item : Item) : Call Item → Prop
  | .checkProcessedAndRecord items => ∃ other ∈ items, stringForm other = stringForm item
  | _ => False

def Call.Forgets (stringForm : Item → String) (item : Item) : Call Item → Prop
  | .checkProcessedAndRecord _ => False
  | .removeProcessed items => ∃ other ∈ items, stringForm other = stringForm item
  | .clearAllProcessedItems => True

/-- An equal item was checked, and has not been removed or cleared since. Items are equal when
their string forms are.
-/
def Remembered (stringForm : Item → String) (history : List (Call Item)) (item : Item)
    : Prop :=
  Since (Call.Tells stringForm item) (Call.Forgets stringForm item) history

/-- The answer has each item on the side that `isProcessed` tells. -/
def IDeduplicationOutput.SplitBy (output : IDeduplicationOutput Item) (items : List Item)
    (isProcessed : Item → Prop)
    : Prop :=
  ∃ processed : Item → Bool,
    (∀ item ∈ items, processed item = true ↔ isProcessed item)
      ∧ output.new = items.filter (fun item => !processed item)
      ∧ output.processed = items.filter processed

/-- After any of the calls, a check finds just the remembered items processed. -/
def RemembersEntries (stringForm : Item → String) (history : List (Call Item)) : Prop :=
  ∀ before after, history = before ++ after
    → ∀ items, ∃ output, classification reader (rowAfter reader before) items = some output
        ∧ output.SplitBy items (Remembered stringForm before)

/-- A removal lists each of its items as often as it is stored. -/
def RemovesAll (row : Option (ProcessedData Item Hash)) (items : List Item) : Prop :=
  match row with
  | some ⟨_, .entries data⟩ =>
      ∀ item ∈ items, data.count (reader.createValueHash item)
        ≤ (items.map reader.createValueHash).count (reader.createValueHash item)
  | _ => True

variable {reader}

/-- Nothing is stored, or entries are. -/
def EntriesRow (row : Option (ProcessedData Item Hash)) : Prop :=
  row = none ∨ ∃ data, row = some ⟨.entries, .entries data⟩

variable {row : Option (ProcessedData Item Hash)}

theorem EntriesRow.apply (valid : EntriesRow row) (call : Call Item)
    : EntriesRow (call.apply reader row) := by
  cases call with
  | clearAllProcessedItems => exact .inl rfl
  | checkProcessedAndRecord items =>
      rcases valid with rfl | ⟨data, rfl⟩
      · exact .inr ⟨_, rfl⟩
      · exact .inr ⟨_, rfl⟩
  | removeProcessed items =>
      rcases valid with rfl | ⟨data, rfl⟩
      · exact .inl rfl
      · exact .inr ⟨_, rfl⟩

theorem entriesRow_after (reader : ItemReader Item Hash Key) (history : List (Call Item))
    : EntriesRow (rowAfter reader history) := by
  induction history using List.reverseRecOn with
  | nil => exact .inl rfl
  | append_singleton history call ih =>
      rw [rowAfter, List.foldl_concat]
      exact ih.apply call

/-- A check records the items that it is given, and forgets none. -/
theorem records_check (valid : EntriesRow row) (items : List Item) (item : Item)
    : Records reader ((Call.checkProcessedAndRecord items).apply reader row) item
      ↔ (∃ other ∈ items, reader.createValueHash other = reader.createValueHash item)
        ∨ Records reader row item := by
  rcases valid with rfl | ⟨data, rfl⟩
  · change reader.createValueHash item ∈ items.map reader.createValueHash ↔ _
    simp [Records]
  · change reader.createValueHash item
        ∈ data ++ (items.filter (fun other =>
          !data.contains (reader.createValueHash other))).map reader.createValueHash ↔ _
    simp only [List.mem_append, List.mem_map, List.mem_filter, Records]
    constructor
    · rintro (old | ⟨other, ⟨member, -⟩, same⟩)
      · exact .inr old
      · exact .inl ⟨other, member, same⟩
    · rintro (⟨other, member, same⟩ | old)
      · by_cases known : reader.createValueHash item ∈ data
        · exact .inl known
        · exact .inr ⟨other, ⟨member, by simpa [same] using known⟩, same⟩
      · exact .inl old

/-- A removal takes each item away as often as it lists it. -/
theorem records_remove (data : List Hash) (items : List Item) (item : Item)
    : Records reader ((Call.removeProcessed items).apply reader
        (some ⟨.entries, .entries data⟩)) item
      ↔ (items.map reader.createValueHash).count (reader.createValueHash item)
        < data.count (reader.createValueHash item) := by
  change reader.createValueHash item
    ∈ items.foldl (fun data item => data.erase (reader.createValueHash item)) data ↔ _
  rw [← List.foldl_map (f := reader.createValueHash) (g := List.erase), ← List.diff_eq_foldl,
    ← List.count_pos_iff, List.count_diff]
  omega

/-- A removal forgets its items exactly if it lists each of them often enough. -/
theorem removesAll_iff (valid : EntriesRow row) (items : List Item)
    : RemovesAll reader row items
      ↔ ∀ item, Records reader ((Call.removeProcessed items).apply reader row) item
          ↔ Records reader row item
            ∧ ¬ ∃ other ∈ items, reader.createValueHash other = reader.createValueHash item := by
  rcases valid with rfl | ⟨data, rfl⟩
  · exact iff_of_true trivial (fun item => iff_of_false id (fun both => both.1))
  · simp only [records_remove]
    constructor
    · intro removes item
      by_cases listed : ∃ other ∈ items,
          reader.createValueHash other = reader.createValueHash item
      · refine iff_of_false ?_ (fun both => both.2 listed)
        obtain ⟨other, member, same⟩ := listed
        exact Nat.not_lt.mpr (same ▸ removes other member)
      · have none : (items.map reader.createValueHash).count (reader.createValueHash item)
            = 0 := by
          rw [List.count_eq_zero, List.mem_map]
          exact listed
        rw [none, List.count_pos_iff]
        exact (and_iff_left listed).symm
    · intro forgets item member
      refine Nat.not_lt.mp (fun more => ?_)
      exact ((forgets item).mp more).2 ⟨item, member, rfl⟩

theorem classification_splitBy (reader : ItemReader Item Hash Key) (valid : EntriesRow row)
    (items : List Item)
    : ∃ output, classification reader row items = some output
        ∧ output.SplitBy items (Records reader row) := by
  rcases valid with rfl | ⟨data, rfl⟩
  · exact ⟨_, rfl, fun _ => false, by simp [Records], by simp, by simp⟩
  · exact ⟨_, rfl, fun item => data.contains (reader.createValueHash item),
      by simp [Records], rfl, rfl⟩

omit [LinearOrder Key] in
theorem IDeduplicationOutput.SplitBy.mem_processed {output : IDeduplicationOutput Item}
    {items : List Item} {isProcessed : Item → Prop} (split : output.SplitBy items isProcessed)
    {item : Item} (member : item ∈ items)
    : item ∈ output.processed ↔ isProcessed item := by
  obtain ⟨processed, decides, -, isFiltered⟩ := split
  rw [isFiltered, List.mem_filter]
  exact (and_iff_right member).trans (decides item member)

omit [LinearOrder Key] in
theorem IDeduplicationOutput.SplitBy.congr {output : IDeduplicationOutput Item}
    {items : List Item} {isProcessed other : Item → Prop}
    (split : output.SplitBy items isProcessed)
    (same : ∀ item ∈ items, isProcessed item ↔ other item)
    : output.SplitBy items other := by
  obtain ⟨processed, decides, isNew, isFiltered⟩ := split
  refine ⟨processed, fun item member => ?_, isNew, isFiltered⟩
  exact (decides item member).trans (same item member)

variable {stringForm : Item → String}
  (hashes
    : ∀ item other, reader.createValueHash item = reader.createValueHash other
        ↔ stringForm item = stringForm other)

/-- What is stored is what is remembered. -/
def StoresRemembered (reader : ItemReader Item Hash Key) (stringForm : Item → String)
    (history : List (Call Item))
    : Prop :=
  ∀ item, Records reader (rowAfter reader history) item ↔ Remembered stringForm history item

theorem storesRemembered_nil : StoresRemembered reader stringForm [] :=
  fun _ => iff_of_false id not_since_nil

include hashes in
/-- Only a removal that lists an item too seldom sets apart what is stored. -/
theorem storesRemembered_snoc {history : List (Call Item)}
    (stores : StoresRemembered reader stringForm history) (call : Call Item)
    : StoresRemembered reader stringForm (history ++ [call])
      ↔ ∀ items, call = .removeProcessed items
          → RemovesAll reader (rowAfter reader history) items := by
  have valid : EntriesRow (rowAfter reader history) := entriesRow_after reader history
  have after : rowAfter reader (history ++ [call])
      = call.apply reader (rowAfter reader history) := List.foldl_concat ..
  unfold StoresRemembered Remembered
  simp only [since_snoc, after]
  change (∀ item, _ ↔ _ ∨ Remembered stringForm history item ∧ _) ↔ _
  cases call with
  | checkProcessedAndRecord items =>
      refine iff_of_true (fun item => ?_) (by simp)
      rw [records_check valid, stores item]
      simp [Call.Tells, Call.Forgets, hashes]
  | clearAllProcessedItems =>
      refine iff_of_true (fun item => ?_) (by simp)
      simp [Call.Tells, Call.Forgets, Call.apply, Records]
  | removeProcessed items =>
      simp only [Call.removeProcessed.injEq, forall_eq', Call.Tells, Call.Forgets, false_or]
      refine Iff.trans (forall_congr' fun item => ?_) (removesAll_iff valid items).symm
      rw [stores item]
      simp only [hashes]

include hashes in
theorem storesRemembered_of_removesAll {history : List (Call Item)}
    (removes
      : ∀ before items after, history = before ++ .removeProcessed items :: after
          → RemovesAll reader (rowAfter reader before) items)
    : StoresRemembered reader stringForm history := by
  induction history using List.reverseRecOn with
  | nil => exact storesRemembered_nil
  | append_singleton history call ih =>
      refine (storesRemembered_snoc hashes (ih ?_) call).mpr ?_
      · rintro before items after rfl
        exact removes before items (after ++ [call]) (by simp)
      · rintro items rfl
        exact removes history items [] rfl

include hashes in
/-- The entries remember what they were told exactly if each removal lists its items as often
as they are stored.
-/
theorem remembersEntries_iff (history : List (Call Item))
    : RemembersEntries reader stringForm history
      ↔ ∀ before items after, history = before ++ .removeProcessed items :: after
          → RemovesAll reader (rowAfter reader before) items := by
  constructor
  · intro remembers before items after whole
    have stores (front back : List (Call Item)) (split : history = front ++ back)
        : StoresRemembered reader stringForm front := by
      intro item
      obtain ⟨output, classified, split⟩ := remembers front back split [item]
      obtain ⟨_, same, recorded⟩ :=
        classification_splitBy reader (entriesRow_after reader front) [item]
      cases classified.symm.trans same
      have member : item ∈ [item] := List.mem_cons_self
      exact (recorded.mem_processed member).symm.trans (split.mem_processed member)
    have first := stores before (.removeProcessed items :: after) whole
    have second := stores (before ++ [.removeProcessed items]) after (by simp [whole])
    exact (storesRemembered_snoc hashes first _).mp second items rfl
  · rintro removes before after rfl items
    obtain ⟨output, classified, recorded⟩ :=
      classification_splitBy reader (entriesRow_after reader before) items
    refine ⟨output, classified, recorded.congr (fun item _ => ?_)⟩
    refine storesRemembered_of_removesAll hashes (fun front removed back split => ?_) item
    exact removes front removed (back ++ after) (by simp [split])

end

def textReader : ItemReader String String Nat := ⟨id, fun _ => none, fun _ => none⟩

/-- An item that is checked once and removed once is not remembered. -/
theorem remembersEntries_removedOnce
    : (∀ item other, textReader.createValueHash item = textReader.createValueHash other
          ↔ id item = id other)
        ∧ (RemembersEntries textReader id
              [.checkProcessedAndRecord ["a"], .removeProcessed ["a"]]
            ↔ ∀ before items after,
                [.checkProcessedAndRecord ["a"], .removeProcessed ["a"]]
                    = before ++ .removeProcessed items :: after
                  → RemovesAll textReader (rowAfter textReader before) items) :=
  ⟨fun _ _ => Iff.rfl, remembersEntries_iff (fun _ _ => Iff.rfl) _⟩

/-- An item that one check lists twice is stored twice; removed once, it still counts as
processed.
-/
theorem not_remembersEntries_checkedTwice
    : ¬ RemembersEntries textReader id
        [.checkProcessedAndRecord ["a", "a"], .removeProcessed ["a"]] := by
  intro remembers
  obtain ⟨output, classified, split⟩ := remembers _ [] (List.append_nil _).symm ["a"]
  have stored : some ⟨[], ["a"]⟩ = some output := classified
  cases stored
  have remembered := (split.mem_processed List.mem_cons_self).mp List.mem_cons_self
  rw [Remembered, ← List.singleton_append, since_snoc] at remembered
  simp [Call.Tells, Call.Forgets] at remembered

end N8n.Deduplication
