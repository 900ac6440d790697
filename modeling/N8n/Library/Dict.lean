import Mathlib.Data.List.Sort

/-! Dictionaries in insertion order, as objects and `Map` values of the source keep them:
assigning to a present key keeps its place, a new key goes to the end.
-/

namespace N8n

structure Dict (κ α : Type*) where
  entries : List (κ × α)
  nodup : (entries.map Prod.fst).Nodup

namespace Dict

variable {κ α β : Type*}

instance [DecidableEq κ] [DecidableEq α] : DecidableEq (Dict κ α) := fun left right =>
  decidable_of_iff (left.entries = right.entries)
    ⟨fun same => by cases left; cases right; cases same; rfl, fun same => same ▸ rfl⟩

def empty : Dict κ α := ⟨[], .nil⟩

instance : Inhabited (Dict κ α) := ⟨empty⟩

def keys (d : Dict κ α) : List κ := d.entries.map Prod.fst

def values (d : Dict κ α) : List α := d.entries.map Prod.snd

variable {d : Dict κ α}

theorem eq_empty_of_keys (none : d.keys = []) : d = empty := by
  obtain ⟨entries, distinct⟩ := d
  have absent : entries = [] := by simpa [keys] using none
  subst absent
  rfl

variable [DecidableEq κ]

def get? (d : Dict κ α) (key : κ) : Option α :=
  (d.entries.find? (fun entry => entry.1 = key)).map Prod.snd

/-- Replaces the value of `key` in a list of entries, or appends the entry. -/
def assign (key : κ) (value : α) : List (κ × α) → List (κ × α)
  | [] => [(key, value)]
  | entry :: rest =>
      if entry.1 = key then (key, value) :: rest else entry :: assign key value rest

variable {key : κ}

theorem assign_of_mem (value : α) {entries : List (κ × α)} (present : key ∈ entries.map Prod.fst)
    : (assign key value entries).map Prod.fst = entries.map Prod.fst := by
  induction entries with
  | nil => simp at present
  | cons entry rest ih =>
      by_cases same : entry.1 = key
      · simp [assign, same]
      · have later : key ∈ rest.map Prod.fst := by
          simpa [Ne.symm same] using present
        simp [assign, same, ih later]

theorem assign_of_not_mem {key : κ} (value : α) {entries : List (κ × α)}
    (absent : key ∉ entries.map Prod.fst)
    : assign key value entries = entries ++ [(key, value)] := by
  induction entries with
  | nil => rfl
  | cons entry rest ih =>
      simp only [List.map_cons, List.mem_cons, not_or] at absent
      simp [assign, Ne.symm absent.1, ih absent.2]

def set (d : Dict κ α) (key : κ) (value : α) : Dict κ α where
  entries := assign key value d.entries
  nodup := by
    by_cases present : key ∈ d.entries.map Prod.fst
    · rw [assign_of_mem value present]
      exact d.nodup
    · rw [assign_of_not_mem value present, List.map_append, List.map_singleton]
      refine List.nodup_append.mpr ⟨d.nodup, List.nodup_singleton key, ?_⟩
      rintro other member single here rfl
      have same : other = key := List.mem_singleton.mp here
      exact present (same ▸ member)

def delete (d : Dict κ α) (key : κ) : Dict κ α where
  entries := d.entries.filter (fun entry => entry.1 ≠ key)
  nodup := (List.filter_sublist.map Prod.fst).nodup d.nodup

def filter (d : Dict κ α) (keep : α → Bool) : Dict κ α where
  entries := d.entries.filter (fun entry => keep entry.2)
  nodup := (List.filter_sublist.map Prod.fst).nodup d.nodup

/-- The dictionary with each value changed. -/
def mapValues (d : Dict κ α) (change : α → β) : Dict κ β where
  entries := d.entries.map (fun entry => (entry.1, change entry.2))
  nodup := by
    rw [List.map_map]
    exact d.nodup

/-- Sets each item in turn, under the key computed from it. -/
def insertAll (key : α → κ) (d : Dict κ α) (items : List α) : Dict κ α :=
  items.foldl (fun entries item => entries.set (key item) item) d

/-- The keys of an object with integer keys, in the order of its enumeration. -/
def sortedKeys (d : Dict Nat α) : List Nat := d.keys.insertionSort (· ≤ ·)

theorem mem_sortedKeys {d : Dict Nat α} {key : Nat} : key ∈ d.sortedKeys ↔ key ∈ d.keys :=
  (List.perm_insertionSort _ d.keys).mem_iff

/-! ### Lookup -/

@[simp] theorem get?_empty (key : κ) : (empty : Dict κ α).get? key = none := rfl

theorem get?_eq_none_iff : d.get? key = none ↔ key ∉ d.keys := by
  simp only [get?, Option.map_eq_none_iff, List.find?_eq_none, decide_eq_true_eq, keys,
    List.mem_map, not_exists, not_and]

variable {value : α}

theorem mem_keys_of_get? (found : d.get? key = some value)
    : key ∈ d.keys := by
  by_contra absent
  simp [get?_eq_none_iff.mpr absent] at found

theorem exists_get?_of_mem_keys (present : key ∈ d.keys)
    : ∃ value, d.get? key = some value := by
  cases found : d.get? key with
  | none => exact absurd present (get?_eq_none_iff.mp found)
  | some value => exact ⟨value, rfl⟩

/-- A present key splits the entries at its place; `set` and `delete` work there alone. -/
theorem split_of_get? (found : d.get? key = some value)
    : ∃ before after,
        d.entries = before ++ (key, value) :: after
        ∧ (∀ next, (d.set key next).entries = before ++ (key, next) :: after)
        ∧ (d.delete key).entries = before ++ after := by
  obtain ⟨⟨entryKey, entryValue⟩, selected, rfl⟩ := Option.map_eq_some_iff.mp found
  obtain ⟨same, before, after, split, earlier⟩ := List.find?_eq_some_iff_append.mp selected
  simp only [decide_eq_true_eq] at same
  subst same
  have different : ∀ entry ∈ before, entry.1 ≠ entryKey := by
    intro entry member
    simpa using earlier entry member
  have later : ∀ entry ∈ after, entry.1 ≠ entryKey := by
    intro entry member equal
    have distinct := d.nodup
    rw [split, List.map_append, List.map_cons, List.nodup_append] at distinct
    exact (List.nodup_cons.mp distinct.2.1).1 (List.mem_map.mpr ⟨entry, member, equal⟩)
  refine ⟨before, after, split, ?_, ?_⟩
  · intro next
    simp only [set, split]
    clear split earlier selected found
    induction before with
    | nil => simp [assign]
    | cons entry rest ih =>
        simp only [List.mem_cons, forall_eq_or_imp] at different
        simp [assign, different.1, ih different.2]
  · simp only [delete, split, List.filter_append, ne_eq, decide_not, List.filter_cons,
      decide_true, Bool.not_true, Bool.false_eq_true, if_false]
    rw [List.filter_eq_self.mpr (by simpa using different),
      List.filter_eq_self.mpr (by simpa using later)]

theorem mem_entries_iff
    : (key, value) ∈ d.entries ↔ d.get? key = some value := by
  constructor
  · intro member
    obtain ⟨found, selected⟩ := exists_get?_of_mem_keys
      (List.mem_map_of_mem (f := Prod.fst) member : key ∈ d.keys)
    obtain ⟨before, after, split, _, _⟩ := split_of_get? selected
    have distinct := d.nodup
    rw [split, List.map_append, List.map_cons, List.nodup_append] at distinct
    rw [split] at member
    rcases List.mem_append.mp member with earlier | here
    · exact absurd rfl (distinct.2.2 key (List.mem_map_of_mem (f := Prod.fst) earlier) key
        (by simp))
    · rcases List.mem_cons.mp here with same | later
      · cases same
        exact selected
      · exact absurd (List.mem_map_of_mem (f := Prod.fst) later)
          (List.nodup_cons.mp distinct.2.1).1
  · intro found
    obtain ⟨before, after, split, _, _⟩ := split_of_get? found
    simp [split]

/-! ### Assignment and deletion -/

theorem eq_of_mem_entries {first second : κ × α} (inFirst : first ∈ d.entries)
    (inSecond : second ∈ d.entries) (same : first.1 = second.1)
    : first = second := by
  have present : d.get? first.1 = some first.2 := mem_entries_iff.mp inFirst
  rw [same, mem_entries_iff.mp inSecond] at present
  exact Prod.ext same (Option.some.inj present).symm

theorem set_entries_of_not_mem (value : α) (absent : d.get? key = none)
    : (d.set key value).entries = d.entries ++ [(key, value)] :=
  assign_of_not_mem value (get?_eq_none_iff.mp absent)

variable {other : κ}

theorem mem_keys_set
    : other ∈ (d.set key value).keys ↔ other = key ∨ other ∈ d.keys := by
  by_cases present : key ∈ d.keys
  · have same : (d.set key value).keys = d.keys := assign_of_mem value present
    rw [same]
    exact ⟨Or.inr, fun either => either.elim (fun equal => equal ▸ present) id⟩
  · have grown : (d.set key value).keys = d.keys ++ [key] := by
      simp [keys, set, assign_of_not_mem value present]
    simp [grown, or_comm]

@[simp] theorem get?_set_self (d : Dict κ α) (key : κ) (value : α)
    : (d.set key value).get? key = some value := by
  cases found : d.get? key with
  | none =>
      rw [← mem_entries_iff, set_entries_of_not_mem value found]
      simp
  | some old =>
      obtain ⟨before, after, _, changed, _⟩ := split_of_get? found
      rw [← mem_entries_iff, changed value]
      simp

theorem get?_set_of_ne (d : Dict κ α) (value : α) (differ : other ≠ key)
    : (d.set key value).get? other = d.get? other := by
  apply Option.ext
  intro found
  simp only [← mem_entries_iff]
  cases present : d.get? key with
  | none => simp [set_entries_of_not_mem value present, differ]
  | some old =>
      obtain ⟨before, after, split, changed, _⟩ := split_of_get? present
      simp [split, changed value, differ]

theorem get?_set (d : Dict κ α) (key other : κ) (value : α)
    : (d.set key value).get? other = if other = key then some value else d.get? other := by
  by_cases same : other = key
  · simp [same]
  · simp [same, get?_set_of_ne d value same]

theorem get?_insertAll (key : α → κ) (d : Dict κ α) (items : List α) (searched : κ)
    : (d.insertAll key items).get? searched
      = (items.filter (fun item => key item = searched)).getLast?.or (d.get? searched) := by
  induction items generalizing d with
  | nil => rfl
  | cons item rest ih =>
      refine (ih (d.set (key item) item)).trans ?_
      rw [get?_set]
      by_cases same : key item = searched
      · rw [if_pos same.symm, List.filter_cons_of_pos (by simpa using same),
          List.getLast?_cons]
        cases (rest.filter (fun item => key item = searched)).getLast? <;> rfl
      · rw [if_neg (Ne.symm same), List.filter_cons_of_neg (by simpa using same)]

/-- A loop over the entries of a dictionary that sets what some of them give. -/
theorem get?_foldl_set {step : Dict κ β → κ × α → Dict κ β} (gives : κ → α → Option β)
    (each : ∀ d key value, step d (key, value) = ((gives key value).map (d.set key)).getD d)
    (source : Dict κ α) (d : Dict κ β) (searched : κ)
    : (source.entries.foldl step d).get? searched
      = ((source.get? searched).bind (gives searched)).or (d.get? searched) := by
  obtain ⟨entries, distinct⟩ := source
  unfold get?
  induction entries generalizing d with
  | nil => rfl
  | cons entry rest ih =>
      obtain ⟨key, value⟩ := entry
      obtain ⟨notLater, distinctRest⟩ := List.nodup_cons.mp distinct
      refine (ih (step d (key, value)) distinctRest).trans ?_
      have set_here := get?_set d key searched
      unfold get? at set_here
      by_cases same : key = searched
      · subst same
        have none : rest.find? (fun entry => entry.1 = key) = none := by
          refine List.find?_eq_none.mpr fun other member same => notLater ?_
          exact List.mem_map.mpr ⟨other, member, of_decide_eq_true same⟩
        rw [none, List.find?_cons_of_pos (by simp), each]
        cases given : gives key value <;> simp [set_here, given]
      · rw [List.find?_cons_of_neg (by simpa using same), each]
        cases gives key value <;> simp [set_here, Ne.symm same]

theorem get?_delete (d : Dict κ α) (key other : κ)
    : (d.delete key).get? other = if other = key then none else d.get? other := by
  apply Option.ext
  intro found
  by_cases same : other = key
  · simp only [same, if_true, reduceCtorEq, iff_false]
    rw [← mem_entries_iff]
    simp [delete]
  · simp only [same, if_false, ← mem_entries_iff]
    simp [delete, same]

theorem get?_of_delete (found : (d.delete key).get? other = some value)
    : d.get? other = some value := by
  rw [get?_delete] at found
  split at found
  · contradiction
  · exact found

theorem isSome_of_delete (present : ((d.delete key).get? other).isSome)
    : (d.get? other).isSome := by
  obtain ⟨value, found⟩ := Option.isSome_iff_exists.mp present
  exact Option.isSome_of_eq_some (get?_of_delete found)

theorem values_set_of_none (absent : d.get? key = none) (value : α)
    : (d.set key value).values = d.values ++ [value] := by
  simp [values, set_entries_of_not_mem value absent]

theorem values_perm_of_get? (found : d.get? key = some value)
    : d.values.Perm (value :: (d.delete key).values) := by
  obtain ⟨before, after, split, -, deleted⟩ := split_of_get? found
  unfold values
  rw [split, deleted, List.map_append, List.map_append, List.map_cons]
  exact List.perm_middle

theorem delete_set (d : Dict κ α) (key : κ) (value : α)
    : (d.set key value).delete key = d.delete key := by
  have same (entries : List (κ × α))
      : (assign key value entries).filter (fun entry => entry.1 ≠ key)
        = entries.filter (fun entry => entry.1 ≠ key) := by
    induction entries with
    | nil => simp [assign]
    | cons entry rest ih =>
        by_cases equal : entry.1 = key
        · simp [assign, equal]
        · simp only [assign, equal, if_false, List.filter_cons, ih]
  simp only [delete, set, same]

theorem get?_filter (d : Dict κ α) (keep : α → Bool) (key : κ)
    : (d.filter keep).get? key = (d.get? key).filter keep := by
  apply Option.ext
  intro found
  simp only [← mem_entries_iff, filter, List.mem_filter, Option.filter_eq_some_iff]

@[simp] theorem get?_mapValues (d : Dict κ α) (change : α → β) (key : κ)
    : (d.mapValues change).get? key = (d.get? key).map change := by
  simp only [get?, mapValues, List.find?_map, Option.map_map]
  rfl

theorem mapValues_set (d : Dict κ α) (change : α → β) (key : κ) (value : α)
    : (d.set key value).mapValues change = (d.mapValues change).set key (change value) := by
  have assigned (entries : List (κ × α))
      : (assign key value entries).map (fun entry => (entry.1, change entry.2))
        = assign key (change value) (entries.map (fun entry => (entry.1, change entry.2))) := by
    induction entries with
    | nil => rfl
    | cons entry rest ih =>
        by_cases same : entry.1 = key
        · simp [assign, same]
        · simp [assign, same, ih]
  unfold mapValues set
  simp only [Dict.mk.injEq]
  exact assigned d.entries

theorem mem_keys_delete
    : other ∈ (d.delete key).keys ↔ other ≠ key ∧ other ∈ d.keys := by
  rw [← not_iff_not, ← get?_eq_none_iff, get?_delete, not_and_or, ← get?_eq_none_iff]
  by_cases same : other = key <;> simp [same]

theorem length_keys_set_le (d : Dict κ α) (key : κ) (value : α)
    : (d.set key value).keys.length ≤ d.keys.length + 1 := by
  have bound (entries : List (κ × α))
      : (assign key value entries).length ≤ entries.length + 1 := by
    induction entries with
    | nil => simp [assign]
    | cons entry rest ih =>
        unfold assign
        split <;> simp [ih]
  simpa [keys, set] using bound d.entries

theorem length_keys_delete_le (d : Dict κ α) (key : κ)
    : (d.delete key).keys.length ≤ d.keys.length := by
  simpa [keys, delete] using List.length_filter_le _ d.entries

theorem length_keys_delete_of_get? (found : d.get? key = some value)
    : (d.delete key).keys.length + 1 ≤ d.keys.length := by
  have shorter : (d.delete key).entries.length < d.entries.length :=
    List.length_filter_lt_length_iff_exists.mpr
      ⟨(key, value), mem_entries_iff.mpr found, by simp⟩
  simpa [keys] using Nat.succ_le_of_lt shorter

omit [DecidableEq κ] in
theorem length_keys_filter_mono (d : Dict κ α) {keep more : α → Bool}
    (weaker : ∀ value, keep value = true → more value = true)
    : (d.filter keep).keys.length ≤ (d.filter more).keys.length := by
  have sublist : (d.filter keep).entries.Sublist (d.filter more).entries :=
    List.monotone_filter_right d.entries (fun entry => weaker entry.2)
  simpa [keys] using sublist.length_le

theorem length_keys_filter_set_le (d : Dict κ α) (keep : α → Bool) (key : κ) (value : α)
    : ((d.set key value).filter keep).keys.length ≤ (d.filter keep).keys.length + 1 := by
  have bound (entries : List (κ × α))
      : ((assign key value entries).filter (fun entry => keep entry.2)).length
        ≤ (entries.filter (fun entry => keep entry.2)).length + 1 := by
    induction entries with
    | nil => cases kept : keep value <;> simp [assign, kept]
    | cons entry rest ih =>
        unfold assign
        split
        · cases new : keep value <;> cases old : keep entry.2 <;> simp [new, old]
          omega
        · cases old : keep entry.2 <;> simp [old] <;> omega
  simpa [keys, set, filter] using bound d.entries

theorem filter_delete (d : Dict κ α) (keep : α → Bool) (key : κ)
    : (d.delete key).filter keep = (d.filter keep).delete key := by
  simp only [filter, delete, List.filter_filter, Bool.and_comm]

theorem length_keys_filter_delete_of_get? (keep : α → Bool)
    (found : d.get? key = some value) (kept : keep value = true)
    : ((d.delete key).filter keep).keys.length + 1 ≤ (d.filter keep).keys.length := by
  rw [filter_delete]
  have still : (d.filter keep).get? key = some value := by
    rw [get?_filter, found, Option.filter_some, if_pos kept]
  exact length_keys_delete_of_get? still

omit [DecidableEq κ] in
@[simp] theorem filter_filter_self (d : Dict κ α) (keep : α → Bool)
    : (d.filter keep).filter keep = d.filter keep := by
  simp [filter, List.filter_filter]

theorem assign_assign (key : κ) (first second : α) (entries : List (κ × α))
    : assign key second (assign key first entries) = assign key second entries := by
  induction entries with
  | nil => simp [assign]
  | cons entry rest ih =>
      by_cases same : entry.1 = key
      · simp [assign, same]
      · simp [assign, same, ih]

theorem set_set (d : Dict κ α) (key : κ) (first second : α)
    : (d.set key first).set key second = d.set key second := by
  simp only [set, assign_assign]

/-! ### Values kept under a key of their own -/

def KeyedBy (d : Dict κ α) (key : α → κ) : Prop :=
  ∀ ⦃place value⦄, d.get? place = some value → place = key value

theorem mem_values_iff
    : value ∈ d.values ↔ ∃ place, d.get? place = some value := by
  simp only [← mem_entries_iff, values, List.mem_map, Prod.exists, exists_eq_right]

section KeyedBy

variable {d : Dict κ α} {key : α → κ} {item value : α} {items : List α}

theorem KeyedBy.empty : (Dict.empty : Dict κ α).KeyedBy key := by
  intro place value found
  simp at found

section

variable (keyed : d.KeyedBy key)

include keyed

theorem KeyedBy.mem_values
    : value ∈ d.values ↔ d.get? (key value) = some value := by
  rw [mem_values_iff]
  constructor
  · rintro ⟨place, found⟩
    exact keyed found ▸ found
  · exact fun found => ⟨key value, found⟩

theorem KeyedBy.eq_of_key {other : α} (here : value ∈ d.values) (there : other ∈ d.values)
    (same : key value = key other)
    : value = other := by
  rw [keyed.mem_values] at here there
  rw [same, there] at here
  exact (Option.some.inj here).symm

theorem KeyedBy.set (item : α) : (d.set (key item) item).KeyedBy key := by
  intro place value found
  rw [get?_set] at found
  split at found
  · cases found
    assumption
  · exact keyed found

theorem KeyedBy.filter (keep : α → Bool)
    : (d.filter keep).KeyedBy key := by
  intro place value found
  rw [get?_filter] at found
  exact keyed (Option.filter_eq_some_iff.mp found).1

theorem KeyedBy.delete (gone : κ) : (d.delete gone).KeyedBy key :=
  fun _ _ found => keyed (get?_of_delete found)

theorem KeyedBy.insertAll (items : List α)
    : (d.insertAll key items).KeyedBy key := by
  induction items generalizing d with
  | nil => exact keyed
  | cons item rest ih => exact ih (keyed.set item)

theorem KeyedBy.values_nodup : d.values.Nodup := by
  have same : d.values.map key = d.entries.map Prod.fst := by
    rw [values, List.map_map]
    exact List.map_congr_left fun entry member => (keyed (mem_entries_iff.mp member)).symm
  exact List.Nodup.of_map key (same ▸ d.nodup)

end

omit [DecidableEq κ] in
theorem mem_values_filter {keep : α → Bool}
    : value ∈ (d.filter keep).values ↔ value ∈ d.values ∧ keep value = true := by
  simp only [values, Dict.filter, List.mem_map, List.mem_filter, Prod.exists,
    exists_eq_right]
  exact exists_and_right

variable (keyed : d.KeyedBy key)

include keyed

theorem KeyedBy.mem_values_delete {gone : κ}
    : value ∈ (d.delete gone).values ↔ value ∈ d.values ∧ key value ≠ gone := by
  rw [(keyed.delete gone).mem_values, keyed.mem_values, get?_delete]
  by_cases same : key value = gone <;> simp [same]

theorem KeyedBy.mem_values_set
    : value ∈ (d.set (key item) item).values
      ↔ value = item ∨ (value ∈ d.values ∧ key value ≠ key item) := by
  rw [(keyed.set item).mem_values, keyed.mem_values, get?_set]
  by_cases same : key value = key item
  · simp only [same, if_true, Option.some.injEq, ne_eq, not_true_eq_false, and_false,
      or_false]
    exact eq_comm
  · have differ : value ≠ item := fun equal => same (equal ▸ rfl)
    simp [same, differ]

/-- Setting one more value of a dictionary that has all values replaces none. -/
theorem KeyedBy.mem_values_set_of_subset {whole : Dict κ α} (wholeKeyed : whole.KeyedBy key)
    (subset : ∀ value ∈ d.values, value ∈ whole.values) (inside : item ∈ whole.values)
    : value ∈ (d.set (key item) item).values ↔ value ∈ d.values ∨ value = item := by
  rw [keyed.mem_values_set]
  constructor
  · rintro (rfl | ⟨old, _⟩)
    · exact .inr rfl
    · exact .inl old
  · rintro (old | rfl)
    · by_cases same : key value = key item
      · exact .inl (wholeKeyed.eq_of_key (subset value old) inside same)
      · exact .inr ⟨old, same⟩
    · exact .inl rfl

theorem KeyedBy.mem_of_mem_insertAll (member : value ∈ (d.insertAll key items).values)
    : value ∈ items ∨ value ∈ d.values := by
  induction items generalizing d with
  | nil => exact .inr member
  | cons item rest ih =>
      rcases ih (keyed.set item) member with later | earlier
      · exact .inl (.tail _ later)
      · rcases keyed.mem_values_set.mp earlier with same | ⟨kept, _⟩
        · exact .inl (same ▸ (.head _))
        · exact .inr kept

/-- Items that have no key in common with another value are all kept. -/
theorem KeyedBy.mem_insertAll (apart : ∀ first ∈ d.values ++ items, ∀ second ∈ d.values ++ items,
      key first = key second → first = second)
    : value ∈ (d.insertAll key items).values ↔ value ∈ items ∨ value ∈ d.values := by
  refine ⟨keyed.mem_of_mem_insertAll, ?_⟩
  induction items generalizing d with
  | nil => simp [Dict.insertAll]
  | cons item rest ih =>
      have grown : ∀ other, other ∈ (d.set (key item) item).values ++ rest
          → other ∈ d.values ++ item :: rest := by
        intro other member
        rcases List.mem_append.mp member with here | later
        · rcases keyed.mem_values_set.mp here with same | ⟨kept, _⟩
          · simp [same]
          · simp [kept]
        · simp [later]
      intro member
      apply ih (keyed.set item) (fun first here second there =>
        apart first (grown first here) second (grown second there))
      rw [keyed.mem_values_set]
      rcases member with listed | kept
      · rcases List.mem_cons.mp listed with same | later
        · exact .inr (.inl same)
        · exact .inl later
      · by_cases same : key value = key item
        · exact .inr (.inl (apart value (by simp [kept]) item (by simp) same))
        · exact .inr (.inr ⟨kept, same⟩)

/-- Setting the values of a dictionary in order, from an empty one, gives it back. -/
theorem KeyedBy.insertAll_values
    : Dict.empty.insertAll key d.values = d := by
  have appended (front : Dict κ α) (entries : List (κ × α))
      (own : ∀ entry ∈ entries, entry.1 = key entry.2)
      (distinct : ((front.entries ++ entries).map Prod.fst).Nodup)
      : (front.insertAll key (entries.map Prod.snd)).entries = front.entries ++ entries := by
    induction entries generalizing front with
    | nil => simp [Dict.insertAll]
    | cons entry rest ih =>
        have here : entry.1 = key entry.2 := own entry (by simp)
        have absent : front.get? (key entry.2) = none := by
          rw [get?_eq_none_iff]
          intro member
          rw [List.map_append, List.map_cons, List.nodup_append] at distinct
          exact distinct.2.2 _ member entry.1 (by simp) here.symm
        have grown : (front.set (key entry.2) entry.2).entries = front.entries ++ [entry] := by
          rw [set_entries_of_not_mem _ absent, ← here]
        have later := ih (front.set (key entry.2) entry.2)
          (fun other member => own other (.tail _ member))
          (by rw [grown]; simpa using distinct)
        simp only [Dict.insertAll, List.map_cons, List.foldl_cons] at later ⊢
        rw [later, grown, List.append_assoc, List.singleton_append]
  have same := appended Dict.empty d.entries
    (fun entry member => keyed (mem_entries_iff.mp member)) (by simpa [Dict.empty] using d.nodup)
  cases whole : Dict.empty.insertAll key d.values
  rw [values] at whole
  rw [whole] at same
  cases d
  simp only [Dict.empty, List.nil_append] at same
  subst same
  rfl

end KeyedBy

end Dict

end N8n
