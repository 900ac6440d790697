import Mathlib.Data.List.Dedup
import Mathlib.Data.List.Perm.Basic

/-! Tables of a database whose rows hold a value under a unique key, and the statements that
move values between them: rows are grouped by a key with the sums of their values, the sums are
added to the rows of the same keys, and rows are deleted by their ids.
-/

namespace N8n.Tables

variable {α β Key : Type*}

def total (weight : α → Int) : List α → Int
  | [] => 0
  | row :: rest => weight row + total weight rest

@[simp] theorem total_nil (weight : α → Int) : total weight [] = 0 := rfl

@[simp] theorem total_cons (weight : α → Int) (row : α) (rest : List α)
    : total weight (row :: rest) = weight row + total weight rest :=
  rfl

@[simp] theorem total_append (weight : α → Int) (rows more : List α)
    : total weight (rows ++ more) = total weight rows + total weight more := by
  induction rows with
  | nil => simp
  | cons row rest ih => simp [ih, Int.add_assoc]

@[simp] theorem total_map (change : α → β) (weight : β → Int) (rows : List α)
    : total weight (rows.map change) = total (fun row => weight (change row)) rows := by
  induction rows with
  | nil => rfl
  | cons row rest ih => simp [ih]

theorem total_perm {weight : α → Int} {rows more : List α} (same : rows.Perm more)
    : total weight rows = total weight more := by
  induction same with
  | nil => rfl
  | cons _ _ ih => simp [ih]
  | swap => simp; omega
  | trans _ _ first second => exact first.trans second

theorem total_congr {weight other : α → Int} {rows : List α}
    (same : ∀ row ∈ rows, weight row = other row)
    : total weight rows = total other rows := by
  induction rows with
  | nil => rfl
  | cons row rest ih =>
      rw [total_cons, total_cons, same row (.head _),
        ih (fun other member => same other (.tail _ member))]

theorem total_add (weight other : α → Int) (rows : List α)
    : total (fun row => weight row + other row) rows = total weight rows + total other rows := by
  induction rows with
  | nil => rfl
  | cons row rest ih =>
      simp only [total_cons, ih]
      omega

@[simp] theorem total_zero (rows : List α) : total (fun _ => 0) rows = 0 := by
  induction rows with
  | nil => rfl
  | cons row rest ih => simp [ih]

theorem total_filter (keep : α → Bool) (weight : α → Int) (rows : List α)
    : total weight (rows.filter keep) = total (fun row => if keep row then weight row else 0) rows
    := by
  induction rows with
  | nil => rfl
  | cons row rest ih =>
      cases kept : keep row <;> simp [kept, ih]

variable [DecidableEq Key]

theorem total_of_single {keys : List Key} (distinct : keys.Nodup) {key : Key} (value : Int)
    (member : key ∈ keys)
    : total (fun other => if key = other then value else 0) keys = value := by
  induction keys with
  | nil => contradiction
  | cons first rest ih =>
      obtain ⟨isNew, others⟩ := List.nodup_cons.mp distinct
      rw [total_cons]
      rcases List.mem_cons.mp member with rfl | later
      · have none : total (fun other => if key = other then value else 0) rest = 0 := by
          refine Eq.trans (total_congr (fun other otherMember => if_neg ?_)) (total_zero rest)
          rintro rfl
          exact isNew otherMember
        simp [none]
      · have differs : key ≠ first := by
          rintro rfl
          exact isNew later
        simp [differs, ih others later]

/-- The keys of the rows, each with the sum of the values of its rows. -/
def groupBy (key : α → Key) (value : α → Int) (rows : List α) : List (Key × Int) :=
  (rows.map key).dedup.map (fun group =>
    (group, total value (rows.filter (fun row => key row = group))))

theorem mem_keys_groupBy {key : α → Key} {value : α → Int} {rows : List α} {group : Key × Int}
    (member : group ∈ groupBy key value rows)
    : ∃ row ∈ rows, key row = group.1 := by
  obtain ⟨found, isKey, rfl⟩ := List.mem_map.mp member
  exact List.mem_map.mp (List.mem_dedup.mp isKey)

/-- The sums over the keys that count make up the values of the rows that count, by induction
on the rows with all keys at hand.
-/
theorem total_groupBy (key : α → Key) (value : α → Int) (counts : Key → Bool) (rows : List α)
    : total (fun group => if counts group.1 then group.2 else 0) (groupBy key value rows)
      = total (fun row => if counts (key row) then value row else 0) rows := by
  have overKeys (keys : List Key) (distinct : keys.Nodup) (some : List α)
      (known : ∀ row ∈ some, key row ∈ keys)
      : total
          (fun group =>
            if counts group then total value (some.filter (fun row => key row = group)) else 0)
          keys
        = total (fun row => if counts (key row) then value row else 0) some := by
    induction some with
    | nil => simp
    | cons row rest ih =>
        rw [total_cons, ← ih (fun other member => known other (.tail _ member)),
          ← total_of_single distinct (if counts (key row) then value row else 0)
            (known row (.head _)),
          ← total_add]
        refine total_congr (fun group _ => ?_)
        by_cases same : key row = group
        · subst same
          cases counts (key row) <;> simp
        · simp [same]
  rw [groupBy, total_map]
  exact overKeys _ (List.nodup_dedup _) rows (fun row member =>
    List.mem_dedup.mpr (List.mem_map_of_mem member))

structure Row (Key : Type*) where
  id : Nat
  key : Key
  value : Int
  deriving DecidableEq, Repr

/-- The rows of a table with a primary key, given from a sequence, and a unique index. -/
structure Table (Key : Type*) where
  rows : List (Row Key)
  nextId : Nat
  ids : (rows.map Row.id).Nodup
  fresh : ∀ row ∈ rows, row.id < nextId
  index : (rows.map Row.key).Nodup

namespace Table

variable (table : Table Key) (key : Key) (value : Int)

def addTo (row : Row Key) : Row Key :=
  if row.key = key then { row with value := row.value + value } else row

@[simp] theorem addTo_id (row : Row Key) : (addTo key value row).id = row.id := by
  unfold addTo
  split <;> rfl

@[simp] theorem addTo_key (row : Row Key) : (addTo key value row).key = row.key := by
  unfold addTo
  split <;> rfl

/-- `INSERT … ON CONFLICT(key) DO UPDATE SET value = table.value + excluded.value`. -/
def upsert : Table Key :=
  if present : key ∈ table.rows.map Row.key then
    { rows := table.rows.map (addTo key value)
      nextId := table.nextId
      ids := by simpa [Function.comp_def] using table.ids
      fresh := by simpa using table.fresh
      index := by simpa [Function.comp_def] using table.index }
  else
    { rows := table.rows ++ [⟨table.nextId, key, value⟩]
      nextId := table.nextId + 1
      ids := by
        rw [List.map_append]
        refine List.Nodup.append table.ids (List.nodup_singleton _) ?_
        intro id old new
        obtain ⟨row, member, rfl⟩ := List.mem_map.mp old
        exact Nat.ne_of_lt (table.fresh row member) (by simpa using new)
      fresh := by
        intro row member
        rcases List.mem_append.mp member with old | new
        · exact Nat.lt_succ_of_lt (table.fresh row old)
        · obtain rfl := List.mem_singleton.mp new
          exact Nat.lt_succ_self _
      index := by
        rw [List.map_append]
        refine List.Nodup.append table.index (List.nodup_singleton _) ?_
        intro other old new
        obtain rfl := List.mem_singleton.mp new
        exact present old }

def upsertAll (groups : List (Key × Int)) : Table Key :=
  groups.foldl (fun current group => current.upsert group.1 group.2) table

/-- `DELETE FROM table WHERE id IN (…)`. -/
def deleteIds (deleted : List Nat) : Table Key where
  rows := table.rows.filter (fun row => row.id ∉ deleted)
  nextId := table.nextId
  ids := table.ids.sublist (List.filter_sublist.map Row.id)
  fresh row member := table.fresh row (List.mem_of_mem_filter member)
  index := table.index.sublist (List.filter_sublist.map Row.key)

/-- The value of a row that counts, by its key. -/
def worth (counts : Key → Bool) (row : Row Key) : Int := if counts row.key then row.value else 0

variable {table key value}

theorem total_upsert (counts : Key → Bool)
    : total (worth counts) (table.upsert key value).rows
      = total (worth counts) table.rows + if counts key then value else 0 := by
  unfold upsert
  split
  · next present =>
      have added (row : Row Key)
          : worth counts (addTo key value row)
            = worth counts row
              + if key = row.key then (if counts key then value else 0) else 0 := by
        unfold addTo worth
        by_cases same : key = row.key
        · subst same
          simp only [if_true]
          split <;> simp
        · simp [same, Ne.symm same]
      have once := total_of_single table.index (if counts key then value else 0) present
      rw [total_map] at once
      simp only [total_map, added, total_add, once]
  · simp [worth]

theorem total_upsertAll (counts : Key → Bool) (groups : List (Key × Int))
    : total (worth counts) (table.upsertAll groups).rows
      = total (worth counts) table.rows
        + total (fun group => if counts group.1 then group.2 else 0) groups := by
  induction groups generalizing table with
  | nil => simp [upsertAll]
  | cons group rest ih =>
      change total (worth counts) ((table.upsert group.1 group.2).upsertAll rest).rows = _
      rw [ih, total_upsert, total_cons, Int.add_assoc]

/-- Rows of other keys stay as they are. -/
theorem filter_upsert {keep : Key → Bool} (other : keep key = false)
    : (table.upsert key value).rows.filter (fun row => keep row.key)
      = table.rows.filter (fun row => keep row.key) := by
  unfold upsert
  split
  · have same : ∀ row ∈ table.rows.filter (fun row => keep row.key), addTo key value row = row := by
      intro row member
      have kept := (List.mem_filter.mp member).2
      refine if_neg (fun same => ?_)
      simp [same, other] at kept
    rw [List.filter_map]
    simp only [Function.comp_def, addTo_key]
    exact (List.map_congr_left same).trans (List.map_id' _)
  · simp [other]

theorem filter_upsertAll {keep : Key → Bool} {groups : List (Key × Int)}
    (others : ∀ group ∈ groups, keep group.1 = false)
    : (table.upsertAll groups).rows.filter (fun row => keep row.key)
      = table.rows.filter (fun row => keep row.key) := by
  induction groups generalizing table with
  | nil => rfl
  | cons group rest ih =>
      change ((table.upsert group.1 group.2).upsertAll rest).rows.filter _ = _
      rw [ih (fun other member => others other (.tail _ member)),
        filter_upsert (others group (.head _))]

omit [DecidableEq Key] in
/-- Rows that are not deleted stay, because the deleted ids are those of other rows. -/
theorem filter_deleteIds {keep other : Key → Bool} {deleted : List Nat}
    (apart : ∀ key, keep key → other key = false)
    (named : ∀ id ∈ deleted, ∃ row ∈ table.rows, other row.key ∧ row.id = id)
    : (table.deleteIds deleted).rows.filter (fun row => keep row.key)
      = table.rows.filter (fun row => keep row.key) := by
  change (table.rows.filter _).filter _ = _
  rw [List.filter_filter]
  refine List.filter_congr (fun row member => ?_)
  by_cases kept : keep row.key
  · have stays : row.id ∉ deleted := by
      intro isDeleted
      obtain ⟨found, foundMember, isOther, sameId⟩ := named row.id isDeleted
      obtain rfl := List.inj_on_of_nodup_map table.ids foundMember member sameId
      rw [apart _ kept] at isOther
      contradiction
    simp [kept, stays]
  · simp [kept]

end Table

/-- Rows with distinct ids are those that a batch of them names, and the others. -/
theorem perm_batch {id : α → Nat} {rows batch rest : List α} (ids : (rows.map id).Nodup)
    (isPart : rows.Perm (batch ++ rest))
    : rows.Perm (batch ++ rows.filter (fun row => id row ∉ batch.map id)) := by
  refine isPart.trans (.append_left batch ?_)
  have distinct : ((batch ++ rest).map id).Nodup := (isPart.map id).nodup_iff.mp ids
  rw [List.map_append] at distinct
  have apart := List.disjoint_of_nodup_append distinct
  refine .trans ?_ (isPart.symm.filter _)
  rw [List.filter_append, List.filter_eq_nil_iff.mpr, List.nil_append, List.filter_eq_self.mpr]
  · intro row member
    simp only [decide_eq_true_eq]
    exact fun named => apart named (List.mem_map_of_mem member)
  · intro row member
    simp only [decide_eq_true_eq, Decidable.not_not]
    exact List.mem_map_of_mem member

end N8n.Tables
