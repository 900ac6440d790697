import N8n.Library.Objects

/-! Rules for plain objects: tables whose values are changed, values that are built on a heap,
and heaps in which no object is the value of two properties.
-/

namespace N8n

namespace Dict

variable {κ α β : Type} [DecidableEq κ]

theorem mapValues_delete (d : Dict κ α) (change : α → β) (key : κ)
    : (d.delete key).mapValues change = (d.mapValues change).delete key := by
  unfold mapValues delete
  simp only [Dict.mk.injEq, List.filter_map]
  rfl

omit [DecidableEq κ] in
@[simp] theorem keys_mapValues (d : Dict κ α) (change : α → β)
    : (d.mapValues change).keys = d.keys := by
  simp [keys, mapValues]

theorem mapValues_congr {d : Dict κ α} {change other : α → β}
    (same : ∀ key value, d.get? key = some value → change value = other value)
    : d.mapValues change = d.mapValues other := by
  unfold mapValues
  simp only [Dict.mk.injEq]
  refine List.map_congr_left ?_
  rintro ⟨key, value⟩ member
  rw [same key value (mem_entries_iff.mp member)]

theorem set_self {d : Dict κ α} {key : κ} {value : α} (found : d.get? key = some value)
    : d.set key value = d := by
  obtain ⟨before, after, split, changed, -⟩ := split_of_get? found
  have same : (d.set key value).entries = d.entries := by rw [changed value, split]
  obtain ⟨entries, distinct⟩ := d
  unfold set
  simp only [Dict.mk.injEq]
  exact same

end Dict

namespace Objects

namespace Table

variable {α β γ : Type} {table changed : Table α} {key other : Key} {value : α} {change : α → β}

/-! ### Tables with each value changed -/

def Property.map (change : α → β) : Property α → Property β
  | .length n => .length n
  | .value a => .value (change a)

@[simp] theorem length_map : (table.map change).length = table.length := rfl

@[simp] theorem isArray_map : (table.map change).isArray = table.isArray := rfl

@[simp] theorem get?_map : (table.map change).get? key = (table.get? key).map change :=
  Dict.get?_mapValues ..

theorem own?_map : (table.map change).own? key = (table.own? key).map (Property.map change) := by
  unfold own?
  by_cases isLength : table.IsLength key
  · rw [if_pos isLength, if_pos (show (table.map change).IsLength key from isLength), length_map]
    cases table.length <;> rfl
  · rw [if_neg isLength, if_neg (show ¬(table.map change).IsLength key from isLength), get?_map]
    cases table.get? key <;> rfl

theorem write_map (newLength : Option Nat)
    : (table.map change).write key (change value) newLength
      = (table.write key value newLength).map (fun written => written.map change) := by
  unfold write
  by_cases isLength : table.IsLength key
  · rw [if_pos isLength, if_pos (show (table.map change).IsLength key from isLength)]
    cases newLength with
    | none => rfl
    | some n =>
        simp only [Option.map_some, truncate, map, Dict.mapValues, List.filter_map]
        rfl
  · rw [if_neg isLength, if_neg (show ¬(table.map change).IsLength key from isLength)]
    simp [map, Dict.mapValues_set]

theorem remove_map
    : (table.map change).remove key = ((table.remove key).1, (table.remove key).2.map change) := by
  unfold remove
  by_cases isLength : table.IsLength key
  · rw [if_pos isLength, if_pos (show (table.map change).IsLength key from isLength)]
  · rw [if_neg isLength, if_neg (show ¬(table.map change).IsLength key from isLength)]
    simp [map, Dict.mapValues_delete]

theorem ownKeys_map : (table.map change).ownKeys = table.ownKeys := by
  unfold ownKeys
  rw [isArray_map]
  simp [map]

theorem hasProperty_map : (table.map change).hasProperty key = table.hasProperty key := by
  simp [hasProperty, own?_map]

theorem map_congr {other : α → β}
    (same : ∀ key value, table.get? key = some value → change value = other value)
    : table.map change = table.map other := by
  unfold map
  rw [Dict.mapValues_congr same]

theorem map_map {next : β → γ} : (table.map change).map next = table.map (next ∘ change) := by
  simp [map, Dict.mapValues]

/-! ### What is kept when a table changes -/

theorem get?_truncate {length : Nat} (found : (table.truncate length).get? other = some value)
    : table.get? other = some value := by
  rw [get?, ← Dict.mem_entries_iff] at found ⊢
  exact (List.mem_filter.mp found).1

variable {newLength : Option Nat} {new : α}

theorem get?_write (written : table.write key new newLength = some changed)
    (found : changed.get? other = some value)
    : table.get? other = some value ∨ other = key ∧ value = new := by
  unfold write at written
  split at written
  · obtain ⟨length, -, rfl⟩ := Option.map_eq_some_iff.mp written
    exact .inl (get?_truncate found)
  · cases written
    simp only [get?, Dict.get?_set] at found
    split at found
    · next same => exact .inr ⟨same, (Option.some.inj found).symm⟩
    · exact .inl found

theorem get?_of_own? (own : table.own? key = some (.value value))
    : table.get? key = some value := by
  unfold own? at own
  split at own
  · obtain ⟨length, -, same⟩ := Option.map_eq_some_iff.mp own
    contradiction
  · obtain ⟨found, isFound, same⟩ := Option.map_eq_some_iff.mp own
    rw [isFound, Property.value.inj same]

/-- A property with a value is not the length, so any value can be assigned to it. -/
theorem exists_write (own : table.own? key = some (.value value)) (new : α)
    : ∃ changed, table.write key new none = some changed := by
  unfold own? at own
  split at own
  · obtain ⟨length, -, same⟩ := Option.map_eq_some_iff.mp own
    contradiction
  · next notLength =>
      unfold write
      rw [if_neg notLength]
      exact ⟨_, rfl⟩

/-- Without a length the assignment was not one to the length. -/
theorem get?_write_self (written : table.write key new none = some changed)
    : changed.get? key = some new := by
  unfold write at written
  split at written
  · contradiction
  · cases written
    simp [get?]

theorem isArray_write (written : table.write key new newLength = some changed)
    : changed.isArray = table.isArray := by
  unfold write at written
  split at written
  · next isLength =>
      obtain ⟨length, -, rfl⟩ := Option.map_eq_some_iff.mp written
      exact isLength.1.symm
  · cases written
    simp [isArray]

theorem get?_remove (found : (table.remove key).2.get? other = some value)
    : table.get? other = some value := by
  unfold remove at found
  split at found
  · exact found
  · exact Dict.get?_of_delete found

theorem isArray_remove : (table.remove key).2.isArray = table.isArray := by
  unfold remove
  split <;> rfl

/-- The indexes of an array are below its length. -/
def Bounded (table : Table α) : Prop :=
  ∀ n length, table.length = some length → (table.get? (.index n)).isSome → n < length

theorem Bounded.write (bounded : table.Bounded)
    (written : table.write key new newLength = some changed)
    : changed.Bounded := by
  intro n length isLength isSome
  unfold Table.write at written
  split at written
  · obtain ⟨shorter, -, rfl⟩ := Option.map_eq_some_iff.mp written
    cases isLength
    obtain ⟨value, found⟩ := Option.isSome_iff_exists.mp isSome
    have kept := (List.mem_filter.mp (Dict.mem_entries_iff.mpr found)).2
    exact of_decide_eq_true kept
  · cases written
    obtain ⟨before, isBefore, rfl⟩ := Option.map_eq_some_iff.mp isLength
    simp only [get?, Dict.get?_set] at isSome
    split at isSome
    · next same =>
        subst same
        exact Nat.lt_of_lt_of_le (Nat.lt_succ_self n) (Nat.le_max_right ..)
    · have inside := bounded n before isBefore isSome
      cases key with
      | index m => exact Nat.lt_of_lt_of_le inside (Nat.le_max_left ..)
      | name s => exact inside

theorem Bounded.remove (bounded : table.Bounded) : (table.remove key).2.Bounded := by
  intro n length isLength isSome
  unfold Table.remove at isLength isSome
  split at isSome
  · next isLengthKey =>
      rw [if_pos isLengthKey] at isLength
      exact bounded n length isLength isSome
  · next notLengthKey =>
      rw [if_neg notLengthKey] at isLength
      exact bounded n length isLength (Dict.isSome_of_delete isSome)

/-- Assigning what a property has already changes nothing. -/
theorem write_self (bounded : table.Bounded) (own : table.own? key = some (.value value))
    : table.write key value newLength = some table := by
  unfold own? at own
  split at own
  · obtain ⟨length, -, same⟩ := Option.map_eq_some_iff.mp own
    contradiction
  · next notLength =>
      obtain ⟨_, found, same⟩ := Option.map_eq_some_iff.mp own
      obtain rfl := Property.value.inj same
      have sameLength
          : table.length.map (fun length => lengthAfter length key) = table.length := by
        cases isLength : table.length with
        | none => rfl
        | some length =>
            cases key with
            | index n =>
                have inside := bounded n length isLength (Option.isSome_of_eq_some found)
                simp only [Option.map_some, lengthAfter, Option.some.injEq]
                omega
            | name s => rfl
      unfold write
      rw [if_neg notLength, sameLength, Dict.set_self found]

/-! ### Objects that are no arrays -/

section

variable (object : table.length = none)

include object

theorem not_isLength_of_object : ¬table.IsLength key := by
  simp [IsLength, isArray, object]

theorem own?_of_object
    : table.own? key = (table.get? key).map .value := by
  unfold own?
  rw [if_neg (not_isLength_of_object object)]

theorem write_of_object (newLength : Option Nat)
    : table.write key value newLength
      = some { table with properties := table.properties.set key value } := by
  unfold write
  rw [if_neg (not_isLength_of_object object)]
  simp [object]

theorem remove_of_object
    : table.remove key = (true, { table with properties := table.properties.delete key }) := by
  unfold remove
  rw [if_neg (not_isLength_of_object object)]

theorem mem_ownKeys_of_object
    : key ∈ table.ownKeys ↔ (table.get? key).isSome := by
  have present : (table.get? key).isSome ↔ key ∈ table.properties.keys := by
    constructor
    · intro isSome
      obtain ⟨value, found⟩ := Option.isSome_iff_exists.mp isSome
      exact Dict.mem_keys_of_get? found
    · intro member
      obtain ⟨value, found⟩ := Dict.exists_get?_of_mem_keys member
      exact Option.isSome_of_eq_some found
  rw [present]
  simp only [ownKeys, isArray, object, Option.isSome_none, Bool.false_eq_true, if_false,
    List.append_nil, List.mem_append, List.mem_map, List.mem_insertionSort, List.mem_filterMap,
    List.mem_filter]
  cases key with
  | index n =>
      constructor
      · rintro (⟨_, ⟨found, member, isIndex⟩, same⟩ | ⟨-, isName⟩)
        · cases found with
          | index m =>
              cases isIndex
              exact same ▸ member
          | name s => contradiction
        · contradiction
      · intro member
        exact .inl ⟨n, ⟨.index n, member, rfl⟩, rfl⟩
  | name s =>
      constructor
      · rintro (⟨_, -, same⟩ | ⟨member, -⟩)
        · contradiction
        · exact member
      · intro member
        exact .inr ⟨member, rfl⟩

theorem nodup_ownKeys_of_object : table.ownKeys.Nodup := by
  have keys := table.properties.nodup
  simp only [ownKeys, isArray, object, Option.isSome_none, Bool.false_eq_true, if_false,
    List.append_nil]
  rw [List.nodup_append]
  refine ⟨?_, keys.filter _, ?_⟩
  · refine List.Nodup.map (fun _ _ same => Key.index.inj same) ?_
    rw [(List.perm_insertionSort _ _).nodup_iff]
    refine List.Nodup.filterMap ?_ keys
    intro first second n isFirst isSecond
    cases first with
    | index m =>
        cases second with
        | index k =>
            obtain rfl := Option.mem_some_iff.mp isFirst
            obtain rfl := Option.mem_some_iff.mp isSecond
            rfl
        | name s => contradiction
    | name s => contradiction
  · rintro key isIndex _ isName rfl
    obtain ⟨n, -, rfl⟩ := List.mem_map.mp isIndex
    have isNone := (List.mem_filter.mp isName).2
    contradiction

end

end Table

/-! ### Values that are built -/

section

variable {α : Type} {values : List α} {properties : List (Key × α)} {key : Key} {value : α}

/-- A table as it is before any operation: an array without holes and further properties. -/
def Table.Pristine (table : Table α) : Prop :=
  table.length = none ∨ ∃ values, table = arrayOf values

theorem get?_arrayOf (found : (arrayOf values).get? key = some value)
    : ∃ place, key = .index place ∧ values[place]? = some value := by
  obtain ⟨⟨_, place⟩, member, same⟩ := List.mem_map.mp (Dict.mem_entries_iff.mpr found)
  cases same
  exact ⟨place, rfl, List.mem_zipIdx_iff_getElem?.mp member⟩

theorem get?_arrayOf_index (place : Nat) : (arrayOf values).get? (.index place) = values[place]? := by
  apply Option.ext
  intro value
  constructor
  · intro found
    obtain ⟨_, same, isValue⟩ := get?_arrayOf found
    rw [Key.index.inj same]
    exact isValue
  · intro isValue
    refine Dict.mem_entries_iff.mp (List.mem_map.mpr ⟨(value, place), ?_, rfl⟩)
    exact List.mem_zipIdx_iff_getElem?.mpr isValue

theorem bounded_arrayOf : (arrayOf values).Bounded := by
  intro n length isLength isSome
  cases isLength
  rw [get?_arrayOf_index] at isSome
  simpa using isSome

theorem map_arrayOf {β : Type} (change : α → β)
    : (arrayOf values).map change = arrayOf (values.map change) := by
  simp [arrayOf, Table.map, Dict.mapValues, List.zipIdx_map]

theorem get?_objectOf (found : (objectOf properties).get? key = some value)
    : ∃ place : Nat, properties[place]? = some (key, value) := by
  have kept (properties : List (Key × α)) (before : Dict Key α)
      (found : (properties.foldl (fun before property => before.set property.1 property.2)
        before).get? key = some value)
      : (key, value) ∈ properties ∨ before.get? key = some value := by
    induction properties generalizing before with
    | nil => exact .inr found
    | cons property rest ih =>
        rcases ih (before.set property.1 property.2) found with later | earlier
        · exact .inl (.tail _ later)
        · rw [Dict.get?_set] at earlier
          split at earlier
          · next same =>
              cases earlier
              exact .inl (by simp [same])
          · exact .inr earlier
  rcases kept properties Dict.empty found with member | absent
  · exact List.mem_iff_getElem?.mp member
  · contradiction

end

section

variable {P : Type} {next : Nat} {cells left right : Cells P} {values others : List (Value P)}
  {table : Table (Value P)} {place child : Nat} {key : Key} {value : Value P}

/-- The property of the cell at the place refers to the child. -/
def Child (cells : Cells P) (place : Nat) (key : Key) (child : Nat) : Prop :=
  ∃ table, cells[place]? = some table ∧ table.get? key = some (.ref child)

theorem Child.lt (child : Child cells place key next) : place < cells.length := by
  obtain ⟨table, found, -⟩ := child
  exact (List.getElem?_eq_some_iff.mp found).1

theorem child_append
    : Child (left ++ right) place key child
      ↔ Child left place key child
        ∨ left.length ≤ place ∧ Child right (place - left.length) key child := by
  unfold Child
  rcases Nat.lt_or_ge place left.length with before | after
  · rw [List.getElem?_append_left before]
    simp [Nat.not_le.mpr before]
  · rw [List.getElem?_append_right after, List.getElem?_eq_none after]
    simp [after]

/-- Cells from an address on, each of which refers to earlier ones of them only, and no two
properties to the same one.
-/
structure Fresh (next : Nat) (cells : Cells P) : Prop where
  children : ∀ place key child, Child cells place key child → next ≤ child ∧ child < next + place
  unique
    : ∀ place key other otherKey child,
        Child cells place key child
        → Child cells other otherKey child
        → place = other ∧ key = otherKey
  pristine : ∀ table ∈ cells, table.Pristine

/-- Values that refer to different ones of the cells, none of which is a child. -/
structure Roots (next : Nat) (cells : Cells P) (values : List (Value P)) : Prop where
  inside
    : ∀ index root : Nat, values[index]? = some (.ref root) → next ≤ root
        ∧ root < next + cells.length
  orphan
    : ∀ index root : Nat,
        values[index]? = some (.ref root) → ∀ place key, ¬Child cells place key root
  distinct
    : ∀ index other root : Nat,
        values[index]? = some (.ref root) → values[other]? = some (.ref root) → index = other

theorem Fresh.nil : Fresh next ([] : Cells P) := by
  constructor
  · rintro _ _ _ ⟨_, found, -⟩
    contradiction
  · rintro _ _ _ _ _ ⟨_, found, -⟩
    contradiction
  · intro _ member
    contradiction

theorem Roots.nil : Roots next cells ([] : List (Value P)) := by
  constructor
  · intro _ _ found
    contradiction
  · intro _ _ found
    contradiction
  · intro _ _ _ found
    contradiction

theorem Fresh.append (front : Fresh next left) (back : Fresh (next + left.length) right)
    : Fresh next (left ++ right) := by
  constructor
  · intro place key child isChild
    rcases child_append.mp isChild with inLeft | ⟨after, inRight⟩
    · exact front.children place key child inLeft
    · have bounds := back.children _ _ _ inRight
      omega
  · intro place key other otherKey child first second
    rcases child_append.mp first with inLeft | ⟨after, inRight⟩
    · rcases child_append.mp second with inLeft' | ⟨after', inRight'⟩
      · exact front.unique _ _ _ _ _ inLeft inLeft'
      · have bounds := front.children _ _ _ inLeft
        have bounds' := back.children _ _ _ inRight'
        have inside := inLeft.lt
        omega
    · rcases child_append.mp second with inLeft' | ⟨after', inRight'⟩
      · have bounds := front.children _ _ _ inLeft'
        have bounds' := back.children _ _ _ inRight
        have inside := inLeft'.lt
        omega
      · obtain ⟨samePlace, sameKey⟩ := back.unique _ _ _ _ _ inRight inRight'
        exact ⟨by omega, sameKey⟩
  · intro table member
    exact (List.mem_append.mp member).elim (front.pristine table) (back.pristine table)

theorem Roots.append (freshLeft : Fresh next left) (freshRight : Fresh (next + left.length) right)
    (front : Roots next left values) (back : Roots (next + left.length) right others)
    : Roots next (left ++ right) (values ++ others) := by
  have either {index root : Nat} (found : (values ++ others)[index]? = some (.ref root))
      : values[index]? = some (.ref root)
        ∨ values.length ≤ index ∧ others[index - values.length]? = some (.ref root) := by
    rcases Nat.lt_or_ge index values.length with before | after
    · rw [List.getElem?_append_left before] at found
      exact .inl found
    · rw [List.getElem?_append_right after] at found
      exact .inr ⟨after, found⟩
  constructor
  · intro index root found
    rw [List.length_append]
    rcases either found with inFront | ⟨-, inBack⟩
    · have bounds := front.inside _ _ inFront
      omega
    · have bounds := back.inside _ _ inBack
      omega
  · intro index root found place key isChild
    rcases either found with inFront | ⟨-, inBack⟩
    · rcases child_append.mp isChild with inLeft | ⟨-, inRight⟩
      · exact front.orphan _ _ inFront _ _ inLeft
      · have bounds := front.inside _ _ inFront
        have bounds' := freshRight.children _ _ _ inRight
        omega
    · rcases child_append.mp isChild with inLeft | ⟨-, inRight⟩
      · have bounds := back.inside _ _ inBack
        have bounds' := freshLeft.children _ _ _ inLeft
        have inside := inLeft.lt
        omega
      · exact back.orphan _ _ inBack _ _ inRight
  · intro index other root found found'
    rcases either found with inFront | ⟨after, inBack⟩
    · rcases either found' with inFront' | ⟨after', inBack'⟩
      · exact front.distinct _ _ _ inFront inFront'
      · have bounds := front.inside _ _ inFront
        have bounds' := back.inside _ _ inBack'
        omega
    · rcases either found' with inFront' | ⟨after', inBack'⟩
      · have bounds := front.inside _ _ inFront'
        have bounds' := back.inside _ _ inBack
        omega
      · have same := back.distinct _ _ _ inBack inBack'
        omega

/-- A cell whose properties refer to the roots, each to another one. -/
theorem Fresh.snoc {keys : List Key} (fresh : Fresh next cells) (roots : Roots next cells values)
    (pristine : table.Pristine)
    (refers : ∀ key child, table.get? key = some (.ref child)
      → ∃ index : Nat, keys[index]? = some key ∧ values[index]? = some (.ref child))
    : Fresh next (cells ++ [table])
      ∧ Roots next (cells ++ [table]) [.ref (next + cells.length)] := by
  have ofLast {place child : Nat} {key : Key}
      (isChild : Child [table] (place - cells.length) key child) (after : cells.length ≤ place)
      : place = cells.length ∧ table.get? key = some (.ref child) := by
    obtain ⟨found, isTable, refersTo⟩ := isChild
    obtain ⟨isFirst, same⟩ := List.getElem?_eq_some_iff.mp isTable
    simp only [List.length_singleton, Nat.lt_one_iff] at isFirst
    simp only [List.getElem_singleton] at same
    exact ⟨by omega, same ▸ refersTo⟩
  have whole : Fresh next (cells ++ [table]) := by
    constructor
    · intro place key child isChild
      rcases child_append.mp isChild with earlier | ⟨after, last⟩
      · exact fresh.children _ _ _ earlier
      · obtain ⟨rfl, refersTo⟩ := ofLast last after
        obtain ⟨index, -, isRoot⟩ := refers _ _ refersTo
        exact roots.inside _ _ isRoot
    · intro place key other otherKey child first second
      rcases child_append.mp first with earlier | ⟨after, last⟩
      · rcases child_append.mp second with earlier' | ⟨after', last'⟩
        · exact fresh.unique _ _ _ _ _ earlier earlier'
        · obtain ⟨-, refersTo⟩ := ofLast last' after'
          obtain ⟨index, -, isRoot⟩ := refers _ _ refersTo
          exact absurd earlier (roots.orphan _ _ isRoot _ _)
      · obtain ⟨rfl, refersTo⟩ := ofLast last after
        obtain ⟨index, isKey, isRoot⟩ := refers _ _ refersTo
        rcases child_append.mp second with earlier' | ⟨after', last'⟩
        · exact absurd earlier' (roots.orphan _ _ isRoot _ _)
        · obtain ⟨rfl, refersTo'⟩ := ofLast last' after'
          obtain ⟨index', isKey', isRoot'⟩ := refers _ _ refersTo'
          obtain rfl := roots.distinct _ _ _ isRoot isRoot'
          exact ⟨rfl, Option.some.inj (isKey.symm.trans isKey')⟩
    · intro found member
      rcases List.mem_append.mp member with earlier | last
      · exact fresh.pristine _ earlier
      · rw [List.mem_singleton.mp last]
        exact pristine
  have isOnly {index root : Nat}
      (found : [(Value.ref (next + cells.length) : Value P)][index]? = some (.ref root))
      : index = 0 ∧ root = next + cells.length := by
    obtain ⟨isFirst, same⟩ := List.getElem?_eq_some_iff.mp found
    simp only [List.length_singleton, Nat.lt_one_iff] at isFirst
    simp only [List.getElem_singleton, Value.ref.injEq] at same
    exact ⟨isFirst, same.symm⟩
  refine ⟨whole, ?_, ?_, ?_⟩
  · intro index root found
    obtain ⟨-, rfl⟩ := isOnly found
    simp
  · intro index root found place key isChild
    obtain ⟨-, rfl⟩ := isOnly found
    have bounds := whole.children _ _ _ isChild
    have inside := isChild.lt
    simp only [List.length_append, List.length_singleton] at inside
    omega
  · intro index other root found found'
    rw [(isOnly found).1, (isOnly found').1]

theorem refers_arrayOf (found : (arrayOf values).get? key = some value)
    : ∃ index : Nat,
        ((List.range values.length).map Key.index)[index]? = some key
        ∧ values[index]? = some value := by
  obtain ⟨index, rfl, isValue⟩ := get?_arrayOf found
  refine ⟨index, ?_, isValue⟩
  have inside := (List.getElem?_eq_some_iff.mp isValue).1
  simp [inside]

theorem refers_objectOf {properties : List (Key × Value P)}
    (found : (objectOf properties).get? key = some value)
    : ∃ index : Nat,
        (properties.map Prod.fst)[index]? = some key
        ∧ (properties.map Prod.snd)[index]? = some value := by
  obtain ⟨index, isProperty⟩ := get?_objectOf found
  exact ⟨index, by simp [isProperty], by simp [isProperty]⟩

mutual
theorem build_fresh (next : Nat) (json : Json P)
    : Fresh next (build next json).2
      ∧ Roots next (build next json).2 [(build next json).1] := by
  cases json with
  | primitive p =>
      refine ⟨.nil, ?_, ?_, ?_⟩
      all_goals
        intro index
        cases index <;> simp [build]
  | array elements =>
      obtain ⟨fresh, roots⟩ := buildElements_fresh next elements
      exact fresh.snoc roots (.inr ⟨_, rfl⟩) (fun _ _ found => refers_arrayOf found)
  | object properties =>
      obtain ⟨fresh, roots⟩ := buildProperties_fresh next properties
      exact fresh.snoc roots (.inl rfl) (fun _ _ found => refers_objectOf found)

theorem buildElements_fresh (next : Nat) (elements : List (Json P))
    : Fresh next (buildElements next elements).2
      ∧ Roots next (buildElements next elements).2 (buildElements next elements).1 := by
  cases elements with
  | nil => exact ⟨.nil, .nil⟩
  | cons json rest =>
      obtain ⟨fresh, roots⟩ := build_fresh next json
      obtain ⟨others, otherRoots⟩ :=
        buildElements_fresh (next + (build next json).2.length) rest
      exact ⟨fresh.append others, roots.append fresh others otherRoots⟩

theorem buildProperties_fresh (next : Nat) (properties : List (Key × Json P))
    : Fresh next (buildProperties next properties).2
      ∧ Roots next (buildProperties next properties).2
          ((buildProperties next properties).1.map Prod.snd) := by
  cases properties with
  | nil => exact ⟨.nil, .nil⟩
  | cons property rest =>
      obtain ⟨key, json⟩ := property
      obtain ⟨fresh, roots⟩ := build_fresh next json
      obtain ⟨others, otherRoots⟩ :=
        buildProperties_fresh (next + (build next json).2.length) rest
      exact ⟨fresh.append others, roots.append fresh others otherRoots⟩
end

/-! ### Heaps -/

variable {heap : Cells P} {address : Nat} {changed : Table (Value P)}

/-- A heap in which no object is the value of two properties. -/
structure Forest (heap : Cells P) : Prop where
  unique
    : ∀ place key other otherKey child,
        Child heap place key child
        → Child heap other otherKey child
        → place = other ∧ key = otherKey
  closed : ∀ place key child, Child heap place key child → child < heap.length

theorem Forest.append (forest : Forest heap) (fresh : Fresh heap.length cells)
    : Forest (heap ++ cells) := by
  constructor
  · intro place key other otherKey child first second
    rcases child_append.mp first with old | ⟨after, new⟩
    · rcases child_append.mp second with old' | ⟨after', new'⟩
      · exact forest.unique _ _ _ _ _ old old'
      · have bound := forest.closed _ _ _ old
        have bounds := fresh.children _ _ _ new'
        omega
    · rcases child_append.mp second with old' | ⟨after', new'⟩
      · have bound := forest.closed _ _ _ old'
        have bounds := fresh.children _ _ _ new
        omega
      · obtain ⟨samePlace, sameKey⟩ := fresh.unique _ _ _ _ _ new new'
        exact ⟨by omega, sameKey⟩
  · intro place key child isChild
    rw [List.length_append]
    rcases child_append.mp isChild with old | ⟨after, new⟩
    · have bound := forest.closed _ _ _ old
      omega
    · have bounds := fresh.children _ _ _ new
      have inside := new.lt
      omega

/-- What a value built on a heap refers to is a new object, and no object has it yet. -/
theorem Forest.root (forest : Forest heap) (json : Json P)
    (refers : (build heap.length json).1 = .ref child)
    : heap.length ≤ child ∧ child < heap.length + (build heap.length json).2.length
      ∧ ∀ place key, ¬Child (heap ++ (build heap.length json).2) place key child := by
  obtain ⟨fresh, roots⟩ := build_fresh heap.length json
  have isRoot : [(build heap.length json).1][0]? = some (.ref child) := by simp [refers]
  obtain ⟨from', upTo⟩ := roots.inside 0 child isRoot
  refine ⟨from', upTo, ?_⟩
  intro place key isChild
  rcases child_append.mp isChild with old | ⟨-, new⟩
  · exact absurd (forest.closed _ _ _ old) (Nat.not_lt.mpr from')
  · exact roots.orphan 0 child isRoot _ _ new

theorem Forest.nil : Forest ([] : Cells P) := by
  constructor
  · rintro _ _ _ _ _ ⟨_, found, -⟩
    contradiction
  · rintro _ _ _ ⟨_, found, -⟩
    contradiction

theorem child_set (inside : address < heap.length)
    : Child (heap.set address changed) place key child
      ↔ place = address ∧ changed.get? key = some (.ref child)
        ∨ place ≠ address ∧ Child heap place key child := by
  unfold Child
  by_cases same : place = address
  · subst same
    simp [List.getElem?_set_self inside]
  · simp [List.getElem?_set_ne (Ne.symm same), same]

/-- One object changes, and at most one property of it to a value that no property had. -/
theorem Forest.set {assigned : Option (Value P)} (forest : Forest heap)
    (found : heap[address]? = some table)
    (values : ∀ other new, changed.get? other = some new
      → table.get? other = some new ∨ other = key ∧ assigned = some new)
    (orphan : ∀ child, assigned = some (.ref child)
      → child < heap.length ∧ ∀ place other, ¬Child heap place other child)
    : Forest (heap.set address changed) := by
  have inside := (List.getElem?_eq_some_iff.mp found).1
  have either {place child : Nat} {other : Key}
      (isChild : Child (heap.set address changed) place other child)
      : Child heap place other child
        ∨ (place = address ∧ other = key) ∧ assigned = some (.ref child) := by
    rcases (child_set inside).mp isChild with ⟨rfl, refers⟩ | ⟨-, old⟩
    · rcases values _ _ refers with old | ⟨rfl, rfl⟩
      · exact .inl ⟨table, found, old⟩
      · exact .inr ⟨⟨rfl, rfl⟩, rfl⟩
    · exact .inl old
  constructor
  · intro place key other otherKey child first second
    rcases either first with old | ⟨⟨rfl, rfl⟩, rfl⟩
    · rcases either second with old' | ⟨-, rfl⟩
      · exact forest.unique _ _ _ _ _ old old'
      · exact absurd old ((orphan child rfl).2 _ _)
    · rcases either second with old' | ⟨⟨rfl, rfl⟩, -⟩
      · exact absurd old' ((orphan child rfl).2 _ _)
      · exact ⟨rfl, rfl⟩
  · intro place key child isChild
    rw [List.length_set]
    rcases either isChild with old | ⟨-, isNew⟩
    · exact forest.closed _ _ _ old
    · exact (orphan child isNew).1

end

end Objects

end N8n
