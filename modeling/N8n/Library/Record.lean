import Mathlib.Data.List.ReduceOption
import Mathlib.Data.String.Basic
import N8n.Library.Exec

/-! Records: entries in the order of their keys, so that two records with the same entries are
equal.
-/

namespace N8n.Record

variable {κ α β : Type*} [LinearOrder κ]

/-- The entries are in strict order. -/
def Sorted (entries : List (κ × α)) : Prop :=
  entries.Pairwise (fun first second => first.1 < second.1)

def lookup (entries : List (κ × α)) (key : κ) : Option α :=
  match entries with
  | [] => none
  | (other, value) :: rest => if other = key then some value else lookup rest key

def insert (entries : List (κ × α)) (key : κ) (value : α) : List (κ × α) :=
  match entries with
  | [] => [(key, value)]
  | (other, old) :: rest =>
      if key < other then (key, value) :: (other, old) :: rest
      else if key = other then (key, value) :: rest
      else (other, old) :: insert rest key value

/-- All entries, later ones over earlier ones. -/
def insertAll (entries assigned : List (κ × α)) : List (κ × α) :=
  assigned.foldl (fun entries entry => insert entries entry.1 entry.2) entries

@[simp] theorem lookup_nil (key : κ) : lookup ([] : List (κ × α)) key = none := rfl

variable {entries : List (κ × α)} {key : κ} {value : α}

theorem mem_of_lookup (found : lookup entries key = some value)
    : (key, value) ∈ entries := by
  induction entries with
  | nil => simp at found
  | cons entry rest ih =>
      obtain ⟨other, old⟩ := entry
      unfold lookup at found
      split at found
      · next same =>
          cases found
          simp [same]
      · exact List.mem_cons_of_mem _ (ih found)

theorem lookup_of_mem (sorted : Sorted entries) (member : (key, value) ∈ entries)
    : lookup entries key = some value := by
  induction entries with
  | nil => simp at member
  | cons entry rest ih =>
      obtain ⟨other, old⟩ := entry
      obtain ⟨first, restSorted⟩ := List.pairwise_cons.mp sorted
      unfold lookup
      rcases List.mem_cons.mp member with same | later
      · cases same
        simp
      · have less : other < key := first _ later
        rw [if_neg (ne_of_lt less)]
        exact ih restSorted later

theorem lookup_insert (entries : List (κ × α)) (key other : κ) (value : α)
    : lookup (insert entries key value) other
      = if key = other then some value else lookup entries other := by
  induction entries with
  | nil => rfl
  | cons entry rest ih =>
      obtain ⟨first, old⟩ := entry
      simp only [insert]
      split
      · rfl
      · next notLess =>
          split
          · next same =>
              subst same
              simp only [lookup]
              split <;> rfl
          · next different =>
              simp only [lookup, ih]
              split
              · next isFirst =>
                  subst isFirst
                  simp [different]
              · rfl

theorem mem_insert {entry : κ × α} (member : entry ∈ insert entries key value)
    : entry = (key, value) ∨ entry ∈ entries := by
  induction entries with
  | nil => exact .inl (List.mem_singleton.mp member)
  | cons first rest ih =>
      obtain ⟨other, old⟩ := first
      unfold insert at member
      split at member
      · exact List.mem_cons.mp member
      · split at member
        · rcases List.mem_cons.mp member with new | later
          · exact .inl new
          · exact .inr (.tail _ later)
        · rcases List.mem_cons.mp member with here | later
          · exact .inr (by simp [here])
          · rcases ih later with new | inRest
            · exact .inl new
            · exact .inr (.tail _ inRest)

theorem sorted_insert (sorted : Sorted entries) (key : κ) (value : α)
    : Sorted (insert entries key value) := by
  induction entries with
  | nil => exact List.pairwise_singleton _ _
  | cons entry rest ih =>
      obtain ⟨other, old⟩ := entry
      obtain ⟨first, restSorted⟩ := List.pairwise_cons.mp sorted
      unfold insert
      split
      · next less =>
          refine List.pairwise_cons.mpr ⟨?_, sorted⟩
          intro later member
          rcases List.mem_cons.mp member with rfl | inRest
          · exact less
          · exact lt_trans less (first later inRest)
      · next notLess =>
          split
          · next same =>
              subst same
              exact List.pairwise_cons.mpr ⟨first, restSorted⟩
          · next different =>
              refine List.pairwise_cons.mpr ⟨?_, ih restSorted⟩
              intro later member
              rcases mem_insert member with rfl | inRest
              · exact lt_of_le_of_ne (not_lt.mp notLess) (Ne.symm different)
              · exact first later inRest

/-- Records with the same entries are equal, by induction on the first one. -/
theorem ext {first second : List (κ × α)} (firstSorted : Sorted first)
    (secondSorted : Sorted second) (same : ∀ key, lookup first key = lookup second key)
    : first = second := by
  have mem_iff (entry : κ × α) : entry ∈ first ↔ entry ∈ second := by
    constructor
    · intro member
      exact mem_of_lookup (same entry.1 ▸ lookup_of_mem firstSorted member)
    · intro member
      exact mem_of_lookup ((same entry.1).symm ▸ lookup_of_mem secondSorted member)
  have keysDiffer {entries : List (κ × α)} (sorted : Sorted entries) : entries.Nodup := by
    refine List.Pairwise.imp ?_ sorted
    intro one other less same
    subst same
    exact lt_irrefl _ less
  have perm : first.Perm second :=
    (List.perm_ext_iff_of_nodup (keysDiffer firstSorted) (keysDiffer secondSorted)).mpr mem_iff
  exact List.Perm.eq_of_pairwise
    (fun _ _ _ _ less greater => absurd greater (lt_asymm less)) firstSorted secondSorted perm

theorem insert_insert (entries : List (κ × α)) (key : κ) (old new : α)
    : insert (insert entries key old) key new = insert entries key new := by
  induction entries with
  | nil => simp [insert]
  | cons entry rest ih =>
      obtain ⟨other, value⟩ := entry
      by_cases less : key < other
      · simp [insert, less]
      · by_cases same : key = other
        · simp [insert, same]
        · simp [insert, less, same, ih]

theorem sorted_insertAll (sorted : Sorted entries) (assigned : List (κ × α))
    : Sorted (insertAll entries assigned) := by
  induction assigned generalizing entries with
  | nil => exact sorted
  | cons entry rest ih => exact ih (sorted_insert sorted entry.1 entry.2)

variable {assigned : List (κ × α)}

theorem mem_of_lookup_insertAll (found : lookup (insertAll entries assigned) key = some value)
    : (key, value) ∈ assigned ∨ lookup entries key = some value := by
  induction assigned generalizing entries with
  | nil => exact .inr found
  | cons entry rest ih =>
      rcases ih found with later | here
      · exact .inl (.tail _ later)
      · rw [lookup_insert] at here
        split at here
        · next same =>
            cases here
            exact .inl (by simp [← same])
        · exact .inr here

theorem exists_lookup_insertAll
    (present : key ∈ assigned.map Prod.fst ∨ (lookup entries key).isSome)
    : ∃ value, lookup (insertAll entries assigned) key = some value := by
  induction assigned generalizing entries with
  | nil =>
      rcases present with assigned | before
      · simp at assigned
      · exact Option.isSome_iff_exists.mp before
  | cons entry rest ih =>
      apply ih
      rw [lookup_insert]
      rcases present with assigned | before
      · rcases List.mem_cons.mp assigned with here | later
        · exact .inr (by simp [← here])
        · exact .inl later
      · refine .inr ?_
        split
        · rfl
        · exact before

/-- A second list assigns the same keys. Where an entry of the first one is the last of its
key, the second one has the same value.
-/
theorem lookup_insertAll_of_forall₂ {others : List (κ × α)} {reassigned : List (κ × α)}
    (agree : List.Forall₂
      (fun first second => first.1 = second.1 ∧ (first = (key, value) → second.2 = value))
      assigned reassigned)
    (before : lookup entries key = some value → lookup others key = some value)
    (found : lookup (insertAll entries assigned) key = some value)
    : lookup (insertAll others reassigned) key = some value := by
  induction agree generalizing entries others with
  | nil => exact before found
  | cons head _ ih =>
      refine ih ?_ found
      intro here
      rw [lookup_insert] at here ⊢
      obtain ⟨sameKey, sameValue⟩ := head
      rw [← sameKey]
      split at here
      · next isKey =>
          rw [if_pos isKey, sameValue (Prod.ext isKey (Option.some.inj here))]
      · next isOther =>
          rw [if_neg isOther]
          exact before here

/-- Two lists that assign the same last values to the same keys build the same record. -/
theorem insertAll_eq_of_forall₂ {reassigned : List (κ × α)}
    (agree : List.Forall₂
      (fun first second =>
        first.1 = second.1
        ∧ (lookup (insertAll [] assigned) first.1 = some first.2 → second.2 = first.2))
      assigned reassigned)
    : insertAll [] reassigned = insertAll [] assigned := by
  have sameKeys : assigned.map Prod.fst = reassigned.map Prod.fst := by
    generalize lookup (insertAll [] assigned) = found at agree
    induction agree with
    | nil => rfl
    | cons head _ ih => simp [head.1, ih]
  have empty : Sorted ([] : List (κ × α)) := List.Pairwise.nil
  refine ext (sorted_insertAll empty _) (sorted_insertAll empty _) ?_
  intro key
  cases found : lookup (insertAll [] assigned) key with
  | some value =>
      refine lookup_insertAll_of_forall₂ ?_ (by simp) found
      refine agree.imp ?_
      intro first second same
      refine ⟨same.1, ?_⟩
      intro isLast
      obtain rfl := isLast
      exact same.2 found
  | none =>
      refine Option.eq_none_iff_forall_ne_some.mpr ?_
      intro value other
      rcases mem_of_lookup_insertAll other with member | before
      · have isKey : key ∈ assigned.map Prod.fst :=
          sameKeys ▸ List.mem_map_of_mem (f := Prod.fst) member
        obtain ⟨present, here⟩ := exists_lookup_insertAll (.inl isKey)
        rw [found] at here
        contradiction
      · simp at before

theorem insertAll_self (sorted : Sorted entries)
    : insertAll [] entries = entries := by
  refine ext (sorted_insertAll List.Pairwise.nil _) sorted ?_
  intro key
  cases found : lookup (insertAll [] entries) key with
  | some value =>
      rcases mem_of_lookup_insertAll found with member | before
      · exact (lookup_of_mem sorted member).symm
      · simp at before
  | none =>
      refine (Option.eq_none_iff_forall_ne_some.mpr ?_).symm
      intro value here
      have isKey : key ∈ entries.map Prod.fst :=
        List.mem_map_of_mem (f := Prod.fst) (mem_of_lookup here)
      obtain ⟨other, present⟩ := exists_lookup_insertAll (.inl isKey)
      rw [found] at present
      contradiction

section build

variable {ι Error : Type} {κ α : Type} [LinearOrder κ]

/-- The record of what the turns of a loop assign: each turn one entry or none. -/
def build (turn : ι → Except Error (Option (κ × α))) (items : List ι)
    : Except Error (List (κ × α)) :=
  (items.mapM turn).map (fun results => insertAll [] results.reduceOption)

variable {turn : ι → Except Error (Option (κ × α))} {items : List ι} {record : List (κ × α)}

theorem build_ok_iff
    : build turn items = .ok record
      ↔ ∃ results, List.Forall₂ (fun item result => turn item = .ok result) items results
          ∧ insertAll [] results.reduceOption = record := by
  constructor
  · intro built
    obtain ⟨results, turns, same⟩ := Exec.ok_of_map built
    exact ⟨results, Exec.mapM_ok_iff.mp turns, same⟩
  · rintro ⟨results, turns, same⟩
    simp [build, Exec.mapM_ok_iff.mpr turns, Except.map, same]

/-- A loop over a state that keeps a record, when each turn inserts what it assigns. -/
theorem foldlM_eq_build {State : Type} {step : State → ι → Except Error State}
    {kept : State → List (κ × α)}
    (inserts : ∀ state item, (step state item).map kept
      = (turn item).map (fun result => insertAll (kept state) result.toList))
    {state : State} (empty : kept state = [])
    : (items.foldlM step state).map kept = build turn items := by
  have fromState (state : State)
      : (items.foldlM step state).map kept
        = (items.mapM turn).map (fun results => insertAll (kept state) results.reduceOption) := by
    induction items generalizing state with
    | nil => rfl
    | cons item rest ih =>
        have first := inserts state item
        rw [List.foldlM_cons, List.mapM_cons]
        cases stepped : step state item with
        | error error =>
            rw [stepped] at first
            cases turned : turn item with
            | error other =>
                rw [turned] at first
                exact congrArg Except.error (Except.error.inj first)
            | ok result => simp [turned, Except.map] at first
        | ok next =>
            rw [stepped] at first
            cases turned : turn item with
            | error error => simp [turned, Except.map] at first
            | ok result =>
                rw [turned] at first
                have nextKept : kept next = insertAll (kept state) result.toList :=
                  Except.ok.inj first
                show (rest.foldlM step next).map kept = _
                rw [ih next, nextKept]
                generalize rest.mapM turn = results
                cases results with
                | error error => rfl
                | ok results => cases result <;> rfl
  rw [fromState state, empty]
  rfl

variable (built : build turn items = .ok record)

include built

theorem sorted_build : Sorted record := by
  obtain ⟨results, -, rfl⟩ := build_ok_iff.mp built
  exact sorted_insertAll List.Pairwise.nil _

theorem exists_turn_of_lookup {key : κ} {value : α} (found : lookup record key = some value)
    : ∃ item ∈ items, turn item = .ok (some (key, value)) := by
  obtain ⟨results, turns, rfl⟩ := build_ok_iff.mp built
  have assigned : some (key, value) ∈ results := by
    rcases mem_of_lookup_insertAll found with member | before
    · exact List.reduceOption_mem_iff.mp member
    · simp at before
  exact Exec.exists_item_of_result turns assigned

theorem exists_lookup_of_turn {item : ι} (member : item ∈ items) {key : κ} {value : α}
    (turned : turn item = .ok (some (key, value)))
    : ∃ final, lookup record key = some final := by
  obtain ⟨results, turns, rfl⟩ := build_ok_iff.mp built
  apply exists_lookup_insertAll
  left
  clear built
  induction turns with
  | nil => simp at member
  | @cons first result _ _ here _ ih =>
      rcases List.mem_cons.mp member with rfl | later
      · cases here.symm.trans turned
        simp
      · have inRest := ih later
        cases result <;> simp_all

/-- A loop over the same items builds the same record, when each turn assigns the same key,
and the same value where the record has kept it.
-/
theorem build_again {again : ι → Except Error (Option (κ × α))}
    (same : ∀ item ∈ items, ∀ result, turn item = .ok result →
      ∃ other, again item = .ok other
        ∧ other.map Prod.fst = result.map Prod.fst
        ∧ ∀ key value, result = some (key, value) → lookup record key = some value →
            other = some (key, value))
    : build again items = .ok record := by
  obtain ⟨results, turns, isRecord⟩ := build_ok_iff.mp built
  have reassigned
      : ∃ others, List.Forall₂ (fun item other => again item = .ok other) items others
          ∧ List.Forall₂
              (fun first second =>
                first.1 = second.1
                ∧ (lookup record first.1 = some first.2 → second.2 = first.2))
              results.reduceOption others.reduceOption := by
    clear built isRecord
    induction turns with
    | nil => exact ⟨[], .nil, .nil⟩
    | @cons item result _ _ here _ ih =>
        obtain ⟨others, later, agree⟩ :=
          ih (fun item member => same item (.tail _ member))
        obtain ⟨other, turned, sameKey, sameValue⟩ := same item (.head _) result here
        refine ⟨other :: others, .cons turned later, ?_⟩
        cases result with
        | none =>
            obtain rfl : other = none := by simpa using sameKey
            exact agree
        | some first =>
            obtain ⟨second, rfl, isKey⟩ : ∃ second, other = some second ∧ second.1 = first.1 := by
              simpa using sameKey
            refine .cons ⟨isKey.symm, ?_⟩ agree
            intro kept
            rw [Option.some.inj (sameValue first.1 first.2 rfl kept)]
  obtain ⟨others, returned, agree⟩ := reassigned
  refine build_ok_iff.mpr ⟨others, returned, ?_⟩
  subst isRecord
  exact insertAll_eq_of_forall₂ agree

end build

end N8n.Record
