import Mathlib.Data.List.Dedup
import Mathlib.Data.List.Sort
import Mathlib.Data.Prod.Lex
import Mathlib.Data.List.Lex
import N8n.Library.JsonText

/-! The checksum of a workflow (`packages/workflow/src/workflow-checksum.ts`), up to the text
that is hashed.
-/

namespace N8n.WorkflowChecksum

open JsonText

def CHECKSUM_FIELDS : List Text :=
  ["name", "description", "nodes", "connections", "settings", "meta", "pinData", "isArchived",
    "activeVersionId"].map ofString

/-- The accessor that every plain object inherits. -/
def proto : Text := ofString "__proto__"

/-- The fields of a workflow; `none` stands for `undefined`. -/
abbrev WorkflowSnapshot := Text → Option Json

/-- The place of a key among the array indexes, if it is one. -/
def arrayIndex? (key : Text) : Option Nat :=
  let index := key.foldl (fun value unit => value * 10 + (unit - 48)) 0
  if ofString (toString index) = key ∧ index < 0xFFFFFFFF then some index else none

/-- The place of a key that is assigned in sorted order: array indexes come first, by value, and
the other keys stay sorted by their units.
-/
def place (key : Text) : ℕ ×ₗ List ℕ := toLex ((arrayIndex? key).getD 0x100000000, key)

def sortedKeys (entries : List (Text × Json)) : List Text :=
  (entries.map Prod.fst).dedup.insertionSort (fun key next => place key ≤ place next)

/-- The property of the fresh object that an assignment to the key makes: one to `__proto__`
makes none.
-/
def assigned (values : List (Text × Json)) (key : Text) : Option Json :=
  if key = proto then none else values.lookup key

mutual

def sortObjectKeys : Json → Json
  | .null => .null
  | .boolean b => .boolean b
  | .number n => .number n
  | .string s => .string s
  | .array items => .array (sortItems items)
  | .object entries =>
      .object ((sortedKeys entries).filterMap (fun key =>
        (assigned (sortValues entries) key).map (fun value => (key, value))))

def sortItems : List Json → List Json
  | [] => []
  | item :: rest => sortObjectKeys item :: sortItems rest

def sortValues : List (Text × Json) → List (Text × Json)
  | [] => []
  | (key, value) :: rest => (key, sortObjectKeys value) :: sortValues rest

end

def checksumPayload (workflow : WorkflowSnapshot) : Json :=
  .object (CHECKSUM_FIELDS.filterMap (fun field =>
    (workflow field).map (fun value => (field, value))))

/-- The text that `calculateWorkflowChecksum` hashes. -/
def serializedPayload (workflow : WorkflowSnapshot) : Text :=
  print (sortObjectKeys (checksumPayload workflow))

/-! ### Values without an order of keys -/

inductive Segment where
  | index (index : Nat)
  | key (key : Text)
  deriving DecidableEq

/-- A value without what is in it. -/
inductive Kind where
  | null
  | boolean (b : Bool)
  | number (n : NumberText)
  | string (s : Text)
  | array (length : Nat)
  | object

def kind : Json → Kind
  | .null => .null
  | .boolean b => .boolean b
  | .number n => .number n
  | .string s => .string s
  | .array items => .array items.length
  | .object _ => .object

/-- What a value has at a path. -/
def atPath : List Segment → Json → Option Kind
  | [], value => some (kind value)
  | .index index :: rest, .array items => items[index]?.bind (atPath rest)
  | .key key :: rest, .object entries => (entries.lookup key).bind (atPath rest)
  | _, _ => none

/-- The snapshots have the same checksum fields, up to the order of the keys of objects. -/
def Agree (a b : WorkflowSnapshot) : Prop :=
  ∀ field ∈ CHECKSUM_FIELDS, ∀ path, (a field).bind (atPath path) = (b field).bind (atPath path)

/-- As `Agree`, but for what is below a key `__proto__`. -/
def AgreeBesideProto (a b : WorkflowSnapshot) : Prop :=
  ∀ field ∈ CHECKSUM_FIELDS, ∀ path, .key proto ∉ path →
    (a field).bind (atPath path) = (b field).bind (atPath path)

/-! ### Sorted values -/

theorem sortItems_eq (items : List Json) : sortItems items = items.map sortObjectKeys := by
  induction items with
  | nil => rfl
  | cons item rest ih => rw [sortItems, ih, List.map_cons]

theorem lookup_cons {α : Type} (key : Text) (entry : Text × α) (rest : List (Text × α))
    : (entry :: rest).lookup key = if key = entry.1 then some entry.2 else rest.lookup key := by
  rw [List.lookup_cons]
  by_cases same : key = entry.1
  · simp [same]
  · rw [if_neg same, beq_false_of_ne same]

theorem lookup_sortValues (entries : List (Text × Json)) (key : Text)
    : (sortValues entries).lookup key = (entries.lookup key).map sortObjectKeys := by
  induction entries with
  | nil => rfl
  | cons entry rest ih =>
      rw [sortValues, lookup_cons, lookup_cons, ih]
      split <;> rfl

theorem mem_sortedKeys {entries : List (Text × Json)} {key : Text}
    : key ∈ sortedKeys entries ↔ (entries.lookup key).isSome := by
  rw [sortedKeys, (List.perm_insertionSort ..).mem_iff, List.mem_dedup]
  induction entries with
  | nil => simp
  | cons entry rest ih =>
      rw [List.map_cons, List.mem_cons, ih, lookup_cons]
      split
      · next same => simp [same]
      · next differ => simp [differ]

theorem lookup_filterMap {α : Type} (keys : List Text) (value : Text → Option α) (key : Text)
    : (keys.filterMap (fun other => (value other).map (fun v => (other, v)))).lookup key
      = if key ∈ keys then value key else none := by
  induction keys with
  | nil => rfl
  | cons first rest ih =>
      rw [List.filterMap_cons]
      cases found : value first with
      | none =>
          rw [Option.map_none, ih]
          by_cases same : key = first <;> simp [same, found]
      | some v =>
          rw [Option.map_some, lookup_cons, ih]
          by_cases same : key = first <;> simp [same, found]

theorem lookup_sortedEntries (entries : List (Text × Json)) (key : Text)
    : ((sortedKeys entries).filterMap (fun other =>
          (assigned (sortValues entries) other).map (fun value => (other, value)))).lookup key
      = if key = proto then none else (entries.lookup key).map sortObjectKeys := by
  rw [lookup_filterMap, assigned, lookup_sortValues]
  split
  · rfl
  · next absent =>
      rw [mem_sortedKeys, Option.not_isSome_iff_eq_none] at absent
      simp [absent]

/-- Below a key `__proto__` a sorted value has nothing; elsewhere it has what the value has. -/
theorem atPath_sortObjectKeys (path : List Segment) (value : Json)
    : atPath path (sortObjectKeys value)
      = if .key proto ∈ path then none else atPath path value := by
  induction path generalizing value with
  | nil => cases value <;> simp [atPath, sortObjectKeys, kind, sortItems_eq]
  | cons segment rest ih =>
      cases segment with
      | index index =>
          cases value with
          | array items =>
              rw [sortObjectKeys, atPath, sortItems_eq, List.getElem?_map]
              cases found : items[index]? <;> simp [atPath, found, ih]
          | _ => simp [atPath, sortObjectKeys]
      | key key =>
          cases value with
          | object entries =>
              rw [sortObjectKeys, atPath, lookup_sortedEntries]
              by_cases isProto : key = proto
              · simp [isProto]
              · cases found : entries.lookup key <;>
                  simp [atPath, found, ih, isProto, Ne.symm isProto]
          | _ => simp [atPath, sortObjectKeys]

theorem sortedKeys_eq (as bs : List (Text × Json))
    (same : ∀ key, key ≠ proto → ((as.lookup key).isSome ↔ (bs.lookup key).isSome))
    : (sortedKeys as).filter (· ≠ proto) = (sortedKeys bs).filter (· ≠ proto) := by
  have distinct (entries : List (Text × Json)) : (sortedKeys entries).Nodup :=
    (List.perm_insertionSort ..).nodup_iff.mpr (List.nodup_dedup _)
  have ordered (entries : List (Text × Json))
      : (sortedKeys entries).Pairwise (fun key next => place key ≤ place next) :=
    List.pairwise_insertionSort _ _
  refine List.Perm.eq_of_pairwise ?_ ((ordered as).filter _) ((ordered bs).filter _) ?_
  · intro key next _ _ before after
    exact (Prod.ext_iff.mp (toLex.injective (le_antisymm before after))).2
  · refine (List.perm_ext_iff_of_nodup ((distinct as).filter _) ((distinct bs).filter _)).mpr ?_
    intro key
    simp only [List.mem_filter, mem_sortedKeys, decide_eq_true_eq]
    exact ⟨fun ⟨present, other⟩ => ⟨(same key other).mp present, other⟩,
      fun ⟨present, other⟩ => ⟨(same key other).mpr present, other⟩⟩

theorem sizeOf_lt_of_lookup {entries : List (Text × Json)} {key : Text} {value : Json}
    (found : entries.lookup key = some value)
    : sizeOf value < sizeOf entries := by
  obtain ⟨before, after, split, -⟩ := List.lookup_eq_some_iff.mp found
  have inside := List.sizeOf_lt_of_mem (show (key, value) ∈ entries by simp [split])
  simp only [Prod.mk.sizeOf_spec] at inside
  omega

theorem assigned_sortValues (entries : List (Text × Json)) {key : Text} (other : key ≠ proto)
    : assigned (sortValues entries) key = (entries.lookup key).map sortObjectKeys := by
  rw [assigned, if_neg other, lookup_sortValues]

theorem sortObjectKeys_eq (a b : Json)
    (same : ∀ path, .key proto ∉ path → atPath path a = atPath path b)
    : sortObjectKeys a = sortObjectKeys b := by
  have kinds : kind a = kind b := Option.some.inj (same [] List.not_mem_nil)
  cases a with
  | array items =>
      cases b with
      | array others =>
          rw [sortObjectKeys, sortObjectKeys, sortItems_eq, sortItems_eq]
          congr 1
          refine List.ext_getElem (by simpa [kind] using kinds) (fun index left right => ?_)
          rw [List.getElem_map, List.getElem_map]
          rw [List.length_map] at left right
          have smaller := List.sizeOf_lt_of_mem (List.getElem_mem left)
          refine sortObjectKeys_eq items[index] others[index] (fun path absent => ?_)
          simpa [atPath, left, right] using same (.index index :: path) (by simpa using absent)
      | _ => simp [kind] at kinds
  | object entries =>
      cases b with
      | object others =>
          have below (key) (other : key ≠ proto) (path) (absent : .key proto ∉ path)
              : (entries.lookup key).bind (atPath path) = (others.lookup key).bind (atPath path) :=
            same (.key key :: path) (by simpa [Ne.symm other] using absent)
          have keys := sortedKeys_eq entries others (fun key other => by
            have root := below key other [] List.not_mem_nil
            cases left : entries.lookup key <;> cases right : others.lookup key <;>
              simp_all [atPath])
          have beside (all : List (Text × Json))
              : (sortedKeys all).filterMap (fun key =>
                  (assigned (sortValues all) key).map (fun value => (key, value)))
                = ((sortedKeys all).filter (· ≠ proto)).filterMap (fun key =>
                  ((all.lookup key).map sortObjectKeys).map (fun value => (key, value))) := by
            rw [List.filterMap_filter]
            refine List.filterMap_congr (fun key _ => ?_)
            by_cases isProto : key = proto
            · simp [isProto, assigned]
            · simp [isProto, assigned_sortValues all isProto]
          rw [sortObjectKeys, sortObjectKeys, beside, beside, keys]
          congr 1
          refine List.filterMap_congr (fun key member => ?_)
          have other : key ≠ proto := by simpa using (List.mem_filter.mp member).2
          have values := below key other
          cases left : entries.lookup key with
          | none =>
              have root := values [] List.not_mem_nil
              cases right : others.lookup key with
              | none => rfl
              | some next => simp [left, right, atPath] at root
          | some value =>
              have smaller := sizeOf_lt_of_lookup left
              cases right : others.lookup key with
              | none => simpa [left, right, atPath] using values [] List.not_mem_nil
              | some next =>
                  have sorted : sortObjectKeys value = sortObjectKeys next :=
                    sortObjectKeys_eq value next
                      (fun path absent => by simpa [left, right] using values path absent)
                  simp only [Option.map_some, sorted]
      | _ => simp [kind] at kinds
  | _ => cases b <;> simp_all [kind]
termination_by sizeOf a
decreasing_by all_goals subst_vars; simp; omega

theorem sortObjectKeys_eq_iff {a b : Json}
    : sortObjectKeys a = sortObjectKeys b
      ↔ ∀ path, .key proto ∉ path → atPath path a = atPath path b := by
  refine ⟨fun sorted path absent => ?_, sortObjectKeys_eq a b⟩
  have observed := congrArg (atPath path) sorted
  rwa [atPath_sortObjectKeys, atPath_sortObjectKeys, if_neg absent, if_neg absent] at observed

/-! ### Checksums -/

theorem proto_not_mem : proto ∉ CHECKSUM_FIELDS := by decide

theorem serializedPayload_eq_iff {a b : WorkflowSnapshot}
    : serializedPayload a = serializedPayload b ↔ AgreeBesideProto a b := by
  have field (workflow : WorkflowSnapshot) (key : Text) (path : List Segment)
      : atPath (.key key :: path) (checksumPayload workflow)
        = (if key ∈ CHECKSUM_FIELDS then workflow key else none).bind (atPath path) := by
    rw [checksumPayload, atPath, lookup_filterMap]
  rw [serializedPayload, serializedPayload, print_injective.eq_iff, sortObjectKeys_eq_iff]
  constructor
  · intro same key member path absent
    have noProto : proto ≠ key := fun isProto => proto_not_mem (isProto ▸ member)
    simpa [field, member] using same (.key key :: path) (by simp [noProto, absent])
  · intro agree path absent
    match path with
    | [] => rfl
    | .index _ :: _ => rfl
    | .key key :: rest =>
        rw [field, field]
        split
        · next member => exact agree key member rest (fun inside => absent (.tail _ inside))
        · rfl

/-- Sorting the keys is a normal form, and the checksum does not see whether they are sorted. -/
theorem sortObjectKeys_normalises
    : (∀ value, sortObjectKeys (sortObjectKeys value) = sortObjectKeys value)
      ∧ ∀ workflow : WorkflowSnapshot,
          serializedPayload (fun field => (workflow field).map sortObjectKeys)
            = serializedPayload workflow := by
  have unseen (value : Json) (path : List Segment) (absent : .key proto ∉ path)
      : atPath path (sortObjectKeys value) = atPath path value := by
    rw [atPath_sortObjectKeys, if_neg absent]
  refine ⟨fun value => sortObjectKeys_eq _ value (unseen value), fun workflow => ?_⟩
  refine serializedPayload_eq_iff.mpr (fun field _ path absent => ?_)
  cases workflow field with
  | none => rfl
  | some value => exact unseen value path absent

/-- The checksum tells two snapshots apart exactly as it should, when these are no snapshots that
differ below keys `__proto__` alone.
-/
theorem serializedPayload_seesChange_iff (a b : WorkflowSnapshot)
    : (serializedPayload a = serializedPayload b ↔ Agree a b)
      ↔ (AgreeBesideProto a b → Agree a b) := by
  rw [serializedPayload_eq_iff]
  exact ⟨Iff.mp, fun beside => ⟨beside, fun agree field member path _ => agree field member path⟩⟩

/-- A workflow whose metadata has one property, under the key `__proto__`. -/
def withProto (b : Bool) : WorkflowSnapshot := fun field =>
  if field = ofString "meta" then some (.object [(proto, .boolean b)]) else none

/-- The change of a value under the key `__proto__` is not seen. -/
theorem not_seesChange_proto
    : serializedPayload (withProto true) = serializedPayload (withProto false)
      ∧ ofString "meta" ∈ CHECKSUM_FIELDS
      ∧ (withProto true (ofString "meta")).bind (atPath [.key proto]) = some (.boolean true)
      ∧ (withProto false (ofString "meta")).bind (atPath [.key proto]) = some (.boolean false) :=
  ⟨rfl, by decide, rfl, rfl⟩

end N8n.WorkflowChecksum
