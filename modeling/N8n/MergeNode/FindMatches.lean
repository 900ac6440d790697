import N8n.Library.Dict
import N8n.Library.Joins

/-! The items that the Merge node combines by the values of their fields
(`packages/nodes-base/nodes/Merge/v3/helpers/utils.ts`).
-/

namespace N8n.MergeNode

open Joins

structure PairToMatch where
  field1 : String
  field2 : String
  deriving DecidableEq, Repr

def checkMatchFieldsInput (data : List PairToMatch) : Except String (List PairToMatch) :=
  if data = [⟨"", ""⟩] then
    .error "You need to define at least one pair of fields in \"Fields to Match\" to match on"
  else
    match data.zipIdx.find? (fun entry => entry.1.field1 = "" || entry.1.field2 = "") with
    | some (pair, index) =>
        .error ("You need to define both fields in \"Fields to Match\" for pair "
          ++ toString (index + 1) ++ ",\n\t\t\t\t field 1 = '" ++ pair.field1
          ++ "'\n\t\t\t\t field 2 = '" ++ pair.field2 ++ "'")
    | none => .ok data

structure MatchFieldsOptions where
  joinMode : String
  outputDataFrom : String
  multipleMatches : String
  disableDotNotation : Bool
  fuzzyCompare : Bool
  deriving DecidableEq, Repr

/-- What the code uses of its libraries: a field by its name or by its path, which may be
`undefined`, and the comparison of two values.
-/
structure Fields (Item Value : Type) where
  property : Item → String → Option Value
  get : Item → String → Option Value
  fuzzyCompare : Bool → Option Value → Option Value → Bool

variable {Item Value : Type} (fields : Fields Item Value) (options : MatchFieldsOptions)

def fieldValue (item : Item) (field : String) : Option Value :=
  if options.disableDotNotation then fields.property item field else fields.get item field

/-- The lookup object. An assignment to `__proto__` gives it no property of its own. -/
def lookupOf (fieldsToMatch : List PairToMatch) (entry1 : Item) : Dict String (Option Value) :=
  fieldsToMatch.foldl (fun lookup matchCase =>
    if matchCase.field2 = "__proto__" then lookup
    else lookup.set matchCase.field2 (fieldValue fields options entry1 matchCase.field1))
    Dict.empty

/-- The loop over the keys of the lookup object. -/
def meetsLookup (lookup : Dict String (Option Value)) (entry2 : Item) : Bool :=
  lookup.entries.all (fun entry =>
    fields.fuzzyCompare options.fuzzyCompare entry.2 (fieldValue fields options entry2 entry.1))

def findAllMatches (data : List Item) (lookup : Dict String (Option Value))
    : List (Item × Nat) :=
  data.zipIdx.foldl (fun acc entry2 =>
    if meetsLookup fields options lookup entry2.1 then acc ++ [entry2] else acc) []

def findFirstMatch (data : List Item) (lookup : Dict String (Option Value))
    : List (Item × Nat) :=
  (data.zipIdx.find? (fun entry2 => meetsLookup fields options lookup entry2.1)).toList

def firstOnly : Bool := options.multipleMatches ≠ "" ∧ options.multipleMatches ≠ "all"

/-- Each match goes to an entry of its own. -/
def separate : Bool :=
  options.outputDataFrom = "both" || options.joinMode = "enrichInput1"
    || options.joinMode = "enrichInput2"

structure State (Item : Type) where
  matched : List (Item × List Item)
  unmatched1 : List Item
  matchedInInput2 : List Nat

/-- One turn of `matchesLoop`. -/
def matchEntry (data2 : List Item) (fieldsToMatch : List PairToMatch) (state : State Item)
    (entry1 : Item)
    : State Item :=
  let lookup := lookupOf fields options fieldsToMatch entry1
  if lookup.values.any Option.isNone then
    { state with unmatched1 := state.unmatched1 ++ [entry1] }
  else
    let foundedMatches :=
      if firstOnly options then findFirstMatch fields options data2 lookup
      else findAllMatches fields options data2 lookup
    let matches' := foundedMatches.map Prod.fst
    let state :=
      { state with matchedInInput2 := state.matchedInInput2 ++ foundedMatches.map Prod.snd }
    if matches'.isEmpty then { state with unmatched1 := state.unmatched1 ++ [entry1] }
    else if separate options then
      { state with matched := state.matched ++ matches'.map (fun found => (entry1, [found])) }
    else { state with matched := state.matched ++ [(entry1, matches')] }

def findMatches (input1 input2 : List Item) (fieldsToMatch : List PairToMatch) : Joined Item Item :=
  let state := input1.foldl (matchEntry fields options input2 fieldsToMatch) ⟨[], [], []⟩
  {
    matched := state.matched
    matched2 :=
      (input2.zipIdx.filter (fun entry => entry.2 ∈ state.matchedInInput2)).map Prod.fst
    unmatched1 := state.unmatched1
    unmatched2 :=
      (input2.zipIdx.filter (fun entry => entry.2 ∉ state.matchedInInput2)).map Prod.fst
  }

/-- Every pair has a defined value in the first item that equals the one in the second. -/
def isMatch (pairs : List PairToMatch) (e1 e2 : Item) : Bool :=
  pairs.all (fun pair =>
    match fieldValue fields options e1 pair.field1 with
    | none => false
    | some v1 =>
        fields.fuzzyCompare options.fuzzyCompare (some v1)
          (fieldValue fields options e2 pair.field2))

/-- The pairs that take part: the last one for each `field2`, and none for `__proto__`. -/
def keptPairs (pairs : List PairToMatch) : Dict String PairToMatch :=
  Dict.empty.insertAll PairToMatch.field2 (pairs.filter (fun pair => pair.field2 ≠ "__proto__"))

variable {fields options} {pairs : List PairToMatch} {entry1 : Item} {input1 input2 : List Item}

/-- The lookup object has the values of the kept pairs. -/
theorem lookupOf_eq
    : lookupOf fields options pairs entry1
      = (keptPairs pairs).mapValues (fun pair =>
          fieldValue fields options entry1 pair.field1) := by
  have loop (kept : Dict String PairToMatch)
      : pairs.foldl (fun lookup matchCase =>
            if matchCase.field2 = "__proto__" then lookup
            else lookup.set matchCase.field2 (fieldValue fields options entry1 matchCase.field1))
            (kept.mapValues (fun pair => fieldValue fields options entry1 pair.field1))
        = (kept.insertAll PairToMatch.field2
            (pairs.filter (fun pair => pair.field2 ≠ "__proto__"))).mapValues (fun pair =>
              fieldValue fields options entry1 pair.field1) := by
    induction pairs generalizing kept with
    | nil => rfl
    | cons pair rest ih =>
        by_cases isProto : pair.field2 = "__proto__"
        · rw [List.foldl_cons, if_pos isProto, ih, List.filter_cons_of_neg (by simp [isProto])]
        · rw [List.foldl_cons, if_neg isProto, ← Dict.mapValues_set, ih,
            List.filter_cons_of_pos (by simp [isProto])]
          rfl
  exact loop Dict.empty

/-- An item meets the lookup object, in which all values are defined, when the kept pairs match. -/
theorem meetsLookup_eq (e2 : Item)
    : (!(lookupOf fields options pairs entry1).values.any Option.isNone
        && meetsLookup fields options (lookupOf fields options pairs entry1) e2)
      = isMatch fields options (keptPairs pairs).values entry1 e2 := by
  have keyed : ∀ entry ∈ (keptPairs pairs).entries, entry.1 = entry.2.field2 :=
    fun entry member => (Dict.KeyedBy.empty.insertAll _) (Dict.mem_entries_iff.mp member)
  rw [lookupOf_eq, Bool.eq_iff_iff]
  simp only [Dict.values, Dict.mapValues, meetsLookup, isMatch, Bool.and_eq_true,
    Bool.not_eq_true', List.any_map, List.any_eq_false, List.all_map, List.all_eq_true,
    ← forall₂_and]
  refine forall₂_congr (fun entry member => ?_)
  simp only [Function.comp_apply, keyed entry member]
  cases fieldValue fields options entry1 entry.2.field1 <;> simp

/-! ### The loop -/

theorem findAllMatches_eq (lookup : Dict String (Option Value))
    : findAllMatches fields options input2 lookup
      = input2.zipIdx.filter (fun entry2 => meetsLookup fields options lookup entry2.1) := by
  have loop (data acc : List (Item × Nat))
      : data.foldl (fun acc entry2 =>
            if meetsLookup fields options lookup entry2.1 then acc ++ [entry2] else acc) acc
        = acc ++ data.filter (fun entry2 => meetsLookup fields options lookup entry2.1) := by
    induction data generalizing acc with
    | nil => simp
    | cons entry2 rest ih =>
        rw [List.foldl_cons, ih, List.filter_cons]
        split <;> simp
  exact loop _ []

/-- The items that the loop picks for an item. -/
def pickedFor (fields : Fields Item Value) (options : MatchFieldsOptions)
    (pairs : List PairToMatch) (input2 : List Item) (entry1 : Item)
    : List (Item × Nat) :=
  partners (firstOnly options) (isMatch fields options (keptPairs pairs).values) input2 entry1

/-- A turn of the loop adds the entries and the places of the picked items, or the item. -/
theorem matchEntry_eq (state : State Item) (entry1 : Item)
    : matchEntry fields options input2 pairs state entry1
      = let found := pickedFor fields options pairs input2 entry1
        ⟨state.matched ++ entries (separate options) entry1 (found.map Prod.fst),
          state.unmatched1 ++ if found.isEmpty then [entry1] else [],
          state.matchedInInput2 ++ found.map Prod.snd⟩ := by
  have meets (e2 : Item) : _ = isMatch fields options (keptPairs pairs).values entry1 e2 :=
    meetsLookup_eq e2
  unfold matchEntry
  cases isUndefined : (lookupOf fields options pairs entry1).values.any Option.isNone with
  | true =>
      have none : pickedFor fields options pairs input2 entry1 = [] := by
        rw [← List.isEmpty_iff, pickedFor, partners_isEmpty]
        simp [← meets, isUndefined]
      simp [isUndefined, none, entries]
  | false =>
      simp only [isUndefined, Bool.not_false, Bool.true_and] at meets
      have found
          : (if firstOnly options then
                findFirstMatch fields options input2 (lookupOf fields options pairs entry1)
              else findAllMatches fields options input2 (lookupOf fields options pairs entry1))
            = pickedFor fields options pairs input2 entry1 := by
        simp only [findFirstMatch, findAllMatches_eq, meets, pickedFor, partners,
          List.take_one, List.head?_filter]
      simp only [isUndefined, found, Bool.false_eq_true, if_false, entries]
      cases pickedFor fields options pairs input2 entry1 <;> cases separate options <;> simp

theorem findMatches_eq_join
    : findMatches fields options input1 input2 pairs
      = join (separate options) (firstOnly options) (isMatch fields options (keptPairs pairs).values)
          input1 input2 := by
  have loop (items : List Item) (state : State Item)
      : items.foldl (matchEntry fields options input2 pairs) state
        = let found := pickedFor fields options pairs input2
          ⟨state.matched
              ++ items.flatMap (fun e1 => entries (separate options) e1 ((found e1).map Prod.fst)),
            state.unmatched1 ++ items.filter (fun e1 => (found e1).isEmpty),
            state.matchedInInput2 ++ items.flatMap (fun e1 => (found e1).map Prod.snd)⟩ := by
    induction items generalizing state with
    | nil => simp
    | cons entry1 rest ih =>
        rw [List.foldl_cons, ih, matchEntry_eq]
        simp only [List.flatMap_cons, List.append_assoc, List.filter_cons]
        split <;> simp
  have isPicked (place : Nat)
      : decide (place ∈ input1.flatMap (fun e1 =>
            (pickedFor fields options pairs input2 e1).map Prod.snd))
        = picked (firstOnly options) (isMatch fields options (keptPairs pairs).values) input1 input2
            place := by
    rw [Bool.eq_iff_iff, decide_eq_true_eq]
    simp [picked, pickedFor]
  simp only [findMatches, loop, List.nil_append, decide_not, isPicked]
  rfl

/-- The result is that of the exact join exactly when no item that the kept pairs pick for an
item of the first input fails one of the other pairs.
-/
theorem findMatches_exact_iff (fields : Fields Item Value) (options : MatchFieldsOptions)
    (input1 input2 : List Item) (fieldsToMatch : List PairToMatch)
    : findMatches fields options input1 input2 fieldsToMatch
        = join (separate options) (firstOnly options) (isMatch fields options fieldsToMatch)
            input1 input2
      ↔ ∀ e1 ∈ input1,
          ∀ e2
            ∈ partners (firstOnly options) (isMatch fields options (keptPairs fieldsToMatch).values)
                input2 e1,
          isMatch fields options fieldsToMatch e1 e2.1 = true := by
  rw [findMatches_eq_join]
  refine join_eq_iff (fun e1 e2 accepts => ?_)
  rw [isMatch, List.all_eq_true] at accepts ⊢
  intro pair member
  rcases Dict.KeyedBy.empty.mem_of_mem_insertAll member with given | none
  · exact accepts pair (List.mem_of_mem_filter given)
  · exact absurd none List.not_mem_nil

/-- Items as lists of fields, which are compared strictly. -/
def plainFields : Fields (List (String × Nat)) Nat where
  property item field := item.lookup field
  get item field := item.lookup field
  fuzzyCompare _ v1 v2 := v1 = v2

/-- Two pairs name the same field of the second input, and the first of them does not match. -/
def sameField2 : List PairToMatch := [⟨"a", "x"⟩, ⟨"b", "x"⟩]

theorem not_exact_sameField2
    : checkMatchFieldsInput sameField2 = .ok sameField2
      ∧ isMatch plainFields ⟨"keepMatches", "input1", "all", false, false⟩ sameField2
          [("a", 1), ("b", 2)] [("x", 2)] = false
      ∧ (findMatches plainFields ⟨"keepMatches", "input1", "all", false, false⟩
          [[("a", 1), ("b", 2)]] [[("x", 2)]] sameField2).matched
        = [([("a", 1), ("b", 2)], [[("x", 2)]])] :=
  ⟨rfl, rfl, rfl⟩

end N8n.MergeNode
