import Mathlib.Data.List.ReduceOption
import N8n.DataProxy.GetPairedItem
import N8n.Engine.HandleRequest
import N8n.Library.SharedArrays

/-! The error items of a node moved to its error output
(`packages/core/src/execution-engine/workflow-execute.ts`,
`packages/workflow/src/node-helpers.ts`). An entry of an output without an item is `undefined`.
-/

namespace N8n.Engine.ErrorOutput

open DataProxy SharedArrays

/-! ### Outputs of a node -/

inductive OnError where
  | continueErrorOutput
  | continueRegularOutput
  | stopWorkflow
  deriving DecidableEq, Repr

/-- The types of the outputs as the type of the node lists them, or as its expression gives
them; none where that throws or gives no list.
-/
inductive OutputsDescription where
  | fixed (outputs : List NodeConnectionType)
  | evaluated (result : Option (List NodeConnectionType))
  deriving DecidableEq

def getNodeOutputs (description : OutputsDescription) (onError : Option OnError)
    : List NodeConnectionType :=
  let outputs :=
    match description with
    | .fixed outputs => outputs
    | .evaluated result => result.getD []
  if onError = some .continueErrorOutput then outputs ++ [.main] else outputs

/-! ### Items -/

structure OutputItem (Value : Type) where
  json : Dict String Value
  error : Option Value
  pairedItem : PairedItems
  deriving DecidableEq

/-- What the execution knows of earlier items: those that a reference refers to, and where a
paired item comes from. A trace of more than `callStack` steps throws.
-/
structure PairedInputs (Reference Value : Type) where
  proxy : WorkflowDataProxy Reference
  object : Reference → OutputItem Value
  source : Option ITaskDataConnectionsSource
  callStack : Nat

abbrev NodeSuccessData (Value : Type) := Places (Option (OutputItem Value))

section

variable {Reference Value : Type} [DecidableEq Reference] (isTruthy : Value → Bool)
  (inputs : PairedInputs Reference Value)

/-- An item with an error, or with no other properties than an error and its message. -/
def hasErrorData (item : OutputItem Value) : Bool :=
  let error := (item.json.get? "error").any isTruthy
  let message := (item.json.get? "message").any isTruthy
  item.error.any isTruthy || (error && item.json.keys.length = 1)
    || (error && message && item.json.keys.length = 2)

/-- The paired item that an item is traced by; none for a mere number. -/
def pairedItemData (item : OutputItem Value) : Option PairedItem :=
  match item.pairedItem with
  | .missing => none
  | .single (.number _) => none
  | .single (.data pairedItem) => some (.data pairedItem)
  | .array pairedItems => pairedItems.head?

def PairedItem.inputIndex : PairedItem → JsNumber
  | .number _ => 0
  | .data pairedItem =>
      match pairedItem.input with
      | some .nan => 0
      | some input => input
      | none => 0

/-- `$getPairedItem`; a reference to no item is `none`. -/
def PairedInputs.getPairedItem (sourceData : ISourceData) (pairedItem : PairedItem)
    : Except JsError (Option (OutputItem Value)) :=
  match inputs.proxy.getPairedItem sourceData.previousNode .getPairedItem inputs.callStack
    (some sourceData) pairedItem none with
  | none => .error .rangeError
  | some (.error .typeError) => .error .typeError
  | some (.error (.expressionError error)) =>
      .error (.error "ExpressionError" error.message error.options.description)
  | some (.ok found) => .ok (found.map inputs.object)

/-- `executionData.source.main[inputIndex]`. -/
def sourceOf (source : ITaskDataConnectionsSource) (pairedItem : PairedItem)
    : Except JsError ISourceData :=
  let inputIndex := PairedItem.inputIndex pairedItem
  match (source.get? .main).bind (fun main => JsNumber.read main inputIndex) with
  | some (.value sourceData) => .ok sourceData
  | _ => .error .typeError

/-- The item that is put on the error output, with the properties of its paired item. -/
def errorItem (item : OutputItem Value) : Except JsError (OutputItem Value) :=
  match inputs.source, pairedItemData item with
  | some source, some pairedItem => do
      let sourceData ← sourceOf source pairedItem
      match ← inputs.getPairedItem sourceData pairedItem with
      | none => throw .typeError
      | some constPairedItem =>
          return { item with json := spreadOver constPairedItem.json item.json }
  | _, _ => return item

/-- One turn of the loop over the items of an output. -/
def routeItem (routed : List (OutputItem Value) × List (OutputItem Value))
    (entry : Option (OutputItem Value))
    : Except JsError (List (OutputItem Value) × List (OutputItem Value)) :=
  match entry with
  | none => return routed
  | some item =>
      if hasErrorData isTruthy item then do
        let errorItem ← errorItem inputs item
        return (routed.1, routed.2 ++ [errorItem])
      else return (routed.1 ++ [item], routed.2)

/-- One turn of the loop over the outputs, with the error items so far. -/
def splitOutput (sofar : NodeSuccessData Value × List (OutputItem Value)) (outputIndex : Nat)
    : Except JsError (NodeSuccessData Value × List (OutputItem Value)) := do
  let items := sofar.1.contents outputIndex
  let (successItems, errorItems) ← items.foldlM (routeItem isTruthy inputs) ([], sofar.2)
  return (sofar.1.replace outputIndex (successItems.map some), errorItems)

/-- Without main outputs, the error items are put beside the outputs. -/
def handleNodeErrorOutput (description : OutputsDescription) (onError : Option OnError)
    (nodeSuccessData : NodeSuccessData Value)
    : Except JsError (NodeSuccessData Value) :=
  let mainOutputTypes := (getNodeOutputs description onError).filter (· = .main)
  match mainOutputTypes.length with
  | 0 => return nodeSuccessData
  | lastOutput + 1 => do
      let (nodeSuccessData, errorItems) ←
        (List.range lastOutput).foldlM (splitOutput isTruthy inputs) (nodeSuccessData, [])
      return nodeSuccessData.assign lastOutput (errorItems.map some)

/-! ### What is conserved -/

/-- The place of the error output among the main outputs. -/
def errorOutput (description : OutputsDescription) : Nat :=
  ((getNodeOutputs description (some .continueErrorOutput)).filter (· = .main)).length - 1

def outputItems (nodeSuccessData : NodeSuccessData Value) (outputIndex : Nat)
    : List (OutputItem Value) :=
  (nodeSuccessData.contents outputIndex).reduceOption

/-- The error items on all outputs but the last one, which are those before it and those that
the type of the node does not have.
-/
def errorItemsBeside (nodeSuccessData : NodeSuccessData Value) (lastOutput : Nat)
    : List (OutputItem Value) :=
  (List.range lastOutput
    ++ List.range' (lastOutput + 1) (nodeSuccessData.places.length - (lastOutput + 1))).flatMap
    (fun outputIndex => (outputItems nodeSuccessData outputIndex).filter (hasErrorData isTruthy))

/-- The same item, possibly with more properties. -/
structure OutputItem.Extends (item moved : OutputItem Value) : Prop where
  error : moved.error = item.error
  pairedItem : moved.pairedItem = item.pairedItem
  json : ∀ key value, item.json.get? key = some value → moved.json.get? key = some value

/-- Every item is still there, an error item on the last output and any other one where it
was, each output in its order.
-/
structure Conserved (before after : NodeSuccessData Value) (lastOutput : Nat) : Prop where
  kept
    : ∀ outputIndex, outputIndex ≠ lastOutput
        → outputItems after outputIndex
          = (outputItems before outputIndex).filter (fun item => !hasErrorData isTruthy item)
  moved
    : ∃ moved, List.Forall₂ OutputItem.Extends
          (errorItemsBeside isTruthy before lastOutput) moved
        ∧ (outputItems after lastOutput).Perm (outputItems before lastOutput ++ moved)
        ∧ (outputItems before lastOutput).Sublist (outputItems after lastOutput)
        ∧ moved.Sublist (outputItems after lastOutput)

/-- The split returns, and no item is lost or duplicated. -/
def ConservesItems (description : OutputsDescription) (nodeSuccessData : NodeSuccessData Value)
    : Prop :=
  ∃ after, handleNodeErrorOutput isTruthy inputs description (some .continueErrorOutput)
      nodeSuccessData = .ok after
    ∧ Conserved isTruthy nodeSuccessData after (errorOutput description)

/-- The item can be put on the error output: it is not traced, or its paired item is found. -/
def Resolvable (item : OutputItem Value) : Prop :=
  inputs.source = none ∨ pairedItemData item = none
    ∨ ∃ source pairedItem sourceData found, inputs.source = some source
      ∧ pairedItemData item = some pairedItem ∧ sourceOf source pairedItem = .ok sourceData
      ∧ inputs.getPairedItem sourceData pairedItem = .ok (some found)

/-- Nothing is in the way of the split at the error output. -/
structure Splittable (nodeSuccessData : NodeSuccessData Value) (lastOutput : Nat) : Prop where
  resolvable
    : ∀ outputIndex < lastOutput, ∀ item ∈ outputItems nodeSuccessData outputIndex,
        hasErrorData isTruthy item = true → Resolvable inputs item
  free : outputItems nodeSuccessData lastOutput = []
  beyond
    : ∀ outputIndex > lastOutput, ∀ item ∈ outputItems nodeSuccessData outputIndex,
        hasErrorData isTruthy item = false
  unshared
    : ∀ outputIndex < lastOutput, ∀ other ≠ outputIndex,
        nodeSuccessData.Shares outputIndex other → outputItems nodeSuccessData outputIndex = []

variable {isTruthy inputs}

/-! ### Error items -/

variable {key : String}

theorem get?_spread_of_not_mem {entries : List (String × Value)}
    (absent : key ∉ entries.map Prod.fst) (start : Dict String Value)
    : (entries.foldl (fun merged entry => merged.set entry.1 entry.2) start).get? key
        = start.get? key := by
  induction entries generalizing start with
  | nil => rfl
  | cons entry rest ih =>
      simp only [List.map_cons, List.mem_cons, not_or] at absent
      rw [List.foldl_cons, ih absent.2, Dict.get?_set_of_ne _ _ absent.1]

theorem get?_spread_of_mem {entries : List (String × Value)} {value : Value}
    (unique : (entries.map Prod.fst).Nodup) (member : (key, value) ∈ entries)
    (start : Dict String Value)
    : (entries.foldl (fun merged entry => merged.set entry.1 entry.2) start).get? key
        = some value := by
  induction entries generalizing start with
  | nil => contradiction
  | cons entry rest ih =>
      obtain ⟨apart, unique⟩ := List.nodup_cons.mp unique
      rw [List.foldl_cons]
      rcases List.mem_cons.mp member with rfl | later
      · rw [get?_spread_of_not_mem apart, Dict.get?_set_self]
      · exact ih unique later _

/-- The properties of the second object prevail. -/
theorem get?_spreadOver {first second : Dict String Value} {value : Value}
    (found : second.get? key = some value)
    : (spreadOver first second).get? key = some value :=
  get?_spread_of_mem second.nodup (Dict.mem_entries_iff.mpr found) first

theorem errorItem_extends {item moved : OutputItem Value}
    (returned : errorItem inputs item = .ok moved)
    : item.Extends moved := by
  unfold errorItem at returned
  split at returned
  · obtain ⟨sourceData, -, returned⟩ := Exec.ok_of_bind returned
    obtain ⟨found, -, returned⟩ := Exec.ok_of_bind returned
    cases found with
    | none => contradiction
    | some constPairedItem =>
        cases returned
        exact ⟨rfl, rfl, fun key value => get?_spreadOver⟩
  · cases returned
    exact ⟨rfl, rfl, fun key value => id⟩

theorem errorItem_ok_iff {item : OutputItem Value}
    : (∃ moved, errorItem inputs item = .ok moved) ↔ Resolvable inputs item := by
  unfold errorItem Resolvable
  cases inputs.source with
  | none => exact iff_of_true ⟨item, rfl⟩ (.inl rfl)
  | some source =>
      cases pairedItemData item with
      | none => exact iff_of_true ⟨item, rfl⟩ (.inr (.inl rfl))
      | some pairedItem =>
          constructor
          · rintro ⟨moved, returned⟩
            obtain ⟨sourceData, isSource, returned⟩ := Exec.ok_of_bind returned
            obtain ⟨found, isFound, returned⟩ := Exec.ok_of_bind returned
            cases found with
            | none => contradiction
            | some found =>
                exact .inr (.inr ⟨source, pairedItem, sourceData, found, rfl, rfl, isSource,
                  isFound⟩)
          · rintro (missing | missing | ⟨_, _, sourceData, found, sameSource, samePaired,
              isSource, isFound⟩)
            · contradiction
            · contradiction
            · cases sameSource
              cases samePaired
              simp only [isSource, isFound, bind, Except.bind]
              exact ⟨_, rfl⟩

/-! ### One output -/

/-- The items and those that they are moved as. -/
def Routed (inputs : PairedInputs Reference Value) (items moved : List (OutputItem Value))
    : Prop :=
  List.Forall₂ (fun item moved => errorItem inputs item = .ok moved) items moved

theorem route_ok {entries : List (Option (OutputItem Value))}
    {routed result : List (OutputItem Value) × List (OutputItem Value)}
    (returned : entries.foldlM (routeItem isTruthy inputs) routed = .ok result)
    : result.1
        = routed.1 ++ entries.reduceOption.filter (fun item => !hasErrorData isTruthy item)
      ∧ ∃ moved, result.2 = routed.2 ++ moved
        ∧ Routed inputs (entries.reduceOption.filter (hasErrorData isTruthy)) moved := by
  induction entries generalizing routed with
  | nil =>
      cases returned
      exact ⟨by simp, [], by simp, .nil⟩
  | cons entry rest ih =>
      rw [List.foldlM_cons] at returned
      obtain ⟨next, taken, returned⟩ := Exec.ok_of_bind returned
      obtain ⟨success, moved, errors, isRouted⟩ := ih returned
      cases entry with
      | none =>
          cases taken
          exact ⟨success, moved, errors, isRouted⟩
      | some item =>
          rw [List.reduceOption_cons_of_some]
          by_cases hasError : hasErrorData isTruthy item = true
          · simp only [routeItem, hasError, if_true] at taken
            obtain ⟨movedItem, isMoved, taken⟩ := Exec.ok_of_bind taken
            cases taken
            refine ⟨by simp [success, hasError], movedItem :: moved, by simp [errors], ?_⟩
            rw [List.filter_cons_of_pos hasError]
            exact .cons isMoved isRouted
          · simp only [routeItem, hasError] at taken
            cases taken
            refine ⟨by simp [success, hasError], moved, errors, ?_⟩
            rw [List.filter_cons_of_neg hasError]
            exact isRouted

theorem route_returns {entries : List (Option (OutputItem Value))}
    (resolvable
      : ∀ item ∈ entries.reduceOption, hasErrorData isTruthy item = true
          → Resolvable inputs item)
    (routed : List (OutputItem Value) × List (OutputItem Value))
    : ∃ result, entries.foldlM (routeItem isTruthy inputs) routed = .ok result := by
  induction entries generalizing routed with
  | nil => exact ⟨routed, rfl⟩
  | cons entry rest ih =>
      rw [List.foldlM_cons]
      cases entry with
      | none => exact ih resolvable routed
      | some item =>
          rw [List.reduceOption_cons_of_some, List.forall_mem_cons] at resolvable
          by_cases hasError : hasErrorData isTruthy item = true
          · obtain ⟨moved, isMoved⟩ := errorItem_ok_iff.mpr (resolvable.1 hasError)
            simp only [routeItem, hasError, if_true, isMoved, bind, Except.bind]
            exact ih resolvable.2 _
          · simp only [routeItem, hasError]
            exact ih resolvable.2 _

/-! ### The outputs in turn -/

/-- What an output is replaced by. -/
def successEntries (isTruthy : Value → Bool) (entries : List (Option (OutputItem Value)))
    : List (Option (OutputItem Value)) :=
  (entries.reduceOption.filter (fun item => !hasErrorData isTruthy item)).map some

/-- The error items that are found on an output when its turn comes. -/
def foundErrors (isTruthy : Value → Bool) (nodeSuccessData : NodeSuccessData Value)
    (outputIndex : Nat)
    : List (OutputItem Value) :=
  (nodeSuccessData.remaining outputIndex outputIndex).reduceOption.filter
    (hasErrorData isTruthy)

variable {nodeSuccessData : NodeSuccessData Value} {count : Nat}

theorem split_ok {result : NodeSuccessData Value × List (OutputItem Value)}
    (returned
      : (List.range count).foldlM (splitOutput isTruthy inputs) (nodeSuccessData, [])
        = .ok result)
    : result.1 = Places.replaceEach (successEntries isTruthy) nodeSuccessData count
      ∧ Routed inputs ((List.range count).flatMap (foundErrors isTruthy nodeSuccessData))
          result.2 := by
  induction count generalizing result with
  | zero =>
      cases returned
      exact ⟨rfl, .nil⟩
  | succ count ih =>
      rw [List.range_succ, List.foldlM_append] at returned
      obtain ⟨middle, early, returned⟩ := Exec.ok_of_bind returned
      obtain ⟨places, routed⟩ := ih early
      obtain ⟨last, turn, final⟩ := Exec.ok_of_bind returned
      cases final
      obtain ⟨⟨success, errors⟩, split, answered⟩ := Exec.ok_of_bind turn
      cases answered
      obtain ⟨isSuccess, moved, isErrors, isMoved⟩ := route_ok split
      have contents
          : middle.1.contents count = nodeSuccessData.remaining count count := by
        rw [places, Places.contents_replaceEach, if_neg (Nat.lt_irrefl count)]
      rw [contents] at isSuccess isMoved
      constructor
      · rw [Places.replaceEach_succ, ← places, contents]
        simp only [List.nil_append] at isSuccess
        rw [isSuccess]
        rfl
      · rw [List.range_succ, List.flatMap_append, isErrors, List.flatMap_singleton]
        exact List.rel_append routed isMoved

theorem split_returns (resolvable
      : ∀ outputIndex < count, ∀ item ∈ foundErrors isTruthy nodeSuccessData outputIndex,
          Resolvable inputs item)
    : ∃ result, (List.range count).foldlM (splitOutput isTruthy inputs) (nodeSuccessData, [])
        = .ok result := by
  induction count with
  | zero => exact ⟨_, rfl⟩
  | succ count ih =>
      obtain ⟨middle, early⟩ :=
        ih (fun outputIndex before => resolvable outputIndex (Nat.lt_succ_of_lt before))
      have contents
          : middle.1.contents count = nodeSuccessData.remaining count count := by
        rw [(split_ok early).1, Places.contents_replaceEach, if_neg (Nat.lt_irrefl count)]
      have each
          : ∀ item ∈ (middle.1.contents count).reduceOption,
              hasErrorData isTruthy item = true → Resolvable inputs item := by
        intro item member hasError
        rw [contents] at member
        exact resolvable count (Nat.lt_succ_self count) item
          (List.mem_filter.mpr ⟨member, hasError⟩)
      obtain ⟨result, split⟩ := route_returns each ([], middle.2)
      rw [List.range_succ, List.foldlM_append, early]
      simp only [List.foldlM_cons, List.foldlM_nil, splitOutput, split, bind, Except.bind]
      exact ⟨_, rfl⟩

theorem length_mainOutputs (description : OutputsDescription)
    : ((getNodeOutputs description (some .continueErrorOutput)).filter (· = .main)).length
        = errorOutput description + 1 := by
  unfold errorOutput getNodeOutputs
  simp

theorem reduceOption_map_some (items : List (OutputItem Value))
    : (items.map some).reduceOption = items := by
  simp [List.reduceOption, List.filterMap_map]

variable {description : OutputsDescription}

/-- What a split that returns leaves on the outputs. -/
theorem outputItems_after {after : NodeSuccessData Value}
    (returned
      : handleNodeErrorOutput isTruthy inputs description (some .continueErrorOutput)
          nodeSuccessData = .ok after)
    : ∃ moved, Routed inputs
          ((List.range (errorOutput description)).flatMap (foundErrors isTruthy nodeSuccessData))
          moved
        ∧ ∀ outputIndex, outputItems after outputIndex
          = if outputIndex = errorOutput description then moved
            else if outputIndex < errorOutput description then
              (nodeSuccessData.remaining outputIndex outputIndex).reduceOption.filter
                (fun item => !hasErrorData isTruthy item)
            else
              (nodeSuccessData.remaining (errorOutput description) outputIndex).reduceOption := by
  unfold handleNodeErrorOutput at returned
  simp only [length_mainOutputs] at returned
  obtain ⟨⟨split, moved⟩, looped, returned⟩ := Exec.ok_of_bind returned
  cases returned
  obtain ⟨places, routed⟩ := split_ok looped
  refine ⟨moved, routed, fun outputIndex => ?_⟩
  simp only at places
  unfold outputItems
  rw [Places.contents_assign, places, Places.contents_replaceEach]
  split
  · exact reduceOption_map_some _
  · split
    · exact reduceOption_map_some _
    · rfl

theorem exists_returned (resolvable
      : ∀ outputIndex < errorOutput description,
          ∀ item ∈ foundErrors isTruthy nodeSuccessData outputIndex, Resolvable inputs item)
    : ∃ after, handleNodeErrorOutput isTruthy inputs description (some .continueErrorOutput)
        nodeSuccessData = .ok after := by
  obtain ⟨result, looped⟩ := split_returns resolvable
  unfold handleNodeErrorOutput
  simp only [length_mainOutputs, looped, bind, Except.bind]
  exact ⟨_, rfl⟩

/-! ### Items on shared outputs -/

variable {outputIndex : Nat}

theorem reduceOption_remaining (unshared
      : ∀ earlier < count, nodeSuccessData.Shares earlier outputIndex
          → outputItems nodeSuccessData outputIndex = [])
    : (nodeSuccessData.remaining count outputIndex).reduceOption
        = outputItems nodeSuccessData outputIndex := by
  unfold Places.remaining
  split
  · next shared =>
      obtain ⟨earlier, before, shares⟩ := shared
      rw [unshared earlier before shares]
      rfl
  · rfl

theorem outputItems_of_shares {first second : Nat} (shares : nodeSuccessData.Shares first second)
    : outputItems nodeSuccessData first = outputItems nodeSuccessData second := by
  unfold outputItems
  rw [shares.contents]

theorem remaining_subset
    : ((nodeSuccessData.remaining count outputIndex).reduceOption).Sublist
        (outputItems nodeSuccessData outputIndex) := by
  unfold Places.remaining
  split
  · exact List.nil_sublist _
  · exact List.Sublist.refl _

/-- Where every part is at most another one, and the wholes are as long, all parts are equal. -/
theorem eq_of_length_flatMap {α : Type} {indices : List Nat} {small large : Nat → List α}
    (parts : ∀ index ∈ indices, (small index).Sublist (large index))
    : (indices.flatMap small).length ≤ (indices.flatMap large).length
      ∧ ((indices.flatMap large).length ≤ (indices.flatMap small).length
        → ∀ index ∈ indices, small index = large index) := by
  induction indices with
  | nil => simp
  | cons first rest ih =>
      obtain ⟨here, later⟩ := List.forall_mem_cons.mp parts
      obtain ⟨shorter, equal⟩ := ih later
      have shorterHere := here.length_le
      simp only [List.flatMap_cons, List.length_append, List.forall_mem_cons]
      refine ⟨by omega, fun enough => ⟨here.eq_of_length_le (by omega), equal (by omega)⟩⟩

/-! ### Conservation -/

theorem Splittable.conserves
    (splittable : Splittable isTruthy inputs nodeSuccessData (errorOutput description))
    : ConservesItems isTruthy inputs description nodeSuccessData := by
  have whole (count outputIndex : Nat) (within : count ≤ errorOutput description)
      (other : ∀ earlier < count, earlier ≠ outputIndex)
      : (nodeSuccessData.remaining count outputIndex).reduceOption
        = outputItems nodeSuccessData outputIndex := by
    refine reduceOption_remaining (fun earlier before shares => ?_)
    rw [← outputItems_of_shares shares]
    exact splittable.unshared earlier (Nat.lt_of_lt_of_le before within) outputIndex
      (other earlier before).symm shares
  have found (outputIndex : Nat) (before : outputIndex < errorOutput description)
      : foundErrors isTruthy nodeSuccessData outputIndex
        = (outputItems nodeSuccessData outputIndex).filter (hasErrorData isTruthy) := by
    unfold foundErrors
    rw [whole outputIndex outputIndex before.le (fun _ earlier => Nat.ne_of_lt earlier)]
  have resolvable
      : ∀ outputIndex < errorOutput description,
          ∀ item ∈ foundErrors isTruthy nodeSuccessData outputIndex,
            Resolvable inputs item := by
    intro outputIndex before item member
    rw [found outputIndex before] at member
    exact splittable.resolvable outputIndex before item (List.mem_of_mem_filter member)
      (List.of_mem_filter member)
  obtain ⟨after, returned⟩ := exists_returned resolvable
  obtain ⟨moved, routed, items⟩ := outputItems_after returned
  refine ⟨after, returned, ⟨fun outputIndex other => ?_, moved, ?_, ?_⟩⟩
  · rw [items, if_neg other]
    split
    · next before =>
        rw [whole outputIndex outputIndex before.le (fun _ earlier => Nat.ne_of_lt earlier)]
    · next notBefore =>
        have after : outputIndex > errorOutput description := by omega
        rw [whole (errorOutput description) outputIndex le_rfl
          (fun _ earlier => Nat.ne_of_lt (Nat.lt_trans earlier after))]
        symm
        rw [List.filter_eq_self]
        intro item member
        simp [splittable.beyond outputIndex after item member]
  · have beside
        : errorItemsBeside isTruthy nodeSuccessData (errorOutput description)
          = (List.range (errorOutput description)).flatMap
              (foundErrors isTruthy nodeSuccessData) := by
      unfold errorItemsBeside
      rw [List.flatMap_append]
      have none : (List.range' (errorOutput description + 1)
          (nodeSuccessData.places.length - (errorOutput description + 1))).flatMap
            (fun outputIndex =>
              (outputItems nodeSuccessData outputIndex).filter (hasErrorData isTruthy))
          = [] := by
        rw [List.flatMap_eq_nil_iff]
        intro outputIndex member
        rw [List.filter_eq_nil_iff]
        intro item there
        rw [splittable.beyond outputIndex (by simp at member; omega) item there]
        simp
      rw [none, List.append_nil]
      apply List.flatMap_congr
      intro outputIndex member
      exact (found outputIndex (List.mem_range.mp member)).symm
    rw [beside]
    exact routed.imp (fun _ _ => errorItem_extends)
  · rw [items, if_pos rfl, splittable.free]
    exact ⟨List.Perm.refl _, List.nil_sublist _, List.Sublist.refl _⟩

theorem outputItems_of_length_le (outside : nodeSuccessData.places.length ≤ outputIndex)
    : outputItems nodeSuccessData outputIndex = [] := by
  have missing : nodeSuccessData.held outputIndex = .undefined := by
    simp [Places.held, Slot.read, List.getD_eq_getElem?_getD, outside]
  unfold outputItems Places.contents
  rw [missing]
  rfl

theorem eq_nil_of_filters {items : List (OutputItem Value)}
    (errors : items.filter (hasErrorData isTruthy) = [])
    (others : items.filter (fun item => !hasErrorData isTruthy item) = [])
    : items = [] := by
  rw [List.filter_eq_nil_iff] at errors others
  refine List.eq_nil_iff_forall_not_mem.mpr (fun item member => ?_)
  have other := others item member
  simp [errors item member] at other

/-- Where an array is found empty because an earlier output shares it, it was empty before. -/
theorem outputItems_of_remaining {earlier : Nat} (before : earlier < count)
    (shares : nodeSuccessData.Shares earlier outputIndex)
    (errors
      : (nodeSuccessData.remaining count outputIndex).reduceOption.filter
          (hasErrorData isTruthy)
        = (outputItems nodeSuccessData outputIndex).filter (hasErrorData isTruthy))
    (others
      : (nodeSuccessData.remaining count outputIndex).reduceOption.filter
          (fun item => !hasErrorData isTruthy item)
        = (outputItems nodeSuccessData outputIndex).filter
            (fun item => !hasErrorData isTruthy item))
    : outputItems nodeSuccessData outputIndex = [] := by
  have emptied : nodeSuccessData.remaining count outputIndex = [] :=
    if_pos ⟨earlier, before, shares⟩
  rw [emptied] at errors others
  exact eq_nil_of_filters errors.symm others.symm

theorem Splittable.of_conserves
    (conserves : ConservesItems isTruthy inputs description nodeSuccessData)
    : Splittable isTruthy inputs nodeSuccessData (errorOutput description) := by
  obtain ⟨after, returned, conserved⟩ := conserves
  obtain ⟨movedItems, routed, items⟩ := outputItems_after returned
  obtain ⟨moved, extended, permutes, -, -⟩ := conserved.moved
  rw [items, if_pos rfl] at permutes
  unfold errorItemsBeside at extended
  rw [List.flatMap_append] at extended
  have parts : ∀ outputIndex ∈ List.range (errorOutput description),
      (foundErrors isTruthy nodeSuccessData outputIndex).Sublist
        ((outputItems nodeSuccessData outputIndex).filter (hasErrorData isTruthy)) :=
    fun outputIndex _ => remaining_subset.filter _
  -- counting the error items leaves none for the outputs that are not split
  obtain ⟨shorter, equal⟩ := eq_of_length_flatMap parts
  have routedLength := routed.length_eq
  have extendedLength := extended.length_eq
  have permutedLength := permutes.length_eq
  rw [List.length_append] at extendedLength permutedLength
  have free : outputItems nodeSuccessData (errorOutput description) = [] :=
    List.length_eq_zero_iff.mp (by omega)
  have found := equal (by omega)
  have noneBeyond := List.length_eq_zero_iff.mp
    (by omega : (List.flatMap (fun outputIndex =>
        (outputItems nodeSuccessData outputIndex).filter (hasErrorData isTruthy))
      (List.range' (errorOutput description + 1)
        (nodeSuccessData.places.length - (errorOutput description + 1)))).length = 0)
  have beyond (outputIndex : Nat) (after : outputIndex > errorOutput description)
      : (outputItems nodeSuccessData outputIndex).filter (hasErrorData isTruthy) = [] := by
    by_cases inside : outputIndex < nodeSuccessData.places.length
    · refine List.flatMap_eq_nil_iff.mp noneBeyond outputIndex ?_
      simp
      omega
    · rw [outputItems_of_length_le (Nat.not_lt.mp inside)]
      rfl
  have emptied (earlier outputIndex : Nat) (before : earlier < outputIndex)
      (inside : outputIndex < errorOutput description)
      (shares : nodeSuccessData.Shares earlier outputIndex)
      : outputItems nodeSuccessData outputIndex = [] := by
    refine outputItems_of_remaining before shares (found outputIndex (by simpa using inside)) ?_
    rw [← conserved.kept outputIndex (Nat.ne_of_lt inside), items,
      if_neg (Nat.ne_of_lt inside), if_pos inside]
  refine ⟨?_, free, ?_, ?_⟩
  · intro outputIndex before item member hasError
    have there : item ∈ foundErrors isTruthy nodeSuccessData outputIndex := by
      rw [found outputIndex (by simpa using before)]
      exact List.mem_filter.mpr ⟨member, hasError⟩
    have inAll
        : item ∈ (List.range (errorOutput description)).flatMap
            (foundErrors isTruthy nodeSuccessData) :=
      List.mem_flatMap.mpr ⟨outputIndex, List.mem_range.mpr before, there⟩
    obtain ⟨moved, -, isMoved⟩ := Exec.exists_item_of_result routed.flip inAll
    exact errorItem_ok_iff.mp ⟨moved, isMoved⟩
  · intro outputIndex after item member
    rw [Bool.eq_false_iff]
    exact List.filter_eq_nil_iff.mp (beyond outputIndex after) item member
  · intro outputIndex before other differ shares
    rw [outputItems_of_shares shares]
    rcases Nat.lt_trichotomy other (errorOutput description) with inside | isLast | outside
    · rcases Nat.lt_or_gt_of_ne differ with earlier | later
      · rw [← outputItems_of_shares shares]
        exact emptied other outputIndex earlier before shares.symm
      · exact emptied outputIndex other later inside shares
    · rw [isLast]
      exact free
    · have others := conserved.kept other (Nat.ne_of_gt outside)
      have gone : nodeSuccessData.remaining (errorOutput description) other = [] :=
        if_pos ⟨outputIndex, before, shares⟩
      rw [items, if_neg (Nat.ne_of_gt outside), if_neg (Nat.not_lt.mpr outside.le), gone] at others
      exact eq_nil_of_filters (beyond other outside) others.symm

/-- The split conserves all items exactly if the error output is free, no array with items is
at another output too, and each error item that is moved can be traced.
-/
theorem conservesItems_iff (description : OutputsDescription)
    (nodeSuccessData : NodeSuccessData Value)
    : ConservesItems isTruthy inputs description nodeSuccessData
      ↔ Splittable isTruthy inputs nodeSuccessData (errorOutput description) :=
  ⟨Splittable.of_conserves, Splittable.conserves⟩

end

/-- A node that no other node has fed. -/
def startInputs : PairedInputs Nat String where
  proxy := {
    nodes := .empty
    pinData := none
    runData := none
    pairedItem := fun _ => .missing
    runIndex := 0
    itemIndex := 0
    activeNodeName := "Node"
    mode := .manual
    numberText := fun _ => "0"
  }
  object _ := ⟨.empty, none, .missing⟩
  source := none
  callStack := 0

/-- An item that the node itself puts on its error output is overwritten. -/
theorem not_conservesItems_errorOutput
    : ¬ ConservesItems (fun value : String => value ≠ "") startInputs (.fixed [.main])
        {
          arrays :=
            [[some ⟨Dict.empty.set "name" "first", none, .missing⟩],
              [some ⟨Dict.empty.set "name" "second", none, .missing⟩]]
          places := [.value (.given 0), .value (.given 1)]
        } := by
  intro conserves
  have free := (Splittable.of_conserves conserves).free
  revert free
  decide

end N8n.Engine.ErrorOutput
