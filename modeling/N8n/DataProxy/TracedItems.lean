import N8n.DataProxy.GetPairedItem
import N8n.Library.Consensus

/-! What the tracing of paired items finds: the chains of recorded links, and the items of the
destination that they lead to.
-/

namespace N8n.DataProxy

open WorkflowDataProxy

variable {Item : Type}

/-! ### Chains of recorded links -/

/-- An item index of the output that a source names, with the node it was reached from. -/
structure Place where
  source : Option ISourceData
  item : JsNumber
  nodeBeforeLast : Option String
  deriving DecidableEq

/-- Where a call of `getPairedItem` starts. -/
def startingPlace (incomingSourceData : Option ISourceData) (initialPairedItem : PairedItem)
    (nodeBeforeLast : Option String)
    : Place :=
  let (pairedItem, sourceData) := normalizeInputs initialPairedItem incomingSourceData
  ⟨sourceData, pairedItem.item, nodeBeforeLast⟩

namespace WorkflowDataProxy

/-- The items of the output that the source names. -/
def outputOf (proxy : WorkflowDataProxy Item) (source : ISourceData) : Option (List Item) :=
  (proxy.getNodeOutput (proxy.getTaskData source) source none).toOption

def itemAt (proxy : WorkflowDataProxy Item) (source : ISourceData) (item : JsNumber)
    : Option Item :=
  (proxy.outputOf source).bind (fun outputData => JsNumber.read outputData item)

/-- The sources of the inputs of the run that the source names. -/
def inputSources (proxy : WorkflowDataProxy Item) (source : ISourceData)
    : List (Option ISourceData) :=
  ((proxy.getTaskData source).map (fun taskData => taskData.source)).getD []

/-- The paired item is one of an input of the run. -/
def IsOfInput (proxy : WorkflowDataProxy Item) (source : ISourceData)
    (pairedItem : IPairedItemData)
    : Prop :=
  (pairedItem.input.getD 0).atLeast (proxy.inputSources source).length = false

instance (proxy : WorkflowDataProxy Item) (source : ISourceData) (pairedItem : IPairedItemData)
    : Decidable (proxy.IsOfInput source pairedItem) :=
  inferInstanceAs (Decidable (_ = _))

/-- Where a paired item of the run comes from. -/
def pairedPlace (proxy : WorkflowDataProxy Item) (source : ISourceData)
    (pairedItem : IPairedItemData)
    : Place :=
  ⟨pairedItem.sourceOverwrite
      <|> (JsNumber.read (proxy.inputSources source) (pairedItem.input.getD 0)).join,
    pairedItem.item, some source.previousNode⟩

/-- A paired item of the item at the place leads to the next one; no link leads on from the
destination.
-/
def Follows (proxy : WorkflowDataProxy Item) (destinationNodeName : String)
    (place next : Place)
    : Prop :=
  ∃ source item pairedItem,
    place.source = some source
    ∧ source.previousNode ≠ destinationNodeName
    ∧ proxy.itemAt source place.item = some item
    ∧ pairedItem ∈ normalizePairedItem (proxy.pairedItem item)
    ∧ proxy.IsOfInput source pairedItem
    ∧ next = proxy.pairedPlace source pairedItem

/-- A chain of links leads from one place to the other. -/
def Chain (proxy : WorkflowDataProxy Item) (destinationNodeName : String)
    : Place → Place → Prop :=
  Relation.ReflTransGen (proxy.Follows destinationNodeName)

/-- The place is the one of an item of the destination. -/
def DestinationItem (proxy : WorkflowDataProxy Item) (destinationNodeName : String)
    (place : Place) (item : Item)
    : Prop :=
  ∃ source,
    place.source = some source
    ∧ source.previousNode = destinationNodeName
    ∧ proxy.itemAt source place.item = some item

/-- Some chain leads from the place to the item of the destination. -/
def LeadsTo (proxy : WorkflowDataProxy Item) (destinationNodeName : String)
    (place : Place) (item : Item)
    : Prop :=
  ∃ last,
    proxy.Chain destinationNodeName place last
    ∧ proxy.DestinationItem destinationNodeName last item

def LeadsOnlyTo (proxy : WorkflowDataProxy Item) (destinationNodeName : String)
    (place : Place) (item : Item)
    : Prop :=
  proxy.LeadsTo destinationNodeName place item
  ∧ ∀ other, proxy.LeadsTo destinationNodeName place other → other = item

/-- A call returns the one item that its chains lead to, or throws an expression error. -/
structure TracesCorrectly [DecidableEq Item] (proxy : WorkflowDataProxy Item)
    (destinationNodeName : String) (usedMethodName : PairedItemMethod)
    (incomingSourceData : Option ISourceData) (initialPairedItem : PairedItem)
    (nodeBeforeLast : Option String) : Prop where
  returned
    : ∀ fuel result,
        proxy.getPairedItem destinationNodeName usedMethodName fuel incomingSourceData
          initialPairedItem nodeBeforeLast = some (.ok result)
        → ∃ item, result = some item
            ∧ proxy.LeadsOnlyTo destinationNodeName
                (startingPlace incomingSourceData initialPairedItem nodeBeforeLast) item
  thrown
    : ∀ fuel thrown,
        proxy.getPairedItem destinationNodeName usedMethodName fuel incomingSourceData
          initialPairedItem nodeBeforeLast = some (.error thrown)
        → ∃ error, thrown = .expressionError error

/-- The call of `getPairedItem` for a place. -/
def TracesCorrectlyAt [DecidableEq Item] (proxy : WorkflowDataProxy Item)
    (destinationNodeName : String) (usedMethodName : PairedItemMethod) (place : Place)
    : Prop :=
  proxy.TracesCorrectly destinationNodeName usedMethodName place.source (.number place.item)
    place.nodeBeforeLast

/-- What the tracing relies on at a place. -/
structure Traceable (proxy : WorkflowDataProxy Item) (destinationNodeName : String)
    (place : Place) : Prop where
  /-- A paired item that leads to another node names an item there. -/
  hasItem
    : ∀ source outputData,
        place.source = some source
        → source.previousNode ≠ destinationNodeName
        → proxy.outputOf source = some outputData
        → (JsNumber.read outputData place.item).isSome
  /-- Where an item has paired items, one of them is of an input of the run. -/
  hasInput
    : ∀ source item,
        place.source = some source
        → source.previousNode ≠ destinationNodeName
        → proxy.itemAt source place.item = some item
        → normalizePairedItem (proxy.pairedItem item) ≠ []
        → ∃ pairedItem ∈ normalizePairedItem (proxy.pairedItem item),
            proxy.IsOfInput source pairedItem
  /-- An index into the output of the destination is a whole number and not negative, or it is
  not below the length.
  -/
  isIndex
    : ∀ source outputData,
        place.source = some source
        → source.previousNode = destinationNodeName
        → proxy.outputOf source = some outputData
        → place.item.place?.isSome ∨ place.item.atLeast outputData.length = true
  /-- A link that leads to several items does not stand beside links that lead to one item
  only, all to the same one.
  -/
  agrees
    : ∀ several first second single item,
        proxy.Follows destinationNodeName place several
        → proxy.LeadsTo destinationNodeName several first
        → proxy.LeadsTo destinationNodeName several second
        → first ≠ second
        → proxy.Follows destinationNodeName place single
        → proxy.LeadsOnlyTo destinationNodeName single item
        → ∃ other differing,
            proxy.Follows destinationNodeName place other
            ∧ proxy.LeadsOnlyTo destinationNodeName other differing
            ∧ differing ≠ item

/-- The items of the main outputs of a run. -/
def mainItems (task : SourcedTaskData Item) : List Item :=
  ((task.data.bind (fun data => data.get? .main)).getD []).flatMap (fun
    | .value items => items
    | _ => [])

/-- The sources that a run records, for its inputs or for its items. -/
def recordedSources (proxy : WorkflowDataProxy Item) (task : SourcedTaskData Item)
    : List ISourceData :=
  task.source.filterMap id
  ++ (mainItems task).flatMap (fun item =>
      (normalizePairedItem (proxy.pairedItem item)).filterMap (fun pairedItem =>
        pairedItem.sourceOverwrite))

/-- The run that a source names records the other one. -/
def SourceLink (proxy : WorkflowDataProxy Item) (source other : ISourceData) : Prop :=
  ∃ task, proxy.getTaskData source = some task ∧ other ∈ proxy.recordedSources task

/-- No chain of source links leads back to where it started. -/
def Acyclic (proxy : WorkflowDataProxy Item) : Prop :=
  ∀ source, ¬Relation.TransGen proxy.SourceLink source source

/-! ### The tracing as a search -/

def nextPlaces (proxy : WorkflowDataProxy Item) (source : ISourceData) (item : Item)
    : List Place :=
  (normalizePairedItem (proxy.pairedItem item)).filterMap (fun pairedItem =>
    if proxy.IsOfInput source pairedItem then some (proxy.pairedPlace source pairedItem)
    else none)

/-- What is found at a place before any link is followed. -/
def visit (proxy : WorkflowDataProxy Item) (destinationNodeName : String)
    (usedMethodName : PairedItemMethod) (place : Place)
    : Visit Place (Option Item) Thrown :=
  match place.source with
  | none =>
      .failed (.expressionError
        (proxy.createPairedItemNotFound destinationNodeName place.nodeBeforeLast))
  | some source =>
      match proxy.getNodeOutput (proxy.getTaskData source) source place.nodeBeforeLast with
      | .error error => .failed (.expressionError error)
      | .ok outputData =>
          if source.previousNode = destinationNodeName then
            if place.item.atLeast outputData.length then
              .failed (.expressionError
                (proxy.createMissingPairedItemError source.previousNode usedMethodName))
            else .found (JsNumber.read outputData place.item)
          else
            match JsNumber.read outputData place.item with
            | none => .failed .typeError
            | some item =>
                if normalizePairedItem (proxy.pairedItem item) = [] then
                  .failed (.expressionError
                    (proxy.createMissingPairedItemError source.previousNode usedMethodName))
                else .onward (proxy.nextPlaces source item)

def tracing (proxy : WorkflowDataProxy Item) (destinationNodeName : String)
    (usedMethodName : PairedItemMethod)
    : BackwardSearch Place (Option Item) Thrown where
  visit := proxy.visit destinationNodeName usedMethodName
  noLinks := fun _ => .typeError
  ambiguous := fun place =>
    .expressionError (proxy.createPairedItemMultipleItemsFound destinationNodeName place.item)
  valid := fun result => result.isSome
  proper := fun thrown => ∃ error, thrown = .expressionError error

end WorkflowDataProxy

/-- Collecting the results of the links that there are, one list for each paired item. -/
theorem collect_eq {α β γ δ : Type} {link : α → Option β} {f : β → Option γ}
    {body : α → Option (List γ)} {settle : List γ → δ} {tail : List (List γ) → Option δ}
    (bodies : ∀ item,
      body item
      = match link item with
        | some next => (f next).map (fun result => [result])
        | none => some [])
    (tails : ∀ results, tail results = some (settle results.flatten)) (items : List α)
    : (items.mapM body).bind tail = ((items.filterMap link).mapM f).map settle := by
  have collected
      : (items.mapM body).map List.flatten = (items.filterMap link).mapM f := by
    induction items with
    | nil => rfl
    | cons first rest ih =>
        rw [List.filterMap_cons, List.mapM_cons, bodies first]
        cases link first with
        | none =>
            rw [← ih]
            cases rest.mapM body <;> rfl
        | some next =>
            simp only [List.mapM_cons, ← ih]
            cases f next with
            | none => rfl
            | some result => cases rest.mapM body <;> rfl
  rw [← collected]
  cases items.mapM body with
  | none => rfl
  | some results => exact tails results

/-- The error for no match at all is never thrown. -/
theorem settleResults_eq [DecidableEq Item] (noMatch multipleMatches : ExpressionError)
    (results : List (Except Thrown (Option Item)))
    : settleResults noMatch multipleMatches results
      = BackwardSearch.consensus .typeError (.expressionError multipleMatches) results := by
  unfold settleResults
  unfold BackwardSearch.consensus
  cases matched : results.filterMap Except.toOption with
  | nil =>
      have allFail : results.all (fun result => !result.isOk) = true := by
        rw [List.all_eq_true]
        rintro (error | result) member
        · rfl
        · have found := BackwardSearch.mem_filterMap_toOption.mpr member
          simp [matched] at found
      rw [if_pos allFail]
      cases results.head? with
      | none => rfl
      | some result => cases result <;> rfl
  | cons first rest =>
      have found : .ok first ∈ results := BackwardSearch.mem_filterMap_toOption.mp (by simp [matched])
      have notAll : ¬results.all (fun result => !result.isOk) = true := by
        rw [List.all_eq_true]
        intro allFail
        have failed := allFail _ found
        simp [Except.isOk, Except.toBool] at failed
      rw [if_neg notAll]

variable [DecidableEq Item] {proxy : WorkflowDataProxy Item} {destinationNodeName : String}
  {usedMethodName : PairedItemMethod} {place : Place}

omit [DecidableEq Item] in
theorem startingPlace_paired (source : ISourceData) (pairedItem : IPairedItemData)
    (input : Option JsNumber)
    : startingPlace
          (pairedItem.sourceOverwrite
            <|> (JsNumber.read (proxy.inputSources source) (pairedItem.input.getD 0)).join)
          (.data { pairedItem with input }) (some source.previousNode)
      = proxy.pairedPlace source pairedItem := by
  simp only [startingPlace, normalizeInputs, pairedPlace]
  cases pairedItem.sourceOverwrite <;> rfl

/-- The call of the source's function is the search from its starting place. -/
theorem getPairedItem_eq (fuel : Nat) (incomingSourceData : Option ISourceData)
    (initialPairedItem : PairedItem) (nodeBeforeLast : Option String)
    : proxy.getPairedItem destinationNodeName usedMethodName fuel incomingSourceData
          initialPairedItem nodeBeforeLast
      = (proxy.tracing destinationNodeName usedMethodName).trace fuel
          (startingPlace incomingSourceData initialPairedItem nodeBeforeLast) := by
  induction fuel generalizing incomingSourceData initialPairedItem nodeBeforeLast with
  | zero => rfl
  | succ fuel ih =>
      simp only [getPairedItem, startingPlace, BackwardSearch.trace, tracing, visit]
      generalize normalizeInputs initialPairedItem incomingSourceData = inputs
      obtain ⟨pairedItem, sourceData⟩ := inputs
      cases sourceData with
      | none => rfl
      | some source =>
          simp only
          cases proxy.getNodeOutput (proxy.getTaskData source) source nodeBeforeLast with
          | error error => rfl
          | ok outputData =>
              simp only
              split
              · split <;> rfl
              · cases JsNumber.read outputData pairedItem.item with
                | none => rfl
                | some item =>
                    simp only
                    split
                    · rfl
                    · refine collect_eq ?_ (fun results => by rw [settleResults_eq]) _
                      intro nextPairedItem
                      by_cases ofInput : proxy.IsOfInput source nextPairedItem
                      · rw [if_neg (by rw [Bool.not_eq_true]; exact ofInput), if_pos ofInput, ih]
                        exact congrArg
                          (fun place =>
                            ((proxy.tracing destinationNodeName usedMethodName).trace fuel
                              place).map (fun result => [result]))
                          (startingPlace_paired source nextPairedItem _)
                      · rw [if_pos (by rw [← Bool.not_eq_false]; exact ofInput), if_neg ofInput]

/-! ### What the search finds, in the terms of the run data -/

variable {source : ISourceData} {outputData : List Item}

omit [DecidableEq Item] in
theorem getNodeOutput_eq_ok {nodeCause : Option String}
    : proxy.getNodeOutput (proxy.getTaskData source) source nodeCause = .ok outputData
      ↔ proxy.outputOf source = some outputData := by
  unfold outputOf getNodeOutput
  extract_lets outputIndex outputs
  rcases outputs with - | (- | - | found)
  · simp [Except.toOption]
  · simp [Except.toOption]
  · simp [Except.toOption]
  · simp [Except.toOption]

variable {index : JsNumber}

omit [DecidableEq Item] in
theorem itemAt_eq (output : proxy.outputOf source = some outputData)
    : proxy.itemAt source index = JsNumber.read outputData index := by
  simp [itemAt, output]

variable {item : Item}

omit [DecidableEq Item] in
theorem exists_output_of_itemAt (found : proxy.itemAt source index = some item)
    : ∃ outputData, proxy.outputOf source = some outputData
        ∧ JsNumber.read outputData index = some item := by
  simpa [itemAt, Option.bind_eq_some_iff] using found

omit [DecidableEq Item] in
theorem visit_of_output (isSource : place.source = some source)
    (output : proxy.outputOf source = some outputData)
    : proxy.visit destinationNodeName usedMethodName place
      = if source.previousNode = destinationNodeName then
          if place.item.atLeast outputData.length then
            .failed (.expressionError
              (proxy.createMissingPairedItemError source.previousNode usedMethodName))
          else .found (JsNumber.read outputData place.item)
        else
          match JsNumber.read outputData place.item with
          | none => .failed .typeError
          | some item =>
              if normalizePairedItem (proxy.pairedItem item) = [] then
                .failed (.expressionError
                  (proxy.createMissingPairedItemError source.previousNode usedMethodName))
              else .onward (proxy.nextPlaces source item) := by
  unfold visit
  simp only [isSource, getNodeOutput_eq_ok.mpr output]

omit [DecidableEq Item] in
/-- Without an output, the visit fails with an expression error. -/
theorem visit_of_no_output
    (missing : ∀ source, place.source = some source → proxy.outputOf source = none)
    : ∃ error,
        proxy.visit destinationNodeName usedMethodName place
        = .failed (.expressionError error) := by
  unfold visit
  cases isSource : place.source with
  | none => exact ⟨_, rfl⟩
  | some source =>
      simp only
      cases output
        : proxy.getNodeOutput (proxy.getTaskData source) source place.nodeBeforeLast with
      | error error => exact ⟨error, rfl⟩
      | ok outputData =>
          have found := getNodeOutput_eq_ok.mp output
          rw [missing source isSource] at found
          contradiction

omit [DecidableEq Item] in
/-- A place has an output, or the visit of it fails with an expression error. -/
theorem output_or_failed (proxy : WorkflowDataProxy Item) (destinationNodeName : String)
    (usedMethodName : PairedItemMethod) (place : Place)
    : (∃ source outputData,
          place.source = some source ∧ proxy.outputOf source = some outputData)
      ∨ ∃ error,
          proxy.visit destinationNodeName usedMethodName place
          = .failed (.expressionError error) := by
  by_cases found : ∃ source outputData,
      place.source = some source ∧ proxy.outputOf source = some outputData
  · exact .inl found
  · refine .inr (visit_of_no_output ?_)
    intro source isSource
    rw [Option.eq_none_iff_forall_not_mem]
    intro outputData output
    exact found ⟨source, outputData, isSource, output⟩

variable {next : Place}

omit [DecidableEq Item] in
theorem mem_nextPlaces
    : next ∈ proxy.nextPlaces source item
      ↔ ∃ pairedItem ∈ normalizePairedItem (proxy.pairedItem item),
          proxy.IsOfInput source pairedItem ∧ next = proxy.pairedPlace source pairedItem := by
  unfold nextPlaces
  rw [List.mem_filterMap]
  refine exists_congr (fun pairedItem => and_congr_right' ?_)
  by_cases ofInput : proxy.IsOfInput source pairedItem
  · simp [ofInput, eq_comm]
  · simp [ofInput]

omit [DecidableEq Item] in
theorem links_iff
    : (proxy.tracing destinationNodeName usedMethodName).Links place next
      ↔ proxy.Follows destinationNodeName place next := by
  constructor
  · rintro ⟨links, onward, member⟩
    change proxy.visit destinationNodeName usedMethodName place = _ at onward
    rcases output_or_failed proxy destinationNodeName usedMethodName place
      with ⟨source, outputData, isSource, output⟩ | ⟨error, failed⟩
    · rw [visit_of_output isSource output] at onward
      split at onward
      · split at onward <;> contradiction
      · next elsewhere =>
          split at onward
          · contradiction
          · next item isItem =>
              split at onward
              · contradiction
              · obtain rfl := Visit.onward.inj onward
                obtain ⟨pairedItem, isPaired, ofInput, same⟩ := mem_nextPlaces.mp member
                exact ⟨source, item, pairedItem, isSource, elsewhere,
                  (itemAt_eq output).trans isItem, isPaired, ofInput, same⟩
    · cases failed.symm.trans onward
  · rintro ⟨source, item, pairedItem, isSource, elsewhere, isItem, isPaired, ofInput, same⟩
    obtain ⟨outputData, output, found⟩ := exists_output_of_itemAt isItem
    refine ⟨proxy.nextPlaces source item, ?_,
      mem_nextPlaces.mpr ⟨pairedItem, isPaired, ofInput, same⟩⟩
    change proxy.visit destinationNodeName usedMethodName place = _
    rw [visit_of_output isSource output, if_neg elsewhere, found]
    exact if_neg (List.ne_nil_of_mem isPaired)

omit [DecidableEq Item] in
theorem reaches_iff {last : Place}
    : (proxy.tracing destinationNodeName usedMethodName).Reaches place last
      ↔ proxy.Chain destinationNodeName place last := by
  unfold BackwardSearch.Reaches Chain
  rw [show (proxy.tracing destinationNodeName usedMethodName).Links
    = proxy.Follows destinationNodeName from by
      funext place next
      exact propext links_iff]

variable {result : Option Item}

omit [DecidableEq Item] in
theorem visit_eq_found
    : proxy.visit destinationNodeName usedMethodName place = .found result
      ↔ ∃ source outputData,
          place.source = some source ∧ proxy.outputOf source = some outputData
          ∧ source.previousNode = destinationNodeName
          ∧ place.item.atLeast outputData.length = false
          ∧ JsNumber.read outputData place.item = result := by
  constructor
  · intro isFound
    rcases output_or_failed proxy destinationNodeName usedMethodName place
      with ⟨source, outputData, isSource, output⟩ | ⟨error, failed⟩
    · rw [visit_of_output isSource output] at isFound
      split at isFound
      · next atDestination =>
          split at isFound
          · contradiction
          · next below =>
              exact ⟨source, outputData, isSource, output, atDestination,
                by simpa using below, Visit.found.inj isFound⟩
      · split at isFound
        · contradiction
        · split at isFound <;> contradiction
    · cases failed.symm.trans isFound
  · rintro ⟨source, outputData, isSource, output, atDestination, below, same⟩
    rw [visit_of_output isSource output, if_pos atDestination, below, same]
    rfl

omit [DecidableEq Item] in
theorem visit_found_iff
    : proxy.visit destinationNodeName usedMethodName place = .found (some item)
      ↔ proxy.DestinationItem destinationNodeName place item := by
  rw [visit_eq_found]
  constructor
  · rintro ⟨source, outputData, isSource, output, atDestination, -, found⟩
    exact ⟨source, isSource, atDestination, (itemAt_eq output).trans found⟩
  · rintro ⟨source, isSource, atDestination, isItem⟩
    obtain ⟨outputData, output, found⟩ := exists_output_of_itemAt isItem
    exact ⟨source, outputData, isSource, output, atDestination,
      JsNumber.below_of_read found, found⟩

omit [DecidableEq Item] in
theorem hits_iff
    : (proxy.tracing destinationNodeName usedMethodName).Hits place result
      ↔ ∃ item, result = some item ∧ proxy.LeadsTo destinationNodeName place item := by
  constructor
  · rintro ⟨isValid, last, reaches, found⟩
    obtain ⟨item, rfl⟩ := Option.isSome_iff_exists.mp isValid
    exact ⟨item, rfl, last, reaches_iff.mp reaches, visit_found_iff.mp found⟩
  · rintro ⟨item, rfl, last, chain, isItem⟩
    exact ⟨rfl, last, reaches_iff.mpr chain, visit_found_iff.mpr isItem⟩

omit [DecidableEq Item] in
theorem hitsOnly_iff
    : (proxy.tracing destinationNodeName usedMethodName).HitsOnly place result
      ↔ ∃ item, result = some item ∧ proxy.LeadsOnlyTo destinationNodeName place item := by
  constructor
  · rintro ⟨hits, only⟩
    obtain ⟨item, rfl, leads⟩ := hits_iff.mp hits
    refine ⟨item, rfl, leads, ?_⟩
    intro other leadsOther
    exact Option.some.inj (only (some other) (hits_iff.mpr ⟨other, rfl, leadsOther⟩))
  · rintro ⟨item, rfl, leads, only⟩
    refine ⟨hits_iff.mpr ⟨item, rfl, leads⟩, ?_⟩
    intro other hitsOther
    obtain ⟨otherItem, rfl, leadsOther⟩ := hits_iff.mp hitsOther
    rw [only otherItem leadsOther]

theorem traces_iff
    : (proxy.tracing destinationNodeName usedMethodName).Traces place
      ↔ proxy.TracesCorrectlyAt destinationNodeName usedMethodName place := by
  have start : startingPlace place.source (.number place.item) place.nodeBeforeLast = place := by
    simp [startingPlace, normalizeInputs]
  constructor
  · intro traces
    constructor
    · intro fuel result ended
      rw [getPairedItem_eq, start] at ended
      rw [start]
      exact hitsOnly_iff.mp ((traces fuel _ ended).ok result rfl)
    · intro fuel thrown ended
      rw [getPairedItem_eq, start] at ended
      exact (traces fuel _ ended).error thrown rfl
  · intro correct fuel answer ended
    rw [← start, ← getPairedItem_eq] at ended
    constructor
    · rintro result rfl
      have returned := correct.returned fuel result ended
      rw [start] at returned
      exact hitsOnly_iff.mpr returned
    · rintro thrown rfl
      exact correct.thrown fuel thrown ended

omit [DecidableEq Item] in
theorem nextPlaces_eq_nil
    : proxy.nextPlaces source item = []
      ↔ ∀ pairedItem ∈ normalizePairedItem (proxy.pairedItem item),
          ¬proxy.IsOfInput source pairedItem := by
  rw [List.eq_nil_iff_forall_not_mem]
  simp only [mem_nextPlaces, not_exists, not_and]
  constructor
  · intro none pairedItem isPaired ofInput
    exact none _ pairedItem isPaired ofInput rfl
  · intro none _ pairedItem isPaired ofInput
    exact absurd ofInput (none pairedItem isPaired)

omit [DecidableEq Item] in
theorem sound_of_traceable (traceable : proxy.Traceable destinationNodeName place)
    : (proxy.tracing destinationNodeName usedMethodName).Sound place := by
  constructor
  · intro result found
    obtain ⟨source, outputData, isSource, output, atDestination, below, rfl⟩ :=
      visit_eq_found.mp found
    refine (JsNumber.read_isSome_iff below).mpr ?_
    rcases traceable.isIndex source outputData isSource atDestination output with whole | above
    · exact whole
    · rw [below] at above
      contradiction
  · intro thrown failed
    change proxy.visit destinationNodeName usedMethodName place = _ at failed
    rcases output_or_failed proxy destinationNodeName usedMethodName place
      with ⟨source, outputData, isSource, output⟩ | ⟨error, isError⟩
    · rw [visit_of_output isSource output] at failed
      split at failed
      · split at failed
        · exact ⟨_, (Visit.failed.inj failed).symm⟩
        · contradiction
      · next elsewhere =>
          have isSome := traceable.hasItem source outputData isSource elsewhere output
          split at failed
          · next missing => simp [missing] at isSome
          · split at failed
            · exact ⟨_, (Visit.failed.inj failed).symm⟩
            · contradiction
    · exact ⟨error, Visit.failed.inj (failed.symm.trans isError)⟩
  · intro onward
    change proxy.visit destinationNodeName usedMethodName place = _ at onward
    rcases output_or_failed proxy destinationNodeName usedMethodName place
      with ⟨source, outputData, isSource, output⟩ | ⟨error, isError⟩
    · rw [visit_of_output isSource output] at onward
      split at onward
      · split at onward <;> contradiction
      · next elsewhere =>
          split at onward
          · contradiction
          · next item isItem =>
              split at onward
              · contradiction
              · next filled =>
                  obtain ⟨pairedItem, isPaired, ofInput⟩ :=
                    traceable.hasInput source item isSource elsewhere
                      ((itemAt_eq output).trans isItem) filled
                  exact absurd ofInput
                    (nextPlaces_eq_nil.mp (Visit.onward.inj onward) pairedItem isPaired)
    · cases onward.symm.trans isError
  · rintro several single result linksSeveral ⟨first, second, hitsFirst, hitsSecond, differ⟩
      linksSingle only
    obtain ⟨firstItem, rfl, leadsFirst⟩ := hits_iff.mp hitsFirst
    obtain ⟨secondItem, rfl, leadsSecond⟩ := hits_iff.mp hitsSecond
    obtain ⟨item, rfl, onlyItem⟩ := hitsOnly_iff.mp only
    obtain ⟨other, differing, follows, onlyOther, differs⟩ :=
      traceable.agrees several firstItem secondItem single item (links_iff.mp linksSeveral)
        leadsFirst leadsSecond (fun same => differ (congrArg some same))
        (links_iff.mp linksSingle) onlyItem
    exact ⟨other, some differing, links_iff.mpr follows,
      hitsOnly_iff.mpr ⟨differing, rfl, onlyOther⟩, fun same => differs (Option.some.inj same)⟩

omit [DecidableEq Item] in
theorem traceable_of_sound
    (sound : (proxy.tracing destinationNodeName usedMethodName).Sound place)
    : proxy.Traceable destinationNodeName place := by
  constructor
  · intro source outputData isSource elsewhere output
    cases isItem : JsNumber.read outputData place.item with
    | some item => rfl
    | none =>
        have failed
            : proxy.visit destinationNodeName usedMethodName place = .failed .typeError := by
          rw [visit_of_output isSource output, if_neg elsewhere, isItem]
        obtain ⟨error, same⟩ := sound.failed _ failed
        contradiction
  · intro source item isSource elsewhere isItem filled
    obtain ⟨outputData, output, found⟩ := exists_output_of_itemAt isItem
    have onward
        : proxy.visit destinationNodeName usedMethodName place
          = .onward (proxy.nextPlaces source item) := by
      rw [visit_of_output isSource output, if_neg elsewhere, found]
      exact if_neg filled
    by_contra noInput
    simp only [not_exists, not_and] at noInput
    rw [nextPlaces_eq_nil.mpr noInput] at onward
    obtain ⟨error, same⟩ := sound.noLinks onward
    contradiction
  · intro source outputData isSource atDestination output
    cases below : place.item.atLeast outputData.length with
    | true => exact .inr rfl
    | false =>
        refine .inl ((JsNumber.read_isSome_iff below).mp ?_)
        exact sound.found _
          (visit_eq_found.mpr ⟨source, outputData, isSource, output, atDestination, below, rfl⟩)
  · intro several first second single item followsSeveral leadsFirst leadsSecond differ
      followsSingle only
    obtain ⟨other, differing, links, onlyOther, differs⟩ :=
      sound.agrees several single (some item) (links_iff.mpr followsSeveral)
        ⟨some first, some second, hits_iff.mpr ⟨first, rfl, leadsFirst⟩,
          hits_iff.mpr ⟨second, rfl, leadsSecond⟩, fun same => differ (Option.some.inj same)⟩
        (links_iff.mpr followsSingle) (hitsOnly_iff.mpr ⟨item, rfl, only⟩)
    obtain ⟨otherItem, rfl, leadsOther⟩ := hitsOnly_iff.mp onlyOther
    exact ⟨other, otherItem, links_iff.mp links, leadsOther,
      fun same => differs (congrArg some same)⟩

omit [DecidableEq Item] in
theorem sound_iff
    : (proxy.tracing destinationNodeName usedMethodName).Sound place
      ↔ proxy.Traceable destinationNodeName place :=
  ⟨traceable_of_sound, sound_of_traceable⟩

/-! ### Acyclic run data -/

/-- Every run that a source can name, the pinned ones included. -/
def tasks (proxy : WorkflowDataProxy Item) : List (SourcedTaskData Item) :=
  (proxy.runData.map (fun runData => runData.values.flatten)).getD []
  ++ (proxy.pinData.map (fun pinData =>
      pinData.values.filterMap (fun items => pinDataToTask (some items)))).getD []

omit [DecidableEq Item] in
theorem mem_tasks {task : SourcedTaskData Item} (named : proxy.getTaskData source = some task)
    : task ∈ tasks proxy := by
  rcases (Option.orElse_eq_some _ _ _).mp named with ran | ⟨-, pinned⟩
  · obtain ⟨runData, isRunData, found⟩ := Option.bind_eq_some_iff.mp ran
    obtain ⟨runs, isRuns, isRun⟩ := Option.bind_eq_some_iff.mp found
    refine List.mem_append_left _ ?_
    simp only [isRunData, Option.map_some, Option.getD_some, List.mem_flatten]
    exact ⟨runs, Dict.mem_values_iff.mpr ⟨_, isRuns⟩, List.mem_of_getElem? isRun⟩
  · refine List.mem_append_right _ ?_
    unfold getPinDataIfManualExecution at pinned
    split at pinned
    · contradiction
    · cases isPinData : proxy.pinData with
      | none =>
          rw [isPinData] at pinned
          contradiction
      | some pinData =>
          simp only [isPinData, Option.bind_some] at pinned
          cases isItems : pinData.get? source.previousNode with
          | none =>
              rw [isItems] at pinned
              contradiction
          | some items =>
              rw [isItems] at pinned
              exact List.mem_filterMap.mpr
                ⟨items, Dict.mem_values_iff.mpr ⟨_, isItems⟩, pinned⟩

omit [DecidableEq Item] in
/-- The items of an output are among the main items of the run. -/
theorem exists_task_of_output (output : proxy.outputOf source = some outputData)
    : ∃ task, proxy.getTaskData source = some task ∧ outputData ⊆ mainItems task := by
  have found
      : proxy.getNodeOutput (proxy.getTaskData source) source none = .ok outputData :=
    getNodeOutput_eq_ok.mpr output
  simp only [getNodeOutput] at found
  split at found
  · next isOutput =>
      cases found
      obtain ⟨data, isData, read⟩ := Option.bind_eq_some_iff.mp isOutput
      obtain ⟨task, isTask, isData⟩ := Option.bind_eq_some_iff.mp isData
      obtain ⟨main, isMain, isSlot⟩ := Option.map_eq_some_iff.mp read
      refine ⟨task, isTask, ?_⟩
      intro item member
      unfold mainItems
      simp only [isData, Option.bind_some, isMain, Option.getD_some, List.mem_flatMap]
      refine ⟨.value outputData, ?_, member⟩
      rw [Slot.read, List.getD_eq_getElem?_getD] at isSlot
      cases isPlace : main[source.previousNodeOutput.getD 0]? with
      | none => simp [isPlace] at isSlot
      | some slot =>
          obtain rfl : slot = .value outputData := by simpa [isPlace] using isSlot
          exact List.mem_of_getElem? isPlace
  · contradiction

variable {other : ISourceData}

omit [DecidableEq Item] in
theorem sourceLink_of_follows (follows : proxy.Follows destinationNodeName place next)
    (isSource : place.source = some source) (isOther : next.source = some other)
    : proxy.SourceLink source other := by
  obtain ⟨_, item, pairedItem, isSource', -, isItem, isPaired, -, rfl⟩ := follows
  obtain rfl := Option.some.inj (isSource.symm.trans isSource')
  obtain ⟨outputData, output, found⟩ := exists_output_of_itemAt isItem
  obtain ⟨task, isTask, inside⟩ := exists_task_of_output output
  refine ⟨task, isTask, ?_⟩
  obtain ⟨index, -, isPlace⟩ := Option.bind_eq_some_iff.mp found
  rcases (Option.orElse_eq_some _ _ _).mp isOther with overwritten | ⟨-, recorded⟩
  · refine List.mem_append_right _ (List.mem_flatMap.mpr ⟨item, ?_, ?_⟩)
    · exact inside (List.mem_of_getElem? isPlace)
    · exact List.mem_filterMap.mpr ⟨pairedItem, isPaired, overwritten⟩
  · refine List.mem_append_left _ (List.mem_filterMap.mpr ⟨some other, ?_, rfl⟩)
    simp only [inputSources, isTask, Option.map_some, Option.getD_some] at recorded
    obtain ⟨_, -, isInput⟩ := Option.bind_eq_some_iff.mp (Option.join_eq_some_iff.mp recorded)
    exact List.mem_of_getElem? isInput

omit [DecidableEq Item] in
theorem wellFounded_of_acyclic (acyclic : proxy.Acyclic)
    : WellFounded (fun next place =>
        (proxy.tracing destinationNodeName usedMethodName).Links place next) := by
  have bounded (source other : ISourceData) (linked : proxy.SourceLink source other)
      : other ∈ (tasks proxy).flatMap (recordedSources proxy) := by
    obtain ⟨task, isTask, recorded⟩ := linked
    exact List.mem_flatMap.mpr ⟨task, mem_tasks isTask, recorded⟩
  have sources := BackwardSearch.wellFounded_of_acyclic acyclic bounded
  have fromSource (source : ISourceData) (place : Place) (isSource : place.source = some source)
      : Acc (fun next place =>
          (proxy.tracing destinationNodeName usedMethodName).Links place next) place := by
    induction source using sources.induction generalizing place with
    | _ source ih =>
        constructor
        intro next links
        have follows := links_iff.mp links
        cases isNext : next.source with
        | some other =>
            exact ih other (sourceLink_of_follows follows isSource isNext) next isNext
        | none =>
            constructor
            intro last linksLast
            obtain ⟨_, _, _, isOther, -⟩ := links_iff.mp linksLast
            rw [isNext] at isOther
            contradiction
  constructor
  intro place
  constructor
  intro next links
  cases isNext : next.source with
  | some other => exact fromSource other next isNext
  | none =>
      constructor
      intro last linksLast
      obtain ⟨_, _, _, isOther, -⟩ := links_iff.mp linksLast
      rw [isNext] at isOther
      contradiction

/-! ### Where the tracing is correct -/

/-- Where every place of every chain is traceable, a call traces correctly. On acyclic run data
every call ends, and all the calls that one leads to trace correctly exactly when all the
places are traceable.
-/
theorem getPairedItem_traces (proxy : WorkflowDataProxy Item) (destinationNodeName : String)
    (usedMethodName : PairedItemMethod) (incomingSourceData : Option ISourceData)
    (initialPairedItem : PairedItem) (nodeBeforeLast : Option String)
    : let start := startingPlace incomingSourceData initialPairedItem nodeBeforeLast
      ((∀ place, proxy.Chain destinationNodeName start place
          → proxy.Traceable destinationNodeName place)
        → proxy.TracesCorrectly destinationNodeName usedMethodName incomingSourceData
            initialPairedItem nodeBeforeLast)
      ∧ (proxy.Acyclic
        → (∃ fuel answer,
            proxy.getPairedItem destinationNodeName usedMethodName fuel incomingSourceData
              initialPairedItem nodeBeforeLast = some answer)
          ∧ ((∀ place, proxy.Chain destinationNodeName start place
                → proxy.TracesCorrectlyAt destinationNodeName usedMethodName place)
              ↔ ∀ place, proxy.Chain destinationNodeName start place
                → proxy.Traceable destinationNodeName place)) := by
  intro start
  have proper (place : Place)
      : (proxy.tracing destinationNodeName usedMethodName).proper
          ((proxy.tracing destinationNodeName usedMethodName).ambiguous place) := ⟨_, rfl⟩
  have answers (place : Place)
      (traceable : ∀ last, proxy.Chain destinationNodeName place last
        → proxy.Traceable destinationNodeName last)
      : (proxy.tracing destinationNodeName usedMethodName).Traces place := by
    intro fuel answer ended
    exact (BackwardSearch.answers_and_completes proper (fun last reaches =>
      sound_of_traceable (traceable last (reaches_iff.mp reaches))) ended).1
  refine ⟨?_, ?_⟩
  · intro traceable
    have traces := answers start traceable
    constructor
    · intro fuel result ended
      rw [getPairedItem_eq] at ended
      exact hitsOnly_iff.mp ((traces fuel _ ended).ok result rfl)
    · intro fuel thrown ended
      rw [getPairedItem_eq] at ended
      exact (traces fuel _ ended).error thrown rfl
  · intro acyclic
    have ends (place : Place)
        : ∃ fuel answer,
            (proxy.tracing destinationNodeName usedMethodName).trace fuel place = some answer :=
      BackwardSearch.trace_ends (wellFounded_of_acyclic acyclic) place
    refine ⟨?_, ?_, ?_⟩
    · simpa only [getPairedItem_eq] using ends start
    · intro correct place chain
      refine traceable_of_sound (BackwardSearch.sound_of_traces (fun last _ => ends last) ?_)
      intro last reaches
      exact traces_iff.mpr (correct last (chain.trans (reaches_iff.mp reaches)))
    · intro traceable place chain
      exact traces_iff.mp (answers place (fun last further =>
        traceable last (chain.trans further)))

/-- A manual execution with these runs. -/
def executionOf (runData : Dict String (List (SourcedTaskData Nat)))
    (pairedItem : Nat → PairedItems)
    : WorkflowDataProxy Nat where
  nodes := Dict.empty
  pinData := none
  runData := some runData
  pairedItem := pairedItem
  runIndex := 0
  itemIndex := 0
  activeNodeName := "Set"
  mode := .manual
  numberText := fun
    | .finite value => toString value.num
    | _ => "NaN"

def runOf (items : List Nat) (source : List (Option ISourceData)) : SourcedTaskData Nat where
  data := some ⟨[(.main, [.value items])], List.nodup_singleton _⟩
  source := source

/-- The one item of `Filter` is paired with the second item of `Trigger`. -/
def filtered : WorkflowDataProxy Nat :=
  executionOf
    ⟨[("Trigger", [runOf [1, 2] []]), ("Filter", [runOf [3] [some ⟨"Trigger", none, none⟩]])],
      by decide⟩
    (fun item => if item = 3 then .single (.number 1) else .missing)

theorem filtered_sourceLink (linked : filtered.SourceLink source other)
    : source.previousNode = "Filter" ∧ other = ⟨"Trigger", none, none⟩ := by
  obtain ⟨task, named, recorded⟩ := linked
  rcases (Option.orElse_eq_some _ _ _).mp named with ran | ⟨-, pinned⟩
  · obtain ⟨runData, isRunData, found⟩ := Option.bind_eq_some_iff.mp ran
    cases isRunData
    obtain ⟨runs, isRuns, isRun⟩ := Option.bind_eq_some_iff.mp found
    have member := List.mem_of_getElem? isRun
    rcases List.mem_cons.mp (Dict.mem_entries_iff.mpr isRuns) with same | later
    · obtain ⟨-, rfl⟩ := Prod.mk.inj same
      obtain rfl := List.mem_singleton.mp member
      contradiction
    · obtain ⟨isFilter, rfl⟩ := Prod.mk.inj (List.mem_singleton.mp later)
      obtain rfl := List.mem_singleton.mp member
      exact ⟨isFilter, List.mem_singleton.mp recorded⟩
  · contradiction

theorem filtered_acyclic : filtered.Acyclic := by
  have links {source other : ISourceData}
      (chain : Relation.TransGen filtered.SourceLink source other)
      : source.previousNode = "Filter" ∧ other.previousNode = "Trigger" := by
    induction chain with
    | single linked =>
        obtain ⟨isFilter, rfl⟩ := filtered_sourceLink linked
        exact ⟨isFilter, rfl⟩
    | tail _ linked ih =>
        obtain ⟨-, rfl⟩ := filtered_sourceLink linked
        exact ⟨ih.1, rfl⟩
  intro source chain
  obtain ⟨isFilter, isTrigger⟩ := links chain
  rw [isFilter] at isTrigger
  contradiction

theorem filtered_follows
    (follows : filtered.Follows "Trigger" ⟨some ⟨"Filter", none, none⟩, 0, none⟩ next)
    : next = ⟨some ⟨"Trigger", none, none⟩, 1, some "Filter"⟩ := by
  obtain ⟨source, item, pairedItem, isSource, -, isItem, isPaired, -, rfl⟩ := follows
  cases isSource
  obtain rfl : 3 = item := Option.some.inj isItem
  obtain rfl : pairedItem = ⟨1, none, none⟩ := List.mem_singleton.mp isPaired
  rfl

omit [DecidableEq Item] in
theorem not_follows_destination (isSource : place.source = some source)
    (atDestination : source.previousNode = destinationNodeName)
    : ¬proxy.Follows destinationNodeName place next := by
  rintro ⟨_, _, _, isSource', elsewhere, -⟩
  obtain rfl := Option.some.inj (isSource.symm.trans isSource')
  exact elsewhere atDestination

theorem filtered_leadsTo {item : Nat}
    (leads : filtered.LeadsTo "Trigger" ⟨some ⟨"Trigger", none, none⟩, 1, some "Filter"⟩ item)
    : item = 2 := by
  obtain ⟨last, chain, source, isSource, -, isItem⟩ := leads
  rcases Relation.ReflTransGen.cases_head chain with rfl | ⟨next, follows, -⟩
  · cases isSource
    exact (Option.some.inj isItem).symm
  · exact absurd follows (not_follows_destination rfl rfl)

theorem filtered_traceable {place : Place}
    (chain : filtered.Chain "Trigger" ⟨some ⟨"Filter", none, none⟩, 0, none⟩ place)
    : filtered.Traceable "Trigger" place := by
  have destination
      : filtered.Traceable "Trigger" ⟨some ⟨"Trigger", none, none⟩, 1, some "Filter"⟩ := by
    constructor
    · intro source _ isSource elsewhere
      cases isSource
      contradiction
    · intro source _ isSource elsewhere
      cases isSource
      contradiction
    · intro _ _ _ _ _
      exact .inl rfl
    · intro _ _ _ _ _ follows
      exact absurd follows (not_follows_destination rfl rfl)
  rcases Relation.ReflTransGen.cases_head chain with rfl | ⟨next, follows, further⟩
  · constructor
    · intro source outputData isSource _ output
      cases isSource
      cases output
      rfl
    · intro source item isSource _ isItem _
      cases isSource
      obtain rfl : 3 = item := Option.some.inj isItem
      exact ⟨⟨1, none, none⟩, List.mem_singleton_self _, rfl⟩
    · intro source _ isSource atDestination
      cases isSource
      contradiction
    · intro several first second _ _ follows leadsFirst leadsSecond differ
      obtain rfl := filtered_follows follows
      exact absurd ((filtered_leadsTo leadsFirst).trans (filtered_leadsTo leadsSecond).symm) differ
  · obtain rfl := filtered_follows follows
    rcases Relation.ReflTransGen.cases_head further with rfl | ⟨next, follows', -⟩
    · exact destination
    · exact absurd follows' (not_follows_destination rfl rfl)

/-- The call finds the second item of `Trigger`, the only one that its chain leads to. -/
theorem getPairedItem_traces_filtered
    : filtered.getPairedItem "Trigger" .item 2 (some ⟨"Filter", none, none⟩) (.number 0) none
        = some (.ok (some 2))
      ∧ filtered.TracesCorrectly "Trigger" .item (some ⟨"Filter", none, none⟩) (.number 0) none
      ∧ (∃ fuel answer,
          filtered.getPairedItem "Trigger" .item fuel (some ⟨"Filter", none, none⟩) (.number 0)
            none = some answer)
      ∧ ((∀ place,
            filtered.Chain "Trigger" ⟨some ⟨"Filter", none, none⟩, 0, none⟩ place
            → filtered.TracesCorrectlyAt "Trigger" .item place)
          ↔ ∀ place,
              filtered.Chain "Trigger" ⟨some ⟨"Filter", none, none⟩, 0, none⟩ place
              → filtered.Traceable "Trigger" place) := by
  have traces := getPairedItem_traces filtered "Trigger" .item (some ⟨"Filter", none, none⟩)
    (.number 0) none
  exact ⟨rfl, traces.1 (fun _ chain => filtered_traceable chain), traces.2 filtered_acyclic⟩

/-- The items of a trigger are paired, but its run has no inputs. -/
def triggered : WorkflowDataProxy Nat :=
  executionOf ⟨[("Trigger", [runOf [1, 2] []])], by decide⟩ (fun _ => .single (.number 0))

/-- Where no paired item is of an input, the call throws a `TypeError`. -/
theorem getPairedItem_noInputs_typeError
    : triggered.getPairedItem "Webhook" .item 1 (some ⟨"Trigger", none, none⟩) (.number 0) none
        = some (.error .typeError)
      ∧ ¬triggered.TracesCorrectly "Webhook" .item (some ⟨"Trigger", none, none⟩) (.number 0)
          none := by
  have fails
      : triggered.getPairedItem "Webhook" .item 1 (some ⟨"Trigger", none, none⟩) (.number 0) none
        = some (.error .typeError) := rfl
  refine ⟨fails, ?_⟩
  intro correct
  obtain ⟨error, same⟩ := correct.thrown 1 .typeError fails
  contradiction

end N8n.DataProxy
