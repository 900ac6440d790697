import N8n.CodeNode.RunForEachItem

/-! The chunks of the input, run one after the other, give the items of one pass over all of
it.
-/

namespace N8n.CodeNode

section Passes

variable {α β γ ε : Type}

/-- The results of a pass, in order; an element may have none, and each may stop the pass. -/
def collect (each : α → Option (Option β)) : List α → Option (List β)
  | [] => some []
  | a :: rest =>
      (each a).bind (fun result => (collect each rest).map (fun later => result.toList ++ later))

theorem collect_append (each : α → Option (Option β)) (first second : List α)
    : collect each (first ++ second)
      = (collect each first).bind (fun results =>
          (collect each second).map (fun later => results ++ later)) := by
  induction first with
  | nil => simp [collect]
  | cons a rest ih =>
      simp only [List.cons_append, collect, ih, Option.map_bind, Option.bind_map, Option.bind_assoc]
      simp [Function.comp_def]

theorem collect_congr {each other : α → Option (Option β)} {elements : List α}
    (same : ∀ a ∈ elements, each a = other a)
    : collect each elements = collect other elements := by
  induction elements with
  | nil => rfl
  | cons a rest ih =>
      rw [collect, collect, same a (.head _),
        ih (fun b member => same b (.tail _ member))]

/-- What is there after a first step, if anything, takes a second one. -/
def andThen (first : Option (Option β)) (second : β → Option γ) : Option (Option γ) :=
  first.bind (fun result =>
    match result with
    | none => some none
    | some b => (second b).map some)

@[simp] theorem andThen_none (second : β → Option γ) : andThen none second = none := rfl

@[simp] theorem andThen_some_none (second : β → Option γ)
    : andThen (some none) second = some none :=
  rfl

@[simp] theorem andThen_some_some (b : β) (second : β → Option γ)
    : andThen (some (some b)) second = (second b).map some :=
  rfl

/-- A second pass over the results of a first one may be made along with it. -/
theorem collect_mapM (each : α → Option (Option β)) (second : β → Option γ) (elements : List α)
    : (collect each elements).bind (fun results => results.mapM second)
      = collect (fun a => andThen (each a) second) elements := by
  induction elements with
  | nil => rfl
  | cons a rest ih =>
      rw [collect, collect, ← ih]
      cases each a with
      | none => rfl
      | some result =>
          cases result with
          | none => simp
          | some b =>
              cases collect each rest with
              | none => cases second b <;> simp
              | some results =>
                  simp only [Option.bind_some, Option.map_some, Option.toList_some,
                    List.singleton_append, List.mapM_cons, Option.bind_eq_bind, Option.pure_def,
                    andThen_some_some]
                  cases second b with
                  | none => rfl
                  | some c => simp [Option.map_eq_bind, Function.comp_def]

theorem toOption_bind (result : Except ε α) (next : α → Except ε β)
    : (result >>= next).toOption = result.toOption.bind (fun a => (next a).toOption) := by
  cases result <;> rfl

theorem toOption_map (change : α → β) (result : Except ε α)
    : (result.map change).toOption = result.toOption.map change := by
  cases result <;> rfl

theorem toOption_mapM (f : α → Except ε β) (elements : List α)
    : (elements.mapM f).toOption = elements.mapM (fun a => (f a).toOption) := by
  induction elements with
  | nil => rfl
  | cons a rest ih =>
      simp only [List.mapM_cons, toOption_bind, ih, Option.bind_eq_bind]
      rfl

end Passes

variable {Item : Type} {code : Option Item → Nat → Outcome} {continueOnFail : Bool}

/-- The item that a run of the code gives, unless it stops everything. -/
def itemOf (index : Nat) (continueOnFail : Bool) : Outcome → Option (Option Value)
  | .returned result => some (toItem index result)
  | .thrown message => if continueOnFail then some (some (errorItem index message)) else none

namespace Job

/-- The item of an index that the code sees. -/
def visibleItem (job : Job Item) (index : Nat) : Option Item :=
  if job.includeInput then job.inputItems[index]? else none

/-- The result for an index, after its way from the runner and its validation. -/
def resultOf (job : Job Item) (index : Nat) : Option (Option Value) :=
  andThen (itemOf index job.continueOnFail (job.code (job.visibleItem index) index))
    (fun result => (validateRunCodeEachItem (job.received result) index).toOption)

/-- One pass over all items: the results in order, or none where something throws. -/
def onePass (job : Job Item) : Option (List Value) :=
  collect job.resultOf (List.range job.inputItems.length)

end Job

/-- The loop collects the items of its indexes, by induction on their number. -/
theorem runItems_collect (inputItems : List (Option Item)) (index remaining : Nat)
    (returnData : List Value)
    : (runItems code continueOnFail inputItems index remaining returnData).toOption
      = (collect (fun i => itemOf i continueOnFail (code (inputItems[i]?.join) i))
          (List.range' index remaining)).map
        (fun results => returnData ++ results) := by
  induction remaining generalizing index returnData with
  | zero => simp [runItems, collect, Except.toOption]
  | succ remaining ih =>
      rw [runItems, List.range'_succ, collect]
      cases code (inputItems[index]?.join) index with
      | returned result =>
          simp only [itemOf, ih, Option.bind_some, Option.map_map, Function.comp_def,
            List.append_assoc]
      | thrown message =>
          cases continueOnFail with
          | true =>
              simp only [itemOf, if_true, ih, Option.bind_some, Option.map_map, Function.comp_def,
                List.append_assoc, Option.toList_some]
          | false => rfl

theorem validateItem_index (item : Value) (index other : Nat)
    : (validateItem item index).toOption = (validateItem item other).toOption := by
  unfold validateItem
  split
  · rfl
  · split
    · rfl
    · split <;> rfl

theorem validateTopLevelKeys_index (item : Value) (index other : Nat)
    : (validateTopLevelKeys item index).toOption = (validateTopLevelKeys item other).toOption := by
  unfold validateTopLevelKeys
  split
  · simp only
    split <;> rfl
  · rfl

/-- Whether a result is accepted, and as what, does not depend on its number. -/
theorem validateRunCodeEachItem_index (result : Value) (index other : Nat)
    : (validateRunCodeEachItem result index).toOption
      = (validateRunCodeEachItem result other).toOption := by
  unfold validateRunCodeEachItem
  split
  · rfl
  · split
    · rfl
    · simp only [toOption_bind, validateItem_index _ index other,
        validateTopLevelKeys_index _ index other]

theorem validateResults_toOption (startIdx : Nat) (results : List Value)
    : (Job.validateResults startIdx results).toOption
      = results.mapM (fun result => (validateRunCodeEachItem result 0).toOption) := by
  rw [Job.validateResults, toOption_mapM]
  have numbers
      : (fun result : Value × Nat =>
            (validateRunCodeEachItem result.1 (startIdx + result.2)).toOption)
          = (fun result => (validateRunCodeEachItem result 0).toOption) ∘ Prod.fst := by
    funext result
    exact validateRunCodeEachItem_index result.1 _ _
  rw [numbers, ← List.mapM_map, List.zipIdx_map_fst]

namespace Job

variable (job : Job Item)

theorem join_replicate (count index : Nat)
    : (List.replicate count (none : Option Item))[index]?.join = none := by
  rw [List.getElem?_replicate]
  split <;> rfl

/-- The runner finds the items of the chunk at their indexes. -/
theorem visible_of_chunk (chunk : InputDataChunkDefinition) {index : Nat}
    (inside : index ∈ List.range' chunk.startIndex chunk.count)
    : (reconstructConnectionInputItems
          (stripInputData ⟨job.includeInput, some chunk⟩ ⟨[some job.inputItems]⟩)
          (some chunk))[index]?.join
      = job.visibleItem index := by
  obtain ⟨after, before⟩ := List.mem_range'_1.mp inside
  unfold visibleItem reconstructConnectionInputItems stripInputData
  cases job.includeInput with
  | false => simpa using join_replicate _ _
  | true =>
      simp only [Bool.not_true, Bool.false_eq_true, if_false, stripChunkedInputData,
        List.getElem?_cons_zero, Option.join_some, Option.getD_some]
      rw [List.append_assoc, List.getElem?_append_right (by simpa using after),
        List.length_replicate, List.getElem?_append]
      split
      · next isItem =>
          have inChunk : index - chunk.startIndex < chunk.count := by omega
          simp only [List.getElem?_map, List.getElem?_take, inChunk, if_true, List.getElem?_drop,
            Nat.add_sub_cancel' after]
          cases job.inputItems[index]? <;> rfl
      · next isBehind =>
          simp only [List.length_map, List.length_take, List.length_drop] at isBehind
          rw [join_replicate, if_pos trivial, eq_comm, List.getElem?_eq_none_iff]
          omega

theorem range_append_range' (first second : Nat)
    : List.range first ++ List.range' first second = List.range (first + second) := by
  have joined := @List.range'_append_1 0 first second
  rwa [Nat.zero_add, ← List.range_eq_range', ← List.range_eq_range'] at joined

/-- The chunks make up the indexes, since all but the last one are full. -/
theorem flatMap_chunkInputItems {chunkSize : Nat} (positive : 1 ≤ chunkSize) (numInputItems : Nat)
    : (chunkInputItems chunkSize numInputItems).flatMap
        (fun chunk => List.range' chunk.startIndex chunk.count)
      = List.range numInputItems := by
  have full (chunks : Nat)
      : (List.range chunks).flatMap (fun i => List.range' (i * chunkSize) chunkSize)
        = List.range (chunks * chunkSize) := by
    induction chunks with
    | zero => simp
    | succ chunks ih =>
        rw [List.range_succ, List.flatMap_append, ih, List.flatMap_singleton, Nat.succ_mul,
          range_append_range']
  rw [chunkInputItems, List.flatMap_map]
  generalize isCount : (numInputItems + chunkSize - 1) / chunkSize = numChunks
  have atLeast := Nat.div_mul_le_self (numInputItems + chunkSize - 1) chunkSize
  have atMost := Nat.lt_div_mul_add (show chunkSize > 0 from positive)
    (a := numInputItems + chunkSize - 1)
  rw [isCount] at atLeast atMost
  cases numChunks with
  | zero =>
      have none : numInputItems = 0 := by omega
      simp [none]
  | succ before =>
      have fullBefore
          : (List.range before).flatMap (fun i =>
              List.range' (i * chunkSize)
                (if i = before + 1 - 1 then numInputItems - i * chunkSize else chunkSize))
            = List.range (before * chunkSize) := by
        rw [← full before]
        refine List.flatMap_congr (fun i member => ?_)
        have notLast : i ≠ before + 1 - 1 := by
          have := List.mem_range.mp member
          omega
        rw [if_neg notLast]
      rw [Nat.succ_mul] at atLeast atMost
      rw [List.range_succ, List.flatMap_append, fullBefore, List.flatMap_singleton]
      simp only [Nat.add_sub_cancel, if_true]
      rw [range_append_range']
      congr 1
      omega

/-- A task gives the results of the indexes that its loop goes through, when the runner finds
the items of the input there.
-/
theorem startJob_validated (chunk : Option InputDataChunkDefinition)
    {inputItems : List (Option Item)} {startIdx count : Nat}
    (rebuilt
      : reconstructConnectionInputItems
            (stripInputData ⟨job.includeInput, chunk⟩ ⟨[some job.inputItems]⟩) chunk
          = inputItems)
    (loop
      : runForEachItem ⟨job.continueOnFail, chunk⟩ inputItems job.code
          = runItems job.code job.continueOnFail inputItems startIdx count [])
    (visible
      : ∀ index ∈ List.range' startIdx count, inputItems[index]?.join = job.visibleItem index)
    (number : Nat)
    : ((job.startJob chunk).bind (validateResults number)).toOption
      = collect job.resultOf (List.range' startIdx count) := by
  rw [startJob, rebuilt, loop]
  change ((_ >>= _ : Except _ _)).toOption = _
  rw [toOption_bind, toOption_map, runItems_collect]
  simp only [List.nil_append, Option.map_id', Option.bind_map, Function.comp_def,
    validateResults_toOption, List.mapM_map]
  rw [collect_mapM]
  refine collect_congr (fun index member => ?_)
  rw [resultOf, visible index member]
  congr 1
  funext result
  exact validateRunCodeEachItem_index _ _ _

/-- The loop over chunks collects the results of their indexes, by induction on the chunks. -/
theorem foldlM_chunks (chunks : List InputDataChunkDefinition) (executionResults : List Value)
    : (chunks.foldlM
        (fun executionResults chunk => do
          let results ← job.startJob (some chunk)
          let validated ← validateResults chunk.startIndex results
          return executionResults ++ validated)
        executionResults).toOption
      = (collect job.resultOf
          (chunks.flatMap (fun chunk => List.range' chunk.startIndex chunk.count))).map
        (fun results => executionResults ++ results) := by
  induction chunks generalizing executionResults with
  | nil => simp [collect, pure, Except.pure, Except.toOption]
  | cons chunk rest ih =>
      have here :=
        job.startJob_validated (some chunk) rfl rfl
          (fun index inside => job.visible_of_chunk chunk inside) chunk.startIndex
      change ((_ >>= _ : Except _ _)).toOption = _ at here
      rw [toOption_bind] at here
      simp only [List.foldlM_cons, toOption_bind, List.flatMap_cons, collect_append, ← here, ih]
      cases (job.startJob (some chunk)).toOption with
      | none => rfl
      | some results =>
          simp only [Option.bind_some]
          cases (validateResults chunk.startIndex results).toOption with
          | none => rfl
          | some validated =>
              simp only [Option.bind_some, Option.map_map, Function.comp_def]
              simp [pure, Except.pure, Except.toOption, List.append_assoc]

/-- For every chunk size of at least 1, the chunks give what one pass over all items gives: the
same items, each paired with its index, or nothing. Where the code needs the input, a task for
all items gives the same again.
-/
theorem runCodeForEachItem_onePass {chunkSize : Nat} (positive : 1 ≤ chunkSize)
    : (job.runCodeForEachItem chunkSize).toOption = job.onePass
      ∧ (job.includeInput = true
        → ((job.startJob none).bind (validateResults 0)).toOption = job.onePass) := by
  constructor
  · rw [runCodeForEachItem, foldlM_chunks, flatMap_chunkInputItems positive, onePass]
    simp only [List.nil_append, Option.map_id']
  · intro isIncluded
    have rebuilt
        : reconstructConnectionInputItems
              (stripInputData ⟨job.includeInput, none⟩ ⟨[some job.inputItems]⟩) none
            = job.inputItems.map some := by
      simp [isIncluded, stripInputData, reconstructConnectionInputItems]
    rw [onePass, List.range_eq_range']
    refine job.startJob_validated none rebuilt ?_ (fun index inside => ?_) 0
    · simp [runForEachItem]
    · simp only [visibleItem, isIncluded, if_true, List.getElem?_map]
      cases job.inputItems[index]? <;> rfl

/-- Three items in chunks of two: the code drops the first one and fails for the last one. -/
def threeItems : Job Nat where
  code item index :=
    match item with
    | some 0 => .returned .null
    | some n => if n = 2 then .thrown "Two" else .returned (.object [("n", .number (n + index))])
    | none => .returned .undefined
  inputItems := [0, 1, 2]
  includeInput := true
  continueOnFail := true
  received := id

theorem runCodeForEachItem_onePass_three
    : ((threeItems.runCodeForEachItem 2).toOption = threeItems.onePass
        ∧ (threeItems.includeInput = true
          → ((threeItems.startJob none).bind (validateResults 0)).toOption = threeItems.onePass))
      ∧ threeItems.onePass
        = some
          [.object [("json", .object [("n", .number 2)]), pairedItem 1],
            .object [("json", .object [("error", .string "Two")]), pairedItem 2]] := by
  exact ⟨threeItems.runCodeForEachItem_onePass (by decide), rfl⟩

end Job

end N8n.CodeNode
