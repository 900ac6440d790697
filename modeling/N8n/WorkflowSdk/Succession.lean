import N8n.WorkflowSdk.Isolation

/-! A program that is interpreted after another one, with the same SDK functions. -/

namespace N8n.WorkflowSdk

open N8n.Objects (Key)
open N8n.Prototypes

variable {N : Type} {region : Nat} {value : Value N}

/-! ### What the first program leaves behind -/

/-- The program assigns to no objects but those of its own region. -/
def OwnAssignments (region : Nat) (trace : List (Event N)) : Prop :=
  ∀ target key value, .assigned target key value ∈ trace
    → ∀ address, target.address? = some address → address.region = region

/-- The heap that a run leaves, whether the program ends with a value or with an error. -/
def heapOf : EStateM.Result JsError (State N) (Value N) → Heap N
  | .ok _ state => state.heap
  | .error _ state => state.heap

/-- A program that only assigns to its own objects leaves the other regions as they are. -/
structure Leaves (region : Nat) (before after : State N) : Prop where
  trace : before.trace <+: after.trace
  others
    : OwnAssignments region after.trace
      → ∀ other, other ≠ region → after.heap other = before.heap other

theorem Leaves.refl (state : State N) : Leaves region state state :=
  ⟨List.prefix_rfl, fun _ _ _ => rfl⟩

theorem OwnAssignments.of_prefix {trace longer : List (Event N)}
    (own : OwnAssignments region longer) (isPrefix : trace <+: longer)
    : OwnAssignments region trace :=
  fun target key value member => own target key value (isPrefix.subset member)

theorem Leaves.trans (first middle last : State N) (early : Leaves region first middle)
    (late : Leaves region middle last)
    : Leaves region first last :=
  ⟨early.trace.trans late.trace, fun own other differs =>
    (late.others own other differs).trans
      (early.others (own.of_prefix late.trace) other differs)⟩

section

variable {α β : Type} {good : α → Prop} {other : β → Prop}

/-- The program leaves the other regions as they are, and its result has the property. -/
def LeavesWith (region : Nat) (good : α → Prop) (program : Interpretation N α) : Prop :=
  ∀ state, program.Ensures state (fun result after => Leaves region state after ∧ good result)
    (Leaves region state)

theorem leaves_pure {result : α} (isGood : good result)
    : LeavesWith (N := N) region good (pure result) :=
  fun state => Exec.Ensures.pure ⟨Leaves.refl state, isGood⟩

theorem leaves_throw {error : JsError} : LeavesWith (N := N) region good (throw error) :=
  fun state => Exec.Ensures.throw (Leaves.refl state)

theorem leaves_bind {program : Interpretation N α} {next : α → Interpretation N β}
    (early : LeavesWith region good program)
    (late : ∀ result, good result → LeavesWith region other (next result))
    : LeavesWith region other (program >>= next) := by
  intro state
  refine .bind ((early state).mono ?_ (fun _ ends => ends))
  rintro result middle ⟨first, isGood⟩
  exact (late result isGood middle).mono
    (fun _ _ second => ⟨Leaves.trans _ _ _ first second.1, second.2⟩)
    (fun _ second => Leaves.trans _ _ _ first second)

theorem leaves_raise {outcome : Except JsError α}
    : LeavesWith (N := N) region (fun _ => True) (raise outcome) := by
  cases outcome with
  | ok result => exact leaves_pure trivial
  | error error => exact leaves_throw

theorem leaves_record {event : Event N}
    : LeavesWith region (fun _ => True) (record event) :=
  fun _ => Exec.Ensures.update ⟨⟨List.prefix_append _ _, fun _ _ _ => rfl⟩, trivial⟩

/-- Reading the state before a program that may depend on it. -/
theorem leaves_get {next : State N → Interpretation N β}
    (later : ∀ state, (next state).Ensures state
      (fun result after => Leaves region state after ∧ other result) (Leaves region state))
    : LeavesWith region other (get >>= next) :=
  fun state => Exec.Ensures.bind (.get (later state))

theorem leaves_update {change : State N → State N}
    (sameTrace : ∀ state, (change state).trace = state.trace)
    (sameHeap : ∀ state, (change state).heap = state.heap)
    : LeavesWith (N := N) region (fun _ => True) (modify change) :=
  fun state => Exec.Ensures.update ⟨⟨sameTrace state ▸ List.prefix_rfl, fun _ other _ => by
    rw [sameHeap]⟩, trivial⟩

end

namespace SDKInterpreter

variable {interpreter : SDKInterpreter N} {route : Route} {thisArg : Value N}
  {args : List (Value N)} {function address : Address} {key : Key}

variable {state : State N}

/-- Changing the heap in the own region only, and then going on. -/
theorem leaves_heap {β : Type} {good : β → Prop} {heap : Heap N} {next : Interpretation N β}
    (sameOthers : ∀ other, other ≠ interpreter.region → heap other = state.heap other)
    (later : LeavesWith interpreter.region good next)
    : Exec.Ensures (modify (fun state => { state with heap }) >>= fun _ => next) state
        (fun result after => Leaves interpreter.region state after ∧ good result)
        (Leaves interpreter.region state) := by
  have first : Leaves interpreter.region state { state with heap } :=
    ⟨List.prefix_rfl, fun _ => sameOthers⟩
  refine .bind (.update ?_)
  exact (later _).mono (fun _ _ second => ⟨first.trans _ _ _ second.1, second.2⟩)
    (fun _ second => first.trans _ _ _ second)

theorem leaves_external {run : Nat → Heap N → Except JsError (Value N) × Heap N}
    (keeps : KeepsOthers run)
    : LeavesWith interpreter.region (fun _ => True) (interpreter.external run) :=
  leaves_get (fun _ => leaves_heap (keeps _ _)
    (leaves_bind leaves_raise (fun _ _ => leaves_bind leaves_record (fun _ _ =>
      leaves_pure trivial))))

theorem leaves_allocate {object : Record N}
    : LeavesWith interpreter.region (fun address => address.region = interpreter.region)
        (interpreter.allocate object) := by
  refine fun state => ⟨⟨List.prefix_rfl, ?_⟩, rfl⟩
  intro _ other differs
  exact Function.update_of_ne differs _ _

/-- An assignment to an object, which is one of the own region if all that the trace has are. -/
theorem put_ensures
    (isOwn : OwnAssignments interpreter.region state.trace → address.region = interpreter.region)
    : (interpreter.put address key value).Ensures state
        (fun _ => Leaves interpreter.region state) (Leaves interpreter.region state) := by
  refine .bind (.get ?_)
  cases isChanged : state.heap.put interpreter.environment.depth address key value
      (interpreter.environment.toLength value) with
  | error error => exact Leaves.refl state
  | ok heap =>
      refine ⟨List.prefix_rfl, ?_⟩
      intro own other differs
      exact Heap.put_of_ne isChanged (isOwn own ▸ differs)

/-- The assignment is recorded before it is done, so it is one to an own object where all in the
trace are.
-/
theorem leaves_store {target : Value N} (isAddress : target.address? = some address)
    : LeavesWith interpreter.region (fun _ => True) (do
        record (.assigned target key value)
        interpreter.put address key value
        pure value) := by
  intro state
  refine .bind (.update ?_)
  have recorded
      : Leaves interpreter.region state
          { state with trace := state.trace ++ [.assigned target key value] } :=
    ⟨List.prefix_append _ _, fun _ _ _ => rfl⟩
  refine .bind ((put_ensures ?_).mono ?_ ?_)
  · intro own
    exact own target key value (by simp) address isAddress
  · exact fun _ after second => Exec.Ensures.pure ⟨recorded.trans _ _ _ second, trivial⟩
  · exact fun _ second => recorded.trans _ _ _ second

/-- Every program keeps to its region in what it does without an assignment. -/
def leavesRules (isolated : Isolated interpreter.environment interpreter.sdkFunctions)
    : ProgramRules interpreter where
  Holds given _ good program := given → LeavesWith interpreter.region good program
  Good _ := True
  Seen _ := True
  Own address := address.region = interpreter.region
  Called _ _ := True
  Converts := True
  Stable look ok := ∀ state, ok (look state)
  pure isGood isGiven := leaves_pure (isGood isGiven)
  throw _ := leaves_throw
  bind first second isGiven :=
    leaves_bind (first isGiven) (fun result isGood => second result ⟨isGiven, isGood⟩)
  weaken isGiven leaves isStronger := leaves (isGiven isStronger)
  look _ stable _ goesOn isGiven :=
    leaves_get (fun state => goesOn state ⟨isGiven, stable isGiven state⟩ state)
  property _ _ := trivial
  method _ _ := trivial
  items _ _ _ _ := trivial
  record? _ _ _ _ _ _ _ _ _ := trivial
  declarations _ _ _ _ := trivial
  read _ _ := leaves_record
  converted _ := leaves_record
  assigned _ := leaves_record
  safe _ _ := leaves_record
  invoke _ _ _ _ :=
    leaves_bind leaves_record (fun _ _ => leaves_external (isolated.callOthers _ _ _))
  stringify _ _ := leaves_external (isolated.stringifyOthers _)
  repeatString _ _ := leaves_external (isolated.repeatStringOthers _ _)
  create _ := leaves_allocate
  array _ _ := leaves_bind leaves_allocate (fun _ _ => leaves_pure trivial)
  put isOwn _ isGiven _ :=
    (put_ensures (fun _ => isOwn isGiven)).mono (fun _ _ leaves => ⟨leaves, trivial⟩)
      (fun _ leaves => leaves)
  store isAddress _ _ _ := leaves_store isAddress
  declare _ _ := leaves_update (fun _ => rfl) (fun _ => rfl)
  rename _ := leaves_update (fun _ => rfl) (fun _ => rfl)
  scalar := trivial
  regExp := trivial
  own _ := trivial
  sdkFunction _ := trivial
  seen _ := trivial
  prototype := trivial
  calledGood _ := trivial
  calledMethod _ _ := trivial
  calledSafe _ := trivial
  calledApply _ := trivial
  calledConversion _ _ := trivial

end SDKInterpreter

variable {environment : Environment N} {sdkFunctions : Dict String Address} {heap : Heap N}
  {program : Program N}

theorem interpretProgram_leaves [DecidableEq N] (isolated : Isolated environment sdkFunctions)
    (own
      : OwnAssignments region
          (traceOf (interpretProgram environment sdkFunctions region heap program))) {other : Nat}
    (differs : other ≠ region)
    : heapOf (interpretProgram environment sdkFunctions region heap program) other
      = heap other := by
  let interpreter : SDKInterpreter N := ⟨environment, sdkFunctions, program.sourceText, region⟩
  have leavesAll
      : LeavesWith region (fun _ => True) (interpreter.interpret program.body .undefined) :=
    (SDKInterpreter.leavesRules isolated).interpret program.body (fun _ => trivial) trivial
  have leaves := leavesAll
    ⟨Function.update heap region program.regExps, Dict.empty, Dict.empty, []⟩
  unfold Exec.Ensures at leaves
  unfold interpretProgram at own ⊢
  simp only at own ⊢
  have start : Function.update heap region program.regExps other = heap other :=
    Function.update_of_ne differs _ _
  split at leaves
  · next result final ran =>
      rw [ran] at own ⊢
      exact (leaves.1.others own other differs).trans start
  · next error final ran =>
      rw [ran] at own ⊢
      exact (leaves.others own other differs).trans start

/-! ### The second program -/

/-- How a run ends, with the objects that it can see then. -/
def outcomeOf (region : Nat)
    : EStateM.Result JsError (State N) (Value N)
      → Except JsError (Value N) × List (Record N) × List (Record N)
  | .ok value state => (.ok value, state.heap 0, state.heap region)
  | .error error state => (.error error, state.heap 0, state.heap region)

theorem interpretProgram_agree [DecidableEq N] (isolated : Isolated environment sdkFunctions)
    {heap' : Heap N} (agree : heap.Agree (Visible region) heap') (closed : heap.Closed (· = 0))
    (literals : ∀ record ∈ program.regExps, record.Within (· = 0))
    : outcomeOf region (interpretProgram environment sdkFunctions region heap program)
      = outcomeOf region (interpretProgram environment sdkFunctions region heap' program) := by
  have starts
      : Indistinct region
          ⟨Function.update heap region program.regExps, Dict.empty, Dict.empty, []⟩
          ⟨Function.update heap' region program.regExps, Dict.empty, Dict.empty, []⟩ := by
    refine ⟨?_, ?_, rfl, fun _ _ found => by contradiction, rfl, rfl⟩
    · intro other isVisible
      simp only
      by_cases same : other = region
      · rw [same, Function.update_self, Function.update_self]
      · rw [Function.update_of_ne same, Function.update_of_ne same, agree other isVisible]
    · intro other isVisible record member
      simp only at member
      by_cases same : other = region
      · rw [same, Function.update_self] at member
        exact (literals record member).mono (fun _ => .inl)
      · rw [Function.update_of_ne same] at member
        exact (closed other (isVisible.resolve_right same) record member).mono (fun _ => .inl)
  have within : (Value.undefined : Value N).Within (Visible region) := Value.within_scalar _
  let interpreter : SDKInterpreter N := ⟨environment, sdkFunctions, program.sourceText, region⟩
  have alikeAll
      : Exec.Alike (Indistinct interpreter.region)
          (Same (Value.Within (Visible interpreter.region)))
          (interpreter.interpret program.body .undefined)
          (interpreter.interpret program.body .undefined) :=
    (SDKInterpreter.alikeRules isolated).interpret program.body (fun _ => within) trivial
  have alike := alikeAll _ _ starts
  unfold interpretProgram
  simp only
  split at alike
  · next ran ran' =>
      obtain ⟨⟨rfl, -⟩, ends⟩ := alike
      rw [ran, ran']
      simp only [outcomeOf, ends.agree 0 (.inl rfl), ends.agree region (.inr rfl)]
  · next ran ran' =>
      obtain ⟨rfl, ends⟩ := alike
      rw [ran, ran']
      simp only [outcomeOf, ends.agree 0 (.inl rfl), ends.agree region (.inr rfl)]
  · exact alike.elim

section

variable [DecidableEq N] (parseSDKCode : String → Except JsError (Program N))
  (environment : Environment N) (sdkFunctions : Dict String Address)

def interpretSDKCode (region : Nat) (heap : Heap N) (code : String)
    : EStateM.Result JsError (State N) (Value N) :=
  match parseSDKCode code with
  | .error error => .error error ⟨heap, Dict.empty, Dict.empty, []⟩
  | .ok program => interpretProgram environment sdkFunctions region heap program

/-- A program that has run, and has assigned to no objects but its own, changes nothing for one
that runs after it.
-/
theorem interpretSDKCode_after (isolated : Isolated environment sdkFunctions)
    (literals
      : ∀ code program, parseSDKCode code = .ok program
        → ∀ record ∈ program.regExps, record.Within (· = 0))
    (heap : Heap N) (closed : heap.Closed (· = 0)) (p q : String) {first second : Nat}
    (differ : first ≠ second) (isFirst : first ≠ 0)
    (own
      : OwnAssignments first
          (traceOf (interpretSDKCode parseSDKCode environment sdkFunctions first heap p)))
    : outcomeOf second
        (interpretSDKCode parseSDKCode environment sdkFunctions second
          (heapOf (interpretSDKCode parseSDKCode environment sdkFunctions first heap p)) q)
      = outcomeOf second
          (interpretSDKCode parseSDKCode environment sdkFunctions second heap q) := by
  have unchanged {other : Nat} (differs : other ≠ first)
      : heapOf (interpretSDKCode parseSDKCode environment sdkFunctions first heap p) other
        = heap other := by
    unfold interpretSDKCode at own ⊢
    split at own
    · rfl
    · exact interpretProgram_leaves isolated own differs
  have agree
      : Heap.Agree (Visible second) heap
          (heapOf (interpretSDKCode parseSDKCode environment sdkFunctions first heap p)) := by
    rintro other (rfl | rfl)
    · exact (unchanged isFirst.symm).symm
    · exact (unchanged differ.symm).symm
  generalize heapOf _ = heap' at agree ⊢
  unfold interpretSDKCode
  cases isParsed : parseSDKCode q with
  | error error =>
      simp only [outcomeOf, agree 0 (.inl rfl), agree second (.inr rfl)]
  | ok program =>
      exact (interpretProgram_agree isolated agree closed (literals q program isParsed)).symm

end

/-- The parser, on the three programs of the examples. -/
def smallParse (code : String) : Except JsError (Program Nat) :=
  let workflowX : Expression Nat := .member (.identifier "workflow") (.identifier "x") false
  if code = "workflow.x = 1;" then
    .ok ⟨[], fun _ => "",
      [.expressionStatement (.assignment "=" workflowX (.literal (.scalar (.atom 1))))]⟩
  else if code = "const o = {}; o.x = 1;" then
    .ok ⟨[], fun _ => "",
      [.variableDeclaration "const" [⟨.identifier "o", some (.object [])⟩],
        .expressionStatement
          (.assignment "=" (.member (.identifier "o") (.identifier "x") false)
            (.literal (.scalar (.atom 1))))]⟩
  else if code = "export default workflow.x;" then
    .ok ⟨[], fun _ => "", [.exportDefaultDeclaration workflowX]⟩
  else .error (.error "InterpreterError" "Failed to parse SDK code" none)

theorem smallEnvironment_isolated : Isolated smallEnvironment smallSdk where
  call region function thisArg args isVisible _ _ := by
    refine ⟨fun heap heap' agree _ => ?_, fun heap closed => ?_⟩
    · unfold smallEnvironment
      simp only
      split
      · exact ⟨rfl, agree⟩
      · exact ⟨rfl, agree⟩
    · unfold smallEnvironment
      simp only
      split
      · refine ⟨closed, fun value isValue => ?_⟩
        cases isValue
        rintro address ⟨⟩
        exact .inl rfl
      · refine ⟨closed, fun value isValue => ?_⟩
        cases isValue
        exact Value.within_scalar _
  stringify region args _ := by
    refine ⟨fun heap heap' agree _ => ⟨rfl, agree⟩, fun heap closed => ⟨closed, ?_⟩⟩
    intro value isValue
    cases isValue
    exact Value.within_scalar _
  repeatString region s args _ := by
    refine ⟨fun heap heap' agree _ => ⟨rfl, agree⟩, fun heap closed => ⟨closed, ?_⟩⟩
    intro value isValue
    cases isValue
    exact Value.within_scalar _
  callOthers function thisArg args region heap other _ := by
    unfold smallEnvironment
    simp only
    split
    · rfl
    · rfl
  stringifyOthers _ _ _ _ _ := rfl
  repeatStringOthers _ _ _ _ _ _ := rfl
  objectPrototype := rfl
  arrayPrototype := rfl
  stringPrototype := rfl
  booleanPrototype := rfl
  atomPrototype _ := rfl
  sdkFunctions name function found := by
    have member := Dict.mem_entries_iff.mpr found
    simp [smallSdk, Dict.set, Dict.assign, Dict.empty] at member
    rw [member.2]

theorem smallHeap_closed : smallHeap.Closed (· = 0) := by
  rintro region rfl record member
  apply Record.Within.of_entries
  · simp only [smallHeap, if_true, List.mem_cons, List.not_mem_nil, or_false] at member
    rcases member with rfl | rfl | rfl | rfl | rfl | rfl | rfl
    all_goals
      rintro address ⟨⟩
    all_goals rfl
  · simp only [smallHeap, if_true, List.mem_cons, List.not_mem_nil, or_false] at member
    rcases member with rfl | rfl | rfl | rfl | rfl | rfl | rfl
    all_goals
      intro entry isEntry
      simp [Objects.objectOf, Objects.Table.empty, Dict.set, Dict.assign, Dict.empty]
        at isEntry
    all_goals
      subst isEntry
      rintro address ⟨⟩
      rfl

set_option maxRecDepth 4000 in
theorem interpretSDKCode_after_own
    : outcomeOf 2
        (interpretSDKCode smallParse smallEnvironment smallSdk 2
          (heapOf
            (interpretSDKCode smallParse smallEnvironment smallSdk 1 smallHeap
              "const o = {}; o.x = 1;"))
          "export default workflow.x;")
      = outcomeOf 2
          (interpretSDKCode smallParse smallEnvironment smallSdk 2 smallHeap
            "export default workflow.x;") := by
  refine interpretSDKCode_after smallParse smallEnvironment smallSdk smallEnvironment_isolated ?_
    smallHeap smallHeap_closed "const o = {}; o.x = 1;" "export default workflow.x;"
    (by decide) (by decide) ?_
  · intro code program isParsed record member
    unfold smallParse at isParsed
    split at isParsed
    · rw [← Except.ok.inj isParsed] at member
      contradiction
    · split at isParsed
      · rw [← Except.ok.inj isParsed] at member
        contradiction
      · split at isParsed
        · rw [← Except.ok.inj isParsed] at member
          contradiction
        · contradiction
  · have events
        : traceOf (interpretSDKCode smallParse smallEnvironment smallSdk 1 smallHeap
            "const o = {}; o.x = 1;")
          = [.assigned (.object ⟨1, 0⟩) (.name "x") (.scalar (.atom 1))] := by decide
    rw [events]
    intro target key value member address isAddress
    obtain ⟨rfl, -, -⟩ := Event.assigned.inj (List.mem_singleton.mp member)
    rw [← Option.some.inj isAddress]

set_option maxRecDepth 4000 in
/-- A property of a function of the SDK stays for the next program. -/
theorem interpretSDKCode_leaks
    : (outcomeOf 2
        (interpretSDKCode smallParse smallEnvironment smallSdk 2 smallHeap
          "export default workflow.x;")).1
        = .ok .undefined
      ∧ (outcomeOf 2
          (interpretSDKCode smallParse smallEnvironment smallSdk 2
            (heapOf
              (interpretSDKCode smallParse smallEnvironment smallSdk 1 smallHeap
                "workflow.x = 1;"))
            "export default workflow.x;")).1
        = .ok (.scalar (.atom 1)) := by
  constructor
  · decide
  · decide

end N8n.WorkflowSdk
