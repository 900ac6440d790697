import N8n.Library.Regions
import N8n.Library.TwoRuns
import N8n.WorkflowSdk.AllowedCalls

/-! Programs one after another, which share the functions of the SDK: as long as the first one
changes only objects that it has made, the second one does what it does without the first.
-/

namespace N8n.WorkflowSdk

open N8n.Objects (Key)
open N8n.Prototypes
open N8n.Exec (Alike)

variable {N : Type}

/-! ### Functions that keep to a region -/

/-- What a program sees that runs in a region: the shared objects in region 0, and its own. -/
def Visible (region : Nat) : Nat → Prop := fun other => other = 0 ∨ other = region

/-- The code only depends on visible objects, and makes or gives back none that refer to
others.
-/
structure Contained (region : Nat) (run : Nat → Heap N → Except JsError (Value N) × Heap N)
    : Prop where
  same
    : ∀ heap heap' : Heap N,
        heap.Agree (Visible region) heap'
        → heap.Closed (Visible region)
        → (run region heap).1 = (run region heap').1
          ∧ (run region heap).2.Agree (Visible region) (run region heap').2
  closed
    : ∀ heap : Heap N,
        heap.Closed (Visible region)
        → (run region heap).2.Closed (Visible region)
          ∧ ∀ value, (run region heap).1 = .ok value → value.Within (Visible region)

/-- The code changes no objects but those of the region in which it runs. -/
def KeepsOthers (run : Nat → Heap N → Except JsError (Value N) × Heap N) : Prop :=
  ∀ region heap other, other ≠ region → (run region heap).2 other = heap other

/-- The functions have no state but the objects they can reach, and do not change the shared
ones, which are there before any program.
-/
structure Isolated (environment : Environment N) (sdkFunctions : Dict String Address) : Prop where
  call
    : ∀ region function thisArg args,
        Visible region function.region
        → thisArg.Within (Visible region)
        → (∀ arg ∈ args, arg.Within (Visible region))
        → Contained region (environment.call function thisArg args)
  stringify
    : ∀ region args,
        (∀ arg ∈ args, arg.Within (Visible region))
        → Contained region (environment.stringify args)
  repeatString
    : ∀ region s args,
        (∀ arg ∈ args, arg.Within (Visible region))
        → Contained region (environment.repeatString s args)
  callOthers : ∀ function thisArg args, KeepsOthers (environment.call function thisArg args)
  stringifyOthers : ∀ args, KeepsOthers (environment.stringify args)
  repeatStringOthers : ∀ s args, KeepsOthers (environment.repeatString s args)
  objectPrototype : environment.objectPrototype.region = 0
  arrayPrototype : environment.arrayPrototype.region = 0
  stringPrototype : environment.stringPrototype.region = 0
  booleanPrototype : environment.booleanPrototype.region = 0
  atomPrototype : ∀ a, (environment.atomPrototype a).region = 0
  sdkFunctions : ∀ name function, sdkFunctions.get? name = some function → function.region = 0

/-! ### States that a program cannot tell apart -/

structure Indistinct (region : Nat) (state state' : State N) : Prop where
  agree : state.heap.Agree (Visible region) state'.heap
  closed : state.heap.Closed (Visible region)
  declared : state.variableMap = state'.variableMap
  within
    : ∀ name value, state.variableMap.get? name = some value → value.Within (Visible region)
  renamed : state.renamedVariables = state'.renamedVariables
  trace : state.trace = state'.trace

/-- Equal results, of which the property holds. -/
def Same {α : Type} (holds : α → Prop) (result result' : α) : Prop :=
  result = result' ∧ holds result

variable {region : Nat} {α : Type} {holds : α → Prop} {value : Value N}

theorem alike_pure {result : α} (isGood : holds result)
    : Alike (Indistinct (N := N) region) (Same holds) (pure result) (pure result) :=
  Alike.pure ⟨rfl, isGood⟩

theorem alike_raise {outcome : Except JsError α} (isGood : ∀ a, outcome = .ok a → holds a)
    : Alike (Indistinct (N := N) region) (Same holds) (raise outcome) (raise outcome) := by
  cases outcome with
  | ok result => exact alike_pure (isGood result rfl)
  | error error => exact Alike.throw error

theorem alike_update {good : PUnit → Prop} {change change' : State N → State N}
    (isGood : good ⟨⟩)
    (keeps : ∀ state state', Indistinct region state state'
      → Indistinct region (change state) (change' state'))
    : Alike (Indistinct region) (Same good) (modify change) (modify change') :=
  fun state state' rel => ⟨⟨rfl, isGood⟩, keeps state state' rel⟩

theorem alike_record {good : PUnit → Prop} {event : Event N} (isGood : good ⟨⟩)
    : Alike (Indistinct region) (Same good) (record event) (record event) :=
  alike_update isGood (fun _ _ rel => ⟨rel.agree, rel.closed, rel.declared, rel.within,
    rel.renamed, congrArg (· ++ [event]) rel.trace⟩)

theorem alike_heap {heap heap' : Heap N} (agree : heap.Agree (Visible region) heap')
    (closed : heap.Closed (Visible region))
    : Alike (Indistinct region) (Same (fun _ => True))
        (modify (fun state => { state with heap }))
        (modify (fun state => { state with heap := heap' })) :=
  alike_update trivial (fun _ _ rel => ⟨agree, closed, rel.declared, rel.within, rel.renamed,
    rel.trace⟩)

/-- A step whose result is the same on both sides, and then the rest. -/
theorem alike_bind {β : Type} {other : β → Prop} {program program' : Interpretation N α}
    {next next' : α → Interpretation N β}
    (early : Alike (Indistinct region) (Same holds) program program')
    (late : ∀ result, holds result
      → Alike (Indistinct region) (Same other) (next result) (next' result))
    : Alike (Indistinct region) (Same other) (program >>= next) (program' >>= next') := by
  refine early.bind ?_
  rintro result _ ⟨rfl, isGood⟩
  exact late result isGood

theorem alike_record_seq {next : Unit → Interpretation N α} {event : Event N}
    (late : Alike (Indistinct region) (Same holds) (next ⟨⟩) (next ⟨⟩))
    : Alike (Indistinct region) (Same holds) (record event >>= next) (record event >>= next) := by
  have early : Alike (Indistinct region) (Same (fun _ => True)) (record event) (record event) :=
    alike_record trivial
  exact alike_bind early (fun _ _ => late)

namespace SDKInterpreter

variable {interpreter : SDKInterpreter N} {route : Route} {thisArg : Value N}
  {args : List (Value N)} {function func address : Address} {key : Key}
  {heap heap' : Heap N}
  (isolated : Isolated interpreter.environment interpreter.sdkFunctions)

variable (interpreter key) in
theorem propertyFrom_agree (agree : heap.Agree (Visible region) heap')
    (closed : heap.Closed (Visible region)) (isVisible : Visible region address.region)
    : interpreter.propertyFrom heap key address = interpreter.propertyFrom heap' key address
      ∧ (interpreter.propertyFrom heap key address).Within (Visible region) := by
  unfold propertyFrom
  refine ⟨by rw [agree.find? closed isVisible], ?_⟩
  split
  · exact Value.within_scalar _
  · exact Value.within_scalar _
  · next found => exact closed.find? isVisible found
  · exact Value.within_scalar _

include isolated

variable (key) in
theorem property_agree (agree : heap.Agree (Visible region) heap')
    (closed : heap.Closed (Visible region)) (within : value.Within (Visible region))
    : interpreter.property heap value key = interpreter.property heap' value key
      ∧ (interpreter.property heap value key).Within (Visible region) := by
  have shared {address : Address} (isShared : address.region = 0) :=
    propertyFrom_agree interpreter key agree closed (.inl isShared)
  unfold property
  split
  · next address => exact propertyFrom_agree interpreter key agree closed (within address rfl)
  · next address => exact propertyFrom_agree interpreter key agree closed (within address rfl)
  · split
    · split
      · exact ⟨rfl, Value.within_scalar _⟩
      · exact shared isolated.stringPrototype
    · split
      · exact ⟨rfl, Value.within_scalar _⟩
      · exact shared isolated.stringPrototype
  · exact shared isolated.booleanPrototype
  · exact shared (isolated.atomPrototype _)
  · exact ⟨rfl, Value.within_scalar _⟩

variable (key) in
theorem method_agree (agree : heap.Agree (Visible region) heap')
    (closed : heap.Closed (Visible region)) (within : value.Within (Visible region))
    : interpreter.methodOf heap value key = interpreter.methodOf heap' value key
      ∧ (interpreter.methodOf heap value key).Within (Visible region) := by
  unfold methodOf
  split
  · exact property_agree key isolated agree closed within
  · exact ⟨rfl, Value.within_scalar _⟩

omit isolated in
theorem alike_external {run : Nat → Heap N → Except JsError (Value N) × Heap N}
    (contained : Contained interpreter.region run)
    : Alike (Indistinct interpreter.region) (Same (Value.Within (Visible interpreter.region)))
        (interpreter.external run) (interpreter.external run) := by
  refine Alike.get.bind (fun state state' rel => ?_)
  obtain ⟨sameOutcome, agree⟩ := contained.same state.heap state'.heap rel.agree rel.closed
  obtain ⟨closed, within⟩ := contained.closed state.heap rel.closed
  refine alike_bind (alike_heap agree closed) (fun _ _ => ?_)
  rw [← sameOutcome]
  refine alike_bind (alike_raise within) (fun value isWithin => ?_)
  exact alike_record_seq (alike_pure isWithin)

theorem alike_invoke (isVisible : Visible interpreter.region function.region)
    (thisWithin : thisArg.Within (Visible interpreter.region))
    (argsWithin : ∀ arg ∈ args, arg.Within (Visible interpreter.region))
    : Alike (Indistinct interpreter.region) (Same (Value.Within (Visible interpreter.region)))
        (interpreter.invoke function route thisArg args)
        (interpreter.invoke function route thisArg args) :=
  alike_record_seq (alike_external (isolated.call _ _ _ _ isVisible thisWithin argsWithin))

omit isolated in
theorem alike_allocate {object : Record N} (within : object.Within (Visible interpreter.region))
    : Alike (Indistinct interpreter.region)
        (Same (fun address => address.region = interpreter.region))
        (interpreter.allocate object) (interpreter.allocate object) := by
  refine Alike.get.bind (fun state state' rel => ?_)
  obtain ⟨sameAddress, agree⟩
      : (state.heap.allocate interpreter.region object).1
          = (state'.heap.allocate interpreter.region object).1
        ∧ _ := rel.agree.allocate (.inr rfl)
  refine alike_bind (alike_heap agree (rel.closed.allocate within)) (fun _ _ => ?_)
  rw [← sameAddress]
  exact alike_pure rfl

omit isolated in
theorem alike_put (isVisible : Visible interpreter.region address.region)
    (within : value.Within (Visible interpreter.region))
    : Alike (Indistinct interpreter.region) (Same (fun _ => True))
        (interpreter.put address key value) (interpreter.put address key value) := by
  refine Alike.get.bind (fun state state' rel => ?_)
  rcases rel.agree.put rel.closed isVisible within
      (interpreter.environment.toLength value) with
    ⟨error, isError, isError'⟩ | ⟨changed, changed', isChanged, isChanged', agree, closed⟩
  · rw [isError, isError']
    exact Alike.throw error
  · rw [isChanged, isChanged']
    exact alike_heap agree closed

omit isolated in
theorem within_arrayOf {values : List (Value N)}
    (within : ∀ value ∈ values, value.Within (Visible region)) {key : Key}
    {property : Property N}
    (found : (Objects.arrayOf
      (values.map (fun value => Property.data value true true))).get? key = some property)
    : property.Within (Visible region) := by
  obtain ⟨place, -, isValue⟩ := Objects.get?_arrayOf found
  obtain ⟨value, isPlace, rfl⟩ := List.mem_map.mp (List.mem_of_getElem? isValue)
  exact within value isPlace

theorem alike_array (within : ∀ arg ∈ args, arg.Within (Visible interpreter.region))
    : Alike (Indistinct interpreter.region) (Same (Value.Within (Visible interpreter.region)))
        (interpreter.array args) (interpreter.array args) := by
  have isWithin
      : Record.Within (Visible interpreter.region)
          ⟨.object interpreter.environment.arrayPrototype, true,
            Objects.arrayOf (args.map (fun value => Property.data value true true))⟩ := by
    refine ⟨?_, fun key property found => within_arrayOf within found⟩
    rintro address ⟨⟩
    exact .inl isolated.arrayPrototype
  refine alike_bind (alike_allocate isWithin) (fun address isOwn => alike_pure ?_)
  rintro other ⟨⟩
  exact .inr isOwn

theorem items_agree (agree : heap.Agree (Visible interpreter.region) heap')
    (closed : heap.Closed (Visible interpreter.region))
    (within : value.Within (Visible interpreter.region))
    : interpreter.items heap value = interpreter.items heap' value
      ∧ ∀ item ∈ interpreter.items heap value, item.Within (Visible interpreter.region) := by
  have read (key : Key) := property_agree key isolated agree closed within
  unfold items
  split
  · next address =>
      rw [← agree.record? (within address rfl)]
      split
      · exact ⟨rfl, fun _ member => by contradiction⟩
      · refine ⟨List.map_congr_left (fun place _ => (read (.index place)).1), ?_⟩
        intro item member
        obtain ⟨place, -, rfl⟩ := List.mem_map.mp member
        exact (read (.index place)).2
  · exact ⟨rfl, fun _ member => by contradiction⟩

omit isolated in
theorem alike_declare {name : String} (isWithin : value.Within (Visible interpreter.region))
    : Alike (Indistinct interpreter.region) (Same (fun _ => True))
        (declare name value) (declare name value) := by
  refine alike_update trivial (fun state state' rel => ?_)
  refine ⟨rel.agree, rel.closed, by simp only [rel.declared], ?_, rel.renamed, rel.trace⟩
  intro other found isFound
  rw [Dict.get?_set] at isFound
  split at isFound
  · exact Option.some.inj isFound ▸ isWithin
  · exact rel.within other found isFound

/-- Two runs in which nothing can be told apart. -/
def alikeRules : ProgramRules interpreter where
  Holds given _ good program :=
    given → Alike (Indistinct interpreter.region) (Same good) program program
  Good := Value.Within (Visible interpreter.region)
  Seen := Value.Within (Visible interpreter.region)
  Own address := address.region = interpreter.region
  Called function _ := Visible interpreter.region function.region
  Converts := True
  Stable look ok := ∀ state state', Indistinct interpreter.region state state' →
    look state = look state' ∧ ok (look state)
  pure isGood isGiven := alike_pure (isGood isGiven)
  throw _ := Alike.throw _
  bind first second isGiven :=
    alike_bind (first isGiven) (fun result isGood => second result ⟨isGiven, isGood⟩)
  weaken isGiven alike isStronger := alike (isGiven isStronger)
  look _ stable same goesOn isGiven := Alike.get.bind (fun state state' rel => by
    obtain ⟨sameSeen, isOk⟩ := stable isGiven state state' rel
    rw [← same state state' sameSeen]
    exact goesOn state ⟨isGiven, isOk⟩)
  property within _ _ rel := property_agree _ isolated rel.agree rel.closed within
  method within _ _ rel := method_agree _ isolated rel.agree rel.closed within
  items within _ _ rel := items_agree isolated rel.agree rel.closed within
  record? within _ _ rel := by
    refine ⟨rel.agree.record? (within _ rfl), fun object found key value _ _ isProperty => ?_⟩
    exact (rel.closed.record? (within _ rfl) found).properties key _ isProperty
  declarations _ _ rel := ⟨Prod.ext rel.declared rel.renamed, rel.within⟩
  read within isGiven := alike_record (within isGiven)
  converted _ := alike_record trivial
  assigned _ := alike_record trivial
  safe _ _ := alike_record trivial
  invoke isVisible thisWithin argsWithin isGiven :=
    alike_invoke isolated (isVisible isGiven) (thisWithin isGiven) (argsWithin isGiven)
  stringify within isGiven := alike_external (isolated.stringify _ _ (within isGiven))
  repeatString within isGiven := alike_external (isolated.repeatString _ _ _ (within isGiven))
  create _ := by
    refine alike_allocate ⟨?_, fun key property found => by contradiction⟩
    rintro address ⟨⟩
    exact .inl isolated.objectPrototype
  array within isGiven := alike_array isolated (within isGiven)
  put isOwn within isGiven := alike_put (.inr (isOwn isGiven)) (within isGiven)
  store isAddress targetWithin within isGiven :=
    alike_record_seq (alike_bind
      (alike_put (targetWithin isGiven _ isAddress) (within isGiven)) (fun _ _ =>
        alike_pure (within isGiven)))
  declare within isGiven := alike_declare (within isGiven)
  rename _ := alike_update trivial (fun _ _ rel => ⟨rel.agree, rel.closed, rel.declared, rel.within,
    by simp only [rel.renamed], rel.trace⟩)
  scalar := Value.within_scalar _
  regExp := by
    rintro place _ ⟨⟩
    exact .inr rfl
  own isOwn := by
    rintro _ ⟨⟩
    exact .inr isOwn
  sdkFunction found := by
    rintro address ⟨⟩
    exact .inl (isolated.sdkFunctions _ _ found)
  seen within := within
  prototype := by
    rintro address ⟨⟩
    exact .inl isolated.objectPrototype
  calledGood within := within _ rfl
  calledMethod within _ := within _ rfl
  calledSafe within := within _ rfl
  calledApply within := within _ rfl
  calledConversion _ within := within _ rfl

end SDKInterpreter

end N8n.WorkflowSdk
