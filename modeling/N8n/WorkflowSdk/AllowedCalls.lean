import N8n.WorkflowSdk.ProgramRules

/-! Which functions the interpreter invokes. As long as a program obtains no functions but
those of the SDK, it calls none but these and the methods that are allowed.
-/

namespace N8n.WorkflowSdk

open N8n.Objects (Key)
open N8n.Prototypes

variable {N : Type} {sdkFunctions : Dict String Address}

/-! ### Traces -/

def IsSdkFunction (sdkFunctions : Dict String Address) (function : Address) : Prop :=
  ∃ name, sdkFunctions.get? name = some function

/-- The value is no function, or a function of the SDK. -/
def Tame (sdkFunctions : Dict String Address) (value : Value N) : Prop :=
  ∀ function, value = .function function → IsSdkFunction sdkFunctions function

/-- What an invocation has to be: of a function of the SDK, or of an allowed method that is
stored under no other name where the program has read it. The safe methods of `JSON` and of
strings have no address.
-/
def Permitted (sdkFunctions : Dict String Address) (trace : List (Event N)) : Event N → Prop
  | .invoked (.function function) route =>
      IsSdkFunction sdkFunctions function
      ∨ (∃ name ∈ ALLOWED_METHODS, route = .method name)
        ∧ ∀ key, .read key (.function function) ∈ trace
          → ∃ name ∈ ALLOWED_METHODS, key = .name name
  | _ => True

/-- A step that gives the program no function that it could misuse: what it reads and what a
function returns is tame, no object is made a string or a number by its own methods, no
method of `Object.prototype` is taken for a safe one, and no function has another `apply`.
-/
def Confined (sdkFunctions : Dict String Address) : Event N → Prop
  | .read _ value => Tame sdkFunctions value
  | .returned value => Tame sdkFunctions value
  | .converted _ => False
  | .invoked (.function _) (.safeMethod _) => False
  | .invoked _ (.apply _) => False
  | _ => True

def ConfinedTrace (sdkFunctions : Dict String Address) (trace : List (Event N)) : Prop :=
  ∀ event ∈ trace, Confined sdkFunctions event

/-- The part of a permitted invocation that does not depend on the other events. -/
def Called (sdkFunctions : Dict String Address) : Event N → Prop
  | .invoked (.function function) route =>
      IsSdkFunction sdkFunctions function ∨ ∃ name ∈ ALLOWED_METHODS, route = .method name
  | _ => True

/-- What holds in a confined run: only tame values have names. -/
structure Orderly (sdkFunctions : Dict String Address) (state : State N) : Prop where
  called : ∀ event ∈ state.trace, Called sdkFunctions event
  declared : ∀ name value, state.variableMap.get? name = some value → Tame sdkFunctions value

theorem tame_scalar (s : Scalar N) : Tame sdkFunctions (.scalar s) := by
  intro function isFunction
  contradiction

theorem tame_object (address : Address) : Tame (N := N) sdkFunctions (.object address) := by
  intro function isFunction
  contradiction

theorem tame_function {function : Address} (isSdk : IsSdkFunction sdkFunctions function)
    : Tame (N := N) sdkFunctions (.function function) := by
  intro other same
  rwa [← Value.function.inj same]

/-! ### Rules -/

variable {α β : Type} {given stronger : Prop} {good better : α → Prop} {other : β → Prop}

/-- Given the proposition, the program keeps an orderly state orderly and gives a good result,
if what it does is confined.
-/
def Keeps (sdkFunctions : Dict String Address) (given : Prop) (good : α → Prop)
    (program : Interpretation N α)
    : Prop :=
  ∀ state, program.Ensures state
    (fun result final => state.trace <+: final.trace
      ∧ (given → Orderly sdkFunctions state → ConfinedTrace sdkFunctions final.trace
        → Orderly sdkFunctions final ∧ good result))
    (fun final => state.trace <+: final.trace
      ∧ (given → Orderly sdkFunctions state → ConfinedTrace sdkFunctions final.trace
        → Orderly sdkFunctions final))

theorem ConfinedTrace.of_prefix {trace longer : List (Event N)}
    (confined : ConfinedTrace sdkFunctions longer) (isPrefix : trace <+: longer)
    : ConfinedTrace sdkFunctions trace :=
  fun event member => confined event (isPrefix.subset member)

theorem Keeps.pure {result : α} (holds : given → good result)
    : Keeps (N := N) sdkFunctions given good (Pure.pure result) := fun _ =>
  Exec.Ensures.pure ⟨List.prefix_rfl, fun isGiven orderly _ => ⟨orderly, holds isGiven⟩⟩

theorem Keeps.throw {error : JsError}
    : Keeps (N := N) sdkFunctions given good (MonadExcept.throw error) := fun _ =>
  Exec.Ensures.throw ⟨List.prefix_rfl, fun _ orderly _ => orderly⟩

theorem Keeps.bind {program : Interpretation N α} {next : α → Interpretation N β}
    (first : Keeps sdkFunctions given good program)
    (second : ∀ result, Keeps sdkFunctions (given ∧ good result) other (next result))
    : Keeps sdkFunctions given other (program >>= next) := by
  intro state
  refine .bind ((first state).mono ?_ (fun _ ends => ends))
  rintro result middle ⟨begins, keeps⟩
  refine (second result middle).mono ?_ ?_
  · rintro last final ⟨goesOn, keepsOn⟩
    refine ⟨begins.trans goesOn, fun isGiven orderly confined => ?_⟩
    obtain ⟨orderly, isGood⟩ := keeps isGiven orderly (confined.of_prefix goesOn)
    exact keepsOn ⟨isGiven, isGood⟩ orderly confined
  · rintro final ⟨goesOn, keepsOn⟩
    refine ⟨begins.trans goesOn, fun isGiven orderly confined => ?_⟩
    obtain ⟨orderly, isGood⟩ := keeps isGiven orderly (confined.of_prefix goesOn)
    exact keepsOn ⟨isGiven, isGood⟩ orderly confined

theorem Keeps.mono {program : Interpretation N α}
    (keeps : Keeps sdkFunctions given better program) (isGiven : stronger → given)
    (isGood : ∀ result, stronger → better result → good result)
    : Keeps sdkFunctions stronger good program := fun state =>
  (keeps state).mono
    (fun result _ ends => ⟨ends.1, fun isStronger orderly confined =>
      (ends.2 (isGiven isStronger) orderly confined).imp id (isGood result isStronger)⟩)
    (fun _ ends => ⟨ends.1, fun isStronger => ends.2 (isGiven isStronger)⟩)

variable {program : Interpretation N α}

theorem Keeps.record {event : Event N}
    (called : given → Confined sdkFunctions event → Called sdkFunctions event)
    : Keeps sdkFunctions given (fun _ => Confined sdkFunctions event) (record event) := by
  intro state
  refine .update ⟨List.prefix_append _ _, fun isGiven orderly confined => ?_⟩
  have isConfined : Confined sdkFunctions event := confined event (by simp)
  refine ⟨⟨?_, orderly.declared⟩, isConfined⟩
  intro other member
  rcases List.mem_append.mp member with earlier | last
  · exact orderly.called other earlier
  · rw [List.mem_singleton.mp last]
    exact called isGiven isConfined

/-- Only the trace and the declared values matter. -/
theorem Keeps.modify {change : State N → State N}
    (sameTrace : ∀ state, (change state).trace = state.trace)
    (declared : given → ∀ state, Orderly sdkFunctions state → ∀ name value,
      (change state).variableMap.get? name = some value → Tame sdkFunctions value)
    : Keeps sdkFunctions given (fun _ => True) (modify change) := by
  intro state
  refine .update ⟨sameTrace state ▸ List.prefix_rfl, fun isGiven orderly _ => ?_⟩
  refine ⟨⟨?_, declared isGiven state orderly⟩, trivial⟩
  rw [sameTrace]
  exact orderly.called

theorem Keeps.get : Keeps sdkFunctions given (Orderly sdkFunctions) (get : Interpretation N _) :=
  fun _ => Exec.Ensures.get ⟨List.prefix_rfl, fun _ orderly _ => ⟨orderly, orderly⟩⟩

theorem Keeps.raise {outcome : Except JsError α}
    : Keeps (N := N) sdkFunctions given (fun _ => True) (raise outcome) := by
  cases outcome with
  | ok result => exact .pure (fun _ => trivial)
  | error error => exact .throw

/-- A program may begin with any step of which nothing is needed. -/
theorem Keeps.seq {next : α → Interpretation N β}
    (first : Keeps sdkFunctions given (fun _ => True) program)
    (second : ∀ result, Keeps sdkFunctions given other (next result))
    : Keeps sdkFunctions given other (program >>= next) :=
  first.bind (fun result => (second result).mono And.left (fun _ _ isGood => isGood))

/-! ### Operations of the language -/

namespace SDKInterpreter

variable {interpreter : SDKInterpreter N} {route : Route} {thisArg value : Value N}
  {args : List (Value N)} {function func address : Address} {key : Key}

theorem keeps_heap {heap : Heap N}
    : Keeps sdkFunctions given (fun _ => True)
        (modify (fun state => { state with heap }) : Interpretation N PUnit) :=
  Keeps.modify (fun _ => rfl) (fun _ _ orderly => orderly.declared)

theorem keeps_external {run : Nat → Heap N → Except JsError (Value N) × Heap N}
    : Keeps interpreter.sdkFunctions given (Tame interpreter.sdkFunctions)
        (interpreter.external run) := by
  refine Keeps.get.bind (fun state => ?_)
  refine keeps_heap.seq (fun _ => Keeps.raise.seq (fun value => ?_))
  have recorded
      : Keeps interpreter.sdkFunctions (given ∧ Orderly interpreter.sdkFunctions state)
          (fun _ => Tame interpreter.sdkFunctions value) (record (.returned value)) :=
    Keeps.record (fun _ _ => trivial)
  exact recorded.bind (fun _ => Keeps.pure And.right)

/-- A function may be invoked if the way to it is an allowed one, or not a confined one. -/
theorem keeps_invoke
    (called : given → Confined (N := N) interpreter.sdkFunctions
        (.invoked (.function function) route)
      → Called (N := N) interpreter.sdkFunctions (.invoked (.function function) route))
    : Keeps interpreter.sdkFunctions given (Tame interpreter.sdkFunctions)
        (interpreter.invoke function route thisArg args) :=
  (Keeps.record called).bind (fun _ => keeps_external)

theorem keeps_allocate {object : Record N}
    : Keeps interpreter.sdkFunctions given (fun _ => True) (interpreter.allocate object) :=
  Keeps.get.bind (fun _ => keeps_heap.seq (fun _ => Keeps.pure (fun _ => trivial)))

theorem keeps_put
    : Keeps interpreter.sdkFunctions given (fun _ => True) (interpreter.put address key value) :=
  Keeps.get.bind (fun _ => Keeps.raise.seq (fun _ => keeps_heap))

theorem keeps_array
    : Keeps interpreter.sdkFunctions given (Tame interpreter.sdkFunctions)
        (interpreter.array args) :=
  keeps_allocate.seq (fun _ => Keeps.pure (fun _ => tame_object _))

theorem keeps_declare {name : String}
    (isTame : given → Tame interpreter.sdkFunctions value)
    : Keeps interpreter.sdkFunctions given (fun _ => True) (declare name value) := by
  refine .modify (fun _ => rfl) ?_
  intro holds state orderly other found isFound
  rw [Dict.get?_set] at isFound
  split at isFound
  · exact Option.some.inj isFound ▸ isTame holds
  · exact orderly.declared other found isFound

theorem keeps_assigned {target : Value N}
    : Keeps interpreter.sdkFunctions given (fun _ => True)
        (record (.assigned target key value)) := by
  refine (Keeps.record ?_).mono (fun holds => holds) (fun _ _ _ => trivial)
  exact fun _ _ => trivial

/-- A function may be called if no confined run calls it otherwise. What an object has besides
may be anything.
-/
def keepsRules (interpreter : SDKInterpreter N) : ProgramRules interpreter where
  Holds given _ good program := Keeps interpreter.sdkFunctions given good program
  Good := Tame interpreter.sdkFunctions
  Seen _ := True
  Own _ := True
  Called function route :=
    Confined (N := N) interpreter.sdkFunctions (.invoked (.function function) route)
      → Called (N := N) interpreter.sdkFunctions (.invoked (.function function) route)
  Converts := False
  Stable look ok := ∀ state, Orderly interpreter.sdkFunctions state → ok (look state)
  pure := Keeps.pure
  throw := Keeps.throw
  bind := Keeps.bind
  weaken isGiven keeps := keeps.mono isGiven (fun _ _ isGood => isGood)
  look _ stable _ goesOn := Keeps.get.bind (fun state =>
    (goesOn state).mono (fun holds => ⟨holds.1, stable holds.1 state holds.2⟩)
      (fun _ _ isGood => isGood))
  property _ _ _ := trivial
  method _ _ _ := trivial
  items _ _ _ _ _ := trivial
  record? _ _ _ _ _ _ _ _ _ _ := trivial
  declarations _ orderly := orderly.declared
  read _ := Keeps.record (fun _ _ => trivial)
  converted := Keeps.record (fun _ _ => trivial)
  assigned := keeps_assigned
  safe {_ callee _} isSafe := by
    refine (Keeps.record ?_).mono (fun holds => holds) (fun _ _ _ => trivial)
    intro _ _
    cases callee with
    | function address => exact absurd rfl (isSafe address)
    | _ => trivial
  invoke called _ _ := keeps_invoke called
  stringify _ := keeps_external
  repeatString _ := keeps_external
  create := keeps_allocate
  array _ := keeps_array
  put _ _ := keeps_put
  store _ _ isGood :=
    keeps_assigned.seq (fun _ => keeps_put.seq (fun _ => Keeps.pure isGood))
  declare := keeps_declare
  rename := Keeps.modify (fun _ => rfl) (fun _ _ orderly => orderly.declared)
  scalar := tame_scalar _
  regExp := tame_object _
  own _ := tame_object _
  sdkFunction found := tame_function ⟨_, found⟩
  seen _ := trivial
  prototype := trivial
  calledGood isTame _ := .inl (isTame _ rfl)
  calledMethod _ isAllowed _ := .inr ⟨_, isAllowed, rfl⟩
  calledSafe _ never := never.elim
  calledApply _ never := never.elim
  calledConversion never := never.elim

end SDKInterpreter

/-- The trace of a run, whether the program ends with a value or with an error. -/
def traceOf : EStateM.Result JsError (State N) (Value N) → List (Event N)
  | .ok _ state => state.trace
  | .error _ state => state.trace

/-- A run all of whose steps are confined invokes only what it may. -/
theorem interpretProgram_permitted [DecidableEq N] (environment : Environment N)
    (sdkFunctions : Dict String Address) (region : Nat) (heap : Heap N) (program : Program N)
    (confined : ConfinedTrace sdkFunctions
      (traceOf (interpretProgram environment sdkFunctions region heap program)))
    : ∀ event ∈ traceOf (interpretProgram environment sdkFunctions region heap program),
        Permitted sdkFunctions
          (traceOf (interpretProgram environment sdkFunctions region heap program)) event := by
  have start
      : Orderly sdkFunctions (N := N)
          ⟨Function.update heap region program.regExps, Dict.empty, Dict.empty, []⟩ :=
    ⟨fun _ member => by contradiction, fun _ _ found => by contradiction⟩
  have orderly
      : ∀ event ∈ traceOf (interpretProgram environment sdkFunctions region heap program),
          Called sdkFunctions event := by
    let interpreter : SDKInterpreter N := ⟨environment, sdkFunctions, program.sourceText, region⟩
    have keepsAll
        : Keeps sdkFunctions True (Tame sdkFunctions)
            (interpreter.interpret program.body .undefined) :=
      (SDKInterpreter.keepsRules interpreter).interpret program.body (fun _ => tame_scalar _)
    have keeps := keepsAll
      ⟨Function.update heap region program.regExps, Dict.empty, Dict.empty, []⟩
    unfold Exec.Ensures at keeps
    unfold interpretProgram at confined ⊢
    simp only at confined ⊢
    split at keeps
    · next result final ran =>
        rw [ran] at confined ⊢
        exact (keeps.2 trivial start confined).1.called
    · next error final ran =>
        rw [ran] at confined ⊢
        exact (keeps.2 trivial start confined).called
  intro event member
  have isCalled := orderly event member
  cases event with
  | invoked callee route =>
      cases callee with
      | function function =>
          -- A function that is none of the SDK was never read as a property.
          refine isCalled.elim .inl (fun isMethod => ?_)
          by_cases isSdk : IsSdkFunction sdkFunctions function
          · exact .inl isSdk
          · refine .inr ⟨isMethod, ?_⟩
            intro key isRead
            exact absurd (confined _ isRead function rfl) isSdk
      | _ => trivial
  | _ => trivial

/-! ### Two programs -/

/-- Numbers are natural ones here, and the only function that does something is `workflow`,
which gives the one builder there is.
-/
def smallEnvironment : Environment Nat where
  call function _ _ _ heap :=
    if function = ⟨0, 3⟩ then (.ok (.object ⟨0, 4⟩), heap) else (.ok .undefined, heap)
  stringify _ _ heap := (.ok .undefined, heap)
  repeatString s _ _ heap := (.ok (.string s), heap)
  unary _ s := .ok s
  binary _ left _ := .ok left
  typeOf _ := "number"
  isTruthy n := n ≠ 0
  text n := toString n
  number n := n
  stringLength s := s.length
  charAt _ _ := none
  notANumber := 0
  infinity := 0
  toLength _ := none
  literalJson _ := "null"
  objectPrototype := ⟨0, 0⟩
  arrayPrototype := ⟨0, 0⟩
  stringPrototype := ⟨0, 0⟩
  booleanPrototype := ⟨0, 0⟩
  atomPrototype _ := ⟨0, 0⟩
  functionApply := ⟨0, 2⟩
  depth := 3

/-- `Object.prototype` with `toString`, `Function.prototype` with `apply`, `apply`, `workflow`,
the builder with `add`, `add` and `toString`.
-/
def smallHeap : Heap Nat := fun region =>
  let method (name : String) (address : Address) : Objects.Table (Property Nat) :=
    Objects.objectOf [(.name name, .data (.function address) true false)]
  if region = 0 then
    [⟨.scalar .null, true, method "toString" ⟨0, 6⟩⟩,
      ⟨.object ⟨0, 0⟩, true, method "apply" ⟨0, 2⟩⟩,
      ⟨.function ⟨0, 1⟩, true, Objects.Table.empty⟩,
      ⟨.function ⟨0, 1⟩, true, Objects.Table.empty⟩,
      ⟨.object ⟨0, 0⟩, true, method "add" ⟨0, 5⟩⟩,
      ⟨.function ⟨0, 1⟩, true, Objects.Table.empty⟩,
      ⟨.function ⟨0, 1⟩, true, Objects.Table.empty⟩]
  else []

def smallSdk : Dict String Address := Dict.empty.set "workflow" ⟨0, 3⟩

/-- `export default workflow().add("node");` -/
def addingProgram : Program Nat where
  regExps := []
  sourceText _ := ""
  body :=
    [.exportDefaultDeclaration
      (.call
        (.member (.call (.identifier "workflow") []) (.identifier "add") false)
        [.literal (.scalar (.string "node"))])]

/-- `const f = workflow().toString; export default f();` -/
def strayProgram : Program Nat where
  regExps := []
  sourceText _ := ""
  body :=
    [.variableDeclaration "const"
        [⟨.identifier "f",
          some (.member (.call (.identifier "workflow") []) (.identifier "toString") false)⟩],
      .exportDefaultDeclaration (.call (.identifier "f") [])]

set_option maxRecDepth 4000 in
theorem interpretProgram_permitted_add
    : let trace := traceOf (interpretProgram smallEnvironment smallSdk 1 smallHeap addingProgram)
      .invoked (.function ⟨0, 5⟩) (.method "add") ∈ trace
        ∧ ∀ event ∈ trace, Permitted smallSdk trace event := by
  intro trace
  have events
      : trace
        = [.invoked (.function ⟨0, 3⟩) (.sdkFunction "workflow"), .returned (.object ⟨0, 4⟩),
          .invoked (.function ⟨0, 5⟩) (.method "add"), .returned .undefined] := by decide
  refine ⟨by simp [events], interpretProgram_permitted smallEnvironment smallSdk 1 smallHeap
    addingProgram ?_⟩
  change ConfinedTrace smallSdk trace
  simp [events, ConfinedTrace, Confined, Tame, Value.undefined]

set_option maxRecDepth 4000 in
/-- A function that is read into a variable can be called by the name of the variable. -/
theorem interpretProgram_stray
    : let trace := traceOf (interpretProgram smallEnvironment smallSdk 1 smallHeap strayProgram)
      .invoked (.function ⟨0, 6⟩) (.variable "f") ∈ trace
        ∧ ¬∀ event ∈ trace, Permitted smallSdk trace event := by
  intro trace
  have invoked : .invoked (.function ⟨0, 6⟩) (.variable "f") ∈ trace := by decide
  refine ⟨invoked, fun permitted => ?_⟩
  rcases permitted _ invoked with ⟨name, isSdk⟩ | ⟨⟨name, -, isMethod⟩, -⟩
  · have found := Dict.mem_entries_iff.mpr isSdk
    simp [smallSdk, Dict.set, Dict.assign, Dict.empty] at found
  · contradiction

end N8n.WorkflowSdk
