import N8n.WorkflowSdk.Interpreter

/-! A logic of programs in which the interpreter can be followed once: what is shown of the
operations of the language holds of every program that is interpreted.
-/

namespace N8n.WorkflowSdk

open N8n.Objects (Key)
open N8n.Prototypes

variable {N : Type}

/-- Given a proposition, a program keeps to the rules and has a good result. `Good` is said of
the values of expressions, `Seen` of whatever is found in objects, `Own` of new objects, `Called`
of invocations, `Stable` of what a program looks up in its state.
-/
structure ProgramRules (interpreter : SDKInterpreter N) where
  Holds : Prop → {α : Type} → (α → Prop) → Interpretation N α → Prop
  Good : Value N → Prop
  Seen : Value N → Prop
  Own : Address → Prop
  Called : Address → Route → Prop
  Converts : Prop
  Stable : {β : Type} → (State N → β) → (β → Prop) → Prop
  pure {given : Prop} {α : Type} {good : α → Prop} {result : α}
    : (given → good result) → Holds given good (Pure.pure result)
  throw {given : Prop} {α : Type} {good : α → Prop} {error : JsError}
    : Holds given good (MonadExcept.throw error)
  bind {given : Prop} {α β : Type} {good : α → Prop} {other : β → Prop}
      {program : Interpretation N α} {next : α → Interpretation N β}
    : Holds given good program → (∀ result, Holds (given ∧ good result) other (next result))
      → Holds given other (program >>= next)
  weaken {given stronger : Prop} {α : Type} {good : α → Prop} {program : Interpretation N α}
    : (stronger → given) → Holds given good program → Holds stronger good program
  look {given : Prop} {α β : Type} {good : α → Prop} {ok : β → Prop}
      {next : State N → Interpretation N α} (seen : State N → β)
    : (given → Stable seen ok)
      → (∀ state state', seen state = seen state' → next state = next state')
      → (∀ state, Holds (given ∧ ok (seen state)) good (next state))
      → Holds given good (get >>= next)
  property {value : Value N} {key : Key}
    : Seen value → Stable (fun state => interpreter.property state.heap value key) Seen
  method {value : Value N} {key : Key}
    : Seen value → Stable (fun state => interpreter.methodOf state.heap value key) Seen
  items {value : Value N}
    : Seen value
      → Stable (fun state => interpreter.items state.heap value)
          (fun found => ∀ item ∈ found, Seen item)
  record? {address : Address}
    : Seen (.object address)
      → Stable (fun state => state.heap.record? address) (fun found => ∀ object,
          found = some object → ∀ key value writable enumerable,
            object.table.get? key = some (.data value writable enumerable) → Seen value)
  declarations
    : Stable (fun state => (state.variableMap, state.renamedVariables)) (fun found =>
        ∀ name value, found.1.get? name = some value → Good value)
  read {given : Prop} {key : Key} {value : Value N}
    : (given → Seen value) → Holds given (fun _ => Good value) (record (.read key value))
  converted {given : Prop} {value : Value N}
    : Holds given (fun _ => Converts) (record (.converted value))
  assigned {given : Prop} {target value : Value N} {key : Key}
    : Holds given (fun _ => True) (record (.assigned target key value))
  safe {given : Prop} {callee : Callee} {name : String}
    : (∀ function, callee ≠ .function function)
      → Holds given (fun _ => True) (record (.invoked callee (.safeMethod name)))
  invoke {given : Prop} {function : Address} {route : Route} {thisArg : Value N}
      {args : List (Value N)}
    : (given → Called function route) → (given → Seen thisArg) → (given → ∀ arg ∈ args, Seen arg)
      → Holds given Good (interpreter.invoke function route thisArg args)
  stringify {given : Prop} {args : List (Value N)}
    : (given → ∀ arg ∈ args, Seen arg)
      → Holds given Good (interpreter.external (interpreter.environment.stringify args))
  repeatString {given : Prop} {s : String} {args : List (Value N)}
    : (given → ∀ arg ∈ args, Seen arg)
      → Holds given Good (interpreter.external (interpreter.environment.repeatString s args))
  create {given : Prop}
    : Holds given Own
        (interpreter.allocate
          ⟨.object interpreter.environment.objectPrototype, true, Objects.Table.empty⟩)
  array {given : Prop} {values : List (Value N)}
    : (given → ∀ value ∈ values, Seen value) → Holds given Good (interpreter.array values)
  put {given : Prop} {address : Address} {key : Key} {value : Value N}
    : (given → Own address) → (given → Seen value)
      → Holds given (fun _ => True) (interpreter.put address key value)
  store {given : Prop} {address : Address} {target value : Value N} {key : Key}
    : target.address? = some address → (given → Seen target) → (given → Good value)
      → Holds given Good (do
          record (.assigned target key value)
          interpreter.put address key value
          Pure.pure value)
  declare {given : Prop} {name : String} {value : Value N}
    : (given → Good value) → Holds given (fun _ => True) (SDKInterpreter.declare name value)
  rename {given : Prop} {name safeName : String}
    : Holds given (fun _ => True)
        (modify (fun state : State N =>
          { state with renamedVariables := state.renamedVariables.set name safeName }))
  scalar {s : Scalar N} : Good (.scalar s)
  regExp {place : Nat} : Good (.object ⟨interpreter.region, place⟩)
  own {address : Address} : Own address → Good (.object address)
  sdkFunction {name : String} {function : Address}
    : interpreter.sdkFunctions.get? name = some function → Good (.function function)
  seen {value : Value N} : Good value → Seen value
  prototype : Seen (.object interpreter.environment.objectPrototype)
  calledGood {function : Address} {route : Route}
    : Good (.function function) → Called function route
  calledMethod {function : Address} {name : String}
    : Seen (.function function) → name ∈ ALLOWED_METHODS → Called function (.method name)
  calledSafe {function : Address} {name : String}
    : Seen (.function function) → Called function (.safeMethod name)
  calledApply {function func : Address}
    : Seen (.function function) → Called function (.apply func)
  calledConversion {function : Address} {name : String}
    : Converts → Seen (.function function) → Called function (.conversion name)

variable {methodName : String} {object : Expression N} {result : Address} {left right : Value N}

namespace ProgramRules

variable {interpreter : SDKInterpreter N} (rules : ProgramRules interpreter) {given : Prop}
  {α β : Type} {good : α → Prop} {other : β → Prop} {program : Interpretation N α}
  {route : Route} {thisArg value : Value N} {args : List (Value N)} {func : Address} {key : Key}

/-- A program may begin with any step of which nothing is needed. -/
theorem seq {next : α → Interpretation N β} (first : rules.Holds given good program)
    (second : ∀ result, rules.Holds given other (next result))
    : rules.Holds given other (program >>= next) :=
  rules.bind first (fun result => rules.weaken And.left (second result))

theorem raise {outcome : Except JsError α}
    : rules.Holds given (fun _ => True) (raise (N := N) outcome) := by
  cases outcome with
  | ok result => exact rules.pure (fun _ => trivial)
  | error error => exact rules.throw

theorem raise_seq {outcome : Except JsError α} {next : α → Interpretation N β}
    (second : ∀ result, rules.Holds given other (next result))
    : rules.Holds given other (N8n.WorkflowSdk.raise outcome >>= next) :=
  rules.seq rules.raise second

/-! ### Operations of the language -/

theorem applyFunction (called : given → rules.Called func route)
    (funcSeen : given → rules.Seen (.function func)) (thisSeen : given → rules.Seen thisArg)
    (argsSeen : given → ∀ arg ∈ args, rules.Seen arg)
    : rules.Holds given rules.Good (interpreter.applyFunction func route thisArg args) := by
  refine rules.look (fun state => interpreter.property state.heap (.function func) (.name "apply"))
    (fun holds => rules.property (funcSeen holds)) (fun _ _ same => by simp only [same]) ?_
  intro state
  split
  · next apply isApply =>
      split
      · exact rules.invoke (fun holds => called holds.1) (fun holds => thisSeen holds.1)
          (fun holds => argsSeen holds.1)
      · refine rules.bind (rules.array (fun holds => argsSeen holds.1)) (fun list => ?_)
        refine rules.invoke (fun holds => rules.calledApply (isApply ▸ holds.1.2))
          (fun holds => funcSeen holds.1.1) ?_
        intro holds arg member
        rcases List.mem_cons.mp member with rfl | isList
        · exact thisSeen holds.1.1
        · rw [List.mem_singleton.mp isList]
          exact rules.seen holds.2
  · exact rules.throw

theorem convertBy (converts : given → rules.Converts) (valueSeen : given → rules.Seen value)
    (names : List String)
    : rules.Holds given (fun _ => True) (interpreter.convertBy value names) := by
  induction names generalizing given with
  | nil => exact rules.throw
  | cons name others ih =>
      refine rules.look (fun state => interpreter.property state.heap value (.name name))
        (fun holds => rules.property (valueSeen holds)) (fun _ _ same => by simp only [same]) ?_
      intro state
      split
      · next address isMethod =>
          refine rules.bind
            (rules.invoke
              (fun holds => rules.calledConversion (converts holds.1) (isMethod ▸ holds.2))
              (fun holds => valueSeen holds.1) (fun _ _ member => by contradiction))
            (fun result => ?_)
          split
          · exact rules.pure (fun _ => trivial)
          · exact ih (fun holds => converts holds.1.1) (fun holds => valueSeen holds.1.1)
      · exact ih (fun holds => converts holds.1) (fun holds => valueSeen holds.1)

theorem toPrimitive {prefersText : Bool} (valueSeen : given → rules.Seen value)
    : rules.Holds given (fun _ => True) (interpreter.toPrimitive prefersText value) := by
  unfold SDKInterpreter.toPrimitive
  split
  · exact rules.pure (fun _ => trivial)
  · exact rules.bind rules.converted (fun _ =>
      rules.convertBy And.right (fun holds => valueSeen holds.1) _)

theorem toText (valueSeen : given → rules.Seen value)
    : rules.Holds given (fun _ => True) (interpreter.toText value) :=
  rules.seq (rules.toPrimitive valueSeen) (fun _ => rules.pure (fun _ => trivial))

/-! ### Expressions -/

section

variable {evaluate : Expression N → Interpretation N (Value N)}
  (evaluates : ∀ (given : Prop) (node : Expression N),
    rules.Holds given rules.Good (evaluate node))

include evaluates

theorem evaluateAll (nodes : List (Expression N))
    : rules.Holds given (fun args => ∀ arg ∈ args, rules.Seen arg)
        (SDKInterpreter.evaluateAll evaluate nodes) := by
  induction nodes generalizing given with
  | nil => exact rules.pure (fun _ _ member => by contradiction)
  | cons node rest ih =>
      refine rules.bind (evaluates _ node) (fun value => rules.bind ih (fun values => ?_))
      refine rules.pure (fun holds arg member => ?_)
      rcases List.mem_cons.mp member with rfl | later
      · exact rules.seen holds.1.2
      · exact holds.2 arg later

omit evaluates in
theorem getSafeMethod {own : String}
    : rules.Holds given (fun found => ∀ inherited, found = some (some inherited)
          → rules.Seen inherited)
        (interpreter.getSafeMethod own methodName key) := by
  unfold SDKInterpreter.getSafeMethod
  split
  · exact rules.pure (fun _ _ same => by simp at same)
  · refine rules.look
      (fun state => interpreter.property state.heap
        (.object interpreter.environment.objectPrototype) key)
      (fun _ => rules.property rules.prototype) (fun _ _ same => by simp only [same]) ?_
    intro state
    simp only
    split
    · refine rules.pure (fun holds inherited same => ?_)
      exact Option.some.inj (Option.some.inj same) ▸ holds.2
    · exact rules.pure (fun _ _ same => by simp at same)

omit evaluates in
theorem getSafeJSONMethod
    : rules.Holds given (fun found => ∀ inherited, found = some (some inherited)
          → rules.Seen inherited)
        (interpreter.getSafeJSONMethod object methodName key) := by
  unfold SDKInterpreter.getSafeJSONMethod
  split
  · exact rules.getSafeMethod
  · exact rules.pure (fun _ _ same => by simp at same)

omit evaluates in
theorem getSafeStringMethod
    : rules.Holds given (fun found => ∀ s inherited, found = some (s, some inherited)
          → rules.Seen inherited)
        (interpreter.getSafeStringMethod value methodName key) := by
  unfold SDKInterpreter.getSafeStringMethod
  split
  · refine rules.bind rules.getSafeMethod (fun found => rules.pure ?_)
    intro holds s inherited same
    obtain ⟨safeMethod, isFound, isPair⟩ := Option.map_eq_some_iff.mp same
    cases isPair
    exact holds.2 inherited isFound
  · exact rules.pure (fun _ _ _ same => by simp at same)

omit evaluates in
theorem callSafeMethod {callee : Callee} {inherited : Option (Value N)}
    {run : Nat → Heap N → Except JsError (Value N) × Heap N}
    (isSafe : ∀ function, callee ≠ .function function)
    (runs : rules.Holds given rules.Good (interpreter.external run))
    (inheritedSeen : given → ∀ found, inherited = some found → rules.Seen found)
    (argsSeen : given → ∀ arg ∈ args, rules.Seen arg)
    : rules.Holds given rules.Good
        (interpreter.callSafeMethod callee methodName inherited run args) := by
  unfold SDKInterpreter.callSafeMethod
  split
  · exact rules.seq (rules.safe isSafe) (fun _ => runs)
  · exact rules.invoke (fun holds => rules.calledSafe (inheritedSeen holds _ rfl))
      (fun _ => rules.seen rules.scalar) argsSeen
  · exact rules.throw

theorem visitMethodCall {property : Expression N} {computed : Bool}
    {arguments : List (Expression N)}
    : rules.Holds given rules.Good
        (interpreter.visitMethodCall evaluate object property computed arguments) := by
  refine rules.raise_seq (fun _ => rules.raise_seq (fun _ => rules.raise_seq (fun found => ?_)))
  obtain ⟨methodName, key⟩ := found
  refine rules.bind rules.getSafeJSONMethod (fun safeMethod => ?_)
  split
  · refine rules.bind (rules.evaluateAll evaluates arguments) (fun args => ?_)
    refine rules.callSafeMethod (fun _ same => by contradiction) (rules.stringify And.right) ?_
      And.right
    rintro holds inherited rfl
    exact holds.1.2 inherited rfl
  · refine rules.bind (evaluates _ object) (fun thisArg => ?_)
    refine rules.bind rules.getSafeStringMethod (fun safeMethod => ?_)
    split
    · next s safeMethod =>
        refine rules.bind (rules.evaluateAll evaluates arguments) (fun args => ?_)
        refine rules.callSafeMethod (fun _ same => by contradiction)
          (rules.repeatString And.right) ?_ ?_
        · rintro holds inherited rfl
          exact holds.1.2 s inherited rfl
        · intro holds arg member
          rcases List.mem_cons.mp member with rfl | later
          · exact rules.seen rules.scalar
          · exact holds.2 arg later
    · split
      · next isAllowed =>
          have allowed : methodName ∈ ALLOWED_METHODS := of_decide_eq_true isAllowed
          refine rules.look (fun state => interpreter.methodOf state.heap thisArg key)
            (fun holds => rules.method (rules.seen holds.1.2))
            (fun _ _ same => by simp only [same]) ?_
          intro state
          split
          · next func isMethod =>
              refine rules.bind (rules.evaluateAll evaluates arguments) (fun args => ?_)
              exact rules.applyFunction
                (fun holds => rules.calledMethod (isMethod ▸ holds.1.2) allowed)
                (fun holds => isMethod ▸ holds.1.2) (fun holds => rules.seen holds.1.1.1.2)
                And.right
          · exact rules.throw
      · exact rules.throw

omit evaluates in
theorem resolveFunction {name : String}
    : rules.Holds given (fun found => rules.Good found.1) (interpreter.resolveFunction name) := by
  refine rules.look (fun state => (state.variableMap, state.renamedVariables))
    (fun _ => rules.declarations) ?_ (fun state => ?_)
  · intro state state' same
    obtain ⟨sameValues, sameNames⟩ := Prod.mk.inj same
    simp only [sameValues, sameNames]
  · split
    · next func isSdk => exact rules.pure (fun _ => rules.sdkFunction isSdk)
    · simp only
      split
      · next value found => exact rules.pure (fun holds => holds.2 _ value found)
      · exact rules.throw

theorem visitCallExpression {callee : Expression N} {arguments : List (Expression N)}
    : rules.Holds given rules.Good
        (interpreter.visitCallExpression evaluate callee arguments) := by
  refine rules.raise_seq (fun _ => ?_)
  split
  · refine rules.bind rules.resolveFunction (fun found => ?_)
    obtain ⟨func, route⟩ := found
    simp only
    split
    · refine rules.bind (rules.evaluateAll evaluates arguments) (fun args => ?_)
      exact rules.applyFunction (fun holds => rules.calledGood holds.1.2)
        (fun holds => rules.seen holds.1.2) (fun _ => rules.seen rules.scalar) And.right
    · exact rules.throw
  · exact rules.visitMethodCall evaluates
  · exact rules.throw

theorem visitMemberExpression {property : Expression N} {computed : Bool}
    : rules.Holds given rules.Good
        (interpreter.visitMemberExpression evaluate object property computed) := by
  refine rules.raise_seq (fun _ => rules.raise_seq (fun _ => ?_))
  refine rules.bind (evaluates _ object) (fun obj => ?_)
  split
  · exact rules.throw
  · exact rules.throw
  · refine rules.raise_seq (fun key => ?_)
    refine rules.look (fun state => interpreter.property state.heap obj key)
      (fun holds => rules.property (rules.seen holds.2)) (fun _ _ same => by simp only [same]) ?_
    exact fun state => rules.bind (rules.read And.right) (fun _ => rules.pure And.right)

omit evaluates in
theorem assign {source : Record N} (isOwn : given → rules.Own result)
    (within : given → ∀ key value writable enumerable,
      source.table.get? key = some (.data value writable enumerable) → rules.Seen value)
    (keys : List Key)
    : rules.Holds given (fun _ => True) (interpreter.assign result source keys) := by
  induction keys with
  | nil => exact rules.pure (fun _ => trivial)
  | cons key others ih =>
      unfold SDKInterpreter.assign
      split
      · next found =>
          exact rules.seq (rules.put isOwn (fun holds => within holds key _ _ _ found))
            (fun _ => ih)
      · exact ih

omit evaluates in
theorem spreadInto (isOwn : given → rules.Own result) (valueSeen : given → rules.Seen value)
    : rules.Holds given (fun _ => True) (interpreter.spreadInto result value) := by
  unfold SDKInterpreter.spreadInto
  split
  · next source =>
      refine rules.look (fun state => state.heap.record? source)
        (fun holds => rules.record? (valueSeen holds)) (fun _ _ same => by simp only [same]) ?_
      intro state
      split
      · exact rules.pure (fun _ => trivial)
      · next object found =>
          exact rules.assign (fun holds => isOwn holds.1) (fun holds => holds.2 object found) _
  · exact rules.pure (fun _ => trivial)

theorem visitProperties (isOwn : given → rules.Own result) (properties : List (ObjectProperty N))
    : rules.Holds given (fun _ => True)
        (interpreter.visitProperties evaluate result properties) := by
  induction properties generalizing given with
  | nil => exact rules.pure (fun _ => trivial)
  | cons property rest ih =>
      cases property with
      | spread argument =>
          refine rules.bind (evaluates _ argument) (fun spreadValue => ?_)
          exact rules.seq
            (rules.spreadInto (fun holds => isOwn holds.1) (fun holds => rules.seen holds.2))
            (fun _ => ih (fun holds => isOwn holds.1))
      | property key value =>
          refine rules.raise_seq (fun key => rules.bind (evaluates _ value) (fun value => ?_))
          exact rules.seq
            (rules.put (fun holds => isOwn holds.1) (fun holds => rules.seen holds.2))
            (fun _ => ih (fun holds => isOwn holds.1))

theorem visitObjectExpression {properties : List (ObjectProperty N)}
    : rules.Holds given rules.Good
        (interpreter.visitObjectExpression evaluate properties) := by
  refine rules.bind rules.create (fun result => ?_)
  exact rules.seq (rules.visitProperties evaluates And.right properties) (fun _ =>
    rules.pure (fun holds => rules.own holds.2))

theorem visitElement (element : Option (Expression N))
    : rules.Holds given (fun values => ∀ value ∈ values, rules.Seen value)
        (interpreter.visitElement evaluate element) := by
  unfold SDKInterpreter.visitElement
  split
  · refine rules.pure (fun _ value member => ?_)
    rw [List.mem_singleton.mp member]
    exact rules.seen rules.scalar
  · refine rules.bind (evaluates _ _) (fun spreadValue => ?_)
    refine rules.look (fun state => interpreter.items state.heap spreadValue)
      (fun holds => rules.items (rules.seen holds.2)) (fun _ _ same => by simp only [same]) ?_
    exact fun state => rules.pure And.right
  · refine rules.bind (evaluates _ _) (fun value => rules.pure (fun holds other member => ?_))
    rw [List.mem_singleton.mp member]
    exact rules.seen holds.2

theorem visitElements (elements : List (Option (Expression N)))
    : rules.Holds given (fun values => ∀ value ∈ values, rules.Seen value)
        (interpreter.visitElements evaluate elements) := by
  induction elements generalizing given with
  | nil => exact rules.pure (fun _ _ member => by contradiction)
  | cons element rest ih =>
      refine rules.bind (rules.visitElement evaluates element) (fun values => ?_)
      refine rules.bind ih (fun others => rules.pure (fun holds value member => ?_))
      exact (List.mem_append.mp member).elim (holds.1.2 value) (holds.2 value)

omit evaluates in
theorem visitIdentifier {name : String}
    : rules.Holds given rules.Good (interpreter.visitIdentifier name) := by
  refine rules.raise_seq (fun _ => ?_)
  refine rules.look (fun state => (state.variableMap, state.renamedVariables))
    (fun _ => rules.declarations) ?_ (fun state => ?_)
  · intro state state' same
    obtain ⟨sameValues, sameNames⟩ := Prod.mk.inj same
    simp only [sameValues, sameNames]
  · simp only
    split
    · next value found => exact rules.pure (fun holds => holds.2 _ value found)
    · split
      · next function isSdk => exact rules.pure (fun _ => rules.sdkFunction isSdk)
      · split
        all_goals first
          | exact rules.pure (fun _ => rules.scalar)
          | exact rules.throw

theorem evaluateTemplateExpression {expression : Expression N}
    : rules.Holds given (fun _ => True)
        (interpreter.evaluateTemplateExpression evaluate expression) := by
  unfold SDKInterpreter.evaluateTemplateExpression
  split
  · exact rules.pure (fun _ => trivial)
  · exact rules.bind (evaluates _ expression) (fun _ =>
      rules.toText (fun holds => rules.seen holds.2))

theorem visitTemplateLiteral (quasis : List TemplateElement)
    (expressions : List (Expression N))
    : rules.Holds given (fun _ => True)
        (interpreter.visitTemplateLiteral evaluate quasis expressions) := by
  induction quasis generalizing expressions with
  | nil => exact rules.pure (fun _ => trivial)
  | cons quasi rest ih =>
      cases expressions with
      | nil => exact rules.seq (ih []) (fun _ => rules.pure (fun _ => trivial))
      | cons expression later =>
          exact rules.seq (rules.evaluateTemplateExpression evaluates) (fun _ =>
            rules.seq (ih later) (fun _ => rules.pure (fun _ => trivial)))

theorem visitUnaryExpression {operator : UnaryOperator} {argument : Expression N}
    : rules.Holds given rules.Good
        (interpreter.visitUnaryExpression evaluate operator argument) := by
  refine rules.bind (evaluates _ argument) (fun arg => ?_)
  split
  · exact rules.pure (fun _ => rules.scalar)
  · exact rules.pure (fun _ => rules.scalar)
  · exact rules.pure (fun _ => rules.scalar)
  · exact rules.throw
  · exact rules.seq (rules.toPrimitive (fun holds => rules.seen holds.2)) (fun _ =>
      rules.raise_seq (fun _ => rules.pure (fun _ => rules.scalar)))

omit evaluates in
theorem arithmetic {operator : BinaryOperator} (leftSeen : given → rules.Seen left)
    (rightSeen : given → rules.Seen right)
    : rules.Holds given rules.Good (interpreter.arithmetic operator left right) :=
  rules.seq (rules.toPrimitive leftSeen) (fun _ => rules.seq (rules.toPrimitive rightSeen)
    (fun _ => rules.raise_seq (fun _ => rules.pure (fun _ => rules.scalar))))

variable [DecidableEq N]

omit evaluates in
theorem looselyEqual (leftSeen : given → rules.Seen left) (rightSeen : given → rules.Seen right)
    : rules.Holds given rules.Good (interpreter.looselyEqual left right) := by
  unfold SDKInterpreter.looselyEqual
  split
  · exact rules.pure (fun _ => rules.scalar)
  · exact rules.arithmetic leftSeen rightSeen
  · split
    · exact rules.pure (fun _ => rules.scalar)
    · exact rules.arithmetic leftSeen rightSeen

omit evaluates in
theorem strictlyEqual
    : rules.Holds given rules.Good (interpreter.strictlyEqual left right) := by
  unfold SDKInterpreter.strictlyEqual
  split
  · exact rules.raise_seq (fun _ => rules.pure (fun _ => rules.scalar))
  · exact rules.pure (fun _ => rules.scalar)

theorem visitBinaryExpression {operator : BinaryOperator} {left right : Expression N}
    : rules.Holds given rules.Good
        (interpreter.visitBinaryExpression evaluate operator left right) := by
  refine rules.bind (evaluates _ left) (fun left => ?_)
  refine rules.bind (evaluates _ right) (fun right => ?_)
  have leftSeen (holds : (given ∧ rules.Good left) ∧ rules.Good right) : rules.Seen left :=
    rules.seen holds.1.2
  have rightSeen (holds : (given ∧ rules.Good left) ∧ rules.Good right) : rules.Seen right :=
    rules.seen holds.2
  split
  · split
    · exact rules.seq (rules.toText leftSeen) (fun _ => rules.seq (rules.toText rightSeen)
        (fun _ => rules.pure (fun _ => rules.scalar)))
    · exact rules.arithmetic leftSeen rightSeen
  · exact rules.looselyEqual leftSeen rightSeen
  · exact rules.seq (rules.looselyEqual leftSeen rightSeen) (fun _ =>
      rules.pure (fun _ => rules.scalar))
  · exact rules.strictlyEqual
  · exact rules.seq rules.strictlyEqual (fun _ => rules.pure (fun _ => rules.scalar))
  · exact rules.throw
  · exact rules.arithmetic leftSeen rightSeen

theorem visitLogicalExpression {operator : LogicalOperator} {left right : Expression N}
    : rules.Holds given rules.Good
        (interpreter.visitLogicalExpression evaluate operator left right) := by
  refine rules.bind (evaluates _ left) (fun left => ?_)
  split
  all_goals
    split
    all_goals first
      | exact evaluates _ right
      | exact rules.pure And.right

omit [DecidableEq N] in
theorem visitConditionalExpression {test consequent alternate : Expression N}
    : rules.Holds given rules.Good
        (interpreter.visitConditionalExpression evaluate test consequent alternate) := by
  refine rules.bind (evaluates _ test) (fun test => ?_)
  split
  · exact evaluates _ consequent
  · exact evaluates _ alternate

omit [DecidableEq N] in
theorem visitAssignmentExpression {operator : String} {left right : Expression N}
    : rules.Holds given rules.Good
        (interpreter.visitAssignmentExpression evaluate operator left right) := by
  unfold SDKInterpreter.visitAssignmentExpression
  split
  · refine rules.raise_seq (fun _ => rules.raise_seq (fun _ => ?_))
    refine rules.bind (evaluates _ _) (fun obj => ?_)
    split
    · exact rules.throw
    · exact rules.throw
    · refine rules.raise_seq (fun key => rules.bind (evaluates _ right) (fun value => ?_))
      cases obj with
      | scalar s => exact rules.seq rules.assigned (fun _ => rules.throw)
      | _ => exact rules.store rfl (fun holds => rules.seen holds.1.2) And.right
  · exact rules.throw
  · exact rules.throw

theorem evaluateNode (node : Expression N)
    : rules.Holds given rules.Good (interpreter.evaluateNode evaluate node) := by
  cases node with
  | call callee arguments => exact rules.visitCallExpression evaluates
  | member object property computed => exact rules.visitMemberExpression evaluates
  | object properties => exact rules.visitObjectExpression evaluates
  | array elements =>
      exact rules.bind (rules.visitElements evaluates elements) (fun _ => rules.array And.right)
  | identifier name => exact rules.visitIdentifier
  | literal value =>
      refine rules.pure (fun _ => ?_)
      cases value with
      | scalar s => exact rules.scalar
      | regExp place => exact rules.regExp
  | template quasis expressions =>
      exact rules.seq (rules.visitTemplateLiteral evaluates quasis expressions) (fun _ =>
        rules.pure (fun _ => rules.scalar))
  | spread argument => exact evaluates _ argument
  | unary operator isPrefix argument => exact rules.visitUnaryExpression evaluates
  | binary operator left right => exact rules.visitBinaryExpression evaluates
  | logical operator left right => exact rules.visitLogicalExpression evaluates
  | conditional test consequent alternate => exact rules.visitConditionalExpression evaluates
  | assignment operator left right => exact rules.visitAssignmentExpression evaluates
  | other type => exact rules.throw

end

/-! ### Programs -/

variable [DecidableEq N]

theorem evaluate (budget : Nat) (given : Prop) (node : Expression N)
    : rules.Holds given rules.Good (interpreter.evaluate budget node) := by
  induction budget generalizing given node with
  | zero => exact rules.throw
  | succ budget ih => exact rules.evaluateNode ih node

theorem evaluateInit {init : Option (Expression N)}
    : rules.Holds given rules.Good (interpreter.evaluateInit init) := by
  cases init with
  | none => exact rules.pure (fun _ => rules.scalar)
  | some init => exact rules.evaluate _ given init

theorem visitDeclarator {declarator : VariableDeclarator N}
    : rules.Holds given (fun _ => True) (interpreter.visitDeclarator declarator) := by
  unfold SDKInterpreter.visitDeclarator
  split
  · split
    · split
      · refine rules.look (fun state => (state.variableMap, state.renamedVariables))
          (fun _ => rules.declarations) ?_ (fun state => ?_)
        · exact fun _ _ same => by simp only [(Prod.mk.inj same).1]
        · exact rules.bind rules.evaluateInit (fun _ =>
            rules.seq rules.rename (fun _ => rules.declare And.right))
      · exact rules.throw
    · exact rules.bind rules.evaluateInit (fun _ => rules.declare And.right)
  · exact rules.throw

theorem visitVariableDeclaration {kind : String} {declarations : List (VariableDeclarator N)}
    : rules.Holds given (fun _ => True)
        (interpreter.visitVariableDeclaration kind declarations) := by
  unfold SDKInterpreter.visitVariableDeclaration
  split
  · induction declarations with
    | nil => exact rules.pure (fun _ => trivial)
    | cons declarator rest ih => exact rules.seq rules.visitDeclarator (fun _ => ih)
  · exact rules.throw

theorem interpret (body : List (Statement N)) {result : Value N}
    (isGood : given → rules.Good result)
    : rules.Holds given rules.Good (interpreter.interpret body result) := by
  induction body generalizing given result with
  | nil => exact rules.pure isGood
  | cons statement rest ih =>
      cases statement with
      | variableDeclaration kind declarations =>
          exact rules.seq rules.visitVariableDeclaration (fun _ => ih isGood)
      | expressionStatement expression =>
          exact rules.bind (rules.evaluate _ _ expression) (fun _ => ih And.right)
      | exportDefaultDeclaration declaration => exact rules.evaluate _ given declaration
      | other type => exact rules.throw

end ProgramRules

end N8n.WorkflowSdk
