import N8n.Filter.ValidatedFilters

/-! The operators of a filter that negate each other: whatever the one answers, the other answers
the opposite, but for dates that are missing.
-/

namespace N8n.Filter

/-- The operations of a type, each with the one that negates it. -/
def negations : FilterOperatorType → List (String × String)
  | .string =>
      [
        ("empty", "notEmpty"), ("equals", "notEquals"), ("contains", "notContains"),
        ("startsWith", "notStartsWith"), ("endsWith", "notEndsWith"), ("regex", "notRegex")
      ]
  | .number | .boolean | .dateTime => [("empty", "notEmpty"), ("equals", "notEquals")]
  | .array =>
      [("empty", "notEmpty"), ("contains", "notContains"), ("lengthEquals", "lengthNotEquals")]
  | .object => [("empty", "notEmpty")]
  | .any => []

variable {DateTime : Type}

def FilterConditionValue.withOperation (condition : FilterConditionValue DateTime)
    (operation : String)
    : FilterConditionValue DateTime :=
  { condition with operator := { condition.operator with operation } }

/-- Two answers of opposite truth, or one error thrown by both. -/
def Opposite {ε : Type} : Except ε (Value DateTime) → Except ε (Value DateTime) → Prop
  | .ok first, .ok second => second.isTruthy = !first.isTruthy
  | .error first, .error second => first = second
  | _, _ => False

/-- The operations make one test. -/
def Negates (first second : Except JsError (Option (Value DateTime))) : Prop :=
  ∃ test : Except JsError Bool,
    first = (do answer (← test)) ∧ second = (do answer !(← test))

theorem Negates.bind {α : Type} {test : Except JsError α}
    {first second : α → Except JsError (Option (Value DateTime))}
    (negates : ∀ a, Negates (first a) (second a))
    : Negates (test >>= first) (test >>= second) := by
  cases test with
  | error error => exact ⟨.error error, rfl, rfl⟩
  | ok a => exact negates a

theorem Negates.opposite {first second : Except JsError (Option (Value DateTime))}
    (negates : Negates first second) (rest others : List (Except JsError (Option (Value DateTime))))
    : Opposite ((firstAnswer (first :: rest)).mapError Thrown.error)
        ((firstAnswer (second :: others)).mapError .error) := by
  obtain ⟨test, rfl, rfl⟩ := negates
  cases test with
  | error error => rfl
  | ok holds => exact rfl

variable (runtime : Runtime DateTime) {positive negative : String} (ignoreCase doesExist : Bool)
  (left right : Value DateTime)

theorem negates_answer (holds : Bool)
    : @Negates DateTime (answer holds) (answer !holds) :=
  ⟨.ok holds, rfl, rfl⟩

theorem negates_not_answer (holds : Bool)
    : @Negates DateTime (answer !holds) (answer holds) := by
  simpa only [Bool.not_not] using negates_answer (!holds)

theorem stringOperation_negates (isPair : (positive, negative) ∈ negations .string)
    : Negates (stringOperation runtime positive ignoreCase left right)
        (stringOperation runtime negative ignoreCase left right) := by
  unfold stringOperation
  simp only [negations, List.mem_cons, Prod.mk.injEq, List.not_mem_nil, or_false] at isPair
  rcases isPair with pair | pair | pair | pair | pair | pair
  all_goals
    obtain ⟨rfl, rfl⟩ := pair
    simp only [ne_eq, decide_not, String.reduceEq, decide_true, decide_false, Bool.or_self,
      Bool.true_or, Bool.false_or]
    generalize (if ignoreCase = true then _ else left) = text
    cases text <;> refine Negates.bind (fun text => ?_)
  all_goals first
    | exact negates_answer _
    | exact Negates.bind (fun _ => negates_answer _)

theorem arrayOperation_negates (isPair : (positive, negative) ∈ negations .array)
    : Negates (arrayOperation runtime positive ignoreCase left right)
        (arrayOperation runtime negative ignoreCase left right) := by
  unfold arrayOperation
  simp only [negations, List.mem_cons, Prod.mk.injEq, List.not_mem_nil, or_false] at isPair
  rcases isPair with ⟨rfl, rfl⟩ | ⟨rfl, rfl⟩ | ⟨rfl, rfl⟩
  · exact negates_answer _
  · exact Negates.bind (fun _ => negates_answer _)
  · exact negates_answer _

/-- A date is compared with a date only. -/
theorem dateTimeOperation_negates
    (isPair : (positive, negative) ∈ negations .dateTime)
    (present : positive = "equals" → left.isTruthy = true ∧ right.isTruthy = true)
    : Negates (dateTimeOperation runtime positive doesExist left right)
        (dateTimeOperation runtime negative doesExist left right) := by
  unfold dateTimeOperation
  simp only [negations, List.mem_cons, Prod.mk.injEq, List.not_mem_nil, or_false] at isPair
  rcases isPair with ⟨rfl, rfl⟩ | ⟨rfl, rfl⟩
  · exact negates_not_answer doesExist
  · simp only [present, Bool.not_true, Bool.or_self, if_false, Bool.false_eq_true]
    refine Negates.bind (fun compared => ?_)
    have same : @compares DateTime compared [.eq] = answer (compared = some .eq) := by
      cases compared <;> simp [compares]
    simpa only [same, ne_eq, decide_not] using negates_answer _

/-- Whatever one of the operators answers, its negation answers the opposite; but two dates of
which one is missing are neither equal nor different.
-/
theorem executeFilterCondition_negated (condition : FilterConditionValue DateTime)
    (options : FilterOptionsValue) (metadata : FilterConditionMetadata)
    (parses : parseFilterConditionValues runtime condition options metadata
      = .ok (.ok (left, right)))
    (isPair : (positive, negative) ∈ ("exists", "notExists") :: negations condition.operator.type)
    : let outcome (operation : String) :=
        executeFilterCondition runtime (condition.withOperation operation) options metadata
      if condition.operator.type = .dateTime ∧ positive = "equals"
          ∧ (left.isTruthy && right.isTruthy) = false then
        outcome positive = .ok (.boolean false) ∧ outcome negative = .ok (.boolean false)
      else Opposite (outcome positive) (outcome negative) := by
  have parses (operation : String)
      : parseFilterConditionValues runtime (condition.withOperation operation) options metadata
        = .ok (.ok (left, right)) :=
    parses
  rcases List.mem_cons.mp isPair with isPair | isPair
  · cases isPair
    rw [if_neg (by simp)]
    unfold executeFilterCondition
    simp only [parses]
    exact rfl
  have named : ∀ type, ∀ pair ∈ negations type, ∀ name ∈ [pair.1, pair.2],
      name ≠ "exists" ∧ name ≠ "notExists" := by
    intro type
    cases type <;> decide
  have outcome_eq (operation : String) (isNamed : operation ∈ [positive, negative])
      : executeFilterCondition runtime (condition.withOperation operation) options metadata
        = (firstAnswer
              (operations runtime operation (!options.caseSensitive)
                (!left.isNullish && !left.isNaN) left right condition.operator.type)).mapError
            .error := by
    obtain ⟨first, second⟩ := named _ _ isPair operation isNamed
    unfold executeFilterCondition
    rw [parses]
    exact (if_neg first).trans (if_neg second)
  dsimp only
  rw [outcome_eq positive (by simp), outcome_eq negative (by simp)]
  clear outcome_eq
  generalize condition.operator.type = type at *
  cases type with
  | any => simp [negations] at isPair
  | string =>
      rw [if_neg (by simp)]
      exact (stringOperation_negates runtime _ left right isPair).opposite [] []
  | array =>
      rw [if_neg (by simp)]
      exact (arrayOperation_negates runtime _ left right isPair).opposite _ _
  | object =>
      rw [if_neg (by simp)]
      cases List.mem_singleton.mp isPair
      exact (negates_answer _).opposite _ _
  | number | boolean =>
      rw [if_neg (by simp)]
      simp only [negations, List.mem_cons, Prod.mk.injEq, List.not_mem_nil, or_false] at isPair
      rcases isPair with ⟨rfl, rfl⟩ | ⟨rfl, rfl⟩
      · exact (negates_not_answer _).opposite _ _
      · exact (negates_answer _).opposite _ _
  | dateTime =>
      split_ifs with missing
      · obtain ⟨-, rfl, missing⟩ := missing
        obtain rfl : negative = "notEquals" := by simpa [negations] using isPair
        have guard : (!left.isTruthy || !right.isTruthy) = true := by
          rw [← Bool.not_and, missing, Bool.not_false]
        constructor <;> simp [operations, firstAnswer, dateTimeOperation, guard, answer] <;> rfl
      · refine (dateTimeOperation_negates runtime _ left right isPair ?_).opposite _ _
        intro isEquals
        simpa [isEquals] using missing

/-- An item without a date goes to neither branch; the type `any` knows no operations. -/
theorem not_opposite_missing
    : let condition (type : FilterOperatorType) : FilterConditionValue Unit :=
        ⟨.null, ⟨type, "", none, none⟩, .null⟩
      let options : FilterOptionsValue := ⟨true, .strict, some 3⟩
      let outcome (type : FilterOperatorType) (operation : String) :=
        executeFilterCondition plainRuntime ((condition type).withOperation operation) options {}
      (∀ type, parseFilterConditionValues plainRuntime (condition type) options {}
          = .ok (.ok (.null, .null)))
        ∧ ¬Opposite (outcome .dateTime "equals") (outcome .dateTime "notEquals")
        ∧ ¬Opposite (outcome .any "empty") (outcome .any "notEmpty") :=
  ⟨fun type => by cases type <;> rfl, Bool.false_ne_true, Bool.false_ne_true⟩

theorem executeFilterCondition_negated_null
    : let condition : FilterConditionValue Unit := ⟨.null, ⟨.number, "equals", none, none⟩, .null⟩
      let outcome (operation : String) :=
        executeFilterCondition plainRuntime (condition.withOperation operation)
          ⟨true, .strict, some 3⟩ {}
      Opposite (outcome "equals") (outcome "notEquals") :=
  executeFilterCondition_negated plainRuntime .null .null
    ⟨.null, ⟨.number, "equals", none, none⟩, .null⟩ ⟨true, .strict, some 3⟩ {} rfl
    (show ("equals", "notEquals") ∈ _ by decide)

end N8n.Filter
