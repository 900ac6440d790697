import N8n.Filter.FilterParameter

/-! Filters as they are validated and as they are executed. The execution of a condition throws
where its values cannot be parsed, but the validation waits for an exception that parsing does not
throw.
-/

namespace N8n.Filter

variable {DateTime : Type} (runtime : Runtime DateTime)

/-- The value is parsed for this type, or is an expression that is still to be resolved. -/
def Fits (options : FilterOptionsValue) (value : Value DateTime) (type : FilterOperatorType)
    : Prop :=
  (parseSingleFilterValue runtime value type (options.typeValidation = .strict)
      (options.version.getD 1)).isValid = true
    ∨ isExpression value = true

def HasText (value : Value DateTime) : Prop := ∃ text, runtime.engine.text value = .ok text

def Parses (options : FilterOptionsValue) (condition : FilterConditionValue DateTime) : Prop :=
  let operator := condition.operator
  Fits runtime options condition.leftValue operator.type
    ∧ (Fits runtime options condition.rightValue (operator.rightType.getD operator.type)
        ∨ operator.singleValue = some true)

section

variable {runtime} {condition : FilterConditionValue DateTime} {options : FilterOptionsValue}
  {metadata : FilterConditionMetadata}

/-- Parsing answers with its errors, and only the texts of the values may throw. -/
theorem parse_cases (unresolved : metadata.unresolvedExpressions = some true)
    : (∃ error, parseFilterConditionValues runtime condition options metadata
          = .error (.error error)
        ∧ ¬(HasText runtime condition.leftValue ∧ HasText runtime condition.rightValue))
      ∨ HasText runtime condition.leftValue ∧ HasText runtime condition.rightValue
        ∧ ∃ result,
            parseFilterConditionValues runtime condition options metadata = .ok result
            ∧ (result.isOk = true ↔ Parses runtime options condition) := by
  have single : condition.operator.singleValue = some true
      ↔ condition.operator.singleValue.getD false = true := by
    cases condition.operator.singleValue <;> simp
  unfold parseFilterConditionValues HasText Parses Fits
  simp only [unresolved, Option.getD_some, Bool.true_and, single]
  cases left : runtime.engine.text condition.leftValue with
  | error error => exact .inl ⟨error, rfl, by simp⟩
  | ok leftText =>
      cases right : runtime.engine.text condition.rightValue with
      | error error => exact .inl ⟨error, rfl, by simp⟩
      | ok rightText =>
          have fails (error : FilterError)
              : (Except.error error : Result (Value DateTime × Value DateTime)).isOk = false := rfl
          have succeeds (values : Value DateTime × Value DateTime)
              : (Except.ok values : Result (Value DateTime × Value DateTime)).isOk = true := rfl
          refine .inr ⟨⟨_, rfl⟩, ⟨_, rfl⟩, ?_⟩
          simp only [Except.mapError, bind, Except.bind, pure, Except.pure]
          split
          · exact ⟨_, rfl, by grind⟩
          · split
            · exact ⟨_, rfl, by grind⟩
            · split
              · exact ⟨_, rfl, by grind⟩
              · exact ⟨_, rfl, by grind⟩

/-- The operators of a condition throw no error of the filter. -/
theorem execute_throws_iff (unresolved : metadata.unresolvedExpressions = some true)
    : (∃ error, executeFilterCondition runtime condition options metadata
        = .error (.filterError error))
      ↔ HasText runtime condition.leftValue ∧ HasText runtime condition.rightValue
        ∧ ¬Parses runtime options condition := by
  unfold executeFilterCondition
  rcases parse_cases unresolved with
    ⟨thrown, parsed, untexted⟩ | ⟨left, right, result, parsed, parses⟩
  · rw [parsed]
    refine iff_of_false ?_ (fun holds => untexted ⟨holds.1, holds.2.1⟩)
    rintro ⟨error, same⟩
    cases same
  · rw [parsed]
    cases result with
    | error error =>
        have unparsed : ¬Parses runtime options condition := fun holds =>
          absurd (parses.mpr holds) (by simp [Except.isOk, Except.toBool])
        exact iff_of_true ⟨error, rfl⟩ ⟨left, right, unparsed⟩
    | ok values =>
        have parsed : Parses runtime options condition := parses.mp rfl
        refine iff_of_false ?_ (fun holds => holds.2.2 parsed)
        rintro ⟨error, same⟩
        simp only [bind, Except.bind, pure, Except.pure] at same
        split at same
        · contradiction
        · split at same
          · contradiction
          · unfold Except.mapError at same
            split at same <;> cases same

end

variable (nodeProperties : INodeProperties)

theorem validateCondition_eq (options : FilterOptionsValue) (issues : Issues)
    (condition : FilterConditionValue DateTime) (index : Nat)
    : validateCondition runtime nodeProperties options issues condition index = .ok issues := by
  have unresolved
      : (⟨some index, some true, none, some .inline⟩
          : FilterConditionMetadata).unresolvedExpressions = some true := rfl
  have outcome := @parse_cases DateTime runtime condition options _ unresolved
  unfold validateCondition
  dsimp only
  rcases outcome with ⟨thrown, parsed, -⟩ | ⟨-, -, result, parsed, -⟩
  · rw [parsed]
  · rw [parsed]

theorem validateFilterParameter_eq (value : FilterValue DateTime)
    : validateFilterParameter runtime nodeProperties value = .ok .empty := by
  unfold validateFilterParameter
  induction value.conditions.zipIdx with
  | nil => rfl
  | cons entry rest ih =>
      obtain ⟨condition, index⟩ := entry
      have passed := validateCondition_eq runtime nodeProperties value.options .empty condition index
      rw [List.foldlM_cons]
      dsimp only
      rw [passed]
      exact ih

/-- The validation reports the conditions whose execution throws an error of the filter. -/
def Agrees (value : FilterValue DateTime) (itemIndex : Option Nat)
    (errorFormat : Option ErrorFormat)
    : Prop :=
  ∃ issues, validateFilterParameter runtime nodeProperties value = .ok issues
    ∧ ∀ key, (issues.get? key).isSome = true
        ↔ ∃ (index : Nat) (condition : FilterConditionValue DateTime) (error : FilterError),
            value.conditions[index]? = some condition ∧ key = issueKey nodeProperties index
              ∧ executeFilterCondition runtime condition value.options
                  ⟨some index, some true, itemIndex, errorFormat⟩
                = .error (.filterError error)

/-- They agree on the filters whose conditions can all be parsed, but for those that have no text
for a value.
-/
theorem agrees_iff (value : FilterValue DateTime) (itemIndex : Option Nat)
    (errorFormat : Option ErrorFormat)
    : Agrees runtime nodeProperties value itemIndex errorFormat
      ↔ ∀ condition ∈ value.conditions,
          HasText runtime condition.leftValue → HasText runtime condition.rightValue
          → Parses runtime value.options condition := by
  constructor
  · rintro ⟨issues, validated, reports⟩ condition member left right
    obtain ⟨index, here⟩ := List.mem_iff_getElem?.mp member
    obtain rfl : Dict.empty = issues :=
      Except.ok.inj ((validateFilterParameter_eq runtime nodeProperties value).symm.trans validated)
    by_contra unparsed
    have unresolved
        : (⟨some index, some true, itemIndex, errorFormat⟩
            : FilterConditionMetadata).unresolvedExpressions = some true := rfl
    obtain ⟨error, thrown⟩ := (execute_throws_iff unresolved).mpr ⟨left, right, unparsed⟩
    have reported := (reports _).mpr ⟨index, condition, error, here, rfl, thrown⟩
    simp at reported
  · intro parses
    refine ⟨.empty, validateFilterParameter_eq runtime nodeProperties value, fun key => ?_⟩
    refine iff_of_false (by simp) ?_
    rintro ⟨index, condition, error, here, -, thrown⟩
    have unparsed := (execute_throws_iff rfl).mp ⟨error, thrown⟩
    exact unparsed.2.2 (parses condition (List.mem_of_getElem? here) unparsed.1 unparsed.2.1)

/-- An engine that only writes whole numbers. -/
def plainRuntime : Runtime Unit where
  numberText number := (number.place?.map toString).getD "NaN"
  textNumber _ := .nan
  dateText _ := "Invalid Date"
  parseDate _ := .nan
  toLowerCase := String.toLower
  toLocaleLowerCase := String.toLower
  regExp _ _ := .ok (fun _ => false)
  stringify _ := "null"
  parseJson _ := .error (.error "SyntaxError" "Unexpected token" none)
  parseJSObject _ := .error (.error "SyntaxError" "Unexpected token" none)
  luxon :=
    {
      isValid := fun _ => false
      toMillis := fun _ => .nan
      text := fun _ => "Invalid DateTime"
      keys := fun _ => []
      fromJSDate := fun _ => ()
      fromISO := fun _ => ()
      fromHTTP := fun _ => ()
      fromRFC2822 := fun _ => ()
      fromSQL := fun _ => ()
      fromMillis := fun _ => ()
    }

/-- A text where a number has to be: the execution throws, and no issue is reported. -/
theorem not_agrees
    : let condition : FilterConditionValue Unit :=
        ⟨.string "abc", ⟨.number, "equals", none, none⟩, .number 1⟩
      let options : FilterOptionsValue := ⟨true, .strict, some 3⟩
      validateFilterParameter plainRuntime ⟨"conditions"⟩ ⟨options, [condition]⟩ = .ok .empty
        ∧ (∃ error,
            executeFilterCondition plainRuntime condition options
                { index := some 0, unresolvedExpressions := some true }
              = .error (.filterError error))
        ∧ ¬Agrees plainRuntime ⟨"conditions"⟩ ⟨options, [condition]⟩ none none := by
  intro condition options
  have thrown
      : ∃ error,
          executeFilterCondition plainRuntime condition options
              { index := some 0, unresolvedExpressions := some true }
            = .error (.filterError error) :=
    ⟨_, rfl⟩
  refine ⟨validateFilterParameter_eq _ _ _, thrown, ?_⟩
  rintro ⟨issues, validated, reports⟩
  obtain ⟨error, thrown⟩ := thrown
  have reported := (reports _).mpr ⟨0, condition, error, rfl, rfl, thrown⟩
  obtain rfl : Dict.empty = issues :=
    Except.ok.inj ((validateFilterParameter_eq _ _ _).symm.trans validated)
  simp at reported

end N8n.Filter
