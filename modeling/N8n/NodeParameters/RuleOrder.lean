import N8n.Library.FirstAnswers
import N8n.NodeParameters.DisplayParameter

/-! Whether a parameter is displayed does not depend on the order of its rules, and is what
the rules say, unless a rule on an expression competes with a rule that speaks against the
parameter: the loop stops at the expression and leaves the other rules out.
-/

namespace N8n.NodeParameters

open Library

section Rules

variable (context : NodeContext) (nodeValues nodeValuesRoot : INodeParameters)

/-- A rule, by the name of the parameter that it looks at. -/
abbrev DisplayRule := String × List DisplayCondition

def hasExpression (values : List (Option Value)) : Bool :=
  values.any (fun value => (value.map Value.isExpression).getD false)

/-- A turn of the loop over the rules to show a parameter. -/
def showAnswer (rule : DisplayRule) : Except JsError (Option Bool) := do
  let values ← getPropertyValues context nodeValues nodeValuesRoot rule.1
  if hasExpression values then return some true
  if !(← checkConditions context.operators rule.2 values) then return some false
  return none

/-- A turn of the loop over the rules to hide a parameter. -/
def hideAnswer (rule : DisplayRule) : Except JsError (Option Bool) := do
  let values ← getPropertyValues context nodeValues nodeValuesRoot rule.1
  if !values.isEmpty && (← checkConditions context.operators rule.2 values) then
    return some false
  return none

/-- The values that the rule looks at satisfy its conditions, or one is an expression. -/
def ShowHolds (rule : DisplayRule) : Prop :=
  ∃ values, getPropertyValues context nodeValues nodeValuesRoot rule.1 = .ok values
    ∧ (hasExpression values = true
      ∨ checkConditions context.operators rule.2 values = .ok true)

/-- There are values, and they satisfy the conditions of the rule. -/
def HideHolds (rule : DisplayRule) : Prop :=
  ∃ values, getPropertyValues context nodeValues nodeValuesRoot rule.1 = .ok values
    ∧ values ≠ [] ∧ checkConditions context.operators rule.2 values = .ok true

end Rules

variable {context : NodeContext} {nodeValues nodeValuesRoot : INodeParameters}
  {parameter : INodeProperties}

section Answers

variable {rule : DisplayRule} {values : List (Option Value)} {thrown : JsError}

theorem showAnswer_of_error
    (fails : getPropertyValues context nodeValues nodeValuesRoot rule.1 = .error thrown)
    : showAnswer context nodeValues nodeValuesRoot rule = .error thrown := by
  rw [showAnswer, fails]
  rfl

section

variable (found : getPropertyValues context nodeValues nodeValuesRoot rule.1 = .ok values)

include found

theorem showAnswer_of_expression (onExpression : hasExpression values = true)
    : showAnswer context nodeValues nodeValuesRoot rule = .ok (some true) := by
  simp [showAnswer, found, onExpression, bind, Except.bind, pure, Except.pure]

theorem showAnswer_of_values (noExpression : hasExpression values = false)
    : showAnswer context nodeValues nodeValuesRoot rule
      = (checkConditions context.operators rule.2 values).map
          (fun holds => if holds then none else some false) := by
  simp only [showAnswer, found, noExpression, bind, Except.bind]
  cases checkConditions context.operators rule.2 values with
  | error thrown => rfl
  | ok holds => cases holds <;> rfl

end

/-- Without values no condition throws. -/
theorem checkConditions_nil (operators : Operators) (conditions : List DisplayCondition)
    : ∃ holds, checkConditions operators conditions [] = .ok holds := by
  induction conditions with
  | nil => exact ⟨false, rfl⟩
  | cons condition rest ih =>
      have met : ∃ holds, condition.isMet operators [] = .ok holds := by
        cases condition <;> exact ⟨_, rfl⟩
      obtain ⟨first, isFirst⟩ := met
      obtain ⟨others, areOthers⟩ := ih
      rw [checkConditions] at areOthers ⊢
      rw [List.anyM, isFirst]
      cases first with
      | true => exact ⟨true, rfl⟩
      | false => exact ⟨others, areOthers⟩

theorem hideAnswer_of_error
    (fails : getPropertyValues context nodeValues nodeValuesRoot rule.1 = .error thrown)
    : hideAnswer context nodeValues nodeValuesRoot rule = .error thrown := by
  rw [hideAnswer, fails]
  rfl

theorem hideAnswer_of_nil
    (found : getPropertyValues context nodeValues nodeValuesRoot rule.1 = .ok [])
    : hideAnswer context nodeValues nodeValuesRoot rule = .ok none := by
  obtain ⟨holds, checked⟩ := checkConditions_nil context.operators rule.2
  simp [hideAnswer, found, checked, bind, Except.bind, pure, Except.pure]

theorem hideAnswer_of_values
    (found : getPropertyValues context nodeValues nodeValuesRoot rule.1 = .ok values)
    (present : values ≠ [])
    : hideAnswer context nodeValues nodeValuesRoot rule
      = (checkConditions context.operators rule.2 values).map
          (fun holds => if holds then some false else none) := by
  have notEmpty : values.isEmpty = false := by simpa using present
  simp only [hideAnswer, found, notEmpty, bind, Except.bind]
  cases checkConditions context.operators rule.2 values with
  | error thrown => rfl
  | ok holds => cases holds <;> rfl

/-- A rule that holds makes the parameter visible, or lets the loop go on. -/
theorem showHolds_iff
    : ShowHolds context nodeValues nodeValuesRoot rule
      ↔ showAnswer context nodeValues nodeValuesRoot rule = .ok (some true)
        ∨ showAnswer context nodeValues nodeValuesRoot rule = .ok none := by
  unfold ShowHolds
  cases found : getPropertyValues context nodeValues nodeValuesRoot rule.1 with
  | error thrown => simp [showAnswer_of_error found]
  | ok values =>
      cases onExpression : hasExpression values with
      | true => simp [showAnswer_of_expression found onExpression, onExpression]
      | false =>
          rw [showAnswer_of_values found onExpression]
          cases checked : checkConditions context.operators rule.2 values with
          | error thrown => simp [Except.map, onExpression, checked]
          | ok holds => cases holds <;> simp [Except.map, onExpression, checked]

theorem hideHolds_iff
    : HideHolds context nodeValues nodeValuesRoot rule
      ↔ hideAnswer context nodeValues nodeValuesRoot rule = .ok (some false) := by
  unfold HideHolds
  cases found : getPropertyValues context nodeValues nodeValuesRoot rule.1 with
  | error thrown => simp [hideAnswer_of_error found]
  | ok values =>
      by_cases present : values = []
      · subst present
        simp [hideAnswer_of_nil found]
      · rw [hideAnswer_of_values found present]
        cases checked : checkConditions context.operators rule.2 values with
        | error thrown => simp [Except.map, checked]
        | ok holds => cases holds <;> simp [Except.map, present, checked]

theorem showAnswer_cases (rule : DisplayRule)
    : (∃ thrown, showAnswer context nodeValues nodeValuesRoot rule = .error thrown)
      ∨ showAnswer context nodeValues nodeValuesRoot rule = .ok none
      ∨ showAnswer context nodeValues nodeValuesRoot rule = .ok (some true)
      ∨ showAnswer context nodeValues nodeValuesRoot rule = .ok (some false) := by
  cases showAnswer context nodeValues nodeValuesRoot rule with
  | error thrown => exact .inl ⟨thrown, rfl⟩
  | ok answer =>
      rcases answer with _ | _ | _
      · exact .inr (.inl rfl)
      · exact .inr (.inr (.inr rfl))
      · exact .inr (.inr (.inl rfl))

/-- A rule to hide the parameter never makes it visible. -/
theorem hideAnswer_cases (rule : DisplayRule)
    : (∃ thrown, hideAnswer context nodeValues nodeValuesRoot rule = .error thrown)
      ∨ hideAnswer context nodeValues nodeValuesRoot rule = .ok none
      ∨ hideAnswer context nodeValues nodeValuesRoot rule = .ok (some false) := by
  cases found : getPropertyValues context nodeValues nodeValuesRoot rule.1 with
  | error thrown => exact .inl ⟨thrown, hideAnswer_of_error found⟩
  | ok values =>
      by_cases present : values = []
      · subst present
        exact .inr (.inl (hideAnswer_of_nil found))
      · rw [hideAnswer_of_values found present]
        cases checkConditions context.operators rule.2 values with
        | error thrown => exact .inl ⟨thrown, rfl⟩
        | ok holds =>
            cases holds with
            | false => exact .inr (.inl rfl)
            | true => exact .inr (.inr rfl)

end Answers

theorem checkShow_eq (rules : DisplayRules)
    : checkShow context nodeValues nodeValuesRoot rules
      = firstAnswer (showAnswer context nodeValues nodeValuesRoot) rules := by
  induction rules with
  | nil => rfl
  | cons rule rest ih =>
      have pair : rule = (rule.1, rule.2) := rfl
      rw [pair, checkShow, firstAnswer, ih, ← pair]
      cases found : getPropertyValues context nodeValues nodeValuesRoot rule.1 with
      | error thrown =>
          rw [showAnswer_of_error found]
          rfl
      | ok values =>
          cases onExpression : hasExpression values with
          | true =>
              rw [showAnswer_of_expression found onExpression]
              rw [hasExpression] at onExpression
              simp [onExpression, bind, Except.bind, pure, Except.pure]
          | false =>
              rw [showAnswer_of_values found onExpression]
              rw [hasExpression] at onExpression
              simp only [onExpression, bind, Except.bind]
              cases checkConditions context.operators rule.2 values with
              | error thrown => rfl
              | ok holds => cases holds <;> rfl

theorem checkHide_eq (rules : DisplayRules)
    : checkHide context nodeValues nodeValuesRoot rules
      = firstAnswer (hideAnswer context nodeValues nodeValuesRoot) rules := by
  induction rules with
  | nil => rfl
  | cons rule rest ih =>
      have pair : rule = (rule.1, rule.2) := rfl
      rw [pair, checkHide, firstAnswer, ih, ← pair]
      cases found : getPropertyValues context nodeValues nodeValuesRoot rule.1 with
      | error thrown =>
          rw [hideAnswer_of_error found]
          rfl
      | ok values =>
          by_cases present : values = []
          · subst present
            obtain ⟨holds, checked⟩ := checkConditions_nil context.operators rule.2
            rw [hideAnswer_of_nil found]
            simp [checked, bind, Except.bind]
          · have notEmpty : values.isEmpty = false := by simpa using present
            rw [hideAnswer_of_values found present]
            simp only [notEmpty, bind, Except.bind]
            cases checkConditions context.operators rule.2 values with
            | error thrown => rfl
            | ok holds => cases holds <;> rfl

namespace INodeProperties

def shows (parameter : INodeProperties) : DisplayRules :=
  (parameter.displayOptions.bind IDisplayOptions.showRules).getD []

def hides (parameter : INodeProperties) : DisplayRules :=
  (parameter.displayOptions.bind IDisplayOptions.hideRules).getD []

end INodeProperties

/-- The answer of the two loops. -/
def displayBy (context : NodeContext) (nodeValues nodeValuesRoot : INodeParameters)
    (shows hides : DisplayRules)
    : Except JsError Bool :=
  match firstAnswer (showAnswer context nodeValues nodeValuesRoot) shows with
  | .error thrown => .error thrown
  | .ok (some answer) => .ok answer
  | .ok none =>
      match firstAnswer (hideAnswer context nodeValues nodeValuesRoot) hides with
      | .error thrown => .error thrown
      | .ok (some answer) => .ok answer
      | .ok none => .ok true

theorem displayParameter_eq
    : displayParameter context nodeValues nodeValuesRoot parameter
      = displayBy context nodeValues nodeValuesRoot parameter.shows parameter.hides := by
  unfold displayParameter displayBy INodeProperties.shows INodeProperties.hides
  cases parameter.displayOptions with
  | none => rfl
  | some options =>
      simp only [checkShow_eq, checkHide_eq, Option.bind_some, bind, Except.bind]
      cases firstAnswer (showAnswer context nodeValues nodeValuesRoot)
          (options.showRules.getD []) with
      | error thrown => rfl
      | ok answer =>
          cases answer with
          | some answer => rfl
          | none =>
              cases firstAnswer (hideAnswer context nodeValues nodeValuesRoot)
                  (options.hideRules.getD []) with
              | error thrown => rfl
              | ok answer => cases answer <;> rfl

section Specification

variable (context : NodeContext) (nodeValues nodeValuesRoot : INodeParameters)

/-- Every rule to show the parameter holds, and no rule to hide it does. -/
structure Visible (parameter : INodeProperties) : Prop where
  shown : ∀ rule ∈ parameter.shows, ShowHolds context nodeValues nodeValuesRoot rule
  notHidden : ∀ rule ∈ parameter.hides, ¬HideHolds context nodeValues nodeValuesRoot rule

/-- The same rules, whose keys may be in another order. -/
def Reordered (parameter other : INodeProperties) : Prop :=
  Option.Rel (fun options others =>
      Option.Rel List.Perm options.showRules others.showRules
      ∧ Option.Rel List.Perm options.hideRules others.hideRules)
    parameter.displayOptions other.displayOptions

/-- The answer is that of the specification, whatever the order of the keys. -/
structure OrderFree (parameter : INodeProperties) : Prop where
  same : ∀ other, Reordered parameter other
    → displayParameter context nodeValues nodeValuesRoot other
      = displayParameter context nodeValues nodeValuesRoot parameter
  specified : ∃ visible,
    displayParameter context nodeValues nodeValuesRoot parameter = .ok visible
    ∧ (visible = true ↔ Visible context nodeValues nodeValuesRoot parameter)

/-- No rule speaks against an expression, and no rule that may be reached throws. -/
structure Unopposed (parameter : INodeProperties) : Prop where
  showRuns : ∀ rule ∈ parameter.shows, ∀ thrown,
    showAnswer context nodeValues nodeValuesRoot rule ≠ .error thrown
  noneFails : ∀ rule ∈ parameter.shows,
    showAnswer context nodeValues nodeValuesRoot rule = .ok (some true)
      → ∀ other ∈ parameter.shows,
        showAnswer context nodeValues nodeValuesRoot other ≠ .ok (some false)
  noneHides : ∀ rule ∈ parameter.shows,
    showAnswer context nodeValues nodeValuesRoot rule = .ok (some true)
      → ∀ other ∈ parameter.hides,
        hideAnswer context nodeValues nodeValuesRoot other ≠ .ok (some false)
  hideRuns :
    (∀ rule ∈ parameter.shows, showAnswer context nodeValues nodeValuesRoot rule = .ok none)
      → ∀ rule ∈ parameter.hides, ∀ thrown,
        hideAnswer context nodeValues nodeValuesRoot rule ≠ .error thrown

end Specification

theorem perm_getD {α : Type} {first second : Option (List α)}
    (related : Option.Rel List.Perm first second)
    : (first.getD []).Perm (second.getD []) := by
  cases related with
  | some perm => exact perm
  | none => exact .nil

theorem Reordered.perms {other : INodeProperties} (reordered : Reordered parameter other)
    : other.shows.Perm parameter.shows ∧ other.hides.Perm parameter.hides := by
  unfold INodeProperties.shows INodeProperties.hides
  rw [Reordered] at reordered
  revert reordered
  generalize parameter.displayOptions = options
  generalize other.displayOptions = others
  intro reordered
  cases reordered with
  | some both => exact ⟨(perm_getD both.1).symm, (perm_getD both.2).symm⟩
  | none => exact ⟨.nil, .nil⟩

/-- Rules in any order are those of some parameter. -/
theorem exists_reordered {shows hides : DisplayRules} (showsPerm : shows.Perm parameter.shows)
    (hidesPerm : hides.Perm parameter.hides)
    : ∃ other, Reordered parameter other ∧ other.shows = shows ∧ other.hides = hides := by
  obtain ⟨name, type, default, noDataExpression, multipleValues, displayOptions, options,
    collections⟩ := parameter
  have reorder {rules : Option DisplayRules} {others : DisplayRules}
      (perm : others.Perm (rules.getD []))
      : ∃ given, Option.Rel List.Perm rules given ∧ given.getD [] = others := by
    cases rules with
    | none => exact ⟨none, .none, (List.perm_nil.mp perm).symm⟩
    | some rules => exact ⟨some others, .some perm.symm, rfl⟩
  cases displayOptions with
  | none =>
      exact ⟨.mk name type default noDataExpression multipleValues none options collections,
        .none, (List.perm_nil.mp showsPerm).symm, (List.perm_nil.mp hidesPerm).symm⟩
  | some displayOptions =>
      obtain ⟨showRules, showsRelated, areShows⟩ := reorder showsPerm
      obtain ⟨hideRules, hidesRelated, areHides⟩ := reorder hidesPerm
      exact ⟨.mk name type default noDataExpression multipleValues (some ⟨showRules, hideRules⟩)
        options collections, .some ⟨showsRelated, hidesRelated⟩, areShows, areHides⟩

/-- Both properties look at the rules without regard to their order. -/
theorem Reordered.visible_iff {other : INodeProperties} (reordered : Reordered parameter other)
    : Visible context nodeValues nodeValuesRoot other
      ↔ Visible context nodeValues nodeValuesRoot parameter := by
  obtain ⟨shows, hides⟩ := reordered.perms
  constructor
  · exact fun visible => ⟨fun rule member => visible.shown rule (shows.mem_iff.mpr member),
      fun rule member => visible.notHidden rule (hides.mem_iff.mpr member)⟩
  · exact fun visible => ⟨fun rule member => visible.shown rule (shows.mem_iff.mp member),
      fun rule member => visible.notHidden rule (hides.mem_iff.mp member)⟩

theorem Unopposed.reordered (unopposed : Unopposed context nodeValues nodeValuesRoot parameter)
    {other : INodeProperties} (reordered : Reordered parameter other)
    : Unopposed context nodeValues nodeValuesRoot other := by
  obtain ⟨shows, hides⟩ := reordered.perms
  constructor
  · exact fun rule member => unopposed.showRuns rule (shows.mem_iff.mp member)
  · intro rule member onExpression other isOther
    exact unopposed.noneFails rule (shows.mem_iff.mp member) onExpression other
      (shows.mem_iff.mp isOther)
  · intro rule member onExpression other isOther
    exact unopposed.noneHides rule (shows.mem_iff.mp member) onExpression other
      (hides.mem_iff.mp isOther)
  · intro goOn rule member
    exact unopposed.hideRuns (fun rule member => goOn rule (shows.mem_iff.mpr member)) rule
      (hides.mem_iff.mp member)

/-- With a rule on an expression, the parameter is visible. -/
theorem Unopposed.visible (unopposed : Unopposed context nodeValues nodeValuesRoot parameter)
    {rule : DisplayRule} (member : rule ∈ parameter.shows)
    (onExpression : showAnswer context nodeValues nodeValuesRoot rule = .ok (some true))
    : Visible context nodeValues nodeValuesRoot parameter where
  shown other isOther := by
    rw [showHolds_iff]
    rcases showAnswer_cases other with ⟨thrown, throws⟩ | none | shows | fails
    · exact absurd throws (unopposed.showRuns other isOther thrown)
    · exact .inr none
    · exact .inl shows
    · exact absurd fails (unopposed.noneFails rule member onExpression other isOther)
  notHidden other isOther holds :=
    unopposed.noneHides rule member onExpression other isOther (hideHolds_iff.mp holds)

/-- The loop over the rules to hide answers by whether one of them holds. -/
theorem firstAnswer_hide {rules : DisplayRules}
    (runs : ∀ rule ∈ rules, ∀ thrown,
      hideAnswer context nodeValues nodeValuesRoot rule ≠ .error thrown)
    : (firstAnswer (hideAnswer context nodeValues nodeValuesRoot) rules = .ok (some false)
        ∧ ∃ rule ∈ rules, HideHolds context nodeValues nodeValuesRoot rule)
      ∨ firstAnswer (hideAnswer context nodeValues nodeValuesRoot) rules = .ok none
        ∧ ∀ rule ∈ rules, ¬HideHolds context nodeValues nodeValuesRoot rule := by
  have answers (rule : DisplayRule) (member : rule ∈ rules)
      : hideAnswer context nodeValues nodeValuesRoot rule = .ok none
        ∨ hideAnswer context nodeValues nodeValuesRoot rule = .ok (some false) := by
    rcases hideAnswer_cases rule with ⟨thrown, throws⟩ | known
    · exact absurd throws (runs rule member thrown)
    · exact known
  by_cases hidden : ∃ rule ∈ rules, HideHolds context nodeValues nodeValuesRoot rule
  · obtain ⟨rule, member, holds⟩ := hidden
    exact .inl ⟨firstAnswer_of_agree member (hideHolds_iff.mp holds) answers, rule, member, holds⟩
  · refine .inr ⟨firstAnswer_none fun rule member => ?_, fun rule member holds =>
      hidden ⟨rule, member, holds⟩⟩
    rcases answers rule member with none | hides
    · exact none
    · exact absurd ⟨rule, member, hideHolds_iff.mpr hides⟩ hidden

/-- Without opposition the answer is that of the specification, whatever the order is. -/
theorem Unopposed.displayParameter
    (unopposed : Unopposed context nodeValues nodeValuesRoot parameter)
    : ∃ visible, displayParameter context nodeValues nodeValuesRoot parameter = .ok visible
        ∧ (visible = true ↔ Visible context nodeValues nodeValuesRoot parameter) := by
  rw [displayParameter_eq, displayBy]
  by_cases onExpression : ∃ rule ∈ parameter.shows,
      showAnswer context nodeValues nodeValuesRoot rule = .ok (some true)
  · obtain ⟨rule, member, stops⟩ := onExpression
    have visible := unopposed.visible member stops
    rw [firstAnswer_of_agree member stops fun other isOther =>
      (showHolds_iff.mp (visible.shown other isOther)).symm]
    exact ⟨true, rfl, iff_of_true rfl visible⟩
  · by_cases fails : ∃ rule ∈ parameter.shows,
        showAnswer context nodeValues nodeValuesRoot rule = .ok (some false)
    · obtain ⟨rule, member, stops⟩ := fails
      have agree : ∀ other ∈ parameter.shows,
          showAnswer context nodeValues nodeValuesRoot other = .ok none
          ∨ showAnswer context nodeValues nodeValuesRoot other = .ok (some false) := by
        intro other isOther
        rcases showAnswer_cases other with ⟨thrown, throws⟩ | none | shows | hides
        · exact absurd throws (unopposed.showRuns other isOther thrown)
        · exact .inl none
        · exact absurd ⟨other, isOther, shows⟩ onExpression
        · exact .inr hides
      rw [firstAnswer_of_agree member stops agree]
      refine ⟨false, rfl, iff_of_false (by simp) fun visible => ?_⟩
      have holds := showHolds_iff.mp (visible.shown rule member)
      rw [stops] at holds
      simp at holds
    · have goOn : ∀ rule ∈ parameter.shows,
          showAnswer context nodeValues nodeValuesRoot rule = .ok none := by
        intro rule member
        rcases showAnswer_cases rule with ⟨thrown, throws⟩ | none | shows | hides
        · exact absurd throws (unopposed.showRuns rule member thrown)
        · exact none
        · exact absurd ⟨rule, member, shows⟩ onExpression
        · exact absurd ⟨rule, member, hides⟩ fails
      have shown : ∀ rule ∈ parameter.shows,
          ShowHolds context nodeValues nodeValuesRoot rule :=
        fun rule member => showHolds_iff.mpr (.inr (goOn rule member))
      rw [firstAnswer_none goOn]
      rcases firstAnswer_hide (unopposed.hideRuns goOn) with
        ⟨stops, rule, member, holds⟩ | ⟨none, notHidden⟩
      · rw [stops]
        exact ⟨false, rfl, iff_of_false (by simp) fun visible =>
          visible.notHidden rule member holds⟩
      · rw [none]
        exact ⟨true, rfl, iff_of_true rfl ⟨shown, notHidden⟩⟩

theorem orderFree_iff
    : OrderFree context nodeValues nodeValuesRoot parameter
      ↔ Unopposed context nodeValues nodeValuesRoot parameter := by
  constructor
  · rintro ⟨same, visible, answered, meets⟩
    -- the answer for every order of the rules
    have always {shows hides : DisplayRules} (showsPerm : shows.Perm parameter.shows)
        (hidesPerm : hides.Perm parameter.hides)
        : displayBy context nodeValues nodeValuesRoot shows hides = .ok visible := by
      obtain ⟨other, reordered, rfl, rfl⟩ := exists_reordered showsPerm hidesPerm
      rw [← displayParameter_eq, same other reordered, answered]
    have visibleWith {rule : DisplayRule} (member : rule ∈ parameter.shows)
        (onExpression : showAnswer context nodeValues nodeValuesRoot rule = .ok (some true))
        : Visible context nodeValues nodeValuesRoot parameter := by
      obtain ⟨shows, perm, stops⟩ := exists_perm_firstAnswer member onExpression (by simp)
      have answer := always perm (.refl _)
      rw [displayBy, stops] at answer
      exact meets.mp (Except.ok.inj answer).symm
    constructor
    · intro rule member thrown throws
      obtain ⟨shows, perm, stops⟩ := exists_perm_firstAnswer member throws (by simp)
      have answer := always perm (.refl _)
      rw [displayBy, stops] at answer
      contradiction
    · intro rule member onExpression other isOther fails
      have holds := showHolds_iff.mp ((visibleWith member onExpression).shown other isOther)
      rw [fails] at holds
      simp at holds
    · intro rule member onExpression other isOther hides
      exact (visibleWith member onExpression).notHidden other isOther (hideHolds_iff.mpr hides)
    · intro goOn rule member thrown throws
      obtain ⟨hides, perm, stops⟩ := exists_perm_firstAnswer member throws (by simp)
      have answer := always (.refl _) perm
      rw [displayBy, firstAnswer_none goOn, stops] at answer
      contradiction
  · intro unopposed
    obtain ⟨visible, answered, meets⟩ := unopposed.displayParameter
    refine ⟨fun other reordered => ?_, visible, answered, meets⟩
    obtain ⟨otherVisible, otherAnswered, otherMeets⟩ :=
      (unopposed.reordered reordered).displayParameter
    rw [otherAnswered, answered]
    congr 1
    exact Bool.eq_iff_iff.mpr (otherMeets.trans (reordered.visible_iff.trans meets.symm))

/-- Parameters are looked up by their names. -/
def lookupContext : NodeContext where
  operators :=
    {
      get := Record.lookup
      test := fun _ _ => .ok false
      isAtLeast := fun _ _ => false
      isAtMost := fun _ _ => false
      isGreater := fun _ _ => false
      isLess := fun _ _ => false
    }
  typeVersion := none
  typeName := none
  features := none

/-- Shown for `on` as the value of each of these parameters. -/
def shownFor (names : List String) : INodeProperties :=
  .mk "value" .string .null false none
    (some ⟨some (names.map (fun name => (name, [.plain (some (.string "on"))]))), none⟩) [] []

/-- The rule on `first` looks at an expression, the one on `second` fails: either may come
first.
-/
theorem not_orderFree_expression
    : ¬OrderFree lookupContext [("first", .string "=1"), ("second", .string "off")] []
        (shownFor ["first", "second"]) := by
  intro orderFree
  have same := orderFree.same (shownFor ["second", "first"])
    (.some ⟨.some (.swap _ _ _), .none⟩)
  revert same
  decide +kernel

end N8n.NodeParameters
