import N8n.NodeParameters.FilledLevel

/-! Adding the defaults to parameters that have them already. On a level where the same
parameters are displayed again, each one keeps its value.
-/

namespace N8n.NodeParameters

namespace Level

variable (context : NodeContext)

/-- A property that a call with defaults sets, under the values that decide the display. -/
structure Shows (level : Level) (check : INodeParameters) (property : INodeProperties)
    : Prop where
  checked : level.check context true = .ok check
  member : property ∈ level.properties
  visited : level.isVisited true property = true
  displayed : level.isDisplayed context check property = .ok true

/-- One level opens another: a collection that is stored, or an item of a fixed collection. -/
inductive Opens (level : Level) : Level → Prop where
  | options {check : INodeParameters} {property : INodeProperties} {value : Value}
      (shown : level.Shows context check property) (type : property.type = .collection)
      (single : property.multipleValues ≠ some true)
      (stored : level.nodeValues.get property.name = some value)
      (truthy : value.isTruthy = true)
      : Opens level
          {
            properties := property.options
            nodeValues := value
            parentType := some .collection
            nodeValuesRoot := some (level.root check)
          }
  | item {check : INodeParameters} {property : INodeProperties}
      {collection : String × List INodeProperties} {propertyValues value : Value}
      (shown : level.Shows context check property) (type : property.type = .fixedCollection)
      (single : property.multipleValues ≠ some true) (member : collection ∈ property.collections)
      (stored : level.nodeValues.get property.name = some propertyValues)
      (holds : propertyValues.get collection.1 = some value) (truthy : value.isTruthy = true)
      : Opens level
          {
            properties := collection.2
            nodeValues := value
            parentType := some .fixedCollection
            nodeValuesRoot := some (level.root check)
          }
  | oneOfItems {check : INodeParameters} {property : INodeProperties}
      {collection : String × List INodeProperties} {entries : INodeParameters}
      {itemValue value : Value} {nodeValues : List Value}
      (shown : level.Shows context check property) (type : property.type = .fixedCollection)
      (multiple : property.multipleValues = some true)
      (member : collection ∈ property.collections)
      (stored : (level.nodeValues.get property.name).getD property.default = .object entries)
      (holds : Record.lookup entries collection.1 = some itemValue)
      (iterated : itemValue.iterate = .ok nodeValues) (among : value ∈ nodeValues)
      (truthy : value.isTruthy = true)
      : Opens level
          {
            properties := collection.2
            nodeValues := value
            parentType := some .fixedCollection
            nodeValuesRoot := some (level.root check)
          }

/-- The level with the values it was filled to, for a second call. -/
def refilled (level : Level) (filled : Value) (nodeValuesRoot : Option INodeParameters)
    : Level :=
  { level with nodeValues := filled, nodeValuesRoot }

/-- What a level needs to stay as it was filled, from the values `check` and `checkAgain` that
the display of both calls is checked against.
-/
structure SettledAt (level : Level) (filled : Value) (rootAgain : Option INodeParameters)
    (check checkAgain : INodeParameters)
    : Prop where
  checked_again : (level.refilled filled rootAgain).check context true = .ok checkAgain
  displayed_again
      : ∀ property ∈ level.properties,
          level.isVisited true property = true
          → (level.refilled filled rootAgain).isDisplayed context checkAgain property
            = level.isDisplayed context check property
  no_prefix_left
      : ∀ property,
          level.Shows context check property
          → property.noDataExpression = true
          → property.type ≠ .collection
          → property.type ≠ .fixedCollection
          → (property.taken (level.nodeValues.get property.name)).isExpression = false
  default_filled
      : ∀ property,
          level.Shows context check property
          → property.type = .collection
          → property.multipleValues ≠ some true
          → level.nodeValues.get property.name = none
          → Level.fill context
              {
                properties := property.options
                nodeValues := property.default
                parentType := some .collection
                nodeValuesRoot := some ((level.refilled filled rootAgain).root checkAgain)
              }
            = .ok property.default
  own_name
      : ∀ property other,
          level.Shows context check property
          → level.Shows context check other
          → property.type = .collection ∨ property.type = .fixedCollection
          → other.name = property.name
          → other = property
  items_truthy
      : ∀ property,
          level.Shows context check property
          → property.type = .fixedCollection
          → property.multipleValues = some true
          → ∀ entries,
              (level.nodeValues.get property.name).getD property.default = .object entries
              → ∀ entry ∈ entries,
                  ∀ nodeValues,
                    entry.2.iterate = .ok nodeValues
                    → ∀ nodeValue ∈ nodeValues, nodeValue.isTruthy = true

/-- A level stays as it was filled, once the values at the root are `rootAgain`. -/
def Settled (level : Level) (rootAgain : Option INodeParameters) : Prop :=
  ∀ filled check,
    level.fill context = .ok filled
    → level.check context true = .ok check
    → ∃ checkAgain, level.SettledAt context filled rootAgain check checkAgain

end Level

/-! ### Single parameters -/

variable {value : Value} {property : INodeProperties} {stored : Option Value}

namespace INodeProperties

/-- Where `null` counts as nothing, only a default of `null` leaves it. -/
theorem default_of_valueOrDefault_null (noChoice : property.type ∉ [.boolean, .number, .options])
    (noLocator : ¬(property.type = .resourceLocator ∧ property.default.isObject))
    (isNull : property.valueOrDefault stored = .null)
    : property.default = .null := by
  unfold valueOrDefault at isNull
  rw [if_neg noChoice, if_neg noLocator] at isNull
  split at isNull
  · exact isNull
  · exact isNull
  · next isOther => exact (isOther isNull).elim

theorem valueOrDefault_of_null (isNull : property.valueOrDefault stored = .null)
    : property.valueOrDefault (some .null) = .null := by
  unfold valueOrDefault
  split
  · rfl
  · next noChoice =>
      split
      · rfl
      · next noLocator => exact default_of_valueOrDefault_null noChoice noLocator isNull

theorem valueOrDefault_of_ne_null (property : INodeProperties) (isOther : value ≠ .null)
    : property.valueOrDefault (some value) = value := by
  unfold valueOrDefault
  cases value <;> simp_all

theorem valueOrDefault_taken (property : INodeProperties) (stored : Option Value)
    : property.valueOrDefault (some (property.taken stored)) = property.taken stored := by
  by_cases isNull : property.taken stored = .null
  · rw [isNull]
    apply valueOrDefault_of_null
    unfold taken at isNull
    split at isNull
    · exact Value.eq_null_of_withoutPrefix isNull
    · exact isNull
  · exact valueOrDefault_of_ne_null property isNull

theorem taken_again
    (plain : property.noDataExpression = true → (property.taken stored).isExpression = false)
    : property.taken (some (property.taken stored)) = property.taken stored := by
  have taken (value : Value)
      : property.taken (some value)
        = if property.noDataExpression then (property.valueOrDefault (some value)).withoutPrefix
          else property.valueOrDefault (some value) := rfl
  rw [taken, valueOrDefault_taken]
  split
  · next strips => exact Value.withoutPrefix_of_not_isExpression (plain strips)
  · rfl

end INodeProperties

/-! ### Collections -/

variable {itemName : String} {record : INodeParameters}

section collections

variable {context : NodeContext} {root rootAgain : INodeParameters} {stored : Option Value}
  {property : INodeProperties}

/-- What a call for a level below leaves, a second one under other values at the root keeps. -/
def StaysFilled (context : NodeContext) (root rootAgain : INodeParameters)
    (properties : List INodeProperties) (parentType : NodePropertyTypes) (nodeValues : Value)
    : Prop :=
  ∀ filled,
    Level.fill context
        { properties, nodeValues, parentType := some parentType, nodeValuesRoot := some root }
      = .ok filled
    → Level.fill context
        {
          properties
          nodeValues := filled
          parentType := some parentType
          nodeValuesRoot := some rootAgain
        }
      = .ok filled

theorem filledCollection_single (single : property.multipleValues ≠ some true)
    : filledCollection context root stored property
      = match stored with
        | some value =>
            Level.fill context
              {
                properties := property.options
                nodeValues := value
                parentType := some .collection
                nodeValuesRoot := some root
              }
        | none => .ok property.default := by
  unfold filledCollection
  cases stored <;> rcases multiple : property.multipleValues with _ | _ | _ <;> simp_all <;> rfl

theorem filledCollection_again (filled : filledCollection context root stored property = .ok value)
    (lower : property.multipleValues ≠ some true
      → ∀ nodeValues, stored = some nodeValues
      → StaysFilled context root rootAgain property.options .collection nodeValues)
    (default_filled : property.multipleValues ≠ some true
      → stored = none
      → Level.fill context
          {
            properties := property.options
            nodeValues := property.default
            parentType := some .collection
            nodeValuesRoot := some rootAgain
          }
        = .ok property.default)
    : filledCollection context rootAgain (some value) property = .ok value := by
  by_cases multiple : property.multipleValues = some true
  · simp only [filledCollection, multiple]
    rfl
  · rw [filledCollection_single multiple] at filled ⊢
    cases stored with
    | none =>
        cases filled
        exact default_filled multiple rfl
    | some nodeValues => exact lower multiple nodeValues rfl value filled

theorem filledItem_name {propertyValues : Value} {entry : String × Value}
    (filled : filledItem context root stored property propertyValues itemName
      = .ok (some entry))
    : entry.1 = itemName := by
  unfold filledItem at filled
  split at filled
  · unfold filledMultiple at filled
    split at filled
    · obtain ⟨value, -, same⟩ := Exec.ok_of_map filled
      cases same
      rfl
    · cases Except.ok.inj filled
  · unfold filledSingle at filled
    split at filled
    · cases Except.ok.inj filled
    · cases filled
    · obtain ⟨item, -, filled⟩ := Exec.ok_of_bind filled
      split at filled
      · cases Except.ok.inj filled
      · obtain rfl := Option.some.inj (Except.ok.inj filled)
        rfl

/-- What an item of a fixed collection that allows several is filled to. -/
theorem multipleItem_ok_iff {itemValue : Value}
    : Call.multipleItem (levelProperty context true false property) root itemName itemValue
        = .ok value
      ↔ ∃ nodeValues values,
          itemValue.iterate = .ok nodeValues
          ∧ value = .array values
          ∧ List.Forall₂
              (fun nodeValue filled =>
                ∃ collection,
                  property.collections.find? (fun collection => collection.1 = itemName)
                    = some collection
                  ∧ Level.fill context
                      {
                        properties := collection.2
                        nodeValues := nodeValue
                        parentType := some .fixedCollection
                        nodeValuesRoot := some root
                      }
                    = .ok filled)
              nodeValues values := by
  have body (nodeValue filled : Value)
      : Call.multipleValue (levelProperty context true false property) root itemName nodeValue
          = .ok filled
        ↔ ∃ collection,
            property.collections.find? (fun collection => collection.1 = itemName)
              = some collection
            ∧ Level.fill context
                {
                  properties := collection.2
                  nodeValues := nodeValue
                  parentType := some .fixedCollection
                  nodeValuesRoot := some root
                }
              = .ok filled := by
    unfold Call.multipleValue
    rw [find?_ofCollections]
    cases property.collections.find? (fun collection => collection.1 = itemName) with
    | none => simp [throw, throwThe, MonadExceptOf.throw]
    | some collection => simp [collectionOption, Level.fill]
  unfold Call.multipleItem
  constructor
  · intro returned
    obtain ⟨nodeValues, iterated, returned⟩ := Exec.ok_of_bind returned
    obtain ⟨values, turns, same⟩ := Exec.ok_of_bind returned
    refine ⟨nodeValues, values, iterated, (Except.ok.inj same).symm, ?_⟩
    exact (Exec.mapM_ok_iff.mp turns).imp (fun nodeValue filled => (body nodeValue filled).mp)
  · rintro ⟨nodeValues, values, iterated, rfl, turns⟩
    have again := Exec.mapM_ok_iff.mpr
      (turns.imp (fun nodeValue filled => (body nodeValue filled).mpr))
    simp only [iterated, bind, Except.bind] at again ⊢
    simp only [again, pure, Except.pure]

variable (lowerSingle : property.multipleValues ≠ some true
    → ∀ collection ∈ property.collections,
        ∀ propertyValues nodeValue,
          stored = some propertyValues
          → propertyValues.get collection.1 = some nodeValue
          → nodeValue.isTruthy = true
          → StaysFilled context root rootAgain collection.2 .fixedCollection nodeValue)
  (lowerMultiple : property.multipleValues = some true
    → ∀ collection ∈ property.collections,
        ∀ entries itemValue nodeValues,
          stored.getD property.default = .object entries
          → Record.lookup entries collection.1 = some itemValue
          → itemValue.iterate = .ok nodeValues
          → ∀ nodeValue ∈ nodeValues,
              StaysFilled context root rootAgain collection.2 .fixedCollection nodeValue)

include lowerSingle lowerMultiple

/-- The items of a fixed collection are filled in as they were. -/
theorem filledItem_again {propertyValues : Value}
    (stays : Record.lookup record itemName = some value)
    (isStored : stored.getD property.default = propertyValues)
    (filled : filledItem context root stored property propertyValues itemName
      = .ok (some (itemName, value)))
    : filledItem context rootAgain (some (.object record)) property (.object record) itemName
      = .ok (some (itemName, value)) := by
  unfold filledItem at filled ⊢
  by_cases multiple : property.multipleValues = some true
  · rw [if_pos multiple] at filled ⊢
    unfold filledMultiple at filled ⊢
    split at filled
    · next entries =>
        obtain ⟨other, returned, same⟩ := Exec.ok_of_map filled
        obtain rfl : other = value := (Prod.mk.inj (Option.some.inj same)).2
        obtain ⟨nodeValues, values, iterated, rfl, turns⟩ := multipleItem_ok_iff.mp returned
        have isItem
            : ∃ itemValue, Record.lookup entries itemName = some itemValue
                ∧ itemValue.iterate = .ok nodeValues := by
          cases found : Record.lookup entries itemName with
          | none =>
              rw [found] at iterated
              cases iterated
          | some itemValue =>
              rw [found] at iterated
              exact ⟨itemValue, rfl, iterated⟩
        obtain ⟨itemValue, found, isIterated⟩ := isItem
        have again
            : Call.multipleItem (levelProperty context true false property) rootAgain itemName
                (.array values)
              = .ok (.array values) := by
          refine multipleItem_ok_iff.mpr ⟨values, values, rfl, rfl, ?_⟩
          refine List.forall₂_same.mpr ?_
          intro filledTo member
          obtain ⟨nodeValue, among, collection, isFound, wasFilled⟩ :=
            Exec.exists_item_of_result turns member
          have isName : collection.1 = itemName := by simpa using List.find?_some isFound
          refine ⟨collection, isFound, ?_⟩
          refine lowerMultiple multiple collection (List.mem_of_find?_eq_some isFound) entries
            itemValue nodeValues isStored ?_ isIterated nodeValue among filledTo wasFilled
          rw [isName]
          exact found
        simp [stays, again, Except.map]
    · cases Except.ok.inj filled
  · rw [if_neg multiple] at filled ⊢
    unfold filledSingle at filled ⊢
    split at filled
    · cases Except.ok.inj filled
    · cases filled
    · next collection propertyValues isFound =>
        obtain ⟨item, wasFilled, filled⟩ := Exec.ok_of_bind filled
        split at filled
        · cases Except.ok.inj filled
        · next notEmpty =>
            have isValue : value = .object item.own :=
              (Prod.mk.inj (Option.some.inj (Except.ok.inj filled))).2.symm
            obtain ⟨-, -, entries, -, -, -, isObject⟩ := Level.fill_ok_iff.mp wasFilled
            subst isObject isValue
            have isName : collection.1 = itemName := by simpa using List.find?_some isFound
            have isItem
                : ∃ nodeValue, propertyValues.get itemName = some nodeValue
                    ∧ nodeValue.isTruthy = true := by
              by_contra absent
              have falsy : ((propertyValues.get itemName).getD .null).isTruthy = false := by
                cases found : propertyValues.get itemName with
                | none => rfl
                | some nodeValue =>
                    simp only [found, Option.some.injEq, exists_eq_left'] at absent
                    simpa using absent
              have isEmpty := Level.fill_falsy falsy wasFilled
              simp [isEmpty] at notEmpty
            obtain ⟨nodeValue, found, truthy⟩ := isItem
            rw [found] at wasFilled
            have again := lowerSingle multiple collection (List.mem_of_find?_eq_some isFound)
              propertyValues nodeValue rfl (isName ▸ found) truthy _ wasFilled
            have reread : ((Value.object record).get itemName).getD .null = .object entries := by
              rw [Value.get_object, stays]
              rfl
            simp only [Value.own_object] at notEmpty
            simp [isFound, reread, again, List.isEmpty_iff.not.mp notEmpty, bind, Except.bind,
              pure, Except.pure]

theorem filledFixedCollection_again
    (filled : filledFixedCollection context root stored property = .ok value)
    : filledFixedCollection context rootAgain (some value) property = .ok value := by
  obtain ⟨record, built, rfl⟩ := Exec.ok_of_map filled
  have sorted := Record.sorted_build built
  have rebuilt
      : Record.build
          (filledItem context rootAgain (some (.object record)) property (.object record))
          (itemNames (.object record))
        = .ok record := by
    refine Record.build_ok_iff.mpr ⟨record.map some, ?_, ?_⟩
    · refine List.forall₂_map_left_iff.mpr (List.forall₂_map_right_iff.mpr ?_)
      refine List.forall₂_same.mpr ?_
      intro entry member
      have found : Record.lookup record entry.1 = some entry.2 :=
        Record.lookup_of_mem sorted member
      obtain ⟨itemName, -, turned⟩ := Record.exists_turn_of_lookup built found
      obtain rfl : entry.1 = itemName := filledItem_name turned
      exact filledItem_again lowerSingle lowerMultiple found rfl turned
    · have kept : (record.map some).reduceOption = record := by simp [List.reduceOption]
      rw [kept]
      exact Record.insertAll_self sorted
  show (Record.build _ _).map Value.object = _
  rw [show (some (Value.object record)).getD property.default = .object record from rfl, rebuilt]
  rfl

end collections

/-! ### Levels -/

variable {check : INodeParameters} {rootAgain : Option INodeParameters}

namespace Level

variable {context : NodeContext} {level : Level}

theorem isVisited_iff (truthy : level.nodeValues.isTruthy = true) (property : INodeProperties)
    : level.isVisited true property = true
      ↔ (level.nodeValues.get property.name).isSome = true
        ∨ level.parentType ≠ some .collection := by
  simp [isVisited, truthy]

/-- A property that was set is the one by whose name its value is found. -/
theorem exists_shown_of_lookup {ordered : List INodeProperties}
    (checked : level.check context true = .ok check) (isOrdered : level.ordered = .ok ordered)
    (built : Record.build (level.filled context check) ordered = .ok record) {name : String}
    (found : Record.lookup record name = some value)
    : ∃ property,
        level.Shows context check property
        ∧ property.name = name
        ∧ filledValue context (level.root check) (level.nodeValues.get property.name) property
          = .ok value := by
  obtain ⟨property, inOrder, turned⟩ := Record.exists_turn_of_lookup built found
  rcases filled_cases turned with ⟨-, absent⟩ | ⟨-, -, absent⟩
    | ⟨visited, displayed, other, taken, same⟩
  · cases absent
  · cases absent
  · obtain ⟨isName, rfl⟩ := Prod.mk.inj (Option.some.inj same)
    exact ⟨property, ⟨checked, mem_of_ordered isOrdered inOrder, visited, displayed⟩,
      isName.symm, taken⟩

theorem isVisited_refilled (property : INodeProperties)
    : (level.refilled (.object record) rootAgain).isVisited true property = true
      ↔ (Record.lookup record property.name).isSome = true
        ∨ level.parentType ≠ some .collection :=
  @isVisited_iff (level.refilled (.object record) rootAgain) rfl property

theorem filledValue_simple {root : INodeParameters} (noCollection : property.type ≠ .collection)
    (noFixed : property.type ≠ .fixedCollection)
    : filledValue context root stored property = .ok (property.taken stored) := by
  unfold filledValue
  split
  · next type => exact absurd type noCollection
  · next type => exact absurd type noFixed
  · rfl

section

variable {filled : Value} {checkAgain : INodeParameters}
  (settled : level.SettledAt context filled rootAgain check checkAgain)
  (lower : ∀ opened, level.Opens context opened
    → ∀ value, opened.fill context = .ok value
    → (opened.refilled value (some (rootAgain.getD checkAgain))).fill context = .ok value)

include settled lower

/-- What is filled in for a property that is settled is filled in again. -/
theorem SettledAt.filledValue_again (shown : level.Shows context check property)
    (taken : filledValue context (level.root check) (level.nodeValues.get property.name) property
      = .ok value)
    : filledValue context (rootAgain.getD checkAgain) (some value) property = .ok value := by
  by_cases isCollection : property.type = .collection
  · unfold filledValue at taken ⊢
    simp only [isCollection] at taken ⊢
    refine filledCollection_again taken ?_ ?_
    · intro single nodeValues stored filledTo wasFilled
      by_cases truthy : nodeValues.isTruthy = true
      · exact lower _ (.options shown isCollection single stored truthy) _ wasFilled
      · obtain rfl := fill_falsy (Bool.eq_false_iff.mpr truthy) wasFilled
        obtain ⟨-, ordered, -, -, isOrdered, -, -⟩ := fill_ok_iff.mp wasFilled
        exact fill_of_empty_collection rfl rfl isOrdered
    · intro single absent
      exact settled.default_filled property shown isCollection single absent
  · by_cases isFixed : property.type = .fixedCollection
    · unfold filledValue at taken ⊢
      simp only [isFixed] at taken ⊢
      refine filledFixedCollection_again ?_ ?_ taken
      · intro single collection member propertyValues nodeValue stored holds truthy filledTo
          wasFilled
        exact lower _ (.item shown isFixed single member stored holds truthy) _ wasFilled
      · intro multiple collection member entries itemValue nodeValues stored holds iterated
          nodeValue among filledTo wasFilled
        have truthy := settled.items_truthy property shown isFixed multiple entries stored _
          (Record.mem_of_lookup holds) nodeValues iterated nodeValue among
        exact lower _
          (.oneOfItems shown isFixed multiple member stored holds iterated among truthy) _
          wasFilled
    · have simple {root : INodeParameters} {stored : Option Value}
          : filledValue context root stored property = .ok (property.taken stored) :=
        filledValue_simple isCollection isFixed
      cases simple.symm.trans taken
      refine simple.trans (congrArg Except.ok (INodeProperties.taken_again ?_))
      intro strips
      exact settled.no_prefix_left property shown strips isCollection isFixed

/-- A level that is settled stays as it was filled, when the levels it opens do. -/
theorem SettledAt.fill_refilled (truthy : level.nodeValues.isTruthy = true)
    (isFilled : level.fill context = .ok filled) (isChecked : level.check context true = .ok check)
    : (level.refilled filled rootAgain).fill context = .ok filled := by
  obtain ⟨check, ordered, record, checked, isOrdered, built, rfl⟩ := fill_ok_iff.mp isFilled
  cases checked.symm.trans isChecked
  refine fill_ok_iff.mpr
    ⟨checkAgain, ordered, record, settled.checked_again, isOrdered, ?_, rfl⟩
  refine Record.build_again built ?_
  intro property inOrder result turned
  have member := mem_of_ordered isOrdered inOrder
  rcases filled_cases turned with ⟨notVisited, rfl⟩ | ⟨visited, hidden, rfl⟩
    | ⟨visited, displayed, value, taken, rfl⟩
  · refine ⟨none, filled_of_not_visited ?_, rfl, by simp⟩
    have notEither := (isVisited_iff truthy property).not.mp (by simp [notVisited])
    obtain ⟨absent, inCollection⟩ := not_or.mp notEither
    refine Bool.eq_false_iff.mpr ?_
    intro visitedAgain
    rcases (isVisited_refilled property).mp visitedAgain with present | elsewhere
    · obtain ⟨final, found⟩ := Option.isSome_iff_exists.mp present
      obtain ⟨other, shown, sameName, -⟩ :=
        exists_shown_of_lookup checked isOrdered built found
      rcases (isVisited_iff truthy other).mp shown.visited with stored | elsewhere
      · exact absent (sameName ▸ stored)
      · exact inCollection elsewhere
    · exact inCollection elsewhere
  · have hiddenAgain := (settled.displayed_again property member visited).trans hidden
    exact ⟨none, filled_of_hidden hiddenAgain, rfl, by simp⟩
  · have shown : level.Shows context check property := ⟨checked, member, visited, displayed⟩
    obtain ⟨final, found⟩ := Record.exists_lookup_of_turn built inOrder turned
    have visitedAgain
        : (level.refilled (.object record) rootAgain).isVisited true property = true :=
      (isVisited_refilled property).mpr (.inl (by simp [found]))
    have displayedAgain := (settled.displayed_again property member visited).trans displayed
    have again := filled_of_displayed visitedAgain displayedAgain
    rw [show (level.refilled (.object record) rootAgain).nodeValues.get property.name
      = some final from found] at again
    by_cases isSimple : property.type ≠ .collection ∧ property.type ≠ .fixedCollection
    · obtain ⟨noCollection, noFixed⟩ := isSimple
      rw [filledValue_simple noCollection noFixed] at again
      refine ⟨_, again, rfl, ?_⟩
      intro key kept same isKept
      cases same
      cases found.symm.trans isKept
      have kept := settled.filledValue_again lower shown taken
      rw [filledValue_simple noCollection noFixed] at kept
      rw [Except.ok.inj kept]
    · have complex : property.type = .collection ∨ property.type = .fixedCollection := by
        rw [not_and_or, not_not, not_not] at isSimple
        exact isSimple
      obtain ⟨other, otherShown, sameName, otherTaken⟩ :=
        exists_shown_of_lookup checked isOrdered built found
      obtain rfl := settled.own_name property other shown otherShown complex sameName
      cases taken.symm.trans otherTaken
      have kept := settled.filledValue_again lower shown taken
      refine ⟨some (other.name, value), ?_, rfl, fun _ _ same _ => same⟩
      rw [again]
      show (filledValue context (rootAgain.getD checkAgain) (some value) other).map _ = _
      rw [kept]
      rfl

end

/-! ### The levels below -/

theorem Opens.truthy {opened : Level} (opens : level.Opens context opened)
    : opened.nodeValues.isTruthy = true := by
  cases opens with
  | options _ _ _ _ truthy => exact truthy
  | item _ _ _ _ _ _ truthy => exact truthy
  | oneOfItems _ _ _ _ _ _ _ _ truthy => exact truthy

/-- The properties of a level that is opened are part of those of the level that opens it. -/
theorem Opens.sizeOf_lt {opened : Level} (opens : level.Opens context opened)
    : sizeOf opened.properties < sizeOf level.properties := by
  have ofOptions (property : INodeProperties)
      : sizeOf property.options < sizeOf property := by
    cases property
    simp only [INodeProperties.options, INodeProperties.mk.sizeOf_spec]
    omega
  have ofCollections (property : INodeProperties)
      : sizeOf property.collections < sizeOf property := by
    cases property
    simp only [INodeProperties.collections, INodeProperties.mk.sizeOf_spec]
    omega
  have ofCollection {property : INodeProperties} {collection : String × List INodeProperties}
      (member : collection ∈ property.collections)
      : sizeOf collection.2 < sizeOf property := by
    have inList := List.sizeOf_lt_of_mem member
    have inPair : sizeOf collection.2 < sizeOf collection := by
      cases collection
      simp only [Prod.mk.sizeOf_spec]
      omega
    have := ofCollections property
    omega
  cases opens with
  | @options _ property _ shown =>
      have := List.sizeOf_lt_of_mem shown.member
      have := ofOptions property
      show sizeOf property.options < _
      omega
  | item shown _ _ member =>
      have := List.sizeOf_lt_of_mem shown.member
      have := ofCollection member
      show sizeOf (Prod.snd _) < _
      omega
  | oneOfItems shown _ _ member =>
      have := List.sizeOf_lt_of_mem shown.member
      have := ofCollection member
      show sizeOf (Prod.snd _) < _
      omega

/-- A level stays as it was filled when all levels it leads to are settled, by induction on
its properties.
-/
theorem fill_refilled_of_settled {level : Level} {rootAgain : INodeParameters}
    (truthy : level.nodeValues.isTruthy = true)
    (settled : ∀ opened, Relation.ReflTransGen (Opens context) level opened
      → opened.Settled context (some rootAgain))
    {filled : Value} (isFilled : level.fill context = .ok filled)
    : (level.refilled filled (some rootAgain)).fill context = .ok filled := by
  obtain ⟨check, ordered, record, checked, -, -, -⟩ := fill_ok_iff.mp isFilled
  obtain ⟨checkAgain, settledHere⟩ := settled level .refl filled check isFilled checked
  refine settledHere.fill_refilled ?_ truthy isFilled checked
  intro opened opens value openedFilled
  have := opens.sizeOf_lt
  exact fill_refilled_of_settled opens.truthy
    (fun later leads => settled later (.head opens leads)) openedFilled
termination_by sizeOf level.properties

end Level

/-! ### All parameters of a node -/

/-- The parameters of a node as one level. -/
def parametersLevel (properties : List INodeProperties) (nodeValues : Value) : Level :=
  {
    properties
    nodeValues
    parentType := none
    nodeValuesRoot := none
  }

/-- Once filled, the parameters of a node are settled on every level. -/
def SettledThroughout (context : NodeContext) (properties : List INodeProperties)
    (values : INodeParameters)
    : Prop :=
  ∀ filled check,
    getNodeParameters context true false properties (.object values) = .ok filled
    → (parametersLevel properties (.object values)).check context true = .ok check
    → ∃ checkAgain,
        (parametersLevel properties (.object values)).SettledAt context filled none check
          checkAgain
        ∧ ∀ opened,
            Relation.TransGen (Level.Opens context)
                (parametersLevel properties (.object values)) opened
            → opened.Settled context (some checkAgain)

section examples

/-- A node of version 1 whose rules name no paths, only parameters. -/
def plainContext : NodeContext :=
  {
    operators :=
      {
        get := Record.lookup
        test := fun _ _ => .ok false
        isAtLeast := fun _ _ => false
        isAtMost := fun _ _ => false
        isGreater := fun _ _ => false
        isLess := fun _ _ => false
      }
    typeVersion := some 1
    typeName := none
    features := none
  }

def shownWhen (name : String) (value : Value) : Option IDisplayOptions :=
  some { showRules := some [(name, [.plain (some value)])], hideRules := none }

/-- A switch, and a text that is displayed when it is on. -/
def switchAndText : List INodeProperties :=
  [
    .mk "switch" .boolean (.boolean false) false none none [] [],
    .mk "text" .string (.string "empty") false none (shownWhen "switch" (.boolean true)) [] []
  ]

/-- A mode that is displayed when a switch is on, and a text that is for one of the modes. -/
def switchModeAndText : List INodeProperties :=
  [
    .mk "switch" .boolean (.boolean false) false none none [] [],
    .mk "mode" .options (.string "simple") false none (shownWhen "switch" (.boolean true)) [] [],
    .mk "text" .string (.string "empty") false none (shownWhen "mode" (.string "full")) [] []
  ]

/-- A text that is no expression. -/
def plainText : List INodeProperties :=
  [.mk "text" .string (.string "") true none none [] []]

/-- A collection whose default has a field it does not know. -/
def unknownDefault : List INodeProperties :=
  [
    .mk "more" .collection (.object [("other", .null)]) false none none
      [.mk "switch" .boolean (.boolean false) false none none [] []] []
  ]

/-- Two fixed collections of one name, of which only the second one knows its default. -/
def twoOfOneName : List INodeProperties :=
  [
    .mk "rules" .fixedCollection (.object []) false (some true) none [] [],
    .mk "rules" .fixedCollection (.object [("rule", .array [.object []])]) false (some true) none
      [] [("rule", [])]
  ]

def rulesWithSwitch : List INodeProperties :=
  [
    .mk "rules" .fixedCollection (.object []) false (some true) none []
      [("rule", [.mk "switch" .boolean (.boolean false) false none none [] []])]
  ]

/-- Properties and stored values that a second call changes: where a hidden parameter decides
what is displayed, where an expression's prefix is left, where a default is not filled itself,
where two collections share a name, and where an item is `null`.
-/
def changedAgain : List (List INodeProperties × INodeParameters) :=
  [
    (switchModeAndText, [("mode", .string "full"), ("text", .string "kept")]),
    (plainText, [("text", .string "==kept")]),
    (unknownDefault, []),
    (twoOfOneName, []),
    (rulesWithSwitch, [("rules", .object [("rule", .array [.null])])])
  ]

end examples

end N8n.NodeParameters
