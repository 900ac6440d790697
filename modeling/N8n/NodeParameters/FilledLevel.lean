import N8n.NodeParameters.GetNodeParameters

/-! What a call that adds the defaults does on its level: it sets each displayed parameter to
a value that depends on the values stored and displayed, and on no other parameter it sets.
-/

namespace N8n.NodeParameters

/-- What one call works on. -/
structure Level where
  properties : List INodeProperties
  nodeValues : Value
  parentType : Option NodePropertyTypes
  nodeValuesRoot : Option INodeParameters

namespace Level

variable (context : NodeContext)

def options (level : Level) (returnDefaults : Bool) : GetNodeParametersOptions :=
  {
    returnDefaults
    returnNoneDisplayed := false
    onlySimpleTypes := false
    dataIsResolved := false
    nodeValuesRoot := level.nodeValuesRoot
    parentType := level.parentType
  }

/-- The level as the function returns it, with its defaults or without them. -/
def resolved (returnDefaults : Bool) (level : Level) : Except JsError Value :=
  NodeParameters.level context
    (levelProperties context returnDefaults false level.properties) level.nodeValues
    (level.options returnDefaults)

def fill (level : Level) : Except JsError Value := level.resolved context true

/-- The values that the display of the level is checked against. -/
def check (level : Level) (returnDefaults : Bool) : Except JsError INodeParameters :=
  displayCheck context (levelProperties context returnDefaults false level.properties)
    level.nodeValues (level.options returnDefaults)

/-- The properties in the order in which they are resolved, some more than once. -/
def ordered (level : Level) : Except JsError (List INodeProperties) :=
  (getParameterResolveOrder level.properties (getParameterDependencies level.properties)).map
    (fun order => order.filterMap (fun index => level.properties[index]?))

def call (level : Level) (returnDefaults : Bool) (check : INodeParameters) : Call :=
  {
    context
    nodeValues := level.nodeValues
    options := level.options returnDefaults
    duplicateParameterNames := duplicateNames level.properties
    nodeValuesDisplayCheck := some check
  }

/-- Whether a property is displayed, and the values at the root under which it is. -/
def root (level : Level) (check : INodeParameters) : INodeParameters :=
  level.nodeValuesRoot.getD check

def isDisplayed (level : Level) (check : INodeParameters) (property : INodeProperties)
    : Except JsError Bool :=
  displayParameter context check (level.root check) property

/-- Whether a call looks at a property at all. -/
def isVisited (level : Level) (returnDefaults : Bool) (property : INodeProperties) : Bool :=
  level.nodeValues.isTruthy
    && ((level.nodeValues.get property.name).isSome
      || (returnDefaults && level.parentType ≠ some .collection))

/-! ### The properties of a level -/

end Level

section LevelProperties

variable (context : NodeContext) (returnDefaults returnNoneDisplayed : Bool)

theorem levelProperties_eq_map (properties : List INodeProperties)
    : levelProperties context returnDefaults returnNoneDisplayed properties
      = properties.map (levelProperty context returnDefaults returnNoneDisplayed) := by
  induction properties with
  | nil => rfl
  | cons property rest ih => simp [levelProperties, ih]

@[simp] theorem levelProperty_property (property : INodeProperties)
    : (levelProperty context returnDefaults returnNoneDisplayed property).property
      = property := by
  cases property
  rfl

theorem map_property_levelProperties (properties : List INodeProperties)
    : (levelProperties context returnDefaults returnNoneDisplayed properties).map
        LevelProperty.property
      = properties := by
  rw [levelProperties_eq_map, List.map_map]
  exact (List.map_congr_left (fun property _ => levelProperty_property ..)).trans
    (List.map_id _)

theorem levelProperty_ofOptions (property : INodeProperties) (nodeValues : Value)
    (nodeValuesRoot : INodeParameters)
    : (levelProperty context returnDefaults false property).ofOptions nodeValues nodeValuesRoot
      = Level.resolved context returnDefaults
          {
            properties := property.options
            nodeValues
            parentType := some .collection
            nodeValuesRoot := some nodeValuesRoot
          } := by
  cases property
  rfl

/-- The option of a fixed collection under a name, with the call for its level. -/
def collectionOption (collection : String × List INodeProperties) : CollectionOption :=
  {
    name := collection.1
    values := collection.2
    call := fun nodeValues nodeValuesRoot =>
      Level.resolved context returnDefaults
        {
          properties := collection.2
          nodeValues
          parentType := some .fixedCollection
          nodeValuesRoot := some nodeValuesRoot
        }
  }

theorem collectionOptions_eq_map (collections : List (String × List INodeProperties))
    : collectionOptions context returnDefaults false collections
      = collections.map (collectionOption context returnDefaults) := by
  induction collections with
  | nil => rfl
  | cons collection rest ih =>
      simp only [collectionOptions, List.map_cons, ih]
      rfl

theorem find?_ofCollections (property : INodeProperties) (itemName : String)
    : (levelProperty context returnDefaults false property).ofCollections.find?
        (fun option => option.name = itemName)
      = (property.collections.find? (fun collection => collection.1 = itemName)).map
          (collectionOption context returnDefaults) := by
  have fromMap
      : (levelProperty context returnDefaults false property).ofCollections
        = property.collections.map (collectionOption context returnDefaults) := by
    cases property
    exact collectionOptions_eq_map ..
  rw [fromMap, List.find?_map]
  rfl

end LevelProperties

namespace Level

variable {context : NodeContext} {level : Level}

theorem resolved_eq (returnDefaults : Bool)
    : level.resolved context returnDefaults
      = (do
          let check ← level.check context returnDefaults
          let ordered ← level.ordered
          (level.call context returnDefaults check).loop
            (ordered.map (levelProperty context returnDefaults false))
            { nodeParameters := [], nodeParametersFull := [] }) := by
  unfold resolved NodeParameters.level
  simp only [options, Bool.or_self, Bool.false_eq_true, if_false]
  unfold check runLoop ordered
  rw [map_property_levelProperties]
  refine bind_congr ?_
  intro check
  simp only [levelProperties_eq_map, List.getElem?_map]
  generalize
    getParameterResolveOrder level.properties (getParameterDependencies level.properties) = order
  cases order with
  | error error => rfl
  | ok order =>
      show _ = Call.loop _ (List.map _ (List.filterMap _ order)) _
      rw [List.map_filterMap]
      rfl

/-! ### What is filled in for one property -/

end Level

/-- What a simple property is set to when defaults are added. -/
def INodeProperties.taken (property : INodeProperties) (stored : Option Value) : Value :=
  if property.noDataExpression then (property.valueOrDefault stored).withoutPrefix
  else property.valueOrDefault stored

section filled

variable (context : NodeContext) (root : INodeParameters) (stored : Option Value)
  (property : INodeProperties)

/-- An item of a fixed collection that allows several, in `propertyValues`. -/
def filledMultiple (propertyValues : Value) (itemName : String)
    : Except JsError (Option (String × Value)) :=
  match propertyValues with
  | .object entries =>
      (Call.multipleItem (levelProperty context true false property) root itemName
        ((Record.lookup entries itemName).getD .null)).map (fun value => some (itemName, value))
  | _ => pure none

/-- The item of a fixed collection that allows one. -/
def filledSingle (itemName : String) : Except JsError (Option (String × Value)) :=
  match property.collections.find? (fun collection => collection.1 = itemName), stored with
  | none, _ => pure none
  | some _, none => throw .typeError
  | some collection, some stored => do
      let item ← Level.fill context
        {
          properties := collection.2
          nodeValues := (stored.get itemName).getD .null
          parentType := some .fixedCollection
          nodeValuesRoot := some root
        }
      if item.own.isEmpty then return none
      return some (itemName, .object item.own)

def filledItem (propertyValues : Value) (itemName : String)
    : Except JsError (Option (String × Value)) :=
  if property.multipleValues = some true then
    filledMultiple context root property propertyValues itemName
  else filledSingle context root stored property itemName

/-- The names of the items of a fixed collection. -/
def itemNames (propertyValues : Value) : List String :=
  if propertyValues.isTruthy then propertyValues.keys else []

def filledFixedCollection : Except JsError Value :=
  let propertyValues := stored.getD property.default
  (Record.build (filledItem context root stored property propertyValues)
    (itemNames propertyValues)).map .object

def filledCollection : Except JsError Value :=
  match property.multipleValues, stored with
  | some true, some value => pure value
  | some true, none =>
      match property.default with
      | .array items => pure (.array items)
      | _ => pure (.array [])
  | _, some value =>
      Level.fill context
        {
          properties := property.options
          nodeValues := value
          parentType := some .collection
          nodeValuesRoot := some root
        }
  | _, none => pure property.default

def filledValue : Except JsError Value :=
  match property.type with
  | .collection => filledCollection context root stored property
  | .fixedCollection => filledFixedCollection context root stored property
  | _ => pure (property.taken stored)

end filled

variable {property : INodeProperties} {check : INodeParameters} {ordered : List INodeProperties}

namespace Level

/-- What a level sets for a property, if anything. -/
def filled (context : NodeContext) (level : Level) (check : INodeParameters)
    (property : INodeProperties)
    : Except JsError (Option (String × Value)) := do
  if !level.isVisited true property then return none
  if !(← level.isDisplayed context check property) then return none
  let value ← filledValue context (level.root check) (level.nodeValues.get property.name) property
  return some (property.name, value)

variable {context : NodeContext} {level : Level}

/-! ### The loop of a call that adds the defaults -/

theorem stripPrefix_set (property : INodeProperties) (progress : Progress)
    (stored : Option Value)
    : Call.stripPrefix property
        (progress.set property.name (property.valueOrDefault stored))
      = progress.set property.name (property.taken stored) := by
  unfold Call.stripPrefix INodeProperties.taken
  simp only [Progress.set, Record.lookup_insert, if_true, Record.insert_insert]
  cases strips : property.noDataExpression with
  | false => simp
  | true =>
      cases prefixed : (property.valueOrDefault stored).isExpression with
      | false =>
          have same := Value.withoutPrefix_of_not_isExpression prefixed
          simp [same]
      | true => simp

variable (check property)

theorem setSimple_filling (progress : Progress)
    (displayed : level.isDisplayed context check property = .ok true)
    : (level.call context true check).setSimple property progress
      = .ok (progress.set property.name
          (property.taken (level.nodeValues.get property.name))) := by
  have again : (level.call context true check).isDisplayed progress property = .ok true :=
    displayed
  have defaults : (level.call context true check).options.returnDefaults = true := rfl
  rw [← stripPrefix_set]
  unfold Call.setSimple
  simp only [again, defaults]
  split <;> rfl

theorem setCollection_filling (progress : Progress)
    : (level.call context true check).setCollection (levelProperty context true false property)
        progress
      = (filledCollection context (level.root check) (level.nodeValues.get property.name)
          property).map (progress.set property.name) := by
  have defaults : (level.call context true check).options.returnDefaults = true := rfl
  have stored : (level.call context true check).stored property
      = level.nodeValues.get property.name := rfl
  have root : (level.call context true check).root progress = level.root check := rfl
  unfold Call.setCollection filledCollection
  simp only [levelProperty_property, stored, root, defaults, levelProperty_ofOptions]
  generalize level.nodeValues.get property.name = found
  cases found with
  | none =>
      generalize property.default = default
      rcases property.multipleValues with _ | _ | _
      · rfl
      · rfl
      · cases default <;> rfl
  | some value =>
      unfold fill
      generalize
        resolved context true
          {
            properties := property.options
            nodeValues := value
            parentType := some .collection
            nodeValuesRoot := some (level.root check)
          } = lower
      rcases property.multipleValues with _ | _ | _
      · cases lower <;> rfl
      · cases lower <;> rfl
      · rfl

theorem gatherItem_filling (propertyValues : Value) (gathered : Call.Gathered) (itemName : String)
    : ((level.call context true check).gatherItem (levelProperty context true false property)
          (level.root check) propertyValues gathered itemName).map
        Call.Gathered.collectionValues
      = (filledItem context (level.root check) (level.nodeValues.get property.name) property
          propertyValues itemName).map (fun entry =>
            Record.insertAll gathered.collectionValues entry.toList) := by
  unfold Call.gatherItem filledItem
  simp only [levelProperty_property]
  split
  · unfold filledMultiple
    cases propertyValues with
    | object entries =>
        simp only
        generalize Call.multipleItem _ _ itemName _ = values
        cases values <;> rfl
    | _ => rfl
  · unfold Call.singleItem filledSingle
    rw [find?_ofCollections]
    generalize property.collections.find? _ = found
    cases found with
    | none => rfl
    | some collection =>
        have stored : (level.call context true check).stored property
            = level.nodeValues.get property.name := rfl
        have defaults : (level.call context true check).options.returnDefaults = true := rfl
        simp only [Option.map_some, levelProperty_property, stored, defaults]
        cases level.nodeValues.get property.name with
        | none => rfl
        | some stored =>
            unfold fill collectionOption
            simp only
            generalize
              resolved context true
                {
                  properties := collection.2
                  nodeValues := (stored.get itemName).getD .null
                  parentType := some .fixedCollection
                  nodeValuesRoot := some (level.root check)
                } = lower
            cases lower with
            | error error => rfl
            | ok item =>
                cases empty : item.own.isEmpty with
                | true =>
                    simp [bind, Except.bind, pure, Except.pure, empty, Except.map,
                      Record.insertAll]
                | false =>
                    simp [bind, Except.bind, pure, Except.pure, empty, Except.map,
                      Record.insertAll, Call.Gathered.set]

theorem setFixedCollection_filling (progress : Progress)
    : (level.call context true check).setFixedCollection
        (levelProperty context true false property) progress
      = (filledFixedCollection context (level.root check) (level.nodeValues.get property.name)
          property).map (fun value => .next (progress.set property.name value)) := by
  have defaults : (level.call context true check).options.returnDefaults = true := rfl
  have stored : (level.call context true check).stored property
      = level.nodeValues.get property.name := rfl
  have root : (level.call context true check).root progress = level.root check := rfl
  unfold filledFixedCollection Call.setFixedCollection
  simp only [levelProperty_property, defaults, stored, root, if_true]
  generalize found : level.nodeValues.get property.name = value
  have builds (item : String) (gathered : Call.Gathered) :=
    @gatherItem_filling property check context level
      (value.getD property.default) gathered item
  rw [found] at builds
  have start : (⟨[], false⟩ : Call.Gathered).collectionValues = [] := rfl
  rw [← Record.foldlM_eq_build (fun gathered item => builds item gathered) start]
  unfold itemNames
  generalize List.foldlM (m := Except JsError) _ _ _ = gathered
  cases gathered with
  | error error => rfl
  | ok gathered => simp [bind, Except.bind, pure, Except.pure, Except.map]

theorem turn_filling (progress : Progress)
    : (level.call context true check).turn (levelProperty context true false property) progress
      = (level.filled context check property).map (fun entry => .next
          (entry.elim progress (fun entry => progress.set entry.1 entry.2))) := by
  have fixed := @setFixedCollection_filling property check context level progress
  have collection := @setCollection_filling property check context level progress
  have simple := @setSimple_filling property check context level progress
  have isDisplayed : (level.call context true check).isDisplayed progress property
      = level.isDisplayed context check property := rfl
  have visited
      : (!(level.call context true check).nodeValues.isTruthy
          || (((level.call context true check).stored property).isNone
            && (!(level.call context true check).options.returnDefaults
              || (level.call context true check).options.parentType = some .collection)))
        = !level.isVisited true property := by
    show (!level.nodeValues.isTruthy
        || ((level.nodeValues.get property.name).isNone
          && (!true || decide (level.parentType = some .collection)))) = _
    unfold isVisited
    cases level.nodeValues.isTruthy <;> cases level.nodeValues.get property.name <;> simp
  unfold Call.turn filled
  simp only [levelProperty_property, isDisplayed, visited]
  cases level.isVisited true property with
  | false => rfl
  | true =>
      cases displayed : level.isDisplayed context check property with
      | error error => rfl
      | ok isDisplayed =>
          cases isDisplayed with
          | false => rfl
          | true =>
              specialize simple displayed
              unfold filledValue
              have complex
                  : (level.call context true check).options.onlySimpleTypes = false := rfl
              have hidden
                  : (level.call context true check).options.returnNoneDisplayed = false := rfl
              simp only [complex, hidden, simple, fixed, collection]
              generalize
                filledCollection context (level.root check)
                  (level.nodeValues.get property.name) property = ofCollection
              generalize
                filledFixedCollection context (level.root check)
                  (level.nodeValues.get property.name) property = ofFixedCollection
              cases property.type with
              | collection => cases ofCollection <;> rfl
              | fixedCollection => cases ofFixedCollection <;> rfl
              | _ => rfl

/-- The loop of a call that adds the defaults builds the record of what is filled in. -/
theorem loop_filling (properties : List INodeProperties)
    : (level.call context true check).loop
        (properties.map (levelProperty context true false))
        { nodeParameters := [], nodeParametersFull := [] }
      = (Record.build (level.filled context check) properties).map .object := by
  have fromProgress (progress : Progress)
      : (level.call context true check).loop
          (properties.map (levelProperty context true false)) progress
        = (properties.mapM (level.filled context check)).map (fun results =>
            .object (Record.insertAll progress.nodeParameters results.reduceOption)) := by
    induction properties generalizing progress with
    | nil => rfl
    | cons property rest ih =>
        simp only [List.map_cons, Call.loop, turn_filling, List.mapM_cons]
        cases level.filled context check property with
        | error error => rfl
        | ok entry =>
            show (level.call context true check).loop _ _ = _
            rw [ih]
            generalize rest.mapM (level.filled context check) = results
            cases results with
            | error error => rfl
            | ok results => cases entry <;> rfl
  rw [fromProgress]
  unfold Record.build
  generalize properties.mapM (level.filled context check) = results
  cases results <;> rfl

variable {check property}

theorem fill_eq
    : level.fill context
      = (do
          let check ← level.check context true
          let ordered ← level.ordered
          (Record.build (level.filled context check) ordered).map .object) := by
  unfold fill
  rw [resolved_eq]
  simp only [loop_filling]

/-- A level that is filled is the record of what is filled in for its properties. -/
theorem fill_ok_iff {value : Value}
    : level.fill context = .ok value
      ↔ ∃ check ordered record,
          level.check context true = .ok check
          ∧ level.ordered = .ok ordered
          ∧ Record.build (level.filled context check) ordered = .ok record
          ∧ value = .object record := by
  rw [fill_eq]
  constructor
  · intro filled
    obtain ⟨check, checked, filled⟩ := Exec.ok_of_bind filled
    obtain ⟨ordered, isOrdered, filled⟩ := Exec.ok_of_bind filled
    obtain ⟨record, built, same⟩ := Exec.ok_of_map filled
    exact ⟨check, ordered, record, checked, isOrdered, built, same.symm⟩
  · rintro ⟨check, ordered, record, checked, isOrdered, built, rfl⟩
    simp only [checked, isOrdered, built, bind, Except.bind, Except.map]

theorem mem_of_ordered (isOrdered : level.ordered = .ok ordered) (member : property ∈ ordered)
    : property ∈ level.properties := by
  obtain ⟨order, -, rfl⟩ := Exec.ok_of_map isOrdered
  obtain ⟨index, -, found⟩ := List.mem_filterMap.mp member
  exact List.mem_of_getElem? found

theorem filled_cases {result : Option (String × Value)}
    (filled : level.filled context check property = .ok result)
    : level.isVisited true property = false ∧ result = none
      ∨ level.isVisited true property = true
        ∧ level.isDisplayed context check property = .ok false
        ∧ result = none
      ∨ level.isVisited true property = true
        ∧ level.isDisplayed context check property = .ok true
        ∧ ∃ value,
            filledValue context (level.root check) (level.nodeValues.get property.name) property
              = .ok value
            ∧ result = some (property.name, value) := by
  unfold Level.filled at filled
  cases visited : level.isVisited true property with
  | false =>
      rw [visited] at filled
      exact .inl ⟨rfl, (Except.ok.inj filled).symm⟩
  | true =>
      rw [visited] at filled
      obtain ⟨isDisplayed, displayed, filled⟩ := Exec.ok_of_bind filled
      cases isDisplayed with
      | false => exact .inr (.inl ⟨rfl, displayed, (Except.ok.inj filled).symm⟩)
      | true =>
          obtain ⟨value, taken, filled⟩ := Exec.ok_of_bind filled
          exact .inr (.inr ⟨rfl, displayed, value, taken, (Except.ok.inj filled).symm⟩)

theorem filled_of_not_visited (notVisited : level.isVisited true property = false)
    : level.filled context check property = .ok none := by
  unfold Level.filled
  rw [notVisited]
  rfl

theorem filled_of_hidden (hidden : level.isDisplayed context check property = .ok false)
    : level.filled context check property = .ok none := by
  unfold Level.filled
  rw [hidden]
  cases level.isVisited true property <;> rfl

theorem filled_of_displayed (visited : level.isVisited true property = true)
    (displayed : level.isDisplayed context check property = .ok true)
    : level.filled context check property
      = (filledValue context (level.root check) (level.nodeValues.get property.name)
          property).map (fun value => some (property.name, value)) := by
  unfold Level.filled
  rw [visited, displayed]
  rfl

theorem fill_falsy {value : Value} (falsy : level.nodeValues.isTruthy = false)
    (filled : level.fill context = .ok value)
    : value = .object [] := by
  obtain ⟨check, ordered, record, -, -, built, rfl⟩ := fill_ok_iff.mp filled
  cases record with
  | nil => rfl
  | cons entry rest =>
      have found : Record.lookup (entry :: rest) entry.1 = some entry.2 := by
        simp [Record.lookup]
      obtain ⟨property, -, turned⟩ := Record.exists_turn_of_lookup built found
      have notVisited : level.isVisited true property = false := by simp [isVisited, falsy]
      rw [filled_of_not_visited notVisited] at turned
      simp at turned

end Level

/-! ### Empty collections -/

namespace Call

/-- A call for a collection sets nothing that is not stored. -/
theorem loop_of_empty_collection {call : Call} (inCollection : call.options.parentType
      = some .collection) (empty : call.nodeValues = .object []) (items : List LevelProperty)
    (progress : Progress)
    : call.loop items progress = .ok (.object progress.nodeParameters) := by
  induction items with
  | nil => rfl
  | cons item rest ih =>
      have skipped : call.turn item progress = .ok (.next progress) := by
        unfold turn
        simp [inCollection, empty, stored, Value.get_object]
        rfl
      simp only [loop, skipped]
      exact ih

end Call

namespace Level

variable {context : NodeContext} {level : Level}

theorem check_of_empty_collection (returnDefaults : Bool)
    (inCollection : level.parentType = some .collection) (empty : level.nodeValues = .object [])
    (isOrdered : level.ordered = .ok ordered)
    : level.check context returnDefaults = .ok [] := by
  obtain ⟨order, resolved, -⟩ := Exec.ok_of_map isOrdered
  unfold check displayCheck runLoop
  rw [map_property_levelProperties]
  simp only [resolved, bind, Except.bind]
  rw [Call.loop_of_empty_collection inCollection empty]
  rfl

theorem fill_of_empty_collection (inCollection : level.parentType = some .collection)
    (empty : level.nodeValues = .object []) (isOrdered : level.ordered = .ok ordered)
    : level.fill context = .ok (.object []) := by
  unfold fill
  rw [resolved_eq, check_of_empty_collection true inCollection empty isOrdered, isOrdered]
  exact Call.loop_of_empty_collection inCollection empty _ _

end Level

end N8n.NodeParameters
