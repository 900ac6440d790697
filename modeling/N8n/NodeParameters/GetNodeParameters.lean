import N8n.NodeParameters.ResolveOrder

/-! The parameters of a node with their defaults, or without them
(`packages/workflow/src/node-helpers.ts`, `getNodeParameters`). Each call works on one level
of parameters; what it calls for the levels below is kept beside each property.
-/

namespace N8n.NodeParameters

/-- The arguments and the options that are the same for every parameter of a level. -/
structure GetNodeParametersOptions where
  returnDefaults : Bool
  returnNoneDisplayed : Bool
  onlySimpleTypes : Bool
  dataIsResolved : Bool
  nodeValuesRoot : Option INodeParameters
  parentType : Option NodePropertyTypes

/-- A call for a level below, by its values and the values at the root. -/
abbrev LowerLevel := Value → INodeParameters → Except JsError Value

/-- One option of a fixed collection. -/
structure CollectionOption where
  name : String
  values : List INodeProperties
  call : LowerLevel

/-- A property with the calls for the levels below it. -/
structure LevelProperty where
  property : INodeProperties
  ofOptions : LowerLevel
  ofCollections : List CollectionOption

/-- One call of the function, as its loop sees it. The display is checked against
`nodeValuesDisplayCheck`, or against the parameters found so far.
-/
structure Call where
  context : NodeContext
  nodeValues : Value
  options : GetNodeParametersOptions
  duplicateParameterNames : List String
  nodeValuesDisplayCheck : Option INodeParameters

structure Progress where
  nodeParameters : INodeParameters
  nodeParametersFull : INodeParameters

/-- What one turn of the loop leads to. -/
inductive Turn where
  | next (progress : Progress)
  | returns (value : Value)

def Progress.set (progress : Progress) (name : String) (value : Value) : Progress :=
  {
    nodeParameters := Record.insert progress.nodeParameters name value
    nodeParametersFull := Record.insert progress.nodeParametersFull name value
  }

/-- The names that several properties share. -/
def duplicateNames (properties : List INodeProperties) : List String :=
  (properties.map INodeProperties.name).filter (fun name =>
    decide (1 < (properties.map INodeProperties.name).count name))

namespace INodeProperties

/-- The stored value, or the default where nothing is stored. -/
def valueOrDefault (property : INodeProperties) (stored : Option Value) : Value :=
  if property.type ∈ [.boolean, .number, .options] then stored.getD property.default
  else if property.type = .resourceLocator ∧ property.default.isObject then
    stored.getD (.object (Value.spread [("__rl", .boolean true)] property.default))
  else
    match stored with
    | none | some .null => property.default
    | some value => value

/-- Whether a stored value is kept when only values that are no defaults are. -/
def isKept (property : INodeProperties) (parentType : Option NodePropertyTypes)
    (stored : Value)
    : Bool :=
  (!stored.isObject && stored ≠ property.default)
    || (stored.isObject && !stored.isEqual property.default)
    || parentType = some .collection

end INodeProperties

namespace Call

variable (call : Call)

def stored (property : INodeProperties) : Option Value := call.nodeValues.get property.name

def displayValues (progress : Progress) : INodeParameters :=
  call.nodeValuesDisplayCheck.getD progress.nodeParametersFull

def root (progress : Progress) : INodeParameters :=
  call.options.nodeValuesRoot.getD (call.displayValues progress)

def isDisplayed (progress : Progress) (property : INodeProperties) : Except JsError Bool :=
  displayParameter call.context (call.displayValues progress) (call.root progress) property

/-- The parameter without the prefix of an expression, where it must be none. -/
def stripPrefix (property : INodeProperties) (progress : Progress) : Progress :=
  match Record.lookup progress.nodeParameters property.name with
  | some value =>
      if property.noDataExpression && value.isExpression then
        progress.set property.name value.withoutPrefix
      else progress
  | none => progress

def setSimple (property : INodeProperties) (progress : Progress) : Except JsError Progress := do
  if call.duplicateParameterNames.contains property.name then
    if !(← call.isDisplayed progress property) then return progress
  if call.options.returnDefaults then
    return stripPrefix property
      (progress.set property.name (property.valueOrDefault (call.stored property)))
  match call.stored property with
  | none => return progress
  | some value =>
      if property.isKept call.options.parentType value then
        return progress.set property.name value
      return stripPrefix property progress

def setCollection (item : LevelProperty) (progress : Progress) : Except JsError Progress := do
  let { property, ofOptions, .. } := item
  match property.multipleValues, call.stored property with
  | some true, some value => return progress.set property.name value
  | some true, none =>
      if call.options.returnDefaults then
        match property.default with
        | .array items => return progress.set property.name (.array items)
        | _ => return progress.set property.name (.array [])
      return progress
  | _, some value =>
      return progress.set property.name (← ofOptions value (call.root progress))
  | _, none =>
      if call.options.returnDefaults then return progress.set property.name property.default
      return progress

/-- What the loop over the items of a fixed collection has gathered. -/
structure Gathered where
  collectionValues : INodeParameters
  hadAnyVisibleFields : Bool

def couldNotFindOption : JsError :=
  .error "ApplicationError" "Could not find property option" none

/-- One of the values of an item of which there can be several. -/
def multipleValue (item : LevelProperty) (root : INodeParameters) (itemName : String)
    (nodeValue : Value)
    : Except JsError Value :=
  match item.ofCollections.find? (fun option => option.name = itemName) with
  | none => throw couldNotFindOption
  | some option => option.call nodeValue root

/-- The values of one item of which there can be several. -/
def multipleItem (item : LevelProperty) (root : INodeParameters) (itemName : String)
    (itemValue : Value)
    : Except JsError Value := do
  let nodeValues ← itemValue.iterate
  let values ← nodeValues.mapM (multipleValue item root itemName)
  return .array values

/-- Whether an item holds a value of a known field that is not the field's default. -/
def hasNonDefaultValues (values : List INodeProperties) (itemNodeValues : Option Value) : Bool :=
  match itemNodeValues with
  | none => false
  | some itemNodeValues =>
      itemNodeValues.isTruthy && itemNodeValues.own.any (fun (key, value) =>
        match values.find? (fun field => field.name = key) with
        | none => false
        | some field => !value.isEqual field.default)

/-- The value of the only item of its name, and whether its fields are visible. -/
def singleItem (item : LevelProperty) (root : INodeParameters) (itemName : String)
    : Except JsError (INodeParameters × Bool) :=
  match item.ofCollections.find? (fun option => option.name = itemName) with
  | none => pure ([], false)
  | some option => do
      match call.stored item.property with
      | none => throw .typeError
      | some stored =>
          let itemNodeValues := stored.get itemName
          let tempValue ← option.call (itemNodeValues.getD .null) root
          let hadVisibleFields :=
            !tempValue.own.isEmpty || !hasNonDefaultValues option.values itemNodeValues
          return (tempValue.own, hadVisibleFields)

def Gathered.set (gathered : Gathered) (itemName : String) (value : Value) : Gathered :=
  { gathered with collectionValues := Record.insert gathered.collectionValues itemName value }

def gatherItem (item : LevelProperty) (root : INodeParameters) (propertyValues : Value)
    (gathered : Gathered) (itemName : String)
    : Except JsError Gathered := do
  if item.property.multipleValues = some true then
    match propertyValues with
    | .object entries =>
        let value ← multipleItem item root itemName
          ((Record.lookup entries itemName).getD .null)
        return gathered.set itemName value
    | _ => return gathered
  else
    let (values, hadVisibleFields) ← call.singleItem item root itemName
    let seen : Gathered :=
      {
        gathered with
        hadAnyVisibleFields := gathered.hadAnyVisibleFields || hadVisibleFields
      }
    if !values.isEmpty || (!call.options.returnDefaults && hadVisibleFields
        && (propertyValues.get itemName).isSome) then
      return seen.set itemName (.object values)
    return seen

/-- `propertyValues?.constructor.name === 'Object'` and it is not empty. -/
def isFilledObject : Value → Bool
  | .object entries => !entries.isEmpty
  | _ => false

def setFixedCollection (item : LevelProperty) (progress : Progress) : Except JsError Turn := do
  let { property, .. } := item
  let propertyValues :=
    if call.options.returnDefaults then (call.stored property).getD property.default
    else (call.stored property).getD .null
  if !call.options.returnDefaults && property.multipleValues = some false
      && propertyValues.isTruthy && propertyValues.keys.isEmpty then
    return .returns call.nodeValues
  let names := if propertyValues.isTruthy then propertyValues.keys else []
  let { collectionValues, hadAnyVisibleFields } ←
    names.foldlM (call.gatherItem item (call.root progress) propertyValues)
      { collectionValues := [], hadAnyVisibleFields := false }
  let emptied :=
    if !call.options.returnDefaults && hadAnyVisibleFields
        && property.multipleValues = some false && collectionValues.isEmpty
        && isFilledObject propertyValues then
      {
        progress with
        nodeParameters := Record.insert progress.nodeParameters property.name
          (.object (propertyValues.keys.foldl
            (fun values name => Record.insert values name (.object [])) []))
      }
    else progress
  if !collectionValues.isEmpty || call.options.returnDefaults then
    return .next (emptied.set property.name (.object collectionValues))
  return .next emptied

def turn (item : LevelProperty) (progress : Progress) : Except JsError Turn := do
  let { property, .. } := item
  if !call.nodeValues.isTruthy || ((call.stored property).isNone
      && (!call.options.returnDefaults || call.options.parentType = some .collection)) then
    return .next progress
  if !call.options.returnNoneDisplayed then
    if !(← call.isDisplayed progress property) then return .next progress
  match property.type with
  | .collection =>
      if call.options.onlySimpleTypes then return .next progress
      return .next (← call.setCollection item progress)
  | .fixedCollection =>
      if call.options.onlySimpleTypes then return .next progress
      call.setFixedCollection item progress
  | _ => return .next (← call.setSimple property progress)

def loop : List LevelProperty → Progress → Except JsError Value
  | [], progress => pure (.object progress.nodeParameters)
  | item :: rest, progress => do
      match ← call.turn item progress with
      | .next progress => loop rest progress
      | .returns value => return value

end Call

section getNodeParameters

variable (context : NodeContext)

/-- The call with its loop in the order of the dependencies. -/
def runLoop (items : List LevelProperty) (nodeValues : Value)
    (options : GetNodeParametersOptions) (nodeValuesDisplayCheck : Option INodeParameters)
    : Except JsError Value := do
  let properties := items.map LevelProperty.property
  let order ← getParameterResolveOrder properties (getParameterDependencies properties)
  let call : Call :=
    {
      context
      nodeValues
      options
      duplicateParameterNames := duplicateNames properties
      nodeValuesDisplayCheck
    }
  call.loop (order.filterMap (fun index => items[index]?))
    { nodeParameters := [], nodeParametersFull := [] }

/-- The values that the display is checked against: all simple parameters, hidden ones too. -/
def displayCheck (items : List LevelProperty) (nodeValues : Value)
    (options : GetNodeParametersOptions)
    : Except JsError INodeParameters :=
  (runLoop context items nodeValues
    {
      options with
      returnDefaults := true
      returnNoneDisplayed := true
      onlySimpleTypes := true
      dataIsResolved := true
    }
    none).map Value.own

def level (items : List LevelProperty) (nodeValues : Value) (options : GetNodeParametersOptions)
    : Except JsError Value :=
  if options.dataIsResolved || options.returnNoneDisplayed then
    runLoop context items nodeValues options none
  else do
    let check ← displayCheck context items nodeValues options
    runLoop context items nodeValues options (some check)

variable (returnDefaults returnNoneDisplayed : Bool)

/-- A call for the values of a collection. -/
def lowerLevel (items : List LevelProperty) (parentType : NodePropertyTypes) : LowerLevel :=
  fun nodeValues nodeValuesRoot =>
    level context items nodeValues
      {
        returnDefaults
        returnNoneDisplayed
        onlySimpleTypes := false
        dataIsResolved := false
        nodeValuesRoot := some nodeValuesRoot
        parentType := some parentType
      }

mutual

def levelProperty : INodeProperties → LevelProperty
  | .mk name type default noDataExpression multipleValues displayOptions options collections =>
      {
        property :=
          .mk name type default noDataExpression multipleValues displayOptions options collections
        ofOptions :=
          lowerLevel context returnDefaults returnNoneDisplayed (levelProperties options)
            .collection
        ofCollections := collectionOptions collections
      }

def levelProperties : List INodeProperties → List LevelProperty
  | [] => []
  | property :: rest => levelProperty property :: levelProperties rest

def collectionOptions : List (String × List INodeProperties) → List CollectionOption
  | [] => []
  | (name, values) :: rest =>
      {
        name
        values
        call :=
          lowerLevel context returnDefaults returnNoneDisplayed (levelProperties values)
            .fixedCollection
      }
        :: collectionOptions rest

end

def getNodeParameters (properties : List INodeProperties) (nodeValues : Value)
    : Except JsError Value :=
  level context (levelProperties context returnDefaults returnNoneDisplayed properties)
    nodeValues
    {
      returnDefaults
      returnNoneDisplayed
      onlySimpleTypes := false
      dataIsResolved := false
      nodeValuesRoot := none
      parentType := none
    }

end getNodeParameters

end N8n.NodeParameters
