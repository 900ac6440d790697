import N8n.NodeParameters.DisplayParameter

/-! The order in which the parameters of one level are resolved
(`packages/workflow/src/node-helpers.ts`). A parameter that still misses another one is
resolved all the same, and once more for each one it misses.
-/

namespace N8n.NodeParameters

/-- The parameters that the rules of a property name. -/
def INodeProperties.ruleNames (property : INodeProperties) : List String :=
  match property.displayOptions with
  | none => []
  | some { showRules, hideRules } =>
      (showRules.getD []).map Prod.fst ++ (hideRules.getD []).map Prod.fst

def addDependency (dependencies : List String) (parameterName : String) : List String :=
  if parameterName ∈ dependencies ∨ parameterName.toList.head? = some '@' then dependencies
  else dependencies ++ [parameterName]

/-- The parameters that each one depends on. -/
def getParameterDependencies (properties : List INodeProperties)
    : List (String × List String) :=
  properties.foldl
    (fun dependencies property =>
      Record.insert dependencies property.name
        (property.ruleNames.foldl addDependency
          ((Record.lookup dependencies property.name).getD [])))
    []

structure ResolveState where
  executionOrder : List Nat
  indexToResolve : List Nat
  resolvedParameters : List String
  lastIndexLength : Nat
  lastIndexReduction : Int
  iterations : Nat

def maxIterationsReached : JsError :=
  .error "ApplicationError"
    ("Could not resolve parameter dependencies. Max iterations reached! Hint: If "
      ++ "`displayOptions` are specified in any child parameter of a parent `collection` or "
      ++ "`fixedCollection`, remove the `displayOptions` from the child parameter.")
    none

/-- The parameters that are needed before the property and are not resolved yet; those at the
root level are taken for resolved.
-/
def missingParameters (resolvedParameters needed : List String) : List String :=
  needed.filter (fun dependency =>
    dependency ∉ resolvedParameters ∧ dependency.toList.head? ≠ some '/')

/-- One turn of the loop, for the index taken from the front. -/
def resolveIndex (properties : List INodeProperties) (dependencies : List (String × List String))
    (state : ResolveState) (index : Nat) (others : List Nat)
    : Except JsError ResolveState :=
  let name := (properties[index]?.map INodeProperties.name).getD ""
  match Record.lookup dependencies name with
  | none => .error .typeError
  | some needed =>
      let iterations := state.iterations + 1
      let executionOrder := state.executionOrder ++ [index]
      if needed.isEmpty then
        .ok
          {
            state with
            executionOrder
            indexToResolve := others
            resolvedParameters := state.resolvedParameters ++ [name]
            iterations
          }
      else
        -- Each missing one adds the index again, but does not keep it from being added now.
        let missing := missingParameters state.resolvedParameters needed
        let indexToResolve := others ++ missing.map (fun _ => index)
        let lastIndexReduction :=
          if indexToResolve.length < state.lastIndexLength then (iterations : Int)
          else state.lastIndexReduction
        if (iterations : Int) > lastIndexReduction + properties.length then
          .error maxIterationsReached
        else
          .ok
            {
              executionOrder
              indexToResolve
              resolvedParameters := state.resolvedParameters ++ [name]
              lastIndexLength := indexToResolve.length
              lastIndexReduction
              iterations
            }

/-- The loop, for at most `fuel` turns. -/
def resolveAll (properties : List INodeProperties) (dependencies : List (String × List String))
    : Nat → ResolveState → Except JsError (List Nat)
  | 0, _ => .error maxIterationsReached
  | fuel + 1, state =>
      match state.indexToResolve with
      | [] => .ok state.executionOrder
      | index :: others =>
          (resolveIndex properties dependencies state index others).bind
            (resolveAll properties dependencies fuel)

def neededBy (dependencies : List (String × List String)) (property : INodeProperties)
    : List String :=
  (Record.lookup dependencies property.name).getD []

/-- Each property is resolved once and at most once more for each name it needs; then those
that are left miss a parameter for ever, and that is noticed when none of them can be dropped
for as many turns as there are properties.
-/
def resolveFuel (properties : List INodeProperties) (dependencies : List (String × List String))
    : Nat :=
  (properties.length + 2) * ((properties.flatMap (neededBy dependencies)).length + 4)

def resolveStart (properties : List INodeProperties) : ResolveState where
  executionOrder := []
  indexToResolve := List.range properties.length
  resolvedParameters := []
  lastIndexLength := properties.length
  lastIndexReduction := -1
  iterations := 0

def getParameterResolveOrder (properties : List INodeProperties)
    (dependencies : List (String × List String))
    : Except JsError (List Nat) :=
  resolveAll properties dependencies (resolveFuel properties dependencies)
    (resolveStart properties)

end N8n.NodeParameters
