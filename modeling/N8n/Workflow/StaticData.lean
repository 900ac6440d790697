import Mathlib.Algebra.Order.Ring.Nat
import N8n.Library.JavaScript
import N8n.Library.Runs

/-! The static data of a workflow and the flag that tells that it has to be saved
(`packages/workflow/src/observable-object.ts`, `getStaticData` of `workflow.ts` and
`packages/cli/src/workflows/workflow-static-data.service.ts`). An object is observed when it
is reached through a proxy; what a proxied setter stores is stored as it is.
-/

namespace N8n.StaticData

/-- A value in memory. A hole of an array is `none`, and every number a program stores is
rational.
-/
inductive Value where
  | null
  | boolean (b : Bool)
  | number (q : Rat)
  | string (s : String)
  | array (observed : Bool) (items : List (Option Value))
  | object (observed : Bool) (entries : List (String × Value))

abbrev Entries := List (String × Value)

namespace Value

/-! ### Values as JSON, and observed values -/

mutual

/-- The value as it is written: a hole becomes `null`, and nothing is observed. -/
def json : Value → Value
  | .null => .null
  | .boolean b => .boolean b
  | .number q => .number q
  | .string s => .string s
  | .array _ items => .array false (jsonItems items)
  | .object _ entries => .object false (jsonEntries entries)

def jsonItems : List (Option Value) → List (Option Value)
  | [] => []
  | none :: rest => some .null :: jsonItems rest
  | some value :: rest => some (json value) :: jsonItems rest

def jsonEntries : Entries → Entries
  | [] => []
  | (name, value) :: rest => (name, json value) :: jsonEntries rest

end

mutual

/-- `create`: the object with all objects in it becomes observable. -/
def create : Value → Value
  | .null => .null
  | .boolean b => .boolean b
  | .number q => .number q
  | .string s => .string s
  | .array _ items => .array true (createItems items)
  | .object _ entries => .object true (createEntries entries)

def createItems : List (Option Value) → List (Option Value)
  | [] => []
  | none :: rest => none :: createItems rest
  | some value :: rest => some (create value) :: createItems rest

def createEntries : Entries → Entries
  | [] => []
  | (name, value) :: rest => (name, create value) :: createEntries rest

end

/-- The property in which an observed object keeps its flag. -/
def flagName : String := "__dataChanged"

mutual

/-- No object in the value has a property with the name of the flag. -/
def isPlain : Value → Bool
  | .array _ items => isPlainItems items
  | .object _ entries => isPlainEntries entries
  | _ => true

def isPlainItems : List (Option Value) → Bool
  | [] => true
  | none :: rest => isPlainItems rest
  | some value :: rest => isPlain value && isPlainItems rest

def isPlainEntries : Entries → Bool
  | [] => true
  | (name, value) :: rest => name ≠ flagName && isPlain value && isPlainEntries rest

end

/-! ### Properties -/

/-- The index that a property name of an array stands for. -/
def arrayIndex? (name : String) : Option Nat :=
  name.toNat?.filter (fun index => toString index = name ∧ index < 2 ^ 32 - 1)

/-- The length that a value assigned to `length` stands for. -/
def arrayLength? : Value → Option Nat
  | .number q => if q.den = 1 ∧ 0 ≤ q.num ∧ q.num < 2 ^ 32 then some q.num.toNat else none
  | _ => none

/-- `items.length = length`. -/
def resize (items : List (Option Value)) (length : Nat) : List (Option Value) :=
  items.take length ++ List.replicate (length - items.length) none

def assignEntry (name : String) (value : Value) : Entries → Entries
  | [] => [(name, value)]
  | (other, old) :: rest =>
      if other = name then (name, value) :: rest
      else (other, old) :: assignEntry name value rest

/-- What `value[name]` gives, if it is part of the data. -/
def property? (name : String) : Value → Option Value
  | .object observed entries =>
      if observed ∧ name = flagName then none else entries.lookup name
  | .array _ items => ((arrayIndex? name).bind (fun index => items[index]?)).join
  | _ => none

/-- `target[name] = value`. On an array, only indices and the length are part of the data,
and on an observed object the flag is not.
-/
def setProperty (name : String) (value : Value) : Value → Value
  | .object observed entries =>
      if observed ∧ name = flagName then .object observed entries
      else .object observed (assignEntry name value entries)
  | .array observed items =>
      match arrayIndex? name with
      | some index =>
          .array observed ((resize items (max items.length (index + 1))).set index (some value))
      | none =>
          match (if name = "length" then arrayLength? value else none) with
          | some length => .array observed (resize items length)
          | none => .array observed items
  | other => other

/-- `delete target[name]`. -/
def deleteProperty (name : String) : Value → Value
  | .object observed entries =>
      if observed ∧ name = flagName then .object observed entries
      else .object observed (entries.filter (fun entry => entry.1 ≠ name))
  | .array observed items =>
      match arrayIndex? name with
      | some index => .array observed (items.set index none)
      | none => .array observed items
  | other => other

/-- The property at `name` with a changed value, in place. -/
def replaceProperty (name : String) (value : Value) : Value → Value
  | .object observed entries => .object observed (assignEntry name value entries)
  | .array observed items =>
      match arrayIndex? name with
      | some index => .array observed (items.set index (some value))
      | none => .array observed items
  | other => other

/-! ### Objects at a path -/

/-- `value[name₁][name₂]…`, if all of it exists. -/
def follow : List String → Value → Option Value
  | [], value => some value
  | name :: rest, value => (value.property? name).bind (follow rest)

/-- Changes the object at the path, if it exists. -/
def changeAt (change : Value → Value) : List String → Value → Value
  | [], value => change value
  | name :: rest, value =>
      match value.property? name with
      | none => value
      | some inner => value.replaceProperty name (changeAt change rest inner)

/-- Tells of an object whether it is reached through a proxy. -/
def observed? : Value → Option Bool
  | .array observed _ => some observed
  | .object observed _ => some observed
  | _ => none

end Value

/-! ### The workflow and its saved data -/

/-- The static data with its flag `__dataChanged`, the data last written, and the data of
writes that have not been answered. `testStaticData` are the keys with test static data.
-/
structure System where
  staticData : Entries
  dataChanged : Bool
  testStaticData : List String
  isWorkflowIdValid : Bool
  written : Entries
  writing : List Entries

/-- The data that a workflow starts with. -/
structure InitialData where
  entries : Entries
  isJson : Value.jsonEntries entries = entries
  isPlain : Value.isPlainEntries entries = true

namespace System

def new (initial : InitialData) (testStaticData : List String) (isWorkflowIdValid : Bool)
    : System where
  staticData := Value.createEntries initial.entries
  dataChanged := false
  testStaticData
  isWorkflowIdValid
  written := initial.entries
  writing := []

/-- The key of a context, of which `node` is the node's name. -/
def contextKey (type : String) (node : Option String) : Except JsError String :=
  if type = "global" then .ok "global"
  else if type = "node" then
    match node with
    | none =>
        .error
          (.error "ApplicationError"
            ("The request data of context type \"node\" the node parameter has to be set!")
            none)
    | some name => .ok ("node:" ++ name)
  else
    .error
      (.error "ApplicationError"
        "Unknown context type. Only `global` and `node` are supported." none)

/-- The root's setter, which does not flag a new entry that is empty. -/
def setEntry (self : System) (key : String) (value : Value) : System :=
  let isEmpty :=
    match value with
    | .object _ [] => true
    | .array _ [] => true
    | _ => false
  { self with
    staticData := Value.assignEntry key value self.staticData
    dataChanged :=
      if (self.staticData.lookup key).isNone && isEmpty then self.dataChanged else true
  }

/-- `getStaticData` without test static data: makes sure that there is an entry. -/
def openEntry (self : System) (key : String) : System :=
  if (self.staticData.lookup key).isNone then self.setEntry key (.object true []) else self

/-- Tells whether the object at the path below an entry is reached through a proxy. -/
def observedAt? (self : System) (key : String) (path : List String) : Option Bool :=
  (self.staticData.lookup key).bind (fun entry => (entry.follow path).bind Value.observed?)

/-- An operation on the object at the path below an entry, which a proxy flags. What is not
an object has no properties to change.
-/
def operate (self : System) (change : Value → Value) (key : String) (path : List String)
    : System :=
  match self.staticData.lookup key, self.observedAt? key path with
  | some entry, some observed =>
      { self with
        staticData := Value.assignEntry key (entry.changeAt change path) self.staticData
        dataChanged := observed || self.dataChanged
      }
  | _, _ => self

/-- What can be done to the object at the path below what `getStaticData` returns. -/
inductive Operation where
  | get
  | set (path : List String) (name : String) (value : Value)
  | delete (path : List String) (name : String)

/-- The path of an operation that may change something. -/
def Operation.path? : Operation → Option (List String)
  | .get => none
  | .set path _ _ => some path
  | .delete path _ => some path

/-- An operation, or a part of `saveStaticData`: it writes, and when the write is answered
it resets the flag or reports an error.
-/
inductive Action where
  | access (type : String) (node : Option String) (operation : Operation)
  | write
  | written (index : Nat)
  | failed (index : Nat)

def apply (self : System) (key : String) : Operation → System
  | .get => self.openEntry key
  | .set path name value =>
      (self.openEntry key).operate (Value.setProperty name value.json) key path
  | .delete path name => (self.openEntry key).operate (Value.deleteProperty name) key path

def step (self : System) : Action → Option System
  | .access type node operation =>
      match contextKey type node with
      | .error _ => some self
      | .ok key =>
          if key ∈ self.testStaticData then some self else some (self.apply key operation)
  | .write =>
      if self.dataChanged ∧ self.isWorkflowIdValid then
        some { self with writing := self.writing ++ [Value.jsonEntries self.staticData] }
      else some self
  | .written index =>
      match self.writing[index]? with
      | none => none
      | some entries =>
          some
            { self with
              dataChanged := false
              written := entries
              writing := self.writing.eraseIdx index
            }
  | .failed index =>
      if index < self.writing.length then
        some { self with writing := self.writing.eraseIdx index }
      else none

/-! ### Changes that are flagged -/

open Runs

/-- The static data as it would be written. -/
def current (self : System) : Entries := Value.jsonEntries self.staticData

/-- Whenever the data differs from what was last written, the flag is set. -/
def FlagsEveryChange (self : System) : Prop :=
  self.current ≠ self.written → self.dataChanged = true

/-- The data has at most been extended by empty entries, which `getStaticData` adds. -/
def OnlyOpened (before after : Entries) : Prop :=
  ∃ opened, after = before ++ opened ∧ ∀ entry ∈ opened, entry.2 = .object false []

/-- Whenever the data differs from what was last written by more than new empty entries, the
flag is set.
-/
def FlagsChanges (self : System) : Prop :=
  ¬OnlyOpened self.written self.current → self.dataChanged = true

/-- An operation finds no write that has not been answered, and goes through proxies only:
not through an object that an earlier operation has stored.
-/
def ThroughProxies (self : System) : Action → Prop
  | .access type node operation =>
      match operation.path? with
      | none => True
      | some path =>
          self.writing = []
          ∧ ∀ key, contextKey type node = .ok key → key ∉ self.testStaticData
              → (self.openEntry key).observedAt? key path ≠ some false
  | _ => True

theorem OnlyOpened.refl (entries : Entries) : OnlyOpened entries entries :=
  ⟨[], (List.append_nil entries).symm, by simp⟩

theorem OnlyOpened.open {before after : Entries} (opened : OnlyOpened before after)
    (key : String)
    : OnlyOpened before (after ++ [(key, .object false [])]) := by
  obtain ⟨added, same, empty⟩ := opened
  refine ⟨added ++ [(key, .object false [])], by rw [same, List.append_assoc], ?_⟩
  intro entry member
  rcases List.mem_append.mp member with old | new
  · exact empty entry old
  · rw [List.mem_singleton.mp new]

theorem jsonEntries_append (first second : Entries)
    : Value.jsonEntries (first ++ second)
      = Value.jsonEntries first ++ Value.jsonEntries second := by
  induction first with
  | nil => rfl
  | cons entry rest ih =>
      obtain ⟨name, value⟩ := entry
      simp only [List.cons_append, Value.jsonEntries, ih]

theorem assignEntry_of_missing {name : String} {entries : Entries}
    (missing : entries.lookup name = none) (value : Value)
    : Value.assignEntry name value entries = entries ++ [(name, value)] := by
  induction entries with
  | nil => rfl
  | cons entry rest ih =>
      obtain ⟨other, old⟩ := entry
      have unlike := List.lookup_eq_none_iff.mp missing
      have differs : other ≠ name := (bne_iff_ne.mp (unlike (other, old) (by simp))).symm
      have later : rest.lookup name = none :=
        List.lookup_eq_none_iff.mpr (fun pair member =>
          unlike pair (.tail _ member))
      rw [Value.assignEntry, if_neg differs, ih later]
      rfl

/-- Opening an entry adds at most an empty one, and leaves the flag alone. -/
theorem openEntry_cases (self : System) (key : String)
    : self.openEntry key = self
      ∨ (self.openEntry key).current = self.current ++ [(key, .object false [])]
        ∧ (self.openEntry key).dataChanged = self.dataChanged
        ∧ (self.openEntry key).written = self.written
        ∧ (self.openEntry key).writing = self.writing := by
  unfold openEntry
  split
  · next missing =>
      refine .inr ⟨?_, by simp [setEntry, missing], rfl, rfl⟩
      unfold current setEntry
      rw [assignEntry_of_missing (Option.isNone_iff_eq_none.mp missing), jsonEntries_append]
      rfl
  · exact .inl rfl

/-- Unless an operation meets an unobserved object, it sets the flag or changes nothing. -/
theorem operate_cases (self : System) (change : Value → Value) {key : String}
    {path : List String} (observed : self.observedAt? key path ≠ some false)
    : self.operate change key path = self
      ∨ (self.operate change key path).dataChanged = true
        ∧ (self.operate change key path).writing = self.writing := by
  unfold operate
  split
  · next entry isObserved _ here =>
      cases isObserved with
      | true => exact .inr ⟨rfl, rfl⟩
      | false => exact absurd here observed
  · exact .inl rfl

mutual

theorem json_create : ∀ value : Value, value.create.json = value.json
  | .null => rfl
  | .boolean _ => rfl
  | .number _ => rfl
  | .string _ => rfl
  | .array _ items => by
      rw [Value.create, Value.json, Value.json, jsonItems_createItems items]
  | .object _ entries => by
      rw [Value.create, Value.json, Value.json, jsonEntries_createEntries entries]

theorem jsonItems_createItems
    : ∀ items : List (Option Value),
        Value.jsonItems (Value.createItems items) = Value.jsonItems items
  | [] => rfl
  | none :: rest => by
      rw [Value.createItems, Value.jsonItems, Value.jsonItems, jsonItems_createItems rest]
  | some value :: rest => by
      rw [Value.createItems, Value.jsonItems, Value.jsonItems, json_create value,
        jsonItems_createItems rest]

theorem jsonEntries_createEntries
    : ∀ entries : Entries,
        Value.jsonEntries (Value.createEntries entries) = Value.jsonEntries entries
  | [] => rfl
  | (name, value) :: rest => by
      rw [Value.createEntries, Value.jsonEntries, Value.jsonEntries, json_create value,
        jsonEntries_createEntries rest]

end

theorem current_new (initial : InitialData) (testStaticData : List String) (valid : Bool)
    : (new initial testStaticData valid).current = initial.entries :=
  (jsonEntries_createEntries initial.entries).trans initial.isJson

/-- What is known before each action of a run. -/
structure Tracked (w : System) : Prop where
  flagged : w.FlagsChanges
  writing : ∀ entries ∈ w.writing, OnlyOpened entries w.current

theorem Tracked.new (initial : InitialData) (testStaticData : List String) (valid : Bool)
    : Tracked (new initial testStaticData valid) where
  flagged := by
    intro differs
    rw [current_new] at differs
    exact absurd (OnlyOpened.refl initial.entries) differs
  writing := nofun

theorem Tracked.openEntry {self : System} (tracked : Tracked self) (key : String)
    : Tracked (self.openEntry key) := by
  rcases self.openEntry_cases key with same | ⟨current, flag, written, writing⟩
  · exact same.symm ▸ tracked
  · refine ⟨fun differs => ?_, fun entries member => ?_⟩
    · rw [written, current] at differs
      rw [flag]
      exact tracked.flagged (fun opened => differs (opened.open key))
    · rw [writing] at member
      rw [current]
      exact (tracked.writing entries member).open key

theorem Tracked.operate {self : System} (tracked : Tracked self) (change : Value → Value)
    {key : String} {path : List String} (settled : self.writing = [])
    (observed : self.observedAt? key path ≠ some false)
    : Tracked (self.operate change key path) := by
  rcases self.operate_cases change observed with same | ⟨flag, writing⟩
  · exact same.symm ▸ tracked
  · refine ⟨fun _ => flag, fun entries member => ?_⟩
    rw [writing, settled] at member
    exact nomatch member

theorem openEntry_writing (self : System) (key : String)
    : (self.openEntry key).writing = self.writing := by
  rcases self.openEntry_cases key with same | ⟨_, _, _, writing⟩
  · rw [same]
  · exact writing

/-- A step that goes through proxies keeps track of the changes. -/
theorem Tracked.step {self next : System} {action : Action} (tracked : Tracked self)
    (proxies : self.ThroughProxies action) (taken : self.step action = some next)
    : Tracked next := by
  cases action with
  | access type node operation =>
      simp only [System.step] at taken
      split at taken
      · exact Option.some.inj taken ▸ tracked
      · next key found =>
          split at taken
          · exact Option.some.inj taken ▸ tracked
          · next untested =>
              cases taken
              have opened := tracked.openEntry key
              cases operation with
              | get => exact opened
              | _ =>
                  obtain ⟨settled, observed⟩ := proxies
                  exact opened.operate _ ((self.openEntry_writing key).trans settled)
                    (observed key found untested)
  | write =>
      simp only [System.step] at taken
      split at taken
      · cases taken
        refine ⟨tracked.flagged, fun entries member => ?_⟩
        rcases List.mem_append.mp member with old | new
        · exact tracked.writing entries old
        · rw [List.mem_singleton.mp new]
          exact .refl _
      · exact Option.some.inj taken ▸ tracked
  | written index =>
      simp only [System.step] at taken
      split at taken
      · exact nomatch taken
      · next entries found =>
          cases taken
          have opened := tracked.writing entries (List.mem_of_getElem? found)
          refine ⟨fun differs => absurd opened differs, fun other member => ?_⟩
          exact tracked.writing other (List.mem_of_mem_eraseIdx member)
  | failed index =>
      simp only [System.step] at taken
      split at taken
      · cases taken
        exact ⟨tracked.flagged, fun other member =>
          tracked.writing other (List.mem_of_mem_eraseIdx member)⟩
      · exact nomatch taken

/-- Data with one entry, in which an object is empty. -/
def nestedData : InitialData where
  entries := [("global", .object false [("a", .object false [])])]
  isJson := rfl
  isPlain := rfl

/-- The inner object gets a property, and the data is written. -/
def nestedActions : List Action :=
  [.access "global" none (.set ["a"] "b" .null), .write, .written 0]

end System

end N8n.StaticData
