import N8n.Workflow.MapConnectionsByDestination
import N8n.Workflow.WorkflowDiff

/-! The difference of two tables of connections (`packages/workflow/src/connections-diff.ts`)
is the one of their sets of connections, except at nodes that are named like a member of
`Object.prototype`.
-/

namespace N8n.Workflow

structure Push where
  nodeName : String
  inputName : NodeConnectionType
  entry : ConnectionEntry
  deriving DecidableEq

def Push.apply (diff : Dict String INodeConnectionsDiff) (push : Push)
    : Dict String INodeConnectionsDiff :=
  pushEntry diff push.nodeName push.inputName push.entry

/-- The connections of `here` that `there` has not, in order. -/
def missing (sourceIndex : Nat) (here there : List IConnection) : List ConnectionEntry :=
  ((connectionMap here).entries.filter (fun (connection, _) =>
    !(connectionMap there).keys.contains connection)).map
    (fun (connection, index) => ⟨sourceIndex, index, connection⟩)

/-- The names and inputs that the loops go through. -/
def inputNames (first second : IConnections) (nodeName : String)
    : List NodeConnectionType :=
  (((first.get? nodeName).getD .empty).keys ++ ((second.get? nodeName).getD .empty).keys).eraseDups

/-- The entries of an input that `here` has and `there` has not. -/
def missingAt (here there : IConnections) (nodeName : String) (inputName : NodeConnectionType)
    : List ConnectionEntry :=
  (List.range (max (here.ofType nodeName inputName).length
    (there.ofType nodeName inputName).length)).flatMap (fun sourceIndex =>
      missing sourceIndex ((here.ofType nodeName inputName).at sourceIndex)
        ((there.ofType nodeName inputName).at sourceIndex))

theorem pushMissing_eq {diff : Dict String INodeConnectionsDiff} {nodeName : String}
    {inputName : NodeConnectionType} {sourceIndex : Nat} {here there : List IConnection}
    : pushMissing diff nodeName inputName sourceIndex here there
      = ((missing sourceIndex here there).map (Push.mk nodeName inputName)).foldl Push.apply
          diff := by
  unfold pushMissing missing
  rw [List.foldl_map, List.foldl_map, List.foldl_filter]
  congr
  funext diff entry
  obtain ⟨connection, index⟩ := entry
  cases known : (connectionMap there).keys.contains connection <;> simp [Push.apply]

/-- A loop whose turns push to both sides pushes what its turns do, by induction on them. -/
theorem foldl_pushes {α : Type} {turns : List α} {turn : ConnectionsDiff → α → ConnectionsDiff}
    {ofAdded ofRemoved : α → List Push}
    (each : ∀ diff item, turn diff item
      = ⟨(ofAdded item).foldl Push.apply diff.added,
          (ofRemoved item).foldl Push.apply diff.removed⟩)
    (diff : ConnectionsDiff)
    : turns.foldl turn diff
      = ⟨(turns.flatMap ofAdded).foldl Push.apply diff.added,
          (turns.flatMap ofRemoved).foldl Push.apply diff.removed⟩ := by
  induction turns generalizing diff with
  | nil => rfl
  | cons first rest ih =>
      rw [List.foldl_cons, ih, each]
      simp only [List.flatMap_cons, List.foldl_append]

/-- What is pushed for the connections of `here` that `there` has not, when the loops go
through the names and inputs of `first` and `second`.
-/
def pushes (first second here there : IConnections) : List Push :=
  (first.keys ++ second.keys).eraseDups.flatMap (fun nodeName =>
    (inputNames first second nodeName).flatMap (fun inputName =>
      (missingAt here there nodeName inputName).map (Push.mk nodeName inputName)))

theorem getD_ofType (connections : IConnections) (nodeName : String)
    (inputName : NodeConnectionType)
    : (((connections.get? nodeName).getD .empty).get? inputName).getD []
      = connections.ofType nodeName inputName := by
  unfold IConnections.ofType
  cases connections.get? nodeName <;> rfl

theorem compareConnections_eq (prev next : IConnections)
    : compareConnections prev next
      = ⟨(pushes prev next next prev).foldl Push.apply .empty,
          (pushes prev next prev next).foldl Push.apply .empty⟩ := by
  unfold compareConnections
  refine foldl_pushes (fun diff nodeName => foldl_pushes (fun diff inputName => ?_) diff) _
  simp only [getD_ofType, pushMissing_eq]
  rw [foldl_pushes (fun _ _ => rfl) diff]
  simp only [missingAt, List.map_flatMap]
  rw [Nat.max_comm (next.ofType nodeName inputName).length]

def entriesAt (diff : Dict String INodeConnectionsDiff) (nodeName : String)
    (inputName : NodeConnectionType)
    : List ConnectionEntry :=
  ((diff.get? nodeName).bind (fun inputs => inputs.get? inputName)).getD []

def Push.IsAt (push : Push) (nodeName : String) (inputName : NodeConnectionType) : Prop :=
  push.nodeName = nodeName ∧ push.inputName = inputName

instance {push : Push} {nodeName : String} {inputName : NodeConnectionType}
    : Decidable (push.IsAt nodeName inputName) :=
  inferInstanceAs (Decidable (_ ∧ _))

variable {diff : Dict String INodeConnectionsDiff} {nodeName : String}
  {inputName : NodeConnectionType} {prev next first second here there : IConnections}

theorem entriesAt_apply (push : Push)
    : entriesAt (push.apply diff) nodeName inputName
      = entriesAt diff nodeName inputName
        ++ if push.IsAt nodeName inputName ∧ nodeName ∉ inheritedNames then [push.entry]
          else [] := by
  unfold Push.apply pushEntry Push.IsAt
  split
  · next member =>
      rw [if_neg, List.append_nil]
      rintro ⟨⟨rfl, -⟩, ordinary⟩
      exact ordinary member
  · next ordinary =>
      unfold entriesAt
      rw [Dict.get?_set]
      by_cases sameNode : nodeName = push.nodeName
      · subst sameNode
        by_cases sameInput : inputName = push.inputName
        · subst sameInput
          cases diff.get? push.nodeName <;> simp [ordinary]
        · have otherInput : push.inputName ≠ inputName := Ne.symm sameInput
          cases diff.get? push.nodeName <;> simp [Dict.get?_set, sameInput, otherInput]
      · have otherNode : push.nodeName ≠ nodeName := Ne.symm sameNode
        simp [sameNode, otherNode]

/-- No entry is recorded at a member's name, by induction over what is pushed. -/
theorem entriesAt_foldl (pushed : List Push)
    : entriesAt (pushed.foldl Push.apply diff) nodeName inputName
      = entriesAt diff nodeName inputName
        ++ if nodeName ∈ inheritedNames then []
          else
            (pushed.filter (fun push => push.IsAt nodeName inputName)).map Push.entry := by
  induction pushed generalizing diff with
  | nil => simp
  | cons push rest ih =>
      rw [List.foldl_cons, ih, entriesAt_apply, List.append_assoc]
      by_cases member : nodeName ∈ inheritedNames
      · simp [member]
      · by_cases isAt : push.IsAt nodeName inputName <;> simp [member, isAt]

theorem mem_keys_apply (push : Push)
    : nodeName ∈ (push.apply diff).keys
      ↔ nodeName ∈ diff.keys ∨ nodeName = push.nodeName ∧ push.nodeName ∉ inheritedNames := by
  unfold Push.apply pushEntry
  split
  · next member => simp [member]
  · next ordinary => rw [Dict.mem_keys_set]; simp [ordinary, or_comm]

theorem mem_keys_foldl (pushed : List Push)
    : nodeName ∈ (pushed.foldl Push.apply diff).keys
      ↔ nodeName ∈ diff.keys
        ∨ ∃ push ∈ pushed, nodeName = push.nodeName ∧ push.nodeName ∉ inheritedNames := by
  induction pushed generalizing diff with
  | nil => simp
  | cons push rest ih =>
      rw [List.foldl_cons, ih, mem_keys_apply, or_assoc]
      simp

theorem missing_nil (sourceIndex : Nat) (there : List IConnection)
    : missing sourceIndex [] there = [] := rfl

theorem missingAt_eq_nil (none : here.ofType nodeName inputName = [])
    : missingAt here there nodeName inputName = [] := by
  unfold missingAt
  rw [List.flatMap_eq_nil_iff]
  intro sourceIndex _
  rw [none]
  exact missing_nil sourceIndex _

theorem nodup_eraseDups {α : Type} [BEq α] [LawfulBEq α] (items : List α)
    : items.eraseDups.Nodup := by
  induction hlen : items.length using Nat.strong_induction_on generalizing items with
  | h n ih =>
      cases items with
      | nil => exact List.nodup_nil
      | cons first rest =>
          rw [List.eraseDups_cons, List.nodup_cons, List.mem_eraseDups]
          refine ⟨by simp, ih _ ?_ _ rfl⟩
          rw [← hlen, List.length_cons]
          exact Nat.lt_succ_of_le (List.length_filter_le _ rest)

theorem nodup_inputNames : (inputNames first second nodeName).Nodup := nodup_eraseDups _

theorem filter_pushes (side : here = first ∨ here = second)
    : ((pushes first second here there).filter
          (fun push => push.IsAt nodeName inputName)).map Push.entry
      = missingAt here there nodeName inputName := by
  have ofNode (other : String) (different : other ≠ nodeName)
      : ((inputNames first second other).flatMap (fun inputName =>
          (missingAt here there other inputName).map (Push.mk other inputName))).filter
            (fun push => push.IsAt nodeName inputName) = [] := by
    refine List.filter_eq_nil_iff.mpr fun push member => ?_
    simp only [List.mem_flatMap, List.mem_map] at member
    obtain ⟨_, -, _, -, rfl⟩ := member
    simp [Push.IsAt, different]
  have ofInput (other : NodeConnectionType) (different : other ≠ inputName)
      : ((missingAt here there nodeName other).map (Push.mk nodeName other)).filter
            (fun push => push.IsAt nodeName inputName) = [] := by
    refine List.filter_eq_nil_iff.mpr fun push member => ?_
    obtain ⟨_, -, rfl⟩ := List.mem_map.mp member
    simp [Push.IsAt, different]
  have whole
      : ((missingAt here there nodeName inputName).map (Push.mk nodeName inputName)).filter
          (fun push => push.IsAt nodeName inputName)
        = (missingAt here there nodeName inputName).map (Push.mk nodeName inputName) := by
    refine List.filter_eq_self.mpr fun push member => ?_
    obtain ⟨_, -, rfl⟩ := List.mem_map.mp member
    simp [Push.IsAt]
  rw [pushes, filter_flatMap_of_unique nodeName (nodup_eraseDups _)
    (fun other _ different => ofNode other different)]
  split
  · rw [filter_flatMap_of_unique inputName nodup_inputNames
      (fun other _ different => ofInput other different)]
    split
    · rw [whole, List.map_map]
      exact List.map_id _
    · next notListed =>
        have absent : inputName ∉ ((here.get? nodeName).getD .empty).keys := by
          rw [inputNames, List.mem_eraseDups, List.mem_append, not_or] at notListed
          rcases side with rfl | rfl
          · exact notListed.1
          · exact notListed.2
        rw [missingAt_eq_nil]
        · rfl
        · rw [← getD_ofType, Dict.get?_eq_none_iff.mpr absent]
          rfl
  · next notListed =>
      have absent : nodeName ∉ here.keys := by
        rw [List.mem_eraseDups, List.mem_append, not_or] at notListed
        rcases side with rfl | rfl
        · exact notListed.1
        · exact notListed.2
      rw [missingAt_eq_nil]
      · rfl
      · rw [IConnections.ofType, Dict.get?_eq_none_iff.mpr absent]
        rfl

theorem entriesAt_added
    : entriesAt (compareConnections prev next).added nodeName inputName
      = if nodeName ∈ inheritedNames then [] else missingAt next prev nodeName inputName := by
  rw [compareConnections_eq, entriesAt_foldl, filter_pushes (.inr rfl)]
  rfl

theorem entriesAt_removed
    : entriesAt (compareConnections prev next).removed nodeName inputName
      = if nodeName ∈ inheritedNames then [] else missingAt prev next nodeName inputName := by
  rw [compareConnections_eq, entriesAt_foldl, filter_pushes (.inl rfl)]
  rfl

theorem mem_keys_connectionMap {connections : List IConnection} {connection : IConnection}
    : connection ∈ (connectionMap connections).keys ↔ connection ∈ connections := by
  have assigned (items : List (IConnection × Nat)) (map : Dict IConnection Nat)
      : connection ∈ (items.foldl (fun map (connection, index) => map.set connection index)
            map).keys
        ↔ connection ∈ map.keys ∨ connection ∈ items.map Prod.fst := by
    induction items generalizing map with
    | nil => simp
    | cons item rest ih =>
        rw [List.foldl_cons, ih, Dict.mem_keys_set, List.map_cons, List.mem_cons]
        tauto
  rw [connectionMap, assigned, List.zipIdx_map_fst]
  simp [Dict.keys, Dict.empty]

/-- The diff has the connection at the place. -/
def Records (diff : Dict String INodeConnectionsDiff) (place connection : IConnection) : Prop :=
  ∃ entry ∈ entriesAt diff place.node place.type,
    entry.sourceIndex = place.index ∧ entry.connection = connection

theorem mem_missingAt_iff {place connection : IConnection}
    : (∃ entry ∈ missingAt here there place.node place.type,
        entry.sourceIndex = place.index ∧ entry.connection = connection)
      ↔ here.HasEdge place connection ∧ ¬ there.HasEdge place connection := by
  rw [IConnections.hasEdge_iff, IConnections.hasEdge_iff]
  constructor
  · rintro ⟨entry, member, sameIndex, rfl⟩
    obtain ⟨sourceIndex, -, inMissing⟩ := List.mem_flatMap.mp member
    obtain ⟨⟨connection, index⟩, inFilter, rfl⟩ := List.mem_map.mp inMissing
    obtain ⟨inMap, notThere⟩ := List.mem_filter.mp inFilter
    dsimp only at sameIndex notThere ⊢
    rw [← sameIndex]
    refine ⟨mem_keys_connectionMap.mp (List.mem_map_of_mem (f := Prod.fst) inMap), ?_⟩
    simpa [mem_keys_connectionMap] using notThere
  · rintro ⟨inHere, notThere⟩
    obtain ⟨⟨_, index⟩, inMap, rfl⟩ := List.mem_map.mp (mem_keys_connectionMap.mpr inHere)
    refine ⟨⟨place.index, index, _⟩, List.mem_flatMap.mpr ⟨place.index, ?_,
      List.mem_map.mpr ⟨(_, index), List.mem_filter.mpr ⟨inMap, ?_⟩, rfl⟩⟩, rfl, rfl⟩
    · obtain ⟨list, present, -⟩ := NodeInputConnections.mem_at_iff.mp inHere
      obtain ⟨inside, -⟩ := List.getElem?_eq_some_iff.mp present
      exact List.mem_range.mpr (Nat.lt_of_lt_of_le inside (Nat.le_max_left _ _))
    · simpa [mem_keys_connectionMap] using notThere

theorem records_added_iff {place connection : IConnection}
    : Records (compareConnections prev next).added place connection
      ↔ place.node ∉ inheritedNames ∧ next.HasEdge place connection
        ∧ ¬ prev.HasEdge place connection := by
  rw [Records, entriesAt_added, ← mem_missingAt_iff]
  split
  · next member => simp [member]
  · next ordinary => exact (and_iff_right ordinary).symm

theorem records_removed_iff {place connection : IConnection}
    : Records (compareConnections prev next).removed place connection
      ↔ place.node ∉ inheritedNames ∧ prev.HasEdge place connection
        ∧ ¬ next.HasEdge place connection := by
  rw [Records, entriesAt_removed, ← mem_missingAt_iff]
  split
  · next member => simp [member]
  · next ordinary => exact (and_iff_right ordinary).symm

/-- A side of the difference is empty when no connection is missing at an ordinary name. -/
theorem keys_pushes_eq_nil_iff (side : here = first ∨ here = second)
    : ((pushes first second here there).foldl Push.apply .empty).keys = []
      ↔ ∀ place connection, place.node ∉ inheritedNames → here.HasEdge place connection
          → there.HasEdge place connection := by
  rw [List.eq_nil_iff_forall_not_mem]
  constructor
  · intro noKey place connection ordinary edge
    by_contra absent
    obtain ⟨entry, member, -⟩ := mem_missingAt_iff.mpr ⟨edge, absent⟩
    rw [← filter_pushes side] at member
    obtain ⟨push, inFilter, -⟩ := List.mem_map.mp member
    obtain ⟨inside, isAt⟩ := List.mem_filter.mp inFilter
    have isAt : push.IsAt place.node place.type := of_decide_eq_true isAt
    refine noKey place.node ((mem_keys_foldl _).mpr (.inr ⟨push, inside, isAt.1.symm, ?_⟩))
    rw [isAt.1]
    exact ordinary
  · intro kept nodeName member
    rcases (mem_keys_foldl _).mp member with none | ⟨push, inside, -, ordinary⟩
    · contradiction
    · simp only [pushes, List.mem_flatMap, List.mem_map] at inside
      obtain ⟨name, -, input, -, entry, missed, rfl⟩ := inside
      let place : IConnection := ⟨name, input, entry.sourceIndex⟩
      obtain ⟨edge, absent⟩
          : here.HasEdge place entry.connection ∧ ¬ there.HasEdge place entry.connection :=
        mem_missingAt_iff.mp ⟨entry, missed, rfl, rfl⟩
      exact absent (kept place entry.connection ordinary edge)

/-- The shortcut of the constructor for a version that is compared with itself. -/
def WorkflowChangeSet.same (version : DiffableWorkflow) : WorkflowChangeSet :=
  ⟨.insertAll (fun diff => diff.node.id) .empty (version.nodes.map (NodeDiff.mk .eq)),
    ⟨.empty, .empty⟩⟩

/-- The shortcut agrees with the comparison. -/
theorem changeSet_new_self (version : DiffableWorkflow)
    : let compared := WorkflowChangeSet.new version version
      compared.connections = (WorkflowChangeSet.same version).connections
      ∧ ∀ id, compared.nodes.get? id = (WorkflowChangeSet.same version).nodes.get? id := by
  refine ⟨?_, fun id => ?_⟩
  · have none (index : Nat) (list : List IConnection) : missing index list list = [] := by
      refine List.map_eq_nil_iff.mpr (List.filter_eq_nil_iff.mpr fun entry member => ?_)
      have known : entry.1 ∈ (connectionMap list).keys := List.mem_map_of_mem member
      simp [known]
    have nothing (table : IConnections) : pushes table table table table = [] := by
      simp [pushes, missingAt, none]
    exact (compareConnections_eq _ _).trans (by rw [nothing]; rfl)
  · have shortcut : (WorkflowChangeSet.same version).nodes.get? id
        = (lastNode version.nodes id).map (NodeDiff.mk .eq) := by
      rw [WorkflowChangeSet.same, Dict.get?_insertAll, Dict.get?_empty, Option.or_none,
        List.filter_map, List.getLast?_map]
      rfl
    rw [shortcut]
    refine (compareWorkflowsNodes_get? _ _ id).trans ?_
    cases lastNode version.nodes id <;> simp [nodeDiff, compareNodes]

/-- What holds of `compareConnections` for the two tables and for the two turned round. -/
structure IsExactDifference (prev next : IConnections) (diff swapped : ConnectionsDiff) : Prop where
  difference : ∀ place connection,
    next.HasEdge place connection
    ↔ (prev.HasEdge place connection ∧ ¬ Records diff.removed place connection)
      ∨ Records diff.added place connection
  disjoint : ∀ place connection,
    Records diff.added place connection → ¬ Records diff.removed place connection
  swaps : ∀ nodeName inputName,
    entriesAt swapped.added nodeName inputName = entriesAt diff.removed nodeName inputName
    ∧ entriesAt swapped.removed nodeName inputName = entriesAt diff.added nodeName inputName
  empty :
    diff.added.keys = [] ∧ diff.removed.keys = []
    ↔ ∀ place connection, prev.HasEdge place connection ↔ next.HasEdge place connection

/-- A connection that is recorded at a node called `__proto__` goes to `Object.prototype`, and
all objects have it there from then on. Such a call is taken to return nothing.
-/
def callCompareConnections (prev next : IConnections) : Option ConnectionsDiff :=
  if (inputNames prev next "__proto__").all (fun inputName =>
      missingAt next prev "__proto__" inputName = []
      && missingAt prev next "__proto__" inputName = []) then
    some (compareConnections prev next)
  else none

def ComparesExactly (prev next : IConnections) : Prop :=
  ∃ diff swapped,
    callCompareConnections prev next = some diff
    ∧ callCompareConnections next prev = some swapped
    ∧ IsExactDifference prev next diff swapped

/-- No node that is named like a member has other connections in the one table than in the
other.
-/
def AgreesAtMembers (prev next : IConnections) : Prop :=
  ∀ place connection, place.node ∈ inheritedNames
    → (prev.HasEdge place connection ↔ next.HasEdge place connection)

theorem AgreesAtMembers.missingAt_eq_nil (agrees : AgreesAtMembers here there)
    (member : nodeName ∈ inheritedNames)
    : missingAt here there nodeName inputName = [] := by
  refine List.eq_nil_iff_forall_not_mem.mpr fun entry missed => ?_
  let place : IConnection := ⟨nodeName, inputName, entry.sourceIndex⟩
  obtain ⟨edge, absent⟩
      : here.HasEdge place entry.connection ∧ ¬ there.HasEdge place entry.connection :=
    mem_missingAt_iff.mp ⟨entry, missed, rfl, rfl⟩
  exact absent ((agrees place entry.connection member).mp edge)

theorem AgreesAtMembers.symm (agrees : AgreesAtMembers prev next) : AgreesAtMembers next prev :=
  fun place connection member => (agrees place connection member).symm

theorem AgreesAtMembers.call_eq (agrees : AgreesAtMembers prev next)
    : callCompareConnections prev next = some (compareConnections prev next) := by
  refine if_pos (List.all_eq_true.mpr fun inputName _ => ?_)
  have proto : "__proto__" ∈ inheritedNames := by decide
  simp [agrees.missingAt_eq_nil proto, agrees.symm.missingAt_eq_nil proto]

theorem isExactDifference_iff
    : IsExactDifference prev next (compareConnections prev next) (compareConnections next prev)
      ↔ AgreesAtMembers prev next := by
  constructor
  · intro exact place connection member
    have difference := exact.difference place connection
    simp only [records_added_iff, records_removed_iff, member, not_true_eq_false, false_and,
      not_false_eq_true, and_true, or_false] at difference
    exact difference.symm
  · intro agrees
    refine ⟨?_, ?_, ?_, ?_⟩
    case refine_1 =>
      intro place connection
      rw [records_added_iff, records_removed_iff]
      have member := agrees place connection
      tauto
    case refine_2 =>
      intro place connection
      rw [records_added_iff, records_removed_iff]
      tauto
    case refine_3 =>
      intro nodeName inputName
      rw [entriesAt_added, entriesAt_removed, entriesAt_added, entriesAt_removed]
      exact ⟨rfl, rfl⟩
    case refine_4 =>
      rw [compareConnections_eq, keys_pushes_eq_nil_iff (.inr rfl),
        keys_pushes_eq_nil_iff (.inl rfl)]
      constructor
      · rintro ⟨noneAdded, noneRemoved⟩ place connection
        by_cases member : place.node ∈ inheritedNames
        · exact agrees place connection member
        · exact ⟨noneRemoved place connection member, noneAdded place connection member⟩
      · intro same
        exact ⟨fun place connection _ => (same place connection).mpr,
          fun place connection _ => (same place connection).mp⟩

theorem ComparesExactly.agreesAtMembers (compares : ComparesExactly prev next)
    : AgreesAtMembers prev next := by
  obtain ⟨diff, swapped, called, calledBack, exact⟩ := compares
  unfold callCompareConnections at called calledBack
  split at called
  · split at calledBack
    · cases called
      cases calledBack
      exact isExactDifference_iff.mp exact
    · contradiction
  · contradiction

/-- A connection of a node that is called `constructor`. -/
def ofConstructor : IConnections :=
  ⟨[("constructor", ⟨[(.main, [some [⟨"Set", .main, 0⟩]])], by decide⟩)], by decide⟩

end N8n.Workflow
