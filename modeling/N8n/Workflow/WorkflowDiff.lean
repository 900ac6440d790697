import Mathlib.Data.List.Induction
import N8n.Library.Pruning
import N8n.Library.Unicode
import N8n.NodeParameters.NodeProperties
import N8n.Workflow.ConnectedNodes

/-! Differences between the versions of a workflow, and the pruning of its history
(`packages/workflow/src/workflow-diff.ts`, `packages/workflow/src/connections-diff.ts`).
-/

namespace N8n.Workflow

open N8n.NodeParameters (Value INodeParameters)
open N8n.Pruning

/-! ### Connections -/

/-- A connection of one version only, with its place in the list of that version. -/
structure ConnectionEntry where
  sourceIndex : Nat
  index : Nat
  connection : IConnection
  deriving DecidableEq

abbrev INodeConnectionsDiff := Dict NodeConnectionType (List ConnectionEntry)

structure ConnectionsDiff where
  added : Dict String INodeConnectionsDiff
  removed : Dict String INodeConnectionsDiff

/-- The connections by their text, which is as good as the connection itself, each with its
last place.
-/
def connectionMap (connections : List IConnection) : Dict IConnection Nat :=
  connections.zipIdx.foldl (fun map (connection, index) => map.set connection index) .empty

def pushEntry (diff : Dict String INodeConnectionsDiff) (nodeName : String)
    (inputName : NodeConnectionType) (entry : ConnectionEntry)
    : Dict String INodeConnectionsDiff :=
  -- `diff[nodeName]` is there already as a member that the object inherits, and the entry is
  -- put on that member.
  if nodeName ∈ inheritedNames then diff
  else
    let inputs := (diff.get? nodeName).getD .empty
    diff.set nodeName (inputs.set inputName ((inputs.get? inputName).getD [] ++ [entry]))

/-- Records the connections of `here` that `there` has not. -/
def pushMissing (diff : Dict String INodeConnectionsDiff) (nodeName : String)
    (inputName : NodeConnectionType) (sourceIndex : Nat) (here there : List IConnection)
    : Dict String INodeConnectionsDiff :=
  (connectionMap here).entries.foldl
    (fun diff (connection, index) =>
      if (connectionMap there).keys.contains connection then diff
      else pushEntry diff nodeName inputName ⟨sourceIndex, index, connection⟩)
    diff

def compareConnections (prev next : IConnections) : ConnectionsDiff :=
  (prev.keys ++ next.keys).eraseDups.foldl
    (fun diff nodeName =>
      let prevNodeConnections := (prev.get? nodeName).getD .empty
      let nextNodeConnections := (next.get? nodeName).getD .empty
      (prevNodeConnections.keys ++ nextNodeConnections.keys).eraseDups.foldl
        (fun diff inputName =>
          let prevInputConnections := (prevNodeConnections.get? inputName).getD []
          let nextInputConnections := (nextNodeConnections.get? inputName).getD []
          (List.range (max prevInputConnections.length nextInputConnections.length)).foldl
            (fun diff sourceIndex =>
              let prevConnections := prevInputConnections.at sourceIndex
              let nextConnections := nextInputConnections.at sourceIndex
              {
                added :=
                  pushMissing diff.added nodeName inputName sourceIndex nextConnections
                    prevConnections
                removed :=
                  pushMissing diff.removed nodeName inputName sourceIndex prevConnections
                    nextConnections
              })
            diff)
        diff)
    ⟨.empty, .empty⟩

/-! ### Nodes -/

structure DiffableNode where
  id : String
  name : String
  type : Option String
  typeVersion : Option Rat
  webhookId : Option String
  credentials : Option Value
  parameters : INodeParameters
  position : Rat × Rat
  /-- The other fields that the node has: `disabled`, `notes`, `onError` and so on. -/
  others : INodeParameters
  deriving DecidableEq

structure DiffableWorkflow where
  nodes : List DiffableNode
  connections : IConnections
  /-- In milliseconds. -/
  createdAt : Int
  authors : Option String

inductive NodeDiffStatus where
  | eq
  | modified
  | added
  | deleted
  deriving DecidableEq, Repr

structure NodeDiff where
  status : NodeDiffStatus
  node : DiffableNode
  deriving DecidableEq

abbrev WorkflowDiff := Dict String NodeDiff

/-- The properties to compare. -/
structure PickedNode where
  name : String
  type : Option String
  typeVersion : Option Rat
  webhookId : Option String
  credentials : Option Value
  parameters : INodeParameters
  deriving DecidableEq

def DiffableNode.pick (node : DiffableNode) : PickedNode :=
  ⟨node.name, node.type, node.typeVersion, node.webhookId, node.credentials, node.parameters⟩

def compareNodes (base target : DiffableNode) : Bool := base.pick = target.pick

def compareWorkflowsNodes (base target : List DiffableNode) : WorkflowDiff :=
  let baseNodes := Dict.insertAll DiffableNode.id .empty base
  let targetNodes := Dict.insertAll DiffableNode.id .empty target
  let diff := baseNodes.entries.foldl
    (fun diff (id, node) =>
      match targetNodes.get? id with
      | none => diff.set id ⟨.deleted, node⟩
      | some targetNode =>
          if compareNodes node targetNode then diff.set id ⟨.eq, node⟩
          else diff.set id ⟨.modified, node⟩)
    (.empty : WorkflowDiff)
  targetNodes.entries.foldl
    (fun diff (id, node) =>
      if baseNodes.keys.contains id then diff else diff.set id ⟨.added, node⟩)
    diff

structure WorkflowChangeSet where
  nodes : WorkflowDiff
  connections : ConnectionsDiff

/-- The source passes over the comparison when both versions are the same object. -/
def WorkflowChangeSet.new (source target : DiffableWorkflow) : WorkflowChangeSet :=
  ⟨compareWorkflowsNodes source.nodes target.nodes,
    compareConnections source.connections target.connections⟩

/-- What the comparison says about a node of the base and one of the target with one id. -/
def nodeDiff (node : DiffableNode) : Option DiffableNode → NodeDiff
  | none => ⟨.deleted, node⟩
  | some targetNode => ⟨if compareNodes node targetNode then .eq else .modified, node⟩

/-- The last node with the id. -/
def lastNode (nodes : List DiffableNode) (id : String) : Option DiffableNode :=
  (nodes.filter (fun node => node.id = id)).getLast?

theorem compareWorkflowsNodes_get? (base target : List DiffableNode) (id : String)
    : (compareWorkflowsNodes base target).get? id
      = match lastNode base id with
        | some node => some (nodeDiff node (lastNode target id))
        | none => (lastNode target id).map (NodeDiff.mk .added) := by
  have last (nodes : List DiffableNode) (id : String)
      : (Dict.insertAll DiffableNode.id .empty nodes).get? id = lastNode nodes id := by
    rw [Dict.get?_insertAll, Dict.get?_empty, Option.or_none]
    rfl
  have keyed (nodes : List DiffableNode) (id : String)
      : (Dict.insertAll DiffableNode.id .empty nodes).keys.contains id
        = (lastNode nodes id).isSome := by
    rw [← last, Bool.eq_iff_iff, List.contains_iff_mem, ← not_iff_not, ← Dict.get?_eq_none_iff]
    simp
  unfold compareWorkflowsNodes
  simp only
  rw [Dict.get?_foldl_set (fun id node =>
      if (lastNode base id).isSome then none else some ⟨.added, node⟩),
    Dict.get?_foldl_set (fun id node => some (nodeDiff node (lastNode target id))),
    last, last, Dict.get?_empty]
  · cases lastNode base id <;> cases lastNode target id <;> rfl
  · intro diff id node
    rw [last]
    cases lastNode target id with
    | none => rfl
    | some targetNode => simp only [nodeDiff]; split <;> rfl
  · intro diff id node
    rw [keyed]
    cases (lastNode base id).isSome <;> rfl

def NodeDiffStatus.swap : NodeDiffStatus → NodeDiffStatus
  | .added => .deleted
  | .deleted => .added
  | status => status

/-- In the other direction, what was added is deleted, and nothing else changes. -/
theorem compareWorkflowsNodes_swap (base target : List DiffableNode) (id : String)
    : ((compareWorkflowsNodes target base).get? id).map (fun diff => diff.status)
      = ((compareWorkflowsNodes base target).get? id).map (fun diff => diff.status.swap) := by
  rw [compareWorkflowsNodes_get?, compareWorkflowsNodes_get?]
  cases lastNode base id with
  | none => cases lastNode target id <;> rfl
  | some node =>
      cases lastNode target id with
      | none => rfl
      | some targetNode =>
          have symm : compareNodes targetNode node = compareNodes node targetNode := by
            simp [compareNodes, eq_comm]
          simp only [nodeDiff, symm, Option.map_some]
          cases compareNodes node targetNode <;> rfl

theorem mem_of_lastNode {nodes : List DiffableNode} {id : String} {node : DiffableNode}
    (last : lastNode nodes id = some node)
    : node ∈ nodes ∧ node.id = id := by
  have member := List.mem_filter.mp (List.mem_of_getLast? last)
  exact ⟨member.1, of_decide_eq_true member.2⟩

/-- The lookup in `mergeAdditiveChanges` never fails. -/
theorem exists_next {prev next : DiffableWorkflow} {d : NodeDiff}
    (member : d ∈ (WorkflowChangeSet.new prev next).nodes.values) (kept : d.status ≠ .deleted)
    : (next.nodes.find? (fun node => node.id = d.node.id)).isSome := by
  obtain ⟨id, present⟩ := Dict.mem_values_iff.mp member
  have present : (compareWorkflowsNodes prev.nodes next.nodes).get? id = some d := present
  rw [compareWorkflowsNodes_get?] at present
  obtain ⟨node, inside, same⟩ : ∃ node ∈ next.nodes, node.id = d.node.id := by
    cases inPrev : lastNode prev.nodes id with
    | none =>
        rw [inPrev] at present
        obtain ⟨node, inNext, rfl⟩ := Option.map_eq_some_iff.mp present
        exact ⟨node, (mem_of_lastNode inNext).1, rfl⟩
    | some prevNode =>
        rw [inPrev] at present
        cases present
        cases inNext : lastNode next.nodes id with
        | none =>
            rw [inNext] at kept
            exact absurd rfl kept
        | some node =>
            have here := mem_of_lastNode inNext
            exact ⟨node, here.1, here.2.trans (mem_of_lastNode inPrev).2.symm⟩
  exact List.find?_isSome.mpr ⟨node, inside, by simpa using same⟩

theorem exists_next_kept
    : let kept : DiffableNode := ⟨"1", "Set", none, none, none, none, [], (0, 0), []⟩
      ([kept].find? (fun node => node.id = kept.id)).isSome := by
  intro kept
  let version : DiffableWorkflow := ⟨[kept], .empty, 0, none⟩
  exact @exists_next version version ⟨.eq, kept⟩ (by decide) (by decide)

/-! ### Rules -/

/-- One round of `stringContainsParts`: the marker, or `none` after the early return. -/
def markPart {α : Type} [DecidableEq α] (s substr : List α) (marker : Option Nat) (i : Nat)
    : Option Nat :=
  marker.bind (fun marker =>
    let marker :=
      if marker < substr.length ∧ substr[marker]? = s[i]? then marker + 1 else marker
    if i - marker > s.length - substr.length then none else some marker)

/-- Over the code units of two strings. -/
def stringContainsParts {α : Type} [DecidableEq α] (s substr : List α) : Bool :=
  if substr.length > s.length then false
  else
    match (List.range s.length).foldl (markPart s substr) (some 0) with
    | none => false
    | some marker => marker ≥ substr.length

section
variable {α : Type} [DecidableEq α]

/-- The first `marker` letters of `substr` are the most that occur in order in the first
`seen` letters of `s`.
-/
structure IsLongest (s substr : List α) (marker seen : Nat) : Prop where
  inside : marker ≤ substr.length
  occurs : (substr.take marker).Sublist (s.take seen)
  most : ∀ other ≤ substr.length, (substr.take other).Sublist (s.take seen) → other ≤ marker

variable {s substr : List α} {marker seen : Nat}

omit [DecidableEq α] in
theorem IsLongest.start (s substr : List α) : IsLongest s substr 0 0 := by
  refine ⟨Nat.zero_le _, by simp, fun other inside occurs => ?_⟩
  have short := occurs.length_le
  simp only [List.length_take, List.take_zero, List.length_nil] at short
  omega

/-- What is most grows by the next letter when that is the one looked for. -/
theorem IsLongest.next (longest : IsLongest s substr marker seen) (unread : seen < s.length)
    : IsLongest s substr
        (if marker < substr.length ∧ substr[marker]? = s[seen]? then marker + 1 else marker)
        (seen + 1) := by
  obtain ⟨inside, occurs, most⟩ := longest
  have grown : s.take (seen + 1) = s.take seen ++ [s[seen]] := by
    rw [List.take_add_one, List.getElem?_eq_getElem unread]
    rfl
  have shorter (other : Nat) (bound : other + 1 ≤ substr.length)
      (both : (substr.take (other + 1)).Sublist (s.take (seen + 1)))
      : other < marker ∨ other ≤ marker ∧ substr[other]? = s[seen]? := by
    have left : substr.take (other + 1) = substr.take other ++ [substr[other]] := by
      rw [List.take_add_one, List.getElem?_eq_getElem (by omega)]
      rfl
    rw [grown] at both
    rcases List.sublist_append_iff.mp both with ⟨front, last, split, isFront, isLast⟩
    rcases List.sublist_singleton.mp isLast with rfl | rfl
    · left
      rw [List.append_nil] at split
      have := most (other + 1) bound (split ▸ isFront)
      omega
    · rw [left] at split
      obtain ⟨sameFront, sameLast⟩ := List.append_inj' split rfl
      right
      refine ⟨most other (by omega) (sameFront ▸ isFront), ?_⟩
      rw [List.getElem?_eq_getElem (by omega), List.getElem?_eq_getElem unread]
      simpa using sameLast
  split
  · next found =>
      refine ⟨found.1, ?_, fun other bound both => ?_⟩
      · rw [grown, List.take_add_one, found.2, List.getElem?_eq_getElem unread]
        exact occurs.append (.refl _)
      · cases other with
        | zero => omega
        | succ other =>
            have := shorter other bound both
            omega
  · next missed =>
      refine ⟨inside, ?_, fun other bound both => ?_⟩
      · rw [grown]
        exact occurs.trans (List.sublist_append_left _ _)
      · cases other with
        | zero => omega
        | succ other =>
            rcases shorter other bound both with less | ⟨atMost, same⟩
            · exact less
            · by_contra more
              have last : other = marker := by omega
              exact missed ⟨by omega, last ▸ same⟩

/-- The early return is taken only when too many letters have been passed over. -/
theorem markPart_longest (fits : substr.length ≤ s.length) {seen : Nat} (bound : seen ≤ s.length)
    : ∃ marker, IsLongest s substr marker seen
        ∧ ((List.range seen).foldl (markPart s substr) (some 0) = some marker
          ∨ (List.range seen).foldl (markPart s substr) (some 0) = none
            ∧ marker + (s.length - substr.length) < seen) := by
  induction seen with
  | zero => exact ⟨0, .start s substr, .inl rfl⟩
  | succ seen ih =>
      obtain ⟨marker, longest, marked⟩ := ih (by omega)
      have next := longest.next (show seen < s.length by omega)
      refine ⟨_, next, ?_⟩
      rw [List.range_succ, List.foldl_append]
      rcases marked with marked | ⟨stopped, passed⟩
      · simp only [marked, List.foldl_cons, List.foldl_nil, markPart, Option.bind_some]
        split <;> split <;> simp <;> omega
      · right
        simp only [stopped, List.foldl_cons, List.foldl_nil, markPart, Option.bind_none,
          true_and]
        split <;> omega

theorem stringContainsParts_iff (s substr : List α)
    : stringContainsParts s substr = true ↔ substr.Sublist s := by
  unfold stringContainsParts
  split
  · next longer =>
      simp only [Bool.false_eq_true, false_iff]
      intro occurs
      have := occurs.length_le
      omega
  · next fits =>
      obtain ⟨marker, ⟨inside, occurs, most⟩, marked⟩ :=
        markPart_longest (show substr.length ≤ s.length by omega) (le_refl s.length)
      rw [List.take_length] at occurs
      rcases marked with marked | ⟨stopped, passed⟩
      · simp only [marked, decide_eq_true_eq]
        constructor
        · intro whole
          rwa [List.take_of_length_le whole] at occurs
        · intro whole
          exact most substr.length (le_refl _) (by simpa using whole)
      · simp only [stopped, Bool.false_eq_true, false_iff]
        intro whole
        have := most substr.length (le_refl _) (by simpa using whole)
        omega
end

/-- An own property of an array: a place or the length. -/
def ownProperty (items : List Value) (key : String) : Option Value :=
  if key = "length" then some (.number items.length) else (Value.array items).get key

mutual

/-- The objects of both sides are in the order of their keys. -/
def parametersAreSuperset : Value → Value → Bool
  | .string prev, .string next =>
      stringContainsParts (Unicode.utf16 next.toList) (Unicode.utf16 prev.toList)
  | .array prev, .array next => itemsAreSuperset prev next
  | .object prev, .object next => entriesAreSuperset prev next
  -- Only an array as the first value has to be met by an array.
  | .object prev, .array next => prev.length == next.length && placesAreSuperset prev next
  | prev, next => prev = next
termination_by structural prev => prev

def itemsAreSuperset : List Value → List Value → Bool
  | [], [] => true
  | prev :: rest, next :: others => parametersAreSuperset prev next && itemsAreSuperset rest others
  | _, _ => false

def entriesAreSuperset : INodeParameters → INodeParameters → Bool
  | [], [] => true
  | (key, prev) :: rest, (other, next) :: others =>
      key = other && parametersAreSuperset prev next && entriesAreSuperset rest others
  | _, _ => false

def placesAreSuperset : INodeParameters → List Value → Bool
  | [], _ => true
  | (key, prev) :: rest, items =>
      (match ownProperty items key with
        | none => false
        | some next => parametersAreSuperset prev next)
      && placesAreSuperset rest items

end

example : parametersAreSuperset (.object []) (.array []) := by decide

def nodeIsSuperset (prevNode nextNode : DiffableNode) : Bool :=
  compareNodes { prevNode with parameters := [] } { nextNode with parameters := [] }
  && parametersAreSuperset (.object prevNode.parameters) (.object nextNode.parameters)

structure DiffMetaData where
  workflowSizeScore : Option Nat

/-- A rule for a version and a later one. -/
abbrev DiffRule (W : Type) := W → W → WorkflowChangeSet → DiffMetaData → Bool

/-- The source throws where no next node is found, which `exists_next` rules out. -/
def mergeAdditiveChanges : DiffRule DiffableWorkflow := fun _ next diff _ =>
  diff.nodes.values.all (fun d =>
    match d.status with
    | .deleted => false
    | .added => true
    | .eq => true
    | .modified =>
        match next.nodes.find? (fun node => node.id = d.node.id) with
        | none => false
        | some nextNode => nodeIsSuperset d.node nextNode)
  && diff.connections.removed.keys.isEmpty

def makeSkipTimeDifference (timeDiffMs : Int) : DiffRule DiffableWorkflow :=
  fun prev next _ _ => |next.createdAt - prev.createdAt| > timeDiffMs

def makeMergeShortTimeSpan (timeDiffMs : Int) : DiffRule DiffableWorkflow :=
  fun prev next _ _ => |next.createdAt - prev.createdAt| < timeDiffMs

/-- A mapping from minimum sizes to the minimum times between versions. -/
def makeMergeDependingOnSizeRule (mapping : Dict Nat Int) : DiffRule DiffableWorkflow :=
  fun prev next diff metaData =>
    match metaData.workflowSizeScore with
    | none => false
    | some score =>
        match (mapping.entries.mergeSort (fun a b => b.1 ≤ a.1)).find?
            (fun pair => score > pair.1) with
        | none => false
        | some (_, time) => makeMergeShortTimeSpan time prev next diff metaData

def skipDifferentUsers : DiffRule DiffableWorkflow :=
  fun prev next _ _ => next.authors ≠ prev.authors

/-! ### Changes other than moves -/

/-- `isEqual` of objects, whose keys may stand in different orders. -/
def isEqualObject {κ α : Type} [DecidableEq κ] (isEqual : α → α → Bool) (value other : Dict κ α)
    : Bool :=
  value.entries.length == other.entries.length
  && value.entries.all (fun (key, item) => (other.get? key).any (isEqual item))

def hasNonPositionalChanges (oldNodes newNodes : List DiffableNode)
    (oldConnections newConnections : IConnections)
    : Bool :=
  (compareWorkflowsNodes oldNodes newNodes).values.any (fun diff => diff.status ≠ .eq)
  || !isEqualObject (isEqualObject (· == ·)) oldConnections newConnections

/-! ### Grouping -/

mutual

def determineNodeSize : Value → Nat
  | .string text => if text = "" then 1 else (Unicode.utf16 text.toList).length
  | .array items => itemsSize items + 1
  | .object entries => entriesSize entries + 1
  | _ => 1

def itemsSize : List Value → Nat
  | [] => 0
  | item :: rest => determineNodeSize item + itemsSize rest

def entriesSize : INodeParameters → Nat
  | [] => 0
  | (_, value) :: rest => determineNodeSize value + entriesSize rest

end

def determineNodeParametersSize (workflow : DiffableWorkflow) : Nat :=
  workflow.nodes.foldl (fun acc node => acc + determineNodeSize (.object node.parameters)) 0

structure Groups (W : Type) where
  removed : List W
  remaining : List W
  deriving DecidableEq

section

variable {W : Type} (diffable : W → DiffableWorkflow) (rules skipRules : List (DiffRule W))
variable (metaData : DiffMetaData)

/-- Some merge rule holds of the two versions and no skip rule does. -/
def shouldMerge (prev next : W) : Bool :=
  let wcs := WorkflowChangeSet.new (diffable prev) (diffable next)
  !skipRules.any (fun shouldSkip => shouldSkip prev next wcs metaData)
  && rules.any (fun rule => rule prev next wcs metaData)

/-- The loop from the index `i` down to 1. Both indices are inside the array. -/
def diffLoop : Nat → Groups W → Groups W
  | 0, groups => groups
  | i + 1, groups =>
      match groups.remaining[i]?, groups.remaining[i + 1]? with
      | some left, some next =>
          if shouldMerge diffable rules skipRules metaData left next then
            diffLoop i ⟨groups.removed ++ [left], groups.remaining.eraseIdx i⟩
          else diffLoop i groups
      | _, _ => groups

/-- The latest version and the one in the middle stand for the whole history. -/
def metaDataOf (workflows : List W) (workflowSizeScore : Bool) : DiffMetaData :=
  let sizeAt (index : Nat) :=
    (workflows[index]?.map (fun w => determineNodeParametersSize (diffable w))).getD 0
  ⟨if workflowSizeScore then
      some (max (sizeAt (workflows.length / 2)) (sizeAt (workflows.length - 1)))
    else none⟩

def groupWorkflows (workflows : List W) (workflowSizeScore : Bool) : Groups W :=
  match workflows with
  | [] => ⟨[], []⟩
  | [_] => ⟨[], workflows⟩
  | _ =>
      diffLoop diffable rules skipRules (metaDataOf diffable workflows workflowSizeScore)
        (workflows.length - 1) ⟨[], workflows⟩

/-! ### The pruned history -/

/-- The rule holds of a version and a later one of the history `workflows`. -/
def Holds (workflows : List W) (workflowSizeScore : Bool) (rule : DiffRule W) (prev next : W)
    : Prop :=
  rule prev next (.new (diffable prev) (diffable next))
    (metaDataOf diffable workflows workflowSizeScore) = true

/-- Everything behind the index has been marked from the end; the loop marks what is in front
of it, by induction on the front.
-/
theorem diffLoop_eq (front behind : List W) (last : W)
    : let merges := shouldMerge diffable rules skipRules metaData
      diffLoop diffable rules skipRules metaData front.length
          ⟨(droppedOf (mark merges (behind ++ [last]))).reverse,
            front ++ keptOf (mark merges (behind ++ [last]))⟩
        = ⟨(droppedOf (mark merges (front ++ behind ++ [last]))).reverse,
            keptOf (mark merges (front ++ behind ++ [last]))⟩ := by
  intro merges
  induction front using List.reverseRecOn generalizing behind with
  | nil => rfl
  | append_singleton front left ih =>
      obtain ⟨next, kept, later⟩
          : ∃ next kept, keptOf (mark merges (behind ++ [last])) = next :: kept := by
        cases behind with
        | nil => exact ⟨last, [], rfl⟩
        | cons first rest =>
            obtain ⟨next, kept, later, _⟩ := exists_kept merges first (rest ++ [last])
            exact ⟨next, kept, later⟩
      have marked := mark_cons left later
      have here : (front ++ [left] ++ next :: kept)[front.length]? = some left := by simp
      have behindIt : (front ++ [left] ++ next :: kept)[front.length + 1]? = some next := by
        simp
      have shown := ih (left :: behind)
      rw [List.cons_append, marked] at shown
      rw [List.length_append, List.length_singleton, later]
      unfold diffLoop
      simp only [here, behindIt]
      cases merging : merges left next with
      | true =>
          have whole : shouldMerge diffable rules skipRules metaData left next = true := merging
          simp only [merging, Bool.not_true, droppedOf_cons_false, keptOf_cons_false,
            List.reverse_cons, later] at shown
          have spliced
              : (front ++ left :: next :: kept).eraseIdx front.length = front ++ next :: kept := by
            simp [List.eraseIdx_append_of_length_le]
          simpa [whole, spliced] using shown
      | false =>
          have whole : shouldMerge diffable rules skipRules metaData left next = false := merging
          simp only [merging, Bool.not_false, droppedOf_cons_true, keptOf_cons_true,
            later] at shown
          simpa [whole] using shown

variable {diffable rules skipRules}

theorem groupWorkflows_eq (workflows : List W) (workflowSizeScore : Bool)
    : let merges :=
        shouldMerge diffable rules skipRules (metaDataOf diffable workflows workflowSizeScore)
      groupWorkflows diffable rules skipRules workflows workflowSizeScore
        = ⟨(droppedOf (mark merges workflows)).reverse, keptOf (mark merges workflows)⟩ := by
  intro merges
  unfold groupWorkflows
  split
  · rfl
  · rfl
  · next several _ =>
      have filled : workflows ≠ [] := by
        rintro rfl
        contradiction
      have looped := diffLoop_eq diffable rules skipRules
        (metaDataOf diffable workflows workflowSizeScore) workflows.dropLast []
        (workflows.getLast filled)
      simpa [mark_single, List.dropLast_append_getLast filled, merges] using looped

/-- The history is split: what is removed is merged into the first remaining version behind
it, and what remains may not be merged into its neighbour.
-/
theorem groupWorkflows_isPruning (diffable : W → DiffableWorkflow)
    (rules skipRules : List (DiffRule W)) (workflows : List W) (workflowSizeScore : Bool)
    : let holds := Holds diffable workflows workflowSizeScore
      let groups := groupWorkflows diffable rules skipRules workflows workflowSizeScore
      IsPruning
        (fun prev next =>
          (∀ shouldSkip ∈ skipRules, ¬holds shouldSkip prev next)
          ∧ ∃ rule ∈ rules, holds rule prev next)
        workflows groups.remaining groups.removed.reverse := by
  intro holds groups
  have merged (prev next : W)
      : shouldMerge diffable rules skipRules (metaDataOf diffable workflows workflowSizeScore)
            prev next = true
        ↔ (∀ shouldSkip ∈ skipRules, ¬holds shouldSkip prev next)
          ∧ ∃ rule ∈ rules, holds rule prev next := by
    simp [shouldMerge, holds, Holds]
  have pruned := mark_isPruning
    (shouldMerge diffable rules skipRules (metaDataOf diffable workflows workflowSizeScore))
    workflows
  simp only [merged] at pruned
  have same : groups = _ := groupWorkflows_eq workflows workflowSizeScore
  rw [same]
  simpa using pruned

end

end N8n.Workflow
