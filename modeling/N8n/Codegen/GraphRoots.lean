import Mathlib.Data.List.Infix
import N8n.Codegen.SemanticGraph
import N8n.Library.Gathering

/-! The roots of the semantic graph, from which the code of all nodes is generated
(`packages/@n8n/workflow-sdk/src/codegen/semantic-graph.ts`): each node can be reached from one.
-/

namespace N8n.Codegen

open N8n.DepthFirst (Reaches)
open N8n.Library (FiniteGraph)

def TRIGGER_NODE_TYPES : List String :=
  ["n8n-nodes-base.webhook", "n8n-nodes-base.cron", "n8n-nodes-base.emailReadImap",
    "n8n-nodes-base.telegramBot", "n8n-nodes-base.start"]

/-- No letter outside ASCII is one of `trigger` in lower case. -/
def isTriggerNodeType (type : String) : Bool :=
  type ∈ TRIGGER_NODE_TYPES ∨ "trigger".toList <:+: type.toList.map Char.toLower

def SemanticNode.isTrigger (node : SemanticNode) : Bool := isTriggerNodeType node.json.type

def SemanticNode.targets (node : SemanticNode) : List String :=
  node.outputs.values.flatMap (fun connections => connections.map SemanticConnection.target)

namespace SemanticGraph

variable (graph : SemanticGraph)

/-- Where the outputs of a node lead. -/
def successors (name : String) : List String :=
  match graph.get? name with
  | none => []
  | some node => node.targets

def hasIncomingConnections : List String := graph.values.flatMap SemanticNode.targets

def subnodeNames : List String :=
  graph.values.flatMap (fun node => node.subnodes.map SubnodeConnection.subnodeName)

def identifyRoots : List String :=
  (graph.entries.filter (fun (name, node) =>
    name ∉ graph.subnodeNames ∧ (node.isTrigger ∨ name ∉ graph.hasIncomingConnections))).map
    Prod.fst

variable {graph} in
theorem successors_outside {name : String} (outside : name ∉ graph.keys)
    : graph.successors name = [] := by
  rw [successors, Dict.get?_eq_none_iff.mpr outside]

def whole : FiniteGraph String where
  vertices := graph.keys
  successors := graph.successors
  outside _ := successors_outside

/-- The part of the graph that `markReachable` follows. -/
def within (scope : List String) : FiniteGraph String where
  vertices := graph.keys
  successors name := (graph.successors name).filter (· ∈ scope)
  outside _ missing := by simp [successors_outside missing]

def markReachable (start : String) (scope processed : List String) : List String :=
  (graph.within scope).gather [start] processed

/-- The nodes that no root reaches; the last root is on top of the stack. -/
def disconnected (roots : List String) : List String :=
  let reachable := graph.whole.gather roots.reverse []
  graph.keys.filter (fun name => name ∉ reachable ∧ name ∉ graph.subnodeNames)

def incomingFromDisconnected (disconnected : List String) (name : String) : List String :=
  disconnected.filter (fun nodeName => name ∈ graph.successors nodeName ∧ name ≠ nodeName)

/-- A turn of one of the two passes, with the entry points and the processed nodes so far. -/
def turn (disconnected : List String) (isEntry : String → Bool)
    (sofar : List String × List String) (nodeName : String)
    : List String × List String :=
  if nodeName ∉ sofar.2 ∧ isEntry nodeName then
    (sofar.1 ++ [nodeName], graph.markReachable nodeName disconnected sofar.2)
  else sofar

def findDisconnectedRoots (roots : List String) : List String :=
  let disconnected := graph.disconnected roots
  let first :=
    disconnected.foldl
      (graph.turn disconnected (fun nodeName =>
        (graph.incomingFromDisconnected disconnected nodeName).isEmpty))
      ([], [])
  (disconnected.foldl (graph.turn disconnected (fun _ => true)) first).1

def roots : List String := graph.identifyRoots ++ graph.findDisconnectedRoots graph.identifyRoots

/-! ### What the roots are for -/

/-- The nodes that are not spared are reached, and a root that is no trigger and has incoming
connections is not behind an earlier one.
-/
structure Covers (isSpared : String → Prop) (onward : String → List String)
    (roots : List String)
    : Prop where
  reached
    : ∀ name ∈ graph.keys, ¬isSpared name
      → ∃ root ∈ roots, Reaches graph.successors root name
  noSubnode : ∀ root ∈ roots, root ∉ graph.subnodeNames
  nodup : roots.Nodup
  justified
    : ∀ before root after, roots = before ++ root :: after
      → (∃ node, graph.get? root = some node ∧ node.isTrigger = true)
        ∨ (∀ name, root ∉ graph.successors name)
        ∨ ∀ earlier ∈ before, ¬Reaches onward earlier root

def SubnodeOfAnother (name : String) : Prop :=
  ∃ parent ∈ graph.entries,
    parent.1 ≠ name ∧ name ∈ parent.2.subnodes.map SubnodeConnection.subnodeName

instance : DecidablePred graph.SubnodeOfAnother := fun _ =>
  inferInstanceAs (Decidable (∃ parent ∈ graph.entries, _))

/-- The connections that lead to nodes of their own. -/
def ownSuccessors (name : String) : List String :=
  (graph.successors name).filter (· ∉ graph.subnodeNames)

variable {graph} {roots scope entries processed : List String} {name root : String}

theorem mem_hasIncomingConnections (edge : root ∈ graph.successors name)
    : root ∈ graph.hasIncomingConnections := by
  unfold successors at edge
  split at edge
  · contradiction
  · next node found =>
      exact List.mem_flatMap.mpr ⟨node, Dict.mem_values_iff.mpr ⟨name, found⟩, edge⟩

theorem mem_identifyRoots
    : name ∈ graph.identifyRoots
      ↔ ∃ node, graph.get? name = some node ∧ name ∉ graph.subnodeNames
        ∧ (node.isTrigger = true ∨ name ∉ graph.hasIncomingConnections) := by
  unfold identifyRoots
  simp only [List.mem_map, List.mem_filter, decide_eq_true_eq]
  constructor
  · rintro ⟨⟨other, node⟩, ⟨member, isRoot⟩, rfl⟩
    exact ⟨node, Dict.mem_entries_iff.mp member, isRoot⟩
  · rintro ⟨node, found, isRoot⟩
    exact ⟨(name, node), ⟨Dict.mem_entries_iff.mpr found, isRoot⟩, rfl⟩

theorem mem_disconnected
    : name ∈ graph.disconnected roots
      ↔ name ∈ graph.keys ∧ name ∉ graph.subnodeNames
        ∧ ¬∃ root ∈ roots, Reaches graph.successors root name := by
  have nothing : graph.whole.Pursued roots.reverse [] := fun _ member => by contradiction
  have gathered := @FiniteGraph.mem_gather _ _ graph.whole roots.reverse [] name nothing
  simp only [List.not_mem_nil, false_or, List.mem_reverse] at gathered
  unfold disconnected
  rw [List.mem_filter, decide_eq_true_eq, gathered, and_comm (b := name ∉ graph.subnodeNames)]
  rfl

/-! ### The two passes -/

/-- The processed nodes are those behind the entry points, none of which is behind an earlier
one.
-/
structure Entered (graph : SemanticGraph) (scope entries processed : List String) : Prop where
  inScope : ∀ entry ∈ entries, entry ∈ scope
  apart
    : entries.Pairwise (fun earlier later =>
        ¬Reaches (graph.within scope).successors earlier later)
  processed_iff
    : ∀ name, name ∈ processed
      ↔ ∃ entry ∈ entries, Reaches (graph.within scope).successors entry name

theorem Entered.mem_markReachable (entered : Entered graph scope entries processed)
    : name ∈ graph.markReachable root scope processed
      ↔ name ∈ processed ∨ Reaches (graph.within scope).successors root name := by
  unfold markReachable
  rw [FiniteGraph.mem_gather]
  · simp
  · intro other known next edge
    obtain ⟨entry, member, path⟩ := (entered.processed_iff other).mp known
    exact .inl ((entered.processed_iff next).mpr ⟨entry, member, path.trans (.edge edge)⟩)

theorem Entered.turn (entered : Entered graph scope entries processed) (isEntry : String → Bool)
    (inside : name ∈ scope)
    : Entered graph scope (graph.turn scope isEntry (entries, processed) name).1
        (graph.turn scope isEntry (entries, processed) name).2 := by
  unfold SemanticGraph.turn
  split
  · next isNew =>
      refine ⟨?_, ?_, fun other => ?_⟩
      · intro entry member
        rcases List.mem_append.mp member with old | new
        · exact entered.inScope entry old
        · exact List.mem_singleton.mp new ▸ inside
      · refine List.pairwise_append.mpr ⟨entered.apart, List.pairwise_singleton _ _, ?_⟩
        intro earlier member later isLater path
        rw [List.mem_singleton.mp isLater] at path
        exact isNew.1 ((entered.processed_iff name).mpr ⟨earlier, member, path⟩)
      · simp only [entered.mem_markReachable, entered.processed_iff, List.mem_append,
          List.mem_singleton, or_and_right, exists_or, exists_eq_left]
  · exact entered

/-- A pass, by induction over the nodes that it goes through; nodes once processed stay so. -/
theorem Entered.pass {sofar : List String × List String}
    (entered : Entered graph scope sofar.1 sofar.2) (isEntry : String → Bool)
    {names : List String} (inside : ∀ name ∈ names, name ∈ scope)
    : let after := names.foldl (graph.turn scope isEntry) sofar
      Entered graph scope after.1 after.2 ∧ (∀ name ∈ sofar.2, name ∈ after.2)
        ∧ ((∀ name, isEntry name = true) → ∀ name ∈ names, name ∈ after.2) := by
  induction names generalizing sofar with
  | nil => exact ⟨entered, fun _ known => known, fun _ _ member => by contradiction⟩
  | cons name rest ih =>
      have next := entered.turn isEntry (inside name (.head _))
      obtain ⟨ends, kept, all⟩ := ih next (fun other later => inside other (by simp [later]))
      have grows (other : String) (known : other ∈ sofar.2)
          : other ∈ (graph.turn scope isEntry sofar name).2 := by
        unfold SemanticGraph.turn
        split
        · exact entered.mem_markReachable.mpr (.inl known)
        · exact known
      refine ⟨ends, fun other known => kept other (grows other known), ?_⟩
      intro always other member
      rcases List.mem_cons.mp member with rfl | later
      · refine kept other ?_
        by_cases known : other ∈ sofar.2
        · exact grows other known
        · rw [SemanticGraph.turn, if_pos ⟨known, always other⟩]
          exact entered.mem_markReachable.mpr (.inr (.refl other))
      · exact all always other later

variable (graph) in
theorem findDisconnectedRoots_entered (roots : List String)
    : ∃ processed, Entered graph (graph.disconnected roots) (graph.findDisconnectedRoots roots)
        processed ∧ ∀ name ∈ graph.disconnected roots, name ∈ processed := by
  let sofar : List String × List String := ([], [])
  have none : Entered graph (graph.disconnected roots) sofar.1 sofar.2 :=
    ⟨by simp [sofar], .nil, by simp [sofar]⟩
  obtain ⟨first, -, -⟩ := none.pass (fun nodeName =>
    (graph.incomingFromDisconnected (graph.disconnected roots) nodeName).isEmpty)
    (fun _ member => member)
  obtain ⟨second, -, all⟩ := first.pass (fun _ => true) (fun _ member => member)
  exact ⟨_, second, all (fun _ => rfl)⟩

theorem reaches_of_filter {keep : String → Bool} {earlier : String}
    (path : Reaches (fun name => (graph.successors name).filter keep) earlier root)
    : Reaches graph.successors earlier root :=
  Relation.ReflTransGen.mono (fun _ _ edge => (List.mem_filter.mp edge).1) _ _ path

/-- A path of own nodes to a disconnected node runs through disconnected ones only, by induction
from its end.
-/
theorem within_of_own {earlier : String} (here : earlier ∈ graph.disconnected roots)
    (there : root ∈ graph.disconnected roots) (path : Reaches graph.ownSuccessors earlier root)
    : Reaches (graph.within (graph.disconnected roots)).successors earlier root := by
  induction path using Relation.ReflTransGen.head_induction_on with
  | refl => exact .refl root
  | @head first next edge path ih =>
      obtain ⟨isEdge, isOwn⟩ := List.mem_filter.mp edge
      have onward := reaches_of_filter path
      have inside : next ∈ graph.disconnected roots := by
        refine mem_disconnected.mpr ⟨?_, by simpa using isOwn, ?_⟩
        · by_contra missing
          rcases Relation.ReflTransGen.cases_head onward with rfl | ⟨_, later, -⟩
          · exact missing (mem_disconnected.mp there).1
          · rw [successors_outside missing] at later
            contradiction
        · rintro ⟨start, isRoot, upTo⟩
          exact (mem_disconnected.mp there).2.2 ⟨start, isRoot, upTo.trans onward⟩
      refine (Reaches.edge ?_).trans (ih inside)
      exact List.mem_filter.mpr ⟨isEdge, by simpa using inside⟩

/-- No node behind a root of the first phase is a root of the last phase, and none of these is
behind an earlier one.
-/
theorem roots_apart (graph : SemanticGraph)
    : graph.roots.Pairwise (fun earlier later =>
        later ∈ graph.identifyRoots ∨ ¬Reaches graph.ownSuccessors earlier later) := by
  obtain ⟨processed, entered, -⟩ := graph.findDisconnectedRoots_entered graph.identifyRoots
  refine List.pairwise_append.mpr ⟨?_, ?_, fun earlier isFirst later isEntry => .inr ?_⟩
  · exact List.pairwise_of_forall_mem_list (fun _ _ later isFirst => .inl isFirst)
  · refine entered.apart.imp_of_mem (fun isEntry isLater apart => .inr (fun path => apart ?_))
    exact within_of_own (entered.inScope _ isEntry) (entered.inScope _ isLater) path
  · intro path
    exact (mem_disconnected.mp (entered.inScope later isEntry)).2.2
      ⟨earlier, isFirst, reaches_of_filter path⟩

theorem roots_cover (graph : SemanticGraph)
    : graph.Covers (· ∈ graph.subnodeNames) graph.ownSuccessors graph.roots := by
  obtain ⟨processed, entered, all⟩ := graph.findDisconnectedRoots_entered graph.identifyRoots
  have own {root : String} (isEntry : root ∈ graph.findDisconnectedRoots graph.identifyRoots) :=
    (mem_disconnected.mp (entered.inScope root isEntry)).2
  refine ⟨fun name known isOwn => ?_, fun root isRoot => ?_, ?_, ?_⟩
  · by_cases reached : ∃ root ∈ graph.identifyRoots, Reaches graph.successors root name
    · obtain ⟨root, isRoot, path⟩ := reached
      exact ⟨root, List.mem_append_left _ isRoot, path⟩
    · have isProcessed := all name (mem_disconnected.mpr ⟨known, isOwn, reached⟩)
      obtain ⟨entry, isEntry, path⟩ := (entered.processed_iff name).mp isProcessed
      exact ⟨entry, List.mem_append_right _ isEntry, reaches_of_filter path⟩
  · rcases List.mem_append.mp isRoot with isFirst | isEntry
    · obtain ⟨node, -, isOwn, -⟩ := mem_identifyRoots.mp isFirst
      exact isOwn
    · exact (own isEntry).1
  · refine List.nodup_append.mpr ⟨graph.nodup.sublist (List.filter_sublist.map _), ?_, ?_⟩
    · refine entered.apart.imp ?_
      rintro earlier _ apart rfl
      exact apart (.refl earlier)
    · rintro root isFirst _ isEntry rfl
      exact (own isEntry).2 ⟨root, isFirst, .refl root⟩
  · intro before root after split
    by_cases isFirst : root ∈ graph.identifyRoots
    · obtain ⟨node, found, -, isTrigger | noIncoming⟩ := mem_identifyRoots.mp isFirst
      · exact .inl ⟨node, found, isTrigger⟩
      · exact .inr (.inl (fun name edge => noIncoming (mem_hasIncomingConnections edge)))
    · have apart := graph.roots_apart
      rw [split] at apart
      exact .inr (.inr (fun earlier isEarlier =>
        ((List.pairwise_append.mp apart).2.2 earlier isEarlier root (by simp)).resolve_left
          isFirst))

end SemanticGraph

/-- `buildSemanticGraph` with its last phases. -/
def buildRootedGraph (toNumber : ToNumber) (json : WorkflowJSON)
    : Except JsError (SemanticGraph × List String) :=
  (buildSemanticGraph toNumber json).map (fun graph => (graph, graph.roots))

/-- Each node that is no subnode is behind a root, and a root that is no trigger and has incoming
connections is behind no earlier one along nodes that are no subnodes.
-/
theorem buildRootedGraph_covers {toNumber : ToNumber} {json : WorkflowJSON}
    {graph : SemanticGraph} {roots : List String}
    (built : buildRootedGraph toNumber json = .ok (graph, roots))
    : graph.Covers (· ∈ graph.subnodeNames) graph.ownSuccessors roots := by
  unfold buildRootedGraph at built
  cases found : buildSemanticGraph toNumber json with
  | error error => simp [found, Except.map] at built
  | ok graph =>
      rw [found] at built
      cases built
      exact graph.roots_cover

def noOp (name : String) : NodeJSON := ⟨name, some name, "n8n-nodes-base.noOp", none, none⟩

/-- A node with a loop, behind which another lies across its tool, and a tool of its own. -/
def behindTool : WorkflowJSON where
  nodes := [noOp "P", noOp "S", noOp "Q", noOp "N"]
  connections :=
    ((Dict.empty.set "P"
        (Dict.empty.set "main" [.targets [("P", "main", some 0), ("S", "main", some 0)]])).set "S"
        ((Dict.empty.set "main" [.targets [("Q", "main", some 0)]]).set "ai_tool"
          [.targets [("P", "ai_tool", some 0)]])).set "N"
      (Dict.empty.set "ai_tool" [.targets [("N", "ai_tool", some 0)]])

def behindToolGraph : SemanticGraph :=
  (buildSemanticGraph (fun _ => none) behindTool).toOption.getD Dict.empty

theorem behindToolGraph_roots : behindToolGraph.roots = ["P", "Q"] := by
  have first : behindToolGraph.identifyRoots = [] := by decide +kernel
  have scope : behindToolGraph.disconnected [] = ["P", "Q"] := by
    unfold SemanticGraph.disconnected
    simp only [List.reverse_nil, FiniteGraph.gather]
    decide
  have fromP : (behindToolGraph.within ["P", "Q"]).ahead "P" [] = [] := by decide
  have fromQ : (behindToolGraph.within ["P", "Q"]).ahead "Q" ["P"] = [] := by decide
  have toP : behindToolGraph.incomingFromDisconnected ["P", "Q"] "P" = [] := by decide
  have toQ : behindToolGraph.incomingFromDisconnected ["P", "Q"] "Q" = [] := by decide
  simp [SemanticGraph.roots, first, SemanticGraph.findDisconnectedRoots, scope,
    SemanticGraph.turn, toP, toQ, SemanticGraph.markReachable, FiniteGraph.gather, fromP, fromQ]

theorem buildRootedGraph_covers_behindTool
    : behindToolGraph.Covers (· ∈ behindToolGraph.subnodeNames) behindToolGraph.ownSuccessors
        behindToolGraph.roots := by
  have built
      : buildRootedGraph (fun _ => none) behindTool
        = .ok (behindToolGraph, behindToolGraph.roots) := rfl
  exact buildRootedGraph_covers built

/-- The tool of its own is behind no root, and the second root is behind the first. -/
theorem behindTool_not_covered
    : ∃ graph roots,
        buildRootedGraph (fun _ => none) behindTool = .ok (graph, roots)
        ∧ ¬graph.Covers graph.SubnodeOfAnother graph.successors roots
        ∧ ¬graph.Covers graph.SubnodeOfAnother graph.ownSuccessors roots
        ∧ ¬graph.Covers (· ∈ graph.subnodeNames) graph.successors roots := by
  have unreached (onward : String → List String)
      : ¬behindToolGraph.Covers behindToolGraph.SubnodeOfAnother onward ["P", "Q"] := by
    intro covers
    obtain ⟨root, isRoot, path⟩ := covers.reached "N" (by decide) (by decide)
    rcases Relation.ReflTransGen.cases_tail path with rfl | ⟨_, _, edge⟩
    · exact absurd isRoot (by decide)
    · exact absurd (SemanticGraph.mem_hasIncomingConnections edge) (by decide)
  refine ⟨behindToolGraph, ["P", "Q"], ?_, unreached _, unreached _, fun covers => ?_⟩
  · rw [← behindToolGraph_roots]
    rfl
  · rcases covers.justified ["P"] "Q" [] rfl with ⟨node, found, isTrigger⟩ | noIncoming | apart
    · have plain : (behindToolGraph.get? "Q").map SemanticNode.isTrigger = some false := by
        decide +kernel
      rw [found, Option.map_some, isTrigger] at plain
      contradiction
    · exact noIncoming "S" (by decide)
    · have first : Reaches behindToolGraph.successors "P" "S" := .edge (by decide)
      exact apart "P" (by simp) (first.trans (.edge (by decide)))

end N8n.Codegen
