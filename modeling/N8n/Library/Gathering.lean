import Mathlib.Data.Prod.Lex
import N8n.Library.DepthFirst

/-! Everything ahead of the vertices on a stack, gathered with a set of the vertices that were
taken from it before.
-/

namespace N8n.Library

open DepthFirst (Reaches)

/-- Only the vertices of a list have successors. -/
structure FiniteGraph (Vertex : Type*) where
  vertices : List Vertex
  successors : Vertex → List Vertex
  outside : ∀ vertex, vertex ∉ vertices → successors vertex = []

namespace FiniteGraph

variable {Vertex : Type*} [DecidableEq Vertex] (graph : FiniteGraph Vertex)

def fresh (found : List Vertex) : List Vertex := graph.vertices.filter (· ∉ found)

/-- What is new behind a vertex, with the last of it on top of the stack. -/
def ahead (current : Vertex) (found : List Vertex) : List Vertex :=
  ((graph.successors current).filter (· ∉ found ++ [current])).reverse

variable {graph} {stack found : List Vertex} {current target : Vertex}

theorem mem_ahead {next : Vertex}
    : next ∈ graph.ahead current found
      ↔ next ∈ graph.successors current ∧ next ∉ found ++ [current] := by
  simp [ahead]

theorem fresh_snoc
    : graph.fresh (found ++ [current])
      = (graph.fresh found).filter (fun vertex => vertex ≠ current) := by
  unfold fresh
  rw [List.filter_filter]
  refine List.filter_congr fun vertex _ => ?_
  simp [not_or, and_comm]

variable (graph) in
/-- Takes vertices from the top of the stack, where those ahead of a new one are put. -/
def gather (stack found : List Vertex) : List Vertex :=
  match stack with
  | [] => found
  | current :: rest =>
      if current ∈ found then gather rest found
      else gather (graph.ahead current found ++ rest) (found ++ [current])
  termination_by ((graph.fresh found).length, stack.length)
  decreasing_by
    · exact Prod.Lex.right _ (Nat.lt_succ_self _)
    · next new =>
        rw [fresh_snoc]
        by_cases inside : current ∈ graph.vertices
        · refine Prod.Lex.left _ _ (List.length_filter_lt_length_iff_exists.mpr ?_)
          exact ⟨current, List.mem_filter.mpr ⟨inside, by simpa using new⟩, by simp⟩
        · have none : graph.ahead current found = [] := by
            simp [ahead, graph.outside current inside]
          have same : (graph.fresh found).filter (fun vertex => vertex ≠ current)
              = graph.fresh found := by
            refine List.filter_eq_self.mpr fun vertex member => ?_
            simpa using fun equal : vertex = current =>
              inside (equal ▸ (List.mem_filter.mp member).1)
          rw [none, same]
          exact Prod.Lex.right _ (Nat.lt_succ_self _)

variable (graph) in
/-- What is ahead of a found vertex was found or is on the stack. -/
def Pursued (stack found : List Vertex) : Prop :=
  ∀ vertex ∈ found, ∀ next ∈ graph.successors vertex, next ∈ found ∨ next ∈ stack

omit [DecidableEq Vertex] in
theorem Pursued.ahead (pursued : graph.Pursued stack found) {vertex : Vertex}
    (known : vertex ∈ found) (path : Reaches graph.successors vertex target)
    : target ∈ found ∨ ∃ start ∈ stack, Reaches graph.successors start target := by
  refine path.closed
    (fun other => other ∈ found ∨ ∃ start ∈ stack, Reaches graph.successors start other) ?_
    (.inl known)
  rintro other (old | ⟨start, waiting, upTo⟩) next edge
  · exact (pursued other old next edge).imp id (fun waiting => ⟨next, waiting, .refl next⟩)
  · exact .inr ⟨start, waiting, upTo.trans (.edge edge)⟩

/-- By induction along the search: it ends with what can be reached from the stack. -/
theorem mem_gather (pursued : graph.Pursued stack found)
    : target ∈ graph.gather stack found
      ↔ target ∈ found ∨ ∃ start ∈ stack, Reaches graph.successors start target := by
  induction stack, found using gather.induct graph with
  | case1 found => simp [gather]
  | case2 found current rest old ih =>
      have still : graph.Pursued rest found := by
        intro vertex known next edge
        rcases pursued vertex known next edge with before | waiting
        · exact .inl before
        · rcases List.mem_cons.mp waiting with rfl | later
          · exact .inl old
          · exact .inr later
      rw [gather, if_pos old, ih still]
      constructor
      · exact Or.imp id (fun ⟨start, later, path⟩ => ⟨start, List.mem_cons_of_mem _ later, path⟩)
      · rintro (known | ⟨start, waiting, path⟩)
        · exact .inl known
        · rcases List.mem_cons.mp waiting with rfl | later
          · exact still.ahead old path
          · exact .inr ⟨start, later, path⟩
  | case3 found current rest new ih =>
      have still : graph.Pursued (graph.ahead current found ++ rest) (found ++ [current]) := by
        intro vertex known next edge
        by_cases old : next ∈ found ++ [current]
        · exact .inl old
        · refine .inr (List.mem_append.mpr ?_)
          rcases List.mem_append.mp known with before | here
          · rw [List.mem_append, List.mem_singleton, not_or] at old
            have waiting := (pursued vertex before next edge).resolve_left old.1
            exact .inr ((List.mem_cons.mp waiting).resolve_left old.2)
          · obtain rfl := List.mem_singleton.mp here
            exact .inl (mem_ahead.mpr ⟨edge, old⟩)
      rw [gather, if_neg new, ih still]
      constructor
      · rintro (known | ⟨start, waiting, path⟩)
        · rcases List.mem_append.mp known with old | here
          · exact .inl old
          · obtain rfl := List.mem_singleton.mp here
            exact .inr ⟨target, (.head _), .refl target⟩
        · rcases List.mem_append.mp waiting with pushed | later
          · have edge := (mem_ahead.mp pushed).1
            exact .inr ⟨current, (.head _), (Reaches.edge edge).trans path⟩
          · exact .inr ⟨start, List.mem_cons_of_mem _ later, path⟩
      · rintro (known | ⟨start, waiting, path⟩)
        · exact .inl (List.mem_append_left _ known)
        · rcases List.mem_cons.mp waiting with rfl | later
          · exact still.ahead (by simp) path
          · exact .inr ⟨start, List.mem_append_right _ later, path⟩

end FiniteGraph

end N8n.Library
