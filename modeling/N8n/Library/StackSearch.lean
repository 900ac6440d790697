import Mathlib.Data.Prod.Lex
import N8n.Library.DepthFirst
import N8n.Library.OrderedSets

/-! Search for a vertex with a stack of vertices to look at and a set of those looked at: a
vertex may stand on the stack more than once, and be looked at again.
-/

namespace N8n.Library

open DepthFirst (Reaches)

variable {Vertex : Type*}

/-- Vertices that no edge leaves, to which a search is confined. -/
structure Arena (successors : Vertex → List Vertex) where
  vertices : List Vertex
  closed : ∀ vertex ∈ vertices, ∀ next ∈ successors vertex, next ∈ vertices

variable [DecidableEq Vertex] {successors : Vertex → List Vertex}

/-- What is pushed when `next` has been looked at, the top of the stack first. -/
def pushed (successors : Vertex → List Vertex) (next : Vertex) (seen : OrderedSet Vertex)
    : List Vertex :=
  ((OrderedSet.ofList (successors next)).deleteAll (seen.insert next).elements).elements.reverse

variable {seen : OrderedSet Vertex} {next : Vertex}

theorem mem_pushed {vertex : Vertex}
    : vertex ∈ pushed successors next seen
      ↔ vertex ∈ successors next ∧ vertex ∉ seen.insert next := by
  rw [pushed, List.mem_reverse, ← OrderedSet.mem_def, OrderedSet.mem_deleteAll,
    OrderedSet.mem_ofList, OrderedSet.mem_def]

/-- The vertices of the arena that have not been looked at. -/
def Arena.unseen (arena : Arena successors) (seen : OrderedSet Vertex) : List Vertex :=
  arena.vertices.filter (· ∉ seen)

theorem Arena.unseen_insert_lt {arena : Arena successors} (inside : next ∈ arena.vertices)
    (fresh : next ∉ seen)
    : (arena.unseen (seen.insert next)).length < (arena.unseen seen).length := by
  have fewer : arena.unseen (seen.insert next)
      = (arena.unseen seen).filter (fun vertex => vertex ≠ next) := by
    unfold unseen
    rw [List.filter_filter]
    refine List.filter_congr fun vertex _ => ?_
    simp [not_or, and_comm]
  rw [fewer]
  refine List.length_filter_lt_length_iff_exists.mpr ⟨next, ?_, by simp⟩
  exact List.mem_filter.mpr ⟨inside, by simpa using fresh⟩

theorem insert_of_mem {seen : OrderedSet Vertex} {next : Vertex} (old : next ∈ seen)
    : seen.insert next = seen :=
  dif_pos old

/-- Whether the target is found from what is on the stack. Looking at a vertex for the first
time leaves fewer unseen ones; looking at it again takes a seen vertex from the stack, and
pushes unseen ones only.
-/
def search (arena : Arena successors) (target : Vertex) (paths : List Vertex)
    (inside : ∀ vertex ∈ paths, vertex ∈ arena.vertices) (seen : OrderedSet Vertex)
    : Bool :=
  match paths, inside with
  | [], _ => false
  | next :: rest, inside =>
      if next = target then true
      else
        search arena target (pushed successors next seen ++ rest)
          (fun vertex member =>
            (List.mem_append.mp member).elim
              (fun new =>
                arena.closed next (inside next List.mem_cons_self) vertex (mem_pushed.mp new).1)
              (fun old => inside vertex (List.mem_cons_of_mem next old)))
          (seen.insert next)
  termination_by ((arena.unseen seen).length, paths.countP (· ∈ seen))
  decreasing_by
    by_cases old : next ∈ seen
    · have same : seen.insert next = seen := insert_of_mem old
      have none : (pushed successors next seen).countP (· ∈ seen) = 0 := by
        rw [List.countP_eq_zero]
        intro vertex member
        have new := (mem_pushed.mp member).2
        rw [same] at new
        simpa using new
      simp only [same]
      refine Prod.Lex.right _ ?_
      rw [List.countP_append, none, List.countP_cons_of_pos (by simpa using old)]
      omega
    · exact Prod.Lex.left _ _
        (Arena.unseen_insert_lt (inside next List.mem_cons_self) old)

/-- What was seen is not the target, and what lies ahead of it was seen or is on the stack. -/
def Searched (successors : Vertex → List Vertex) (target : Vertex) (paths : List Vertex)
    (seen : OrderedSet Vertex)
    : Prop :=
  ∀ vertex ∈ seen, vertex ≠ target
    ∧ ∀ next ∈ successors vertex, next ∈ seen ∨ next ∈ paths

theorem Searched.look {target : Vertex} {rest : List Vertex}
    (searched : Searched successors target (next :: rest) seen) (differs : next ≠ target)
    : Searched successors target (pushed successors next seen ++ rest) (seen.insert next) := by
  intro vertex member
  rw [OrderedSet.mem_insert] at member
  have ahead (following : Vertex)
      (known : following ∈ successors next ∨ following ∈ seen ∨ following ∈ next :: rest)
      : following ∈ seen.insert next ∨ following ∈ pushed successors next seen ++ rest := by
    by_cases already : following ∈ seen.insert next
    · exact .inl already
    · refine .inr (List.mem_append.mpr ?_)
      rw [OrderedSet.mem_insert, not_or] at already
      rcases known with edge | old | waiting
      · exact .inl (mem_pushed.mpr ⟨edge, by simpa [not_or] using already⟩)
      · exact absurd old already.1
      · exact .inr ((List.mem_cons.mp waiting).resolve_left already.2)
  rcases member with old | rfl
  · obtain ⟨notTarget, onward⟩ := searched vertex old
    exact ⟨notTarget, fun following edge => ahead following (.inr (onward following edge))⟩
  · exact ⟨differs, fun following edge => ahead following (.inl edge)⟩

/-- The search finds the target exactly if a path leads to it from something on the stack or
seen, by induction along the search.
-/
theorem search_iff {arena : Arena successors} {target : Vertex} {paths : List Vertex}
    {inside : ∀ vertex ∈ paths, vertex ∈ arena.vertices}
    (searched : Searched successors target paths seen)
    : search arena target paths inside seen = true
      ↔ ∃ vertex, (vertex ∈ seen ∨ vertex ∈ paths) ∧ Reaches successors vertex target := by
  induction paths, inside, seen using search.induct arena target with
  | case1 seen inside =>
      rw [search]
      simp only [Bool.false_eq_true, List.not_mem_nil, or_false, false_iff]
      rintro ⟨vertex, old, path⟩
      have reached := path.closed (· ∈ seen)
        (fun vertex old next edge => ((searched vertex old).2 next edge).resolve_right (by simp))
        old
      exact (searched target reached).1 rfl
  | case2 seen rest inside =>
      rw [search, if_pos rfl]
      simp only [true_iff]
      exact ⟨target, .inr (.head _), .refl target⟩
  | case3 seen next rest inside differs _ ih =>
      rw [search, if_neg differs, ih (searched.look differs)]
      constructor
      · rintro ⟨vertex, known, path⟩
        rw [OrderedSet.mem_insert, List.mem_append] at known
        rcases known with (old | rfl) | new | waiting
        · exact ⟨vertex, .inl old, path⟩
        · exact ⟨vertex, .inr (.head _), path⟩
        · exact ⟨next, .inr (.head _), (Reaches.edge (mem_pushed.mp new).1).trans path⟩
        · exact ⟨vertex, .inr (.tail _ waiting), path⟩
      · rintro ⟨vertex, known, path⟩
        rcases known with old | waiting
        · exact ⟨vertex, .inl (OrderedSet.mem_insert.mpr (.inl old)), path⟩
        · rcases List.mem_cons.mp waiting with rfl | later
          · exact ⟨vertex, .inl (OrderedSet.mem_insert.mpr (.inr rfl)), path⟩
          · exact ⟨vertex, .inr (List.mem_append_right _ later), path⟩

end N8n.Library
