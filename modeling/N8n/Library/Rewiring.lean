import Mathlib.Data.List.Basic

/-! Taking vertices out of a graph whose links leave by one port and enter by another.
Every link into the vertex is joined to every link out of it, and the links that touch the
vertex are dropped; a link from the vertex to itself survives as such a joined link.
-/

namespace N8n.Rewiring

/-- `links x o i y`: a link leaves `x` by its output `o` and enters `y` by its input `i`. -/
abbrev Links (Vertex Port : Type*) := Vertex → Port → Port → Vertex → Prop

variable {Vertex Port : Type*}

/-- Paths whose vertices between the two ends are all `inner`. -/
inductive Through (links : Links Vertex Port) (inner : Vertex → Prop) : Links Vertex Port
  | link {x o i y} (direct : links x o i y) : Through links inner x o i y
  | step {x o j z p i y} (first : links x o j z) (between : inner z)
    (rest : Through links inner z p i y)
    : Through links inner x o i y

def rewire (links : Links Vertex Port) (removed : Vertex) : Links Vertex Port :=
  fun x o i y =>
    (x ≠ removed ∧ y ≠ removed ∧ links x o i y)
    ∨ ∃ j p, links x o j removed ∧ links removed p i y

def rewireAll (links : Links Vertex Port) (removed : List Vertex) : Links Vertex Port :=
  removed.foldl rewire links

variable {links links' : Links Vertex Port} {inner inner' : Vertex → Prop}
  {x y z removed : Vertex} {i j o p : Port}

theorem Through.trans (first : Through links inner x o j z) (between : inner z)
    (rest : Through links inner z p i y)
    : Through links inner x o i y := by
  induction first with
  | link direct => exact .step direct between rest
  | step direct middle _ ih => exact .step direct middle (ih between rest)

theorem Through.leaves (path : Through links inner x o i y) : ∃ j z, links x o j z := by
  cases path with
  | link direct => exact ⟨_, _, direct⟩
  | step first _ _ => exact ⟨_, _, first⟩

theorem Through.enters (path : Through links inner x o i y) : ∃ z p, links z p i y := by
  induction path with
  | link direct => exact ⟨_, _, direct⟩
  | step _ _ _ ih => exact ih

/-- A path of links that are themselves paths is a path, by induction on the former. -/
theorem Through.expand (path : Through links' inner' x o i y)
    (linked : ∀ {x o i y}, links' x o i y → Through links inner x o i y)
    (included : ∀ z, inner' z → inner z)
    : Through links inner x o i y := by
  induction path with
  | link direct => exact linked direct
  | step first between _ ih => exact (linked first).trans (included _ between) ih

theorem Through.mono (path : Through links inner' x o i y)
    (included : ∀ z, inner' z → inner z)
    : Through links inner x o i y :=
  path.expand .link included

/-- Every link of the rewired graph was a path before, at most over the removed vertex. -/
theorem rewire_through (here : inner removed) (linked : rewire links removed x o i y)
    : Through links inner x o i y := by
  rcases linked with ⟨_, _, kept⟩ | ⟨j, p, before, after⟩
  · exact .link kept
  · exact .step before here (.link after)

/-- Between other vertices, a path over the removed vertex needs it no more once the graph
is rewired. The induction also says how a path that starts at the removed vertex is
continued from each of its predecessors.
-/
theorem Through.contract (path : Through links inner' x o i y)
    (cover : ∀ z, inner' z → z = removed ∨ inner z) (target : y ≠ removed)
    : (x ≠ removed → Through (rewire links removed) inner x o i y)
      ∧ (x = removed
        → ∀ {w q k}, links w q k removed → Through (rewire links removed) inner w q i y) := by
  induction path with
  | link direct =>
      refine ⟨fun source => .link (.inl ⟨source, target, direct⟩), ?_⟩
      rintro rfl w q k enters
      exact .link (.inr ⟨_, _, enters, direct⟩)
  | @step x o j z p i y first between rest ih =>
      obtain ⟨ahead, across⟩ := ih target
      refine ⟨fun source => ?_, ?_⟩
      · by_cases same : z = removed
        · exact across same (same ▸ first)
        · exact .step (.inl ⟨source, same, first⟩) ((cover z between).resolve_left same)
            (ahead same)
      · rintro rfl w q k enters
        by_cases same : z = x
        · exact across same enters
        · exact .step (.inr ⟨_, _, enters, first⟩) ((cover z between).resolve_left same)
            (ahead same)

variable {vertices : List Vertex}

/-- Whatever is linked in the end was joined by a path over removed vertices. -/
theorem rewireAll_through (linked : rewireAll links vertices x o i y)
    : Through links (· ∈ vertices) x o i y := by
  induction vertices generalizing links with
  | nil => exact .link linked
  | cons removed rest ih =>
      exact (ih linked).expand (rewire_through (by simp))
        (fun _ later => List.mem_cons_of_mem removed later)

/-- Vertices that stay are linked in the end whenever such a path joined them. -/
theorem Through.rewireAll (path : Through links (· ∈ vertices) x o i y)
    (source : x ∉ vertices) (target : y ∉ vertices)
    : rewireAll links vertices x o i y := by
  induction vertices generalizing links with
  | nil =>
      cases path with
      | link direct => exact direct
      | step _ between _ => simp at between
  | cons removed rest ih =>
      simp only [List.mem_cons, not_or] at source target
      exact ih ((path.contract (fun _ => List.mem_cons.mp) target.1).1 source.1)
        source.2 target.2

/-- Some removed vertex lies on a closed path of removed vertices. -/
def Cyclic (links : Links Vertex Port) (inner : Vertex → Prop) : Prop :=
  ∃ x o i, inner x ∧ Through links inner x o i x

/-- Without such a cycle no removed vertex is an end of a link that is left. -/
theorem ends_of_rewireAll (acyclic : ¬ Cyclic links (· ∈ vertices))
    (linked : rewireAll links vertices x o i y)
    : x ∉ vertices ∧ y ∉ vertices := by
  induction vertices generalizing links with
  | nil => simp
  | cons removed rest ih =>
      have loopless : ∀ o i, ¬ links removed o i removed := fun o i loop =>
        acyclic ⟨removed, o, i, (.head _), .link loop⟩
      have still : ¬ Cyclic (rewire links removed) (· ∈ rest) := by
        rintro ⟨v, o, i, member, path⟩
        exact acyclic ⟨v, o, i, List.mem_cons_of_mem removed member,
          path.expand (rewire_through (by simp))
            (fun _ later => List.mem_cons_of_mem removed later)⟩
      obtain ⟨sourceStays, targetStays⟩ := ih still linked
      have path : Through (rewire links removed) (· ∈ rest) x o i y :=
        rewireAll_through linked
      obtain ⟨_, _, leaving⟩ := path.leaves
      obtain ⟨_, _, entering⟩ := path.enters
      refine ⟨?_, ?_⟩ <;> simp only [List.mem_cons, not_or]
      · refine ⟨?_, sourceStays⟩
        rintro rfl
        rcases leaving with ⟨differ, _, _⟩ | ⟨_, _, loop, _⟩
        · exact differ rfl
        · exact loopless _ _ loop
      · refine ⟨?_, targetStays⟩
        rintro rfl
        rcases entering with ⟨_, differ, _⟩ | ⟨_, _, _, loop⟩
        · exact differ rfl
        · exact loopless _ _ loop

theorem rewire_loop (loop : links x o i x) : rewire links removed x o i x := by
  by_cases same : x = removed
  · exact .inr ⟨i, o, same ▸ loop, same ▸ loop⟩
  · exact .inl ⟨same, same, loop⟩

theorem rewireAll_loop (loop : links x o i x) : rewireAll links vertices x o i x := by
  induction vertices generalizing links with
  | nil => exact loop
  | cons removed rest ih => exact ih (rewire_loop loop)

/-- A closed path that leaves its first vertex can be started one vertex later. -/
theorem Through.rotate (path : Through links inner x o i x) (here : inner x)
    : links x o i x ∨ ∃ y p j, inner y ∧ Through links inner y p j y
        ∧ ∃ k, links x o k y := by
  cases path with
  | link direct => exact .inl direct
  | @step _ _ j z p _ _ first between rest =>
      exact .inr ⟨z, p, j, between, rest.trans here (.link first), j, first⟩

/-- A cycle of removed vertices leaves one of them linked to itself, by induction on the
vertices: the first of them either has a loop, which stays, or the cycle avoids it.
-/
theorem loop_of_cyclic (cyclic : Cyclic links (· ∈ vertices))
    : ∃ x ∈ vertices, ∃ o i, rewireAll links vertices x o i x := by
  induction vertices generalizing links with
  | nil =>
      obtain ⟨x, o, i, member, _⟩ := cyclic
      simp at member
  | cons removed rest ih =>
      by_cases looped : ∃ o i, links removed o i removed
      · obtain ⟨o, i, loop⟩ := looped
        exact ⟨removed, (.head _), o, i, rewireAll_loop loop⟩
      · have away : ∃ x o i, x ≠ removed ∧ x ∈ removed :: rest
            ∧ Through links (· ∈ removed :: rest) x o i x := by
          obtain ⟨x, o, i, member, path⟩ := cyclic
          by_cases same : x = removed
          · subst same
            rcases path.rotate member with direct | ⟨y, p, j, inside, closed, k, first⟩
            · exact absurd ⟨o, i, direct⟩ looped
            · refine ⟨y, p, j, ?_, inside, closed⟩
              rintro rfl
              exact looped ⟨o, k, first⟩
          · exact ⟨x, o, i, same, member, path⟩
        obtain ⟨x, o, i, differ, member, path⟩ := away
        obtain ⟨y, inside, found⟩ := ih
          ⟨x, o, i, (List.mem_cons.mp member).resolve_left differ,
            (path.contract (fun _ => List.mem_cons.mp) differ).1 differ⟩
        exact ⟨y, List.mem_cons_of_mem removed inside, found⟩

end N8n.Rewiring
