import Mathlib.Data.List.Induction
import Mathlib.Data.List.Nodup
import Mathlib.Logic.Relation

/-! Searches back from a vertex that follow every way until it meets a goal or a vertex that
it has come through before. The edges on the ways that end so are those from which the start
can be reached and which can be reached from the goal or from some loop.
-/

namespace N8n.Library

variable {Vertex Edge : Type*} (source target : Edge → Vertex) (isEdge : Edge → Prop)
variable (start goal : Vertex)

/-- A way back from `start`, with its edges in the order of the search, and the vertex that
it has come to. It comes through no vertex twice, and not through the goal.
-/
inductive Trail : List Edge → Vertex → Prop where
  | nil : Trail [] start
  | snoc {trail : List Edge} {edge : Edge}
    : Trail trail (target edge) → isEdge edge → target edge ≠ goal
      → target edge ∉ trail.map target → Trail (trail ++ [edge]) (source edge)

/-- The way has come to the goal, or again to a vertex behind the start. -/
def Ended (trail : List Edge) (last : Vertex) : Prop :=
  last = goal ∨ last ≠ start ∧ last ∈ trail.map target

/-- Some edge leads from the one vertex to the other. -/
def Link (first second : Vertex) : Prop :=
  ∃ edge, isEdge edge ∧ source edge = first ∧ target edge = second ∧ first ≠ start

/-- Besides, it does not lead to the goal. -/
def Forth (first second : Vertex) : Prop :=
  Link source target isEdge start first second ∧ second ≠ goal

/-- The vertex can be reached from the goal or from a loop. -/
def Fed (vertex : Vertex) : Prop :=
  ∃ origin,
    (origin = goal ∨ Relation.TransGen (Forth source target isEdge start goal) origin origin)
    ∧ Relation.ReflTransGen (Forth source target isEdge start goal) origin vertex

/-- An edge is on its way from the goal or a loop to the start. -/
structure OnWay (edge : Edge) : Prop where
  here : isEdge edge
  notStart : source edge ≠ start
  notGoal : target edge ≠ goal
  fed : Fed source target isEdge start goal (source edge)
  reaches : Relation.ReflTransGen (Forth source target isEdge start goal) (target edge) start

/-- An edge is on a path from the goal to the start that does not come through the start. -/
structure OnPath (edge : Edge) : Prop where
  here : isEdge edge
  notStart : source edge ≠ start
  leaves : Relation.ReflTransGen (Link source target isEdge start) goal (source edge)
  reaches : Relation.ReflTransGen (Link source target isEdge start) (target edge) start

variable {source target isEdge start goal} {trail : List Edge} {edge : Edge} {last : Vertex}

section

variable (way : Trail source target isEdge start goal trail last)

include way

theorem Trail.nodup
    : (trail.map target).Nodup := by
  induction way with
  | nil => exact .nil
  | snoc _ _ _ fresh ih =>
      rw [List.map_append, List.map_singleton]
      exact ih.append (List.nodup_singleton _) (List.disjoint_singleton.mpr fresh)

theorem Trail.edges
    : ∀ edge ∈ trail, isEdge edge ∧ target edge ≠ goal := by
  induction way with
  | nil => simp
  | snoc _ isEdge notGoal _ ih =>
      intro edge member
      rcases List.mem_append.mp member with earlier | same
      · exact ih edge earlier
      · obtain rfl := List.mem_singleton.mp same
        exact ⟨isEdge, notGoal⟩

end

theorem Trail.eq_start (way : Trail source target isEdge start goal [] last) : last = start := by
  generalize same : ([] : List Edge) = whole at way
  cases way with
  | nil => rfl
  | snoc => simp at same

section

variable (way : Trail source target isEdge start goal trail last) (moved : trail ≠ [])

include way moved

/-- A trail that has left the start has come along an edge. -/
theorem Trail.exists_last
    : ∃ edge ∈ trail, source edge = last := by
  cases way with
  | nil => contradiction
  | @snoc trail edge => exact ⟨edge, by simp, rfl⟩

theorem Trail.start_mem
    : start ∈ trail.map target := by
  induction way with
  | nil => contradiction
  | @snoc trail edge way _ _ _ ih =>
      rw [List.map_append]
      cases trail with
      | nil => simp [way.eq_start]
      | cons first rest => exact List.mem_append_left _ (ih (by simp))

end

/-- Each edge of a trail continues the trail in front of it. -/
theorem Trail.split {rest : List Edge}
    (way : Trail source target isEdge start goal (trail ++ edge :: rest) last)
    : Trail source target isEdge start goal trail (target edge)
      ∧ isEdge edge ∧ target edge ≠ goal ∧ target edge ∉ trail.map target := by
  induction rest using List.reverseRecOn generalizing last with
  | nil =>
      generalize same : trail ++ [edge] = whole at way
      cases way with
      | nil => simp at same
      | snoc before isEdge notGoal fresh =>
          obtain ⟨rfl, rfl⟩ := List.append_singleton_inj.mp same
          exact ⟨before, isEdge, notGoal, fresh⟩
  | append_singleton rest final ih =>
      generalize same : trail ++ edge :: (rest ++ [final]) = whole at way
      cases way with
      | nil => simp at same
      | snoc before _ _ _ =>
          rw [← List.cons_append, ← List.append_assoc] at same
          obtain ⟨rfl, rfl⟩ := List.append_singleton_inj.mp same
          exact ih before

section

variable (way : Trail source target isEdge start goal trail last)

include way

theorem Trail.last_unique {other : Vertex}
    (again : Trail source target isEdge start goal trail other)
    : last = other := by
  cases way with
  | nil =>
      generalize same : ([] : List Edge) = whole at again
      cases again with
      | nil => rfl
      | snoc => simp at same
  | @snoc trail edge =>
      generalize same : trail ++ [edge] = whole at again
      cases again with
      | nil => simp at same
      | snoc =>
          obtain ⟨_, rfl⟩ := List.append_singleton_inj.mp same
          rfl

/-- A trail does not go on from the goal or from a vertex that it has come through. -/
theorem Trail.eq_of_prefix {longer : List Edge} {final : Vertex}
    (stops : last = goal ∨ last ∈ trail.map target)
    (longerWay : Trail source target isEdge start goal longer final) (isPrefix : trail <+: longer)
    : longer = trail := by
  obtain ⟨rest, rfl⟩ := isPrefix
  cases rest with
  | nil => simp
  | cons edge rest =>
      obtain ⟨before, _, notGoal, fresh⟩ := longerWay.split
      obtain rfl := way.last_unique before
      rcases stops with isGoal | again
      · contradiction
      · contradiction

end

variable {vertex : Vertex}

section

variable (way : Trail source target isEdge start goal trail last)

include way

theorem Trail.cut (member : vertex ∈ trail.map target)
    : ∃ front, Trail source target isEdge start goal front vertex
        ∧ vertex ∉ front.map target := by
  obtain ⟨edge, here, rfl⟩ := List.mem_map.mp member
  obtain ⟨front, rest, rfl⟩ := List.append_of_mem here
  obtain ⟨before, _, _, fresh⟩ := way.split
  exact ⟨front, before, fresh⟩

/-- From where a trail has come to, the start can be reached, by induction on the trail. -/
theorem Trail.reaches
    : Relation.ReflTransGen (Forth source target isEdge start goal) last start := by
  induction way with
  | nil => exact .refl
  | @snoc trail edge way here notGoal _ ih =>
      by_cases back : source edge = start
      · exact back ▸ .refl
      · exact ih.head ⟨⟨edge, here, rfl, rfl, back⟩, notGoal⟩

/-- From where a trail has come to, unless that is the start, each of its edges can be
reached.
-/
theorem Trail.reaches_source (away : last ≠ start)
    : ∀ edge ∈ trail, source edge ≠ start
        ∧ Relation.ReflTransGen (Forth source target isEdge start goal) last
            (source edge) := by
  induction way with
  | nil => simp
  | @snoc trail final way here notGoal fresh ih =>
      intro edge member
      rcases List.mem_append.mp member with earlier | same
      · have behind : target final ≠ start := by
          intro same
          exact fresh (same ▸ way.start_mem (List.ne_nil_of_mem earlier))
        obtain ⟨notStart, path⟩ := ih behind edge earlier
        exact ⟨notStart, path.head ⟨⟨final, here, rfl, rfl, away⟩, notGoal⟩⟩
      · obtain rfl := List.mem_singleton.mp same
        exact ⟨away, .refl⟩

/-- A vertex that a trail comes through again lies on a loop. -/
theorem Trail.loop (away : last ≠ start) (again : last ∈ trail.map target)
    : Relation.TransGen (Forth source target isEdge start goal) last last := by
  obtain ⟨edge, member, same⟩ := List.mem_map.mp again
  obtain ⟨notStart, path⟩ := way.reaches_source away edge member
  obtain ⟨here, notGoal⟩ := way.edges edge member
  refine .tail' path ?_
  exact ⟨⟨edge, here, rfl, same, notStart⟩, same ▸ notGoal⟩

theorem Trail.onWay (ended : Ended target start goal trail last) (member : edge ∈ trail)
    : OnWay source target isEdge start goal edge := by
  obtain ⟨front, rest, rfl⟩ := List.append_of_mem member
  obtain ⟨before, here, notGoal, _⟩ := way.split
  have away : last ≠ start := by
    rcases ended with rfl | ⟨away, _⟩
    · obtain ⟨first, inside, same⟩ := List.mem_map.mp (way.start_mem (by simp))
      exact same ▸ (way.edges first inside).2.symm
    · exact away
  obtain ⟨notStart, path⟩ := way.reaches_source away edge member
  refine ⟨here, notStart, notGoal, ⟨last, ?_, path⟩, before.reaches⟩
  rcases ended with isGoal | ⟨_, again⟩
  · exact .inl isGoal
  · exact .inr (way.loop away again)

end

/-- Whatever is fed from afar is fed by a vertex in front of it. -/
theorem Fed.exists_previous (fed : Fed source target isEdge start goal vertex)
    (notGoal : vertex ≠ goal)
    : ∃ previous, Forth source target isEdge start goal previous vertex
        ∧ Fed source target isEdge start goal previous := by
  obtain ⟨origin, source_, path⟩ := fed
  rcases Relation.ReflTransGen.cases_tail path with same | ⟨previous, path, forth⟩
  · obtain rfl := same
    have loop := source_.resolve_left notGoal
    obtain ⟨previous, path, forth⟩ := Relation.TransGen.tail'_iff.mp loop
    exact ⟨previous, forth, _, source_, path⟩
  · exact ⟨previous, forth, origin, source_, path⟩

/-- A vertex from which the start can be reached is come to by a trail that does not come
through it, by induction on the path.
-/
theorem exists_trail
    (path : Relation.ReflTransGen (Forth source target isEdge start goal) vertex start)
    : ∃ trail, Trail source target isEdge start goal trail vertex
        ∧ vertex ∉ trail.map target := by
  induction path using Relation.ReflTransGen.head_induction_on with
  | refl => exact ⟨[], .nil, by simp⟩
  | @head vertex next forth _ ih =>
      obtain ⟨trail, way, fresh⟩ := ih
      obtain ⟨⟨edge, here, rfl, rfl, _⟩, notGoal⟩ := forth
      have longer := way.snoc here notGoal fresh
      by_cases again : source edge ∈ (trail ++ [edge]).map target
      · exact longer.cut again
      · exact ⟨_, longer, again⟩

section Finite

variable {all : List Vertex}

variable (finite : ∀ edge, isEdge edge → target edge ∈ all)

include finite

theorem Trail.length_le (way : Trail source target isEdge start goal trail last)
    : trail.length ≤ all.length := by
  have inside : trail.map target ⊆ all := by
    intro vertex member
    obtain ⟨edge, here, rfl⟩ := List.mem_map.mp member
    exact finite edge (way.edges edge here).1
  simpa using way.nodup.length_le_of_subset inside

/-- A trail to a fed vertex can be continued to its end, by induction on what is left of the
vertices.
-/
theorem Trail.exists_ended (way : Trail source target isEdge start goal trail last)
    (away : last ≠ start) (fed : Fed source target isEdge start goal last)
    : ∃ longer final,
        trail <+: longer ∧ Trail source target isEdge start goal longer final
        ∧ Ended target start goal longer final := by
  obtain ⟨left, enough⟩ : ∃ left, all.length < left + trail.length :=
    ⟨all.length + 1, by omega⟩
  induction left generalizing trail last with
  | zero =>
      have few := way.length_le finite
      omega
  | succ left ih =>
      by_cases isGoal : last = goal
      · exact ⟨trail, last, List.prefix_refl _, way, .inl isGoal⟩
      by_cases again : last ∈ trail.map target
      · exact ⟨trail, last, List.prefix_refl _, way, .inr ⟨away, again⟩⟩
      obtain ⟨previous, ⟨⟨edge, here, rfl, rfl, notStart⟩, notGoal⟩, fedBefore⟩ :=
        fed.exists_previous isGoal
      have next := way.snoc here notGoal again
      have enoughLeft : all.length < left + (trail ++ [edge]).length := by
        rw [List.length_append, List.length_singleton]
        omega
      obtain ⟨longer, final, isPrefix, rest⟩ := ih next notStart fedBefore enoughLeft
      exact ⟨longer, final, (List.prefix_append _ _).trans isPrefix, rest⟩

/-- The edges of the trails that end are those on their way from the goal or a loop to the
start.
-/
theorem mem_ended_trail_iff
    : (∃ trail last,
        Trail source target isEdge start goal trail last ∧ Ended target start goal trail last
        ∧ edge ∈ trail)
      ↔ OnWay source target isEdge start goal edge := by
  constructor
  · rintro ⟨trail, last, way, ended, member⟩
    exact way.onWay ended member
  · intro onWay
    obtain ⟨trail, way, fresh⟩ := exists_trail onWay.reaches
    have next := way.snoc onWay.here onWay.notGoal fresh
    obtain ⟨longer, final, isPrefix, whole, ended⟩ :=
      next.exists_ended finite onWay.notStart onWay.fed
    exact ⟨longer, final, whole, ended, isPrefix.subset (by simp)⟩

end Finite

theorem link_of_forth {first second : Vertex}
    (path : Relation.ReflTransGen (Forth source target isEdge start goal) first second)
    : Relation.ReflTransGen (Link source target isEdge start) first second := by
  induction path with
  | refl => exact .refl
  | tail _ forth ih => exact ih.tail forth.1

/-- What can be reached from the goal can be reached without coming back to it, by induction
on the path, whose part in front of the last visit is dropped.
-/
theorem forth_of_goal (path : Relation.ReflTransGen (Link source target isEdge start) goal vertex)
    : Relation.ReflTransGen (Forth source target isEdge start goal) goal vertex := by
  induction path with
  | refl => exact .refl
  | @tail before vertex _ link ih =>
      by_cases back : vertex = goal
      · exact back ▸ .refl
      · exact ih.tail ⟨link, back⟩

/-- If no edge into the goal is on a path, the rest of a path does not come to the goal. -/
theorem forth_of_reaches (apart : ∀ edge, OnPath source target isEdge start goal edge
    → target edge ≠ goal)
    (path : Relation.ReflTransGen (Link source target isEdge start) vertex start)
    (before : Relation.ReflTransGen (Link source target isEdge start) goal vertex)
    : Relation.ReflTransGen (Forth source target isEdge start goal) vertex start := by
  induction path using Relation.ReflTransGen.head_induction_on with
  | refl => exact .refl
  | head link rest ih =>
      have next := ih (before.tail link)
      obtain ⟨edge, here, rfl, rfl, notStart⟩ := link
      have unbarred := apart edge ⟨here, notStart, before, rest⟩
      exact next.head ⟨⟨edge, here, rfl, rfl, notStart⟩, unbarred⟩

/-- The edges on their way are those on paths from the goal exactly when every loop on the
way to the start can be reached from the goal and no path comes back to the goal.
-/
theorem onWay_iff_onPath
    : (∀ edge, OnWay source target isEdge start goal edge
        ↔ OnPath source target isEdge start goal edge)
      ↔ (∀ vertex,
          Relation.TransGen (Forth source target isEdge start goal) vertex vertex
          → Relation.ReflTransGen (Forth source target isEdge start goal) vertex start
          → Relation.ReflTransGen (Forth source target isEdge start goal) goal vertex)
        ∧ ∀ edge, OnPath source target isEdge start goal edge → target edge ≠ goal := by
  constructor
  · intro same
    refine ⟨?_, fun edge onPath => ((same edge).mpr onPath).notGoal⟩
    intro vertex loop path
    obtain ⟨previous, around, forth⟩ := Relation.TransGen.tail'_iff.mp loop
    have ⟨⟨edge, here, from_, to_, notStart⟩, notGoal⟩ := forth
    subst from_ to_
    have onPath := (same edge).mp ⟨here, notStart, notGoal, ⟨_, .inr loop, around⟩, path⟩
    exact (forth_of_goal onPath.leaves).tail forth
  · rintro ⟨loops, apart⟩ edge
    constructor
    · intro onWay
      obtain ⟨origin, isGoal | loop, path⟩ := onWay.fed
      · exact ⟨onWay.here, onWay.notStart, link_of_forth (isGoal ▸ path),
          link_of_forth onWay.reaches⟩
      · have forth : Forth source target isEdge start goal (source edge) (target edge) :=
          ⟨⟨edge, onWay.here, rfl, rfl, onWay.notStart⟩, onWay.notGoal⟩
        have fromGoal := loops origin loop (path.trans (onWay.reaches.head forth))
        exact ⟨onWay.here, onWay.notStart, link_of_forth (fromGoal.trans path),
          link_of_forth onWay.reaches⟩
    · intro onPath
      have link : Link source target isEdge start (source edge) (target edge) :=
        ⟨edge, onPath.here, rfl, rfl, onPath.notStart⟩
      exact {
        here := onPath.here
        notStart := onPath.notStart
        notGoal := apart edge onPath
        fed := ⟨goal, .inl rfl, forth_of_goal onPath.leaves⟩
        reaches := forth_of_reaches apart onPath.reaches (onPath.leaves.tail link)
      }

end N8n.Library
