import Mathlib.Data.Set.Insert
import Mathlib.Data.List.Nodup

/-! Paths that enter no place twice, and the first of them when the edges that leave each
place are in an order.
-/

namespace N8n.Library

/-- A graph by the lists of the edges that leave its places. -/
structure EdgeGraph (V E : Type) where
  source : E → V
  target : E → V
  leaving : V → List E
  source_leaving : ∀ v, ∀ e ∈ leaving v, source e = v
  nodup_leaving : ∀ v, (leaving v).Nodup

namespace EdgeGraph

variable {V E : Type} (graph : EdgeGraph V E)

/-- A path starts with one of the edges `todo`, and enters no place that it has entered or is to
avoid.
-/
inductive Path : Set V → List E → List E → V → Prop where
  | last {avoided : Set V} {todo : List E} {e : E} (starts : e ∈ todo)
    (new : graph.target e ∉ avoided) : Path avoided todo [e] (graph.target e)
  | step {avoided : Set V} {todo path : List E} {e : E} {v : V} (starts : e ∈ todo)
    (new : graph.target e ∉ avoided)
    (rest : Path (insert (graph.target e) avoided) (graph.leaving (graph.target e)) path v)
    : Path avoided todo (e :: path) v

/-- Of two paths the one comes before that takes the earlier edge where they part. -/
inductive Before : List E → List E → List E → Prop where
  | earlier {todo first second : List E} {e f : E} (order : [e, f].Sublist todo)
    : Before todo (e :: first) (f :: second)
  | later {todo first second : List E} {e : E}
    (rest : Before (graph.leaving (graph.target e)) first second)
    : Before todo (e :: first) (e :: second)

/-- The path to the place that comes before all others. -/
structure IsFirstPath (avoided : Set V) (todo path : List E) (v : V) : Prop where
  walked : graph.Path avoided todo path v
  first : ∀ other, graph.Path avoided todo other v → other = path ∨ graph.Before todo path other

variable {graph} {avoided : Set V} {todo done more path first second : List E} {e f : E} {v : V}

theorem Path.not_mem (walked : graph.Path avoided todo path v) : v ∉ avoided := by
  induction walked with
  | last _ new => exact new
  | step _ _ _ ih => exact fun inside => ih (Set.mem_insert_of_mem _ inside)

theorem Path.exists_head (walked : graph.Path avoided todo path v)
    : ∃ e rest, path = e :: rest ∧ e ∈ todo := by
  cases walked with
  | last starts _ => exact ⟨_, [], rfl, starts⟩
  | step starts _ _ => exact ⟨_, _, rfl, starts⟩

theorem Path.start (walked : graph.Path avoided todo (e :: path) v) (among : e ∈ done)
    : graph.Path avoided done (e :: path) v := by
  cases walked with
  | last _ new => exact .last among new
  | step _ new rest => exact .step among new rest

section

variable (walked : graph.Path avoided todo path v)

include walked

theorem Path.mono (subset : todo ⊆ more)
    : graph.Path avoided more path v := by
  obtain ⟨e, rest, rfl, starts⟩ := walked.exists_head
  exact walked.start (subset starts)

theorem Path.anti {fewer : Set V} (subset : fewer ⊆ avoided)
    : graph.Path fewer todo path v := by
  induction walked generalizing fewer with
  | last starts new => exact .last starts (fun inside => new (subset inside))
  | step starts new _ ih =>
      exact .step starts (fun inside => new (subset inside)) (ih (Set.insert_subset_insert subset))

/-- A path ends in a region that it enters, where nothing leaves the region but to places that
it avoids; by induction over the path.
-/
theorem Path.ends_inside {region outside : Set V} (avoids : outside ⊆ avoided)
    (enters : ∀ e ∈ todo, graph.target e ∈ region ∪ outside)
    (closed : ∀ w ∈ region, ∀ e ∈ graph.leaving w, graph.target e ∈ region ∪ outside)
    : v ∈ region := by
  induction walked with
  | last starts new =>
      exact (enters _ starts).resolve_right (fun inside => new (avoids inside))
  | step starts new _ ih =>
      have inside := (enters _ starts).resolve_right (fun inside => new (avoids inside))
      exact ih (avoids.trans (Set.subset_insert _ _)) (closed _ inside)

theorem Path.avoids_region {region outside : Set V} (avoids : outside ⊆ avoided)
    (closed : ∀ w ∈ region, ∀ e ∈ graph.leaving w, graph.target e ∈ region ∪ outside)
    (ends : v ∉ region)
    : graph.Path (avoided ∪ region) todo path v := by
  induction walked with
  | last starts new => exact .last starts (fun inside => inside.elim new ends)
  | @step avoided todo path e v starts new rest ih =>
      have grown := avoids.trans (Set.subset_insert (graph.target e) avoided)
      have apart : graph.target e ∉ region :=
        fun inside => ends (rest.ends_inside grown (closed _ inside) closed)
      refine .step starts (fun inside => inside.elim new apart) ?_
      rw [← Set.insert_union]
      exact ih grown ends

end

theorem Before.mono (before : graph.Before todo first second) (sublist : todo.Sublist more)
    : graph.Before more first second := by
  cases before with
  | earlier order => exact .earlier (order.trans sublist)
  | later rest => exact .later rest

theorem not_sublist_of_nodup (distinct : todo.Nodup) (order : [e, f].Sublist todo)
    : ¬ [f, e].Sublist todo := by
  induction todo with
  | nil => cases order
  | cons head rest ih =>
      obtain ⟨absent, distinctRest⟩ := List.nodup_cons.mp distinct
      intro back
      cases order with
      | cons _ inRest =>
          cases back with
          | cons _ backInRest => exact ih distinctRest inRest backInRest
          | cons_cons _ single => exact absent (inRest.subset (by simp))
      | cons_cons _ single =>
          cases back with
          | cons _ backInRest => exact absent (backInRest.subset (by simp))
          | cons_cons _ _ => exact absent (List.singleton_sublist.mp single)

theorem Before.asymm (before : graph.Before todo first second) (distinct : todo.Nodup)
    : ¬ graph.Before todo second first := by
  have differ {todo : List E} {e : E} (distinct : todo.Nodup) : ¬ [e, e].Sublist todo :=
    fun order => not_sublist_of_nodup distinct order order
  induction before with
  | earlier order =>
      intro back
      cases back with
      | earlier backOrder => exact not_sublist_of_nodup distinct order backOrder
      | later _ => exact differ distinct order
  | later rest ih =>
      intro back
      cases back with
      | earlier backOrder => exact differ distinct backOrder
      | later backRest => exact ih (graph.nodup_leaving _) backRest

theorem IsFirstPath.unique (distinct : todo.Nodup) (one : graph.IsFirstPath avoided todo first v)
    (other : graph.IsFirstPath avoided todo second v)
    : first = second := by
  rcases one.first second other.walked with same | before
  · exact same.symm
  · rcases other.first first one.walked with same | after
    · exact same
    · exact absurd after (before.asymm distinct)

/-- The first path that starts with the only edge goes on as the first path from there. -/
theorem IsFirstPath.cons (new : graph.target e ∉ avoided) (apart : v ≠ graph.target e)
    (further : graph.IsFirstPath (insert (graph.target e) avoided)
      (graph.leaving (graph.target e)) path v)
    : graph.IsFirstPath avoided [e] (e :: path) v where
  walked := .step (List.mem_singleton_self e) new further.walked
  first other walked := by
    cases walked with
    | last starts _ => exact absurd (congrArg graph.target (List.mem_singleton.mp starts)) apart
    | step starts _ rest =>
        obtain rfl := List.mem_singleton.mp starts
        exact (further.first _ rest).imp (congrArg _) .later

theorem IsFirstPath.single (new : graph.target e ∉ avoided)
    : graph.IsFirstPath avoided [e] [e] (graph.target e) where
  walked := .last (List.mem_singleton_self e) new
  first other walked := by
    generalize end_ : graph.target e = v at walked
    cases walked with
    | last starts _ => exact .inl (congrArg ([·]) (List.mem_singleton.mp starts))
    | step starts _ rest =>
        obtain rfl := List.mem_singleton.mp starts
        exact absurd (end_ ▸ Set.mem_insert _ _) rest.not_mem

/-- More edges to start with behind the others leave a first path first. -/
theorem IsFirstPath.append (one : graph.IsFirstPath avoided done path v)
    : graph.IsFirstPath avoided (done ++ more) path v where
  walked := one.walked.mono (List.subset_append_left done more)
  first other walked := by
    obtain ⟨f, rest, rfl, starts⟩ := walked.exists_head
    by_cases among : f ∈ done
    · exact (one.first _ (walked.start among)).imp_right
        (Before.mono · (List.sublist_append_left done more))
    · have behind := (List.mem_append.mp starts).resolve_left among
      obtain ⟨e, _, rfl, front⟩ := one.walked.exists_head
      refine .inr (.earlier ?_)
      exact (List.singleton_sublist.mpr front).append (List.singleton_sublist.mpr behind)

/-- The edges in front that lead into a closed region alone leave a first path to another place
first.
-/
theorem IsFirstPath.prepend {region : Set V}
    (enters : ∀ e ∈ done, graph.target e ∈ region ∪ avoided)
    (closed : ∀ w ∈ region, ∀ e ∈ graph.leaving w, graph.target e ∈ region ∪ avoided)
    (one : graph.IsFirstPath (avoided ∪ region) more path v)
    : graph.IsFirstPath avoided (done ++ more) path v where
  walked := (one.walked.anti Set.subset_union_left).mono (List.subset_append_right done more)
  first other walked := by
    obtain ⟨f, rest, rfl, starts⟩ := walked.exists_head
    have ends : v ∉ region := fun inside => one.walked.not_mem (.inr inside)
    rcases List.mem_append.mp starts with front | behind
    · exact absurd ((walked.start (List.mem_singleton_self f)).ends_inside subset_rfl
        (by simpa using enters f front) closed) ends
    · have apart := (walked.start behind).avoids_region subset_rfl closed ends
      exact (one.first _ apart).imp_right (Before.mono · (List.sublist_append_right done more))

end EdgeGraph

end N8n.Library
