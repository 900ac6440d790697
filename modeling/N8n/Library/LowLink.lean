import N8n.Library.DepthFirst
import Mathlib.Data.List.Chain
import Mathlib.Data.List.Nodup
import Mathlib.Data.List.TakeWhile

/-! Searching for strongly connected components with low links that are taken over from
low links. When a vertex is its own low link, the vertices on top of the stack that have
the same low link become a component. These are all vertices of the component only if the
low links have come down in time, which depends on the order of the search.
-/

namespace N8n.DepthFirst

/-- A search under way: the active vertices with the successors they still have to
examine, the stack with its top first, and the components found.
-/
structure Search (Vertex : Type*) extends Trace Vertex where
  frames : List (Vertex × List Vertex)
  stack : List Vertex
  low : Vertex → Nat
  components : List (List Vertex)

variable {Vertex : Type*} [DecidableEq Vertex] {successors : Vertex → List Vertex}

namespace Search

def start : Search Vertex where
  order := []
  followed := []
  frames := []
  stack := []
  low := fun _ => 0
  components := []

def rank (s : Search Vertex) (v : Vertex) : Nat := s.order.idxOf v

def active (s : Search Vertex) : List Vertex := s.frames.map Prod.fst

/-- The vertex is the next to be searched: at the top level or for the topmost frame. -/
inductive Calls : List (Vertex × List Vertex) → Vertex → Prop
  | root {v} : Calls [] v
  | child {x v pending rest} : Calls ((x, v :: pending) :: rest) v

def enter (successors : Vertex → List Vertex) (s : Search Vertex) (v : Vertex)
    : Search Vertex where
  order := s.order ++ [v]
  followed := s.followed
  frames := (v, successors v) :: s.frames
  stack := v :: s.stack
  low := Function.update s.low v s.order.length
  components := s.components

/-- Takes over the low link of `y` if it is on the stack. -/
def examine (s : Search Vertex) (x y : Vertex) (frames : List (Vertex × List Vertex))
    : Search Vertex where
  order := s.order
  followed := (x, y) :: s.followed
  frames := frames
  stack := s.stack
  low := if y ∈ s.stack then Function.update s.low x (min (s.low y) (s.low x)) else s.low
  components := s.components

/-- The vertices on top of the stack whose low link is the rank of `x`. -/
def popped (s : Search Vertex) (x : Vertex) : List Vertex :=
  s.stack.takeWhile (fun v => s.low v = s.rank x)

/-- Leaves `x`, and takes a component off the stack if `x` is its own low link. -/
def close (s : Search Vertex) (x : Vertex) (frames : List (Vertex × List Vertex))
    : Search Vertex :=
  if s.low x = s.rank x then
    {
      order := s.order
      followed := s.followed
      frames := frames
      stack := s.stack.dropWhile (fun v => s.low v = s.rank x)
      low := s.low
      components :=
        if s.popped x = [] then s.components else s.components ++ [s.popped x]
    }
  else
    { s with frames }

inductive Step (successors : Vertex → List Vertex) : Search Vertex → Search Vertex → Prop
  | enter {s v} (called : Calls s.frames v) (fresh : v ∉ s.order)
    : Step successors s (s.enter successors v)
  | examine {s x y pending rest} (top : s.frames = (x, y :: pending) :: rest)
    (known : y ∈ s.order)
    : Step successors s (s.examine x y ((x, pending) :: rest))
  | close {s x rest} (top : s.frames = (x, []) :: rest)
    : Step successors s (s.close x rest)

def Steps (successors : Vertex → List Vertex) : Search Vertex → Search Vertex → Prop :=
  Relation.ReflTransGen (Step successors)

/-- The bookkeeping that holds in every search, whatever it takes off the stack. -/
structure Coherent (successors : Vertex → List Vertex) (s : Search Vertex) : Prop where
  nodup : s.order.Nodup
  lowLe : ∀ v ∈ s.order, s.low v ≤ s.rank v
  stackKnown : ∀ v ∈ s.stack, v ∈ s.order
  stackSorted : s.stack.Pairwise (fun upper lower => s.rank lower < s.rank upper)
  activeOnStack : ∀ v ∈ s.active, v ∈ s.stack
  activeSorted : s.active.Pairwise (fun upper lower => s.rank lower < s.rank upper)
  chained : s.frames.IsChain (fun upper lower => lower.2.head? = some upper.1)
  pendingEdges : ∀ frame ∈ s.frames, ∀ y ∈ frame.2, y ∈ successors frame.1
  examined : ∀ frame ∈ s.frames, ∀ y ∈ successors frame.1,
    y ∈ frame.2 ∨ (frame.1, y) ∈ s.followed
  finished : ∀ v ∈ s.order, v ∉ s.active → ∀ y ∈ successors v, (v, y) ∈ s.followed
  followedKnown : ∀ edge ∈ s.followed,
    edge.1 ∈ s.order ∧ edge.2 ∈ s.order ∧ edge.2 ∈ successors edge.1

theorem coherent_start : (start : Search Vertex).Coherent successors := by
  constructor <;> simp [start, active]

variable {s s' : Search Vertex} {u v x y : Vertex} {pending : List Vertex}
  {rest : List (Vertex × List Vertex)}

theorem rank_lt (known : v ∈ s.order) : s.rank v < s.order.length :=
  List.idxOf_lt_length_of_mem known

theorem rank_inj (known : v ∈ s.order) (same : s.rank v = s.rank u) : v = u :=
  (List.idxOf_inj known).mp same

theorem rank_enter (known : u ∈ s.order) : (s.enter successors v).rank u = s.rank u :=
  List.idxOf_append_of_mem known

theorem rank_enter_self (fresh : v ∉ s.order)
    : (s.enter successors v).rank v = s.order.length := by
  simp [rank, enter, List.idxOf_append_of_notMem fresh]

theorem low_enter (differ : u ≠ v) : (s.enter successors v).low u = s.low u :=
  Function.update_of_ne differ _ _

theorem low_enter_self : (s.enter successors v).low v = s.order.length :=
  Function.update_self _ _ _

theorem low_examine (differ : u ≠ x) : (s.examine x y rest).low u = s.low u := by
  unfold examine
  split
  · exact Function.update_of_ne differ _ _
  · rfl

theorem low_examine_self
    : (s.examine x y rest).low x
      = if y ∈ s.stack then min (s.low y) (s.low x) else s.low x := by
  unfold examine
  split <;> simp

theorem low_examine_le : (s.examine x y rest).low u ≤ s.low u := by
  by_cases same : u = x
  · subst same
    rw [low_examine_self]
    split
    · exact Nat.min_le_right _ _
    · exact Nat.le_refl _
  · rw [low_examine same]

@[simp] theorem order_close : (s.close x rest).order = s.order := by
  unfold close
  split <;> rfl

@[simp] theorem followed_close : (s.close x rest).followed = s.followed := by
  unfold close
  split <;> rfl

@[simp] theorem frames_close : (s.close x rest).frames = rest := by
  unfold close
  split <;> rfl

@[simp] theorem low_close : (s.close x rest).low = s.low := by
  unfold close
  split <;> rfl

@[simp] theorem toTrace_close : (s.close x rest).toTrace = s.toTrace := by
  unfold close
  split <;> rfl

@[simp] theorem rank_close : (s.close x rest).rank v = s.rank v := by
  simp [rank]

@[simp] theorem active_close : (s.close x rest).active = rest.map Prod.fst := by
  simp [active]

theorem stack_close_sublist : (s.close x rest).stack.Sublist s.stack := by
  unfold close
  split
  · exact List.dropWhile_sublist _
  · exact List.Sublist.refl _

/-- Only vertices with the low link of the closed one leave the stack. -/
theorem mem_stack_close (onStack : v ∈ s.stack) (differ : s.low v ≠ s.rank x)
    : v ∈ (s.close x rest).stack := by
  unfold close
  split
  · have whole
        : s.popped x ++ s.stack.dropWhile (fun v => s.low v = s.rank x) = s.stack :=
      List.takeWhile_append_dropWhile
    rw [← whole] at onStack
    rcases List.mem_append.mp onStack with taken | left
    · have same := List.mem_takeWhile_imp taken
      exact absurd (by simpa using same) differ
    · exact left
  · exact onStack

omit [DecidableEq Vertex] in
theorem active_of_top (top : s.frames = (x, pending) :: rest)
    : s.active = x :: rest.map Prod.fst := by
  simp [active, top]

theorem Coherent.below_top (coherent : s.Coherent successors)
    (top : s.frames = (x, pending) :: rest) {g : Vertex} (below : g ∈ rest.map Prod.fst)
    : s.rank g < s.rank x := by
  have sorted := coherent.activeSorted
  rw [active_of_top top] at sorted
  exact (List.pairwise_cons.mp sorted).1 g below

theorem Coherent.enter (coherent : s.Coherent successors) (called : Calls s.frames v)
    (fresh : v ∉ s.order)
    : (s.enter successors v).Coherent successors where
  nodup := by
    refine List.nodup_append.mpr ⟨coherent.nodup, List.nodup_singleton v, ?_⟩
    rintro u known _ here rfl
    exact fresh (List.mem_singleton.mp here ▸ known)
  lowLe := by
    intro u known
    rcases List.mem_append.mp known with old | new
    · have differ : u ≠ v := fun same => fresh (same ▸ old)
      rw [low_enter differ, rank_enter old]
      exact coherent.lowLe u old
    · obtain rfl := List.mem_singleton.mp new
      rw [low_enter_self, rank_enter_self fresh]
  stackKnown := by
    intro u onStack
    rcases List.mem_cons.mp onStack with rfl | old
    · simp [Search.enter]
    · exact List.mem_append_left _ (coherent.stackKnown u old)
  stackSorted := by
    refine List.pairwise_cons.mpr ⟨?_, ?_⟩
    · intro u onStack
      rw [rank_enter (coherent.stackKnown u onStack), rank_enter_self fresh]
      exact rank_lt (coherent.stackKnown u onStack)
    · refine coherent.stackSorted.imp_of_mem ?_
      intro upper lower upperMember lowerMember less
      rw [rank_enter (coherent.stackKnown _ upperMember),
        rank_enter (coherent.stackKnown _ lowerMember)]
      exact less
  activeOnStack := by
    intro u active
    rcases List.mem_cons.mp active with rfl | old
    · exact (.head _)
    · exact List.mem_cons_of_mem v (coherent.activeOnStack u old)
  activeSorted := by
    have known : ∀ u ∈ s.active, u ∈ s.order := fun u active =>
      coherent.stackKnown u (coherent.activeOnStack u active)
    refine List.pairwise_cons.mpr ⟨?_, ?_⟩
    · intro u active
      rw [rank_enter (known u active), rank_enter_self fresh]
      exact rank_lt (known u active)
    · refine coherent.activeSorted.imp_of_mem ?_
      intro upper lower upperMember lowerMember less
      rw [rank_enter (known _ upperMember), rank_enter (known _ lowerMember)]
      exact less
  chained := by
    have chained := coherent.chained
    cases frames : s.frames with
    | nil => simp [Search.enter, frames]
    | cons frame below =>
        rw [frames] at called chained
        cases called with
        | child => simpa [Search.enter, frames] using chained
  pendingEdges := by
    intro frame member
    rcases List.mem_cons.mp member with rfl | old
    · exact fun y here => here
    · exact coherent.pendingEdges frame old
  examined := by
    intro frame member
    rcases List.mem_cons.mp member with rfl | old
    · exact fun y edge => .inl edge
    · exact coherent.examined frame old
  finished := by
    intro u known inactive
    simp only [active, Search.enter, List.map_cons, List.mem_cons, not_or] at inactive
    rcases List.mem_append.mp known with old | new
    · exact coherent.finished u old inactive.2
    · exact absurd (List.mem_singleton.mp new) inactive.1
  followedKnown := by
    intro edge member
    obtain ⟨source, target, real⟩ := coherent.followedKnown edge member
    exact ⟨List.mem_append_left _ source, List.mem_append_left _ target, real⟩

theorem Coherent.examine (coherent : s.Coherent successors)
    (top : s.frames = (x, y :: pending) :: rest) (known : y ∈ s.order)
    : (s.examine x y ((x, pending) :: rest)).Coherent successors where
  nodup := coherent.nodup
  lowLe := fun u visited => Nat.le_trans low_examine_le (coherent.lowLe u visited)
  stackKnown := coherent.stackKnown
  stackSorted := coherent.stackSorted
  activeOnStack := by
    have onStack := coherent.activeOnStack
    rw [active_of_top top] at onStack
    exact onStack
  activeSorted := by
    have sorted := coherent.activeSorted
    rw [active_of_top top] at sorted
    exact sorted
  chained := by
    have chained := coherent.chained
    rw [top] at chained
    cases rest with
    | nil => simp [Search.examine]
    | cons frame below =>
        simp only [Search.examine, List.isChain_cons_cons] at chained ⊢
        exact chained
  pendingEdges := by
    intro frame member
    have edges := coherent.pendingEdges
    rw [top] at edges
    rcases List.mem_cons.mp member with rfl | below
    · exact fun z here => edges (x, y :: pending) (by simp) z (.tail _ here)
    · exact edges frame (.tail _ below)
  examined := by
    intro frame member z edge
    have examined := coherent.examined
    rw [top] at examined
    rcases List.mem_cons.mp member with rfl | below
    · rcases examined (x, y :: pending) (by simp) z edge with waiting | done
      · rcases List.mem_cons.mp waiting with rfl | later
        · exact .inr (.head _)
        · exact .inl later
      · exact .inr (.tail _ done)
    · exact (examined frame (.tail _ below) z edge).imp_right
        (List.mem_cons_of_mem _)
  finished := by
    intro u visited inactive z edge
    refine List.mem_cons_of_mem _ (coherent.finished u visited ?_ z edge)
    rw [active_of_top top]
    exact inactive
  followedKnown := by
    intro edge member
    rcases List.mem_cons.mp member with rfl | old
    · have active : x ∈ s.active := by simp [active_of_top top]
      exact ⟨coherent.stackKnown x (coherent.activeOnStack x active), known,
        coherent.pendingEdges (x, y :: pending) (by simp [top]) y (by simp)⟩
    · exact coherent.followedKnown edge old

theorem Coherent.close (coherent : s.Coherent successors) (top : s.frames = (x, []) :: rest)
    : (s.close x rest).Coherent successors where
  nodup := by simpa using coherent.nodup
  lowLe := by simpa using coherent.lowLe
  stackKnown := by
    intro u onStack
    simpa using coherent.stackKnown u (stack_close_sublist.subset onStack)
  stackSorted := by simpa using coherent.stackSorted.sublist stack_close_sublist
  activeOnStack := by
    intro g below
    rw [active_close] at below
    have onStack := coherent.activeOnStack g (by simp [active_of_top top, below])
    -- an active vertex below has an earlier rank, so its low link is none of those popped
    have earlier := coherent.below_top top below
    have lowLe := coherent.lowLe g (coherent.stackKnown g onStack)
    exact mem_stack_close onStack (by omega)
  activeSorted := by
    have sorted := coherent.activeSorted
    rw [active_of_top top] at sorted
    simpa using (List.pairwise_cons.mp sorted).2
  chained := by
    have chained := coherent.chained
    rw [top] at chained
    simpa using chained.tail
  pendingEdges := by
    intro frame member
    rw [frames_close] at member
    exact coherent.pendingEdges frame (by simp [top, member])
  examined := by
    intro frame member
    rw [frames_close] at member
    simpa using coherent.examined frame (by simp [top, member])
  finished := by
    intro u visited inactive z edge
    rw [order_close] at visited
    rw [active_close] at inactive
    rw [followed_close]
    by_cases same : u = x
    · subst same
      have done := coherent.examined (u, []) (by simp [top]) z edge
      simpa using done
    · exact coherent.finished u visited (by simp [active_of_top top, same, inactive]) z edge
  followedKnown := by simpa using coherent.followedKnown

theorem Step.order_mono (step : Step successors s s') (known : v ∈ s.order) : v ∈ s'.order := by
  cases step with
  | enter _ _ => exact List.mem_append_left _ known
  | examine _ _ => exact known
  | close _ => simpa using known

theorem Steps.order_mono (steps : Steps successors s s') (known : v ∈ s.order)
    : v ∈ s'.order := by
  induction steps with
  | refl => exact known
  | tail _ step ih => exact step.order_mono ih

theorem Step.coherent (step : Step successors s s') (coherent : s.Coherent successors)
    : s'.Coherent successors := by
  cases step with
  | enter called fresh => exact coherent.enter called fresh
  | examine top known => exact coherent.examine top known
  | close top => exact coherent.close top

theorem Steps.coherent (steps : Steps successors s s') (coherent : s.Coherent successors)
    : s'.Coherent successors := by
  induction steps with
  | refl => exact coherent
  | tail _ step ih => exact step.coherent ih

end Search

end N8n.DepthFirst
