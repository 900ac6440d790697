import N8n.Library.LowLink

/-! When a search with low links finds the strongly connected components. As long as every
component taken off the stack is whole, the search stays on course. Once the vertices on
top of a closed root do not all have its low link, the root is never taken off again.
-/

namespace N8n.DepthFirst.Search

variable {Vertex : Type*} [DecidableEq Vertex] {successors : Vertex → List Vertex}

/-- The state of a search that has taken whole components off the stack only. -/
structure OnCourse (successors : Vertex → List Vertex) (s : Search Vertex) : Prop where
  reachesTop : s.active.Pairwise (fun upper lower => Reaches successors lower upper)
  toActive : ∀ v ∈ s.stack, ∃ g ∈ s.active, Reaches successors v g ∧ s.rank g ≤ s.rank v
  fromActive : ∀ g ∈ s.active, ∀ v ∈ s.stack, s.rank g ≤ s.rank v → Reaches successors g v
  partition : ∀ v ∈ s.order, v ∈ s.stack ∨ ∃ component ∈ s.components, v ∈ component
  settled : ∀ component ∈ s.components, ∀ v ∈ component,
    v ∈ s.order ∧ v ∉ s.stack ∧ ∀ u, u ∈ component ↔ Mutual successors v u
  closed : ∀ component ∈ s.components, ∀ v ∈ component, ∀ y ∈ successors v,
    ∃ other ∈ s.components, y ∈ other
  disjoint : s.components.Pairwise List.Disjoint
  timely : ∀ component ∈ s.components, ∀ v ∈ component, ∃ root ∈ component,
    Links s.followed v root ∧ ∀ u ∈ component, s.rank root ≤ s.rank u
  lowReached : ∀ v ∈ s.stack, ∃ u ∈ s.order,
    Links s.followed v u ∧ Mutual successors v u ∧ s.low v = s.rank u
  lowLeast : ∀ v ∈ s.stack, ∀ u, Links s.followed v u → Mutual successors v u
    → s.low v ≤ s.rank u
  -- above an active vertex and below the next one, low links are no lower than its own,
  -- unless the search is about to take over the lower link of the child it came from
  segment : ∀ frame ∈ s.frames, ∀ y ∈ s.stack, s.rank frame.1 ≤ s.rank y
    → (∀ g ∈ s.active, s.rank frame.1 < s.rank g → s.rank y < s.rank g)
    → s.low frame.1 ≤ s.low y
      ∨ ∃ c pending, frame.2 = c :: pending ∧ c ∈ s.stack ∧ c ∉ s.active ∧ s.low c ≤ s.low y

/-- The state of a search that has left `root` on the stack for ever. The vertex `y` of its
component is finished and not linked to `root`.
-/
structure Astray (successors : Vertex → List Vertex) (s : Search Vertex)
    (root y : Vertex) : Prop where
  rootKnown : root ∈ s.order
  rootFinished : root ∉ s.active
  rootLow : s.low root = s.rank root
  rootMissing : ∀ component ∈ s.components, root ∉ component
  rootFirst : ∀ u, Mutual successors root u → u ∈ s.order ∧ s.rank root ≤ s.rank u
  together : Mutual successors root y
  finished : y ∉ s.active
  unlinked : ¬ Links s.followed y root

theorem onCourse_start : (start : Search Vertex).OnCourse successors := by
  constructor <;> simp [start, active]

variable {s s' : Search Vertex} {g u v x y : Vertex} {pending : List Vertex}
  {rest : List (Vertex × List Vertex)}

/-! ### Paths in a search on course -/

section

variable (course : s.OnCourse successors)

include course

theorem OnCourse.reach_top (top : s.frames = (x, pending) :: rest) (active : g ∈ s.active)
    : Reaches successors g x := by
  have sorted := course.reachesTop
  rw [active_of_top top] at active sorted
  rcases List.mem_cons.mp active with rfl | below
  · exact .refl g
  · exact (List.pairwise_cons.mp sorted).1 g below

/-- Everything on the stack reaches the topmost active vertex. -/
theorem OnCourse.stack_reaches_top (top : s.frames = (x, pending) :: rest) (onStack : v ∈ s.stack)
    : Reaches successors v x := by
  obtain ⟨g, active, path, _⟩ := course.toActive v onStack
  exact path.trans (course.reach_top top active)

/-- No path leads from a component that was taken off back to the stack. -/
theorem OnCourse.not_reaches_stack (found : ∃ component ∈ s.components, u ∈ component)
    (onStack : v ∈ s.stack)
    : ¬ Reaches successors u v := by
  intro path
  have reached : ∃ component ∈ s.components, v ∈ component := by
    refine Reaches.closed (fun w => ∃ component ∈ s.components, w ∈ component) ?_ path found
    rintro a ⟨component, member, inside⟩ b edge
    exact course.closed component member a inside b edge
  obtain ⟨component, member, inside⟩ := reached
  exact (course.settled component member v inside).2.1 onStack

theorem OnCourse.mem_stack_of_reaches (known : u ∈ s.order) (onStack : v ∈ s.stack)
    (path : Reaches successors u v)
    : u ∈ s.stack :=
  (course.partition u known).resolve_right
    (fun found => course.not_reaches_stack found onStack path)

end

section

variable (coherent : s.Coherent successors)

include coherent

theorem Coherent.top_onStack (top : s.frames = (x, pending) :: rest)
    : x ∈ s.stack :=
  coherent.activeOnStack x (by simp [active_of_top top])

theorem Coherent.no_active_above (top : s.frames = (x, pending) :: rest) (active : g ∈ s.active)
    : s.rank g ≤ s.rank x := by
  rw [active_of_top top] at active
  rcases List.mem_cons.mp active with rfl | below
  · exact Nat.le_refl _
  · exact Nat.le_of_lt (coherent.below_top top below)

theorem Coherent.links_known (known : v ∈ s.order) (links : Links s.followed v u)
    : u ∈ s.order := by
  rcases links.eq_or_mem with rfl | ⟨w, member⟩
  · exact known
  · exact (coherent.followedKnown _ member).2.1

theorem Coherent.links_reaches (links : Links s.followed v u)
    : Reaches successors v u :=
  links.reaches (fun edge member => (coherent.followedKnown edge member).2.2)

end

omit [DecidableEq Vertex] in
/-- The next vertex of a frame below the topmost one is the active vertex above it. -/
theorem chained_below {frames : List (Vertex × List Vertex)}
    (chained : frames.IsChain (fun upper lower => lower.2.head? = some upper.1))
    {frame : Vertex × List Vertex} (below : frame ∈ frames.tail)
    : ∃ upper ∈ frames, frame.2.head? = some upper.1 := by
  induction frames with
  | nil => simp at below
  | cons upper rest ih =>
      cases rest with
      | nil => simp at below
      | cons next deeper =>
          obtain ⟨called, onward⟩ := List.isChain_cons_cons.mp chained
          rcases List.mem_cons.mp below with rfl | later
          · exact ⟨upper, (.head _), called⟩
          · obtain ⟨found, member, link⟩ := ih onward later
            exact ⟨found, List.mem_cons_of_mem upper member, link⟩

/-! ### Entering and examining -/

/-- The vertex that is called is reached from every active one. -/
theorem OnCourse.reaches_called (course : s.OnCourse successors)
    (coherent : s.Coherent successors) (called : Calls s.frames v) (active : g ∈ s.active)
    : Reaches successors g v := by
  cases frames : s.frames with
  | nil => simp [Search.active, frames] at active
  | cons frame below =>
      obtain ⟨x, pending⟩ := frame
      have here := frames ▸ called
      cases here with
      | child =>
          have edge := coherent.pendingEdges _ (by rw [frames]; exact (.head _)) v
            (by simp)
          exact (course.reach_top frames active).trans (.edge edge)

theorem OnCourse.enter (course : s.OnCourse successors) (coherent : s.Coherent successors)
    (called : Calls s.frames v) (fresh : v ∉ s.order)
    : (s.enter successors v).OnCourse successors := by
  have activeKnown : ∀ g ∈ s.active, g ∈ s.order := fun g active =>
    coherent.stackKnown g (coherent.activeOnStack g active)
  have settledKnown : ∀ component ∈ s.components, ∀ u ∈ component, u ∈ s.order :=
    fun component member u inside => (course.settled component member u inside).1
  constructor
  case reachesTop =>
    exact List.pairwise_cons.mpr
      ⟨fun g active => course.reaches_called coherent called active, course.reachesTop⟩
  case toActive =>
    intro u onStack
    rcases List.mem_cons.mp onStack with rfl | old
    · exact ⟨u, (.head _), .refl u, Nat.le_refl _⟩
    · obtain ⟨g, active, path, earlier⟩ := course.toActive u old
      refine ⟨g, List.mem_cons_of_mem v active, path, ?_⟩
      rw [rank_enter (activeKnown g active), rank_enter (coherent.stackKnown u old)]
      exact earlier
  case fromActive =>
    intro g active u onStack earlier
    rcases List.mem_cons.mp active with rfl | oldActive
    · rcases List.mem_cons.mp onStack with rfl | old
      · exact .refl u
      · rw [rank_enter_self fresh, rank_enter (coherent.stackKnown u old)] at earlier
        have := rank_lt (coherent.stackKnown u old)
        omega
    · rcases List.mem_cons.mp onStack with rfl | old
      · exact course.reaches_called coherent called oldActive
      · rw [rank_enter (activeKnown g oldActive), rank_enter (coherent.stackKnown u old)]
          at earlier
        exact course.fromActive g oldActive u old earlier
  case partition =>
    intro u known
    rcases List.mem_append.mp known with old | new
    · exact (course.partition u old).imp_left (List.mem_cons_of_mem v)
    · exact .inl (List.mem_singleton.mp new ▸ (.head _))
  case settled =>
    intro component member u inside
    obtain ⟨known, offStack, whole⟩ := course.settled component member u inside
    refine ⟨List.mem_append_left _ known, ?_, whole⟩
    intro onStack
    rcases List.mem_cons.mp onStack with rfl | old
    · exact fresh known
    · exact offStack old
  case closed => exact course.closed
  case disjoint => exact course.disjoint
  case timely =>
    intro component member u inside
    obtain ⟨root, rootInside, links, first⟩ := course.timely component member u inside
    refine ⟨root, rootInside, links, ?_⟩
    intro w wInside
    rw [rank_enter (settledKnown component member root rootInside),
      rank_enter (settledKnown component member w wInside)]
    exact first w wInside
  case lowReached =>
    intro u onStack
    rcases List.mem_cons.mp onStack with rfl | old
    · refine ⟨u, by simp [Search.enter], .refl _ u, .refl u, ?_⟩
      rw [low_enter_self, rank_enter_self fresh]
    · obtain ⟨w, known, links, together, same⟩ := course.lowReached u old
      have differ : u ≠ v := fun equal => fresh (equal ▸ coherent.stackKnown u old)
      refine ⟨w, List.mem_append_left _ known, links, together, ?_⟩
      rw [low_enter differ, rank_enter known]
      exact same
  case lowLeast =>
    intro u onStack w links together
    rcases List.mem_cons.mp onStack with rfl | old
    · have same : u = w := links.eq_of_not_source
        (fun y member => fresh (coherent.followedKnown _ member).1)
      rw [low_enter_self, ← same, rank_enter_self fresh]
    · have known := coherent.stackKnown u old
      have differ : u ≠ v := fun equal => fresh (equal ▸ known)
      rw [low_enter differ, rank_enter (coherent.links_known known links)]
      exact course.lowLeast u old w links together
  case segment =>
    intro frame member u onStack above between
    rcases List.mem_cons.mp onStack with rfl | old
    · rcases List.mem_cons.mp member with rfl | below
      · exact .inl (Nat.le_refl _)
      · have active : frame.1 ∈ s.active := List.mem_map_of_mem below
        have := rank_lt (activeKnown frame.1 active)
        have late := between u (.head _)
          (by rw [rank_enter (activeKnown frame.1 active), rank_enter_self fresh]; exact this)
        exact absurd late (Nat.lt_irrefl _)
    · have known := coherent.stackKnown u old
      rcases List.mem_cons.mp member with rfl | below
      · simp only [rank_enter_self fresh, rank_enter known] at above
        have := rank_lt known
        omega
      · have active : frame.1 ∈ s.active := List.mem_map_of_mem below
        have frameKnown := activeKnown frame.1 active
        have differ : frame.1 ≠ v := fun equal => fresh (equal ▸ frameKnown)
        have differ' : u ≠ v := fun equal => fresh (equal ▸ known)
        rw [rank_enter frameKnown, rank_enter known] at above
        rw [low_enter differ, low_enter differ']
        rcases course.segment frame below u old above (by
            intro g gActive later
            have gKnown := activeKnown g gActive
            have := between g (.tail _ gActive)
              (by rw [rank_enter frameKnown, rank_enter gKnown]; exact later)
            rwa [rank_enter known, rank_enter gKnown] at this) with lower | pendingLower
        · exact .inl lower
        · obtain ⟨c, pending, shape, cOnStack, inactive, cLower⟩ := pendingLower
          have cDiffer : c ≠ v := fun equal => fresh (equal ▸ coherent.stackKnown c cOnStack)
          refine .inr ⟨c, pending, shape, List.mem_cons_of_mem v cOnStack, ?_, ?_⟩
          · simp only [Search.active, Search.enter, List.map_cons, List.mem_cons, not_or]
            exact ⟨cDiffer, inactive⟩
          · rw [low_enter cDiffer]
            exact cLower

theorem OnCourse.examine (course : s.OnCourse successors)
    (coherent : s.Coherent successors) (top : s.frames = (x, y :: pending) :: rest)
    (known : y ∈ s.order)
    : (s.examine x y ((x, pending) :: rest)).OnCourse successors := by
  have onStack := coherent.top_onStack top
  have edge : y ∈ successors x :=
    coherent.pendingEdges (x, y :: pending) (by simp [top]) y (by simp)
  have active : (s.examine x y ((x, pending) :: rest)).active = s.active := by
    simp [Search.active, Search.examine, top]
  have together : y ∈ s.stack → Mutual successors x y := fun yOnStack =>
    ⟨.edge edge, course.stack_reaches_top top yOnStack⟩
  constructor
  case reachesTop =>
    rw [active]
    exact course.reachesTop
  case toActive =>
    rw [active]
    exact course.toActive
  case fromActive =>
    rw [active]
    exact course.fromActive
  case partition => exact course.partition
  case settled => exact course.settled
  case closed => exact course.closed
  case disjoint => exact course.disjoint
  case timely =>
    intro component member u inside
    obtain ⟨root, rootInside, links, first⟩ := course.timely component member u inside
    exact ⟨root, rootInside, .inl links, first⟩
  case lowReached =>
    intro u uOnStack
    obtain ⟨w, wKnown, links, mutual_, same⟩ := course.lowReached u uOnStack
    by_cases equal : u = x
    · subst equal
      rw [low_examine_self]
      split
      · rename_i yOnStack
        rcases Nat.le_total (s.low y) (s.low u) with lower | higher
        · obtain ⟨w', wKnown', links', mutual', same'⟩ := course.lowReached y yOnStack
          rw [Nat.min_eq_left lower]
          exact ⟨w', wKnown', .inr ⟨rfl, links'⟩, (together yOnStack).trans mutual', same'⟩
        · rw [Nat.min_eq_right higher]
          exact ⟨w, wKnown, .inl links, mutual_, same⟩
      · exact ⟨w, wKnown, .inl links, mutual_, same⟩
    · rw [low_examine equal]
      exact ⟨w, wKnown, .inl links, mutual_, same⟩
  case lowLeast =>
    intro u uOnStack w links mutual_
    rcases links with before | ⟨rfl, onward⟩
    · exact Nat.le_trans low_examine_le (course.lowLeast u uOnStack w before mutual_)
    · have yOnStack : y ∈ s.stack := course.mem_stack_of_reaches known onStack
        ((coherent.links_reaches onward).trans mutual_.2)
      have least := course.lowLeast y yOnStack w onward
        ((together yOnStack).symm.trans mutual_)
      rw [low_examine_self, if_pos yOnStack]
      exact Nat.le_trans (Nat.min_le_left _ _) least
  case segment =>
    intro frame member u uOnStack above between
    rw [active] at between ⊢
    have lowOther : ∀ {w}, w ≠ x → (s.examine x y ((x, pending) :: rest)).low w = s.low w :=
      low_examine
    rcases List.mem_cons.mp member with rfl | below
    · by_cases equal : u = x
      · exact .inl (equal ▸ Nat.le_refl _)
      · left
        rw [lowOther equal]
        rcases course.segment (x, y :: pending) (by simp [top]) u uOnStack above between with
          lower | ⟨c, pending', shape, cOnStack, _, cLower⟩
        · exact Nat.le_trans low_examine_le lower
        · obtain ⟨rfl, _⟩ := List.cons.inj shape
          rw [low_examine_self, if_pos cOnStack]
          exact Nat.le_trans (Nat.min_le_left _ _) cLower
    · -- the topmost vertex lies above every other frame's segment
      have later := coherent.below_top top (List.mem_map_of_mem below)
      have frameDiffer : frame.1 ≠ x := by
        intro equal
        rw [equal] at later
        exact Nat.lt_irrefl _ later
      have differ : u ≠ x := by
        rintro rfl
        exact Nat.lt_irrefl _ (between u (by simp [active_of_top top]) later)
      rw [lowOther frameDiffer, lowOther differ]
      rcases course.segment frame (by simp [top, below]) u uOnStack above between with
        lower | ⟨c, pending', shape, cOnStack, inactive, cLower⟩
      · exact .inl lower
      · have cDiffer : c ≠ x := by
          rintro rfl
          exact inactive (by simp [active_of_top top])
        refine .inr ⟨c, pending', shape, cOnStack, inactive, ?_⟩
        rw [lowOther cDiffer]
        exact cLower

/-! ### Closing -/

section

variable (course : s.OnCourse successors) (coherent : s.Coherent successors)
  (top : s.frames = (x, []) :: rest)

include course coherent top

/-- Below a closed vertex that is not its own low link, the stack still reaches an active
vertex: the one that was reached when the low link came down.
-/
theorem OnCourse.toActive_below (differ : s.low x ≠ s.rank x) (onStack : v ∈ s.stack)
    : ∃ g ∈ rest.map Prod.fst, Reaches successors v g ∧ s.rank g ≤ s.rank v := by
  have xOnStack := coherent.top_onStack top
  obtain ⟨g, active, path, earlier⟩ := course.toActive v onStack
  rw [active_of_top top] at active
  rcases List.mem_cons.mp active with rfl | below
  · obtain ⟨u, known, _, together, same⟩ := course.lowReached g xOnStack
    have lower := coherent.lowLe g (coherent.stackKnown g xOnStack)
    have uOnStack := course.mem_stack_of_reaches known xOnStack together.2
    obtain ⟨g', active', path', earlier'⟩ := course.toActive u uOnStack
    refine ⟨g', ?_, path.trans (together.1.trans path'), by omega⟩
    rw [active_of_top top] at active'
    refine (List.mem_cons.mp active').resolve_left ?_
    rintro rfl
    omega
  · exact ⟨g, below, path, earlier⟩

theorem OnCourse.finish (differ : s.low x ≠ s.rank x)
    : (s.close x rest).OnCourse successors := by
  have shape : s.close x rest = { s with frames := rest } := by
    simp [Search.close, differ]
  have xOnStack := coherent.top_onStack top
  have stays : ∀ {g}, g ∈ rest.map Prod.fst → g ∈ s.active := by
    intro g below
    rw [active_of_top top]
    exact List.mem_cons_of_mem x below
  rw [shape]
  constructor
  case reachesTop =>
    have sorted := course.reachesTop
    rw [active_of_top top] at sorted
    exact (List.pairwise_cons.mp sorted).2
  case toActive => exact fun v onStack => course.toActive_below coherent top differ onStack
  case fromActive => exact fun g active => course.fromActive g (stays active)
  case partition => exact course.partition
  case settled => exact course.settled
  case closed => exact course.closed
  case disjoint => exact course.disjoint
  case timely => exact course.timely
  case lowReached => exact course.lowReached
  case lowLeast => exact course.lowLeast
  case segment =>
    intro frame member u onStack above between
    have frameActive : frame.1 ∈ rest.map Prod.fst := List.mem_map_of_mem member
    have inactiveStays : ∀ {c}, c ∉ s.active → c ∉ rest.map Prod.fst := fun inactive below =>
      inactive (stays below)
    rcases Nat.lt_or_ge (s.rank u) (s.rank x) with earlier | later
    · refine (course.segment frame (by simp [top, member]) u onStack above ?_).imp_right ?_
      · intro g active later
        rw [active_of_top top] at active
        rcases List.mem_cons.mp active with rfl | below
        · exact earlier
        · exact between g below later
      · rintro ⟨c, pending, split, cOnStack, inactive, lower⟩
        exact ⟨c, pending, split, cOnStack, inactiveStays inactive, lower⟩
    · -- only the frame that called `x` has vertices from `x` on in its segment
      have chained := coherent.chained
      rw [top] at chained
      cases rest with
      | nil => simp at member
      | cons caller below =>
          have called : caller.2.head? = some x := (List.isChain_cons_cons.mp chained).1
          have isCaller : frame = caller := by
            rcases List.mem_cons.mp member with same | deeper
            · exact same
            · have sorted := coherent.activeSorted
              rw [active_of_top top, List.map_cons] at sorted
              have order := List.pairwise_cons.mp (List.pairwise_cons.mp sorted).2
              have first := (List.pairwise_cons.mp sorted).1 caller.1 (by simp)
              have late := between caller.1 (by simp [Search.active])
                (order.1 frame.1 (List.mem_map_of_mem deeper))
              change s.rank u < s.rank caller.1 at late
              omega
          subst isCaller
          obtain ⟨pending, split⟩ : ∃ pending, frame.2 = x :: pending := by
            cases shape : frame.2 with
            | nil => simp [shape] at called
            | cons c pending =>
                rw [shape] at called
                exact ⟨pending, by rw [Option.some.inj called]⟩
          have own := course.segment (x, []) (by simp [top]) u onStack later
            (fun g active higher => absurd higher
              (Nat.not_lt.mpr (coherent.no_active_above top active)))
          refine .inr ⟨x, pending, split, xOnStack, ?_, ?_⟩
          · intro active
            exact Nat.lt_irrefl _ (coherent.below_top top active)
          · rcases own with lower | ⟨c, pending, impossible, _⟩
            · exact lower
            · simp at impossible

/-- A closed vertex that is its own low link is the first of its component, and the rest of
the component lies above it on the stack: a path that leaves this part of the stack for a
lower vertex would have brought the low link down.
-/
theorem OnCourse.component_above (root : s.low x = s.rank x)
    : (u ∈ s.stack ∧ s.rank x ≤ s.rank u) ↔ Mutual successors x u := by
  have xOnStack := coherent.top_onStack top
  have xActive : x ∈ s.active := by simp [active_of_top top]
  constructor
  · rintro ⟨onStack, later⟩
    exact ⟨course.fromActive x xActive u onStack later, course.stack_reaches_top top onStack⟩
  · intro together
    by_contra outside
    obtain ⟨a, b, ⟨aOnStack, aLater⟩, bOutside, edge, upTo, onward⟩ := Reaches.leaves
      (fun u => u ∈ s.stack ∧ s.rank x ≤ s.rank u) together.1 ⟨xOnStack, Nat.le_refl _⟩ outside
    have followed : (a, b) ∈ s.followed := by
      by_cases active : a ∈ s.active
      · have same : a = x := by
          rw [active_of_top top] at active
          refine (List.mem_cons.mp active).resolve_right fun below => ?_
          exact Nat.not_lt.mpr aLater (coherent.below_top top below)
        subst same
        have done := coherent.examined (a, []) (by simp [top]) b edge
        simpa using done
      · exact coherent.finished a (coherent.stackKnown a aOnStack) active b edge
    have back : Reaches successors b x := onward.trans together.2
    have bOnStack : b ∈ s.stack := course.mem_stack_of_reaches
      (coherent.followedKnown _ followed).2.1 xOnStack back
    have least := course.lowLeast a aOnStack b (.of_mem followed)
      ⟨.edge edge, back.trans upTo⟩
    have bEarlier : s.rank b < s.rank x :=
      Nat.lt_of_not_ge fun later => bOutside ⟨bOnStack, later⟩
    have own := course.segment (x, []) (by simp [top]) a aOnStack aLater
      (fun g active higher => absurd higher
        (Nat.not_lt.mpr (coherent.no_active_above top active)))
    rcases own with lower | ⟨c, pending, impossible, _⟩
    · simp only at lower
      omega
    · simp at impossible

end

/-- On a list whose front satisfies `p` and whose back does not, `takeWhile` and `dropWhile`
split as `filter` does.
-/
theorem takeWhile_eq_filter {α : Type*} {p : α → Bool} {items : List α}
    (sorted : items.Pairwise (fun first second => p second = true → p first = true))
    : items.takeWhile p = items.filter p
      ∧ items.dropWhile p = items.filter (fun item => !p item) := by
  induction items with
  | nil => simp
  | cons item later ih =>
      obtain ⟨first, sortedLater⟩ := List.pairwise_cons.mp sorted
      cases holds : p item with
      | true => simp [holds, ih sortedLater]
      | false =>
          have none : ∀ other ∈ later, p other = false := by
            intro other member
            by_contra some_
            exact absurd (first other member (by simpa using some_)) (by simp [holds])
          refine ⟨?_, ?_⟩
          · rw [List.takeWhile_cons_of_neg (by simp [holds]), eq_comm, List.filter_eq_nil_iff]
            intro other member
            rcases List.mem_cons.mp member with rfl | below
            · simp [holds]
            · simp [none other below]
          · rw [List.dropWhile_cons_of_neg (by simp [holds]), eq_comm, List.filter_eq_self]
            intro other member
            rcases List.mem_cons.mp member with rfl | below
            · simp [holds]
            · simp [none other below]

section

variable (course : s.OnCourse successors) (coherent : s.Coherent successors)
  (top : s.frames = (x, []) :: rest) (root : s.low x = s.rank x)

include course coherent top root

/-- When all vertices from the closed root on have its low link, exactly these are taken
off the stack.
-/
theorem OnCourse.popped_iff (inTime : ∀ v ∈ s.stack, s.rank x ≤ s.rank v → s.low v = s.rank x)
    : (∀ v, v ∈ s.popped x ↔ Mutual successors x v)
      ∧ ∀ v, v ∈ (s.close x rest).stack ↔ v ∈ s.stack ∧ s.rank v < s.rank x := by
  have here : ∀ v ∈ s.stack, (s.low v = s.rank x ↔ s.rank x ≤ s.rank v) := by
    intro v onStack
    refine ⟨fun same => ?_, inTime v onStack⟩
    have := coherent.lowLe v (coherent.stackKnown v onStack)
    omega
  have sorted : s.stack.Pairwise (fun first second =>
      decide (s.low second = s.rank x) = true → decide (s.low first = s.rank x) = true) := by
    refine coherent.stackSorted.imp_of_mem ?_
    intro upper lower upperMember lowerMember less
    simp only [decide_eq_true_eq, here upper upperMember, here lower lowerMember]
    omega
  obtain ⟨front, back⟩ := takeWhile_eq_filter sorted
  constructor
  · intro v
    rw [popped, front, List.mem_filter, decide_eq_true_eq,
      ← course.component_above coherent top root]
    exact and_congr_right fun onStack => here v onStack
  · intro v
    simp only [Search.close, root, if_true]
    rw [back, List.mem_filter]
    refine and_congr_right fun onStack => ?_
    simp [here v onStack]

theorem OnCourse.pop (inTime : ∀ v ∈ s.stack, s.rank x ≤ s.rank v → s.low v = s.rank x)
    : (s.close x rest).OnCourse successors := by
  have xOnStack := coherent.top_onStack top
  obtain ⟨whole, left⟩ := course.popped_iff coherent top root inTime
  have xPopped : x ∈ s.popped x := (whole x).mpr (.refl x)
  have found : (s.close x rest).components = s.components ++ [s.popped x] := by
    simp [Search.close, root, List.ne_nil_of_mem xPopped]
  have onStackOf : ∀ {v}, v ∈ s.popped x → v ∈ s.stack ∧ s.rank x ≤ s.rank v := by
    intro v member
    exact (course.component_above coherent top root).mpr ((whole v).mp member)
  have stays : ∀ {g}, g ∈ rest.map Prod.fst → g ∈ s.active := by
    intro g below
    rw [active_of_top top]
    exact List.mem_cons_of_mem x below
  have stackOf : ∀ {v}, v ∈ (s.close x rest).stack → v ∈ s.stack := fun member =>
    ((left _).mp member).1
  have membersOf : ∀ {component}, component ∈ (s.close x rest).components
      → component ∈ s.components ∨ component = s.popped x := by
    intro component member
    rw [found] at member
    exact (List.mem_append.mp member).imp_right List.mem_singleton.mp
  have kept : ∀ {component}, component ∈ s.components
      → component ∈ (s.close x rest).components := by
    intro component member
    rw [found]
    exact List.mem_append_left _ member
  have new : s.popped x ∈ (s.close x rest).components := by
    rw [found]
    simp
  constructor
  case reachesTop =>
    have sorted := course.reachesTop
    rw [active_of_top top] at sorted
    simpa using (List.pairwise_cons.mp sorted).2
  case toActive =>
    intro v onStack
    obtain ⟨old, earlier⟩ := (left v).mp onStack
    obtain ⟨g, active, path, before⟩ := course.toActive v old
    refine ⟨g, ?_, path, by simpa using before⟩
    rw [active_of_top top] at active
    rw [active_close]
    refine (List.mem_cons.mp active).resolve_left ?_
    rintro rfl
    omega
  case fromActive =>
    intro g active v onStack earlier
    rw [active_close] at active
    exact course.fromActive g (stays active) v (stackOf onStack) (by simpa using earlier)
  case partition =>
    intro v known
    rw [order_close] at known
    rcases course.partition v known with onStack | ⟨component, member, inside⟩
    · rcases Nat.lt_or_ge (s.rank v) (s.rank x) with earlier | later
      · exact .inl ((left v).mpr ⟨onStack, earlier⟩)
      · refine .inr ⟨_, new, (whole v).mpr ?_⟩
        exact (course.component_above coherent top root).mp ⟨onStack, later⟩
    · exact .inr ⟨component, kept member, inside⟩
  case settled =>
    intro component member v inside
    rw [order_close]
    rcases membersOf member with old | rfl
    · obtain ⟨known, offStack, all⟩ := course.settled component old v inside
      exact ⟨known, fun onStack => offStack (stackOf onStack), all⟩
    · obtain ⟨onStack, later⟩ := onStackOf inside
      refine ⟨coherent.stackKnown v onStack, ?_, ?_⟩
      · intro still
        have := ((left v).mp still).2
        omega
      · intro u
        have together := (whole v).mp inside
        rw [whole u]
        exact ⟨together.symm.trans, together.trans⟩
  case closed =>
    intro component member v inside y edge
    rcases membersOf member with old | rfl
    · obtain ⟨other, otherMember, yInside⟩ := course.closed component old v inside y edge
      exact ⟨other, kept otherMember, yInside⟩
    · obtain ⟨onStack, later⟩ := onStackOf inside
      have vInactive : v ≠ x → v ∉ s.active := by
        intro differ active
        rw [active_of_top top] at active
        have := coherent.below_top top ((List.mem_cons.mp active).resolve_left differ)
        omega
      have followed : (v, y) ∈ s.followed := by
        by_cases same : v = x
        · subst same
          have done := coherent.examined (v, []) (by simp [top]) y edge
          simpa using done
        · exact coherent.finished v (coherent.stackKnown v onStack) (vInactive same) y edge
      rcases course.partition y (coherent.followedKnown _ followed).2.1 with
        yOnStack | ⟨other, otherMember, yInside⟩
      · have path : Reaches successors y x := course.stack_reaches_top top yOnStack
        have reached := ((whole v).mp inside).1
        exact ⟨_, new, (whole y).mpr ⟨reached.trans (.edge edge), path⟩⟩
      · exact ⟨other, kept otherMember, yInside⟩
  case disjoint =>
    rw [found]
    refine List.pairwise_append.mpr ⟨course.disjoint, List.pairwise_singleton _ _, ?_⟩
    intro component member other single v inside inOther
    obtain rfl := List.mem_singleton.mp single
    exact (course.settled component member v inside).2.1 (onStackOf inOther).1
  case timely =>
    intro component member v inside
    simp only [followed_close, rank_close]
    rcases membersOf member with old | rfl
    · exact course.timely component old v inside
    · obtain ⟨onStack, later⟩ := onStackOf inside
      obtain ⟨u, known, links, _, same⟩ := course.lowReached v onStack
      have isRoot : u = x := rank_inj known (by rw [← same, inTime v onStack later])
      exact ⟨x, xPopped, isRoot ▸ links, fun w wInside => (onStackOf wInside).2⟩
  case lowReached =>
    intro v onStack
    simpa using course.lowReached v (stackOf onStack)
  case lowLeast =>
    intro v onStack
    simpa using course.lowLeast v (stackOf onStack)
  case segment =>
    intro frame member u onStack above between
    rw [frames_close] at member
    obtain ⟨old, earlier⟩ := (left u).mp onStack
    simp only [rank_close, active_close, low_close] at above between ⊢
    rcases course.segment frame (by simp [top, member]) u old above (by
        intro g active later
        rw [active_of_top top] at active
        rcases List.mem_cons.mp active with rfl | below
        · exact earlier
        · exact between g below later) with lower | ⟨c, pending, split, cOnStack, inactive, lower⟩
    · exact .inl lower
    · -- the pending child of a frame below the topmost one is active
      have chained := coherent.chained
      obtain ⟨upper, upperMember, called⟩ := chained_below chained
        (show frame ∈ s.frames.tail by simpa [top] using member)
      have same : c = upper.1 := by
        rw [split] at called
        exact Option.some.inj called
      exact absurd (same ▸ List.mem_map_of_mem upperMember) inactive

/-- When some vertex from the closed root on has another low link, the root stays. -/
theorem OnCourse.goAstray (onStack : v ∈ s.stack) (later : s.rank x ≤ s.rank v)
    (late : s.low v ≠ s.rank x)
    : (s.close x rest).Astray successors x v := by
  have xOnStack := coherent.top_onStack top
  have together := (course.component_above coherent top root).mp ⟨onStack, later⟩
  constructor
  case rootKnown =>
    rw [order_close]
    exact coherent.stackKnown x xOnStack
  case rootFinished =>
    rw [active_close]
    intro below
    exact Nat.lt_irrefl _ (coherent.below_top top below)
  case rootLow => simpa using root
  case rootMissing =>
    have notPopped : x ∉ s.popped x := by
      intro taken
      have whole : s.popped x ++ s.stack.dropWhile (fun v => s.low v = s.rank x) = s.stack :=
        List.takeWhile_append_dropWhile
      have sorted := coherent.stackSorted
      rw [← whole] at sorted onStack
      rcases List.mem_append.mp onStack with front | back
      · have same := List.mem_takeWhile_imp front
        exact late (by simpa using same)
      · have := (List.pairwise_append.mp sorted).2.2 x taken v back
        omega
    have old : ∀ component ∈ s.components, x ∉ component := fun component member inside =>
      (course.settled component member x inside).2.1 xOnStack
    intro component member
    simp only [Search.close, root, if_true] at member
    split at member
    · exact old component member
    · rcases List.mem_append.mp member with before | new
      · exact old component before
      · exact List.mem_singleton.mp new ▸ notPopped
  case rootFirst =>
    intro u mutual_
    obtain ⟨uOnStack, uLater⟩ := (course.component_above coherent top root).mpr mutual_
    rw [order_close, rank_close, rank_close]
    exact ⟨coherent.stackKnown u uOnStack, uLater⟩
  case together => exact together
  case finished =>
    rw [active_close]
    intro below
    have := coherent.below_top top below
    omega
  case unlinked =>
    rw [followed_close]
    intro links
    have least := course.lowLeast v onStack x links together.symm
    obtain ⟨u, known, _, mutual_, same⟩ := course.lowReached v onStack
    have uLater := ((course.component_above coherent top root).mpr
      (together.trans mutual_)).2
    omega

end

/-! ### Whole searches -/

theorem Step.onCourse_or_astray (step : Step successors s s')
    (coherent : s.Coherent successors) (course : s.OnCourse successors)
    : s'.OnCourse successors ∨ ∃ root y, s'.Astray successors root y := by
  cases step with
  | enter called fresh => exact .inl (course.enter coherent called fresh)
  | examine top known => exact .inl (course.examine coherent top known)
  | @close x rest top =>
      by_cases root : s.low x = s.rank x
      · by_cases inTime : ∀ v ∈ s.stack, s.rank x ≤ s.rank v → s.low v = s.rank x
        · exact .inl (course.pop coherent top root inTime)
        · push Not at inTime
          obtain ⟨v, onStack, later, late⟩ := inTime
          exact .inr ⟨x, v, course.goAstray coherent top root onStack later late⟩
      · exact .inl (course.finish coherent top root)

/-- A root that stays behind keeps its low link, which no other vertex has as its rank. -/
theorem Step.astray {root : Vertex} (step : Step successors s s')
    (astray : s.Astray successors root y)
    : s'.Astray successors root y := by
  have yKnown : y ∈ s.order := (astray.rootFirst y astray.together).1
  cases step with
  | @enter v called fresh =>
      have differ : ∀ {u}, u ∈ s.order → u ≠ v := fun known same => fresh (same ▸ known)
      constructor
      case rootKnown => exact List.mem_append_left _ astray.rootKnown
      case rootFinished =>
        simp only [active, Search.enter, List.map_cons, List.mem_cons, not_or]
        exact ⟨differ astray.rootKnown, astray.rootFinished⟩
      case rootLow =>
        rw [low_enter (differ astray.rootKnown), rank_enter astray.rootKnown]
        exact astray.rootLow
      case rootMissing => exact astray.rootMissing
      case rootFirst =>
        intro u mutual_
        obtain ⟨known, first⟩ := astray.rootFirst u mutual_
        rw [rank_enter astray.rootKnown, rank_enter known]
        exact ⟨List.mem_append_left _ known, first⟩
      case together => exact astray.together
      case finished =>
        simp only [active, Search.enter, List.map_cons, List.mem_cons, not_or]
        exact ⟨differ yKnown, astray.finished⟩
      case unlinked => exact astray.unlinked
  | @examine x z pending rest top known =>
      have xActive : x ∈ s.active := by simp [active_of_top top]
      have active : (s.examine x z ((x, pending) :: rest)).active = s.active := by
        simp [Search.active, Search.examine, top]
      have rootDiffer : root ≠ x := fun same => astray.rootFinished (same ▸ xActive)
      have yDiffer : y ≠ x := fun same => astray.finished (same ▸ xActive)
      constructor
      case rootKnown => exact astray.rootKnown
      case rootFinished =>
        rw [active]
        exact astray.rootFinished
      case rootLow =>
        rw [low_examine rootDiffer]
        exact astray.rootLow
      case rootMissing => exact astray.rootMissing
      case rootFirst => exact astray.rootFirst
      case together => exact astray.together
      case finished =>
        rw [active]
        exact astray.finished
      case unlinked => exact fun links => astray.unlinked (links.of_cons yDiffer)
  | @close x rest top =>
      have xActive : x ∈ s.active := by simp [active_of_top top]
      have stays : ∀ {g}, g ∉ s.active → g ∉ rest.map Prod.fst := by
        intro g inactive below
        exact inactive (by simp [active_of_top top, below])
      have notPopped : root ∉ s.popped x := by
        intro taken
        have same := List.mem_takeWhile_imp taken
        rw [decide_eq_true_eq, astray.rootLow] at same
        exact astray.rootFinished (rank_inj astray.rootKnown same ▸ xActive)
      constructor
      case rootKnown => simpa using astray.rootKnown
      case rootFinished =>
        rw [active_close]
        exact stays astray.rootFinished
      case rootLow => simpa using astray.rootLow
      case rootMissing =>
        intro component member
        unfold Search.close at member
        split at member
        · simp only at member
          split at member
          · exact astray.rootMissing component member
          · rcases List.mem_append.mp member with before | new
            · exact astray.rootMissing component before
            · exact List.mem_singleton.mp new ▸ notPopped
        · exact astray.rootMissing component member
      case rootFirst => simpa using astray.rootFirst
      case together => exact astray.together
      case finished =>
        rw [active_close]
        exact stays astray.finished
      case unlinked => simpa using astray.unlinked

theorem Steps.onCourse_or_astray (steps : Steps successors start s)
    : s.OnCourse successors ∨ ∃ root y, s.Astray successors root y := by
  induction steps with
  | refl => exact .inl onCourse_start
  | tail before step ih =>
      have coherent := Steps.coherent before coherent_start
      rcases ih with course | ⟨root, y, astray⟩
      · exact step.onCourse_or_astray coherent course
      · exact .inr ⟨root, y, step.astray astray⟩

variable {vertices : List Vertex}

section

variable (course : s.OnCourse successors) (done : s.frames = [])
  (all : ∀ v, v ∈ s.order ↔ v ∈ vertices)

include course done all

theorem OnCourse.areComponents
    : AreComponents successors vertices s.components := by
  have covering : ∀ v ∈ vertices, ∃ component ∈ s.components, v ∈ component := by
    intro v member
    refine (course.partition v ((all v).mpr member)).resolve_left fun onStack => ?_
    obtain ⟨g, active, _⟩ := course.toActive v onStack
    simp [Search.active, done] at active
  refine ⟨course.disjoint, covering, ?_⟩
  intro x xMember y _
  constructor
  · rintro ⟨component, member, xInside, yInside⟩
    exact ((course.settled component member x xInside).2.2 y).mp yInside
  · intro together
    obtain ⟨component, member, xInside⟩ := covering x xMember
    exact ⟨component, member, xInside,
      ((course.settled component member x xInside).2.2 y).mpr together⟩

theorem OnCourse.timely_of_done
    : Timely successors vertices s.toTrace := by
  intro v member root first
  obtain ⟨component, found, inside⟩ := (course.areComponents done all).covering v member
  obtain ⟨root', rootInside, links, least⟩ := course.timely component found v inside
  have whole := (course.settled component found v inside).2.2
  have earlier : s.rank root ≤ s.rank root' := first.2 root' ((whole root').mp rootInside)
  have later : s.rank root' ≤ s.rank root := least root ((whole root).mpr first.1)
  have known := (course.settled component found root' rootInside).1
  have same : root' = root := rank_inj known (by omega)
  exact same ▸ links

end

/-- A finished search has found the components exactly when every vertex was linked in time
to the first visited vertex of its component.
-/
theorem areComponents_iff_timely (steps : Steps successors start s) (done : s.frames = [])
    (all : ∀ v, v ∈ s.order ↔ v ∈ vertices)
    : AreComponents successors vertices s.components
      ↔ Timely successors vertices s.toTrace := by
  rcases Steps.onCourse_or_astray steps with course | ⟨root, y, astray⟩
  · exact iff_of_true (course.areComponents done all) (course.timely_of_done done all)
  · refine iff_of_false ?_ ?_
    · intro components
      obtain ⟨component, member, inside⟩ :=
        components.covering root ((all root).mp astray.rootKnown)
      exact astray.rootMissing component member inside
    · intro timely
      obtain ⟨known, _⟩ := astray.rootFirst y astray.together
      refine astray.unlinked (timely y ((all y).mp known) root ⟨astray.together.symm, ?_⟩)
      exact fun u mutual_ => (astray.rootFirst u (astray.together.trans mutual_)).2

end N8n.DepthFirst.Search
