import Mathlib.Data.List.Induction
import N8n.Library.FirstPaths

/-! Depth-first explorations of a graph, as the list of the edges in the order in which they
are taken. An edge that is first to reach its target ends the first path to it.
-/

namespace N8n.Library.EdgeGraph

variable {V E : Type} (graph : EdgeGraph V E) (root : V)

/-- The places that are seen after the edges of the log. -/
def seen (log : List E) : List V := root :: log.map graph.target

/-- The edges are taken once, and leave places that were seen before. -/
inductive IsLog : List E → Prop where
  | nil : IsLog []
  | snoc {log : List E} {e : E} (before : IsLog log) (known : graph.source e ∈ graph.seen root log)
    (leaves : e ∈ graph.leaving (graph.source e)) (new : e ∉ log) : IsLog (log ++ [e])

/-- The edge was taken when its target had not been seen. -/
def IsFirst (log : List E) (e : E) : Prop :=
  ∃ front, front ++ [e] <+: log ∧ graph.target e ∉ graph.seen root front

/-- The log goes on to the next one by taking the edges `todo`, and all edges that leave places
seen on the way.
-/
structure Explores (log todo next : List E) : Prop where
  isLog : graph.IsLog root next
  grows : log <+: next
  taken : todo ⊆ next
  closed : ∀ v ∈ graph.seen root next, v ∉ graph.seen root log → graph.leaving v ⊆ next
  new : ∀ e ∈ next, e ∈ log ∨ e ∈ todo ∨ graph.source e ∉ graph.seen root log
  firsts : ∀ e, graph.IsFirst root next e → graph.target e ∉ graph.seen root log
    → ∃ path,
        graph.IsFirstPath {v | v ∈ graph.seen root log} todo (path ++ [e]) (graph.target e)

variable {graph root} {log next last todo done more : List E} {e f : E} {v w : V}

theorem mem_seen_iff : v ∈ graph.seen root log ↔ v = root ∨ ∃ e ∈ log, graph.target e = v := by
  simp [seen]

theorem root_mem_seen : root ∈ graph.seen root log := (.head _)

theorem target_mem_seen (member : e ∈ log) : graph.target e ∈ graph.seen root log :=
  mem_seen_iff.mpr (.inr ⟨e, member, rfl⟩)

theorem seen_append (front back : List E)
    : graph.seen root (front ++ back) = graph.seen root front ++ back.map graph.target := by
  simp [seen]

theorem seen_mono (grows : log <+: next) (member : v ∈ graph.seen root log)
    : v ∈ graph.seen root next := by
  obtain ⟨back, rfl⟩ := grows
  rw [seen_append]
  exact List.mem_append_left _ member

theorem mem_seen_snoc
    : v ∈ graph.seen root (log ++ [e]) ↔ v ∈ graph.seen root log ∨ v = graph.target e := by
  rw [seen_append, List.mem_append, List.map_singleton, List.mem_singleton]

theorem IsLog.source_mem (isLog : graph.IsLog root log) (member : e ∈ log)
    : graph.source e ∈ graph.seen root log ∧ e ∈ graph.leaving (graph.source e) := by
  induction isLog with
  | nil => contradiction
  | snoc _ known leaves _ ih =>
      rcases List.mem_append.mp member with before | here
      · exact ⟨seen_mono (List.prefix_append _ _) (ih before).1, (ih before).2⟩
      · obtain rfl := List.mem_singleton.mp here
        exact ⟨seen_mono (List.prefix_append _ _) known, leaves⟩

theorem IsLog.of_prefix (isLog : graph.IsLog root next) (grows : log <+: next)
    : graph.IsLog root log := by
  induction isLog with
  | nil =>
      obtain rfl := List.prefix_nil.mp grows
      exact .nil
  | snoc before known leaves new ih =>
      rcases List.prefix_concat_iff.mp grows with rfl | shorter
      · exact .snoc before known leaves new
      · exact ih shorter

theorem IsLog.of_snoc (isLog : graph.IsLog root (log ++ [e]))
    : graph.source e ∈ graph.seen root log ∧ e ∉ log := by
  generalize split : log ++ [e] = next at isLog
  cases isLog with
  | nil => simp at split
  | snoc before known leaves new =>
      obtain ⟨rfl, same⟩ := List.append_inj' split rfl
      obtain rfl := List.singleton_inj.mp same
      exact ⟨known, new⟩

/-- What is seen can be reached, by induction over the log. -/
theorem IsLog.reaches (isLog : graph.IsLog root log) (member : v ∈ graph.seen root log)
    : Relation.ReflTransGen (fun v w => ∃ e ∈ graph.leaving v, graph.target e = w) root v := by
  induction isLog generalizing v with
  | nil =>
      obtain rfl := List.mem_singleton.mp member
      exact .refl
  | snoc _ known leaves _ ih =>
      rcases mem_seen_snoc.mp member with before | rfl
      · exact ih before
      · exact .tail (ih known) ⟨_, leaves, rfl⟩

theorem IsFirst.mem (first : graph.IsFirst root log e) : e ∈ log := by
  obtain ⟨front, grows, -⟩ := first
  exact grows.subset (List.mem_append_right _ (List.mem_singleton_self e))

theorem isFirst_snoc (new : graph.target e ∉ graph.seen root log)
    : graph.IsFirst root (log ++ [e]) e :=
  ⟨log, List.prefix_refl _, new⟩

theorem IsFirst.grow (first : graph.IsFirst root log e) (grows : log <+: next)
    : graph.IsFirst root next e := by
  obtain ⟨front, earlier, new⟩ := first
  exact ⟨front, earlier.trans grows, new⟩

/-- An edge to a place that was seen earlier was first earlier. -/
theorem IsFirst.of_grown (first : graph.IsFirst root next e) (grows : log <+: next)
    (known : graph.target e ∈ graph.seen root log)
    : graph.IsFirst root log e := by
  obtain ⟨front, longer, new⟩ := first
  rcases List.prefix_or_prefix_of_prefix longer grows with inside | behind
  · exact ⟨front, inside, new⟩
  · rcases List.prefix_concat_iff.mp behind with rfl | shorter
    · exact ⟨front, List.prefix_refl _, new⟩
    · exact absurd (seen_mono shorter known) new

/-- The next edge does not change which of the edges before it are first. -/
theorem isFirst_snoc_iff (member : f ∈ log)
    : graph.IsFirst root (log ++ [e]) f ↔ graph.IsFirst root log f :=
  ⟨fun first => first.of_grown (List.prefix_append log [e]) (target_mem_seen member),
    fun first => first.grow (List.prefix_append log [e])⟩

theorem not_isFirst_snoc (known : graph.target e ∈ graph.seen root log) (new : e ∉ log)
    : ¬ graph.IsFirst root (log ++ [e]) e :=
  fun first => new (first.of_grown (List.prefix_append log [e]) known).mem

theorem IsFirst.unique (first : graph.IsFirst root log e) (other : graph.IsFirst root log f)
    (same : graph.target e = graph.target f)
    : e = f := by
  obtain ⟨front, grows, new⟩ := first
  obtain ⟨early, grown, fresh⟩ := other
  rcases List.prefix_or_prefix_of_prefix grows grown with inside | inside
  · rcases List.prefix_concat_iff.mp inside with equal | shorter
    · exact List.singleton_inj.mp (List.append_inj' equal rfl).2
    · exact absurd (seen_mono shorter (same ▸ target_mem_seen (by simp))) fresh
  · rcases List.prefix_concat_iff.mp inside with equal | shorter
    · exact (List.singleton_inj.mp (List.append_inj' equal rfl).2).symm
    · exact absurd (seen_mono shorter (same ▸ target_mem_seen (by simp))) new

theorem exists_isFirst (member : v ∈ graph.seen root log) (behind : v ≠ root)
    : ∃ e, graph.IsFirst root log e ∧ graph.target e = v := by
  induction log using List.reverseRecOn with
  | nil => exact absurd (List.mem_singleton.mp member) behind
  | append_singleton log e ih =>
      by_cases before : v ∈ graph.seen root log
      · obtain ⟨f, first, same⟩ := ih before
        exact ⟨f, first.grow (List.prefix_append log [e]), same⟩
      · obtain rfl := (mem_seen_snoc.mp member).resolve_left before
        exact ⟨e, isFirst_snoc before, rfl⟩

/-- Along first edges the places come in the order in which they were seen, so that no cycle
consists of such edges.
-/
theorem IsLog.no_first_cycle (isLog : graph.IsLog root log)
    : ¬ Relation.TransGen
        (fun v w => ∃ e, graph.IsFirst root log e ∧ graph.source e = v ∧ graph.target e = w) v v
    := by
  classical
  have increases (v w : V)
      (edge : ∃ e, graph.IsFirst root log e ∧ graph.source e = v ∧ graph.target e = w)
      : (graph.seen root log).idxOf v < (graph.seen root log).idxOf w := by
    obtain ⟨e, ⟨front, grows, new⟩, rfl, rfl⟩ := edge
    have known := (isLog.of_prefix grows).of_snoc.1
    obtain ⟨back, rfl⟩ := (List.prefix_append front [e]).trans grows
    rw [seen_append, List.idxOf_append_of_mem known, List.idxOf_append_of_notMem new]
    have inside := List.idxOf_lt_length_iff.mpr known
    omega
  intro cycle
  have less := cycle.lift (graph.seen root log).idxOf increases
  rw [Relation.transGen_eq_self] at less
  exact Nat.lt_irrefl _ less

theorem Explores.refl (isLog : graph.IsLog root log) : graph.Explores root log [] log where
  isLog := isLog
  grows := List.prefix_refl log
  taken := List.nil_subset log
  closed _ inside outside := absurd inside outside
  new _ member := .inl member
  firsts _ first outside := absurd (target_mem_seen first.mem) outside

theorem Explores.again (isLog : graph.IsLog root (log ++ [e]))
    (known : graph.target e ∈ graph.seen root log)
    : graph.Explores root log [e] (log ++ [e]) := by
  have same (v : V) (inside : v ∈ graph.seen root (log ++ [e])) : v ∈ graph.seen root log := by
    rcases mem_seen_snoc.mp inside with before | rfl
    · exact before
    · exact known
  exact {
    isLog := isLog
    grows := List.prefix_append log [e]
    taken := List.subset_append_right log [e]
    closed := fun v inside outside => absurd (same v inside) outside
    new := fun f member => (List.mem_append.mp member).imp_right .inl
    firsts := fun f first outside => absurd (same _ (target_mem_seen first.mem)) outside
  }

/-- An edge to a new place is taken, and then all that leave this place. -/
theorem Explores.enter (outside : graph.target e ∉ graph.seen root log)
    (visits : graph.Explores root (log ++ [e]) (graph.leaving (graph.target e)) next)
    : graph.Explores root log [e] next where
  isLog := visits.isLog
  grows := (List.prefix_append log [e]).trans visits.grows
  taken := List.Subset.trans (List.subset_append_right log [e]) visits.grows.subset
  closed v inside new := by
    by_cases here : v = graph.target e
    · exact here ▸ visits.taken
    · exact visits.closed v inside (fun before => (mem_seen_snoc.mp before).elim new here)
  new f member := by
    rcases visits.new f member with before | leaves | apart
    · exact (List.mem_append.mp before).imp_right .inl
    · exact .inr (.inr (graph.source_leaving _ f leaves ▸ outside))
    · exact .inr (.inr (fun before => apart (mem_seen_snoc.mpr (.inl before))))
  firsts f first new := by
    have early := (isFirst_snoc outside).grow visits.grows
    by_cases here : graph.target f = graph.target e
    · obtain rfl := first.unique early here
      exact ⟨[], .single outside⟩
    · obtain ⟨path, isFirst⟩ := visits.firsts f first
        (fun before => (mem_seen_snoc.mp before).elim new here)
      refine ⟨e :: path, .cons outside here ?_⟩
      have grown : {v | v ∈ graph.seen root (log ++ [e])}
          = insert (graph.target e) {v | v ∈ graph.seen root log} := by
        ext v
        exact mem_seen_snoc.trans or_comm
      exact grown ▸ isFirst

/-- From the places that are seen on the way no edge leads to a place that is not seen. -/
theorem Explores.target_mem (explores : graph.Explores root log done next)
    (inside : v ∈ graph.seen root next) (outside : v ∉ graph.seen root log)
    (leaves : e ∈ graph.leaving v)
    : graph.target e ∈ graph.seen root next :=
  target_mem_seen (explores.closed v inside outside leaves)

theorem Explores.trans (first : graph.Explores root log done next)
    (second : graph.Explores root next more last)
    : graph.Explores root log (done ++ more) last where
  isLog := second.isLog
  grows := first.grows.trans second.grows
  taken := List.append_subset.mpr
    ⟨List.Subset.trans first.taken second.grows.subset, second.taken⟩
  closed v inside outside := by
    by_cases between : v ∈ graph.seen root next
    · exact List.Subset.trans (first.closed v between outside) second.grows.subset
    · exact second.closed v inside between
  new e member := by
    rcases second.new e member with inNext | inMore | outside
    · exact (first.new e inNext).imp_right (.imp_left (List.mem_append_left more))
    · exact .inr (.inl (List.mem_append_right done inMore))
    · exact .inr (.inr (fun before => outside (seen_mono first.grows before)))
  firsts e isFirst outside := by
    by_cases between : graph.target e ∈ graph.seen root next
    · obtain ⟨path, early⟩ := first.firsts e (isFirst.of_grown second.grows between) outside
      exact ⟨path, early.append⟩
    · obtain ⟨path, late⟩ := second.firsts e isFirst between
      have split (v : V) : v ∈ graph.seen root next
          ↔ (v ∈ graph.seen root next ∧ v ∉ graph.seen root log) ∨ v ∈ graph.seen root log := by
        by_cases before : v ∈ graph.seen root log
        · simp [before, seen_mono first.grows before]
        · simp [before]
      have whole : {v | v ∈ graph.seen root log}
          ∪ {v | v ∈ graph.seen root next ∧ v ∉ graph.seen root log}
            = {v | v ∈ graph.seen root next} := by
        ext v
        exact (or_comm.trans (split v).symm)
      refine ⟨path, IsFirstPath.prepend ?_ ?_ (whole ▸ late)⟩
      · exact fun e member => (split _).mp (target_mem_seen (first.taken member))
      · exact fun w inside e leaves => (split _).mp (first.target_mem inside.1 inside.2 leaves)

/-- The next edge of a place has not been taken on the way. -/
theorem Explores.next_not_mem {rest : List E} (explores : graph.Explores root log done next)
    (inside : v ∈ graph.seen root log) (noneBefore : ∀ e ∈ log, graph.source e ≠ v)
    (leaving : graph.leaving v = done ++ e :: rest)
    : e ∉ next := by
  intro member
  have source : graph.source e = v := graph.source_leaving v e (by simp [leaving])
  rcases explores.new e member with before | taken | outside
  · exact noneBefore e before source
  · have distinct := graph.nodup_leaving v
    rw [leaving, List.nodup_append] at distinct
    exact distinct.2.2 e taken e (.head _) rfl
  · exact outside (source ▸ inside)

section Whole

variable (whole : graph.Explores root [] (graph.leaving root) log)

include whole

/-- From the root all edges are taken that leave a place within reach. -/
theorem Explores.mem_iff
    : e ∈ log ↔ Relation.ReflTransGen (fun v w => ∃ e ∈ graph.leaving v, graph.target e = w) root
          (graph.source e)
        ∧ e ∈ graph.leaving (graph.source e) := by
  have leaving_subset (v : V) (inside : v ∈ graph.seen root log) : graph.leaving v ⊆ log := by
    by_cases atRoot : v = root
    · exact atRoot ▸ whole.taken
    · exact whole.closed v inside (fun start => atRoot (List.mem_singleton.mp start))
  constructor
  · intro member
    obtain ⟨known, leaves⟩ := whole.isLog.source_mem member
    exact ⟨whole.isLog.reaches known, leaves⟩
  · rintro ⟨reached, leaves⟩
    refine leaving_subset _ ?_ leaves
    generalize graph.source e = v at reached
    induction reached with
    | refl => exact root_mem_seen
    | tail _ edge ih =>
        obtain ⟨f, leaves, rfl⟩ := edge
        exact target_mem_seen (leaving_subset _ ih leaves)

/-- The edges that reach their targets first are those that end the first paths to them. -/
theorem Explores.isFirst_iff (member : e ∈ log)
    : graph.IsFirst root log e
      ↔ ∃ path, graph.IsFirstPath {root} (graph.leaving root) (path ++ [e]) (graph.target e) := by
  have start : {v | v ∈ graph.seen root []} = {root} := by
    ext v
    exact List.mem_singleton
  have firsts := start ▸ whole.firsts
  constructor
  · intro first
    obtain ⟨front, grows, new⟩ := id first
    exact firsts e first (fun atRoot => new (List.mem_singleton.mp atRoot ▸ root_mem_seen))
  · rintro ⟨path, isFirstPath⟩
    have behind : graph.target e ≠ root := isFirstPath.walked.not_mem
    obtain ⟨f, first, same⟩ := exists_isFirst (target_mem_seen member) behind
    obtain ⟨other, otherFirst⟩ := firsts f first
      (fun atRoot => behind (same ▸ List.mem_singleton.mp atRoot))
    rw [same] at otherFirst
    have equal := isFirstPath.unique (graph.nodup_leaving root) otherFirst
    obtain rfl := List.singleton_inj.mp (List.append_inj' equal rfl).2
    exact first

end Whole

end N8n.Library.EdgeGraph
