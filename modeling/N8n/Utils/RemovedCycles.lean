import N8n.Utils.RemovalRuns

/-! What `removeCircularRefs` makes of a whole graph: when no cycle is left, and no reference but
those that lead back is lost.
-/

namespace N8n.CircularRefs

open N8n.Library N8n.Library.EdgeGraph Relation

structure ObjectGraph where
  heap : Heap
  root : Nat
  rootIsObject : ∃ properties, heap[root]? = some (.object properties)

def Points (heap : Heap) (holder target : Nat) : Prop :=
  ∃ key, heap.value? ⟨holder, key⟩ = some (.reference target)

/-- The place with the slot is reached again from the target. -/
def LeadsBack (heap : Heap) (slot : Slot) (target : Nat) : Prop :=
  ReflTransGen (Points heap) target slot.holder

/-- `{ circularReference: true }` -/
def markerCell : Cell :=
  .object (Dict.empty.set "circularReference" (.primitive (.boolean true)))

inductive SameContent (heap : Heap) : Value → Value → Prop where
  | refl (value : Value) : SameContent heap value value
  | marker {place : Nat} (isMarker : heap[place]? = some markerCell)
    : SameContent heap (.reference place) .circularReference

/-- No cycle is left within reach, and everything but the references that lead back is as it
was.
-/
structure RemovesOnlyCycles (graph : ObjectGraph) (final : Heap) : Prop where
  noCycle : ∀ place, ReflTransGen (Points final) graph.root place
    → ¬ TransGen (Points final) place place
  sameShape : final.map Cell.shape = graph.heap.map Cell.shape
  sameContent : ∀ slot value, graph.heap.value? slot = some value
    → (∀ target, value = .reference target → ¬ LeadsBack graph.heap slot target)
    → ∃ new, final.value? slot = some new ∧ SameContent graph.heap value new

def IsArray (heap : Heap) (place : Nat) : Prop :=
  ∃ elements, heap[place]? = some (.array elements)

theorem exists_property {heap : Heap} {place : Nat} {key : Key} {value : Value}
    (isObject : ¬ IsArray heap place) (found : heap.value? ⟨place, key⟩ = some value)
    : isTraversableObject heap (.reference place) = true ∧ ∃ name, key = .property name := by
  obtain ⟨cell, present, read⟩ := Option.bind_eq_some_iff.mp found
  cases cell with
  | array elements => exact absurd ⟨elements, present⟩ isObject
  | object properties =>
      cases key with
      | element index => contradiction
      | property name =>
          have nonempty := List.ne_nil_of_mem (Dict.mem_keys_of_get? read)
          exact ⟨isTraversableObject_iff.mpr ⟨properties, present, nonempty⟩, name, rfl⟩

theorem exists_element {heap : Heap} {place : Nat} {key : Key} {value : Value}
    (isArray : IsArray heap place) (found : heap.value? ⟨place, key⟩ = some value)
    : ∃ index, key = .element index := by
  obtain ⟨elements, present⟩ := isArray
  rw [Heap.value?, present] at found
  cases key with
  | element index => exact ⟨index, rfl⟩
  | property name => contradiction

namespace ObjectGraph

variable (graph : ObjectGraph)

/-- The traversal goes from an object to the non-empty objects that its entries have as values or
in arrays.
-/
def Visited (place : Nat) : Prop :=
  ReflTransGen (fun obj target => ∃ e ∈ encounters graph.heap obj, e.target = target) graph.root
    place

/-- The reference is met, but the first path to its target does not end with it. -/
def MetAgain (e : Encounter) : Prop :=
  graph.Visited e.obj ∧ e ∈ encounters graph.heap e.obj
  ∧ ¬ ∃ path, (encounterGraph graph.heap).IsFirstPath {graph.root}
      (encounters graph.heap graph.root) (path ++ [e]) e.target

/-- By a reference that is not met again. -/
def Keeps (holder target : Nat) : Prop :=
  ∃ key, graph.heap.value? ⟨holder, key⟩ = some (.reference target)
    ∧ ∀ e, graph.MetAgain e → e.slot ≠ ⟨holder, key⟩

/-- What is met again leads back, and where it is left out, no cycle goes through an array in an
array or consists of objects that are not visited.
-/
structure HasOnlyMetCycles : Prop where
  again : ∀ e, graph.MetAgain e
    → LeadsBack graph.heap e.slot e.target ∨ graph.heap[e.target]? = some markerCell
  nested : ∀ outer inner, ReflTransGen graph.Keeps graph.root outer
    → IsArray graph.heap outer → graph.Keeps outer inner → IsArray graph.heap inner
    → ¬ ReflTransGen graph.Keeps inner outer
  unvisited : ∀ obj, ReflTransGen graph.Keeps graph.root obj
    → ¬ IsArray graph.heap obj → ¬ graph.Visited obj → ¬ TransGen graph.Keeps obj obj

/-- From an object to the next, by the encounter that is first to reach it. -/
def Hop (log : List Encounter) (obj target : Nat) : Prop :=
  ∃ e, (encounterGraph graph.heap).IsFirst graph.root log e ∧ e.obj = obj ∧ e.target = target

/-- First encounters lead to an object, or to one that has the array as the value of an entry. -/
def HopsTo (log : List Encounter) (start place : Nat) : Prop :=
  ¬ IsArray graph.heap place ∧ TransGen (graph.Hop log) start place
  ∨ IsArray graph.heap place
    ∧ ∃ obj name,
        ReflTransGen (graph.Hop log) start obj
        ∧ graph.heap.value? ⟨obj, .property name⟩ = some (.reference place)

variable {graph} {log : List Encounter} {state : State} {e : Encounter}

theorem exists_run (graph : ObjectGraph)
    : ∃ final,
        removeCircularRefs graph.heap.length ⟨graph.heap, .empty⟩ graph.root = some final
        ∧ Explored graph.heap graph.root [] (encounters graph.heap graph.root) final := by
  obtain ⟨properties, isObject⟩ := graph.rootIsObject
  have inside : graph.root < graph.heap.length := (List.getElem?_eq_some_iff.mp isObject).choose
  by_cases rooted : isTraversableObject graph.heap (.reference graph.root) = true
  · refine removeCircularRefs_exploresFrom rooted graph.heap.length [] ⟨graph.heap, .empty⟩
      graph.root .nil root_mem_seen (by simp) (Represents.start _ _) ?_
    calc unseen graph.heap graph.root []
        < (Finset.range graph.heap.length).card := by
          refine Finset.card_lt_card ((Finset.ssubset_iff_of_subset Finset.sdiff_subset).mpr ?_)
          exact ⟨graph.root, Finset.mem_range.mpr inside, by simp [seen]⟩
      _ = graph.heap.length := Finset.card_range _
  · have empty : properties.keys = [] := by
      by_contra nonempty
      exact rooted (isTraversableObject_iff.mpr ⟨properties, isObject, nonempty⟩)
    have none : graph.heap.entries graph.root = [] := by
      rw [Heap.entries, isObject]
      exact List.map_eq_nil_iff.mp empty
    refine ⟨⟨graph.heap, OrderedSet.empty.insert graph.root⟩, ?_, [], ?_, Represents.start _ _⟩
    · obtain ⟨calls, length⟩ := Nat.exists_eq_succ_of_ne_zero (Nat.ne_zero_of_lt inside)
      rw [length, removeCircularRefs, none]
      rfl
    · rw [encounters, none]
      exact .refl .nil

section Final

variable (explores : (encounterGraph graph.heap).Explores graph.root []
    (encounters graph.heap graph.root) log)
  (represents : Represents graph.heap graph.root log state)

include explores

theorem mem_log_iff
    : e ∈ log ↔ graph.Visited e.obj ∧ e ∈ encounters graph.heap e.obj :=
  Explores.mem_iff explores

theorem metAgain_iff
    : graph.MetAgain e ↔ e ∈ log ∧ ¬ (encounterGraph graph.heap).IsFirst graph.root log e := by
  constructor
  · rintro ⟨visited, leaves, notFirst⟩
    have member := (mem_log_iff explores).mpr ⟨visited, leaves⟩
    exact ⟨member, (Explores.isFirst_iff explores member).not.mpr notFirst⟩
  · rintro ⟨member, notFirst⟩
    obtain ⟨visited, leaves⟩ := (mem_log_iff explores).mp member
    exact ⟨visited, leaves, (Explores.isFirst_iff explores member).not.mp notFirst⟩

theorem isCut_iff {slot : Slot}
    : IsCut graph.heap graph.root log slot ↔ ∃ e, graph.MetAgain e ∧ e.slot = slot := by
  constructor
  · rintro ⟨e, member, notFirst, same⟩
    exact ⟨e, (metAgain_iff explores).mpr ⟨member, notFirst⟩, same⟩
  · rintro ⟨e, again, same⟩
    obtain ⟨member, notFirst⟩ := (metAgain_iff explores).mp again
    exact ⟨e, member, notFirst, same⟩

include represents

/-- What points to what in the end. -/
theorem points_final : Points state.heap = graph.Keeps := by
  ext holder target
  refine exists_congr fun key => ?_
  by_cases isCut : IsCut graph.heap graph.root log ⟨holder, key⟩
  · obtain ⟨e, again, same⟩ := (isCut_iff explores).mp isCut
    rw [represents.cut _ isCut]
    constructor
    · rintro ⟨⟩
    · exact fun kept => absurd same (kept.2 e again)
  · rw [represents.kept _ isCut]
    have notAgain : ∀ e, graph.MetAgain e → e.slot ≠ ⟨holder, key⟩ :=
      fun e again same => isCut ((isCut_iff explores).mpr ⟨e, again, same⟩)
    exact (and_iff_left notAgain).symm

/-- Nothing is lost when what is met again leads back, or is such a marker itself. -/
theorem sameContent_iff
    : (∀ slot value, graph.heap.value? slot = some value
        → (∀ target, value = .reference target → ¬ LeadsBack graph.heap slot target)
        → ∃ new, state.heap.value? slot = some new ∧ SameContent graph.heap value new)
      ↔ ∀ e, graph.MetAgain e
          → LeadsBack graph.heap e.slot e.target ∨ graph.heap[e.target]? = some markerCell := by
  constructor
  · intro same e again
    by_contra neither
    obtain ⟨apart, notMarker⟩ := not_or.mp neither
    have found := (mem_encounters_iff.mp again.2.1).2.1
    obtain ⟨new, present, content⟩ := same e.slot _ found (by
      rintro target equal
      obtain rfl := Value.reference.inj equal
      exact apart)
    rw [represents.cut _ ((isCut_iff explores).mpr ⟨e, again, rfl⟩)] at present
    cases present
    cases content with
    | marker isMarker => exact notMarker isMarker
  · intro again slot value found apart
    by_cases isCut : IsCut graph.heap graph.root log slot
    · obtain ⟨e, met, rfl⟩ := (isCut_iff explores).mp isCut
      obtain rfl := Option.some.inj (found.symm.trans (mem_encounters_iff.mp met.2.1).2.1)
      have isMarker := (again e met).resolve_left (apart e.target rfl)
      exact ⟨_, represents.cut _ isCut, .marker isMarker⟩
    · exact ⟨value, (represents.kept _ isCut).trans found, .refl value⟩

omit represents

/-- What an object keeps is met by its first encounter, unless it is an array. -/
theorem exists_first_of_keeps {obj target : Nat} {name : String} {slot : Slot}
    (visited : graph.Visited obj)
    (found : graph.heap.value? slot = some (.reference target))
    (way : slot = ⟨obj, .property name⟩
      ∨ ∃ array index elements,
          graph.heap.value? ⟨obj, .property name⟩ = some (.reference array)
          ∧ graph.heap[array]? = some (.array elements)
          ∧ slot = ⟨array, .element index⟩)
    (traversable : isTraversableObject graph.heap (.reference target) = true)
    (kept : ∀ e, graph.MetAgain e → e.slot ≠ slot)
    : ∃ e, (encounterGraph graph.heap).IsFirst graph.root log e ∧ e.obj = obj
        ∧ e.target = target := by
  refine ⟨⟨obj, name, slot, target⟩, ?_, rfl, rfl⟩
  have leaves : (⟨obj, name, slot, target⟩ : Encounter) ∈ encounters graph.heap obj :=
    mem_encounters_iff.mpr ⟨rfl, found, traversable, way⟩
  by_contra notFirst
  have member := (mem_log_iff explores).mpr ⟨visited, leaves⟩
  exact kept _ ((metAgain_iff explores).mpr ⟨member, notFirst⟩) rfl

variable {start obj place target : Nat} (visited : graph.Visited start)

include visited

theorem visited_of_hops (hops : ReflTransGen (graph.Hop log) start obj) : graph.Visited obj := by
  induction hops with
  | refl => exact visited
  | tail _ hop _ =>
      obtain ⟨e, first, rfl, rfl⟩ := hop
      obtain ⟨before, leaves⟩ := (mem_log_iff explores).mp first.mem
      exact .tail before ⟨e, leaves, rfl⟩

theorem hopsTo_of_object (isObject : ¬ IsArray graph.heap obj)
    (hops : ReflTransGen (graph.Hop log) start obj) (keeps : graph.Keeps obj target)
    (onward : ∃ next, graph.Keeps target next)
    : graph.HopsTo log start target := by
  obtain ⟨key, found, kept⟩ := keeps
  obtain ⟨-, name, rfl⟩ := exists_property isObject found
  by_cases isArray : IsArray graph.heap target
  · exact .inr ⟨isArray, obj, name, hops, found⟩
  · obtain ⟨next, other, further, -⟩ := onward
    have traversable := (exists_property isArray further).1
    have hop := exists_first_of_keeps explores (visited_of_hops explores visited hops) found
      (.inl rfl) traversable kept
    exact .inl ⟨isArray, .tail' hops hop⟩

/-- A step of a walk that passes no array in an array and goes on. -/
theorem HopsTo.step (hopsTo : graph.HopsTo log start place) (keeps : graph.Keeps place target)
    (onward : ∃ next, graph.Keeps target next)
    (notNested : IsArray graph.heap place → ¬ IsArray graph.heap target)
    : graph.HopsTo log start target := by
  rcases hopsTo with ⟨isObject, hops⟩ | ⟨isArray, obj, name, hops, held⟩
  · exact hopsTo_of_object explores visited isObject hops.to_reflTransGen keeps onward
  · obtain ⟨key, found, kept⟩ := keeps
    obtain ⟨index, rfl⟩ := exists_element isArray found
    obtain ⟨next, other, further, -⟩ := onward
    have traversable := (exists_property (notNested isArray) further).1
    obtain ⟨elements, present⟩ := isArray
    have hop := exists_first_of_keeps explores (visited_of_hops explores visited hops) found
      (.inr ⟨place, index, elements, held, present, rfl⟩) traversable kept
    exact .inl ⟨notNested ⟨elements, present⟩, .tail' hops hop⟩

omit visited

/-- A cycle that is left goes through an array in an array or consists of objects that are not
visited.
-/
theorem noCycle_iff
    : (∀ place, ReflTransGen graph.Keeps graph.root place → ¬ TransGen graph.Keeps place place)
      ↔ (∀ outer inner, ReflTransGen graph.Keeps graph.root outer
          → IsArray graph.heap outer → graph.Keeps outer inner → IsArray graph.heap inner
          → ¬ ReflTransGen graph.Keeps inner outer)
        ∧ ∀ obj, ReflTransGen graph.Keeps graph.root obj
            → ¬ IsArray graph.heap obj → ¬ graph.Visited obj → ¬ TransGen graph.Keeps obj obj := by
  constructor
  · intro noCycle
    refine ⟨?_, fun obj reached _ _ => noCycle obj reached⟩
    intro outer inner reached _ keeps _ back
    exact noCycle outer reached (.head' keeps back)
  · rintro ⟨nested, unvisited⟩ place reached cycle
    obtain ⟨start, reachedStart, isObject, cycle⟩
        : ∃ start, ReflTransGen graph.Keeps graph.root start ∧ ¬ IsArray graph.heap start
            ∧ TransGen graph.Keeps start start := by
      by_cases isArray : IsArray graph.heap place
      · obtain ⟨next, keeps, back⟩ := TransGen.head'_iff.mp cycle
        refine ⟨next, reached.tail keeps, ?_, .tail' back keeps⟩
        exact fun inner => nested place next reached isArray keeps inner back
      · exact ⟨place, reached, isArray, cycle⟩
    have visited : graph.Visited start := by
      by_contra notVisited
      exact unvisited start reachedStart isObject notVisited cycle
    -- The walk around the cycle, each place of which leads back to the start.
    have hopsTo (target : Nat) (walk : TransGen graph.Keeps start target)
        (back : ReflTransGen graph.Keeps target start)
        : graph.HopsTo log start target := by
      have onward (place : Nat) (back : ReflTransGen graph.Keeps place start)
          : ∃ next, graph.Keeps place next := by
        obtain ⟨next, keeps, -⟩ := TransGen.head'_iff.mp (TransGen.trans_right back cycle)
        exact ⟨next, keeps⟩
      induction walk with
      | single keeps =>
          exact hopsTo_of_object explores visited isObject .refl keeps (onward _ back)
      | @tail before target walk keeps ih =>
          refine (ih (.head keeps back)).step explores visited keeps (onward _ back) ?_
          intro outer inner
          exact nested before target (reachedStart.trans walk.to_reflTransGen) outer keeps inner
            (back.trans walk.to_reflTransGen)
    rcases hopsTo start cycle .refl with ⟨-, hops⟩ | ⟨isArray, -⟩
    · exact explores.isLog.no_first_cycle hops
    · exact isObject isArray

end Final

/-- The call leaves no cycle and changes nothing but references that lead back, exactly when all
that is met again leads back and no cycle is out of its reach.
-/
theorem removesOnlyCycles_iff (graph : ObjectGraph)
    : (∃ final,
        removeCircularRefs graph.heap.length ⟨graph.heap, .empty⟩ graph.root = some final
        ∧ RemovesOnlyCycles graph final.heap)
      ↔ graph.HasOnlyMetCycles := by
  obtain ⟨final, called, log, explores, represents⟩ := exists_run graph
  have points := points_final explores represents
  have content := sameContent_iff explores represents
  have cycles := noCycle_iff explores
  constructor
  · rintro ⟨other, calledToo, removes⟩
    cases called.symm.trans calledToo
    obtain ⟨nested, unvisited⟩ := cycles.mp (points ▸ removes.noCycle)
    exact ⟨content.mp removes.sameContent, nested, unvisited⟩
  · intro suited
    refine ⟨final, called, ?_, represents.shape, content.mpr suited.again⟩
    exact points ▸ cycles.mpr ⟨suited.nested, suited.unvisited⟩

/-- `root.x = [[root]]` stays as it is. -/
example
    : let heap : Heap :=
        [.object (Dict.empty.set "x" (.reference 1)), .array [.reference 2], .array [.reference 0]]
      (removeCircularRefs heap.length ⟨heap, .empty⟩ 0).map State.heap = some heap :=
  rfl

/-- `root.a` and `root.b` are the object `{ x: 1 }`. -/
def sharedObject : ObjectGraph where
  heap := [
    .object ((Dict.empty.set "a" (.reference 1)).set "b" (.reference 1)),
    .object (Dict.empty.set "x" (.primitive (.number 1)))
  ]
  root := 0
  rootIsObject := ⟨_, rfl⟩

theorem not_removesOnlyCycles_sharedObject
    : ¬ ∃ final,
        removeCircularRefs sharedObject.heap.length ⟨sharedObject.heap, .empty⟩
            sharedObject.root = some final
        ∧ RemovesOnlyCycles sharedObject final.heap := by
  rintro ⟨final, called, removes⟩
  have replaced : (removeCircularRefs sharedObject.heap.length ⟨sharedObject.heap, .empty⟩
      sharedObject.root).map (fun final => final.heap.value? ⟨0, .property "b"⟩)
        = some (some .circularReference) := by
    decide
  rw [called, Option.map_some] at replaced
  have plain : ∀ next, ¬ Points sharedObject.heap 1 next := by
    rintro next ⟨key, found⟩
    obtain ⟨cell, present, read⟩ := Option.bind_eq_some_iff.mp found
    cases present
    cases key with
    | element index => cases read
    | property name =>
        rw [Cell.value?, Dict.get?_set] at read
        split at read <;> cases read
  have apart : ¬ LeadsBack sharedObject.heap ⟨0, .property "b"⟩ 1 := by
    intro back
    rcases back.cases_head with same | ⟨next, points, -⟩
    · contradiction
    · exact plain next points
  obtain ⟨new, present, content⟩ := removes.sameContent ⟨0, .property "b"⟩ (.reference 1) rfl
    (fun target same => Value.reference.inj same ▸ apart)
  cases present.symm.trans (Option.some.inj replaced)
  cases content with
  | marker isMarker => exact absurd isMarker (by decide)

end ObjectGraph

end N8n.CircularRefs
