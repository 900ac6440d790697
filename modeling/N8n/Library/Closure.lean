import Mathlib.Data.Finset.Card
import N8n.Library.DepthFirst

/-! Searches whose branches share one set: what they come across and do not have yet, they
add and search on from. The set ends up with everything ahead of the start.
-/

namespace N8n.Library

open DepthFirst (Reaches)

variable {Vertex Key : Type*} [DecidableEq Key]
variable (edges : Vertex → List Key) (target : Key → Vertex)

/-- Collects the edges ahead of `v`; the fuel bounds the depth of the search. -/
def explore : Nat → Vertex → List Key → List Key
  | 0, _, found => found
  | fuel + 1, v, found =>
      (edges v).foldl
        (fun found key =>
          if key ∈ found then found else explore fuel (target key) (found ++ [key]))
        found

/-- One turn of the loop. -/
def exploreEdge (fuel : Nat) (found : List Key) (key : Key) : List Key :=
  if key ∈ found then found else explore edges target fuel (target key) (found ++ [key])

theorem explore_succ (fuel : Nat) (v : Vertex) (found : List Key)
    : explore edges target (fuel + 1) v found
      = (edges v).foldl (exploreEdge edges target fuel) found :=
  rfl

/-- What the search does for `keys`: it keeps what was found, has the keys, and has the
edges ahead of whatever is new.
-/
structure Explored (keys found result : List Key) : Prop where
  kept : ∀ key ∈ found, key ∈ result
  own : ∀ key ∈ keys, key ∈ result
  closed : ∀ key ∈ result, key ∉ found → ∀ next ∈ edges (target key), next ∈ result

variable {edges target}

omit [DecidableEq Key] in
theorem Explored.nil (found : List Key) : Explored edges target [] found found where
  kept _ member := member
  own := by simp
  closed _ member fresh := absurd member fresh

theorem Explored.cons {key : Key} {keys found between result : List Key}
    (first : Explored edges target [key] found between)
    (rest : Explored edges target keys between result)
    : Explored edges target (key :: keys) found result where
  kept other member := rest.kept other (first.kept other member)
  own other member := by
    rcases List.mem_cons.mp member with rfl | later
    · exact rest.kept other (first.own other (List.mem_singleton_self other))
    · exact rest.own other later
  closed other member fresh := by
    by_cases early : other ∈ between
    · intro next ahead
      exact rest.kept next (first.closed other early fresh next ahead)
    · exact rest.closed other member early

variable {key : Key} {found : List Key}

/-- A new key and all that is ahead of it. -/
theorem Explored.descend {result : List Key}
    (ahead : Explored edges target (edges (target key)) (found ++ [key]) result)
    : Explored edges target [key] found result where
  kept other member := ahead.kept other (List.mem_append_left [key] member)
  own other member := ahead.kept other (List.mem_append_right found member)
  closed other member fresh := by
    by_cases same : other = key
    · obtain rfl := same
      exact ahead.own
    · exact ahead.closed other member (by simp [fresh, same])

/-- The keys that the search has still to come across. -/
def remaining (all : Finset Key) (found : List Key) : Nat := (all \ found.toFinset).card

theorem remaining_le (all : Finset Key) {result : List Key} (kept : ∀ key ∈ found, key ∈ result)
    : remaining all result ≤ remaining all found := by
  apply Finset.card_le_card
  intro key member
  simp only [Finset.mem_sdiff, List.mem_toFinset] at member ⊢
  exact ⟨member.1, fun old => member.2 (kept key old)⟩

variable {all : Finset Key}

theorem remaining_lt (known : key ∈ all) (fresh : key ∉ found)
    : remaining all (found ++ [key]) < remaining all found := by
  apply Finset.card_lt_card
  refine Finset.ssubset_iff_of_subset ?_ |>.mpr ⟨key, ?_, ?_⟩
  · intro other member
    simp only [Finset.mem_sdiff, List.mem_toFinset, List.mem_append, not_or] at member ⊢
    exact ⟨member.1, member.2.1⟩
  · simp [known, fresh]
  · simp

/-- With enough fuel the search is complete, by induction on the fuel and then along the
loop over the edges.
-/
theorem explored (finite : ∀ v, ∀ key ∈ edges v, key ∈ all) (fuel : Nat) (v : Vertex)
    (found : List Key) (enough : remaining all found < fuel)
    : Explored edges target (edges v) found (explore edges target fuel v found) := by
  induction fuel generalizing v found with
  | zero => omega
  | succ fuel ih =>
      have turn : ∀ found key, key ∈ all → remaining all found < fuel + 1
          → Explored edges target [key] found (exploreEdge edges target fuel found key) := by
        intro found key known enough
        unfold exploreEdge
        split
        case isTrue old =>
          exact ⟨fun _ member => member, by simpa using old, fun _ member fresh =>
            absurd member fresh⟩
        case isFalse fresh =>
          have less := remaining_lt known fresh
          exact (ih (target key) (found ++ [key]) (by omega)).descend
      rw [explore_succ]
      have known := finite v
      generalize edges v = keys at known ⊢
      induction keys generalizing found with
      | nil => exact Explored.nil found
      | cons key keys loop =>
          have first := turn found key (known key (.head _)) enough
          have less := remaining_le all first.kept
          have others := fun other member => known other (.tail _ member)
          exact first.cons (loop _ (by omega) others)

/-- The search stays inside every set that holds the first edges and, with an edge, those
ahead of it.
-/
theorem explore_inside (good : Key → Prop)
    (closed : ∀ key, good key → ∀ next ∈ edges (target key), good next) (fuel : Nat)
    (v : Vertex) (found : List Key) (own : ∀ key ∈ edges v, good key)
    (old : ∀ key ∈ found, good key)
    : ∀ key ∈ explore edges target fuel v found, good key := by
  induction fuel generalizing v found with
  | zero => exact old
  | succ fuel ih =>
      rw [explore_succ]
      generalize edges v = keys at own ⊢
      induction keys generalizing found with
      | nil => exact old
      | cons key keys loop =>
          have here := own key (.head _)
          refine loop _ ?_ (fun other member => own other (.tail _ member))
          unfold exploreEdge
          split
          · exact old
          · apply ih _ _ (closed key here)
            intro other member
            rcases List.mem_append.mp member with early | same
            · exact old other early
            · exact List.mem_singleton.mp same ▸ here

/-- From nothing, the search finds exactly the edges of the vertices that it can reach. -/
theorem mem_explore_iff (finite : ∀ v, ∀ key ∈ edges v, key ∈ all) {fuel : Nat}
    (enough : all.card < fuel) {v : Vertex}
    : key ∈ explore edges target fuel v []
      ↔ ∃ w, Reaches (fun v => (edges v).map target) v w ∧ key ∈ edges w := by
  constructor
  · intro member
    refine explore_inside
      (fun key => ∃ w, Reaches (fun v => (edges v).map target) v w ∧ key ∈ edges w)
      ?_ fuel v [] ?_ (by simp) key member
    · rintro other ⟨w, path, edge⟩ next ahead
      exact ⟨target other, path.trans (.edge (List.mem_map_of_mem edge)), ahead⟩
    · intro other edge
      exact ⟨v, .refl v, edge⟩
  · rintro ⟨w, path, edge⟩
    have complete : Explored edges target (edges v) [] (explore edges target fuel v []) :=
      explored finite fuel v [] (by simpa [remaining] using enough)
    have inside := path.closed
      (fun w => ∀ key ∈ edges w, key ∈ explore edges target fuel v []) ?_ complete.own
    · exact inside key edge
    · intro w own next ahead
      obtain ⟨via, edge, rfl⟩ := List.mem_map.mp ahead
      exact complete.closed via (own via edge) (by simp)

end N8n.Library
