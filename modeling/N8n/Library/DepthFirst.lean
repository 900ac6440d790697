import Mathlib.Data.List.Basic
import Mathlib.Logic.Relation

/-! Depth-first search: the order in which it first visits vertices, and the order in which
it is done with edges.
-/

namespace N8n.DepthFirst

variable {Vertex : Type*}

section Reachability

variable (successors : Vertex → List Vertex)

def Reaches : Vertex → Vertex → Prop :=
  Relation.ReflTransGen (fun x y => y ∈ successors x)

/-- Each of the two vertices can be reached from the other. -/
def Mutual (x y : Vertex) : Prop := Reaches successors x y ∧ Reaches successors y x

variable {successors} {x y z : Vertex}

theorem Reaches.refl (x : Vertex) : Reaches successors x x := Relation.ReflTransGen.refl

theorem Reaches.edge (edge : y ∈ successors x) : Reaches successors x y :=
  Relation.ReflTransGen.single edge

theorem Reaches.trans (first : Reaches successors x y) (second : Reaches successors y z)
    : Reaches successors x z :=
  Relation.ReflTransGen.trans first second

theorem Mutual.refl (x : Vertex) : Mutual successors x x := ⟨.refl x, .refl x⟩

theorem Mutual.symm (mutual_ : Mutual successors x y) : Mutual successors y x :=
  ⟨mutual_.2, mutual_.1⟩

theorem Mutual.trans (first : Mutual successors x y) (second : Mutual successors y z)
    : Mutual successors x z :=
  ⟨first.1.trans second.1, second.2.trans first.2⟩

/-- A set that no edge leaves is left by no path, by induction on the path. -/
theorem Reaches.closed (inside : Vertex → Prop)
    (closed : ∀ x, inside x → ∀ y ∈ successors x, inside y) (path : Reaches successors x y)
    (start : inside x)
    : inside y := by
  induction path with
  | refl => exact start
  | tail _ edge ih => exact closed _ ih _ edge

theorem Reaches.leaves (inside : Vertex → Prop) (path : Reaches successors x y)
    (start : inside x) (outside : ¬ inside y)
    : ∃ a b, inside a ∧ ¬ inside b ∧ b ∈ successors a ∧ Reaches successors x a
        ∧ Reaches successors b y := by
  induction path with
  | refl => exact absurd start outside
  | @tail b c before edge ih =>
      by_cases inner : inside b
      · exact ⟨b, c, inner, outside, edge, before, .refl c⟩
      · obtain ⟨a, b', insideA, outsideB, step, upTo, onward⟩ := ih inner
        exact ⟨a, b', insideA, outsideB, step, upTo, onward.trans (.edge edge)⟩

end Reachability

/-- The vertices in the order of their first visits, and the edges from the latest to the
earliest one that the search is done with.
-/
structure Trace (Vertex : Type*) where
  order : List Vertex
  followed : List (Vertex × Vertex)

def Trace.enter (trace : Trace Vertex) (v : Vertex) : Trace Vertex :=
  { trace with order := trace.order ++ [v] }

def Trace.follow (trace : Trace Vertex) (x y : Vertex) : Trace Vertex :=
  { trace with followed := (x, y) :: trace.followed }

variable [DecidableEq Vertex] (successors : Vertex → List Vertex)

/-- Searches from `v`; the fuel bounds the depth of the search. -/
def visit : Nat → Trace Vertex → Vertex → Trace Vertex
  | 0, trace, _ => trace
  | fuel + 1, trace, v =>
      if v ∈ trace.order then trace
      else
        (successors v).foldl (fun trace y => (visit fuel trace y).follow v y) (trace.enter v)

/-- Searches from every vertex in turn. -/
def traverse (vertices : List Vertex) : Trace Vertex :=
  vertices.foldl (visit successors (vertices.length + 1)) ⟨[], []⟩

/-- There is a path from `v` to `u` on which the search was done with each edge before it
was done with the edge in front of it.
-/
def Links : List (Vertex × Vertex) → Vertex → Vertex → Prop
  | [], v, u => v = u
  | (x, y) :: earlier, v, u => Links earlier v u ∨ (v = x ∧ Links earlier y u)

instance Links.decidable
    : (followed : List (Vertex × Vertex)) → (v u : Vertex) → Decidable (Links followed v u)
  | [], v, u => inferInstanceAs (Decidable (v = u))
  | (_, y) :: earlier, v, u =>
      have := Links.decidable earlier v u
      have := Links.decidable earlier y u
      inferInstanceAs (Decidable (_ ∨ _ ∧ _))

omit [DecidableEq Vertex] in
theorem Links.refl (followed : List (Vertex × Vertex)) (v : Vertex) : Links followed v v := by
  induction followed with
  | nil => rfl
  | cons edge earlier ih => exact .inl ih

omit [DecidableEq Vertex] in
variable {followed : List (Vertex × Vertex)}

theorem Links.of_mem {x y : Vertex} (member : (x, y) ∈ followed)
    : Links followed x y := by
  induction followed with
  | nil => simp at member
  | cons edge earlier ih =>
      rcases List.mem_cons.mp member with same | later
      · obtain rfl := same
        exact .inr ⟨rfl, .refl earlier y⟩
      · exact .inl (ih later)

omit [DecidableEq Vertex] in
variable {v u : Vertex}

/-- An edge from elsewhere adds no chain that starts at `v`. -/
theorem Links.of_cons {x y : Vertex} (links : Links ((x, y) :: followed) v u) (elsewhere : v ≠ x)
    : Links followed v u :=
  links.resolve_right fun here => elsewhere here.1

omit [DecidableEq Vertex] in
theorem Links.eq_or_mem (links : Links followed v u)
    : v = u ∨ ∃ x, (x, u) ∈ followed := by
  induction followed generalizing v with
  | nil => exact .inl links
  | cons edge earlier ih =>
      rcases links with before | ⟨_, onward⟩
      · rcases ih before with same | ⟨w, member⟩
        · exact .inl same
        · exact .inr ⟨w, List.mem_cons_of_mem edge member⟩
      · rcases ih onward with rfl | ⟨w, member⟩
        · exact .inr ⟨edge.1, (.head _)⟩
        · exact .inr ⟨w, List.mem_cons_of_mem edge member⟩

omit [DecidableEq Vertex] in
theorem Links.eq_of_not_source (links : Links followed v u) (noEdge : ∀ y, (v, y) ∉ followed)
    : v = u := by
  induction followed with
  | nil => exact links
  | cons edge earlier ih =>
      rcases links with before | ⟨rfl, _⟩
      · exact ih before (fun y member => noEdge y (.tail _ member))
      · exact absurd (.head _) (noEdge edge.2)

omit [DecidableEq Vertex] in
theorem Links.reaches {successors : Vertex → List Vertex} (links : Links followed v u)
    (edges : ∀ edge ∈ followed, edge.2 ∈ successors edge.1)
    : Reaches successors v u := by
  induction followed generalizing v with
  | nil => exact links ▸ .refl v
  | cons edge earlier ih =>
      have before : ∀ edge ∈ earlier, edge.2 ∈ successors edge.1 :=
        fun other member => edges other (.tail _ member)
      rcases links with links | ⟨rfl, onward⟩
      · exact ih links before
      · exact (Reaches.edge (edges edge (by simp))).trans (ih onward before)

/-- `root` is, of the vertices that `v` is mutually reachable with, the one that comes
first in `order`.
-/
def FirstOfComponent (order : List Vertex) (v root : Vertex) : Prop :=
  Mutual successors v root
  ∧ ∀ u, Mutual successors v u → order.idxOf root ≤ order.idxOf u

/-- Every vertex is linked to the vertex of its component that was visited first. -/
def Timely (vertices : List Vertex) (trace : Trace Vertex) : Prop :=
  ∀ v ∈ vertices, ∀ root, FirstOfComponent successors trace.order v root
    → Links trace.followed v root

/-- The sets are the classes of mutually reachable vertices. -/
structure AreComponents (vertices : List Vertex) (components : List (List Vertex)) : Prop
    where
  disjoint : components.Pairwise List.Disjoint
  covering : ∀ v ∈ vertices, ∃ component ∈ components, v ∈ component
  sharing : ∀ x ∈ vertices, ∀ y ∈ vertices,
    (∃ component ∈ components, x ∈ component ∧ y ∈ component) ↔ Mutual successors x y

end N8n.DepthFirst
