import SignalBox.Layout.Coordinate
import SignalBox.OrderedSet

/-!
# The track graph

Nodes of the yard diagram and undirected links between them. A link is kept with its smaller end
first, and its ends are always nodes of the graph.
-/

namespace SignalBox

/-- An undirected link, its smaller end first. -/
structure TrackLink where
  /-- The smaller end. -/
  a : Coordinate
  /-- The larger end. -/
  b : Coordinate
  /-- The ends stand in order, so that a link has one form only. -/
  ordered : (compare a b).isLE = true
  deriving DecidableEq

namespace TrackLink

/-- The link between two places. -/
def between (a b : Coordinate) : TrackLink :=
  if h : (compare a b).isLE = true then ⟨a, b, h⟩
  else ⟨b, a, by
    rw [Std.OrientedOrd.eq_swap (a := b) (b := a), Ordering.isLE_swap]
    cases hab : compare a b <;> simp_all⟩

/-- The order of links: by the smaller end, then by the larger one. -/
instance : Ord TrackLink :=
  ⟨compareLex (compareOn TrackLink.a) (compareOn TrackLink.b)⟩

instance : Std.TransOrd TrackLink :=
  inferInstanceAs (Std.TransCmp (compareLex (compareOn TrackLink.a) (compareOn TrackLink.b)))

instance : Std.LawfulEqOrd TrackLink where
  eq_of_compare {x y} h := by
    have h : compareLex (compareOn TrackLink.a) (compareOn TrackLink.b) x y = .eq := h
    rw [compareLex, Ordering.then_eq_eq] at h
    cases x; cases y
    simp only [mk.injEq]
    exact ⟨Std.LawfulEqOrd.eq_of_compare h.1, Std.LawfulEqOrd.eq_of_compare h.2⟩

end TrackLink

/-- Nodes and links of the yard diagram. -/
structure TrackGraph where
  /-- The places that are nodes. -/
  nodes : OrderedSet Coordinate
  /-- The links between them. -/
  links : OrderedSet TrackLink
  /-- Both ends of a link are nodes. -/
  ends_mem : ∀ l ∈ links, l.a ∈ nodes ∧ l.b ∈ nodes
  deriving DecidableEq

namespace TrackGraph

/-- The graph without nodes. -/
def empty : TrackGraph where
  nodes := .empty
  links := .empty
  ends_mem l h := absurd h (by simp [OrderedSet.mem_def, OrderedSet.empty])

/-- Adds a node. -/
def addNode (g : TrackGraph) (c : Coordinate) : TrackGraph where
  nodes := g.nodes.insert c
  links := g.links
  ends_mem l h := by
    have := g.ends_mem l h
    simp [this]

/-- Adds a link together with its ends. -/
def addLink (g : TrackGraph) (a b : Coordinate) : TrackGraph where
  nodes := (g.nodes.insert a).insert b
  links := g.links.insert (.between a b)
  ends_mem l h := by
    rcases OrderedSet.mem_insert.1 h with rfl | h
    · unfold TrackLink.between
      split <;> simp
    · have := g.ends_mem l h
      simp [this]

/-- The graph with the given nodes and links, and with the ends of the links. -/
def ofLists (nodes : List Coordinate) (links : List (Coordinate × Coordinate)) : TrackGraph :=
  links.foldl (fun g l ↦ g.addLink l.1 l.2) (nodes.foldl addNode empty)

/-- Whether there is a node at a place. -/
def hasNode (g : TrackGraph) (c : Coordinate) : Bool :=
  c ∈ g.nodes

/-- The link between two places, whichever is named first. -/
def link? (g : TrackGraph) (a b : Coordinate) : Option TrackLink :=
  if TrackLink.between a b ∈ g.links then some (.between a b) else none

/-- Whether two places are nodes joined by a link. -/
def joins (g : TrackGraph) (a b : Coordinate) : Bool :=
  g.hasNode a && g.hasNode b && (g.link? a b).isSome

end TrackGraph

end SignalBox
