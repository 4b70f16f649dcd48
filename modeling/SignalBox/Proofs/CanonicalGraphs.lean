import Mathlib.Data.Prod.Basic
import SignalBox.Proofs.FaithfulDocuments
import SignalBox.Proofs.IndexedLayouts

/-!
# Graphs do not show how they were made

A graph is made by adding nodes and links to the graph without nodes, or to one that is read from a
document. The main statement (`TrackGraph.canonical_of_arises`) is that nothing of this shows but
which nodes and links were added (`TrackGraph.Canonical`): a link is found from both sides, and what
is written is in order and without repetition, so that the order of the additions, their number and
the direction of the links make no difference to it.

* **Additions**: each one brings its nodes and its link and keeps all others (`Holds.addNode`,
  `Holds.addLink`). What a document lists is added in the same way, so that the ends of a listed
  link are nodes even if they are not listed (`holds_of_read`).
* **The order** in which nodes and links are kept is that of columns, then of rows
  (`Coordinate.compare_eq_lt_iff`, `TrackLink.compare_eq_lt_iff`).
-/

namespace SignalBox

open Document (write read?)

/-! ### The order of places and of links -/

namespace Coordinate

/-- A place comes before another if its column does or, in the same column, its row. -/
def Before (a b : Coordinate) : Prop :=
  a.column < b.column ∨ a.column = b.column ∧ a.row < b.row

variable {a b : Coordinate}

theorem compare_eq_lt_iff : compare a b = .lt ↔ a.Before b := by
  have h : compare a b = compareLex (compareOn column) (compareOn row) a b := rfl
  rw [h, compareLex, Ordering.then_eq_lt, compareOn, compareOn, Std.compare_eq_lt,
    Std.compare_eq_lt, Std.LawfulEqOrd.compare_eq_iff_eq, Before]

theorem isLE_compare_iff : (compare a b).isLE = true ↔ a = b ∨ a.Before b := by
  rw [Ordering.isLE_iff_eq_lt_or_eq_eq, compare_eq_lt_iff, Std.LawfulEqOrd.compare_eq_iff_eq,
    or_comm]

end Coordinate

open Coordinate (Before)

namespace TrackLink

theorem compare_eq_lt_iff {k l : TrackLink} :
    compare k l = .lt ↔ Prod.Lex Before Before (k.a, k.b) (l.a, l.b) := by
  have h : compare k l = compareLex (compareOn TrackLink.a) (compareOn TrackLink.b) k l := rfl
  rw [h, compareLex, Ordering.then_eq_lt, compareOn, compareOn, Coordinate.compare_eq_lt_iff,
    Coordinate.compare_eq_lt_iff, Std.LawfulEqOrd.compare_eq_iff_eq, Prod.lex_def]

/-- The link between two places is the same from both sides. -/
theorem between_comm (a b : Coordinate) : between a b = between b a :=
  between_eq_iff.2 (between_eq_iff.1 (rfl : between b a = between b a)).symm

end TrackLink

namespace TrackGraph

/-! ### How a graph is made -/

/-- What is added to a graph. -/
inductive Addition
  /-- A node. -/
  | node (c : Coordinate)
  /-- A link with its ends. -/
  | link (a b : Coordinate)

/-- Nodes, then links. -/
def additionsOf (nodes : List Coordinate) (links : List (Coordinate × Coordinate)) :
    List Addition :=
  nodes.map .node ++ links.map fun l ↦ .link l.1 l.2

/-- What a document lists: its nodes, then its links. A list that is missing has no members. -/
def listed (j : Json) : List Addition :=
  match Record.ofJson? ["nodes", "links"] j with
  | some r => additionsOf ((r.orElse? "nodes" []).getD []) ((r.orElse? "links" []).getD [])
  | none => []

/-- A graph is made by some additions, one after the other: to the graph without nodes, or to one
that was read and has what its document lists. -/
inductive Arises : TrackGraph → List Addition → Prop
  | empty : Arises empty []
  | read {g : TrackGraph} {j : Json} (h : read? j = some g) : Arises g (listed j)
  | node {g : TrackGraph} {additions : List Addition} (h : Arises g additions) (c : Coordinate) :
      Arises (g.addNode c) (additions ++ [.node c])
  | link {g : TrackGraph} {additions : List Addition} (h : Arises g additions)
      (a b : Coordinate) : Arises (g.addLink a b) (additions ++ [.link a b])

/-- A graph has the nodes and links of some additions: the nodes that were added, those that are
ends of a link that was added, and the links that were added, in either direction. -/
structure Holds (g : TrackGraph) (additions : List Addition) : Prop where
  mem_nodes_iff (c : Coordinate) : c ∈ g.nodes ↔
    .node c ∈ additions ∨ ∃ d, .link c d ∈ additions ∨ .link d c ∈ additions
  mem_links_iff (l : TrackLink) : l ∈ g.links ↔
    .link l.a l.b ∈ additions ∨ .link l.b l.a ∈ additions

variable {g : TrackGraph} {additions others : List Addition} {j : Json}

theorem holds_empty : Holds empty [] where
  mem_nodes_iff c := by simp [empty, OrderedSet.mem_def, OrderedSet.empty]
  mem_links_iff l := by simp [empty, OrderedSet.mem_def, OrderedSet.empty]

theorem Holds.addNode (h : g.Holds additions) (c : Coordinate) :
    (g.addNode c).Holds (additions ++ [.node c]) where
  mem_nodes_iff d := by
    rw [TrackGraph.addNode, OrderedSet.mem_insert, h.mem_nodes_iff]
    simp only [List.mem_append, List.mem_singleton, Addition.node.injEq, reduceCtorEq, or_false]
    rw [or_comm, or_right_comm]
  mem_links_iff l := by
    rw [TrackGraph.addNode, h.mem_links_iff]
    simp

theorem Holds.addLink (h : g.Holds additions) (a b : Coordinate) :
    (g.addLink a b).Holds (additions ++ [.link a b]) where
  mem_nodes_iff c := by
    rw [TrackGraph.addLink, OrderedSet.mem_insert, OrderedSet.mem_insert, h.mem_nodes_iff]
    simp only [List.mem_append, List.mem_singleton, Addition.link.injEq, reduceCtorEq, or_false]
    grind
  mem_links_iff l := by
    rw [TrackGraph.addLink, OrderedSet.mem_insert, h.mem_links_iff, eq_comm,
      TrackLink.between_eq_iff]
    simp only [List.mem_append, List.mem_singleton, Addition.link.injEq]
    grind

section Lists

variable {nodes : List Coordinate} {links : List (Coordinate × Coordinate)} {a b c : Coordinate}

theorem node_mem_additionsOf : .node c ∈ additionsOf nodes links ↔ c ∈ nodes := by
  simp [additionsOf]

theorem link_mem_additionsOf : .link a b ∈ additionsOf nodes links ↔ (a, b) ∈ links := by
  simp [additionsOf]

theorem holds_ofLists : (ofLists nodes links).Holds (additionsOf nodes links) where
  mem_nodes_iff c := by
    rw [mem_nodes_ofLists, node_mem_additionsOf]
    simp only [link_mem_additionsOf, Prod.exists]
    grind
  mem_links_iff l := by
    rw [mem_links_ofLists, link_mem_additionsOf, link_mem_additionsOf]
    simp only [@eq_comm _ l, TrackLink.between_eq_iff, Prod.exists]
    grind

end Lists

/-- A graph that is read has what its document lists. -/
theorem holds_of_read (h : read? j = some g) : g.Holds (listed j) := by
  simp only [read?, Option.bind_eq_bind, Option.bind_eq_some_iff, Option.pure_def,
    Option.some.injEq] at h
  obtain ⟨r, hrecord, nodes, hnodes, links, hlinks, rfl⟩ := h
  rw [listed, hrecord]
  simp only [hnodes, hlinks, Option.getD_some]
  exact holds_ofLists

/-- **A graph has what was added**, and nothing else. -/
theorem Arises.holds (h : g.Arises additions) : g.Holds additions := by
  induction h with
  | empty => exact holds_empty
  | read h => exact holds_of_read h
  | node _ c ih => exact ih.addNode c
  | link _ a b ih => exact ih.addLink a b

/-! ### Links from both sides -/

theorem link?_comm (a b : Coordinate) : g.link? a b = g.link? b a := by
  rw [link?, TrackLink.between_comm, link?]

/-- **A link is found** if it was added in either direction. -/
theorem Holds.isSome_link?_iff (h : g.Holds additions) (a b : Coordinate) :
    (g.link? a b).isSome = true ↔ .link a b ∈ additions ∨ .link b a ∈ additions := by
  rw [link?, Option.isSome_ite, h.mem_links_iff]
  -- the link has the two places as its ends, but perhaps the other way round
  rcases TrackLink.between_eq_iff.1 (rfl : TrackLink.between a b = .between a b) with
    ⟨ha, hb⟩ | ⟨ha, hb⟩
  · rw [ha, hb]
  · rw [ha, hb, or_comm]

/-! ### What is written -/

/-- Nodes and links are written in order: each comes before all after it, by column and then by row,
and links by their first end and then by their second. -/
structure WritesInOrder (g : TrackGraph) (nodes : List Coordinate)
    (links : List (Coordinate × Coordinate)) : Prop where
  write_eq : write g = .object [("nodes", write nodes), ("links", write links)]
  nodes_ascending : nodes.Pairwise Before
  links_ascending : links.Pairwise (Prod.Lex Before Before)
  mem_nodes_iff (c : Coordinate) : c ∈ nodes ↔ c ∈ g.nodes
  mem_links_iff (ends : Coordinate × Coordinate) :
    ends ∈ links ↔ ∃ l ∈ g.links, (l.a, l.b) = ends

theorem writesInOrder (g : TrackGraph) :
    g.WritesInOrder g.nodes.toList (g.links.toList.map fun l ↦ (l.a, l.b)) where
  write_eq := rfl
  nodes_ascending := g.nodes.ascending.imp Coordinate.compare_eq_lt_iff.1
  links_ascending := List.pairwise_map.2 (g.links.ascending.imp TrackLink.compare_eq_lt_iff.1)
  mem_nodes_iff _ := Iff.rfl
  mem_links_iff _ := List.mem_map

theorem write_eq_iff {g h : TrackGraph} :
    (write g : Json) = write h ↔
      (∀ c, c ∈ g.nodes ↔ c ∈ h.nodes) ∧ ∀ l, l ∈ g.links ↔ l ∈ h.links := by
  constructor
  · intro hwrite
    obtain rfl : g = h := by
      rw [← Option.some.injEq, ← Faithful.read?_write g, hwrite, Faithful.read?_write]
    exact ⟨fun _ ↦ Iff.rfl, fun _ ↦ Iff.rfl⟩
  · rintro ⟨hnodes, hlinks⟩
    rw [ext (OrderedSet.ext hnodes) (OrderedSet.ext hlinks)]

theorem Holds.write_eq {h : TrackGraph} (hg : g.Holds additions) (hh : h.Holds others)
    (hsame : ∀ x, x ∈ additions ↔ x ∈ others) : (write g : Json) = write h := by
  refine write_eq_iff.2 ⟨fun c ↦ ?_, fun l ↦ ?_⟩
  · simp only [hg.mem_nodes_iff, hh.mem_nodes_iff, hsame]
  · simp only [hg.mem_links_iff, hh.mem_links_iff, hsame]

/-- Of its additions, a graph shows only which nodes and links there are. -/
structure Canonical (g : TrackGraph) (additions : List Addition) : Prop where
  /-- It has what was added, and nothing else. -/
  holds : g.Holds additions
  /-- The ends of a link are nodes, and the smaller one is its first. -/
  ends_mem : ∀ l ∈ g.links, l.a ∈ g.nodes ∧ l.b ∈ g.nodes ∧ (l.a = l.b ∨ l.a.Before l.b)
  /-- There is a link if it was added in either direction. -/
  isSome_link?_iff (a b : Coordinate) :
    (g.link? a b).isSome = true ↔ .link a b ∈ additions ∨ .link b a ∈ additions
  /-- A link is found from both sides. -/
  link?_comm (a b : Coordinate) : g.link? a b = g.link? b a
  /-- Its nodes and links are written in order. -/
  writesInOrder : ∃ nodes links, g.WritesInOrder nodes links
  /-- The same is written for a graph with the same nodes and links, and for no other. -/
  write_eq_iff (h : TrackGraph) : (write h : Json) = write g ↔
    (∀ c, c ∈ h.nodes ↔ c ∈ g.nodes) ∧ ∀ l, l ∈ h.links ↔ l ∈ g.links
  /-- The same is written if the same was added, in whatever order and however often. -/
  write_eq (h : TrackGraph) (others : List Addition) (harises : h.Arises others)
    (hsame : ∀ x, x ∈ others ↔ x ∈ additions) : (write h : Json) = write g
  /-- What is written is read as the graph, and so is its text. -/
  reads : read? (write g) = some g ∧ Document.ofText? (Document.text g) = some g

/-- **A graph does not show how it was made**: whatever was added to it, and in whatever order, it
has these nodes and links, its links are found from both sides, and what is written of it is in
order and read as the same graph. -/
theorem canonical_of_arises (h : g.Arises additions) : g.Canonical additions where
  holds := h.holds
  ends_mem l hl :=
    ⟨(g.ends_mem l hl).1, (g.ends_mem l hl).2, Coordinate.isLE_compare_iff.1 l.ordered⟩
  isSome_link?_iff := h.holds.isSome_link?_iff
  link?_comm := link?_comm
  writesInOrder := ⟨_, _, g.writesInOrder⟩
  write_eq_iff _ := write_eq_iff
  write_eq _ _ harises := harises.holds.write_eq h.holds
  reads := ⟨Faithful.read?_write g, (Document.roundTrips TrackGraph).ofText?_text g⟩

/-- A document lists no node, but a link in both directions and one from a place to itself. The ends
are nodes of the graph that is read, and a node that is added after them comes to stand between
them. -/
theorem canonical_of_arises_of_unlisted_ends :
    ∃ g : TrackGraph,
      read? (.object [("links", write [((⟨2, 1⟩ : Coordinate), (⟨1, 1⟩ : Coordinate)),
        (⟨1, 1⟩, ⟨2, 1⟩), (⟨5, 4⟩, ⟨5, 4⟩)])]) = some g ∧
      (g.addNode ⟨7, 2⟩).Canonical
        [.link ⟨2, 1⟩ ⟨1, 1⟩, .link ⟨1, 1⟩ ⟨2, 1⟩, .link ⟨5, 4⟩ ⟨5, 4⟩, .node ⟨7, 2⟩] ∧
      (write (g.addNode ⟨7, 2⟩) : Json) = .object [
        ("nodes", write [(⟨1, 1⟩ : Coordinate), ⟨2, 1⟩, ⟨7, 2⟩, ⟨5, 4⟩]),
        ("links", write [((⟨1, 1⟩ : Coordinate), (⟨2, 1⟩ : Coordinate)), (⟨5, 4⟩, ⟨5, 4⟩)])] := by
  have hread : read? (.object [("links", write [((⟨2, 1⟩ : Coordinate), (⟨1, 1⟩ : Coordinate)),
      (⟨1, 1⟩, ⟨2, 1⟩), (⟨5, 4⟩, ⟨5, 4⟩)])]) =
      some (ofLists [] [(⟨2, 1⟩, ⟨1, 1⟩), (⟨1, 1⟩, ⟨2, 1⟩), (⟨5, 4⟩, ⟨5, 4⟩)]) := by
    decide +kernel
  exact ⟨_, hread, canonical_of_arises ((Arises.read hread).node ⟨7, 2⟩), rfl⟩

end TrackGraph

end SignalBox
