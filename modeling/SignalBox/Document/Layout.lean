import SignalBox.Document.Command
import SignalBox.Layout.Definition

/-!
# Documents of layouts

Every field of a layout, of its points, signals, routes and of its graph may be missing; coordinates
and turntable tracks are complete, and a point of a route may leave out only that it is part of the
route. A graph is written as its nodes and links in ascending order.
-/

namespace SignalBox

open Document (write)

instance : Document Coordinate where
  write c := .object [("row", write c.row), ("column", write c.column)]
  read? j := do
    let r ← Record.ofJson? ["row", "column"] j
    return { row := ← r.required? "row", column := ← r.required? "column" }

instance : Document PointDefinition where
  write p := .object [
    ("label", write p.label),
    ("straight_addresses", write p.straight),
    ("diverging_addresses", write p.diverging),
    ("lock_address_offset", write p.lockOffset),
    ("switch_end", write p.switchEnd),
    ("diverging_end", write p.divergingEnd)]
  read? j := do
    let r ← Record.ofJson?
      ["label", "straight_addresses", "diverging_addresses", "lock_address_offset", "switch_end",
        "diverging_end"] j
    return {
      label := ← r.orElse? "label" ""
      straight := ← r.orElse? "straight_addresses" []
      diverging := ← r.orElse? "diverging_addresses" []
      lockOffset := ← r.orElse? "lock_address_offset" 0
      switchEnd := ← r.orElse? "switch_end" none
      divergingEnd := ← r.orElse? "diverging_end" none }

instance : Document SignalDefinition where
  write s := .object [
    ("name", write s.name),
    ("coordinate", write s.coordinate),
    ("address", write s.address),
    ("feedback_address", write s.feedback),
    ("is_route_start", write s.isRouteStart),
    ("is_route_end", write s.isRouteEnd)]
  read? j := do
    let r ← Record.ofJson?
      ["name", "coordinate", "address", "feedback_address", "is_route_start", "is_route_end"] j
    return {
      name := ← r.orElse? "name" ""
      coordinate := ← r.orElse? "coordinate" ⟨0, 0⟩
      address := ← r.orElse? "address" 0
      feedback := ← r.orElse? "feedback_address" none
      isRouteStart := ← r.orElse? "is_route_start" false
      isRouteEnd := ← r.orElse? "is_route_end" false }

instance : Document TurntableTrack where
  write t := .object [("number", write t.number), ("address", write t.address)]
  read? j := do
    let r ← Record.ofJson? ["number", "address"] j
    return { number := ← r.required? "number", address := ← r.required? "address" }

instance : Document RoutePoint where
  write p := .object [
    ("label", write p.label), ("position", write p.position), ("off_route", write p.offRoute)]
  read? j := do
    let r ← Record.ofJson? ["label", "position", "off_route"] j
    return {
      label := ← r.required? "label"
      position := ← r.required? "position"
      offRoute := ← r.orElse? "off_route" false }

instance : Document RouteDefinition where
  write d := .object [
    ("from_signal", write d.start), ("to_signal", write d.destination), ("points", write d.points)]
  read? j := do
    let r ← Record.ofJson? ["from_signal", "to_signal", "points"] j
    return {
      start := ← r.orElse? "from_signal" 0
      destination := ← r.orElse? "to_signal" 0
      points := ← r.orElse? "points" [] }

instance : Document TrackGraph where
  write g := .object [
    ("nodes", write g.nodes.toList),
    ("links", write (g.links.toList.map fun l ↦ (l.a, l.b)))]
  read? j := do
    let r ← Record.ofJson? ["nodes", "links"] j
    return .ofLists (← r.orElse? "nodes" []) (← r.orElse? "links" [])

instance : Document Layout where
  write l := .object [
    ("points", write l.points),
    ("signals", write l.signals),
    ("turntable_tracks", write l.tracks),
    ("routes", write l.routes),
    ("graph", write l.graph)]
  read? j := do
    let r ← Record.ofJson? ["points", "signals", "turntable_tracks", "routes", "graph"] j
    return {
      points := ← r.orElse? "points" []
      signals := ← r.orElse? "signals" []
      tracks := ← r.orElse? "turntable_tracks" []
      routes := ← r.orElse? "routes" []
      graph := ← r.orElse? "graph" .empty }

end SignalBox
