import SignalBox.Config
import SignalBox.Json.Document

/-!
# Documents of configurations

Whatever is missing takes its standard value.
-/

namespace SignalBox

open Document (write)

instance : Document ShortName where
  write n := .string n.text
  read? j := (Document.read? j).bind ShortName.ofText?

instance : Document ConsoleConfig where
  write c := .object [
    ("divider", write c.divider), ("off_route_prefix", write c.offRoutePrefix)]
  read? j := do
    let r ← Record.ofJson? ["divider", "off_route_prefix"] j
    return {
      divider := ← r.orElse? "divider" ConsoleConfig.standard.divider
      offRoutePrefix := ← r.orElse? "off_route_prefix" ConsoleConfig.standard.offRoutePrefix }

instance : Document DispatchConfig where
  write c := .object [
    ("frame_delay_ms", write c.frameDelay), ("notification_capacity", write c.noticeCapacity)]
  read? j := do
    let r ← Record.ofJson? ["frame_delay_ms", "notification_capacity"] j
    return {
      frameDelay := ← r.orElse? "frame_delay_ms" DispatchConfig.standard.frameDelay
      noticeCapacity :=
        ← r.orElse? "notification_capacity" DispatchConfig.standard.noticeCapacity }

instance : Document StationConfig where
  write c := .object [("name", write c.name)]
  read? j := do
    let r ← Record.ofJson? ["name"] j
    return { name := ← r.orElse? "name" StationConfig.standard.name }

instance : Document Config where
  write c := .object [
    ("console", write c.console), ("dispatch", write c.dispatch), ("station", write c.station)]
  read? j := do
    let r ← Record.ofJson? ["console", "dispatch", "station"] j
    return {
      console := ← r.orElse? "console" .standard
      dispatch := ← r.orElse? "dispatch" .standard
      station := ← r.orElse? "station" .standard }

end SignalBox
