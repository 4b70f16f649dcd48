import SignalBox.Proofs.IndependentRoutes
import SignalBox.Proofs.OpposedPoints

/-!
# The search for a conflict

A route is compared with the active routes, the oldest first, and with each of them point by point.
The main statement (`Reservations.conflict?_exact`) is that the rule is the same from both sides,
and that the search is exact for the active routes that any history of changes has left: it finds
nothing if no such route is in conflict, and otherwise the one that was taken up first, with the
first point of the request that this one wants in another position.

* **The rule** (`RouteCommand.conflicts_iff`): some point is wanted in two positions, whatever else
  the routes want of it.
* **The order of the active routes** is the order in which they were taken up: what is active after
  some changes, with the place of the change that took it up, is an ascending list
  (`Reservations.exists_log`).
-/

namespace SignalBox

namespace RouteCommand

variable {r other : RouteCommand} {p : PointCommand}

/-- Some point is wanted by both routes, in different positions. -/
def Disputes (r other : RouteCommand) : Prop :=
  ∃ p ∈ r.points, other.Opposes p.number p.position

/-- The first point that the other route wants in another position. -/
theorem conflictingPoint_eq_some_iff :
    r.conflictingPoint other = some p ↔ other.Opposes p.number p.position ∧
      ∃ before after, r.points = before ++ p :: after ∧
        ∀ q ∈ before, ¬ other.Opposes q.number q.position := by
  rw [conflictingPoint, List.find?_eq_some_iff_append]
  simp [Opposes]

/-- **The rule**: routes are in conflict if they want some point in different positions. -/
theorem conflicts_iff : r.conflicts other = true ↔ r.Disputes other := by
  rw [conflicts, conflictingPoint, List.find?_isSome]
  simp [Disputes, Opposes]

end RouteCommand

/-- What is told of the conflict of a request with an active route: the end signals of the route,
and the first point of the request that it wants in another position. -/
structure RouteConflict.Describes (found : RouteConflict) (request active : RouteCommand) :
    Prop where
  start_eq : found.start = active.start
  destination_eq : found.destination = active.destination
  point_eq : ∃ before p after, request.points = before ++ p :: after ∧
    (∀ q ∈ before, ¬ active.Opposes q.number q.position) ∧
    active.Opposes p.number p.position ∧ found.point = p.number

namespace Reservations

variable {request active : RouteCommand} {found : RouteConflict}

theorem conflictWith?_eq_none_iff :
    conflictWith? request active = none ↔ ¬ request.Disputes active := by
  rw [conflictWith?, Option.map_eq_none_iff, ← RouteCommand.conflicts_iff, RouteCommand.conflicts,
    Option.not_isSome_iff_eq_none]

theorem conflictWith?_eq_some_iff :
    conflictWith? request active = some found ↔ found.Describes request active := by
  obtain ⟨start, destination, number⟩ := found
  simp only [conflictWith?, Option.map_eq_some_iff, RouteCommand.conflictingPoint_eq_some_iff]
  constructor
  · rintro ⟨p, ⟨hopposes, before, after, hpoints, hbefore⟩, heq⟩
    obtain ⟨rfl, rfl, rfl⟩ := RouteConflict.mk.inj heq
    exact ⟨rfl, rfl, before, p, after, hpoints, hbefore, hopposes, rfl⟩
  · rintro ⟨rfl, rfl, before, p, after, hpoints, hbefore, hopposes, rfl⟩
    exact ⟨p, ⟨hopposes, before, after, hpoints, hbefore⟩, rfl⟩

/-! ### Histories -/

/-- A change of the active routes. -/
inductive Change
  /-- A route is taken up. -/
  | insert (route : RouteCommand)
  /-- The routes that a request means are taken away. -/
  | withdraw (request : RouteCommand)
  /-- All routes are taken away. -/
  | clear

/-- The active routes after a change. -/
def change (a : Reservations) : Change → Reservations
  | .insert route => a.insert route
  | .withdraw request => a.without request
  | .clear => empty

/-- The active routes after some changes. -/
def ofChanges (changes : List Change) : Reservations :=
  changes.foldl change empty

/-- A change takes a route away. -/
def Change.Removes (active : RouteCommand) : Change → Prop
  | insert _ => False
  | withdraw request => request.Names active
  | clear => True

/-- A route was taken up by the change at some place, and has not been taken away since. -/
def Registered (changes : List Change) (place : Nat) (active : RouteCommand) : Prop :=
  changes[place]? = some (.insert active) ∧
    ∀ later c, place < later → changes[later]? = some c → ¬ c.Removes active

/-- What a search has to find: of the routes that are in conflict with the request, the one that was
taken up first. -/
structure FindsConflict (changes : List Change) (request : RouteCommand) (found : RouteConflict)
    (place : Nat) (active : RouteCommand) : Prop where
  registered : Registered changes place active
  describes : found.Describes request active
  first : ∀ earlier other, Registered changes earlier other → earlier < place →
    ¬ request.Disputes other

variable {changes : List Change} {c : Change} {place : Nat}

/-- What has been taken up stays until it is taken away, and the last change may take a route up. -/
theorem registered_concat_iff :
    Registered (changes ++ [c]) place active ↔
      Registered changes place active ∧ ¬ c.Removes active ∨
        place = changes.length ∧ c = .insert active := by
  constructor
  · rintro ⟨hinsert, hstays⟩
    have hplace : place < (changes ++ [c]).length := (List.getElem?_eq_some_iff.1 hinsert).1
    rw [List.length_append, List.length_singleton] at hplace
    rcases Nat.lt_or_eq_of_le (Nat.le_of_lt_succ hplace) with hlt | rfl
    · rw [List.getElem?_append_left hlt] at hinsert
      refine .inl ⟨⟨hinsert, fun later d hlater hd ↦ hstays later d hlater ?_⟩,
        hstays changes.length c hlt List.getElem?_concat_length⟩
      rw [List.getElem?_append_left (List.getElem?_eq_some_iff.1 hd).1, hd]
    · rw [List.getElem?_concat_length] at hinsert
      exact .inr ⟨rfl, Option.some.inj hinsert⟩
  · rintro (⟨⟨hinsert, hstays⟩, hspared⟩ | ⟨rfl, rfl⟩)
    · refine ⟨?_, fun later d hlater hd ↦ ?_⟩
      · rw [List.getElem?_append_left (List.getElem?_eq_some_iff.1 hinsert).1, hinsert]
      · rw [List.getElem?_append] at hd
        split at hd
        · exact hstays later d hlater hd
        · obtain rfl : c = d := (List.mem_singleton.1 (List.mem_of_getElem? hd)).symm
          exact hspared
    · refine ⟨List.getElem?_concat_length, fun later d hlater hd ↦ ?_⟩
      have hbound := (List.getElem?_eq_some_iff.1 hd).1
      rw [List.length_append, List.length_singleton] at hbound
      omega

theorem place_lt_length (h : Registered changes place active) : place < changes.length :=
  (List.getElem?_eq_some_iff.1 h.1).1

/-- **The order of the active routes** is that in which they were taken up. -/
theorem exists_log (changes : List Change) :
    ∃ log : List (Nat × RouteCommand), (ofChanges changes).routes = log.map Prod.snd ∧
      log.Pairwise (fun e f ↦ e.1 < f.1) ∧
      ∀ e, e ∈ log ↔ Registered changes e.1 e.2 := by
  induction changes using List.reverseRecOn with
  | nil => exact ⟨[], rfl, .nil, by simp [Registered]⟩
  | append_singleton changes c ih =>
    obtain ⟨log, hroutes, hascending, hlog⟩ := ih
    have hlast : ofChanges (changes ++ [c]) = (ofChanges changes).change c := by
      rw [ofChanges, List.foldl_concat, ofChanges]
    simp only [registered_concat_iff, ← hlog, hlast]
    cases c with
    | insert route =>
      refine ⟨log ++ [(changes.length, route)], ?_, ?_, fun e ↦ ?_⟩
      · rw [change, insert, hroutes, List.map_append, List.map_singleton]
      · refine List.pairwise_append.2 ⟨hascending, List.pairwise_singleton .., fun e he f hf ↦ ?_⟩
        rw [List.mem_singleton.1 hf]
        exact place_lt_length ((hlog e).1 he)
      · simp [Change.Removes, Prod.ext_iff, eq_comm]
    | withdraw request =>
      refine ⟨log.filter fun e ↦ ¬ request.Names e.2, ?_, hascending.filter _, fun e ↦ ?_⟩
      · rw [change, routes_without, hroutes, List.filter_map]
        rfl
      · simp [Change.Removes]
    | clear => exact ⟨[], rfl, .nil, by simp [Change.Removes]⟩

/-- **What is found** is the oldest route in conflict. -/
theorem conflict?_ofChanges_eq_some_iff :
    (ofChanges changes).conflict? request = some found ↔
      ∃ place active, FindsConflict changes request found place active := by
  obtain ⟨log, hroutes, hascending, hlog⟩ := exists_log changes
  rw [conflict?, hroutes, List.findSome?_map, List.findSome?_eq_some_iff]
  simp only [Function.comp_apply, conflictWith?_eq_some_iff, conflictWith?_eq_none_iff]
  constructor
  · rintro ⟨older, ⟨place, active⟩, newer, rfl, hdescribes, holder⟩
    refine ⟨place, active, (hlog (place, active)).1 (by simp), hdescribes,
      fun earlier other hother hearlier ↦ ?_⟩
    have hnewer := (List.pairwise_cons.1 (List.pairwise_append.1 hascending).2.1).1
    rcases List.mem_append.1 ((hlog (earlier, other)).2 hother) with hin | hin
    · exact holder _ hin
    · rcases List.mem_cons.1 hin with heq | hin
      · cases heq
        exact absurd hearlier (Nat.lt_irrefl _)
      · exact absurd hearlier (Nat.lt_asymm (hnewer _ hin))
  · rintro ⟨place, active, h⟩
    obtain ⟨older, newer, rfl⟩ := List.append_of_mem ((hlog (place, active)).2 h.registered)
    refine ⟨older, (place, active), newer, rfl, h.describes, fun e he ↦ ?_⟩
    exact h.first e.1 e.2 ((hlog e).1 (by simp [he]))
      ((List.pairwise_append.1 hascending).2.2 e he _ List.mem_cons_self)

theorem conflict?_ofChanges_eq_none_iff :
    (ofChanges changes).conflict? request = none ↔
      ∀ place active, Registered changes place active → request.conflicts active = false := by
  obtain ⟨log, hroutes, -, hlog⟩ := exists_log changes
  rw [conflict?_eq_none_iff, hroutes, List.forall_mem_map]
  simp only [Prod.forall, hlog, RouteCommand.conflicts, Option.isSome_eq_false_iff,
    Option.isNone_iff_eq_none]

/-- **The search for a conflict is exact**, by a rule that is the same from both sides. -/
theorem conflict?_exact :
    (∀ r other : RouteCommand, r.conflicts other = other.conflicts r ∧
      (r.conflicts other = true ↔ r.Disputes other)) ∧
      ∀ changes request,
        ((ofChanges changes).conflict? request = none ↔
          ∀ place active, Registered changes place active → request.conflicts active = false) ∧
        ∀ found, (ofChanges changes).conflict? request = some found ↔
          ∃ place active, FindsConflict changes request found place active := by
  refine ⟨fun r other ↦ ⟨?_, RouteCommand.conflicts_iff⟩, fun changes request ↦
    ⟨conflict?_ofChanges_eq_none_iff, fun found ↦ conflict?_ofChanges_eq_some_iff⟩⟩
  rw [Bool.eq_iff_iff, ← not_iff_not, Bool.not_eq_true, Bool.not_eq_true,
    RouteCommand.conflicts_eq_false_comm]

end Reservations

end SignalBox
