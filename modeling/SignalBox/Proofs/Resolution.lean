import Mathlib.Data.List.Forall2
import SignalBox.Layout.Resolution

/-!
# What resolution keeps and adds

A command that is resolved against a layout keeps what it asks for, which is its number, letter,
position and side of the route; it gains addresses and possibly a lock. The addresses are its own
and those of the definitions that it means (`mem_addresses_of_resolvePoint?`). A route keeps its
signals and its state, and its points are resolved one by one (`resolveRoute_eq_ok_iff`).
-/

namespace SignalBox

/-- A computation of two parts that succeeds has succeeded in both. -/
theorem bind_eq_ok_iff {ε α β : Type} {x : Except ε α} {f : α → Except ε β} {b : β} :
    x >>= f = .ok b ↔ ∃ a, x = .ok a ∧ f a = .ok b := by
  cases x with
  | error e => exact ⟨nofun, nofun⟩
  | ok a => exact ⟨fun h ↦ ⟨a, rfl, h⟩, fun ⟨_, ha, h⟩ ↦ Except.ok.inj ha ▸ h⟩

theorem map_eq_ok_iff {ε α β : Type} {x : Except ε α} {f : α → β} {b : β} :
    x.map f = .ok b ↔ ∃ a, x = .ok a ∧ f a = b := by
  cases x <;> simp [Except.map]

/-- Results that are collected over a list belong to its members one by one. -/
theorem mapM_eq_ok_iff {ε α β : Type} {f : α → Except ε β} {as : List α} {bs : List β} :
    as.mapM f = .ok bs ↔ List.Forall₂ (fun a b ↦ f a = .ok b) as bs := by
  induction as generalizing bs with
  | nil => exact ⟨fun h ↦ Except.ok.inj h ▸ .nil, fun h ↦ by cases h; rfl⟩
  | cons a as ih =>
    rw [List.mapM_cons, bind_eq_ok_iff, List.forall₂_cons_left_iff]
    simp only [bind_eq_ok_iff, ih]
    constructor
    · rintro ⟨b, hb, rest, hrest, h⟩
      exact ⟨b, rest, hb, hrest, (Except.ok.inj h).symm⟩
    · rintro ⟨b, rest, hb, hrest, rfl⟩
      exact ⟨b, hb, rest, hrest, rfl⟩

/-- Results can be collected if there is one for each member. -/
theorem exists_mapM_eq_ok {ε α β : Type} {f : α → Except ε β} {as : List α}
    (h : ∀ a ∈ as, ∃ b, f a = .ok b) : ∃ bs, as.mapM f = .ok bs := by
  induction as with
  | nil => exact ⟨[], rfl⟩
  | cons a as ih =>
    obtain ⟨b, hb⟩ := h a List.mem_cons_self
    obtain ⟨bs, hbs⟩ := ih fun a ha ↦ h a (List.mem_cons_of_mem _ ha)
    exact ⟨b :: bs, mapM_eq_ok_iff.2 (.cons hb (mapM_eq_ok_iff.1 hbs))⟩

/-- Each member on the right belongs to one on the left. -/
theorem exists_left_of_mem_right {α β : Type} {R : α → β → Prop} {as : List α} {bs : List β}
    (h : List.Forall₂ R as bs) {b : β} (hb : b ∈ bs) : ∃ a ∈ as, R a b := by
  induction h with
  | nil => cases hb
  | cons hr _ ih =>
    rcases List.mem_cons.1 hb with rfl | hb
    · exact ⟨_, List.mem_cons_self, hr⟩
    · obtain ⟨a, ha, hr⟩ := ih hb
      exact ⟨a, List.mem_cons_of_mem _ ha, hr⟩

/-- Each member on the left belongs to one on the right. -/
theorem exists_right_of_mem_left {α β : Type} {R : α → β → Prop} {as : List α} {bs : List β}
    (h : List.Forall₂ R as bs) {a : α} (ha : a ∈ as) : ∃ b ∈ bs, R a b :=
  exists_left_of_mem_right (List.Forall₂.flip (R := flip R) h) ha

/-- Members that are there already are left out, which does not change what is a member. -/
theorem mem_foldl_append_new {α : Type} [DecidableEq α] {known added : List α} {x : α} :
    x ∈ added.foldl (fun known a ↦ if a ∈ known then known else known ++ [a]) known ↔
      x ∈ known ∨ x ∈ added := by
  induction added generalizing known with
  | nil => simp
  | cons y added ih =>
    rw [List.foldl_cons, ih]
    by_cases hy : y ∈ known
    · rw [if_pos hy, List.mem_cons]
      constructor
      · exact Or.imp_right .inr
      · rintro (h | rfl | h)
        · exact .inl h
        · exact .inl hy
        · exact .inr h
    · rw [if_neg hy, List.mem_append, List.mem_singleton, List.mem_cons, or_assoc]

/-- **What is appended** are the members that repeat none of those that were there, each of them at
its first place. -/
theorem foldl_append_new {α : Type} (r : α → α → Bool) (known added : List α) :
    added.foldl (fun known a ↦ if known.any (r a) then known else known ++ [a]) known =
      known ++ (added.filter fun a ↦ !known.any (r a)).eraseDupsBy r := by
  induction added generalizing known with
  | nil => simp
  | cons a added ih =>
    rw [List.foldl_cons]
    cases ha : known.any (r a) with
    | true => rw [if_pos rfl, ih, List.filter_cons_of_neg (by simp [ha])]
    | false =>
      -- what repeats the new member is left out by the scan of the rest
      have hrest : (added.filter fun b ↦ !(known ++ [a]).any (r b)) =
          (added.filter fun b ↦ !known.any (r b)).filter fun b ↦ r b a = false := by
        rw [List.filter_filter]
        refine List.filter_congr fun b _ ↦ ?_
        simp [Bool.and_comm]
      rw [if_neg Bool.false_ne_true, ih, hrest, List.filter_cons_of_pos (by simp [ha]),
        List.eraseDupsBy_cons, List.append_assoc, List.singleton_append]

theorem mem_mergeAddresses {known added : List Int32} {a : Int32} :
    a ∈ mergeAddresses known added ↔ a ∈ known ∨ a ∈ added :=
  mem_foldl_append_new

theorem Layout.mem_distinct {α : Type} [DecidableEq α] {x : α} {xs : List α} :
    x ∈ distinct xs ↔ x ∈ xs :=
  mem_foldl_append_new.trans (by simp)

namespace PointCommand

theorem isUndefined_iff {c : PointCommand} : c.isUndefined = true ↔ c.position = .undefined := by
  simp [isUndefined]

theorem isUndefined_eq_false_iff {c : PointCommand} :
    c.isUndefined = false ↔ c.position ≠ .undefined := by
  simp [isUndefined]

/-- Two commands ask for the same of the same points, whatever addresses and locks they have. -/
structure SameRequest (a b : PointCommand) : Prop where
  number : a.number = b.number
  subPoint : a.subPoint = b.subPoint
  position : a.position = b.position
  onRoute : a.onRoute = b.onRoute

theorem SameRequest.refl (c : PointCommand) : SameRequest c c := ⟨rfl, rfl, rfl, rfl⟩

theorem SameRequest.symm {a b : PointCommand} (h : SameRequest a b) : SameRequest b a :=
  ⟨h.number.symm, h.subPoint.symm, h.position.symm, h.onRoute.symm⟩

theorem SameRequest.trans {a b c : PointCommand} (h₁ : SameRequest a b) (h₂ : SameRequest b c) :
    SameRequest a c :=
  ⟨h₁.number.trans h₂.number, h₁.subPoint.trans h₂.subPoint, h₁.position.trans h₂.position,
    h₁.onRoute.trans h₂.onRoute⟩

theorem SameRequest.isUndefined_eq {a b : PointCommand} (h : SameRequest a b) :
    a.isUndefined = b.isUndefined := by
  rw [isUndefined, isUndefined, h.position]

instance decidableSameRequest (a b : PointCommand) : Decidable (SameRequest a b) :=
  decidable_of_iff (a.number = b.number ∧ a.subPoint = b.subPoint ∧ a.position = b.position ∧
      a.onRoute = b.onRoute)
    ⟨fun h ↦ ⟨h.1, h.2.1, h.2.2.1, h.2.2.2⟩,
      fun h ↦ ⟨h.number, h.subPoint, h.position, h.onRoute⟩⟩

/-- A command brings no addresses and no lock of its own. -/
structure Bare (c : PointCommand) : Prop where
  addresses_eq : c.addresses = []
  lockOffset_eq : c.lockOffset = none

instance decidableBare (c : PointCommand) : Decidable c.Bare :=
  decidable_of_iff (c.addresses = [] ∧ c.lockOffset = none)
    ⟨fun h ↦ ⟨h.1, h.2⟩, fun h ↦ ⟨h.addresses_eq, h.lockOffset_eq⟩⟩

end PointCommand

/-- The points that a layout gives to the definitions of its routes bring nothing of their own. -/
theorem RoutePoint.bare_command (p : RoutePoint) : p.command.Bare := by
  rw [command.eq_def]
  dsimp only
  split <;> split <;> exact ⟨rfl, rfl⟩

namespace Layout

variable (l : Layout)

theorem absorb_sameRequest (c : PointCommand) (d : PointDefinition) :
    (absorb c d).SameRequest c := by
  rw [absorb]
  split <;> exact ⟨rfl, rfl, rfl, rfl⟩

theorem absorb_addresses (c : PointCommand) (d : PointDefinition) :
    (absorb c d).addresses = mergeAddresses c.addresses (d.addressesFor c.position) := by
  rw [absorb]
  split <;> rfl

theorem foldl_absorb_sameRequest (definitions : List PointDefinition) (c : PointCommand) :
    (definitions.foldl absorb c).SameRequest c := by
  induction definitions generalizing c with
  | nil => exact .refl c
  | cons d definitions ih => exact (ih (absorb c d)).trans (absorb_sameRequest c d)

theorem mem_addresses_foldl_absorb {definitions : List PointDefinition} {c : PointCommand}
    {a : Int32} :
    a ∈ (definitions.foldl absorb c).addresses ↔
      a ∈ c.addresses ∨ ∃ d ∈ definitions, a ∈ d.addressesFor c.position := by
  induction definitions generalizing c with
  | nil => simp
  | cons d definitions ih =>
    rw [List.foldl_cons, ih, absorb_addresses, mem_mergeAddresses,
      (absorb_sameRequest c d).position]
    simp only [List.mem_cons, exists_eq_or_imp, or_assoc]

variable {l} {c r : PointCommand}

theorem resolvePoint?_eq_some_iff :
    l.resolvePoint? c = some r ↔
      l.points.filter (means c) ≠ [] ∧ (l.points.filter (means c)).foldl absorb c = r := by
  rw [resolvePoint?]
  split
  next h => simp [h]
  next h => simp [show l.points.filter (means c) ≠ [] from h]

/-- A resolved command asks for what was asked. -/
theorem sameRequest_of_resolvePoint? (h : l.resolvePoint? c = some r) : r.SameRequest c := by
  rw [resolvePoint?_eq_some_iff] at h
  exact h.2 ▸ foldl_absorb_sameRequest _ c

/-- **The addresses of a resolved command**: its own, and those of the definitions it means. -/
theorem mem_addresses_of_resolvePoint? (h : l.resolvePoint? c = some r) {a : Int32} :
    a ∈ r.addresses ↔
      a ∈ c.addresses ∨ ∃ d ∈ l.points, means c d = true ∧ a ∈ d.addressesFor c.position := by
  rw [resolvePoint?_eq_some_iff] at h
  rw [← h.2, mem_addresses_foldl_absorb]
  simp only [List.mem_filter, and_assoc]

/-- What a point of a route becomes: one without a position stays as it is. -/
def Resolves (l : Layout) (c r : PointCommand) : Prop :=
  if c.isUndefined then r = c else l.resolvePoint? c = some r

theorem Resolves.sameRequest (h : l.Resolves c r) : r.SameRequest c := by
  rw [Resolves] at h
  split at h
  · exact h ▸ .refl c
  · exact sameRequest_of_resolvePoint? h

theorem resolves_iff :
    (if c.isUndefined then .ok c
      else match l.resolvePoint? c with
        | some resolved => .ok resolved
        | none => .error c.number : Except UInt32 PointCommand) = .ok r ↔ l.Resolves c r := by
  rw [Resolves]
  split
  · exact ⟨fun h ↦ (Except.ok.inj h).symm, fun h ↦ congrArg Except.ok h.symm⟩
  · cases l.resolvePoint? c <;> simp

/-- **The points of a resolved route**, one by one; everything else stays. -/
theorem resolveRoute_eq_ok_iff {route resolved : RouteCommand} :
    l.resolveRoute route = .ok resolved ↔
      ∃ points, List.Forall₂ l.Resolves route.points points ∧
        { route with points := points } = resolved := by
  have hpoints (points : List PointCommand) : _ ↔ List.Forall₂ l.Resolves route.points points :=
    Iff.of_eq (congrArg (List.Forall₂ · route.points points)
      (funext fun c ↦ funext fun r ↦ propext (resolves_iff (l := l) (c := c) (r := r))))
  simp only [← hpoints, ← mapM_eq_ok_iff]
  exact map_eq_ok_iff

/-! ### The points of legs -/

theorem mem_joinPoints {known added : List PointCommand} (h : c ∈ joinPoints known added) :
    c ∈ known ∨ c ∈ added := by
  rw [joinPoints] at h
  induction added generalizing known with
  | nil => exact .inl h
  | cons q added ih =>
    rw [List.foldl_cons] at h
    rcases ih h with h | h
    · split at h
      · exact .inl h
      · exact (List.mem_append.1 h).imp_right fun h ↦ by simp [List.mem_singleton.1 h]
    · exact .inr (List.mem_cons_of_mem _ h)

theorem mem_legPoints {known points : List PointCommand} {legs : List (UInt32 × UInt32)}
    (h : l.legPoints known legs = .ok points) (hc : c ∈ points) :
    c ∈ known ∨ ∃ d ∈ l.routes, ∃ p ∈ d.points, c = p.command := by
  induction legs generalizing known with
  | nil => exact .inl (Except.ok.inj h ▸ hc)
  | cons leg rest ih =>
    rw [legPoints] at h
    split at h
    · cases h
    next definition hd =>
      rcases ih h with hknown | hdefined
      · rcases mem_joinPoints hknown with hknown | hadded
        · exact .inl hknown
        · obtain ⟨p, hp, rfl⟩ := List.mem_map.1 hadded
          exact .inr ⟨definition, List.mem_of_find?_eq_some hd, p, hp, rfl⟩
      · exact .inr hdefined

/-- **The points of a route that is given those of its legs** are commands of its definitions. -/
theorem mem_points_of_expandRoute {request route : RouteCommand}
    (h : l.expandRoute request = .ok route) (hc : c ∈ route.points) :
    ∃ d ∈ l.routes, ∃ p ∈ d.points, c = p.command := by
  obtain ⟨points, hpoints, rfl⟩ := map_eq_ok_iff.1 h
  exact (mem_legPoints hpoints hc).resolve_left (by simp)

/-! ### A junction -/

/-- A layout with some points and four signals, for runs on fixed inputs. Its graph has one link. -/
def junction (points : List PointDefinition) : Layout where
  points := points
  signals := ["64", "72", "60", "80"].map fun name ↦ .plain name ⟨1, 1⟩ 0
  tracks := []
  routes := []
  graph := .ofLists [] [(⟨1, 1⟩, ⟨2, 2⟩)]

end Layout

/-- A point that lies on the link of a junction. -/
def PointDefinition.linked (label : String) (straight diverging : List Int32)
    (lockOffset : UInt32) : PointDefinition :=
  { label, straight, diverging, lockOffset, switchEnd := some ⟨1, 1⟩, divergingEnd := some ⟨2, 2⟩ }

end SignalBox
