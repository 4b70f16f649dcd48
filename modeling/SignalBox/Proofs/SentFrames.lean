import SignalBox.Proofs.Effects

/-!
# The frames of a sequential run

The frames that the bus accepts during a sequential run, each with the turn that has sent it. What
stands on the bus for an accessory is decided by the latest frame of a kind, so facts about it are
facts about `latest?`: what is appended and passes the test takes precedence, and what does not pass
it does not matter (`latest?_append_of_exists`, `latest?_append_of_forall`).
-/

namespace SignalBox

/-- The last member of a list that passes a test. -/
def latest? {α : Type} (p : α → Bool) (log : List α) : Option α :=
  log.reverse.find? p

section

variable {α : Type} {p : α → Bool} {log new : List α} {x : α}

theorem of_latest?_eq_some (h : latest? p log = some x) : x ∈ log ∧ p x = true :=
  ⟨List.mem_reverse.1 (List.mem_of_find?_eq_some h), List.find?_some h⟩

theorem latest?_append : latest? p (log ++ new) = (latest? p new).or (latest? p log) := by
  rw [latest?, List.reverse_append, List.find?_append]
  rfl

theorem latest?_eq_none_iff : latest? p log = none ↔ ∀ x ∈ log, p x = false := by
  simp only [latest?, List.find?_eq_none, List.mem_reverse, Bool.not_eq_true]

theorem latest?_map {β : Type} {g : β → α} (as : List β) :
    latest? p (as.map g) = (latest? (p ∘ g) as).map g := by
  rw [latest?, ← List.map_reverse, List.find?_map, latest?]

/-- New members that fail the test change nothing. -/
theorem latest?_append_of_forall (h : ∀ x ∈ new, p x = false) :
    latest? p (log ++ new) = latest? p log := by
  rw [latest?_append, latest?_eq_none_iff.2 h, Option.none_or]

/-- If some new member passes the test, the latest one is new. -/
theorem latest?_append_of_exists (log : List α) (h : ∃ x ∈ new, p x = true) :
    ∃ x ∈ new, p x = true ∧ latest? p (log ++ new) = some x := by
  obtain ⟨x, hx, hp⟩ := h
  have hsome : (latest? p new).isSome = true :=
    List.find?_isSome.2 ⟨x, List.mem_reverse.2 hx, hp⟩
  obtain ⟨x', hx'⟩ := Option.isSome_iff_exists.1 hsome
  obtain ⟨hmem, hp'⟩ := of_latest?_eq_some hx'
  exact ⟨x', hmem, hp', by rw [latest?_append, hx', Option.some_or]⟩

end

namespace Turn

/-- The frames of a turn, each with the turn. -/
def frames (turn : Turn) : List (Turn × AcceptedFrame) :=
  turn.sent.map fun f ↦ (turn, f)

/-- The frames of several turns, each with its turn. -/
def log (turns : List Turn) : List (Turn × AcceptedFrame) :=
  turns.flatMap frames

@[simp]
theorem log_nil : log [] = [] := rfl

theorem log_concat (turns : List Turn) (turn : Turn) :
    log (turns ++ [turn]) = log turns ++ turn.frames := by
  simp [log]

theorem map_snd_frames (turn : Turn) : turn.frames.map (·.2) = turn.sent := by
  simp [frames, Function.comp_def]

theorem fst_of_mem_frames {turn : Turn} {e : Turn × AcceptedFrame} (h : e ∈ turn.frames) :
    e.1 = turn := by
  obtain ⟨f, -, rfl⟩ := List.mem_map.1 h
  rfl

end Turn

/-- A sequential run with a last turn is a run that ends where this turn begins, and the turn. -/
theorem Turns.of_concat {y w : Yard} {turns : List Turn} {turn : Turn}
    (h : Turns y (turns ++ [turn]) w) :
    Turns y turns turn.before ∧ turn.Valid ∧ turn.after = w := by
  generalize hall : turns ++ [turn] = all at h
  cases h with
  | nil => simp at hall
  | concat h hturn =>
    obtain ⟨rfl, hlast⟩ := List.append_inj' hall rfl
    obtain rfl := (List.cons.inj hlast).1
    exact ⟨h, hturn, rfl⟩

theorem Turns.valid_of_mem {y z : Yard} {turns : List Turn} (h : Turns y turns z) {turn : Turn}
    (hturn : turn ∈ turns) : turn.Valid := by
  induction h with
  | nil => cases hturn
  | concat _ hvalid ih =>
    rcases List.mem_append.1 hturn with hturn | hturn
    · exact ih hturn
    · rwa [List.mem_singleton.1 hturn]

/-- **The bus accepts what the turns send**, and nothing else. -/
theorem Turns.accepted_eq {y z : Yard} {turns : List Turn} (h : Turns y turns z) :
    z.line.accepted = y.line.accepted ++ (Turn.log turns).map (·.2) := by
  induction h with
  | nil => simp
  | concat h hturn ih =>
    rw [hturn.accepted_eq, ih, Turn.log_concat, List.map_append, Turn.map_snd_frames,
      List.append_assoc]

end SignalBox
