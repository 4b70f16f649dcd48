import Mathlib.Data.List.Forall2
import SignalBox.Proofs.EntryReadings
import SignalBox.Proofs.IndexedLayouts

/-!
# What is noted of a layout

While a layout is indexed, the definitions that cannot be told apart, or not be found, are noted.
The main statement (`LayoutIndex.warnings_exact`) is that the notes are complete and in order, as a
search of all definitions in front of each one would make them (`Layout.Warns`), and that nothing is
noted exactly if all definitions can be found and told apart.

* **One definition at a time**: the notes are a fold, and each step adds what is to be said of one
  definition, given those in front of it (`noted_foldl`).
* **One bucket is enough**: a label is compared with labels of its own number only. Labels that are
  the same up to case have one number (`Label.AgreeUpToCase.number_eq`), so no other label could be
  the same.
-/

namespace SignalBox

/-! ### Notes on a list -/

/-- The notes on the members of a list, in their order: one on each member of which there is
something to say, given the members in front of it. -/
inductive Noted {α β : Type} (Says : List α → α → β → Prop) : List α → List β → Prop
  | nil : Noted Says [] []
  | note {before : List α} {a : α} {notes : List β} {note : β} (h : Noted Says before notes)
      (hsaid : Says before a note) : Noted Says (before ++ [a]) (notes ++ [note])
  | pass {before : List α} {a : α} {notes : List β} (h : Noted Says before notes)
      (hsaid : ∀ note, ¬ Says before a note) : Noted Says (before ++ [a]) notes

section Noted

variable {α β γ : Type} {Says : List α → α → β → Prop} {before as : List α} {a : α}
  {notes notes' : List β}

theorem noted_nil_iff : Noted Says [] notes ↔ notes = [] := by
  constructor
  · intro h
    generalize hnil : ([] : List α) = none at h
    cases h with
    | nil => rfl
    | note | pass => simp at hnil
  · rintro rfl
    exact .nil

theorem noted_concat_iff :
    Noted Says (before ++ [a]) notes ↔
      (∃ front note, Noted Says before front ∧ Says before a note ∧ notes = front ++ [note]) ∨
        Noted Says before notes ∧ ∀ note, ¬ Says before a note := by
  constructor
  · intro h
    generalize hall : before ++ [a] = all at h
    cases h with
    | nil => simp at hall
    | note h hsaid =>
      obtain ⟨rfl, hlast⟩ := List.append_inj' hall rfl
      obtain rfl := List.singleton_inj.1 hlast
      exact .inl ⟨_, _, h, hsaid, rfl⟩
    | pass h hsaid =>
      obtain ⟨rfl, hlast⟩ := List.append_inj' hall rfl
      obtain rfl := List.singleton_inj.1 hlast
      exact .inr ⟨h, hsaid⟩
  · rintro (⟨front, note, h, hsaid, rfl⟩ | ⟨h, hsaid⟩)
    · exact .note h hsaid
    · exact .pass h hsaid

/-- **Notes are determined** if there is one thing to say of a member at most. -/
theorem Noted.unique (hone : ∀ {before a note note'}, Says before a note → Says before a note' →
    note = note') (h : Noted Says as notes) (h' : Noted Says as notes') : notes = notes' := by
  induction as using List.reverseRecOn generalizing notes notes' with
  | nil => rw [noted_nil_iff.1 h, noted_nil_iff.1 h']
  | append_singleton as a ih =>
    obtain ⟨front, note, hfront, hsaid, rfl⟩ | ⟨hfront, hnone⟩ := noted_concat_iff.1 h <;>
      obtain ⟨front', note', hfront', hsaid', rfl⟩ | ⟨hfront', hnone'⟩ := noted_concat_iff.1 h'
    · rw [ih hfront hfront', hone hsaid hsaid']
    · exact absurd hsaid (hnone' note)
    · exact absurd hsaid' (hnone note')
    · exact ih hfront hfront'

/-- **Nothing is noted** if no two members are related, where a member is noted if one in front of
it is related to it. -/
theorem Noted.eq_nil_iff {R : α → α → Prop}
    (hR : ∀ before a, (∃ note, Says before a note) ↔ ∃ b ∈ before, R b a)
    (h : Noted Says as notes) : notes = [] ↔ as.Pairwise fun b a ↦ ¬ R b a := by
  induction h with
  | nil => simp
  | note h hsaid =>
    obtain ⟨b, hb, hrelated⟩ := (hR _ _).1 ⟨_, hsaid⟩
    refine iff_of_false (by simp) fun hpairwise ↦ ?_
    exact (List.pairwise_append.1 hpairwise).2.2 b hb _ (by simp) hrelated
  | @pass before a notes h hsaid ih =>
    have hnone : ∀ b ∈ before, ¬ R b a := by
      simpa [hsaid] using hR before a
    rw [ih, List.pairwise_append]
    simpa using fun _ ↦ hnone

/-- **A fold makes notes** if each of its steps appends what is to be said of its member. -/
theorem noted_foldl (step : γ → α → γ) (start : γ) (get : γ → List β) (hstart : get start = [])
    (hstep : ∀ before a,
      (∃ note, Says before a note ∧
        get (step (before.foldl step start) a) = get (before.foldl step start) ++ [note]) ∨
      (∀ note, ¬ Says before a note) ∧
        get (step (before.foldl step start) a) = get (before.foldl step start))
    (as : List α) : Noted Says as (get (as.foldl step start)) := by
  induction as using List.reverseRecOn with
  | nil => exact noted_nil_iff.2 hstart
  | append_singleton as a ih =>
    rw [List.foldl_concat]
    obtain ⟨note, hsaid, heq⟩ | ⟨hsaid, heq⟩ := hstep as a
    · exact heq ▸ .note ih hsaid
    · exact heq ▸ .pass ih hsaid

end Noted

/-! ### Labels up to case -/

/-- Two characters are the same, or a capital letter and its small one, 32 places behind it. -/
def SameLetter (c d : Char) : Prop :=
  c = d ∨ (c.isUpper = true ∧ d.toNat = c.toNat + 32) ∨ d.isUpper = true ∧ c.toNat = d.toNat + 32

theorem sameLetter_iff {c d : Char} : SameLetter c d ↔ c.toLower = d.toLower := by
  have hupper (c : Char) : c.isUpper = true ↔ 65 ≤ c.toNat ∧ c.toNat ≤ 90 := by
    show decide (c.val ≥ 'A'.val ∧ c.val ≤ 'Z'.val) = true ↔ _
    simp [UInt32.le_iff_toNat_le]
  rw [SameLetter, hupper, hupper, ← Char.toNat_inj, ← Char.toNat_inj, toNat_toLower,
    toNat_toLower]
  split <;> split <;> omega

/-- A digit is neither a capital letter nor a small one. -/
theorem SameLetter.isDigit_eq {c d : Char} (h : SameLetter c d) : c.isDigit = d.isDigit := by
  rw [← isDigit_toLower c, sameLetter_iff.1 h, isDigit_toLower]

theorem SameLetter.eq_of_isDigit {c d : Char} (h : SameLetter c d) (hdigit : c.isDigit = true) :
    c = d := by
  have hdigit' := h.isDigit_eq ▸ hdigit
  rw [sameLetter_iff, ← Char.toNat_inj, toNat_toLower, toNat_toLower] at h
  rw [isDigit_iff] at hdigit hdigit'
  rw [← Char.toNat_inj]
  split at h <;> split at h <;> omega

namespace Label

/-- Two labels are the same up to the case of letters. -/
def AgreeUpToCase (a b : String) : Prop :=
  List.Forall₂ SameLetter a.toList b.toList

theorem sameUpToCase_iff {a b : String} : sameUpToCase a b = true ↔ AgreeUpToCase a b := by
  rw [sameUpToCase, beq_iff_eq, ← List.forall₂_eq_eq_eq, List.forall₂_map_left_iff,
    List.forall₂_map_right_iff, AgreeUpToCase]
  exact ⟨fun h ↦ h.imp fun _ _ ↦ sameLetter_iff.2, fun h ↦ h.imp fun _ _ ↦ sameLetter_iff.1⟩

/-- **Labels that are the same up to case** have one number. -/
theorem AgreeUpToCase.number_eq {a b : String} (h : AgreeUpToCase a b) : number a = number b := by
  suffices hdigits : a.toList.takeWhile Char.isDigit = b.toList.takeWhile Char.isDigit by
    rw [number, number, hdigits]
  rw [AgreeUpToCase] at h
  generalize a.toList = as, b.toList = bs at h
  induction h with
  | nil => rfl
  | @cons c d cs ds hfirst _ ih =>
    cases hdigit : c.isDigit with
    | true =>
      obtain rfl := hfirst.eq_of_isDigit hdigit
      rw [List.takeWhile_cons_of_pos hdigit, List.takeWhile_cons_of_pos hdigit, ih]
    | false =>
      have hdigit' := hfirst.isDigit_eq ▸ hdigit
      rw [List.takeWhile_cons_of_neg (by simp [hdigit]),
        List.takeWhile_cons_of_neg (by simp [hdigit'])]

end Label

/-! ### The search of a layout -/

namespace Layout

/-- A signal has the name of one in front of it. The first signal of the name keeps it. -/
def Collides (before : List SignalDefinition) (s : SignalDefinition) (c : SignalConflict) : Prop :=
  ∃ front first rest, before = front ++ first :: rest ∧ (∀ t ∈ front, t.name ≠ s.name) ∧
    first.name = s.name ∧ c = { key := s.name, kept := first.coordinate, ignored := s.coordinate }

/-- A point with a number has the label of one in front of it, up to case. -/
def Repeats (before : List PointDefinition) (p : PointDefinition) (label : String) : Prop :=
  p.number ≠ 0 ∧ (∃ q ∈ before, Label.AgreeUpToCase q.label p.label) ∧ label = p.label

/-- What is to be noted of a layout: each signal whose name was taken, each label of a point that
was there, and each label without a number, all in the order of the layout. -/
structure Warns (l : Layout) (w : LayoutWarnings) : Prop where
  signalConflicts : Noted Collides l.signals w.signalConflicts
  duplicateLabels : Noted Repeats l.points w.duplicateLabels
  unnumberedLabels : w.unnumberedLabels = (l.points.filter (·.number = 0)).map (·.label)

theorem collides_iff {before : List SignalDefinition} {s : SignalDefinition} {c : SignalConflict} :
    Collides before s c ↔ ∃ first, before.find? (·.name == s.name) = some first ∧
      c = { key := s.name, kept := first.coordinate, ignored := s.coordinate } := by
  simp only [List.find?_eq_some_iff_append, Collides]
  constructor
  · rintro ⟨front, first, rest, rfl, hfront, hname, rfl⟩
    exact ⟨first, ⟨by simpa using hname, front, rest, rfl, by simpa using hfront⟩, rfl⟩
  · rintro ⟨first, ⟨hname, front, rest, rfl, hfront⟩, rfl⟩
    exact ⟨front, first, rest, rfl, by simpa using hfront, by simpa using hname, rfl⟩

theorem exists_collides_iff {before : List SignalDefinition} {s : SignalDefinition} :
    (∃ c, Collides before s c) ↔ ∃ t ∈ before, t.name = s.name := by
  simp only [collides_iff]
  rw [exists_comm]
  simp [← Option.isSome_iff_exists]

theorem exists_repeats_iff {before : List PointDefinition} {p : PointDefinition} :
    (∃ label, Repeats before p label) ↔
      ∃ q ∈ before, p.number ≠ 0 ∧ Label.AgreeUpToCase q.label p.label := by
  simp only [Repeats]
  grind

variable {l : Layout} {w w' : LayoutWarnings}

/-- There is one way to note what is to be noted. -/
theorem Warns.unique (h : l.Warns w) (h' : l.Warns w') : w = w' := by
  obtain ⟨conflicts, duplicates, unnumbered⟩ := w
  obtain ⟨conflicts', duplicates', unnumbered'⟩ := w'
  have hconflicts := h.signalConflicts.unique (fun hc hc' ↦ by
    obtain ⟨first, hfirst, rfl⟩ := collides_iff.1 hc
    obtain ⟨first', hfirst', rfl⟩ := collides_iff.1 hc'
    rw [Option.some.inj (hfirst.symm.trans hfirst')]) h'.signalConflicts
  have hduplicates := h.duplicateLabels.unique (fun hp hp' ↦ hp.2.2.trans hp'.2.2.symm)
    h'.duplicateLabels
  have hunnumbered := h.unnumberedLabels.trans h'.unnumberedLabels.symm
  rw [LayoutWarnings.mk.injEq]
  exact ⟨hconflicts, hduplicates, hunnumbered⟩

/-- **Nothing is to be noted** of a layout whose signals have different names, and whose points have
numbers and labels that are different up to case. -/
theorem Warns.isClean_iff (h : l.Warns w) :
    w.isClean = true ↔ (l.signals.map (·.name)).Nodup ∧
      (l.points.Pairwise fun p q ↦ ¬ Label.AgreeUpToCase p.label q.label) ∧
      ∀ p ∈ l.points, p.number ≠ 0 := by
  have hconflicts : w.signalConflicts = [] ↔ (l.signals.map (·.name)).Nodup := by
    rw [h.signalConflicts.eq_nil_iff (R := fun t s ↦ t.name = s.name)
      fun _ _ ↦ exists_collides_iff, List.Nodup, List.pairwise_map]
  have hunnumbered : w.unnumberedLabels = [] ↔ ∀ p ∈ l.points, p.number ≠ 0 := by
    simp [h.unnumberedLabels]
  have hduplicates := h.duplicateLabels.eq_nil_iff
    (R := fun q p ↦ p.number ≠ 0 ∧ Label.AgreeUpToCase q.label p.label) fun _ _ ↦ exists_repeats_iff
  rw [LayoutWarnings.isClean, Bool.and_eq_true, Bool.and_eq_true, List.isEmpty_iff,
    List.isEmpty_iff, List.isEmpty_iff, hconflicts, hduplicates, hunnumbered, and_assoc]
  -- where all points have numbers, labels that are the same up to case are always noted
  refine and_congr_right fun _ ↦ and_congr_left fun hnumbers ↦ ?_
  refine List.Pairwise.iff_of_mem fun {q p} _ hp ↦ ?_
  rw [and_iff_right (hnumbers p hp)]

end Layout

namespace LayoutIndex

/-! ### What the index notes -/

section Points

variable (graph : TrackGraph) (before : List PointDefinition) (i : LayoutIndex)
  (p : PointDefinition)

theorem signalConflicts_addPoint :
    (i.addPoint p).warnings.signalConflicts = i.warnings.signalConflicts := by
  rw [addPoint]
  dsimp only
  split
  · rfl
  · split <;> rfl

theorem unnumberedLabels_addPoint :
    (i.addPoint p).warnings.unnumberedLabels =
      i.warnings.unnumberedLabels ++ ([p].filter (·.number = 0)).map (·.label) := by
  rw [addPoint]
  dsimp only
  split
  next hzero => simp [hzero]
  next hnonzero => split <;> simp [hnonzero]

theorem duplicateLabels_addPoint :
    (i.addPoint p).warnings.duplicateLabels =
      if p.number ≠ 0 ∧ ((i.pointDefinitions p.number).any fun q ↦
          Label.sameUpToCase q.label p.label) = true then
        i.warnings.duplicateLabels ++ [p.label]
      else i.warnings.duplicateLabels := by
  rw [addPoint]
  dsimp only
  split
  next hzero => simp [hzero]
  next hnonzero => split <;> simp_all

/-- **A label is looked for in its own bucket**, and found there if any label in front of it is the
same up to case. -/
theorem repeats_iff {label : String} :
    Layout.Repeats before p label ↔
      (p.number ≠ 0 ∧ (((before.foldl addPoint (empty graph)).pointDefinitions p.number).any fun q ↦
        Label.sameUpToCase q.label p.label) = true) ∧ label = p.label := by
  rw [Layout.Repeats, ← and_assoc]
  refine and_congr_left fun _ ↦ and_congr_right fun hnumber ↦ ?_
  have hbucket : (before.foldl addPoint (empty graph)).pointDefinitions p.number =
      before.filter (·.number == p.number) :=
    (pointDefinitions_ofLayout { Layout.empty with points := before, graph } p.number).trans
      (if_neg hnumber)
  simp only [hbucket, List.any_eq_true, List.mem_filter, beq_iff_eq, Label.sameUpToCase_iff]
  constructor
  · exact fun ⟨q, hq, hsame⟩ ↦ ⟨q, ⟨hq, hsame.number_eq⟩, hsame⟩
  · exact fun ⟨q, ⟨hq, _⟩, hsame⟩ ↦ ⟨q, hq, hsame⟩

theorem noted_duplicateLabels (points : List PointDefinition) :
    Noted Layout.Repeats points
      (points.foldl addPoint (empty graph)).warnings.duplicateLabels := by
  refine noted_foldl addPoint (empty graph) (·.warnings.duplicateLabels) rfl (fun before p ↦ ?_)
    points
  simp only [duplicateLabels_addPoint, repeats_iff graph]
  split
  next hknown => exact .inl ⟨p.label, ⟨hknown, rfl⟩, rfl⟩
  next hnew => exact .inr ⟨fun _ h ↦ hnew h.1, rfl⟩

end Points

section Signals

variable (i : LayoutIndex) (s : SignalDefinition)

theorem duplicateLabels_addSignal :
    (i.addSignal s).warnings.duplicateLabels = i.warnings.duplicateLabels := by
  rw [addSignal]
  dsimp only
  split <;> rfl

theorem unnumberedLabels_addSignal :
    (i.addSignal s).warnings.unnumberedLabels = i.warnings.unnumberedLabels := by
  rw [addSignal]
  dsimp only
  split <;> rfl

theorem noted_signalConflicts (l : Layout) :
    Noted Layout.Collides l.signals (ofLayout l).warnings.signalConflicts := by
  refine noted_foldl addSignal (l.points.foldl addPoint (empty l.graph))
    (·.warnings.signalConflicts) ?_ (fun before s ↦ ?_) l.signals
  · exact get_foldl_of_keeps (fun i : LayoutIndex ↦ i.warnings.signalConflicts)
      signalConflicts_addPoint l.points (empty l.graph)
  · have hfirst : ((before.foldl addSignal
        (l.points.foldl addPoint (empty l.graph))).signalDefinitions s.name).head? =
          before.find? (·.name == s.name) :=
      signal?_ofLayout { l with signals := before } s.name
    rw [addSignal]
    dsimp only
    rw [hfirst]
    split
    next first hsome =>
      exact .inl ⟨_, Layout.collides_iff.2 ⟨first, hsome, rfl⟩, rfl⟩
    next hnone =>
      refine .inr ⟨fun c hc ↦ ?_, rfl⟩
      obtain ⟨first, hsome, -⟩ := Layout.collides_iff.1 hc
      cases hnone.symm.trans hsome

end Signals

/-- **The index notes** what is to be noted. -/
theorem warns_ofLayout (l : Layout) : l.Warns (ofLayout l).warnings where
  signalConflicts := noted_signalConflicts l
  duplicateLabels := by
    have hkeeps := get_foldl_of_keeps (·.warnings.duplicateLabels)
      duplicateLabels_addSignal l.signals (l.points.foldl addPoint (empty l.graph))
    exact hkeeps ▸ noted_duplicateLabels l.graph l.points
  unnumberedLabels := by
    have hkeeps := get_foldl_of_keeps (·.warnings.unnumberedLabels)
      unnumberedLabels_addSignal l.signals (l.points.foldl addPoint (empty l.graph))
    have hpoints := get_foldl_map (fun i : LayoutIndex ↦ i.warnings.unnumberedLabels)
      unnumberedLabels_addPoint l.points (empty l.graph)
    exact hkeeps.trans hpoints

/-- **The notes are complete and in order**, and there are none exactly if the signals have
different names and the points have numbers and labels that are different up to case. -/
theorem warnings_exact (l : Layout) :
    (∀ w, (ofLayout l).warnings = w ↔ l.Warns w) ∧
      ((ofLayout l).warnings.isClean = true ↔ (l.signals.map (·.name)).Nodup ∧
        (l.points.Pairwise fun p q ↦ ¬ Label.AgreeUpToCase p.label q.label) ∧
        ∀ p ∈ l.points, p.number ≠ 0) := by
  refine ⟨fun w ↦ ⟨?_, fun h ↦ ?_⟩, (warns_ofLayout l).isClean_iff⟩
  · rintro rfl
    exact warns_ofLayout l
  · exact (warns_ofLayout l).unique h

/-- Of the labels that are the same up to case, all but the first are noted, and one without digits
only as such, however often it is there. A name that was taken twice leaves the place of the first
signal. -/
theorem warnings_exact_of_repeated_labels :
    let l := { Layout.empty with
      points := ["27a", "x", "27A", "x", "027a", "27a"].map (.plain · [])
      signals := [.plain "64" ⟨1, 1⟩ 0, .plain "64" ⟨2, 2⟩ 0, .plain "64" ⟨3, 3⟩ 0] }
    let w : LayoutWarnings :=
      { signalConflicts := [⟨"64", ⟨1, 1⟩, ⟨2, 2⟩⟩, ⟨"64", ⟨1, 1⟩, ⟨3, 3⟩⟩]
        duplicateLabels := ["27A", "27a"]
        unnumberedLabels := ["x", "x"] }
    (ofLayout l).warnings = w ∧ l.Warns w := by
  intro l w
  have hnoted : (ofLayout l).warnings = w := by decide +kernel
  exact ⟨hnoted, ((warnings_exact l).1 w).1 hnoted⟩

end LayoutIndex

end SignalBox
