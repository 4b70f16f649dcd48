import Mathlib.Data.List.TakeWhile
import SignalBox.Console.Grammar
import SignalBox.Proofs.TurntableText

/-!
# What a finished entry is read as

The forms that an entry can have, and the command for each (`ReadsAs`). They are written down from
left to right, as one would explain them at the console, and say nothing of how an entry is taken
apart. The main statement is `classify_eq_complete_iff`: what the console makes of an entry that a
terminator has ended is exactly what it is read as.

The two ways to take an entry apart are to look for the end of the leading digits, for a point
(`numbered?_eq_some_iff`), and to split at the divider, for a route (`route?_eq_some_iff`). That a
reading is the only one rests on the first key: entries for points and routes begin with a letter, a
digit or a divider, all others with a terminator.
-/

namespace SignalBox

open Decimal

/-! ### Readings -/

/-- The position that a sign asks for. -/
inductive Signs : Char → Position → Prop
  | straight : Signs '+' .straight
  | diverging : Signs '-' .diverging

/-- What the last key of a route entry asks for. -/
inductive Asks : Char → RouteState → Prop
  | setMain : Asks '#' .setMain
  | setShunting : Asks '*' .setShunting
  | clear : Asks '/' .clear

/-- What a finished entry is read as, where a dot parts signals and `x` marks flank protection. -/
inductive ReadsAs : List Char → Command → Prop
  | reload : ReadsAs ['+', '-'] (.control .reload)
  | clearAllRoutes : ReadsAs ['/', '/'] (.control .clearAllRoutes)
  | stopAllSignals : ReadsAs ['*', '*'] (.control .stopAllSignals)
  /-- A number with an optional letter, and the mark in front for a point off the route. -/
  | point {mark digits : List Char} {letter : Option Char} {sign : Char} {position : Position}
      (hmark : mark = [] ∨ mark = ['x'] ∨ mark = ['X']) (hdigits : IsRun digits)
      (hletter : ∀ c ∈ letter, c.isAlpha = true) (hsign : Signs sign position) :
      ReadsAs (mark ++ digits ++ letter.toList ++ [sign]) (.point
        { number := numeral digits, subPoint := letter.map Char.toLower, position
          lockOffset := none, onRoute := mark.isEmpty, addresses := [] })
  /-- A number alone is the destination of a route from anywhere. -/
  | destination {digits : List Char} {last : Char} {state : RouteState} (hdigits : IsRun digits)
      (hlast : Asks last state) :
      ReadsAs (digits ++ [last]) (.route
        { start := 0, destination := numeral digits, state, points := [], via := [] })
  /-- Numbers parted by dots are the signals of a route. Some may be empty, but not all. -/
  | chain {start destination : List Char} {via : List (List Char)} {last : Char}
      {state : RouteState}
      (hdigits : ∀ field ∈ start :: via ++ [destination], ∀ c ∈ field, c.isDigit = true)
      (hsome : ∃ field ∈ start :: via ++ [destination], field ≠ []) (hlast : Asks last state) :
      ReadsAs (['.'].intercalate (start :: via ++ [destination]) ++ [last]) (.route
        { start := numeral start, destination := numeral destination, state, points := []
          via := via.map numeral })
  /-- A sign and a number are the direction and the track of the turntable. -/
  | turntable {sign : Char} {direction : Position} {digits : List Char}
      (hsign : Signs sign direction) (hdigits : IsRun digits) :
      ReadsAs (sign :: digits ++ ['#']) (.turntable { track := numeral digits, direction })

/-! ### Signs and terminators -/

section

variable {c : Char} {position : Position} {state : RouteState}

theorem signs_iff : Signs c position ↔ (c = '+' ∨ c = '-') ∧ position = .ofSign c := by
  constructor
  · rintro (_ | _)
    · exact ⟨.inl rfl, rfl⟩
    · exact ⟨.inr rfl, rfl⟩
  · rintro ⟨rfl | rfl, rfl⟩
    · exact .straight
    · exact .diverging

theorem asks_iff :
    Asks c state ↔ (c = '#' ∨ c = '*' ∨ c = '/') ∧ state = .ofTerminator c := by
  constructor
  · rintro (_ | _ | _) <;> exact ⟨by decide, rfl⟩
  · rintro ⟨rfl | rfl | rfl, rfl⟩
    · exact .setMain
    · exact .setShunting
    · exact .clear

theorem isTerminator_iff :
    isTerminator c = true ↔ c = '+' ∨ c = '-' ∨ c = '#' ∨ c = '*' ∨ c = '/' := by
  simp [isTerminator, or_assoc]

theorem isDigit_of_isTerminator (h : isTerminator c = true) : c.isDigit = false := by
  rcases isTerminator_iff.1 h with rfl | rfl | rfl | rfl | rfl <;> decide

theorem isTerminator_of_isDigit (h : c.isDigit = true) : isTerminator c = false :=
  Bool.eq_false_iff.2 fun ht ↦ Bool.false_ne_true ((isDigit_of_isTerminator ht).symm.trans h)

theorem isAlpha_iff : c.isAlpha = true ↔
    65 ≤ c.toNat ∧ c.toNat ≤ 90 ∨ 97 ≤ c.toNat ∧ c.toNat ≤ 122 := by
  show (decide (c.val ≥ 'A'.val ∧ c.val ≤ 'Z'.val) ||
    (decide (c.val ≥ 'a'.val) && decide (c.val ≤ 'z'.val))) = true ↔ _
  simp [UInt32.le_iff_toNat_le]

theorem isAlphanum_of_isDigit (h : c.isDigit = true) : c.isAlphanum = true := by
  rw [Char.isAlphanum, h, Bool.or_true]

theorem isDigit_of_isAlpha (h : c.isAlpha = true) : c.isDigit = false := by
  rw [isAlpha_iff] at h
  rw [Bool.eq_false_iff, ne_eq, isDigit_iff]
  omega

theorem isTerminator_of_isAlpha (h : c.isAlpha = true) : isTerminator c = false := by
  refine Bool.eq_false_iff.2 fun ht ↦ ?_
  rcases isTerminator_iff.1 ht with rfl | rfl | rfl | rfl | rfl <;> cases h

theorem isTerminator_of_isAlphanum (h : c.isAlphanum = true) : isTerminator c = false :=
  ((Bool.or_eq_true _ _).mp h).elim isTerminator_of_isAlpha isTerminator_of_isDigit

/-- A capital letter lies 32 places before the small one. -/
theorem toNat_toLower (c : Char) :
    c.toLower.toNat = if 65 ≤ c.toNat ∧ c.toNat ≤ 90 then c.toNat + 32 else c.toNat := by
  split
  next hupper =>
    have hlower : c.toLower.val = c.val + 32 := congrArg Char.val (dif_pos hupper)
    rw [← Char.toNat_val, hlower, UInt32.toNat_add, Char.toNat_val,
      show (32 : UInt32).toNat = 32 from rfl]
    omega
  next hupper => rw [show c.toLower = c from dif_neg hupper]

theorem toLower_eq_x_iff : c.toLower = 'x' ↔ c = 'x' ∨ c = 'X' := by
  rw [← Char.toNat_inj, ← Char.toNat_inj, ← Char.toNat_inj, toNat_toLower]
  simp only [Char.reduceToNat]
  split <;> omega

theorem isDigit_toLower (c : Char) : c.toLower.isDigit = c.isDigit := by
  rw [Bool.eq_iff_iff, isDigit_iff, isDigit_iff, toNat_toLower]
  split <;> omega

end

namespace Grammar

/-! ### Points -/

section

variable {onRoute : Bool} {position : Position} {body : List Char} {command : PointCommand}
  {g : Grammar} {mark sign : Char} {digits : List Char} {letter : Option Char}

/-- **A number with a letter** is taken apart where its digits end. -/
theorem numbered?_eq_some_iff :
    numbered? onRoute position body = some command ↔
      ∃ digits, ∃ letter : Option Char, body = digits ++ letter.toList ∧ IsRun digits ∧
        (∀ c ∈ letter, c.isAlpha = true) ∧
        command = { number := numeral digits, subPoint := letter.map Char.toLower, position
                    lockOffset := none, onRoute, addresses := [] } := by
  have hcommand (number : UInt32) :
      (if onRoute then PointCommand.plain number position
        else PointCommand.flank number position) =
      { number, subPoint := none, position, lockOffset := none, onRoute, addresses := [] } := by
    cases onRoute <;> rfl
  rw [numbered?, hcommand]
  constructor
  · intro h
    split at h
    · cases h
    next hempty =>
      have hdigits : ∀ c ∈ body.takeWhile Char.isDigit, c.isDigit = true := fun c hc ↦
        List.mem_takeWhile_imp hc
      have hrun : IsRun (body.takeWhile Char.isDigit) := ⟨by simpa using hempty, hdigits⟩
      have hbody := (List.takeWhile_append_dropWhile (p := Char.isDigit) (l := body)).symm
      rw [word_eq_numeral hdigits] at h
      split at h
      next hdrop =>
        rw [hdrop] at hbody
        exact ⟨_, none, hbody, hrun, by simp, (Option.some.inj h).symm⟩
      next letter hdrop =>
        rw [hdrop] at hbody
        split at h
        next halpha =>
          exact ⟨_, some letter, hbody, hrun, by simpa using halpha, (Option.some.inj h).symm⟩
        · cases h
      · cases h
  · rintro ⟨digits, letter, rfl, hrun, hletter, rfl⟩
    have htake : (digits ++ letter.toList).takeWhile Char.isDigit = digits := by
      rw [List.takeWhile_append_of_pos hrun.isDigit]
      cases letter with
      | none => simp
      | some c => simp [isDigit_of_isAlpha (hletter c rfl)]
    have hdrop : (digits ++ letter.toList).dropWhile Char.isDigit = letter.toList := by
      rw [List.dropWhile_append_of_pos hrun.isDigit]
      cases letter with
      | none => rfl
      | some c => simp [isDigit_of_isAlpha (hletter c rfl)]
    rw [htake, hdrop, if_neg (by simpa using hrun.ne_nil), word_eq_numeral hrun.isDigit]
    cases letter with
    | none => rfl
    | some c => exact if_pos (hletter c rfl)

/-- The mark of a grammar in front of a number asks for flank protection. -/
theorem point?_of_mark (hmark : mark.toLower = g.offRoutePrefix) (hdigits : IsRun digits)
    (hletter : ∀ c ∈ letter, c.isAlpha = true) :
    g.point? sign (mark :: digits ++ letter.toList) = some
      { number := numeral digits, subPoint := letter.map Char.toLower, position := .ofSign sign
        lockOffset := none, onRoute := false, addresses := [] } := by
  rw [point?, List.cons_append, splitFlankPrefix, if_pos hmark]
  exact numbered?_eq_some_iff.2 ⟨digits, letter, rfl, hdigits, hletter, rfl⟩

/-- A number alone is that of a point on the route, unless a digit is the mark. -/
theorem point?_of_unmarked (hmark : g.offRoutePrefix.isDigit = false) (hdigits : IsRun digits)
    (hletter : ∀ c ∈ letter, c.isAlpha = true) :
    g.point? sign (digits ++ letter.toList) = some
      { number := numeral digits, subPoint := letter.map Char.toLower, position := .ofSign sign
        lockOffset := none, onRoute := true, addresses := [] } := by
  have hbody : g.splitFlankPrefix (digits ++ letter.toList) = (true, digits ++ letter.toList) := by
    obtain ⟨first, rest, rfl⟩ := List.exists_cons_of_ne_nil hdigits.ne_nil
    refine if_neg fun hfirst ↦ ?_
    have hdigit := hdigits.isDigit first List.mem_cons_self
    rw [← isDigit_toLower, hfirst, hmark] at hdigit
    cases hdigit
  rw [point?, hbody]
  exact numbered?_eq_some_iff.2 ⟨digits, letter, rfl, hdigits, hletter, rfl⟩

/-- **A point** has its mark, if there is one, in front of its number. -/
theorem point?_eq_some_iff :
    standard.point? sign body = some command ↔
      ∃ mark digits, ∃ letter : Option Char, body = mark ++ digits ++ letter.toList ∧
        (mark = [] ∨ mark = ['x'] ∨ mark = ['X']) ∧ IsRun digits ∧
        (∀ c ∈ letter, c.isAlpha = true) ∧
        command = { number := numeral digits, subPoint := letter.map Char.toLower
                    position := .ofSign sign, lockOffset := none, onRoute := mark.isEmpty
                    addresses := [] } := by
  constructor
  · intro h
    rw [point?, splitFlankPrefix.eq_def] at h
    cases body with
    | nil =>
      obtain ⟨digits, letter, hbody, h⟩ := numbered?_eq_some_iff.1 h
      exact ⟨[], digits, letter, hbody, .inl rfl, h⟩
    | cons first body =>
      dsimp only at h
      split at h
      next hmark =>
        obtain ⟨digits, letter, rfl, h⟩ := numbered?_eq_some_iff.1 h
        refine ⟨[first], digits, letter, rfl, ?_, h⟩
        rcases toLower_eq_x_iff.1 hmark with rfl | rfl
        · exact .inr (.inl rfl)
        · exact .inr (.inr rfl)
      · obtain ⟨digits, letter, hbody, h⟩ := numbered?_eq_some_iff.1 h
        exact ⟨[], digits, letter, hbody, .inl rfl, h⟩
  · rintro ⟨mark, digits, letter, rfl, hmark, hrun, hletter, rfl⟩
    rcases hmark with rfl | rfl | rfl
    · exact point?_of_unmarked rfl hrun hletter
    · exact point?_of_mark rfl hrun hletter
    · exact point?_of_mark rfl hrun hletter

end

/-! ### Routes -/

section

variable {state : RouteState} {signals : List UInt32} {body : List Char} {route : RouteCommand}

theorem fields_eq_splitOn (divider : Char) (cs : List Char) :
    fields divider cs = cs.splitOn divider := by
  induction cs with
  | nil => rw [fields, List.splitOn_nil]
  | cons c cs ih =>
    rw [fields, List.splitOn_cons_eq_if_modifyHead, ih]
    by_cases hc : c = divider
    · rw [if_pos hc, if_pos (beq_iff_eq.2 hc)]
    · rw [if_neg hc, if_neg (by simpa using hc)]
      cases hsplit : cs.splitOn divider with
      | nil => exact absurd hsplit (List.splitOn_ne_nil _ _)
      | cons run runs => rfl

/-- **A route along signals** has the first and the last of them as its ends; a single one is the
destination. -/
theorem routeAlong?_eq_some_iff :
    routeAlong? state signals = some route ↔
      (∃ destination, signals = [destination] ∧
        route = { start := 0, destination, state, points := [], via := [] }) ∨
      ∃ start via destination, signals = start :: via ++ [destination] ∧
        route = { start, destination, state, points := [], via } := by
  constructor
  · intro h
    match signals with
    | [] => cases h
    | [destination] => exact .inl ⟨destination, rfl, (Option.some.inj h).symm⟩
    | start :: next :: rest =>
      refine .inr ⟨start, (next :: rest).dropLast, (next :: rest).getLast (by simp), ?_,
        (Option.some.inj h).symm⟩
      rw [List.cons_append, List.dropLast_concat_getLast]
  · rintro (⟨destination, rfl, rfl⟩ | ⟨start, via, destination, rfl, rfl⟩)
    · rfl
    · obtain ⟨next, rest, hrest⟩ : ∃ next rest, via ++ [destination] = next :: rest :=
        List.exists_cons_of_ne_nil (by simp)
      rw [List.cons_append, hrest, routeAlong?]
      simp [← hrest, RouteCommand.plain]

/-- What is no divider stands in one of the fields. -/
theorem mem_intercalate_iff {c divider : Char} {fields : List (List Char)} (hc : c ≠ divider) :
    c ∈ [divider].intercalate fields ↔ ∃ field ∈ fields, c ∈ field := by
  induction fields with
  | nil => simp
  | cons field fields ih =>
    cases fields with
    | nil => simp
    | cons next fields =>
      rw [List.intercalate_cons_cons, List.mem_append, ih]
      simp [hc]

theorem mem_of_mem_splitOn {c divider : Char} {cs field : List Char}
    (hfield : field ∈ cs.splitOn divider) (hc : c ∈ field) : c ∈ cs ∧ c ≠ divider := by
  induction cs generalizing field with
  | nil =>
    rw [List.splitOn_nil, List.mem_singleton] at hfield
    exact absurd hc (hfield ▸ List.not_mem_nil)
  | cons d cs ih =>
    have hlater (h : field ∈ cs.splitOn divider) : c ∈ d :: cs ∧ c ≠ divider :=
      (ih h hc).imp_left (List.mem_cons_of_mem d)
    rw [List.splitOn_cons_eq_if_modifyHead] at hfield
    split at hfield
    · rcases List.mem_cons.1 hfield with rfl | hfield
      · cases hc
      · exact hlater hfield
    next hd =>
      obtain ⟨run, runs, hsplit⟩ := List.exists_cons_of_ne_nil (List.splitOn_ne_nil divider cs)
      rw [hsplit] at hfield hlater ih
      rcases List.mem_cons.1 hfield with rfl | hfield
      · rcases List.mem_cons.1 hc with rfl | hc
        · exact ⟨List.mem_cons_self, by simpa using hd⟩
        · exact (ih List.mem_cons_self hc).imp_left (List.mem_cons_of_mem d)
      · exact hlater (List.mem_cons_of_mem _ hfield)

/-- **A route** is taken apart at the dots. -/
theorem route?_eq_some_iff {last : Char} :
    standard.route? last body = some route ↔
      ∃ fields : List (List Char), body = ['.'].intercalate fields ∧
        (∀ field ∈ fields, ∀ c ∈ field, c.isDigit = true) ∧ (∃ field ∈ fields, field ≠ []) ∧
        routeAlong? (.ofTerminator last) (fields.map numeral) = some route := by
  have hdigit {c : Char} (h : c.isDigit = true) : c ≠ '.' := by
    rintro rfl
    cases h
  rw [route?, show standard.divider = '.' from rfl, fields_eq_splitOn]
  simp only [Option.ite_none_right_eq_some, Bool.and_eq_true, List.all_eq_true,
    List.any_eq_true, Bool.or_eq_true, decide_eq_true_eq]
  constructor
  · rintro ⟨⟨hall, c, hc, hcdigit⟩, h⟩
    have hjoin : ['.'].intercalate (body.splitOn '.') = body := List.intercalate_splitOn '.'
    have hdigits : ∀ field ∈ body.splitOn '.', ∀ c ∈ field, c.isDigit = true := by
      intro field hfield c hc
      obtain ⟨hmem, hne⟩ := mem_of_mem_splitOn hfield hc
      exact (hall c hmem).resolve_right hne
    refine ⟨body.splitOn '.', hjoin.symm, hdigits, ?_, ?_⟩
    · rw [← hjoin, mem_intercalate_iff (hdigit hcdigit)] at hc
      obtain ⟨field, hfield, hc⟩ := hc
      exact ⟨field, hfield, List.ne_nil_of_mem hc⟩
    · rwa [map_word_eq_map_numeral hdigits] at h
  · rintro ⟨fields, rfl, hdigits, ⟨field, hfield, hne⟩, h⟩
    have hdot : ∀ field ∈ fields, '.' ∉ field := fun field hfield hmem ↦
      hdigit (hdigits field hfield _ hmem) rfl
    have hsplit : (['.'].intercalate fields).splitOn '.' = fields :=
      List.splitOn_intercalate '.' hdot (List.ne_nil_of_mem hfield)
    refine ⟨⟨fun c hc ↦ ?_, ?_⟩, ?_⟩
    · by_cases hcdot : c = '.'
      · exact .inr hcdot
      · obtain ⟨field, hfield, hc⟩ := (mem_intercalate_iff hcdot).1 hc
        exact .inl (hdigits field hfield c hc)
    · obtain ⟨c, hc⟩ := List.exists_mem_of_ne_nil field hne
      have hcdigit := hdigits field hfield c hc
      exact ⟨c, (mem_intercalate_iff (hdigit hcdigit)).2 ⟨field, hfield, hc⟩, hcdigit⟩
    · rwa [hsplit, map_word_eq_map_numeral hdigits]

end

/-! ### The turntable -/

/-- **A sign and a number** turn the turntable. -/
theorem ofText?_eq_some_iff {sign : Char} {digits : List Char} {command : TurntableCommand}
    (hsign : sign = '+' ∨ sign = '-') :
    TurntableCommand.ofText? (sign :: digits ++ ['#']) = some command ↔
      IsRun digits ∧ command = { track := numeral digits, direction := .ofSign sign } := by
  have hmark : TurntableCommand.withoutMark (sign :: digits ++ ['#']) = sign :: digits := by
    rw [TurntableCommand.withoutMark, List.getLast?_concat, if_pos rfl, List.dropLast_concat]
  rw [TurntableCommand.ofText?, hmark]
  rcases hsign with rfl | rfl
  · exact TurntableCommand.ofDigits?_eq_some_iff
  · exact TurntableCommand.ofDigits?_eq_some_iff

/-! ### Entries that a terminator has ended -/

section

variable {g : Grammar} {first last : Char} {body rest entry : List Char} {command : Command}

/-- **An entry that has ended** is judged by its first and its last key. -/
theorem classify_concat (hlast : isTerminator last = true) :
    g.classify (first :: rest ++ [last]) = .complete (
      if first :: rest ++ [last] = ['+', '-'] then some (.control .reload)
      else if first :: rest ++ [last] = ['/', '/'] then some (.control .clearAllRoutes)
      else if first :: rest ++ [last] = ['*', '*'] then some (.control .stopAllSignals)
      else if (first = '+' ∨ first = '-') ∧ last = '#' then
        (TurntableCommand.ofText? (first :: rest ++ [last])).map .turntable
      else if last = '+' ∨ last = '-' then (g.point? last (first :: rest)).map .point
      else (g.route? last (first :: rest)).map .route) := by
  have hget : (first :: rest ++ [last]).getLast? = some last := List.getLast?_concat
  have hdrop : (first :: rest ++ [last]).dropLast = first :: rest := List.dropLast_concat
  have hempty : (rest ++ [last]).isEmpty = false := by simp
  rw [classify.eq_def, hget, hdrop]
  -- the two sides ask the same questions in the same order
  simp only [List.cons_append, hlast, hempty, Bool.not_true, Bool.false_eq_true, if_false,
    Bool.and_eq_true, Bool.or_eq_true, decide_eq_true_eq, apply_ite Verdict.complete]

theorem exists_classify_concat (g : Grammar) (hne : body ≠ []) (hlast : isTerminator last = true) :
    ∃ command, g.classify (body ++ [last]) = .complete command := by
  obtain ⟨first, rest, rfl⟩ := List.exists_cons_of_ne_nil hne
  exact ⟨_, classify_concat hlast⟩

/-- An entry without other terminators is one for a point or a route. -/
theorem classify_of_forall (hbody : body ≠ []) (hall : ∀ c ∈ body, isTerminator c = false)
    (hlast : isTerminator last = true) :
    g.classify (body ++ [last]) = .complete (
      if last = '+' ∨ last = '-' then (g.point? last body).map .point
      else (g.route? last body).map .route) := by
  obtain ⟨first, rest, rfl⟩ := List.exists_cons_of_ne_nil hbody
  have hfirst : isTerminator first = false := hall first List.mem_cons_self
  have hcontrol {c d : Char} (hc : isTerminator c = true) : ¬ first :: rest ++ [last] = [c, d] :=
    fun h ↦ Bool.false_ne_true (hfirst.symm.trans ((List.cons.inj h).1 ▸ hc))
  have hsign : ¬ ((first = '+' ∨ first = '-') ∧ last = '#') := by
    rintro ⟨rfl | rfl, -⟩ <;> cases hfirst
  rw [classify_concat hlast, if_neg (hcontrol rfl), if_neg (hcontrol rfl), if_neg (hcontrol rfl),
    if_neg hsign]

/-- Fields of digits, not all empty, are the signals of a route. -/
theorem classify_route {fields : List (List Char)} {state : RouteState} {route : RouteCommand}
    (hdigits : ∀ field ∈ fields, ∀ c ∈ field, c.isDigit = true)
    (hsome : ∃ field ∈ fields, field ≠ []) (hlast : Asks last state)
    (hroute : routeAlong? state (fields.map numeral) = some route) :
    standard.classify (['.'].intercalate fields ++ [last]) = .complete (some (.route route)) := by
  obtain ⟨hlast, rfl⟩ := asks_iff.1 hlast
  have hread : standard.route? last (['.'].intercalate fields) = some route :=
    route?_eq_some_iff.2 ⟨fields, rfl, hdigits, hsome, hroute⟩
  have hsign : ¬ (last = '+' ∨ last = '-') := by rcases hlast with rfl | rfl | rfl <;> decide
  rw [classify_of_forall ?_ ?_ (isTerminator_iff.2 (by tauto)), if_neg hsign, hread]
  · rfl
  · obtain ⟨field, hfield, hne⟩ := hsome
    obtain ⟨c, hc⟩ := List.exists_mem_of_ne_nil field hne
    have hdot : c ≠ '.' := fun h ↦ by cases h ▸ hdigits field hfield c hc
    exact List.ne_nil_of_mem ((mem_intercalate_iff hdot).2 ⟨field, hfield, hc⟩)
  · intro c hc
    by_cases hdot : c = '.'
    · rw [hdot]
      rfl
    · obtain ⟨field, hfield, hc⟩ := (mem_intercalate_iff hdot).1 hc
      exact isTerminator_of_isDigit (hdigits field hfield c hc)

/-- **What an entry is read as** is what becomes of it. -/
theorem classify_of_readsAs (h : ReadsAs entry command) :
    standard.classify entry = .complete (some command) := by
  cases h with
  | reload | clearAllRoutes | stopAllSignals => rfl
  | @point mark digits letter sign position hmark hdigits hletter hsign =>
    obtain ⟨hends, rfl⟩ := signs_iff.1 hsign
    have hlast : isTerminator sign = true := isTerminator_iff.2 (by tauto)
    have hpoint : standard.point? sign (mark ++ digits ++ letter.toList) = some _ :=
      point?_eq_some_iff.2 ⟨mark, digits, letter, rfl, hmark, hdigits, hletter, rfl⟩
    have hne : mark ++ digits ++ letter.toList ≠ [] := by simp [hdigits.ne_nil]
    rw [classify_of_forall hne ?_ hlast, if_pos hends, hpoint]
    · rfl
    · -- no mark, digit or letter is a terminator
      intro c hc
      simp only [List.mem_append, Option.mem_toList] at hc
      rcases hc with (hc | hc) | hc
      · rcases hmark with rfl | rfl | rfl
        · cases hc
        · rw [List.mem_singleton.1 hc]
          rfl
        · rw [List.mem_singleton.1 hc]
          rfl
      · exact isTerminator_of_isDigit (hdigits.isDigit c hc)
      · exact isTerminator_of_isAlpha (hletter c hc)
  | @destination digits last state hdigits hlast =>
    have hfields : ∀ field ∈ [digits], ∀ c ∈ field, c.isDigit = true := by
      simpa using hdigits.isDigit
    have hroute := classify_route hfields ⟨digits, List.mem_cons_self, hdigits.ne_nil⟩ hlast rfl
    rwa [List.intercalate_singleton] at hroute
  | @chain start destination via last state hdigits hsome hlast =>
    refine classify_route hdigits hsome hlast (routeAlong?_eq_some_iff.2 (.inr ?_))
    exact ⟨numeral start, via.map numeral, numeral destination, by simp, rfl⟩
  | @turntable sign direction digits hsign hdigits =>
    obtain ⟨hfirst, rfl⟩ := signs_iff.1 hsign
    have htext := (ofText?_eq_some_iff hfirst).2 ⟨hdigits, rfl⟩
    have hcontrol {c d : Char} (hd : d ≠ '#') : ¬ sign :: digits ++ ['#'] = [c, d] := fun h ↦ by
      have hlast := congrArg List.getLast? h
      rw [List.getLast?_concat] at hlast
      exact hd (Option.some.inj hlast).symm
    rw [classify_concat rfl, if_neg (hcontrol (by decide)), if_neg (hcontrol (by decide)),
      if_neg (hcontrol (by decide)), if_pos ⟨hfirst, rfl⟩, htext]
    rfl

/-- **What becomes of an entry** that has ended is what it is read as. -/
theorem readsAs_of_classify (hbody : body ≠ []) (hlast : isTerminator last = true)
    (h : standard.classify (body ++ [last]) = .complete (some command)) :
    ReadsAs (body ++ [last]) command := by
  obtain ⟨first, rest, rfl⟩ := List.exists_cons_of_ne_nil hbody
  rw [classify_concat hlast, Verdict.complete.injEq] at h
  split_ifs at h with hreload hclear hstop hturn hsign
  · exact Option.some.inj h ▸ hreload ▸ .reload
  · exact Option.some.inj h ▸ hclear ▸ .clearAllRoutes
  · exact Option.some.inj h ▸ hstop ▸ .stopAllSignals
  · obtain ⟨hfirst, rfl⟩ := hturn
    obtain ⟨turn, hturn, rfl⟩ := Option.map_eq_some_iff.1 h
    obtain ⟨hrun, rfl⟩ := (ofText?_eq_some_iff hfirst).1 hturn
    exact .turntable (signs_iff.2 ⟨hfirst, rfl⟩) hrun
  · obtain ⟨point, hpoint, rfl⟩ := Option.map_eq_some_iff.1 h
    obtain ⟨mark, digits, letter, hbody, hmark, hrun, hletter, rfl⟩ :=
      point?_eq_some_iff.1 hpoint
    rw [hbody]
    exact .point hmark hrun hletter (signs_iff.2 ⟨hsign, rfl⟩)
  · obtain ⟨route, hroute, rfl⟩ := Option.map_eq_some_iff.1 h
    obtain ⟨fields, hbody, hdigits, hsome, hroute⟩ := route?_eq_some_iff.1 hroute
    have hasks : Asks last (.ofTerminator last) :=
      asks_iff.2 ⟨by have := isTerminator_iff.1 hlast; tauto, rfl⟩
    rw [hbody]
    rcases routeAlong?_eq_some_iff.1 hroute with
        ⟨destination, hfields, rfl⟩ | ⟨start, via, destination, hfields, rfl⟩
    · obtain ⟨digits, rfl, rfl⟩ := List.map_eq_singleton_iff.1 hfields
      rw [List.intercalate_singleton]
      exact .destination ⟨by simpa using hsome, by simpa using hdigits⟩ hasks
    · obtain ⟨front, back, rfl, hfront, hback⟩ := List.map_eq_append_iff.1 hfields
      obtain ⟨start, via, rfl, rfl, rfl⟩ := List.map_eq_cons_iff.1 hfront
      obtain ⟨destination, rfl, rfl⟩ := List.map_eq_singleton_iff.1 hback
      exact .chain hdigits hsome hasks

/-- **The grammar of entries.** What becomes of an entry that a terminator has ended is exactly what
it is read as. -/
theorem classify_eq_complete_iff (hbody : body ≠ []) (hlast : isTerminator last = true) :
    standard.classify (body ++ [last]) = .complete (some command) ↔
      ReadsAs (body ++ [last]) command :=
  ⟨readsAs_of_classify hbody hlast, classify_of_readsAs⟩

end

end Grammar

end SignalBox
