import Mathlib.Tactic.SplitIfs
import SignalBox.Json.Reader
import SignalBox.Json.Writer
import SignalBox.Text.Decimal

/-!
# Reading what was written as JSON

Values without reals, whose whole numbers fit into 64 bits, are *plain* (`Json.Plain`). A plain
value is read back from its text (`parse?_render`).

* **Strings.** Only quotes, backslashes and control characters are escaped, and none of the escapes
  is half of a surrogate pair, so the codes of a written string are those of its characters
  (`stringCodes_flatMap_escape`) and none of them is joined to another (`joinHalves_map_toNat`).
* **Numbers** are written without leading zeros (`head?_digits`), so they are read as whole ones.
* **Where a value ends** is told by what may follow it: nothing, a comma or a closing bracket, none
  of which continues a number (`Ends`).
* **The number of steps** that a value needs is at most the number of its characters, since an item
  or a member is followed by a comma or a bracket that takes no step (`value?_written`).
-/

namespace SignalBox.Json

/-! ### Strings -/

namespace Reader

open Writer

/-- No character is half of a surrogate pair. -/
theorem not_half (c : Char) : (isHighHalf c.toNat || isLowHalf c.toNat) = false := by
  have hvalid : c.toNat < 0xD800 ∨ 0xDFFF < c.toNat ∧ c.toNat < 0x110000 := c.valid
  rw [isHighHalf, isLowHalf, Bool.or_eq_false_iff, Bool.and_eq_false_iff, Bool.and_eq_false_iff]
  simp only [decide_eq_false_iff_not]
  omega

/-- The codes of characters are joined to the characters. -/
theorem joinHalves_map_toNat (cs : List Char) : joinHalves (cs.map Char.toNat) = some cs := by
  induction cs with
  | nil => rfl
  | cons c cs ih =>
    obtain ⟨hhigh, hlow⟩ := Bool.or_eq_false_iff.1 (not_half c)
    cases cs with
    | nil =>
      rw [List.map_singleton, joinHalves, hhigh, hlow, Char.ofNat_toNat]
      rfl
    | cons d cs =>
      rw [List.map_cons] at ih
      rw [List.map_cons, List.map_cons, joinHalves, hhigh, hlow, ih, Char.ofNat_toNat]
      rfl

/-- An escaped control character spells its code. -/
theorem hexCode?_digitChar {n : Nat} (h : n < 0x20) :
    hexCode? '0' '0' (Nat.digitChar (n / 16)) (Nat.digitChar (n % 16)) = some n := by
  have hall : ∀ n : Fin 0x20,
      hexCode? '0' '0' (Nat.digitChar (n / 16)) (Nat.digitChar (n % 16)) = some n.val := by decide
  exact hall ⟨n, h⟩

/-- The codes behind an escape of one letter. -/
theorem stringCodes_escaped {e : Char} {code : Nat} (hu : e ≠ 'u')
    (hcode : escapeCode? e = some code) (cs : List Char) :
    stringCodes ('\\' :: e :: cs) = (stringCodes cs).map fun r ↦ (code :: r.1, r.2) := by
  rw [stringCodes.eq_4 e cs fun _ _ _ _ _ h _ ↦ hu h, hcode]
  cases stringCodes cs <;> rfl

/-- The codes behind an escape of four digits. -/
theorem stringCodes_control {n : Nat} (h : n < 0x20) (cs : List Char) :
    stringCodes
        ('\\' :: 'u' :: '0' :: '0' :: Nat.digitChar (n / 16) :: Nat.digitChar (n % 16) :: cs) =
      (stringCodes cs).map fun r ↦ (n :: r.1, r.2) := by
  rw [stringCodes, hexCode?_digitChar h]
  cases stringCodes cs <;> rfl

/-- The codes behind a character that stands for itself. -/
theorem stringCodes_plain {c : Char} (hquote : c ≠ '"') (hslash : c ≠ '\\')
    (hcontrol : ¬ c.toNat < 0x20) (cs : List Char) :
    stringCodes (c :: cs) = (stringCodes cs).map fun r ↦ (c.toNat :: r.1, r.2) := by
  rw [stringCodes.eq_5 c cs hquote (fun _ _ _ _ _ h _ ↦ hslash h) fun _ _ h _ ↦ hslash h,
    if_neg hcontrol]
  cases stringCodes cs <;> rfl

/-- **One character** of a string is read back, however it is written. -/
theorem stringCodes_escape_append (c : Char) (cs : List Char) :
    stringCodes (escape c ++ cs) = (stringCodes cs).map fun r ↦ (c.toNat :: r.1, r.2) := by
  rw [escape]
  split_ifs with hquote hslash hcontrol
  · rw [hquote]
    exact stringCodes_escaped (by decide) rfl cs
  · rw [hslash]
    exact stringCodes_escaped (by decide) rfl cs
  · exact stringCodes_control hcontrol cs
  · exact stringCodes_plain hquote hslash hcontrol cs

theorem stringCodes_flatMap_escape (cs rest : List Char) :
    stringCodes (cs.flatMap escape ++ '"' :: rest) = some (cs.map Char.toNat, rest) := by
  induction cs with
  | nil => rfl
  | cons c cs ih =>
    rw [List.flatMap_cons, List.append_assoc, stringCodes_escape_append, ih]
    rfl

/-- **A string** is read back after its opening quote. -/
theorem string?_written (s : String) (rest : List Char) :
    string? (s.toList.flatMap escape ++ '"' :: rest) = some (some s, rest) := by
  rw [string?, stringCodes_flatMap_escape, Option.map_some, joinHalves_map_toNat, Option.map_some,
    String.ofList_toList]

/-! ### Numbers -/

/-- What may stand behind a value: nothing, a comma or a closing bracket. -/
def Ends (rest : List Char) : Prop :=
  ∀ c ∈ rest.head?, c = ',' ∨ c = ']' ∨ c = '\x7d'

section

variable {digits rest : List Char}

theorem takeWhile_isDigit_append (hdigits : ∀ c ∈ digits, c.isDigit = true) (hrest : Ends rest) :
    (digits ++ rest).takeWhile Char.isDigit = digits := by
  rw [List.takeWhile_append_of_pos hdigits]
  cases rest with
  | nil => simp
  | cons c rest =>
    have hc : c.isDigit = false := by rcases hrest c rfl with rfl | rfl | rfl <;> decide
    rw [List.takeWhile_cons_of_neg (by simp [hc]), List.append_nil]

theorem dropWhile_isDigit_append (hdigits : ∀ c ∈ digits, c.isDigit = true) (hrest : Ends rest) :
    (digits ++ rest).dropWhile Char.isDigit = rest := by
  rw [List.dropWhile_append_of_pos hdigits]
  cases rest with
  | nil => rfl
  | cons c rest =>
    have hc : c.isDigit = false := by rcases hrest c rfl with rfl | rfl | rfl <;> decide
    rw [List.dropWhile_cons_of_neg (by simp [hc])]

theorem fraction?_of_ends (hrest : Ends rest) : fraction? rest = some (none, rest) := by
  cases rest with
  | nil => rfl
  | cons c rest => rcases hrest c rfl with rfl | rfl | rfl <;> rfl

theorem exponent?_of_ends (hrest : Ends rest) : exponent? rest = some (none, rest) := by
  cases rest with
  | nil => rfl
  | cons c rest => rcases hrest c rfl with rfl | rfl | rfl <;> rfl

end

/-- A number other than zero is written without a zero in front. -/
theorem head?_digits_ne {n : Nat} (h : n ≠ 0) : (Decimal.digits n).head? ≠ some '0' := by
  fun_induction Decimal.digits n with
  | case1 n hsmall =>
    have hall : ∀ d : Fin 10, d.val ≠ 0 → Decimal.digitChar d ≠ '0' := by decide
    simpa using hall ⟨n, hsmall⟩ h
  | case2 n hlarge ih =>
    obtain ⟨c, cs, hdigits⟩ := List.exists_cons_of_ne_nil (Decimal.digits_ne_nil (n / 10))
    rw [hdigits] at ih ⊢
    exact ih (by omega)

theorem length_digits_zero : (Decimal.digits 0).length = 1 := by
  rw [Decimal.digits, if_pos (by decide)]
  rfl

theorem guard_of {p : Prop} [Decidable p] (h : p) : (guard p : Option Unit) = some () :=
  if_pos h

/-- **The digits of a number** are read back. There is no negative zero among whole numbers. -/
theorem magnitude?_written {n : Nat} {negative : Bool} {rest : List Char} (hn : n < UInt64.size)
    (hzero : negative = true → n ≠ 0) (hrest : Ends rest) :
    magnitude? negative (Decimal.digits n ++ rest) =
      some (.int (if negative then -(n : Int) else n), rest) := by
  have hdigits : ∀ c ∈ Decimal.digits n, c.isDigit = true :=
    List.all_eq_true.1 (Decimal.all_isDigit_digits n)
  have hform : (!(Decimal.digits n).isEmpty && ((Decimal.digits n).length == 1 ||
      (Decimal.digits n).head? != some '0')) = true := by
    rw [Bool.and_eq_true, Bool.or_eq_true]
    refine ⟨by simp [Decimal.digits_ne_nil], ?_⟩
    by_cases hz : n = 0
    · exact .inl (by rw [hz, length_digits_zero]; rfl)
    · exact .inr (by simpa using head?_digits_ne hz)
  have hwhole : (decide ((n : Int) < UInt64.size) && !(negative && (n : Int) == 0)) = true := by
    rw [Bool.and_eq_true, decide_eq_true_eq, Int.ofNat_lt]
    refine ⟨hn, ?_⟩
    cases negative with
    | false => rfl
    | true => simpa using hzero rfl
  rw [magnitude?, takeWhile_isDigit_append hdigits hrest, dropWhile_isDigit_append hdigits hrest,
    guard_of hform, fraction?_of_ends hrest]
  simp only [Option.bind_eq_bind, Option.pure_def, Option.bind_some]
  rw [exponent?_of_ends hrest, Option.bind_some, Decimal.value_digits]
  simp only [Option.isNone_none, Bool.true_and]
  exact if_pos hwhole

/-- **A whole number** of 64 bits is read back. -/
theorem number?_written {n : Int} {rest : List Char} (hn : n.natAbs < UInt64.size)
    (hrest : Ends rest) :
    number? (Decimal.integerDigits n ++ rest) = some (.int n, rest) := by
  cases n with
  | ofNat n =>
    have hsign : number? (Decimal.digits n ++ rest) =
        magnitude? false (Decimal.digits n ++ rest) := by
      rw [number?.eq_2]
      intro cs hcs
      obtain ⟨c, tail, hdigits⟩ := List.exists_cons_of_ne_nil (Decimal.digits_ne_nil n)
      have hdigit : c.isDigit = true :=
        List.all_eq_true.1 (Decimal.all_isDigit_digits n) c (hdigits ▸ List.mem_cons_self)
      rw [hdigits, List.cons_append] at hcs
      rw [(List.cons.inj hcs).1] at hdigit
      cases hdigit
    exact hsign.trans (magnitude?_written hn (fun h ↦ nomatch h) hrest)
  | negSucc n => exact magnitude?_written (n := n + 1) hn (fun _ ↦ Nat.succ_ne_zero n) hrest

end Reader

/-! ### Values -/

/-- Values whose text is read back: there is nothing unreadable in them, and all numbers are whole
numbers of 64 bits. -/
inductive Plain : Json → Prop
  | null : Plain .null
  | bool (b : Bool) : Plain (.bool b)
  | int {n : Int} (hn : n.natAbs < UInt64.size) : Plain (.int n)
  | string (s : String) : Plain (.string s)
  | array {items : List Json} (h : ∀ item ∈ items, Plain item) : Plain (.array items)
  | object {members : List (String × Json)} (h : ∀ m ∈ members, Plain m.2) :
    Plain (.object members)

namespace Reader

open Writer

/-- The text of a value is read as the value, whatever may stand behind it, in as many steps as it
has characters. -/
def ReadBack (j : Json) : Prop :=
  ∀ (steps : Nat) (rest : List Char), (value j).length ≤ steps → Ends rest →
    value? steps (value j ++ rest) = some (j, rest)

/-- Whether a character is neither a blank nor a closing bracket. -/
def Opens (c : Char) : Prop :=
  c ∉ [' ', '\t', '\n', '\r', ']']

instance (c : Char) : Decidable (Opens c) :=
  inferInstanceAs (Decidable (c ∉ [' ', '\t', '\n', '\r', ']']))

theorem skipBlanks_cons {c : Char} (h : Opens c) (cs : List Char) :
    skipBlanks (c :: cs) = c :: cs := by
  rw [Opens] at h
  exact List.dropWhile_cons_of_neg (by simp_all)

theorem opens_of_isDigit {c : Char} (h : c.isDigit = true) : Opens c := by
  intro hmem
  simp only [List.mem_cons, List.not_mem_nil, or_false] at hmem
  rcases hmem with rfl | rfl | rfl | rfl | rfl <;> cases h

/-- A number begins with a digit or a minus sign. -/
theorem exists_integerDigits (n : Int) :
    ∃ c cs, Decimal.integerDigits n = c :: cs ∧ (c.isDigit = true ∨ c = '-') := by
  cases n with
  | ofNat n =>
    obtain ⟨c, cs, hdigits⟩ := List.exists_cons_of_ne_nil (Decimal.digits_ne_nil n)
    have hall := List.all_eq_true.1 (Decimal.all_isDigit_digits n)
    exact ⟨c, cs, hdigits, .inl (hall c (hdigits ▸ List.mem_cons_self))⟩
  | negSucc n => exact ⟨'-', Decimal.digits (n + 1), rfl, .inr rfl⟩

/-- A value begins with a character that is neither a blank nor a closing bracket. -/
theorem exists_value {j : Json} (h : Plain j) : ∃ c cs, value j = c :: cs ∧ Opens c := by
  cases h with
  | null => exact ⟨_, _, rfl, by decide⟩
  | bool b => cases b <;> exact ⟨_, _, rfl, by decide⟩
  | @int n hn =>
    obtain ⟨c, cs, hdigits, hc⟩ := exists_integerDigits n
    refine ⟨c, cs, by rw [value, hdigits], ?_⟩
    rcases hc with hc | rfl
    · exact opens_of_isDigit hc
    · decide
  | string s => exact ⟨_, _, rfl, by decide⟩
  | array h => exact ⟨_, _, rfl, by decide⟩
  | object h => exact ⟨_, _, rfl, by decide⟩

/-- What begins with a digit or a minus sign is read as a number. -/
theorem value?_of_isDigit {c : Char} {cs : List Char} {steps : Nat}
    (h : c.isDigit = true ∨ c = '-') : value? (steps + 1) (c :: cs) = number? (c :: cs) := by
  have hopens : Opens c := by
    rcases h with h | rfl
    · exact opens_of_isDigit h
    · decide
  have hother {d : Char} {ds : List Char} (hcs : c :: cs = d :: ds)
      (hd : ¬ (d.isDigit = true ∨ d = '-')) : False := hd ((List.cons.inj hcs).1 ▸ h)
  rw [value?, skipBlanks_cons hopens]
  split <;> first | rfl | exact (hother ‹_ :: _ = _ :: _› (by decide)).elim

variable {items : List Json} {members : List (String × Json)}
  {readMembers : List (Option String × Json)} {item : Json} {name : String}
  {steps : Nat} {cs more rest : List Char}

/-! Each step of the readers of items and members, for what is behind the value that it reads. -/

theorem items?_last (h : value? steps cs = some (item, ']' :: rest)) :
    items? (steps + 1) cs = some ([item], rest) := by
  rw [items?, h]
  rfl

theorem items?_cons (h : value? steps cs = some (item, ',' :: more))
    (hmore : items? steps more = some (items, rest)) :
    items? (steps + 1) cs = some (item :: items, rest) := by
  rw [items?, h]
  show ((items? steps more).bind fun r ↦ some (item :: r.1, r.2)) = _
  rw [hmore, Option.bind_some]

/-- A written name with a value behind it. -/
theorem members?_quote : members? (steps + 1) (quote name ++ ':' :: cs) =
    (value? steps cs).bind fun r ↦ match skipBlanks r.2 with
      | ',' :: cs => (members? steps cs).bind fun more ↦ some ((some name, r.1) :: more.1, more.2)
      | '\x7d' :: cs => some ([(some name, r.1)], cs)
      | _ => none := by
  rw [quote, List.cons_append, List.cons_append, List.append_assoc, members?,
    skipBlanks_cons (by decide)]
  show ((string? (name.toList.flatMap escape ++ '"' :: ':' :: cs)).bind fun r ↦ _) = _
  rw [string?_written]
  rfl

theorem members?_last (h : value? steps cs = some (item, '\x7d' :: rest)) :
    members? (steps + 1) (quote name ++ ':' :: cs) = some ([(some name, item)], rest) := by
  rw [members?_quote, h]
  rfl

theorem members?_cons (h : value? steps cs = some (item, ',' :: more))
    (hmore : members? steps more = some (readMembers, rest)) :
    members? (steps + 1) (quote name ++ ':' :: cs) =
      some ((some name, item) :: readMembers, rest) := by
  rw [members?_quote, h]
  show ((members? steps more).bind fun r ↦ some ((some name, item) :: r.1, r.2)) = _
  rw [hmore, Option.bind_some]

/-- **The items of a list** are read back if each of them is. -/
theorem items?_written (hne : items ≠ []) (hitems : ∀ item ∈ items, ReadBack item)
    (hsteps : (itemList items).length < steps) :
    items? steps (itemList items ++ ']' :: rest) = some (items, rest) := by
  induction items generalizing steps with
  | nil => exact absurd rfl hne
  | cons item items ih =>
    obtain ⟨steps, rfl⟩ := Nat.exists_eq_add_one_of_ne_zero (Nat.ne_zero_of_lt hsteps)
    have hitem := hitems item List.mem_cons_self steps
    cases items with
    | nil => 
      rw [itemList] at hsteps ⊢
      exact items?_last (hitem _ (by omega) (by simp [Ends]))
    | cons next items =>
      have hmore := @ih steps (by simp) fun j hj ↦ hitems j (List.mem_cons_of_mem _ hj)
      rw [itemList.eq_3 _ _ (by simp), List.length_append, List.length_cons] at hsteps
      rw [itemList.eq_3 _ _ (by simp), List.append_assoc]
      exact items?_cons (hitem _ (by omega) (by simp [Ends])) (hmore (by omega))

/-- **The members of an object** are read back if the value of each is. -/
theorem members?_written (hne : members ≠ []) (hmembers : ∀ m ∈ members, ReadBack m.2)
    (hsteps : (memberList members).length < steps) :
    members? steps (memberList members ++ '\x7d' :: rest) =
      some (members.map fun m ↦ (some m.1, m.2), rest) := by
  induction members generalizing steps with
  | nil => exact absurd rfl hne
  | cons m members ih =>
    obtain ⟨name, j⟩ := m
    obtain ⟨steps, rfl⟩ := Nat.exists_eq_add_one_of_ne_zero (Nat.ne_zero_of_lt hsteps)
    have hj : ReadBack j := hmembers (name, j) List.mem_cons_self
    cases members with
    | nil =>
      rw [memberList, List.length_append, List.length_cons] at hsteps
      rw [memberList, List.append_assoc, List.cons_append]
      exact members?_last (hj _ _ (by omega) (by simp [Ends]))
    | cons next members =>
      have hmore := @ih steps (by simp) fun m hm ↦ hmembers m (List.mem_cons_of_mem _ hm)
      rw [memberList.eq_3 _ _ _ (by simp), List.length_append, List.length_append,
        List.length_cons, List.length_cons] at hsteps
      rw [memberList.eq_3 _ _ _ (by simp), List.append_assoc, List.append_assoc, List.cons_append]
      exact members?_cons (hj _ _ (by omega) (by simp [Ends])) (hmore (by omega))

/-- The object with readable names. -/
theorem objectOf_map_some (members : List (String × Json)) :
    objectOf (members.map fun m ↦ (some m.1, m.2)) = .object members := by
  have hnames : (members.map fun m ↦ (some m.1, m.2)).mapM
      (fun m : Option String × Json ↦ m.1.map fun name ↦ (name, m.2)) = some members := by
    induction members with
    | nil => rfl
    | cons m members ih =>
      rw [List.map_cons, List.mapM_cons, ih]
      rfl
  rw [objectOf, hnames]

/-- A value with a text takes one step at the least. -/
theorem readBack_of_succ {j : Json} (hne : value j ≠ [])
    (h : ∀ steps rest, (value j).length ≤ steps + 1 → Ends rest →
      value? (steps + 1) (value j ++ rest) = some (j, rest)) : ReadBack j := by
  intro steps rest hsteps
  cases steps with
  | zero => exact absurd (List.length_eq_zero_iff.1 (Nat.le_zero.1 hsteps)) hne
  | succ steps => exact h steps rest hsteps

theorem readBack_bool (b : Bool) : ReadBack (.bool b) := by
  cases b <;> exact readBack_of_succ (List.cons_ne_nil _ _) fun _ _ _ _ ↦ rfl

theorem readBack_int {n : Int} (hn : n.natAbs < UInt64.size) : ReadBack (.int n) := by
  obtain ⟨c, cs, hdigits, hc⟩ := exists_integerDigits n
  have hvalue : value (.int n) = c :: cs := hdigits
  refine readBack_of_succ (hvalue ▸ List.cons_ne_nil c cs) fun steps rest _ hrest ↦ ?_
  have hnumber := number?_written hn hrest
  rw [hdigits] at hnumber
  rw [hvalue, ← hnumber]
  exact value?_of_isDigit hc

theorem readBack_string (s : String) : ReadBack (.string s) := by
  refine readBack_of_succ (List.cons_ne_nil _ _) fun steps rest _ _ ↦ ?_
  rw [value, quote, List.cons_append, List.cons_append, List.append_assoc, value?,
    skipBlanks_cons (by decide)]
  show ((string? (s.toList.flatMap escape ++ '"' :: rest)).map fun r ↦ _) = _
  rw [string?_written]
  rfl

/-- A list that is not empty. -/
theorem value?_bracket {c : Char} (hc : Opens c) : value? (steps + 1) ('[' :: c :: cs) =
    (items? steps (c :: cs)).map fun r ↦ (.array r.1, r.2) := by
  have hbracket : skipBlanks ('[' :: c :: cs) = '[' :: c :: cs := rfl
  have hclose : c ≠ ']' := fun h ↦ absurd (h ▸ hc) (by decide)
  rw [value?, hbracket]
  simp [skipBlanks_cons hc, hclose]

/-- An object that is not empty. -/
theorem value?_brace : value? (steps + 1) ('\x7b' :: '"' :: cs) =
    (members? steps ('"' :: cs)).map fun r ↦ (objectOf r.1, r.2) := rfl

theorem exists_itemList (h : Plain item) :
    ∃ c cs, itemList (item :: items) = c :: cs ∧ Opens c := by
  obtain ⟨c, cs, hvalue, hc⟩ := exists_value h
  cases items with
  | nil => exact ⟨c, cs, hvalue, hc⟩
  | cons next items =>
    refine ⟨c, cs ++ ',' :: itemList (next :: items), ?_, hc⟩
    rw [itemList.eq_3 _ _ (by simp), hvalue]
    rfl

theorem exists_memberList (m : String × Json) (members : List (String × Json)) :
    ∃ cs, memberList (m :: members) = '"' :: cs := by
  cases members with
  | nil => exact ⟨_, rfl⟩
  | cons next members =>
    rw [memberList.eq_3 _ _ _ (by simp)]
    exact ⟨_, rfl⟩

theorem readBack_array (hitems : ∀ item ∈ items, Plain item)
    (hread : ∀ item ∈ items, ReadBack item) : ReadBack (.array items) := by
  refine readBack_of_succ (List.cons_ne_nil _ _) fun steps rest hsteps _ ↦ ?_
  rw [value, List.cons_append, List.length_cons, List.length_append, List.length_singleton]
    at hsteps
  rw [value, List.cons_append, List.cons_append, List.append_assoc]
  cases items with
  | nil => rfl
  | cons item items =>
    have hlist := @items?_written _ steps rest (List.cons_ne_nil item items) hread (by omega)
    obtain ⟨c, cs, hcs, hc⟩ := @exists_itemList items item (hitems item List.mem_cons_self)
    rw [hcs, List.cons_append] at hlist ⊢
    rw [value?_bracket hc, List.singleton_append, hlist]
    rfl

theorem readBack_object (hread : ∀ m ∈ members, ReadBack m.2) : ReadBack (.object members) := by
  refine readBack_of_succ (List.cons_ne_nil _ _) fun steps rest hsteps _ ↦ ?_
  rw [value, List.cons_append, List.length_cons, List.length_append, List.length_singleton]
    at hsteps
  rw [value, List.cons_append, List.cons_append, List.append_assoc]
  cases members with
  | nil => rfl
  | cons m members =>
    have hlist := @members?_written _ steps rest (List.cons_ne_nil m members) hread (by omega)
    obtain ⟨cs, hcs⟩ := exists_memberList m members
    rw [hcs, List.cons_append] at hlist ⊢
    rw [value?_brace, List.singleton_append, hlist, Option.map_some, objectOf_map_some]

/-- **A plain value** is read back from its text, whatever may stand behind it. -/
theorem readBack_of_plain {j : Json} (h : Plain j) : ReadBack j := by
  induction h with
  | null => exact readBack_of_succ (List.cons_ne_nil _ _) fun _ _ _ _ ↦ rfl
  | bool b => exact readBack_bool b
  | int hn => exact readBack_int hn
  | string s => exact readBack_string s
  | array h ih => exact readBack_array h ih
  | object _ ih => exact readBack_object ih

end Reader

/-- **A plain value** is read back from the document that is written for it. -/
theorem parse?_render {j : Json} (h : Plain j) : parse? (render j) = some j := by
  have hread := Reader.readBack_of_plain h (2 * (Writer.value j).length + 2) [] (by omega)
    (by simp [Reader.Ends])
  rw [List.append_nil] at hread
  rw [parse?, render, String.toList_ofList, hread]
  rfl

end SignalBox.Json
