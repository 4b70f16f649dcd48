import Mathlib.Data.List.DropRight
import SignalBox.Layout.Coordinate
import SignalBox.Proofs.SignedNumerals

/-!
# The text of coordinates

A coordinate is printed as its row and its column with a dot between them. What is read as one is
any text that has two spelled integers of 32 bits before and after its first dot, once the blank
space around it is gone. The main statement (`Coordinate.reads_exact`) is that the two fit: what is
printed is read as the coordinate that it was printed of, in blank space of any kind and length.

* **Trimming** leaves what does not begin or end with a blank and has nothing but blanks around it
  (`Blank.trim_eq_iff`). No part of a coordinate's text is a blank, so all of it stays.
* **The first dot** parts the text (`splitAtDot_eq_some_iff`). A spelled integer has none, so the
  dot that was printed is the one that is found, and a second dot is left to the column, which it
  makes unreadable.
* **The integers** are those of `int32?_eq_some_iff`, from the least to the greatest.
-/

namespace SignalBox

open Decimal

namespace Blank

variable {text trimmed : List Char} {c : Char}

/-! ### Trimming -/

/-- What is left of a text without the blank space around it. -/
structure Trims (text trimmed : List Char) : Prop where
  around : ∃ before after, text = before ++ trimmed ++ after ∧
    (∀ c ∈ before, isBlank c = true) ∧ ∀ c ∈ after, isBlank c = true
  first : ∀ c ∈ trimmed.head?, isBlank c = false
  last : ∀ c ∈ trimmed.getLast?, isBlank c = false

theorem first_dropWhile (text : List Char) :
    ∀ c ∈ (text.dropWhile isBlank).head?, isBlank c = false := by
  intro c hc
  have hfirst := List.head?_dropWhile_not isBlank text
  rwa [hc] at hfirst

theorem dropWhile_of_first (h : ∀ c ∈ text.head?, isBlank c = false) :
    text.dropWhile isBlank = text := by
  cases text with
  | nil => rfl
  | cons c cs => exact List.dropWhile_cons_of_neg (by simp [h c rfl])

/-- **Trimming** takes all the blank space around a text away, and nothing else. -/
theorem trims_trim (text : List Char) : Trims text (trim text) := by
  have hfront : trim text ++ (text.dropWhile isBlank).rtakeWhile isBlank =
      text.dropWhile isBlank := List.rdropWhile_append_rtakeWhile
  refine ⟨⟨text.takeWhile isBlank, (text.dropWhile isBlank).rtakeWhile isBlank, ?_,
    fun c ↦ List.mem_takeWhile_imp, fun c ↦ List.mem_rtakeWhile_imp⟩, ?_, ?_⟩
  · rw [List.append_assoc, hfront, List.takeWhile_append_dropWhile]
  · intro c hc
    refine first_dropWhile text c ?_
    rw [← hfront, List.head?_append, hc, Option.some_or, Option.mem_some]
  · rw [trim, List.getLast?_reverse]
    exact first_dropWhile _

/-- There is only one way to do so. -/
theorem Trims.trim_eq (h : Trims text trimmed) : trim text = trimmed := by
  obtain ⟨before, after, rfl, hbefore, hafter⟩ := h.around
  rw [trim, List.append_assoc, List.dropWhile_append_of_pos hbefore]
  cases trimmed with
  | nil =>
    rw [List.nil_append, List.dropWhile_eq_nil_iff.2 hafter]
    rfl
  | cons c cs =>
    have hfirst : ∀ b ∈ (c :: cs ++ after).head?, isBlank b = false := h.first
    have hlast : ∀ b ∈ (c :: cs).reverse.head?, isBlank b = false := by
      rw [List.head?_reverse]
      exact h.last
    rw [dropWhile_of_first hfirst, List.reverse_append,
      List.dropWhile_append_of_pos (by simpa using hafter), dropWhile_of_first hlast,
      List.reverse_reverse]

theorem trim_eq_iff : trim text = trimmed ↔ Trims text trimmed :=
  ⟨fun h ↦ h ▸ trims_trim text, Trims.trim_eq⟩

theorem isBlank_of_isDigit {c : Char} (h : c.isDigit = true) : isBlank c = false := by
  rw [isDigit_iff] at h
  simp [isBlank, ranges]
  omega

end Blank

namespace Coordinate

variable {text row column : List Char}

/-! ### The two parts -/

/-- **The first dot** parts a text. -/
theorem splitAtDot_eq_some_iff :
    splitAtDot text = some (row, column) ↔ text = row ++ '.' :: column ∧ '.' ∉ row := by
  fun_induction splitAtDot text generalizing row with
  | case1 => simp
  | case2 cs =>
    cases row with
    | nil => simp [eq_comm]
    | cons b row => simp +contextual [eq_comm]
  | case3 c cs hc ih =>
    rw [Option.map_eq_some_iff]
    cases row with
    | nil => simpa using fun h _ ↦ hc h
    | cons b row =>
      constructor
      · rintro ⟨⟨_, _⟩, hsplit, hparts⟩
        obtain ⟨⟨rfl, rfl⟩, rfl⟩ := by simpa using hparts
        obtain ⟨rfl, hrow⟩ := ih.1 hsplit
        exact ⟨rfl, by simpa [hrow] using fun h : '.' = c ↦ hc h.symm⟩
      · rintro ⟨hcs, hrow⟩
        obtain ⟨rfl, rfl⟩ := List.cons.inj hcs
        exact ⟨_, ih.2 ⟨rfl, fun h ↦ hrow (List.mem_cons_of_mem c h)⟩, rfl⟩

/-- What stands in a text, without blank space around it, before and after the first dot. -/
structure HasParts (text row column : List Char) : Prop where
  trims : Blank.Trims text (row ++ '.' :: column)
  no_dot : '.' ∉ row

theorem splitAtDot_trim_eq_some_iff :
    splitAtDot (Blank.trim text) = some (row, column) ↔ HasParts text row column := by
  rw [splitAtDot_eq_some_iff, Blank.trim_eq_iff]
  exact ⟨fun h ↦ ⟨h.1, h.2⟩, fun h ↦ ⟨h.trims, h.no_dot⟩⟩

/-- **A coordinate is read** if its row and its column are spelled before and after the dot. -/
theorem ofText?_eq_some_iff {c : Coordinate} :
    ofText? text = some c ↔ ∃ row column, HasParts text row column ∧
      Spells row c.row.toInt ∧ Spells column c.column.toInt := by
  obtain ⟨r, k⟩ := c
  simp only [ofText?, Option.bind_eq_bind, Option.bind_eq_some_iff, int32?_eq_some_iff,
    Option.pure_def, Option.some.injEq, Coordinate.mk.injEq, Prod.exists,
    splitAtDot_trim_eq_some_iff]
  refine exists_congr fun row ↦ exists_congr fun column ↦ and_congr_right fun _ ↦ ?_
  constructor
  · rintro ⟨_, hrow, _, hcolumn, rfl, rfl⟩
    exact ⟨hrow, hcolumn⟩
  · rintro ⟨hrow, hcolumn⟩
    exact ⟨_, hrow, _, hcolumn, rfl, rfl⟩

/-! ### What is printed -/

/-- No part of a spelled integer is a blank or a dot. -/
theorem of_mem_spelled {i : Int} {ch : Char} (h : Spells text i) (hch : ch ∈ text) :
    Blank.isBlank ch = false ∧ ch ≠ '.' := by
  rcases h.of_mem hch with hdigit | rfl | rfl
  · exact ⟨Blank.isBlank_of_isDigit hdigit, fun h ↦ by rw [h] at hdigit; cases hdigit⟩
  · decide
  · decide

theorem hasParts_of_spells {i j : Int} {before after : List Char} (hrow : Spells row i)
    (hcolumn : Spells column j) (hbefore : ∀ ch ∈ before, Blank.isBlank ch = true)
    (hafter : ∀ ch ∈ after, Blank.isBlank ch = true) :
    HasParts (before ++ (row ++ '.' :: column) ++ after) row column := by
  have hmem : ∀ ch ∈ row ++ '.' :: column, Blank.isBlank ch = false := by
    intro ch hch
    rcases List.mem_append.1 hch with hch | hch
    · exact (of_mem_spelled hrow hch).1
    · rcases List.mem_cons.1 hch with rfl | hch
      · decide
      · exact (of_mem_spelled hcolumn hch).1
  exact ⟨⟨⟨before, after, rfl, hbefore, hafter⟩, fun ch h ↦ hmem ch (List.mem_of_mem_head? h),
    fun ch h ↦ hmem ch (List.mem_of_getLast? h)⟩, fun h ↦ (of_mem_spelled hrow h).2 rfl⟩

/-- **What is printed is read**, in blank space too. -/
theorem ofText?_surrounded (c : Coordinate) {before after : List Char}
    (hbefore : ∀ ch ∈ before, Blank.isBlank ch = true)
    (hafter : ∀ ch ∈ after, Blank.isBlank ch = true) :
    ofText? (before ++ c.symbols ++ after) = some c :=
  ofText?_eq_some_iff.2 ⟨_, _, hasParts_of_spells (spells_integerDigits _) (spells_integerDigits _)
    hbefore hafter, spells_integerDigits _, spells_integerDigits _⟩

/-- **The text of coordinates.** What is printed of a coordinate is read as it, with any blank space
before and after. Any text is read if and only if, without the blank space around it, it has a dot,
and a sign that may be left out and digits with a value of 32 bits stand before the first dot and
behind it. The two values are the row and the column. -/
theorem reads_exact :
    (∀ (c : Coordinate) (before after : String),
      (∀ ch ∈ before.toList ++ after.toList, Blank.isBlank ch = true) →
      ofText? (before ++ c.text ++ after).toList = some c) ∧
    ∀ text : String,
      ((∃ c, ofText? text.toList = some c) ↔
        ∃ row column, HasParts text.toList row column ∧ FitsInt32 row ∧ FitsInt32 column) ∧
      ∀ c, ofText? text.toList = some c ↔ ∃ row column, HasParts text.toList row column ∧
        Spells row c.row.toInt ∧ Spells column c.column.toInt := by
  refine ⟨fun c before after hblank ↦ ?_, fun text ↦ ⟨?_, fun c ↦ ofText?_eq_some_iff⟩⟩
  · rw [String.toList_append, String.toList_append, text, String.toList_ofList]
    exact ofText?_surrounded c (fun ch h ↦ hblank ch (List.mem_append_left _ h))
      fun ch h ↦ hblank ch (List.mem_append_right _ h)
  · simp only [ofText?_eq_some_iff, fitsInt32_iff]
    constructor
    · rintro ⟨c, row, column, hparts, hrow, hcolumn⟩
      exact ⟨row, column, hparts, ⟨_, hrow⟩, ⟨_, hcolumn⟩⟩
    · rintro ⟨row, column, hparts, ⟨r, hrow⟩, ⟨k, hcolumn⟩⟩
      exact ⟨⟨r, k⟩, row, column, hparts, hrow, hcolumn⟩

/-- The least and the greatest number of 32 bits are read behind an ideographic space and in front
of a line feed. -/
theorem reads_exact_of_extremes :
    (∀ ch ∈ "\u3000".toList ++ "\n".toList, Blank.isBlank ch = true) ∧
      ofText? "\u3000-2147483648.2147483647\n".toList =
        some { row := Int32.minValue, column := Int32.maxValue } := by
  have hblank : ∀ ch ∈ "\u3000".toList ++ "\n".toList, Blank.isBlank ch = true :=
    List.all_eq_true.1 (by decide +kernel)
  have htext : text { row := Int32.minValue, column := Int32.maxValue } =
      "-2147483648.2147483647" := by decide +kernel
  have hread := reads_exact.1 { row := Int32.minValue, column := Int32.maxValue } _ _ hblank
  rw [htext] at hread
  exact ⟨hblank, hread⟩

end Coordinate

end SignalBox
