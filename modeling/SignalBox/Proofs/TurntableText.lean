import SignalBox.Command.Turntable
import SignalBox.Proofs.SignedNumerals

/-!
# The text of turntable commands

A command to the turntable is a sign, the digits of the track and an end mark, of which the sign and
the mark may be left out (`TurntableCommand.IsText`). The main statement
(`TurntableCommand.ofText?_exact`) is that these texts are read and no others, and what is made of
them.

The text may also be read from its bytes in UTF-8 (`TurntableCommand.ofBytes`): the first of them is
cut off if it is a sign, and each of the others is compared with those of the digits. The same
statement says that this comes to the same, whatever characters there are.

* **No character is split.** The first byte is only cut off where it is a sign, which is the whole
  of its character (`fromByte_cons`).
* **No byte is taken for a digit** that is a part of another character, since such bytes all have
  their highest bit set (`all_isDigitByte_utf8EncodeChar`).
-/

namespace SignalBox

open Decimal

/-! ### Bytes of a text -/

/-- A byte offset that lies inside a character of a text or behind its end. -/
structure SplitCharacter where
  text : String
  offset : Nat
  deriving DecidableEq

/-- The text from a byte offset on. No character may be split there. -/
def fromByte (text : String) (offset : Nat) : Except SplitCharacter String :=
  if h : (String.Pos.Raw.mk offset).IsValid text then .ok (text.sliceFrom ⟨⟨offset⟩, h⟩).copy
  else .error ⟨text, offset⟩

/-- Whether a byte is that of a digit. -/
def isDigitByte (b : UInt8) : Bool :=
  0x30 ≤ b && b ≤ 0x39

/-- Whether all bytes of a text are those of digits. -/
def hasDigitBytes (text : String) : Bool :=
  text.toByteArray.data.all isDigitByte

/-- **A character of one byte** is cut off as a whole. -/
theorem fromByte_cons {c : Char} (hc : c.utf8Size = 1) (cs : List Char) :
    fromByte (String.ofList (c :: cs)) 1 = .ok (String.ofList cs) := by
  have hend : String.Pos.Raw.mk 1 = (String.singleton c).rawEndPos := by
    rw [String.Pos.Raw.ext_iff, String.byteIdx_rawEndPos, String.utf8ByteSize_singleton, hc]
  have hvalid : (String.Pos.Raw.mk 1).IsValid (String.ofList (c :: cs)) :=
    String.Pos.Raw.isValid_iff_exists_append.2 ⟨_, _, String.ofList_cons, hend⟩
  rw [fromByte, dif_pos hvalid]
  exact congrArg Except.ok (String.Pos.Splits.copy_sliceFrom_eq ⟨String.ofList_cons, hend⟩)

-- a wider character would be split
example : fromByte "é1" 1 = .error ⟨"é1", 1⟩ := by decide +kernel

theorem isDigitByte_iff {b : UInt8} : isDigitByte b = true ↔ 48 ≤ b.toNat ∧ b.toNat ≤ 57 := by
  simp [isDigitByte, UInt8.le_iff_toNat_le]

theorem not_all_isDigitByte {n : Nat} (hlow : 57 < n) (hhigh : n < 256) (rest : List UInt8) :
    ¬ (UInt8.ofNat n :: rest).all isDigitByte = true := by
  rw [List.all_cons, Bool.and_eq_true, isDigitByte_iff, UInt8.toNat_ofNat']
  omega

/-- **The bytes of a character** are those of digits only if it is a digit. -/
theorem all_isDigitByte_utf8EncodeChar (c : Char) :
    (String.utf8EncodeChar c).all isDigitByte = c.isDigit := by
  rw [Bool.eq_iff_iff, isDigit_iff, ← Char.toNat_val, String.utf8EncodeChar.eq_def]
  dsimp only
  split_ifs with hone htwo hthree
  · rw [List.all_cons, List.all_nil, Bool.and_true, isDigitByte_iff, UInt8.toNat_ofNat']
    omega
  -- the first of several bytes has its highest bit set
  · exact iff_of_false (not_all_isDigitByte (by omega) (by omega) _) (by omega)
  · exact iff_of_false (not_all_isDigitByte (by omega) (by omega) _) (by omega)
  · exact iff_of_false (not_all_isDigitByte (by omega) (by omega) _) (by omega)

theorem hasDigitBytes_eq (text : String) : hasDigitBytes text = text.toList.all Char.isDigit := by
  rw [hasDigitBytes, ← String.ofList_toList (s := text), String.toByteArray_ofList,
    String.toList_ofList]
  simp [List.utf8Encode, List.data_toByteArray, all_isDigitByte_utf8EncodeChar]

namespace TurntableCommand

variable {sign mark : Option Char} {digits body text : List Char} {command : TurntableCommand}

/-! ### The end mark -/

/-- A text is its body and an end mark, if there is one. -/
theorem exists_mark (text : List Char) :
    ∃ mark : Option Char, text = withoutMark text ++ mark.toList ∧ ∀ c ∈ mark, c = '#' := by
  rw [withoutMark]
  split
  next hlast =>
    obtain ⟨body, rfl⟩ := List.getLast?_eq_some_iff.1 hlast
    exact ⟨some '#', by rw [List.dropLast_concat, Option.toList_some], by simp⟩
  next => exact ⟨none, (List.append_nil text).symm, by simp⟩

theorem withoutMark_append (hbody : body.getLast? ≠ some '#') (hmark : ∀ c ∈ mark, c = '#') :
    withoutMark (body ++ mark.toList) = body := by
  cases mark with
  | none => rw [Option.toList_none, List.append_nil, withoutMark, if_neg hbody]
  | some c =>
    obtain rfl := hmark c rfl
    rw [Option.toList_some, withoutMark, List.getLast?_concat, if_pos rfl, List.dropLast_concat]

/-! ### Commands -/

theorem ofDigits?_eq_some_iff {direction : Position} :
    ofDigits? direction digits = some command ↔
      IsRun digits ∧ command = { track := numeral digits, direction } := by
  rw [ofDigits?]
  simp only [Option.ite_none_right_eq_some, Bool.and_eq_true, Bool.not_eq_true',
    List.isEmpty_eq_false_iff, List.all_eq_true, Option.some.injEq]
  constructor
  · rintro ⟨⟨hne, hdigits⟩, rfl⟩
    exact ⟨⟨hne, hdigits⟩, by rw [word_eq_numeral hdigits]⟩
  · rintro ⟨hrun, rfl⟩
    exact ⟨⟨hrun.ne_nil, hrun.isDigit⟩, by rw [word_eq_numeral hrun.isDigit]⟩

/-- The way to turn that a sign, if there is one, asks for. -/
def directionOf (sign : Option Char) : Position :=
  if sign = some '-' then .diverging else .straight

theorem ofBody?_eq (body : List Char) :
    ofBody? body = ofDigits? (directionOf (splitSign body).1) (splitSign body).2 := by
  fun_cases splitSign body with
  | case1 cs => rfl
  | case2 cs => rfl
  | case3 _ hplus hminus =>
    rw [ofBody?.eq_3 _ hplus hminus]
    rfl

/-- What the text of a command consists of: a sign, which may be left out, the digits of the track,
and an end mark, which may be left out. -/
structure IsText (sign : Option Char) (digits : List Char) (mark : Option Char)
    (text : List Char) : Prop where
  text_eq : text = sign.toList ++ digits ++ mark.toList
  isSign : ∀ c ∈ sign, c = '+' ∨ c = '-'
  isRun : IsRun digits
  isMark : ∀ c ∈ mark, c = '#'

/-- The command that such a text is read as. -/
def ofParts (sign : Option Char) (digits : List Char) : TurntableCommand :=
  { track := numeral digits, direction := directionOf sign }

theorem ofBody?_eq_some_iff :
    ofBody? body = some command ↔
      ∃ sign digits, IsSigned sign digits body ∧ command = ofParts sign digits := by
  rw [ofBody?_eq, ofDigits?_eq_some_iff]
  simp only [isSigned_iff]
  constructor
  · rintro ⟨hrun, rfl⟩
    exact ⟨_, _, ⟨rfl, hrun⟩, rfl⟩
  · rintro ⟨sign, digits, ⟨hsplit, hrun⟩, rfl⟩
    rw [hsplit]
    exact ⟨hrun, rfl⟩

/-- **Texts of commands are read**, and no others. -/
theorem ofText?_eq_some_iff :
    ofText? text = some command ↔
      ∃ sign digits mark, IsText sign digits mark text ∧ command = ofParts sign digits := by
  rw [ofText?, ofBody?_eq_some_iff]
  constructor
  · rintro ⟨sign, digits, ⟨hbody, hsign, hrun⟩, rfl⟩
    obtain ⟨mark, htext, hmark⟩ := exists_mark text
    exact ⟨sign, digits, mark, ⟨hbody ▸ htext, hsign, hrun, hmark⟩, rfl⟩
  · rintro ⟨sign, digits, mark, ⟨rfl, hsign, hrun, hmark⟩, rfl⟩
    refine ⟨sign, digits, ?_, rfl⟩
    have hlast : (sign.toList ++ digits).getLast? ≠ some '#' := by
      intro h
      rcases List.mem_append.1 (List.mem_of_getLast? h) with hmem | hmem
      · exact absurd (hsign '#' (Option.mem_toList.1 hmem)) (by decide)
      · exact absurd (hrun.isDigit '#' hmem) (by decide)
    rw [withoutMark_append hlast hmark]
    exact ⟨rfl, hsign, hrun⟩

/-! ### Reading bytes -/

/-- The command for a track typed as digits, which are looked at byte by byte. -/
def ofDigitBytes? (direction : Position) (digits : String) : Option TurntableCommand :=
  if digits.isEmpty || !hasDigitBytes digits then none
  else some { track := word digits.toList, direction }

/-- Reads a command from the bytes of its text: a sign is cut off behind the first byte. -/
def ofBytes (text : String) : Except SplitCharacter (Option TurntableCommand) :=
  let body := String.ofList (withoutMark text.toList)
  match body.toList.head? with
  | none => .ok none
  | some first =>
    if first = '+' ∨ first = '-' then (fromByte body 1).map (ofDigitBytes? (.ofSign first))
    else .ok (ofDigitBytes? .straight body)

theorem ofDigitBytes?_eq (direction : Position) (digits : List Char) :
    ofDigitBytes? direction (String.ofList digits) = ofDigits? direction digits := by
  have hempty : (String.ofList digits).isEmpty = digits.isEmpty := by
    rw [Bool.eq_iff_iff, String.isEmpty_iff, List.isEmpty_iff, ← String.toList_eq_nil_iff,
      String.toList_ofList]
  rw [ofDigitBytes?, ofDigits?, hempty, hasDigitBytes_eq, String.toList_ofList]
  cases digits.isEmpty <;> cases digits.all Char.isDigit <;> rfl

/-- **Bytes and characters** are read alike, and no character is split. -/
theorem ofBytes_eq (text : String) : ofBytes text = .ok (ofText? text.toList) := by
  rw [ofBytes, ofText?]
  cases withoutMark text.toList with
  | nil => rfl
  | cons first rest =>
    simp only [String.toList_ofList, List.head?_cons]
    by_cases hsign : first = '+' ∨ first = '-'
    · have hsize : first.utf8Size = 1 := by rcases hsign with rfl | rfl <;> rfl
      rw [if_pos hsign, fromByte_cons hsize, Except.map, ofDigitBytes?_eq]
      rcases hsign with rfl | rfl <;> rfl
    · rw [if_neg hsign, ofDigitBytes?_eq, ofBody?.eq_3]
      · rintro cs h
        exact hsign (.inl (List.cons.inj h).1)
      · rintro cs h
        exact hsign (.inr (List.cons.inj h).1)

/-- **The text of a command** is read if and only if it is a sign, which may be left out, one or
more digits, and an end mark, which may be left out. The direction is the other one if the sign is a
minus, and the track is the value of the digits, or 0 if 32 bits do not hold it. Reading the bytes
gives the same, and never splits a character. -/
theorem ofText?_exact (text : String) :
    (∀ command, ofText? text.toList = some command ↔
      ∃ sign digits mark, IsText sign digits mark text.toList ∧
        command = ofParts sign digits) ∧
      ofBytes text = .ok (ofText? text.toList) :=
  ⟨fun _ ↦ ofText?_eq_some_iff, ofBytes_eq text⟩

/-- The first track that 32 bits do not hold is read as 0, from the bytes as well. -/
theorem ofText?_exact_of_overflow :
    IsText (some '-') "4294967296".toList (some '#') "-4294967296#".toList ∧
      ofBytes "-4294967296#" = .ok (some { track := 0, direction := .diverging }) := by
  have htext : IsText (some '-') "4294967296".toList (some '#') "-4294967296#".toList :=
    { text_eq := by decide +kernel
      isSign := by simp
      isRun := ⟨by decide +kernel, List.all_eq_true.1 (by decide +kernel)⟩
      isMark := by simp }
  have hparts : (⟨0, .diverging⟩ : TurntableCommand) = ofParts (some '-') "4294967296".toList := by
    decide +kernel
  obtain ⟨hread, hbytes⟩ := ofText?_exact "-4294967296#"
  rw [(hread _).2 ⟨_, _, _, htext, hparts⟩] at hbytes
  exact ⟨htext, hbytes⟩

end TurntableCommand

end SignalBox
