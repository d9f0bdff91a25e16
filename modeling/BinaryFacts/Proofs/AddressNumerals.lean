import BinaryFacts.CommandLine.Commands
import BinaryFacts.Proofs.Numerals
import BinaryFacts.Proofs.TrimmedText
import Mathlib.Data.List.Forall2
import Mathlib.Data.Nat.Digits.Defs
import Mathlib.Tactic.Ring

/-!
# Addresses as they are written

The texts that are read as an address are the numerals of its number: decimal digits, or hexadecimal
ones behind their marker, with or without a plus sign, and with blanks around them. All others are
errors, those whose number has more than 64 bits among them.
-/

namespace BinaryFacts.Text

/-! ### Digits -/

/-- Whether one or more digits, the highest first, spell a number. -/
def Spells (radix : Nat) (chars : List Char) (number : Nat) : Prop :=
  ∃ digits, digits ≠ [] ∧ List.Forall₂ (IsDigit radix) chars digits ∧
    Nat.ofDigits radix digits.reverse = number

/-- Digits are neither blanks nor any of the signs and markers of numerals. -/
lemma IsDigit.plain {radix digit : Nat} {c : Char} (hradix : radix ≤ 16)
    (h : IsDigit radix c digit) : isBlank c = false ∧ c ∉ ['+', 'x', 'X'] :=
  h.of_sixteen (P := fun _ c => isBlank c = false ∧ c ∉ ['+', 'x', 'X']) (by decide) hradix

/-- Reading digits behind a number gives the number that they continue it to. -/
lemma digitsFrom?_eq_some_iff {radix : Nat} (hradix : radix ≤ 16) {high number : Nat}
    {chars : List Char} :
    digitsFrom? radix high chars = some number ↔ ∃ digits,
      List.Forall₂ (IsDigit radix) chars digits ∧
        high * radix ^ digits.length + Nat.ofDigits radix digits.reverse = number := by
  induction chars generalizing high with
  | nil =>
    constructor
    · intro h
      refine ⟨[], .nil, ?_⟩
      simpa [digitsFrom?] using h
    · rintro ⟨digits, hdigits, rfl⟩
      cases hdigits
      simp [digitsFrom?]
  | cons c rest ih =>
    rw [digitsFrom?, Option.bind_eq_bind, Option.bind_eq_some_iff]
    simp only [digitOf?_eq_some_iff hradix, ih]
    constructor
    · rintro ⟨digit, hc, digits, hrest, rfl⟩
      refine ⟨digit :: digits, .cons hc hrest, ?_⟩
      rw [List.reverse_cons, Nat.ofDigits_append, Nat.ofDigits_singleton, List.length_reverse,
        List.length_cons]
      ring
    · rintro ⟨_, hdigits, rfl⟩
      obtain _ | ⟨hc, hrest⟩ := hdigits
      refine ⟨_, hc, _, hrest, ?_⟩
      rw [List.reverse_cons, Nat.ofDigits_append, Nat.ofDigits_singleton, List.length_reverse,
        List.length_cons]
      ring

lemma digits?_eq_some_iff {radix : Nat} (hradix : radix ≤ 16) {number : Nat} {chars : List Char} :
    digits? radix chars = some number ↔ Spells radix chars number := by
  cases chars with
  | nil =>
    refine iff_of_false nofun ?_
    rintro ⟨digits, hne, hdigits, -⟩
    exact hne (List.forall₂_nil_left_iff.mp hdigits)
  | cons c rest =>
    rw [digits?, digitsFrom?_eq_some_iff hradix]
    · simp only [Nat.zero_mul, Nat.zero_add]
      refine exists_congr fun digits => (and_iff_right_of_imp ?_).symm
      rintro ⟨hdigits, -⟩ rfl
      cases hdigits
    · exact List.cons_ne_nil c rest

lemma Spells.mem {radix number : Nat} {chars : List Char} (h : Spells radix chars number) :
    ∀ c ∈ chars, ∃ digit, IsDigit radix c digit := by
  obtain ⟨digits, -, hdigits, -⟩ := h
  induction hdigits with
  | nil => exact fun c hc => absurd hc List.not_mem_nil
  | cons hc _ ih =>
    intro other hother
    rcases List.mem_cons.mp hother with rfl | hrest
    · exact ⟨_, hc⟩
    · exact ih other hrest

/-- The digits of a number spell it. -/
lemma spells_toDigits {radix : Nat} (hradix : 1 < radix) (hmax : radix ≤ 16) (number : Nat) :
    Spells radix (Nat.toDigits radix number) number := by
  rw [← digits?_eq_some_iff hmax, digits?, digitsFrom?_toDigits hradix hmax]
  exact Nat.toDigits_ne_nil

/-- The case of digits makes no difference. -/
lemma Spells.upper {radix number : Nat} {chars : List Char} (hradix : radix ≤ 16)
    (h : Spells radix chars number) : Spells radix (chars.flatMap upperChar) number := by
  obtain ⟨digits, hne, hdigits, hnumber⟩ := h
  refine ⟨digits, hne, ?_, hnumber⟩
  clear hne hnumber
  induction hdigits with
  | nil => exact .nil
  | @cons c digit rest digits hc _ ih =>
    have hupper := hc.of_sixteen
      (P := fun digit c => upperChar c = [digit.digitChar.toUpper]) (by decide) hradix
    rw [List.flatMap_cons, hupper]
    exact .cons ⟨hc.1, .inr rfl⟩ ih

/-! ### Words -/

/-- Whether a word is written: one or more digits, with a plus sign in front or without. -/
def SpellsWord (radix : Nat) (chars : List Char) (word : UInt64) : Prop :=
  ∃ sign digits, chars = sign ++ digits ∧ (sign = [] ∨ sign = ['+']) ∧
    Spells radix digits word.toNat

lemma SpellsWord.mem {radix : Nat} {chars : List Char} {word : UInt64}
    (h : SpellsWord radix chars word) :
    ∀ c ∈ chars, c = '+' ∨ ∃ digit, IsDigit radix c digit := by
  obtain ⟨sign, digits, rfl, hsign, hdigits⟩ := h
  intro c hc
  rcases List.mem_append.mp hc with hc | hc
  · rcases hsign with rfl | rfl
    · exact absurd hc List.not_mem_nil
    · exact .inl (List.mem_singleton.mp hc)
  · exact .inr (hdigits.mem c hc)

/-- A number is a word if it fits in 64 bits. -/
lemma bind_digits?_eq_some_iff {radix : Nat} {chars : List Char} {word : UInt64} :
    ((digits? radix chars).bind fun number =>
        if number < UInt64.size then some (UInt64.ofNat number) else none) = some word ↔
      digits? radix chars = some word.toNat := by
  rw [Option.bind_eq_some_iff]
  constructor
  · rintro ⟨number, hnumber, hword⟩
    split at hword
    · next hlt => rw [← Option.some.inj hword, UInt64.toNat_ofNat_of_lt' hlt, hnumber]
    · cases hword
  · intro hnumber
    exact ⟨_, hnumber, by rw [if_pos word.toNat_lt, UInt64.ofNat_toNat]⟩

lemma word?_eq_some_iff {radix : Nat} (hradix : radix ≤ 16) {chars : List Char} {word : UInt64} :
    word? radix chars = some word ↔ SpellsWord radix chars word := by
  unfold word?
  rw [Option.bind_eq_bind, bind_digits?_eq_some_iff, digits?_eq_some_iff hradix]
  split
  · next rest =>
    constructor
    · exact fun hspells => ⟨['+'], rest, rfl, .inr rfl, hspells⟩
    · rintro ⟨sign, digits, hchars, rfl | rfl, hspells⟩
      · subst hchars
        obtain ⟨digit, hplus⟩ := hspells.mem '+' List.mem_cons_self
        exact absurd List.mem_cons_self (hplus.plain hradix).2
      · obtain rfl : rest = digits := List.tail_eq_of_cons_eq hchars
        exact hspells
  · next hunsigned =>
    constructor
    · exact fun hspells => ⟨[], chars, rfl, .inl rfl, hspells⟩
    · rintro ⟨sign, digits, rfl, rfl | rfl, hspells⟩
      · exact hspells
      · exact absurd rfl (hunsigned digits)

end BinaryFacts.Text

namespace BinaryFacts

open Text

/-! ### Addresses -/

/-- What stands in front of a numeral and tells its radix. -/
inductive RadixMarker : List Char → Nat → Prop where
  | decimal : RadixMarker [] 10
  | hexadecimal {c : Char} (hc : c ∈ ['x', 'X']) : RadixMarker ['0', c] 16

/-- Whether a text writes an address: a numeral of its number, between blanks. -/
def WritesAddress (text : String) (address : UInt64) : Prop :=
  ∃ before marker number after radix,
    text.toList = before ++ (marker ++ number) ++ after ∧ AllBlank before ∧ AllBlank after ∧
      RadixMarker marker radix ∧ SpellsWord radix number address

lemma RadixMarker.radix_le {marker : List Char} {radix : Nat} (h : RadixMarker marker radix) :
    radix ≤ 16 := by
  cases h <;> decide

lemma RadixMarker.trimmed {marker number : List Char} {radix : Nat} {address : UInt64}
    (hmarker : RadixMarker marker radix) (hnumber : SpellsWord radix number address) :
    Trimmed (marker ++ number) := by
  refine BlankFree.trimmed fun c hc => ?_
  rcases List.mem_append.mp hc with hc | hc
  · cases hmarker with
    | decimal => exact absurd hc List.not_mem_nil
    | @hexadecimal letter hletter =>
      have hletter : letter = 'x' ∨ letter = 'X' := by simpa using hletter
      have hfree : BlankFree ['0', letter] := by rcases hletter with rfl | rfl <;> decide
      exact hfree c hc
  · rcases hnumber.mem c hc with rfl | ⟨digit, hdigit⟩
    · rfl
    · exact (hdigit.plain hmarker.radix_le).1

lemma writesAddress_iff_trimChars {text : String} {address : UInt64} :
    WritesAddress text address ↔ ∃ marker number radix,
      trimChars text.toList = marker ++ number ∧ RadixMarker marker radix ∧
        SpellsWord radix number address := by
  simp only [trimChars_eq_iff]
  constructor
  · rintro ⟨before, marker, number, after, radix, htext, hbefore, hafter, hmarker, hnumber⟩
    exact ⟨marker, number, radix,
      ⟨hmarker.trimmed hnumber, before, after, htext, hbefore, hafter⟩, hmarker, hnumber⟩
  · rintro ⟨marker, number, radix, ⟨-, before, after, htext, hbefore, hafter⟩, hmarker, hnumber⟩
    exact ⟨before, marker, number, after, radix, htext, hbefore, hafter, hmarker, hnumber⟩

/-- Behind a marker stand hexadecimal digits: no decimal numeral starts like one. -/
lemma exists_marker_iff {c : Char} (hc : c ∈ ['x', 'X']) {digits : List Char} {address : UInt64} :
    (∃ marker number radix, '0' :: c :: digits = marker ++ number ∧ RadixMarker marker radix ∧
      SpellsWord radix number address) ↔ SpellsWord 16 digits address := by
  constructor
  · rintro ⟨marker, number, radix, hsplit, hmarker, hword⟩
    cases hmarker with
    | decimal =>
      obtain rfl : _ = number := hsplit
      rcases hword.mem c (by simp) with rfl | ⟨digit, hdigit⟩
      · exact absurd hc (by decide)
      · exact absurd (List.mem_cons_of_mem _ hc) (hdigit.plain (by decide)).2
    | hexadecimal hc' =>
      obtain ⟨-, rfl⟩ : _ ∧ digits = number := by simpa using hsplit
      exact hword
  · exact fun hword => ⟨_, digits, 16, rfl, .hexadecimal hc, hword⟩

/-- The addresses that are read are those that are written. -/
lemma parseAddress?_eq_some_iff {text : String} {address : UInt64} :
    parseAddress? text = some address ↔ WritesAddress text address := by
  rw [writesAddress_iff_trimChars]
  unfold parseAddress?
  split
  · next digits htext => rw [htext, word?_eq_some_iff (by decide), exists_marker_iff (by decide)]
  · next digits htext => rw [htext, word?_eq_some_iff (by decide), exists_marker_iff (by decide)]
  · next hlower hcapital =>
    rw [word?_eq_some_iff (by decide)]
    refine ⟨fun hword => ⟨[], _, _, rfl, .decimal, hword⟩, ?_⟩
    rintro ⟨_, number, _, hsplit, hmarker, hword⟩
    cases hmarker with
    | decimal => rwa [hsplit]
    | @hexadecimal c hc =>
      have hletter : c = 'x' ∨ c = 'X' := by simpa using hc
      rcases hletter with rfl | rfl
      · exact absurd hsplit (hlower number)
      · exact absurd hsplit (hcapital number)

lemma parseAddress_eq_ok_iff {text : String} {address : UInt64} :
    parseAddress text = .ok address ↔ WritesAddress text address := by
  rw [← parseAddress?_eq_some_iff]
  unfold parseAddress
  cases parseAddress? text <;> simp

lemma parseAddress_eq_error_iff {text : String} {error : BinaryError} :
    parseAddress text = .error error ↔
      error = .invalidAddress (Text.trim text) ∧ ∀ address, ¬ WritesAddress text address := by
  simp only [← parseAddress?_eq_some_iff]
  unfold parseAddress
  cases parseAddress? text <;> simp [eq_comm]

/-- A numeral without a sign or blanks is one way to write an address. -/
lemma writesAddress_of_toList {text : String} {marker number : List Char} {radix : Nat}
    {address : UInt64} (htext : text.toList = marker ++ number) (hmarker : RadixMarker marker radix)
    (hnumber : Spells radix number address.toNat) : WritesAddress text address := by
  refine ⟨[], marker, number, [], radix, by simp [htext], ?_, ?_, hmarker, ?_⟩
  · exact fun _ hc => absurd hc List.not_mem_nil
  · exact fun _ hc => absurd hc List.not_mem_nil
  · exact ⟨[], number, rfl, .inl rfl, hnumber⟩

lemma writesAddress_decimal (address : UInt64) : WritesAddress (decimal address.toNat) address :=
  writesAddress_of_toList (toList_decimal _) .decimal
    (spells_toDigits (by decide) (by decide) address.toNat)

lemma writesAddress_hexadecimal {digits : String} {address : UInt64}
    (h : Spells 16 digits.toList address.toNat) : WritesAddress ("0x" ++ digits) address :=
  writesAddress_of_toList (String.toList_append ..) (.hexadecimal (by decide)) h

/-- A text is read as an address just if it writes one, and any other text is shown in an error.
Addresses that were printed are read back. -/
theorem addresses_read_as_written :
    (∀ text address, parseAddress text = .ok address ↔ WritesAddress text address) ∧
    (∀ text error, parseAddress text = .error error ↔
      error = .invalidAddress (trim text) ∧ ∀ address, ¬ WritesAddress text address) ∧
    ∀ address : UInt64,
      parseAddress (decimal address.toNat) = .ok address ∧
      parseAddress ("0x" ++ hexadecimal address.toNat) = .ok address ∧
      parseAddress ("0x" ++ upper (hexadecimal address.toNat)) = .ok address := by
  refine ⟨fun text address => parseAddress_eq_ok_iff, fun text error => parseAddress_eq_error_iff,
    fun address => ?_⟩
  simp only [parseAddress_eq_ok_iff]
  have hspells : Spells 16 (hexadecimal address.toNat).toList address.toNat := by
    rw [toList_hexadecimal]
    exact spells_toDigits (by decide) (by decide) address.toNat
  refine ⟨writesAddress_decimal address, writesAddress_hexadecimal hspells,
    writesAddress_hexadecimal ?_⟩
  rw [toList_upper]
  exact hspells.upper (by decide)

example : parseAddress "\t0X+00fF " = .ok 0xff := by rfl

end BinaryFacts
