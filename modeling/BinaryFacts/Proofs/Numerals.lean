import BinaryFacts.Text.Numeral
import Mathlib.Tactic.Lemma

/-!
# Reading numerals back

The digits of a number, in any radix up to sixteen, are read back as the number.
-/

namespace BinaryFacts.Text

/-- Whether a character is a digit, in either case where the digit is a letter. -/
def IsDigit (radix : Nat) (c : Char) (digit : Nat) : Prop :=
  digit < radix ∧ (c = digit.digitChar ∨ c = digit.digitChar.toUpper)

/-- What holds of the sixteen digits in both cases holds of every digit. -/
lemma IsDigit.of_sixteen {P : Nat → Char → Prop} {radix digit : Nat} {c : Char}
    (hsixteen : ∀ digit < 16, P digit digit.digitChar ∧ P digit digit.digitChar.toUpper)
    (hradix : radix ≤ 16) (h : IsDigit radix c digit) : P digit c := by
  obtain ⟨hdigit, rfl | rfl⟩ := h
  · exact (hsixteen digit (by omega)).1
  · exact (hsixteen digit (by omega)).2

lemma digitOf?_iff_lt {radix digit : Nat} {c : Char} (hradix : radix ≤ 16) :
    digitOf? radix c = some digit ↔ digit < radix ∧ digitOf? 16 c = some digit := by
  unfold digitOf?
  simp only [Option.filter_eq_some_iff, decide_eq_true_eq]
  constructor
  · rintro ⟨hvalue, hdigit⟩
    exact ⟨hdigit, hvalue, by omega⟩
  · rintro ⟨hdigit, hvalue, -⟩
    exact ⟨hvalue, hdigit⟩

lemma toNat_lt_of_digitOf? {radix digit : Nat} {c : Char} (h : digitOf? radix c = some digit) :
    c.toNat < 128 := by
  unfold digitOf? at h
  rw [Option.filter_eq_some_iff] at h
  have hvalue := h.1
  split at hvalue
  · next hc => exact Nat.lt_of_le_of_lt hc.2 (by decide)
  · split at hvalue
    · next hc => exact Nat.lt_of_le_of_lt hc.2 (by decide)
    · split at hvalue
      · next hc => exact Nat.lt_of_le_of_lt hc.2 (by decide)
      · cases hvalue

/-- The digits that are read are those of either case. -/
lemma digitOf?_eq_some_iff {radix digit : Nat} {c : Char} (hradix : radix ≤ 16) :
    digitOf? radix c = some digit ↔ IsDigit radix c digit := by
  rw [digitOf?_iff_lt hradix]
  constructor
  · rintro ⟨hdigit, hread⟩
    have hascii : ∀ code < 128, ∀ digit ∈ digitOf? 16 (Char.ofNat code),
        Char.ofNat code = digit.digitChar ∨ Char.ofNat code = digit.digitChar.toUpper := by
      decide +kernel
    have hc := hascii c.toNat (toNat_lt_of_digitOf? hread) digit
    rw [Char.ofNat_toNat] at hc
    exact ⟨hdigit, hc hread⟩
  · intro h
    exact ⟨h.1, h.of_sixteen (P := fun digit c => digitOf? 16 c = some digit) (by decide) hradix⟩

lemma digitOf?_digitChar {radix digit : Nat} (hradix : radix ≤ 16) (hdigit : digit < radix) :
    digitOf? radix digit.digitChar = some digit :=
  (digitOf?_eq_some_iff hradix).mpr ⟨hdigit, .inl rfl⟩

lemma digitsFrom?_append (radix high : Nat) (first second : List Char) :
    digitsFrom? radix high (first ++ second) =
      (digitsFrom? radix high first).bind (digitsFrom? radix · second) := by
  induction first generalizing high with
  | nil => rfl
  | cons c rest ih =>
    rw [List.cons_append, digitsFrom?, digitsFrom?]
    cases digitOf? radix c with
    | none => rfl
    | some digit => exact ih _

/-- The digits of a number are read back. -/
theorem digitsFrom?_toDigits {radix : Nat} (hradix : 1 < radix) (hmax : radix ≤ 16) (number : Nat) :
    digitsFrom? radix 0 (Nat.toDigits radix number) = some number := by
  induction number using Nat.strongRecOn with
  | _ number ih =>
    rw [Nat.toDigits_eq_if hradix]
    split
    · next hlt =>
      rw [digitsFrom?, digitOf?_digitChar hmax hlt]
      exact congrArg some (by omega)
    · next hge =>
      have hlast := digitOf?_digitChar hmax (Nat.mod_lt number (by omega : 0 < radix))
      rw [digitsFrom?_append, ih _ (Nat.div_lt_self (by omega) hradix)]
      change digitsFrom? radix _ [_] = _
      rw [digitsFrom?, hlast]
      exact congrArg some (Nat.div_add_mod' number radix)

/-- Only the number zero starts with the digit zero. -/
lemma head?_toDigits_ne {number : Nat} (h : 0 < number) :
    (Nat.toDigits 10 number).head? ≠ some '0' := by
  induction number using Nat.strongRecOn with
  | _ number ih =>
    rw [Nat.toDigits_eq_if (by decide)]
    split
    · next hlt =>
      have hdigits : ∀ digit < 10, 0 < digit → [digit.digitChar].head? ≠ some '0' := by decide
      exact hdigits number hlt h
    · next hge =>
      rw [List.head?_append, Option.or_of_isSome (List.isSome_head?.mpr Nat.toDigits_ne_nil)]
      exact ih _ (by omega) (by omega)

lemma toList_decimal (number : Nat) : (decimal number).toList = Nat.toDigits 10 number :=
  String.toList_ofList

lemma toList_hexadecimal (number : Nat) :
    (hexadecimal number).toList = Nat.toDigits 16 number :=
  String.toList_ofList

lemma toList_signedDecimal (value : Int) :
    (signedDecimal value).toList =
      (if value < 0 then ['-'] else []) ++ Nat.toDigits 10 value.natAbs := by
  rw [signedDecimal]
  split
  · rw [String.toList_append, toList_decimal]
    rfl
  · rw [toList_decimal]
    rfl

end BinaryFacts.Text
