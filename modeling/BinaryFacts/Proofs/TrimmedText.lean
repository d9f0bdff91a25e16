import BinaryFacts.Text.Blank
import Mathlib.Data.List.TakeWhile
import Mathlib.Tactic.Lemma

/-!
# Trimmed texts

Trimming takes the blanks off both ends of a text and leaves all that stands between them.
-/

namespace BinaryFacts.Text

def AllBlank (chars : List Char) : Prop := ∀ c ∈ chars, isBlank c = true

def BlankFree (chars : List Char) : Prop := ∀ c ∈ chars, isBlank c = false

instance (chars : List Char) : Decidable (BlankFree chars) :=
  List.decidableBAll (fun c => isBlank c = false) chars

/-- Whether characters neither start nor end with a blank. -/
def Trimmed (chars : List Char) : Prop :=
  (∀ c ∈ chars.head?, isBlank c = false) ∧ ∀ c ∈ chars.getLast?, isBlank c = false

lemma BlankFree.trimmed {chars : List Char} (h : BlankFree chars) : Trimmed chars :=
  ⟨fun c hc => h c (List.mem_of_mem_head? hc), fun c hc => h c (List.mem_of_mem_getLast? hc)⟩

lemma AllBlank.reverse {blanks : List Char} (h : AllBlank blanks) : AllBlank blanks.reverse :=
  fun c hc => h c (List.mem_reverse.mp hc)

lemma allBlank_takeWhile (chars : List Char) : AllBlank (chars.takeWhile isBlank) :=
  fun _ hc => List.all_eq_true.mp List.all_takeWhile _ hc

lemma head?_dropWhile_isBlank (chars : List Char) :
    ∀ c ∈ (chars.dropWhile isBlank).head?, isBlank c = false := by
  intro c hc
  have hstop := List.head?_dropWhile_not isBlank chars
  rw [Option.mem_def.mp hc] at hstop
  simpa using hstop

lemma dropWhile_isBlank {blanks chars : List Char} (hblanks : AllBlank blanks)
    (hchars : ∀ c ∈ chars.head?, isBlank c = false) :
    (blanks ++ chars).dropWhile isBlank = chars := by
  rw [List.dropWhile_append_of_pos hblanks]
  cases chars with
  | nil => rfl
  | cons c rest => exact List.dropWhile_cons_of_neg (by simp [hchars c rfl])

lemma trimChars_blanks {blanks : List Char} (h : AllBlank blanks) : trimChars blanks = [] := by
  rw [trimChars, List.dropWhile_eq_nil_iff.mpr h]
  rfl

/-- Only blanks are taken off, and all that there are at the ends. -/
lemma trimChars_spec (chars : List Char) :
    Trimmed (trimChars chars) ∧ ∃ before after,
      chars = before ++ trimChars chars ++ after ∧ AllBlank before ∧ AllBlank after := by
  let after := ((chars.dropWhile isBlank).reverse.takeWhile isBlank).reverse
  have hback : trimChars chars ++ after = chars.dropWhile isBlank := by
    rw [trimChars, ← List.reverse_append, List.takeWhile_append_dropWhile, List.reverse_reverse]
  refine ⟨⟨fun c hc => ?_, fun c hc => ?_⟩, chars.takeWhile isBlank, after, ?_,
    allBlank_takeWhile _, (allBlank_takeWhile _).reverse⟩
  · refine head?_dropWhile_isBlank chars c ?_
    rw [← hback, Option.mem_def, List.head?_append, Option.mem_def.mp hc]
    rfl
  · rw [trimChars, List.getLast?_reverse] at hc
    exact head?_dropWhile_isBlank _ c hc
  · rw [List.append_assoc, hback, List.takeWhile_append_dropWhile]

/-- What is left of a text is what stands trimmed between blanks. -/
theorem trimChars_eq_iff {chars core : List Char} :
    trimChars chars = core ↔ Trimmed core ∧
      ∃ before after, chars = before ++ core ++ after ∧ AllBlank before ∧ AllBlank after := by
  constructor
  · rintro rfl
    exact trimChars_spec chars
  · rintro ⟨⟨hfirst, hlast⟩, before, after, rfl, hbefore, hafter⟩
    cases core with
    | nil =>
      rw [List.append_nil]
      exact trimChars_blanks fun c hc => (List.mem_append.mp hc).elim (hbefore c) (hafter c)
    | cons c rest =>
      rw [trimChars, List.append_assoc, dropWhile_isBlank hbefore, List.reverse_append,
        dropWhile_isBlank hafter.reverse, List.reverse_reverse]
      · rwa [List.head?_reverse]
      · exact hfirst

lemma trimChars_subset (chars : List Char) : trimChars chars ⊆ chars := by
  obtain ⟨-, before, after, hchars, -, -⟩ := trimChars_spec chars
  intro c hc
  rw [hchars]
  exact List.mem_append_left _ (List.mem_append_right _ hc)

end BinaryFacts.Text
