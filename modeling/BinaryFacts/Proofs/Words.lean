import BinaryFacts.Proofs.TrimmedText
import BinaryFacts.Text.Upper

/-!
# Words

The words of a text are what its blanks separate. Blanks around a text make no difference to them,
and capitals neither join words nor part them.
-/

namespace BinaryFacts.Text

def wordsOf (chars : List Char) : List (List Char) :=
  (chars.splitOnP isBlank).filter (· ≠ [])

def words (text : String) : List String := (wordsOf text.toList).map String.ofList

/-! ### Blanks between words -/

lemma wordsOf_append_blank {c : Char} (hc : isBlank c = true) (front back : List Char) :
    wordsOf (front ++ c :: back) = wordsOf front ++ wordsOf back := by
  unfold wordsOf
  rw [List.splitOnP_append_cons front back hc, List.filter_append]

lemma wordsOf_blankFree {chars : List Char} (h : BlankFree chars) :
    wordsOf chars = if chars = [] then [] else [chars] := by
  unfold wordsOf
  rw [List.splitOnP_eq_singleton h]
  by_cases hempty : chars = [] <;> simp [hempty]

lemma wordsOf_append_blanks (chars : List Char) {blanks : List Char} (h : AllBlank blanks) :
    wordsOf (chars ++ blanks) = wordsOf chars := by
  induction blanks generalizing chars with
  | nil => rw [List.append_nil]
  | cons c rest ih =>
    have hrest := ih [] fun other hother => h other (List.mem_cons_of_mem _ hother)
    rw [wordsOf_append_blank (h c List.mem_cons_self), ← List.nil_append rest, hrest]
    exact List.append_nil _

lemma wordsOf_blanks_append {blanks : List Char} (h : AllBlank blanks) (chars : List Char) :
    wordsOf (blanks ++ chars) = wordsOf chars := by
  induction blanks with
  | nil => rfl
  | cons c rest ih =>
    have hcons := wordsOf_append_blank (h c List.mem_cons_self) [] (rest ++ chars)
    rw [List.nil_append] at hcons
    rw [List.cons_append, hcons, ih fun other hother => h other (List.mem_cons_of_mem _ hother)]
    rfl

lemma wordsOf_trimChars (chars : List Char) : wordsOf (trimChars chars) = wordsOf chars := by
  obtain ⟨-, before, after, hchars, hbefore, hafter⟩ := trimChars_spec chars
  calc wordsOf (trimChars chars)
      = wordsOf (before ++ trimChars chars ++ after) := by
        rw [wordsOf_append_blanks _ hafter, wordsOf_blanks_append hbefore]
    _ = wordsOf chars := by rw [← hchars]

/-! ### The words themselves -/

/-- What holds of characters without a blank, and is handed on across blanks, holds of all. -/
@[elab_as_elim]
lemma blankInduction {motive : List Char → Prop}
    (free : ∀ chars, BlankFree chars → motive chars)
    (split : ∀ front c back, isBlank c = true → motive front → motive back →
      motive (front ++ c :: back)) (chars : List Char) : motive chars := by
  suffices h : ∀ front, BlankFree front → motive (front ++ chars) from h [] fun _ hc => nomatch hc
  induction chars with
  | nil =>
    intro front hfront
    rw [List.append_nil]
    exact free front hfront
  | cons c rest ih =>
    intro front hfront
    cases hc : isBlank c with
    | true => exact split front c rest hc (free front hfront) (ih [] fun _ hc => nomatch hc)
    | false =>
      rw [List.append_cons]
      refine ih _ fun other hother => ?_
      rcases List.mem_append.mp hother with hother | hother
      · exact hfront other hother
      · rwa [List.mem_singleton.mp hother]

lemma mem_wordsOf {chars word : List Char} (h : word ∈ wordsOf chars) :
    BlankFree word ∧ word ≠ [] := by
  induction chars using blankInduction with
  | free chars hchars =>
    rw [wordsOf_blankFree hchars] at h
    split at h
    · exact absurd h List.not_mem_nil
    · next hne =>
      obtain rfl := List.mem_singleton.mp h
      exact ⟨hchars, hne⟩
  | split front c back hc ihfront ihback =>
    rw [wordsOf_append_blank hc] at h
    exact (List.mem_append.mp h).elim ihfront ihback

/-- Characters that are not all blank have a word. -/
lemma wordsOf_ne_nil {chars : List Char} {c : Char} (h : c ∈ chars) (hc : isBlank c = false) :
    wordsOf chars ≠ [] := by
  induction chars using blankInduction with
  | free chars hchars =>
    rw [wordsOf_blankFree hchars, if_neg (List.ne_nil_of_mem h)]
    exact List.cons_ne_nil _ _
  | split front blank back hblank ihfront ihback =>
    rw [wordsOf_append_blank hblank]
    rcases List.mem_append.mp h with h | h
    · exact List.append_ne_nil_of_left_ne_nil (ihfront h) _
    · rcases List.mem_cons.mp h with rfl | h
      · simp [hc] at hblank
      · exact List.append_ne_nil_of_right_ne_nil _ (ihback h)

/-- A blank inside trimmed characters has words on both sides. -/
lemma Trimmed.wordsOf_ne_nil {front back : List Char} {c : Char} (h : Trimmed (front ++ c :: back))
    (hc : isBlank c = true) : wordsOf front ≠ [] ∧ wordsOf back ≠ [] := by
  constructor
  · cases front with
    | nil => simp [h.1 c rfl] at hc
    | cons first rest => exact Text.wordsOf_ne_nil List.mem_cons_self (h.1 first rfl)
  · cases hlast : back.getLast? with
    | none =>
      obtain rfl := List.getLast?_eq_none_iff.mp hlast
      simp [h.2 c List.getLast?_concat] at hc
    | some last =>
      refine Text.wordsOf_ne_nil (List.mem_of_getLast? hlast) (h.2 last ?_)
      rw [Option.mem_def, List.getLast?_append, List.getLast?_cons, hlast]
      rfl

/-- Trimmed characters without a blank are those of one word at most. -/
lemma Trimmed.blankFree_iff {chars : List Char} (h : Trimmed chars) :
    BlankFree chars ↔ (wordsOf chars).length ≤ 1 := by
  constructor
  · intro hfree
    rw [wordsOf_blankFree hfree]
    split <;> simp
  · intro hlength c hc
    rw [← Bool.not_eq_true]
    intro hblank
    obtain ⟨front, back, rfl⟩ := List.append_of_mem hc
    obtain ⟨hfront, hback⟩ := h.wordsOf_ne_nil hblank
    have := List.length_pos_iff.mpr hfront
    have := List.length_pos_iff.mpr hback
    rw [wordsOf_append_blank hblank, List.length_append] at hlength
    omega

/-! ### Words in capitals -/

def blankCodes : List Nat :=
  List.range' 9 5 ++ [0x20, 0x85, 0xa0, 0x1680] ++ List.range' 0x2000 11 ++
    [0x2028, 0x2029, 0x202f, 0x205f, 0x3000]

lemma toNat_mem_blankCodes {c : Char} (h : isBlank c = true) : c.toNat ∈ blankCodes := by
  simp only [isBlank, Bool.or_eq_true, Bool.and_eq_true, decide_eq_true_eq, beq_iff_eq] at h
  simp only [blankCodes, List.mem_append, List.mem_range'_1, List.mem_cons, List.not_mem_nil,
    or_false]
  omega

lemma upperChar_of_isBlank {c : Char} (h : isBlank c = true) : upperChar c = [c] := by
  have hcodes : ∀ code ∈ blankCodes, upperChar (Char.ofNat code) = [Char.ofNat code] := by
    decide +kernel
  have hc := hcodes c.toNat (toNat_mem_blankCodes h)
  rwa [Char.ofNat_toNat] at hc

lemma mem_blankCodes_of_isBlank_ofNat {code : Nat} (h : isBlank (Char.ofNat code) = true) :
    code ∈ blankCodes := by
  have hcode := toNat_mem_blankCodes h
  by_cases hvalid : code.isValidChar
  · rw [Char.ofNat, dif_pos hvalid] at hcode
    exact hcode
  · rw [Char.ofNat, dif_neg hvalid] at hcode
    exact absurd hcode (by decide)

/-- No run of characters is moved onto a blank. -/
lemma isBlank_shift {run : CaseRun} (hrun : run ∈ upperRuns) {code : Nat}
    (hcovers : run.covers code = true) :
    isBlank (Char.ofNat (code + run.shift).toNat) = false := by
  have hruns : ∀ blank ∈ blankCodes, ∀ run ∈ upperRuns,
      run.covers ((blank : Int) - run.shift).toNat = false := by decide +kernel
  have hpositive : ∀ blank ∈ blankCodes, 0 < blank := by decide
  rw [← Bool.not_eq_true]
  intro hblank
  have hmem := mem_blankCodes_of_isBlank_ofNat hblank
  have hcode : (((code + run.shift).toNat : Int) - run.shift).toNat = code := by
    have := hpositive _ hmem
    omega
  have hmissed := hruns _ hmem run hrun
  rw [hcode, hcovers] at hmissed
  cases hmissed

/-- No upper-case mapping leads to a blank. -/
lemma blankFree_upperChar {c : Char} (h : isBlank c = false) : BlankFree (upperChar c) := by
  unfold upperChar
  split
  · next hascii =>
    have hcodes : ∀ code < 128, isBlank (Char.ofNat code).toUpper = isBlank (Char.ofNat code) := by
      decide
    have hc := hcodes c.toNat hascii
    rw [Char.ofNat_toNat, h] at hc
    exact List.forall_mem_singleton.mpr hc
  · split
    · next codes hcodes =>
      have hsequences : ∀ entry ∈ upperSequences, BlankFree (entry.2.map Char.ofNat) := by
        decide +kernel
      obtain ⟨earlier, later, hsplit, -⟩ := List.lookup_eq_some_iff.mp hcodes
      exact hsequences _ (hsplit ▸ List.mem_append_right _ List.mem_cons_self)
    · split
      · next run hrun =>
        have hcovers : run.covers c.toNat = true := by simpa using List.find?_some hrun
        exact List.forall_mem_singleton.mpr
          (isBlank_shift (List.mem_of_find?_eq_some hrun) hcovers)
      · exact List.forall_mem_singleton.mpr h

/-- The blanks of a text in capitals are those of the text. -/
lemma mem_flatMap_upperChar_iff {chars : List Char} {blank : Char} (h : isBlank blank = true) :
    blank ∈ chars.flatMap upperChar ↔ blank ∈ chars := by
  rw [List.mem_flatMap]
  constructor
  · rintro ⟨c, hc, hmem⟩
    cases hblank : isBlank c with
    | true =>
      rw [upperChar_of_isBlank hblank] at hmem
      rwa [List.mem_singleton.mp hmem]
    | false =>
      simp [blankFree_upperChar hblank blank hmem] at h
  · intro hc
    refine ⟨blank, hc, ?_⟩
    rw [upperChar_of_isBlank h]
    exact List.mem_singleton_self blank

lemma blankFree_upper_iff (text : String) :
    BlankFree (upper text).toList ↔ BlankFree text.toList := by
  unfold BlankFree
  simp only [← Bool.not_eq_true]
  rw [toList_upper]
  constructor
  · exact fun h c hc hblank => h c ((mem_flatMap_upperChar_iff hblank).mpr hc) hblank
  · exact fun h c hc hblank => h c ((mem_flatMap_upperChar_iff hblank).mp hc) hblank

end BinaryFacts.Text
