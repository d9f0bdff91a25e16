import BinaryFacts.Proofs.SweepCoverage
import BinaryFacts.Proofs.Words

/-!
# The words of a mnemonic

The disassembling library prints the prefixes of an instruction in front of its opcode. The mnemonic
that is recorded is what stands behind the first space, so it is the opcode alone only where at most
one prefix is printed.
-/

namespace BinaryFacts

open Text

/-! ### The first space -/

lemma takeWhile_not_space {front : List Char} (h : ' ' ∉ front) (back : List Char) :
    (front ++ ' ' :: back).takeWhile (· != ' ') = front := by
  rw [List.takeWhile_append_of_pos fun c hc => by simpa using ne_of_mem_of_not_mem hc h]
  simp

lemma dropWhile_not_space {front : List Char} (h : ' ' ∉ front) (back : List Char) :
    (front ++ ' ' :: back).dropWhile (· != ' ') = ' ' :: back := by
  rw [List.dropWhile_append_of_pos fun c hc => by simpa using ne_of_mem_of_not_mem hc h]
  simp

/-- What stands in front of the first space of a text, but for the blanks that the text starts with,
and what stands behind it. -/
def FirstSpace (text : String) (front back : List Char) : Prop :=
  ∃ blanks, text.toList = blanks ++ front ++ ' ' :: back ∧ AllBlank blanks ∧
    (∃ c ∈ front.head?, isBlank c = false) ∧ ' ' ∉ front

/-- Whether one word is all that stands behind the first space. -/
def EndsBehindSpace (text : String) : Prop :=
  ∃ front back, FirstSpace text front back ∧ (wordsOf back).length = 1

/-- Whether a text consists of two words, the first of which ends at a space. -/
def PairAtSpace (text : String) : Prop :=
  ∃ front back, FirstSpace text front back ∧ BlankFree front ∧ (wordsOf back).length = 1

namespace FirstSpace

variable {text : String} {front back : List Char}

lemma space_not_mem (h : FirstSpace text front back) : ' ' ∉ front := by
  obtain ⟨-, -, -, -, hspace⟩ := h
  exact hspace

lemma not_isBlank_head? (h : FirstSpace text front back) (behind : List Char) :
    ∀ c ∈ (front ++ behind).head?, isBlank c = false := by
  obtain ⟨-, -, -, ⟨first, hfirst, hblank⟩, -⟩ := h
  intro c hc
  rw [List.head?_append, Option.mem_def.mp hfirst] at hc
  rwa [← Option.some.inj hc]

lemma dropWhile_eq (h : FirstSpace text front back) :
    text.toList.dropWhile isBlank = front ++ ' ' :: back := by
  have hhead := h.not_isBlank_head? (' ' :: back)
  obtain ⟨blanks, htext, hblanks, -⟩ := h
  rw [htext, List.append_assoc, dropWhile_isBlank hblanks hhead]

lemma unique {front' back' : List Char} (h : FirstSpace text front back)
    (h' : FirstSpace text front' back') : front = front' ∧ back = back' := by
  have heq := h.dropWhile_eq.symm.trans h'.dropWhile_eq
  have htake := congrArg (List.takeWhile (· != ' ')) heq
  have hdrop := congrArg (List.dropWhile (· != ' ')) heq
  rw [takeWhile_not_space h.space_not_mem, takeWhile_not_space h'.space_not_mem] at htake
  rw [dropWhile_not_space h.space_not_mem, dropWhile_not_space h'.space_not_mem] at hdrop
  exact ⟨htake, List.tail_eq_of_cons_eq hdrop⟩

lemma wordsOf_eq (h : FirstSpace text front back) :
    wordsOf text.toList = wordsOf front ++ wordsOf back := by
  obtain ⟨blanks, htext, hblanks, -⟩ := h
  rw [htext, List.append_assoc, wordsOf_blanks_append hblanks, wordsOf_append_blank (by decide)]

lemma wordsOf_front_ne_nil (h : FirstSpace text front back) : wordsOf front ≠ [] := by
  obtain ⟨-, -, -, ⟨first, hfirst, hblank⟩, -⟩ := h
  exact wordsOf_ne_nil (List.mem_of_mem_head? hfirst) hblank

/-- A first space with a word behind it is inside the trimmed text. -/
lemma trimChars_eq (h : FirstSpace text front back) (hback : wordsOf back ≠ []) :
    ∃ rest, trimChars text.toList = front ++ ' ' :: rest ∧ trimChars rest = trimChars back := by
  obtain ⟨htrimmed, before, after, hsplit, hbefore, hafter⟩ := trimChars_spec back
  have hne : trimChars back ≠ [] := by
    intro hnil
    rw [← wordsOf_trimChars, hnil] at hback
    exact hback rfl
  have hrest : trimChars (before ++ trimChars back) = trimChars back :=
    trimChars_eq_iff.mpr ⟨htrimmed, before, [], (List.append_nil _).symm, hbefore,
      fun _ hc => nomatch hc⟩
  have hcore : Trimmed (front ++ ' ' :: (before ++ trimChars back)) := by
    refine ⟨h.not_isBlank_head? _, fun last hlast => ?_⟩
    rw [List.append_cons, ← List.append_assoc, List.getLast?_append_of_ne_nil _ hne] at hlast
    exact htrimmed.2 last hlast
  obtain ⟨blanks, htext, hblanks, -⟩ := h
  refine ⟨before ++ trimChars back,
    trimChars_eq_iff.mpr ⟨hcore, blanks, after, ?_, hblanks, hafter⟩, hrest⟩
  have hcons : ' ' :: back = ' ' :: (before ++ trimChars back ++ after) := congrArg _ hsplit
  rw [htext, hcons]
  simp

end FirstSpace

/-- A space inside a trimmed text is a first space with a word behind it. -/
lemma exists_firstSpace {text : String} {front rest : List Char}
    (h : trimChars text.toList = front ++ ' ' :: rest) (hfront : ' ' ∉ front) :
    ∃ back, FirstSpace text front back ∧ wordsOf back ≠ [] := by
  obtain ⟨htrimmed, before, after, htext, hbefore, hafter⟩ := trimChars_eq_iff.mp h
  obtain ⟨-, hrest⟩ := htrimmed.wordsOf_ne_nil (by decide)
  refine ⟨rest ++ after, ⟨before, by simp [htext], hbefore, ?_, hfront⟩, ?_⟩
  · cases front with
    | nil => exact absurd (htrimmed.1 ' ' rfl) (by decide)
    | cons first front => exact ⟨first, rfl, htrimmed.1 first rfl⟩
  · rwa [wordsOf_append_blanks rest hafter]

/-! ### Splitting there -/

/-- A mnemonic is split at the first space with a word behind it, and is not split without one. -/
lemma splitMnemonic_cases (text : String) :
    (∃ front back, FirstSpace text front back ∧ wordsOf back ≠ [] ∧
      splitMnemonic text = (upper (String.ofList front), upper (String.ofList (trimChars back)))) ∨
    (∀ front back, FirstSpace text front back → wordsOf back = []) ∧
      ' ' ∉ trimChars text.toList ∧
      splitMnemonic text = ("", upper (String.ofList (trimChars text.toList))) := by
  unfold splitMnemonic
  by_cases hspace : ' ' ∈ trimChars text.toList
  · obtain ⟨front, rest, hcore, hfront⟩ := List.eq_append_cons_of_mem hspace
    obtain ⟨back, hfirst, hback⟩ := exists_firstSpace hcore hfront
    obtain ⟨rest', hcore', htrim⟩ := hfirst.trimChars_eq hback
    obtain rfl : rest = rest' := by simpa [hcore] using hcore'
    refine .inl ⟨front, back, hfirst, hback, ?_⟩
    simp only [hcore, dropWhile_not_space hfront, takeWhile_not_space hfront, htrim]
  · refine .inr ⟨fun front back hfirst => ?_, hspace, ?_⟩
    · by_contra hback
      obtain ⟨rest, hcore, -⟩ := hfirst.trimChars_eq hback
      exact hspace (hcore ▸ List.mem_append_right _ List.mem_cons_self)
    · have hdrop : (trimChars text.toList).dropWhile (· != ' ') = [] :=
        List.dropWhile_eq_nil_iff.mpr fun c hc => by simpa using ne_of_mem_of_not_mem hc hspace
      simp only [hdrop]

/-- The recorded mnemonic has no blank just if one word stands behind the first space, or the text
has no more than one word. -/
lemma blankFree_mnemonic_iff (text : String) :
    BlankFree (splitMnemonic text).2.toList ↔
      (wordsOf text.toList).length ≤ 1 ∨ EndsBehindSpace text := by
  rcases splitMnemonic_cases text with ⟨front, back, hfirst, hback, hsplit⟩ | ⟨hnone, -, hsplit⟩
  · have hpos := List.length_pos_iff.mpr hback
    have hfront := List.length_pos_iff.mpr hfirst.wordsOf_front_ne_nil
    rw [hsplit, blankFree_upper_iff, String.toList_ofList, (trimChars_spec back).1.blankFree_iff,
      wordsOf_trimChars, hfirst.wordsOf_eq, List.length_append]
    constructor
    · exact fun hle => .inr ⟨front, back, hfirst, by omega⟩
    · rintro (hle | ⟨front', back', hfirst', hone⟩)
      · omega
      · rw [(hfirst.unique hfirst').2, hone]
  · rw [hsplit, blankFree_upper_iff, String.toList_ofList, (trimChars_spec _).1.blankFree_iff,
      wordsOf_trimChars]
    refine (or_iff_left ?_).symm
    rintro ⟨front, back, hfirst, hone⟩
    rw [hnone front back hfirst] at hone
    cases hone

/-! ### Prefixes and opcode -/

/-- Words in capitals, with spaces between them. -/
def capitalized (words : List (List Char)) : String :=
  " ".intercalate (words.map fun word => upper (String.ofList word))

lemma capitalized_singleton (word : List Char) :
    capitalized [word] = upper (String.ofList word) := by
  rw [← String.toList_inj]
  simp [capitalized]

lemma space_mem_capitalized (first second : List Char) (rest : List (List Char)) :
    ' ' ∈ (capitalized (first :: second :: rest)).toList := by
  simp [capitalized]

/-- What stands in front of the first space is recorded as its words just if it is one word. -/
lemma upper_eq_capitalized_iff {front : List Char} (hspace : ' ' ∉ front)
    (hne : wordsOf front ≠ []) :
    upper (String.ofList front) = capitalized (wordsOf front) ↔ BlankFree front := by
  constructor
  · intro h
    match hwords : wordsOf front with
    | [] => exact absurd hwords hne
    | [word] =>
      rw [hwords, capitalized_singleton] at h
      obtain ⟨hword, -⟩ := mem_wordsOf (hwords ▸ List.mem_singleton_self word)
      have hupper := (blankFree_upper_iff (String.ofList word)).mpr (by simpa using hword)
      rw [← h, blankFree_upper_iff] at hupper
      simpa using hupper
    | first :: second :: rest =>
      have hmem := space_mem_capitalized first second rest
      rw [← hwords, ← h, toList_upper, mem_flatMap_upperChar_iff (by decide)] at hmem
      exact absurd hmem (by simpa using hspace)
  · intro h
    have hfront : front ≠ [] := fun hnil => hne (hnil ▸ rfl)
    rw [wordsOf_blankFree h, if_neg hfront, capitalized_singleton]

/-- What is trimmed is recorded as its last word just if this is its only word. -/
lemma upper_trimChars_eq_iff {chars opcode : List Char} {earlier : List (List Char)}
    (h : wordsOf chars = earlier ++ [opcode]) :
    upper (String.ofList (trimChars chars)) = upper (String.ofList opcode) ↔ earlier = [] := by
  have htrimmed := (trimChars_spec chars).1.blankFree_iff
  rw [wordsOf_trimChars, h, List.length_append, List.length_singleton] at htrimmed
  constructor
  · intro heq
    have hopcode : BlankFree opcode := (mem_wordsOf (h ▸ List.mem_append_right _ (by simp))).1
    have hfree := (blankFree_upper_iff (String.ofList opcode)).mpr (by simpa using hopcode)
    rw [← heq, blankFree_upper_iff, String.toList_ofList, htrimmed] at hfree
    exact List.length_eq_zero_iff.mp (by omega)
  · rintro rfl
    have hwords := wordsOf_blankFree (htrimmed.mpr (by simp))
    rw [wordsOf_trimChars, h] at hwords
    split at hwords
    · cases hwords
    · rw [List.singleton_inj.mp hwords]

/-- The words before the last are recorded as prefixes, and the last one as the mnemonic, just if
there are no others or the text is a pair. -/
lemma splitMnemonic_eq_iff {text : String} {prefixes : List (List Char)} {opcode : List Char}
    (h : wordsOf text.toList = prefixes ++ [opcode]) :
    splitMnemonic text = (capitalized prefixes, upper (String.ofList opcode)) ↔
      prefixes = [] ∨ PairAtSpace text := by
  rcases splitMnemonic_cases text with ⟨front, back, hfirst, hback, hsplit⟩ | ⟨hnone, -, hsplit⟩
  · have hlast := List.dropLast_concat_getLast hback
    generalize (wordsOf back).dropLast = between at hlast
    generalize (wordsOf back).getLast hback = last at hlast
    obtain ⟨rfl, rfl⟩ : wordsOf front ++ between = prefixes ∧ last = opcode := by
      rw [hfirst.wordsOf_eq, ← hlast, ← List.append_assoc] at h
      simpa using List.append_inj' h rfl
    have hfront := hfirst.wordsOf_front_ne_nil
    rw [hsplit, Prod.mk.injEq, upper_trimChars_eq_iff hlast.symm,
      or_iff_right (List.append_ne_nil_of_left_ne_nil hfront _)]
    have hspace := hfirst.space_not_mem
    constructor
    · rintro ⟨heq, rfl⟩
      rw [List.append_nil, upper_eq_capitalized_iff hspace hfront] at heq
      exact ⟨front, back, hfirst, heq, by simp [← hlast]⟩
    · rintro ⟨front', back', hfirst', hfree, hone⟩
      obtain ⟨rfl, rfl⟩ := hfirst.unique hfirst'
      obtain rfl : between = [] := by simpa [← hlast] using hone
      rw [List.append_nil, upper_eq_capitalized_iff hspace hfront]
      exact ⟨hfree, rfl⟩
  · rw [hsplit, Prod.mk.injEq, upper_trimChars_eq_iff h]
    have hpair : ¬ PairAtSpace text := by
      rintro ⟨front, back, hfirst, -, hone⟩
      rw [hnone front back hfirst] at hone
      cases hone
    rw [or_iff_left hpair, and_iff_right_iff_imp]
    rintro rfl
    rfl

/-! ### Words between spaces -/

/-- Whether a text has no blanks but spaces. -/
def PlainlySpaced (text : String) : Prop := ∀ c ∈ text.toList, isBlank c = true → c = ' '

instance (text : String) : Decidable (PlainlySpaced text) :=
  List.decidableBAll (fun c => isBlank c = true → c = ' ') text.toList

lemma PlainlySpaced.blankFree {text : String} (h : PlainlySpaced text) {chars : List Char}
    (hsub : chars ⊆ text.toList) (hspace : ' ' ∉ chars) : BlankFree chars := by
  intro c hc
  rw [← Bool.not_eq_true]
  intro hblank
  obtain rfl := h c (hsub hc) hblank
  exact hspace hc

lemma FirstSpace.blankFree {text : String} {front back : List Char} (h : FirstSpace text front back)
    (hplain : PlainlySpaced text) : BlankFree front := by
  refine hplain.blankFree (fun c hc => ?_) h.space_not_mem
  obtain ⟨blanks, htext, -⟩ := h
  rw [htext]
  simp [hc]

lemma endsBehindSpace_iff_pairAtSpace {text : String} (h : PlainlySpaced text) :
    EndsBehindSpace text ↔ PairAtSpace text := by
  constructor
  · rintro ⟨front, back, hfirst, hone⟩
    exact ⟨front, back, hfirst, hfirst.blankFree h, hone⟩
  · rintro ⟨front, back, hfirst, -, hone⟩
    exact ⟨front, back, hfirst, hone⟩

/-- With nothing but spaces between them, two words are a pair. -/
lemma pairAtSpace_iff_length {text : String} (h : PlainlySpaced text) :
    PairAtSpace text ↔ (wordsOf text.toList).length = 2 := by
  have hlength : ∀ {front back}, FirstSpace text front back →
      (wordsOf text.toList).length = 1 + (wordsOf back).length := by
    intro front back hfirst
    have hne : front ≠ [] := fun hnil => hfirst.wordsOf_front_ne_nil (hnil ▸ rfl)
    rw [hfirst.wordsOf_eq, wordsOf_blankFree (hfirst.blankFree h), if_neg hne, List.length_append,
      List.length_singleton]
  constructor
  · rintro ⟨front, back, hfirst, -, hone⟩
    rw [hlength hfirst, hone]
  · intro htwo
    rcases splitMnemonic_cases text with ⟨front, back, hfirst, -, -⟩ | ⟨-, hspace, -⟩
    · have hone := hlength hfirst
      exact ⟨front, back, hfirst, hfirst.blankFree h, by omega⟩
    · have hfree := h.blankFree (trimChars_subset _) hspace
      rw [(trimChars_spec _).1.blankFree_iff, wordsOf_trimChars] at hfree
      omega

/-! ### The mnemonics of a sweep -/

/-- Whether a row is that of an instruction which the library reads in a section. -/
def ListsInstruction (binary : Binary) (d : Disassembler) (row : Row) (raw : RawInstruction) :
    Prop :=
  ∃ s ∈ binary.sections, ∃ bytes offset indices,
    let address := s.address + UInt64.ofNat offset
    s.flags.executable = true ∧ s.bytes = some bytes ∧ offset < bytes.length ∧
      s.address.toNat + offset < 2 ^ 64 ∧ d .x64 (bytes.drop offset) address = some raw ∧
      row = [.unsigned address, .unsigned raw.size, .symbol (splitMnemonic raw.mnemonic).1,
        .symbol (splitMnemonic raw.mnemonic).2, .list indices, .unsigned 0, .unsigned 0]

lemma exists_listsInstruction {binary : Binary} {d : Disassembler} {program : String} {row : Row}
    (h : row ∈ (Loader.instructions .x64 d binary (.new program)).rows "instruction") :
    ∃ raw, ListsInstruction binary d row raw := by
  obtain ⟨x, n, ⟨hx, -, -⟩, hfound, rfl⟩ := Binary.mem_rows_instruction_iff.mp h
  obtain ⟨sectionIndex, steps, recordAt, found⟩ := x
  obtain ⟨s, bytes, mode, hs, hexecutable, hbytes, hoffset, hfits, hreads, hlook⟩ := hx
  dsimp only at hfound hoffset hreads hlook
  subst hfound
  cases hreads
  obtain ⟨raw, hraw, hnormal⟩ := Option.bind_eq_some_iff.mp hlook.symm
  obtain ⟨operands, -, rfl⟩ := Option.map_eq_some_iff.mp hnormal
  exact ⟨raw, s, List.mem_of_getElem? hs, bytes, _, _, hexecutable, hbytes, hoffset, hfits, hraw,
    rfl⟩

/-- The prefixes of an instruction and its opcode are recorded apart just if there is one prefix at
most, which ends at a space. The recorded mnemonic is free of blanks just if there is one word at
most, or one word behind the first space. Where nothing but spaces stand between the words, both
conditions leave room for two words and no more. -/
theorem mnemonic_is_last_word_iff (d : Disassembler) :
    (∀ text prefixes opcode, words text = prefixes ++ [opcode] →
      (splitMnemonic text = (" ".intercalate (prefixes.map upper), upper opcode) ↔
        prefixes = [] ∨ PairAtSpace text)) ∧
    (∀ (binary : Binary) (program : String),
      ∀ row ∈ (Loader.instructions .x64 d binary (.new program)).rows "instruction",
        ∃ raw mnemonic, ListsInstruction binary d row raw ∧ row[3]? = some (.symbol mnemonic) ∧
          (BlankFree mnemonic.toList ↔
            (words raw.mnemonic).length ≤ 1 ∨ EndsBehindSpace raw.mnemonic)) ∧
    ∀ text, PlainlySpaced text →
      (PairAtSpace text ↔ (words text).length = 2) ∧
      (EndsBehindSpace text ↔ (words text).length = 2) := by
  refine ⟨fun text prefixes opcode hwords => ?_, fun binary program row hrow => ?_,
    fun text hplain => ?_⟩
  · obtain ⟨earlier, last, hsplit, rfl, hlast⟩ := List.map_eq_append_iff.mp hwords
    obtain ⟨word, rfl, rfl⟩ := List.map_eq_singleton_iff.mp hlast
    have hiff := splitMnemonic_eq_iff hsplit
    rwa [← List.map_eq_nil_iff (f := String.ofList), capitalized, ← Function.comp_def,
      ← List.map_map] at hiff
  · obtain ⟨raw, hlists⟩ := exists_listsInstruction hrow
    refine ⟨raw, (splitMnemonic raw.mnemonic).2, hlists, ?_, ?_⟩
    · obtain ⟨s, -, bytes, offset, indices, -, -, -, -, -, rfl⟩ := hlists
      rfl
    · rw [blankFree_mnemonic_iff, words, List.length_map]
  · rw [words, List.length_map, endsBehindSpace_iff_pairAtSpace hplain]
    exact ⟨pairAtSpace_iff_length hplain, pairAtSpace_iff_length hplain⟩

/-- A library that knows one instruction. -/
def printing (mnemonic : String) (code : List UInt8) : Disassembler := fun mode bytes _ =>
  if mode = .x64 ∧ bytes = code then some ⟨mnemonic, code.length.toUInt64, []⟩ else none

lemma mnemonic_of_printing {mnemonic : String} {code bytes : List UInt8} {address : UInt64}
    {raw : RawInstruction} (h : printing mnemonic code .x64 bytes address = some raw) :
    raw.mnemonic = mnemonic := by
  unfold printing at h
  split at h
  · rw [← Option.some.inj h]
  · cases h

/-- The instruction rows of some code. -/
def rowsPrinting (mnemonic : String) (code : List UInt8) : List Row :=
  (Loader.instructions .x64 (printing mnemonic code) (Binary.raw code .x64 .little 0x401000)
    (.new "p")).rows "instruction"

theorem mnemonic_is_last_word_iff_repeated_move :
    words "rep movsb" = ["rep"] ++ ["movsb"] ∧ PlainlySpaced "rep movsb" ∧
      splitMnemonic "rep movsb" = (" ".intercalate (["rep"].map upper), upper "movsb") ∧
      ∃ row ∈ rowsPrinting "rep movsb" [0xf3, 0xa4], ∃ mnemonic,
        row[3]? = some (.symbol mnemonic) ∧ BlankFree mnemonic.toList := by
  obtain ⟨hsplit, hrows, hplain⟩ :=
    mnemonic_is_last_word_iff (printing "rep movsb" [0xf3, 0xa4])
  have hwords : words "rep movsb" = ["rep"] ++ ["movsb"] := by decide +kernel
  have hspaced : PlainlySpaced "rep movsb" := by decide +kernel
  obtain ⟨hpair, hends⟩ := hplain "rep movsb" hspaced
  have htwo : (words "rep movsb").length = 2 := by rw [hwords]; rfl
  refine ⟨hwords, hspaced, (hsplit _ _ _ hwords).mpr (.inr (hpair.mpr htwo)), ?_⟩
  have hrow : [.unsigned 0x401000, .unsigned 2, .symbol "REP", .symbol "MOVSB", .list [],
      .unsigned 0, .unsigned 0] ∈ rowsPrinting "rep movsb" [0xf3, 0xa4] := by decide +kernel
  obtain ⟨raw, mnemonic, ⟨_, -, _, _, _, -, -, -, -, hraw, -⟩, hcolumn, hfree⟩ := hrows _ _ _ hrow
  rw [mnemonic_of_printing hraw] at hfree
  exact ⟨_, hrow, mnemonic, hcolumn, hfree.mpr (.inr (hends.mpr htwo))⟩

/-- Of two prefixes, the second is recorded with the opcode. -/
theorem second_prefix_stays_with_opcode :
    words "xacquire lock inc" = ["xacquire", "lock"] ++ ["inc"] ∧
      splitMnemonic "xacquire lock inc" = ("XACQUIRE", "LOCK INC") ∧
      (" ".intercalate (["xacquire", "lock"].map upper), upper "inc") = ("XACQUIRE LOCK", "INC") ∧
      ∃ row ∈ rowsPrinting "xacquire lock inc" [0xf2, 0xf0, 0xff, 0x00],
        row[3]? = some (.symbol "LOCK INC") ∧ ¬ BlankFree "LOCK INC".toList := by
  have hrow : [.unsigned 0x401000, .unsigned 4, .symbol "XACQUIRE", .symbol "LOCK INC", .list [],
      .unsigned 0, .unsigned 0] ∈ rowsPrinting "xacquire lock inc" [0xf2, 0xf0, 0xff, 0x00] := by
    decide +kernel
  exact ⟨by decide +kernel, by decide +kernel, by decide +kernel, _, hrow, rfl, by decide +kernel⟩

end BinaryFacts
