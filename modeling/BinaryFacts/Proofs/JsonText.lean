import BinaryFacts.Json.Printer
import BinaryFacts.Json.Reader
import BinaryFacts.Proofs.Numerals

/-!
# Documents as text

A document without garbled text and without fractions is read back from the line that it is written
on.
-/

namespace BinaryFacts.Json

/-- Documents of lists and objects at most `depth` levels deep, with no text that is garbled and no
number but integers of at most 64 bits. -/
inductive Plain : Nat → Json → Prop where
  | null {depth : Nat} : Plain depth null
  | bool {depth : Nat} (value : Bool) : Plain depth (bool value)
  | integer {depth : Nat} {value : Int} (h : IsInteger value) : Plain depth (integer value)
  | string {depth : Nat} (value : String) : Plain depth (string value)
  | list {depth : Nat} {items : List Json} (h : ∀ item ∈ items, Plain depth item) :
    Plain (depth + 1) (list items)
  | object {depth : Nat} {fields : List (String × Json)}
    (h : ∀ field ∈ fields, Plain depth field.2) : Plain (depth + 1) (object fields)

/-! ### Texts -/

/-- Four digits of which the first two are zero. -/
lemma readUnits_escape {high low : Nat} (hhigh : high < 16) (hlow : low < 16)
    (rest : List Char) :
    readUnits ('\\' :: 'u' :: '0' :: '0' :: high.digitChar :: low.digitChar :: rest) =
      (readUnits rest).map fun (units, rest) => ((high * 16 + low) :: units, rest) := by
  have hzero : Text.digitOf? 16 '0' = some 0 := by decide
  have hh := Text.digitOf?_digitChar (Nat.le_refl 16) hhigh
  have hl := Text.digitOf?_digitChar (Nat.le_refl 16) hlow
  rw [readUnits]
  simp only [List.foldlM_cons, List.foldlM_nil, hzero, hh, hl]
  cases readUnits rest with
  | none => rfl
  | some read => simp

/-- The escape of a control character that has no letter. -/
lemma toList_control {c : Char} (h : c.toNat < 0x20) :
    (if c.toNat < 0x10 then "\\u000" ++ Text.hexadecimal c.toNat
      else if c.toNat < 0x20 then "\\u00" ++ Text.hexadecimal c.toNat else c.toString).toList =
      '\\' :: 'u' :: '0' :: '0' :: (c.toNat / 16).digitChar :: [(c.toNat % 16).digitChar] := by
  by_cases hlow : c.toNat < 0x10
  · rw [if_pos hlow, String.toList_append, Text.toList_hexadecimal,
      Nat.toDigits_of_lt_base hlow, Nat.div_eq_of_lt hlow, Nat.mod_eq_of_lt hlow]
    rfl
  · have hone : c.toNat / 16 = 1 := by omega
    rw [if_neg hlow, if_pos h, String.toList_append, Text.toList_hexadecimal,
      Nat.toDigits_of_base_le (by decide) (by omega), hone]
    rfl

/-- A character that stands for itself. -/
lemma readUnits_plain {c : Char} (hquote : c ≠ '"') (hslash : c ≠ '\\') (h : ¬ c.toNat < 0x20)
    (rest : List Char) :
    readUnits (c :: rest) =
      (readUnits rest).map fun (units, rest) => (c.toNat :: units, rest) := by
  rw [readUnits]
  · rw [if_neg h]
    cases readUnits rest <;> rfl
  · exact hquote
  · exact fun _ _ _ _ _ heq _ => hslash heq
  · exact fun _ _ heq _ => hslash heq

lemma readUnits_escapeChar (c : Char) (rest : List Char) :
    readUnits ((escapeChar c).toList ++ rest) =
      (readUnits rest).map fun (units, rest) => (c.toNat :: units, rest) := by
  have hletter : ∀ {letter : Char} {unit : Nat}, letter ≠ 'u' →
      [('"', 0x22), ('\\', 0x5c), ('/', 0x2f), ('b', 8), ('f', 12), ('n', 10), ('r', 13),
        ('t', 9)].lookup letter = some unit →
      readUnits ('\\' :: letter :: rest) =
        (readUnits rest).map fun (units, rest) => (unit :: units, rest) := by
    intro letter unit hne hunit
    rw [readUnits, hunit]
    · cases readUnits rest <;> rfl
    · exact fun _ _ _ _ _ heq _ => hne heq
  unfold escapeChar
  split
  · exact hletter (by decide) (by decide)
  · exact hletter (by decide) (by decide)
  · exact hletter (by decide) (by decide)
  · exact hletter (by decide) (by decide)
  · exact hletter (by decide) (by decide)
  · next hquote hslash _ _ _ =>
    simp only [beq_iff_eq]
    by_cases hback : c.toNat = 8
    · rw [if_pos hback, hback]
      exact hletter (by decide) (by decide)
    · by_cases hfeed : c.toNat = 12
      · rw [if_neg hback, if_pos hfeed, hfeed]
        exact hletter (by decide) (by decide)
      · rw [if_neg hback, if_neg hfeed]
        by_cases hcontrol : c.toNat < 0x20
        · rw [toList_control hcontrol]
          change readUnits ('\\' :: 'u' :: '0' :: '0' :: _ :: _ :: rest) = _
          rw [readUnits_escape (by omega) (by omega), Nat.div_add_mod']
        · rw [if_neg (by omega), if_neg hcontrol]
          have hself : c.toString.toList = [c] := String.toList_singleton c
          rw [hself]
          exact readUnits_plain hquote hslash hcontrol rest

/-- No character is one half of a surrogate pair. -/
lemma joinUnits_toNat (chars : List Char) : joinUnits (chars.map Char.toNat) = some chars := by
  have hchar : ∀ c : Char, isHighSurrogate c.toNat = false ∧ isLowSurrogate c.toNat = false := by
    intro c
    have hvalid : c.toNat < 0xd800 ∨ 0xdfff < c.toNat ∧ c.toNat < 0x110000 := c.valid
    simp only [isHighSurrogate, isLowSurrogate, Bool.and_eq_false_iff, decide_eq_false_iff_not]
    omega
  induction chars with
  | nil => rfl
  | cons c rest ih =>
    cases rest with
    | nil => simp [joinUnits, hchar c, Char.ofNat_toNat]
    | cons next rest =>
      rw [List.map_cons, List.map_cons, joinUnits, (hchar c).1, (hchar c).2, ← List.map_cons, ih,
        Char.ofNat_toNat]
      rfl

lemma readUnits_escaped (chars rest : List Char) :
    readUnits (chars.flatMap (fun c => (escapeChar c).toList) ++ '"' :: rest) =
      some (chars.map Char.toNat, rest) := by
  induction chars with
  | nil => rfl
  | cons c chars ih =>
    rw [List.flatMap_cons, List.append_assoc, readUnits_escapeChar, ih]
    rfl

/-- A quoted text is read up to its closing quote. -/
lemma readText_quote (text : String) (rest : List Char) :
    ∃ body, (quote text).toList ++ rest = '"' :: body ∧
      readText body = some (some text, rest) := by
  refine ⟨text.toList.flatMap (fun c => (escapeChar c).toList) ++ '"' :: rest, ?_, ?_⟩
  · rw [quote, String.toList_append, String.toList_append, String.toList_join, List.flatMap_map,
      List.append_assoc, List.append_assoc]
    rfl
  · rw [readText, readUnits_escaped]
    simp only [Option.bind_eq_bind, Option.bind_some, joinUnits_toNat, Option.map_some,
      String.ofList_toList]
    rfl

/-! ### Numbers -/

/-- What may follow a number: nothing that would be taken for more of it. -/
def Delimits (rest : List Char) : Prop :=
  ∀ c ∈ rest.head?, isDigit c = false ∧ c ≠ '.' ∧ c ≠ 'e' ∧ c ≠ 'E'

lemma delimits_comma (rest : List Char) : Delimits (',' :: rest) := by
  rintro c ⟨⟩
  decide

lemma readDigits_append {digits rest : List Char} (hne : digits ≠ [])
    (hdigits : ∀ c ∈ digits, isDigit c = true) (hrest : ∀ c ∈ rest.head?, isDigit c = false) :
    readDigits (digits ++ rest) = some (digits, rest) := by
  have htake : rest.takeWhile isDigit = [] := by
    cases rest with
    | nil => rfl
    | cons c rest => exact List.takeWhile_cons_of_neg (by simp [hrest c rfl])
  have hdrop : rest.dropWhile isDigit = rest := by
    cases rest with
    | nil => rfl
    | cons c rest => exact List.dropWhile_cons_of_neg (by simp [hrest c rfl])
  rw [readDigits, List.takeWhile_append_of_pos hdigits, List.dropWhile_append_of_pos hdigits,
    htake, hdrop, List.append_nil]
  cases digits with
  | nil => contradiction
  | cons c digits => rfl

lemma readFraction_of_delimits {rest : List Char} (h : Delimits rest) :
    readFraction rest = some ([], rest) := by
  rw [readFraction]
  rintro after rfl
  exact (h '.' rfl).2.1 rfl

lemma readExponent_of_delimits {rest : List Char} (h : Delimits rest) :
    readExponent rest = some ([], rest) := by
  cases rest with
  | nil => rfl
  | cons c rest =>
    obtain ⟨-, -, hlower, hupper⟩ := h c rfl
    simp [readExponent, hlower, hupper]

/-- A numeral is read up to its last digit. -/
lemma readNumber_numeral (negative : Bool) {digits rest : List Char} (hne : digits ≠ [])
    (hdigits : ∀ c ∈ digits, isDigit c = true)
    (hzero : (digits.head? == some '0' && digits.length != 1) = false) (hrest : Delimits rest) :
    readNumber ((if negative then ['-'] else []) ++ digits ++ rest) =
      some (ofNumeral negative digits [], rest) := by
  have hread := readDigits_append hne hdigits fun c hc => (hrest c hc).1
  have hfirst : ∀ after, digits ++ rest ≠ '-' :: after := by
    cases digits with
    | nil => contradiction
    | cons c digits =>
      intro after heq
      have hc := hdigits c List.mem_cons_self
      rw [(List.cons.inj heq).1] at hc
      exact absurd hc (by decide)
  unfold readNumber
  split
  next _ sign chars hsign =>
    have hparts : (negative, digits ++ rest) = (sign, chars) := by
      cases negative with
      | true => exact hsign
      | false =>
        split at hsign
        · next heq => exact absurd heq (hfirst _)
        · exact hsign
    obtain ⟨rfl, rfl⟩ := Prod.mk.inj hparts
    simp only [hread, hzero, readFraction_of_delimits hrest, readExponent_of_delimits hrest,
      Option.bind_eq_bind, Option.bind_some]
    rfl

lemma ofNumeral_toDigits {value : Int} (h : IsInteger value) :
    ofNumeral (decide (value < 0)) (Nat.toDigits 10 value.natAbs) [] = integer value := by
  have hvalue : (if decide (value < 0) then -(value.natAbs : Int) else value.natAbs) = value := by
    simp only [decide_eq_true_eq]
    omega
  have hminus : (decide (value < 0) && (value.natAbs : Int) == 0) = false := by
    simp only [Bool.and_eq_false_iff, decide_eq_false_iff_not, beq_eq_false_iff_ne]
    omega
  rw [ofNumeral, Text.digitsFrom?_toDigits (by decide) (by decide)]
  simp only [Option.getD_some, hvalue, hminus, h]
  rfl

lemma isDigit_of_mem_toDigits {number : Nat} {c : Char} (h : c ∈ Nat.toDigits 10 number) :
    isDigit c = true := by
  have hrange := Char.isDigit_iff_toNat.mp (Nat.isDigit_of_mem_toDigits (by decide) (by decide) h)
  simpa [isDigit, Char.le_def, UInt32.le_iff_toNat_le] using hrange

/-- A zero in front is all of the number. -/
lemma leading_zero_toDigits (number : Nat) :
    ((Nat.toDigits 10 number).head? == some '0' &&
      (Nat.toDigits 10 number).length != 1) = false := by
  rcases Nat.eq_zero_or_pos number with rfl | hpos
  · decide
  · simp [Text.head?_toDigits_ne hpos]

/-- An integer is read back, whatever follows it that cannot be part of it. -/
lemma readNumber_signedDecimal {value : Int} (h : IsInteger value) {rest : List Char}
    (hrest : Delimits rest) :
    readNumber ((Text.signedDecimal value).toList ++ rest) = some (integer value, rest) := by
  have hread := readNumber_numeral (decide (value < 0)) Nat.toDigits_ne_nil
    (fun _ hc => isDigit_of_mem_toDigits hc) (leading_zero_toDigits value.natAbs) hrest
  rw [ofNumeral_toDigits h] at hread
  simp only [decide_eq_true_eq] at hread
  rw [Text.toList_signedDecimal, hread]

/-! ### Values -/

lemma skipSpaces_cons {c : Char} (h : isSpace c = false) (rest : List Char) :
    skipSpaces (c :: rest) = c :: rest :=
  List.dropWhile_cons_of_neg (by simp [h])

/-- The text of a document is read back wherever it stands, with two steps for a character. -/
structure ReadsBack (document : Json) : Prop where
  head : ∃ c rest, document.compact.toList = c :: rest ∧ isSpace c = false ∧ c ≠ ']'
  read : ∀ {fuel : Nat} {rest : List Char}, 2 * document.compact.toList.length ≤ fuel + 1 →
    Delimits rest → readValue (fuel + 1) (document.compact.toList ++ rest) = some (document, rest)

lemma readsBack_null : ReadsBack null where
  head := ⟨'n', "ull".toList, by decide, by decide, by decide⟩
  read {fuel rest} _ _ := by
    have htext : null.compact.toList = ['n', 'u', 'l', 'l'] := by decide
    rw [htext, readValue]
    rfl

lemma readsBack_bool (value : Bool) : ReadsBack (bool value) := by
  have htrue : (bool true).compact.toList = ['t', 'r', 'u', 'e'] := by decide
  have hfalse : (bool false).compact.toList = ['f', 'a', 'l', 's', 'e'] := by decide
  constructor
  · cases value with
    | true => exact ⟨'t', ['r', 'u', 'e'], htrue, by decide, by decide⟩
    | false => exact ⟨'f', ['a', 'l', 's', 'e'], hfalse, by decide, by decide⟩
  · intro fuel rest _ _
    cases value with
    | true =>
      rw [htrue, readValue]
      rfl
    | false =>
      rw [hfalse, readValue]
      rfl

lemma readsBack_string (value : String) : ReadsBack (string value) := by
  constructor
  · obtain ⟨body, hbody, -⟩ := readText_quote value []
    exact ⟨'"', body, by simpa [compact] using hbody, by decide, by decide⟩
  · intro fuel rest _ _
    obtain ⟨body, hbody, hread⟩ := readText_quote value rest
    rw [compact, hbody, readValue, skipSpaces_cons (by decide)]
    simp only [hread]
    rfl

/-- The first character of an integer. -/
lemma exists_toList_signedDecimal (value : Int) :
    ∃ c rest, (Text.signedDecimal value).toList = c :: rest ∧ (c = '-' ∨ c.isDigit = true) := by
  rw [Text.toList_signedDecimal]
  split
  · exact ⟨'-', Nat.toDigits 10 value.natAbs, rfl, .inl rfl⟩
  · obtain ⟨c, digits, hdigits⟩ := List.exists_cons_of_ne_nil
      (Nat.toDigits_ne_nil (b := 10) (n := value.natAbs))
    have hc : c.isDigit = true := Nat.isDigit_of_mem_toDigits (by decide) (by decide)
      (hdigits ▸ List.mem_cons_self)
    exact ⟨c, digits, hdigits, .inr hc⟩

lemma isSpace_numeral {c : Char} (hc : c = '-' ∨ c.isDigit = true) : isSpace c = false := by
  have hne : ∀ other : Char, ¬ (other = '-' ∨ other.isDigit = true) → c ≠ other :=
    fun other hother heq => hother (heq ▸ hc)
  simp only [isSpace, Bool.or_eq_false_iff, beq_eq_false_iff_ne]
  exact ⟨⟨⟨hne _ (by decide), hne _ (by decide)⟩, hne _ (by decide)⟩, hne _ (by decide)⟩

lemma readValue_numeral {c : Char} (hc : c = '-' ∨ c.isDigit = true) (fuel : Nat)
    (rest : List Char) : readValue (fuel + 1) (c :: rest) = readNumber (c :: rest) := by
  have hne : ∀ other : Char, ¬ (other = '-' ∨ other.isDigit = true) → c ≠ other :=
    fun other hother heq => hother (heq ▸ hc)
  rw [readValue, skipSpaces_cons (isSpace_numeral hc)]
  split
  case h_7 => rfl
  all_goals
    next heq => exact absurd (List.cons.inj heq).1 (hne _ (by decide))

lemma readsBack_integer {value : Int} (h : IsInteger value) : ReadsBack (integer value) := by
  obtain ⟨c, rest, hchars, hc⟩ := exists_toList_signedDecimal value
  constructor
  · refine ⟨c, rest, hchars, isSpace_numeral hc, ?_⟩
    rintro rfl
    exact absurd hc (by decide)
  · intro fuel after _ hafter
    rw [compact, ← readNumber_signedDecimal h hafter, hchars]
    exact readValue_numeral hc fuel _

/-- The text of one or more items, up to the bracket behind them, is read back item by item. -/
lemma readItems_compactItems {items : List Json} (hne : items ≠ [])
    (hitems : ∀ item ∈ items, ReadsBack item) (fuel : Nat) (rest : List Char)
    (hfuel : 2 * (String.intercalate "," (compactItems items)).toList.length + 2 ≤ fuel) :
    readItems fuel ((String.intercalate "," (compactItems items)).toList ++ ']' :: rest) =
      some (items, rest) := by
  induction items generalizing fuel with
  | nil => contradiction
  | cons item items ih =>
    -- one step for the list and one for its first item
    obtain ⟨fuel, rfl⟩ : ∃ less, fuel = less + 2 := ⟨fuel - 2, by omega⟩
    have hitem := hitems item List.mem_cons_self
    cases items with
    | nil =>
      rw [compactItems, compactItems, String.intercalate_singleton] at hfuel ⊢
      have hbracket : Delimits (']' :: rest) := by
        rintro c ⟨⟩
        decide
      rw [readItems, hitem.read (by omega) hbracket]
      rfl
    | cons next items =>
      have hcomma : ",".toList = [','] := by decide
      rw [compactItems, compactItems, String.intercalate_cons_cons, ← compactItems,
        String.toList_append, String.toList_append, hcomma] at hfuel ⊢
      simp only [List.length_append, List.length_singleton] at hfuel
      rw [List.append_assoc, List.append_assoc, List.singleton_append, readItems,
        hitem.read (by omega) (delimits_comma _)]
      simp only [Option.bind_eq_bind, Option.bind_some, skipSpaces_cons (c := ',') (by decide)]
      rw [ih (by simp) (fun other hother => hitems other (List.mem_cons_of_mem _ hother)) _
        (by omega)]
      rfl

lemma exists_toList_intercalate (separator first : String) (rest : List String) :
    ∃ tail, (String.intercalate separator (first :: rest)).toList = first.toList ++ tail := by
  cases rest with
  | nil => exact ⟨[], by rw [String.intercalate_singleton, List.append_nil]⟩
  | cons next rest =>
    refine ⟨separator.toList ++ (String.intercalate separator (next :: rest)).toList, ?_⟩
    rw [String.intercalate_cons_cons, String.toList_append, String.toList_append,
      List.append_assoc]

lemma readsBack_list {items : List Json} (hitems : ∀ item ∈ items, ReadsBack item) :
    ReadsBack (list items) := by
  have hopen : "[".toList = ['['] := by decide
  have hclose : "]".toList = [']'] := by decide
  have htext : (list items).compact.toList =
      '[' :: ((String.intercalate "," (compactItems items)).toList ++ [']']) := by
    rw [compact, String.toList_append, String.toList_append, hopen, hclose]
    rfl
  constructor
  · exact ⟨'[', _, htext, by decide, by decide⟩
  · intro fuel rest hfuel hrest
    rw [htext] at hfuel ⊢
    rw [List.cons_append, List.append_assoc, List.singleton_append, readValue,
      skipSpaces_cons (by decide)]
    simp only [List.length_cons, List.length_append, List.length_nil] at hfuel
    cases items with
    | nil => rfl
    | cons item items =>
      have hread := readItems_compactItems (by simp) hitems fuel rest (by omega)
      obtain ⟨c, after, hchars, hspace, hbracket⟩ := (hitems item List.mem_cons_self).head
      obtain ⟨tail, htail⟩ :=
        exists_toList_intercalate "," item.compact (compactItems items)
      rw [← compactItems, hchars, List.cons_append] at htail
      rw [htail] at hread ⊢
      simp only [List.cons_append, skipSpaces_cons hspace]
      -- the list does not end before its first item
      split
      · next heq => exact absurd (List.cons.inj heq).1 hbracket
      · rw [← List.cons_append, hread]
        rfl

/-- The text of a field is its name and, behind a colon, its value. -/
lemma readText_field (name : String) (value : Json) (rest : List Char) :
    ∃ body, (quote name ++ ":" ++ value.compact).toList ++ rest = '"' :: body ∧
      readText body = some (some name, ':' :: (value.compact.toList ++ rest)) := by
  have hcolon : ":".toList = [':'] := by decide
  rw [String.toList_append, String.toList_append, hcolon, List.append_assoc, List.append_assoc]
  exact readText_quote name _

/-- The text of one or more fields, up to the brace behind them, is read back field by field. -/
lemma readFields_compactFields {fields : List (String × Json)} (hne : fields ≠ [])
    (hfields : ∀ field ∈ fields, ReadsBack field.2) (fuel : Nat) (rest : List Char)
    (hfuel : 2 * (String.intercalate "," (compactFields fields)).toList.length + 2 ≤ fuel) :
    readFields fuel ((String.intercalate "," (compactFields fields)).toList ++ '\x7d' :: rest) =
      some (some fields, rest) := by
  induction fields generalizing fuel with
  | nil => contradiction
  | cons field fields ih =>
    obtain ⟨fuel, rfl⟩ : ∃ less, fuel = less + 2 := ⟨fuel - 2, by omega⟩
    obtain ⟨name, value⟩ := field
    have hvalue : ReadsBack value := hfields (name, value) List.mem_cons_self
    have hlength : value.compact.toList.length ≤
        (quote name ++ ":" ++ value.compact).toList.length := by
      rw [String.toList_append, List.length_append]
      omega
    cases fields with
    | nil =>
      rw [compactFields, compactFields, String.intercalate_singleton] at hfuel ⊢
      have hbrace : Delimits ('\x7d' :: rest) := by
        rintro c ⟨⟩
        decide
      have hread : readValue (fuel + 1) (value.compact.toList ++ '\x7d' :: rest) =
          some (value, '\x7d' :: rest) := hvalue.read (by omega) hbrace
      obtain ⟨body, hbody, hname⟩ := readText_field name value ('\x7d' :: rest)
      rw [hbody, readFields, skipSpaces_cons (by decide)]
      simp only [hname, hread, Option.bind_eq_bind, Option.bind_some,
        skipSpaces_cons (c := ':') (by decide), skipSpaces_cons (c := '\x7d') (by decide)]
      rfl
    | cons next fields =>
      obtain ⟨nextName, nextValue⟩ := next
      have hcomma : ",".toList = [','] := by decide
      rw [compactFields, compactFields, String.intercalate_cons_cons, ← compactFields,
        String.toList_append, String.toList_append, hcomma] at hfuel ⊢
      simp only [List.length_append, List.length_singleton] at hfuel
      rw [List.append_assoc, List.append_assoc, List.singleton_append]
      have hrest := ih (by simp) (fun other hother => hfields other (List.mem_cons_of_mem _ hother))
        (fuel + 1) (by omega)
      generalize
        (String.intercalate "," (compactFields ((nextName, nextValue) :: fields))).toList ++
          '\x7d' :: rest = after at hrest ⊢
      have hread : readValue (fuel + 1) (value.compact.toList ++ ',' :: after) =
          some (value, ',' :: after) := hvalue.read (by omega) (delimits_comma after)
      obtain ⟨body, hbody, hname⟩ := readText_field name value (',' :: after)
      rw [hbody, readFields, skipSpaces_cons (by decide)]
      simp only [hname, hread, hrest, Option.bind_eq_bind, Option.bind_some,
        skipSpaces_cons (c := ':') (by decide), skipSpaces_cons (c := ',') (by decide)]
      rfl

lemma readsBack_object {fields : List (String × Json)} (hfields : ∀ field ∈ fields,
    ReadsBack field.2) : ReadsBack (object fields) := by
  have hopen : "\x7b".toList = ['\x7b'] := by decide
  have hclose : "\x7d".toList = ['\x7d'] := by decide
  have htext : (object fields).compact.toList =
      '\x7b' :: ((String.intercalate "," (compactFields fields)).toList ++ ['\x7d']) := by
    rw [compact, String.toList_append, String.toList_append, hopen, hclose]
    rfl
  constructor
  · exact ⟨'\x7b', _, htext, by decide, by decide⟩
  · intro fuel rest hfuel hrest
    rw [htext] at hfuel ⊢
    rw [List.cons_append, List.append_assoc, List.singleton_append, readValue,
      skipSpaces_cons (by decide)]
    simp only [List.length_cons, List.length_append, List.length_nil] at hfuel
    cases fields with
    | nil => rfl
    | cons field fields =>
      have hread := readFields_compactFields (by simp) hfields fuel rest (by omega)
      obtain ⟨name, value⟩ := field
      obtain ⟨tail, htail⟩ := exists_toList_intercalate ","
        (quote name ++ ":" ++ value.compact) (compactFields fields)
      obtain ⟨body, hbody, -⟩ := readText_field name value tail
      rw [← compactFields, hbody] at htail
      rw [htail] at hread ⊢
      simp only [List.cons_append, skipSpaces_cons (c := '"') (by decide)]
      split
      · next heq => exact absurd (List.cons.inj heq).1 (by decide)
      · rw [← List.cons_append, hread]
        rfl

lemma readsBack_of_plain {depth : Nat} {document : Json} (h : Plain depth document) :
    ReadsBack document := by
  induction h with
  | null => exact readsBack_null
  | bool value => exact readsBack_bool value
  | integer h => exact readsBack_integer h
  | string value => exact readsBack_string value
  | list _ ih => exact readsBack_list ih
  | object _ ih => exact readsBack_object ih

/-- A plain document is what its own text says. -/
theorem parse?_compact {depth : Nat} {document : Json} (h : Plain depth document) :
    parse? document.compact = some document := by
  have hread : readValue (2 * document.compact.toList.length + 1 + 1)
      (document.compact.toList ++ []) = some (document, []) :=
    (readsBack_of_plain h).read (by omega) (by simp [Delimits])
  rw [List.append_nil] at hread
  rw [parse?]
  simp only [hread, Option.bind_eq_bind, Option.bind_some]
  rfl

end BinaryFacts.Json
