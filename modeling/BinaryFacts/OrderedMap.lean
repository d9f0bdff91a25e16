/-!
# Ordered maps

Finite maps kept in ascending key order. The order of the keys is part of the value, so two maps
that answer every look-up alike are equal (`OrderedMap.ext_get?`).
-/

namespace BinaryFacts

universe u v

/-- A type whose elements stand in one strict order, decided by `precedes`. -/
class OrderedKey (κ : Type u) where
  precedes : κ → κ → Bool
  precedes_irrefl : ∀ a, precedes a a = false
  precedes_trans : ∀ {a b c}, precedes a b = true → precedes b c = true → precedes a c = true
  eq_of_not_precedes : ∀ {a b}, precedes a b = false → precedes b a = false → a = b

namespace OrderedKey

variable {κ : Type u} [OrderedKey κ]

theorem ne_of_precedes {a b : κ} (h : precedes a b = true) : a ≠ b := by
  intro hab
  subst hab
  simp [precedes_irrefl] at h

theorem asymm {a b : κ} (h : precedes a b = true) : precedes b a = false := by
  cases hb : precedes b a with
  | false => rfl
  | true => exact absurd (precedes_trans h hb) (by simp [precedes_irrefl])

/-- An order read off an injective numbering. -/
@[reducible]
def ofRank (rank : κ → Nat) (rank_inj : ∀ {a b}, rank a = rank b → a = b) : OrderedKey κ where
  precedes a b := decide (rank a < rank b)
  precedes_irrefl a := by simp
  precedes_trans hab hbc := by
    simp only [decide_eq_true_eq] at *
    omega
  eq_of_not_precedes hab hba := by
    simp only [decide_eq_false_iff_not] at hab hba
    exact rank_inj (by omega)

/-- Dictionary order of character lists, by code point. -/
def charsPrecede : List Char → List Char → Bool
  | _, [] => false
  | [], _ :: _ => true
  | a :: as, b :: bs => decide (a.toNat < b.toNat) || (a.toNat == b.toNat && charsPrecede as bs)

theorem charsPrecede_irrefl (s : List Char) : charsPrecede s s = false := by
  induction s with
  | nil => rfl
  | cons a as ih => simp [charsPrecede, ih]

theorem charsPrecede_trans {s t r : List Char} (hst : charsPrecede s t = true)
    (htr : charsPrecede t r = true) : charsPrecede s r = true := by
  induction s generalizing t r with
  | nil =>
    cases t with
    | nil => simp [charsPrecede] at hst
    | cons b bs => cases r with
      | nil => simp [charsPrecede] at htr
      | cons c cs => rfl
  | cons a as ih =>
    cases t with
    | nil => simp [charsPrecede] at hst
    | cons b bs => cases r with
      | nil => simp [charsPrecede] at htr
      | cons c cs =>
        simp only [charsPrecede, Bool.or_eq_true, decide_eq_true_eq, Bool.and_eq_true,
          beq_iff_eq] at *
        rcases hst with h | ⟨h, hs⟩ <;> rcases htr with h' | ⟨h', hr⟩
        · left; omega
        · left; omega
        · left; omega
        · right; exact ⟨by omega, ih hs hr⟩

theorem eq_of_not_charsPrecede {s t : List Char} (hst : charsPrecede s t = false)
    (hts : charsPrecede t s = false) : s = t := by
  induction s generalizing t with
  | nil => cases t with
    | nil => rfl
    | cons b bs => simp [charsPrecede] at hst
  | cons a as ih => cases t with
    | nil => simp [charsPrecede] at hts
    | cons b bs =>
      simp only [charsPrecede, Bool.or_eq_false_iff, decide_eq_false_iff_not,
        Bool.and_eq_false_iff, beq_eq_false_iff_ne] at hst hts
      have hab : a.toNat = b.toNat := by omega
      have hs : charsPrecede as bs = false := hst.2.resolve_left (fun h => h hab)
      have ht : charsPrecede bs as = false := hts.2.resolve_left (fun h => h hab.symm)
      rw [Char.toNat_inj.mp hab, ih hs ht]

instance instString : OrderedKey String where
  precedes a b := charsPrecede a.toList b.toList
  precedes_irrefl a := charsPrecede_irrefl a.toList
  precedes_trans hab hbc := charsPrecede_trans hab hbc
  eq_of_not_precedes hab hba := String.toList_inj.mp (eq_of_not_charsPrecede hab hba)

instance instUInt64 : OrderedKey UInt64 :=
  ofRank UInt64.toNat UInt64.toNat_inj.mp

end OrderedKey

open OrderedKey

/-- Entries in strictly ascending key order. -/
structure OrderedMap (κ : Type u) (ν : Type v) [OrderedKey κ] where
  entries : List (κ × ν) := []
  ascending : entries.Pairwise (fun a b => precedes a.1 b.1 = true) := by exact .nil

namespace OrderedMap

variable {κ : Type u} {ν : Type v} [OrderedKey κ]

@[ext]
theorem ext {m n : OrderedMap κ ν} (h : m.entries = n.entries) : m = n := by
  cases m
  cases n
  simp_all

def empty : OrderedMap κ ν := {}

instance : Inhabited (OrderedMap κ ν) := ⟨empty⟩

instance [DecidableEq κ] [DecidableEq ν] : DecidableEq (OrderedMap κ ν) := fun m n =>
  decidable_of_iff (m.entries = n.entries) ⟨ext, congrArg entries⟩

/-- The entry of `key` put in its place, instead of an entry of the same key. -/
def insertEntry (key : κ) (value : ν) : List (κ × ν) → List (κ × ν)
  | [] => [(key, value)]
  | entry :: rest =>
    if precedes key entry.1 then (key, value) :: entry :: rest
    else if precedes entry.1 key then entry :: insertEntry key value rest
    else (key, value) :: rest

theorem mem_insertEntry {key : κ} {value : ν} {entry : κ × ν} {entries : List (κ × ν)}
    (h : entry ∈ insertEntry key value entries) : entry = (key, value) ∨ entry ∈ entries := by
  induction entries with
  | nil => simpa [insertEntry] using h
  | cons first rest ih =>
    rw [insertEntry] at h
    split at h
    · simpa using h
    · split at h
      · rcases List.mem_cons.mp h with rfl | h
        · exact .inr List.mem_cons_self
        · exact (ih h).imp_right (List.mem_cons_of_mem _)
      · rcases List.mem_cons.mp h with rfl | h
        · exact .inl rfl
        · exact .inr (List.mem_cons_of_mem _ h)

theorem insertEntry_ascending (key : κ) (value : ν) {entries : List (κ × ν)}
    (h : entries.Pairwise (fun a b => precedes a.1 b.1 = true)) :
    (insertEntry key value entries).Pairwise (fun a b => precedes a.1 b.1 = true) := by
  induction entries with
  | nil => simp [insertEntry]
  | cons first rest ih =>
    obtain ⟨hfirst, hrest⟩ := List.pairwise_cons.mp h
    rw [insertEntry]
    split
    · next hkey =>
      refine List.pairwise_cons.mpr ⟨fun entry hentry => ?_, h⟩
      rcases List.mem_cons.mp hentry with rfl | hentry
      · exact hkey
      · exact precedes_trans hkey (hfirst entry hentry)
    · next hkey =>
      split
      · next hfk =>
        refine List.pairwise_cons.mpr ⟨fun entry hentry => ?_, ih hrest⟩
        rcases mem_insertEntry hentry with rfl | hentry
        · exact hfk
        · exact hfirst entry hentry
      · next hfk =>
        have heq : key = first.1 := eq_of_not_precedes (by simpa using hkey) (by simpa using hfk)
        exact List.pairwise_cons.mpr ⟨fun entry hentry => by
          simpa [heq] using hfirst entry hentry, hrest⟩

/-- Replaces the entry of `key` if there is one. -/
def insert (m : OrderedMap κ ν) (key : κ) (value : ν) : OrderedMap κ ν where
  entries := insertEntry key value m.entries
  ascending := insertEntry_ascending key value m.ascending

def ofList (entries : List (κ × ν)) : OrderedMap κ ν :=
  entries.foldl (fun m entry => m.insert entry.1 entry.2) empty

def keys (m : OrderedMap κ ν) : List κ := m.entries.map Prod.fst

def values (m : OrderedMap κ ν) : List ν := m.entries.map Prod.snd

def size (m : OrderedMap κ ν) : Nat := m.entries.length

variable [DecidableEq κ]

def get? (m : OrderedMap κ ν) (key : κ) : Option ν :=
  (m.entries.find? (fun entry => decide (entry.1 = key))).map Prod.snd

def contains (m : OrderedMap κ ν) (key : κ) : Bool := (m.get? key).isSome

def erase (m : OrderedMap κ ν) (key : κ) : OrderedMap κ ν where
  entries := m.entries.filter (fun entry => decide (entry.1 ≠ key))
  ascending := m.ascending.filter _

/-- Updates the value of `key`, starting from `initial` where there is none. -/
def alter (m : OrderedMap κ ν) (key : κ) (initial : ν) (f : ν → ν) : OrderedMap κ ν :=
  m.insert key (f ((m.get? key).getD initial))

@[simp]
theorem get?_empty (key : κ) : (empty : OrderedMap κ ν).get? key = none := rfl

theorem find?_insertEntry_self (key : κ) (value : ν) (entries : List (κ × ν)) :
    (insertEntry key value entries).find? (fun entry => decide (entry.1 = key)) =
      some (key, value) := by
  induction entries with
  | nil => simp [insertEntry]
  | cons first rest ih =>
    rw [insertEntry]
    split
    · simp
    · split
      · next hfk => simp [ne_of_precedes hfk, ih]
      · simp

theorem find?_insertEntry_of_ne {key other : κ} (h : other ≠ key) (value : ν)
    (entries : List (κ × ν)) :
    (insertEntry key value entries).find? (fun entry => decide (entry.1 = other)) =
      entries.find? (fun entry => decide (entry.1 = other)) := by
  induction entries with
  | nil => simp [insertEntry, h.symm]
  | cons first rest ih =>
    rw [insertEntry]
    split
    · simp [h.symm]
    · next hkey =>
      split
      · simp [List.find?_cons, ih]
      · next hfk =>
        have heq : key = first.1 := eq_of_not_precedes (by simpa using hkey) (by simpa using hfk)
        simp [← heq, h.symm]

@[simp]
theorem get?_insert_self (m : OrderedMap κ ν) (key : κ) (value : ν) :
    (m.insert key value).get? key = some value := by
  simp [get?, insert, find?_insertEntry_self]

theorem get?_insert_of_ne (m : OrderedMap κ ν) {key other : κ} (h : other ≠ key) (value : ν) :
    (m.insert key value).get? other = m.get? other := by
  simp [get?, insert, find?_insertEntry_of_ne h]

theorem get?_insert (m : OrderedMap κ ν) (key other : κ) (value : ν) :
    (m.insert key value).get? other = if other = key then some value else m.get? other := by
  split
  · next h => rw [h, get?_insert_self]
  · next h => exact get?_insert_of_ne m h value

@[simp]
theorem get?_erase (m : OrderedMap κ ν) (key other : κ) :
    (m.erase key).get? other = if other = key then none else m.get? other := by
  simp only [get?, erase, List.find?_filter]
  split
  · next h =>
    subst h
    rw [Option.map_eq_none_iff, List.find?_eq_none]
    simp
  · next h =>
    congr 2
    funext entry
    by_cases hentry : entry.1 = other <;> simp_all

theorem get?_eq_some_iff {m : OrderedMap κ ν} {key : κ} {value : ν} :
    m.get? key = some value ↔ (key, value) ∈ m.entries := by
  obtain ⟨entries, ascending⟩ := m
  simp only [get?]
  induction entries with
  | nil => simp
  | cons first rest ih =>
    obtain ⟨hfirst, hrest⟩ := List.pairwise_cons.mp ascending
    by_cases h : first.1 = key
    · subst h
      have hnot : (first.1, value) ∉ rest := fun hmem => by
        simpa [precedes_irrefl] using hfirst _ hmem
      simp [hnot, Prod.ext_iff, eq_comm]
    · have hne : (key, value) ≠ first := fun heq => h (by rw [← heq])
      simpa [List.find?_cons, h, hne] using ih hrest

theorem mem_keys_iff {m : OrderedMap κ ν} {key : κ} :
    key ∈ m.keys ↔ ∃ value, m.get? key = some value := by
  simp [keys, get?_eq_some_iff]

theorem mem_values_iff {m : OrderedMap κ ν} {value : ν} :
    value ∈ m.values ↔ ∃ key, m.get? key = some value := by
  simp [values, get?_eq_some_iff]

omit [DecidableEq κ] in
theorem keys_ascending (m : OrderedMap κ ν) : m.keys.Pairwise fun a b => precedes a b = true :=
  List.pairwise_map.mpr m.ascending

/-- Two maps with the same look-ups are the same map. -/
theorem ext_get? {m n : OrderedMap κ ν} (h : ∀ key, m.get? key = n.get? key) : m = n := by
  have hmem : ∀ entry, entry ∈ m.entries ↔ entry ∈ n.entries := fun entry => by
    rw [← get?_eq_some_iff (m := m), ← get?_eq_some_iff (m := n), h]
  apply OrderedMap.ext
  have hm := m.ascending
  have hn := n.ascending
  generalize m.entries = s at hmem hm
  generalize n.entries = t at hmem hn
  induction s generalizing t with
  | nil => cases t with
    | nil => rfl
    | cons b bs => exact absurd ((hmem b).mpr List.mem_cons_self) List.not_mem_nil
  | cons a as ih => cases t with
    | nil => exact absurd ((hmem a).mp List.mem_cons_self) List.not_mem_nil
    | cons b bs =>
      obtain ⟨ha, has⟩ := List.pairwise_cons.mp hm
      obtain ⟨hb, hbs⟩ := List.pairwise_cons.mp hn
      have hab : a = b := by
        rcases List.mem_cons.mp ((hmem a).mp List.mem_cons_self) with hab | hab
        · exact hab
        rcases List.mem_cons.mp ((hmem b).mpr List.mem_cons_self) with hba | hba
        · exact hba.symm
        have := asymm (ha b hba)
        simp [hb a hab] at this
      subst hab
      congr 1
      refine ih has bs (fun entry => ⟨fun he => ?_, fun he => ?_⟩) hbs
      · rcases List.mem_cons.mp ((hmem entry).mp (List.mem_cons_of_mem _ he)) with rfl | he'
        · exact absurd (ha entry he) (by simp [precedes_irrefl])
        · exact he'
      · rcases List.mem_cons.mp ((hmem entry).mpr (List.mem_cons_of_mem _ he)) with rfl | he'
        · exact absurd (hb entry he) (by simp [precedes_irrefl])
        · exact he'

end OrderedMap

/-- A finite set in ascending order. -/
abbrev OrderedSet (κ : Type u) [OrderedKey κ] := OrderedMap κ Unit

/-- Two sets with the same elements are the same set. -/
theorem OrderedSet.ext_contains {κ : Type u} [OrderedKey κ] [DecidableEq κ] {s t : OrderedSet κ}
    (h : ∀ key, s.contains key = t.contains key) : s = t := by
  apply OrderedMap.ext_get?
  intro key
  have hkey := h key
  unfold OrderedMap.contains at hkey
  cases hs : s.get? key <;> cases ht : t.get? key <;> simp_all

end BinaryFacts
