import BinaryFacts.OrderedMap
import Mathlib.Tactic.Lemma

/-!
# Latest items

Of the items of a list that share a key, the latest is the one that no other follows. Items put
into a map in turn, each at its key, leave the latest of each key there.
-/

namespace BinaryFacts

variable {α κ : Type}

/-- Whether an item stands in a list with no item of its key behind it. -/
def IsLatest (key : α → κ) (items : List α) (item : α) : Prop :=
  ∃ earlier later, items = earlier ++ item :: later ∧ ∀ other ∈ later, key other ≠ key item

lemma IsLatest.mem {key : α → κ} {items : List α} {item : α} (h : IsLatest key items item) :
    item ∈ items := by
  obtain ⟨earlier, later, rfl, -⟩ := h
  exact List.mem_append_right _ List.mem_cons_self

variable [DecidableEq κ]

lemma find?_reverse_eq_some_iff {key : α → κ} {items : List α} {k : κ} {item : α} :
    items.reverse.find? (fun other => decide (key other = k)) = some item ↔
      key item = k ∧ IsLatest key items item := by
  rw [List.find?_eq_some_iff_append, decide_eq_true_eq]
  refine and_congr_right fun hkey => ?_
  subst hkey
  constructor
  · rintro ⟨later, earlier, hsplit, hlater⟩
    refine ⟨earlier.reverse, later.reverse, ?_, fun other hother => ?_⟩
    · rw [← List.reverse_reverse items, hsplit]
      simp
    · simpa using hlater other (List.mem_reverse.mp hother)
  · rintro ⟨earlier, later, rfl, hlater⟩
    refine ⟨later.reverse, earlier.reverse, by simp, fun other hother => ?_⟩
    simpa using hlater other (List.mem_reverse.mp hother)

/-- Every key in a list has a latest item. -/
lemma exists_isLatest (key : α → κ) {items : List α} {item : α} (h : item ∈ items) :
    ∃ latest, key latest = key item ∧ IsLatest key items latest := by
  cases hfind : items.reverse.find? fun other => decide (key other = key item) with
  | some latest => exact ⟨latest, find?_reverse_eq_some_iff.mp hfind⟩
  | none =>
    have hnone := List.find?_eq_none.mp hfind item (List.mem_reverse.mpr h)
    simp at hnone

namespace OrderedMap

variable {ν : Type} [OrderedKey κ]

/-- Puts items into a map in turn, each with its value at its key. -/
def putEach (key : α → κ) (value : α → ν) (items : List α) (m : OrderedMap κ ν) :
    OrderedMap κ ν :=
  items.foldl (fun m item => m.insert (key item) (value item)) m

lemma get?_putEach (key : α → κ) (value : α → ν) (items : List α) (m : OrderedMap κ ν) (k : κ) :
    (putEach key value items m).get? k =
      ((items.reverse.find? fun item => decide (key item = k)).map value).or (m.get? k) := by
  induction items generalizing m with
  | nil => rfl
  | cons item rest ih =>
    change (putEach key value rest (m.insert (key item) (value item))).get? k = _
    rw [ih, get?_insert, List.reverse_cons, List.find?_append, List.find?_singleton]
    cases rest.reverse.find? fun item => decide (key item = k) with
    | some latest => rfl
    | none =>
      by_cases hkey : key item = k
      · simp [hkey]
      · simp [hkey, Ne.symm hkey]

variable {key : α → κ} {value : α → ν} {items : List α} {k : κ}

/-- A map that starts empty holds the latest item of each key. -/
theorem get?_putEach_empty_eq_some_iff {v : ν} :
    (putEach key value items .empty).get? k = some v ↔
      ∃ item, key item = k ∧ IsLatest key items item ∧ value item = v := by
  rw [get?_putEach, get?_empty, Option.or_none, Option.map_eq_some_iff]
  simp only [find?_reverse_eq_some_iff, and_assoc]

lemma mem_keys_putEach_empty :
    k ∈ (putEach key value items .empty).keys ↔ k ∈ items.map key := by
  rw [mem_keys_iff, List.mem_map]
  simp only [get?_putEach_empty_eq_some_iff]
  constructor
  · rintro ⟨v, item, hkey, hlatest, -⟩
    exact ⟨item, hlatest.mem, hkey⟩
  · rintro ⟨item, hitem, rfl⟩
    obtain ⟨latest, hkey, hlatest⟩ := exists_isLatest key hitem
    exact ⟨_, latest, hkey, hlatest, rfl⟩

end OrderedMap

end BinaryFacts
