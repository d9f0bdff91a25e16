import Mathlib.Tactic.Lemma

/-!
# Newcomers

Lists that take no item twice. Of the items on offer those join that are not there yet, each where
it is first offered.
-/

namespace BinaryFacts

variable {α : Type} [DecidableEq α]

/-- The items that are not in a list, each once, where it first occurs. -/
def newcomers (old items : List α) : List α := (items.removeAll old).eraseDups

lemma newcomers_nil (old : List α) : newcomers old [] = [] := rfl

lemma newcomers_nil_left (items : List α) : newcomers [] items = items.eraseDups :=
  congrArg List.eraseDups (List.filter_eq_self.mpr fun _ _ => rfl)

lemma newcomers_cons_of_mem {old : List α} {item : α} (h : item ∈ old) (items : List α) :
    newcomers old (item :: items) = newcomers old items := by
  unfold newcomers
  rw [List.cons_removeAll, if_neg (by simpa using h)]

lemma newcomers_cons_of_notMem {old : List α} {item : α} (h : item ∉ old) (items : List α) :
    newcomers old (item :: items) = item :: newcomers (old ++ [item]) items := by
  unfold newcomers
  rw [List.cons_removeAll, if_pos (by simpa using h), List.eraseDups_cons]
  -- whether repeats go before or after the old items makes no difference
  have hfilter : (items.removeAll old).filter (fun other => !other == item) =
      items.removeAll (old ++ [item]) := by
    unfold List.removeAll
    rw [List.filter_filter]
    apply List.filter_congr
    intro other _
    rw [Bool.eq_iff_iff]
    simp [and_comm]
  rw [hfilter]

lemma mem_newcomers {old items : List α} {item : α} :
    item ∈ newcomers old items ↔ item ∈ items ∧ item ∉ old := by
  simp [newcomers, List.removeAll]

lemma mem_append_newcomers {old items : List α} {item : α} :
    item ∈ old ++ newcomers old items ↔ item ∈ old ∨ item ∈ items := by
  rw [List.mem_append, mem_newcomers]
  by_cases h : item ∈ old <;> simp [h]

lemma nodup_newcomers (old items : List α) : (newcomers old items).Nodup := by
  induction items generalizing old with
  | nil => exact List.nodup_nil
  | cons item items ih =>
    by_cases hitem : item ∈ old
    · rw [newcomers_cons_of_mem hitem]
      exact ih old
    · rw [newcomers_cons_of_notMem hitem]
      refine List.nodup_cons.mpr ⟨?_, ih _⟩
      intro hlater
      exact (mem_newcomers.mp hlater).2 (List.mem_append_right old (List.mem_singleton_self item))

/-- If a state lists what it takes, and takes an item at the end of its list unless it is there,
then of all items offered in turn the newcomers join. -/
lemma foldl_take_newcomers {σ : Type} (listed : σ → List α) {take : σ → α → σ}
    (h : ∀ state item, listed (take state item) =
      if item ∈ listed state then listed state else listed state ++ [item])
    (items : List α) (state : σ) :
    listed (items.foldl take state) = listed state ++ newcomers (listed state) items := by
  induction items generalizing state with
  | nil => rw [newcomers_nil, List.append_nil, List.foldl_nil]
  | cons item items ih =>
    rw [List.foldl_cons, ih, h]
    by_cases hitem : item ∈ listed state
    · rw [if_pos hitem, newcomers_cons_of_mem hitem]
    · rw [if_neg hitem, newcomers_cons_of_notMem hitem, List.append_assoc, List.singleton_append]

end BinaryFacts
