import BinaryFacts.ExceptionFrame.Record
import BinaryFacts.Proofs.PointerFields
import Mathlib.Data.List.TakeWhile

/-!
# Readers and the bytes they take

A reader that finds a value finds it in the bytes that it takes, whatever follows them. So it finds
the same value where the section goes on, and a record that can be read in the beginning of a
section is read alike in the whole section.
-/

namespace BinaryFacts

namespace ExceptionFrame

namespace Reader

variable {α β : Type}

/-- Whether what the reader finds is in the bytes that it takes, whatever follows them. -/
def Local (reader : Reader α) : Prop :=
  ∀ ⦃cursor after : Cursor⦄ ⦃value : α⦄, reader.run cursor = some (value, after) →
    ∃ taken, cursor.rest = taken ++ after.rest ∧ reader.Reads cursor.offset taken value

lemma Reads.offset_eq {reader : Reader α} {cursor after : Cursor} {taken : List UInt8} {value : α}
    (h : reader.Reads cursor.offset taken value) (hrest : cursor.rest = taken ++ after.rest)
    (hrun : reader.run cursor = some (value, after)) :
    after.offset = cursor.offset + taken.length := by
  have hread := h after.rest
  rw [← hrest] at hread
  have hsame : some (value, after) = some (value, ⟨cursor.offset + taken.length, after.rest⟩) :=
    hrun.symm.trans hread
  injection hsame with hpair
  injection hpair with _ hafter
  rw [hafter]

lemma Local.pure (value : α) : (Pure.pure value : Reader α).Local := by
  intro cursor after found h
  cases h
  exact ⟨[], rfl, Reads.pure _ _⟩

lemma Local.failure : (failure : Reader α).Local := by
  intro cursor after value h
  cases h

lemma Local.bind {first : Reader α} {next : α → Reader β} (hfirst : first.Local)
    (hnext : ∀ value, (next value).Local) : (first >>= next).Local := by
  intro cursor after result h
  rw [StateT.run_bind, Option.bind_eq_bind] at h
  obtain ⟨⟨value, between⟩, hvalue, hresult⟩ := Option.bind_eq_some_iff.mp h
  obtain ⟨before, hbefore, hreads⟩ := hfirst hvalue
  obtain ⟨behind, hbehind, hreads'⟩ := hnext value hresult
  refine ⟨before ++ behind, ?_, ?_⟩
  · rw [hbefore, hbehind, List.append_assoc]
  · rw [hreads.offset_eq hbefore hvalue] at hreads'
    exact hreads.bind hreads'

lemma Local.map {reader : Reader α} (h : reader.Local) (compute : α → β) :
    (compute <$> reader).Local := by
  rw [← bind_pure_comp]
  exact h.bind fun value => .pure (compute value)

/-- Only the place may be taken from the cursor, which also holds the rest of the section. -/
lemma Local.get_offset {next : Cursor → Reader β} (h : ∀ cursor, (next cursor).Local)
    (hoffset : ∀ first second, first.offset = second.offset → next first = next second) :
    (get >>= next : Reader β).Local := by
  intro cursor after result hrun
  obtain ⟨taken, hrest, hreads⟩ := h cursor hrun
  refine ⟨taken, hrest, fun rest => ?_⟩
  have hnext := hoffset ⟨cursor.offset, taken ++ rest⟩ cursor rfl
  have hstep := hreads rest
  rw [← hnext] at hstep
  exact hstep

lemma local_take (count : Nat) : (take count).Local := by
  intro cursor after value h
  change take count cursor = _ at h
  unfold take at h
  by_cases hcount : count ≤ cursor.rest.length
  · rw [if_pos hcount] at h
    cases h
    have hlength : (cursor.rest.take count).length = count := List.length_take_of_le hcount
    have hreads := reads_take cursor.offset (cursor.rest.take count)
    rw [hlength] at hreads
    exact ⟨_, (List.take_append_drop count cursor.rest).symm, hreads⟩
  · rw [if_neg hcount] at h
    cases h

lemma local_byte : byte.Local := by
  rintro ⟨offset, bytes⟩ after value h
  cases bytes with
  | nil => cases h
  | cons first rest =>
    cases h
    exact ⟨[value], rfl, reads_byte offset value⟩

lemma local_loop {ω : Type} (enter finish : ω → UInt32 → UInt8 → ω) (number : ω)
    (shift : UInt32) :
    Local fun cursor => Leb128.loop enter finish number shift cursor.offset cursor.rest := by
  intro cursor after value h
  change Leb128.loop .. = _ at h
  obtain ⟨more, last, hrest, hmore, hlast⟩ := Leb128.exists_of_loop h
  refine ⟨more ++ [last], by rw [hrest, List.append_assoc, List.singleton_append], fun rest => ?_⟩
  rw [hrest, Leb128.loop_digits _ _ _ _ _ hmore hlast] at h
  obtain ⟨rfl, -⟩ := Prod.mk.inj (Option.some.inj h)
  change Leb128.loop .. = _
  rw [List.append_assoc, List.singleton_append, Leb128.loop_digits _ _ _ _ _ hmore hlast,
    List.length_append]
  rfl

lemma local_readUnsigned : Leb128.readUnsigned.Local := local_loop ..

lemma local_readSigned : Leb128.readSigned.Local := local_loop ..

lemma local_terminated : terminated.Local := by
  intro cursor after value h
  change terminated cursor = _ at h
  unfold terminated at h
  dsimp only at h
  cases hrest : cursor.rest.dropWhile (· != 0) with
  | nil =>
    rw [hrest] at h
    cases h
  | cons last rest =>
    rw [hrest] at h
    cases h
    have hlast := List.head?_dropWhile_not (· != 0) cursor.rest
    rw [hrest] at hlast
    have hzero : last = 0 := by simpa using hlast
    have htext : 0 ∉ cursor.rest.takeWhile (· != 0) := by
      intro hmem
      exact absurd (List.mem_takeWhile_imp hmem) (by decide)
    refine ⟨_, ?_, reads_terminated cursor.offset htext⟩
    subst hzero
    rw [List.append_assoc, List.singleton_append, ← hrest, List.takeWhile_append_dropWhile]

end Reader

variable (frame : ExceptionFrame)

lemma local_unsigned (size : Nat) : (frame.unsigned size).Local :=
  (Reader.local_take size).bind fun _ => .pure _

lemma local_signed (size : Nat) : (frame.signed size).Local :=
  (frame.local_unsigned size).bind fun _ => .pure _

lemma local_field (encoding : UInt8) : (frame.field encoding).Local := by
  unfold field
  split
  · exact frame.local_unsigned _
  · exact Reader.local_readUnsigned
  · exact frame.local_unsigned _
  · exact frame.local_unsigned _
  · exact frame.local_unsigned _
  · exact Reader.local_readSigned.bind fun _ => .pure _
  · exact frame.local_signed _
  · exact frame.local_signed _
  · exact frame.local_unsigned _
  · exact .failure

lemma local_pointer (encoding : UInt8) : (frame.pointer encoding).Local := by
  unfold pointer
  by_cases homitted : encoding = omitted
  · rw [if_pos homitted]
    intro cursor after value h
    cases h
  · rw [if_neg homitted]
    apply Reader.Local.get_offset
    · intro cursor
      refine (frame.local_field encoding).bind fun value => ?_
      split
      · exact .pure _
      · exact .pure _
      · exact .failure
    · intro first second hoffset
      rw [hoffset]

lemma local_augmentation (letters : List UInt8) (entry : CommonEntry) :
    (frame.augmentation entry letters).Local := by
  induction letters generalizing entry with
  | nil => exact .pure entry
  | cons letter letters ih =>
    rw [augmentation]
    split
    · exact Reader.local_byte.bind fun _ => ih _
    split
    · exact Reader.local_byte.bind fun _ => ih _
    split
    · exact Reader.local_byte.bind fun _ => (frame.local_pointer _).bind fun _ => ih _
    split
    · exact ih entry
    · exact .pure entry

lemma local_returnRegister (version : UInt8) : (returnRegister version).Local := by
  unfold returnRegister
  split
  · exact Reader.local_byte.map _
  · exact Reader.local_readUnsigned.map _

lemma local_commonEntry (offset : Nat) : (frame.commonEntry offset).Local := by
  refine Reader.local_byte.bind fun version => Reader.local_terminated.bind fun letters => ?_
  refine Reader.local_readUnsigned.bind fun _ => Reader.local_readSigned.bind fun _ => ?_
  refine (local_returnRegister version).bind fun _ => ?_
  split
  · exact .pure _
  · split
    · exact Reader.local_readUnsigned.bind fun _ => frame.local_augmentation _ _
    · exact .pure _

lemma local_frameEntry (known : List CommonEntry) (body : Nat) (distance : UInt64) :
    (frame.frameEntry known body distance).Local := by
  unfold frameEntry
  by_cases hbefore : body < distance.toNat
  · rw [if_pos hbefore]
    intro cursor after value h
    cases h
  · rw [if_neg hbefore]
    split
    · exact .failure
    · refine (frame.local_pointer _).bind fun start => ?_
      exact (frame.local_pointer _).bind fun size => .pure _

end ExceptionFrame

end BinaryFacts
