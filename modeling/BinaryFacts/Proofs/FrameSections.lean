import BinaryFacts.Proofs.FrameRecords

/-!
# Exception-frame sections

A section of well-formed records, one behind the other, is read back record by record. Behind the
last record there may be a length of zero and anything after it.
-/

namespace BinaryFacts.ExceptionFrame

variable (frame : ExceptionFrame)

/-- The bytes of records, the first of them at a place. -/
def serialize (offset : Nat) : List Record → List UInt8
  | [] => []
  | record :: records =>
    record.bytes frame offset ++ serialize (offset + (record.bytes frame offset).length) records

def entries (offset : Nat) : List Record → List Entry
  | [] => []
  | record :: records =>
    record.entry offset :: entries (offset + (record.bytes frame offset).length) records

/-- Whether records can be written from a place on, behind the common entries `known`. -/
def WellFormed (known : List CommonEntry) (offset : Nat) : List Record → Prop
  | [] => True
  | record :: records =>
    record.WellFormed frame known offset ∧
      WellFormed (learn known (record.entry offset))
        (offset + (record.bytes frame offset).length) records

/-- Whether no record follows: too few bytes for a length, or a length of zero. -/
def Ends (rest : List UInt8) : Prop :=
  rest.length < 4 ∨ [0, 0, 0, 0] <+: rest

variable {frame} {known : List CommonEntry} {offset : Nat}

lemma KnownBefore.learn {record : Record} (h : KnownBefore known offset) :
    KnownBefore (learn known (record.entry offset))
      (offset + (record.bytes frame offset).length) := by
  have hpos : 0 < (record.bytes frame offset).length := by
    rw [Record.bytes, List.length_append, Endian.length_bytes]
    omega
  cases record with
  | common record =>
    constructor
    · apply List.pairwise_append.mpr
      refine ⟨h.ascending, List.pairwise_singleton .., ?_⟩
      intro entry hentry last hlast
      rw [List.mem_singleton.mp hlast, record.entry_offset]
      exact h.before entry hentry
    · intro entry hentry
      rcases List.mem_append.mp hentry with hold | hlast
      · have := h.before entry hold
        omega
      · rw [List.mem_singleton.mp hlast, record.entry_offset]
        omega
  | frame record =>
    constructor
    · exact h.ascending
    · intro entry hentry
      have := h.before entry hentry
      omega

lemma record_of_ends {rest : List UInt8} (h : Ends rest) :
    frame.record known ⟨offset, rest⟩ = none := by
  unfold record
  rcases h with hshort | ⟨after, rfl⟩
  · have hread : (frame.unsigned 4).run ⟨offset, rest⟩ = none := by
      show (Reader.take 4 ⟨offset, rest⟩).bind _ = none
      unfold Reader.take
      rw [if_neg (by dsimp only; omega)]
      rfl
    rw [hread]
    rfl
  · have hzero : frame.order.bytes 4 0 = [0, 0, 0, 0] := by
      cases frame.order <;> rfl
    rw [← hzero, frame.reads_short offset (by decide) after, Option.bind_eq_bind,
      Option.bind_some]
    rfl

lemma recordsFrom_serialize {records : List Record} (hknown : KnownBefore known offset)
    (h : WellFormed frame known offset records) {rest : List UInt8} (hrest : Ends rest)
    {fuel : Nat} (hfuel : records.length ≤ fuel) :
    frame.recordsFrom fuel known ⟨offset, serialize frame offset records ++ rest⟩ =
      entries frame offset records := by
  -- `KnownBefore` carries the induction: with it a place determines its common entry
  induction records generalizing known offset fuel with
  | nil =>
    cases fuel with
    | zero => rfl
    | succ fuel =>
      rw [recordsFrom, serialize, List.nil_append, record_of_ends hrest]
      rfl
  | cons record records ih =>
    obtain ⟨hrecord, hrecords⟩ := h
    cases fuel with
    | zero => exact absurd hfuel (by simp)
    | succ fuel =>
      rw [recordsFrom, serialize, List.append_assoc, Record.record_bytes hknown hrecord]
      dsimp only
      rw [ih hknown.learn hrecords (by simpa using hfuel)]
      rfl

lemma length_le_length_serialize (offset : Nat) (records : List Record) :
    records.length ≤ (serialize frame offset records).length := by
  induction records generalizing offset with
  | nil => exact Nat.zero_le _
  | cons record records ih =>
    have hlater := ih (offset + (record.bytes frame offset).length)
    rw [serialize, List.length_append, List.length_cons, Record.bytes, List.length_append,
      Endian.length_bytes]
    rw [Record.bytes, List.length_append, Endian.length_bytes] at hlater
    omega

/-- Reading undoes writing: the section gives the entries of its records in their order. -/
theorem records_serialize (frame : ExceptionFrame) (records : List Record)
    (h : WellFormed frame [] 0 records) (rest : List UInt8) (hrest : Ends rest) :
    frame.records (serialize frame 0 records ++ rest) = entries frame 0 records := by
  have hknown : KnownBefore [] 0 := ⟨List.Pairwise.nil, fun _ hentry => absurd hentry (by simp)⟩
  apply recordsFrom_serialize hknown h hrest
  rw [List.length_append]
  exact (length_le_length_serialize 0 records).trans (Nat.le_add_right _ _)

/-- A common record with a personality and two frame records before and behind a second common
record, in big-endian order with pointers of four bytes. -/
theorem records_serialize_two_common :
    let frame : ExceptionFrame := ⟨0x1000, .big, 4⟩
    let near : PointerEncoding := ⟨.sdata4, true, false⟩
    let first : CommonRecord :=
      { version := 1
        augmentation := .sized { value := 7 }
          [.personality ⟨.sdata4, true, true⟩ 0 0x100, .dataEncoding 0x1b, .frameEncoding near.byte]
        codeAlignment := { value := 1 }
        dataAlignment := { value := -8 }
        returnRegister := .byte rfl 16 }
    let second : CommonRecord :=
      { version := 3
        augmentation := .unsized [0x65, 0x68] (by decide) (by decide)
        codeAlignment := { value := 200, more := 1 }
        dataAlignment := { value := 4, more := 2 }
        returnRegister := .number (by decide) { value := 30 }
        trailing := [0, 0] }
    let records : List Record :=
      [.common first, .frame { commonAt := 0, encoding := near, start := 0x800, size := 0x40 },
        .common second, .frame
          { commonAt := 41, encoding := ⟨.native, false, false⟩, start := 0x2000, size := 0x10
            trailing := [0] }]
    WellFormed frame [] 0 records ∧ Ends [0, 0, 0, 0, 7] ∧
      frame.records (serialize frame 0 records ++ [0, 0, 0, 0, 7]) =
        [.common ⟨0, 0x1b, 0x1b⟩, .frame 0x800 0x840, .common ⟨41, 0, 0xff⟩,
          .frame 0x2000 0x2010] := by
  intro frame near first second records
  have h : WellFormed frame [] 0 records := by
    refine ⟨⟨by decide, ?_⟩, ⟨by decide, ?_⟩, ⟨by decide, ?_⟩, ⟨by decide, ?_⟩, trivial⟩
    · have hpersonality : PointerFormat.sdata4.Fits frame 0 0x100 := by decide
      exact List.forall_mem_cons.mpr ⟨hpersonality, List.forall_mem_cons.mpr ⟨trivial,
        List.forall_mem_cons.mpr ⟨trivial, List.forall_mem_nil _⟩⟩⟩
    · exact ⟨⟨_, List.mem_cons_self, rfl, rfl⟩, by decide, by decide, by decide⟩
    · exact List.forall_mem_nil _
    · exact ⟨⟨_, List.mem_cons_of_mem _ List.mem_cons_self, rfl, rfl⟩, by decide, by decide,
        by decide⟩
  have hrest : Ends [0, 0, 0, 0, 7] := Or.inr (by decide)
  exact ⟨h, hrest, records_serialize frame records h _ hrest⟩

end BinaryFacts.ExceptionFrame
