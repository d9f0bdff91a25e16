import BinaryFacts.Proofs.CheckedWalk

/-!
# The bounds of a walk

What a walk over an exception-frame section finds is bounded by the section: records take five bytes
or more and give one row each. Where sums are checked, the walk can be stopped by the count of bits
of a number, and by nothing else. Common entries stand at ascending places, and a range of code is
read by the encoding of the common entry before it to which the distance in its record leads back.
-/

namespace BinaryFacts.ExceptionFrame

variable {frame : ExceptionFrame} {known : List CommonEntry} {cursor : Cursor}

/-! ### Places -/

namespace Reader

variable {α β : Type}

/-- Whether all values that a reader may find have a property. -/
def Yields (reader : Reader α) (property : α → Prop) : Prop :=
  ∀ ⦃cursor after : Cursor⦄ ⦃value : α⦄, reader.run cursor = some (value, after) → property value

lemma Yields.pure {value : α} {property : α → Prop} (h : property value) :
    (Pure.pure value : Reader α).Yields property := by
  intro cursor after found hrun
  cases hrun
  exact h

lemma Yields.bind {first : Reader α} {next : α → Reader β} {property : β → Prop}
    (h : ∀ value, (next value).Yields property) : (first >>= next).Yields property := by
  intro cursor after result hrun
  rw [StateT.run_bind] at hrun
  obtain ⟨⟨value, between⟩, -, hresult⟩ := Option.bind_eq_some_iff.mp hrun
  exact h value hresult

end Reader

/-- The announced data change the encodings of a common entry and never its place. -/
lemma offset_of_augmentation (letters : List UInt8) (entry : CommonEntry) :
    (frame.augmentation entry letters).Yields (·.offset = entry.offset) := by
  induction letters generalizing entry with
  | nil => exact .pure rfl
  | cons letter letters ih =>
    rw [augmentation]
    split
    · exact .bind fun _ => ih _
    split
    · exact .bind fun _ => ih _
    split
    · exact .bind fun _ => .bind fun _ => ih entry
    split
    · exact ih entry
    · exact .pure rfl

lemma offset_of_commonEntry (offset : Nat) :
    (frame.commonEntry offset).Yields (·.offset = offset) := by
  refine .bind fun _ => .bind fun letters => .bind fun _ => .bind fun _ => .bind fun _ => ?_
  split
  · exact .pure rfl
  · split
    · exact .bind fun _ => offset_of_augmentation _ _
    · exact .pure rfl

/-- A common entry knows the place of its record. -/
lemma offset_of_record {next : Cursor} {common : CommonEntry}
    (h : frame.record known cursor = some (.common common, next)) :
    common.offset = cursor.offset := by
  obtain ⟨length, distance, hlaid, -⟩ := record_eq_some_iff.mp h
  obtain ⟨after, hfields⟩ := hlaid.fields_read
  unfold recordFields at hfields
  by_cases hzero : distance = 0
  · rw [if_pos hzero] at hfields
    obtain ⟨⟨entry, place⟩, hentry, heq⟩ := Option.bind_eq_some_iff.mp hfields
    cases heq
    exact offset_of_commonEntry _ hentry
  · rw [if_neg hzero] at hfields
    obtain ⟨_, -, -, start, range, place, -, -, heq⟩ := frameEntry_run_eq_some hfields
    cases heq

/-! ### Records one behind the other -/

lemma room_of_record {entry : Entry} {next : Cursor}
    (h : frame.record known cursor = some (entry, next)) :
    cursor.offset + 5 ≤ next.offset ∧
      next.offset + next.rest.length = cursor.offset + cursor.rest.length := by
  obtain ⟨length, distance, hlaid, rfl⟩ := record_eq_some_iff.mp h
  have hroom := hlaid.length_le
  have hpos : 0 < length.toNat := Nat.pos_of_ne_zero fun hzero =>
    hlaid.proper.1 (UInt64.toNat_inj.mp hzero)
  change cursor.offset + 5 ≤ cursor.offset + (4 + length.toNat) ∧
    cursor.offset + (4 + length.toNat) + (cursor.rest.drop (4 + length.toNat)).length = _
  rw [List.length_drop]
  omega

/-- Whether the first record ends before the second one starts. -/
def Reading.Before (first second : Reading) : Prop := first.next.offset ≤ second.start.offset

lemma pairwise_readingsFrom (fuel : Nat) (known : List CommonEntry) (cursor : Cursor) :
    (frame.readingsFrom fuel known cursor).Pairwise Reading.Before := by
  induction fuel generalizing known cursor with
  | zero => exact .nil
  | succ fuel ih =>
    rw [readingsFrom]
    cases frame.record known cursor with
    | none => exact .nil
    | some found =>
      refine .cons (fun reading hreading => ?_) (ih _ _)
      obtain ⟨-, count, hstart⟩ := mem_readingsFrom hreading
      change found.2.offset ≤ reading.start.offset
      rw [hstart]
      exact Nat.le_add_right _ _

lemma length_readingsFrom (fuel : Nat) (known : List CommonEntry) (cursor : Cursor) :
    5 * (frame.readingsFrom fuel known cursor).length ≤ cursor.rest.length := by
  induction fuel generalizing known cursor with
  | zero => exact Nat.zero_le _
  | succ fuel ih =>
    rw [readingsFrom]
    cases hrecord : frame.record known cursor with
    | none => exact Nat.zero_le _
    | some found =>
      obtain ⟨entry, next⟩ := found
      have hroom := room_of_record hrecord
      have hrest := ih (learn known entry) next
      dsimp only
      rw [List.length_cons]
      omega

/-- A common entry that is known to a record was known before or stands in a record before it. -/
lemma mem_known {fuel : Nat} {before after : List Reading} {reading : Reading}
    {common : CommonEntry}
    (h : frame.readingsFrom fuel known cursor = before ++ reading :: after)
    (hcommon : common ∈ reading.known) :
    common ∈ known ∨ ∃ earlier ∈ before, earlier.entry = .common common := by
  induction fuel generalizing known cursor before with
  | zero => cases before <;> cases h
  | succ fuel ih =>
    rw [readingsFrom] at h
    cases hrecord : frame.record known cursor with
    | none =>
      rw [hrecord] at h
      cases before <;> cases h
    | some found =>
      obtain ⟨entry, next⟩ := found
      rw [hrecord] at h
      cases before with
      | nil =>
        cases h
        exact .inl hcommon
      | cons first before =>
        obtain ⟨rfl, hrest⟩ := List.cons.inj h
        obtain hlearned | ⟨earlier, hmem, hearlier⟩ := ih hrest
        · cases entry with
          | common entry =>
            rcases List.mem_append.mp hlearned with hknown | hnew
            · exact .inl hknown
            · rw [List.mem_singleton.mp hnew]
              exact .inr ⟨_, List.mem_cons_self, rfl⟩
          | frame start limit => exact .inl hlearned
        · exact .inr ⟨earlier, List.mem_cons_of_mem _ hmem, hearlier⟩

/-! ### What a walk finds -/

def Entry.common? : Entry → Option CommonEntry
  | .common entry => some entry
  | .frame .. => none

lemma Entry.eq_common {entry : Entry} {common : CommonEntry} (h : entry.common? = some common) :
    entry = .common common := by
  cases entry with
  | common entry => exact congrArg Entry.common (Option.some.inj h)
  | frame start limit => cases h

def Entry.range? : Entry → Option (UInt64 × UInt64)
  | .common _ => none
  | .frame start limit => some (start, limit)

namespace Checked.Found

/-- What the records of a list say. -/
def ofEntries (entries : List Entry) : Found :=
  { common := entries.filterMap Entry.common?, ranges := entries.filterMap Entry.range? }

lemma ofEntries_common (entry : CommonEntry) (entries : List Entry) :
    ofEntries (.common entry :: entries) =
      { common := entry :: (ofEntries entries).common, ranges := (ofEntries entries).ranges } := rfl

lemma ofEntries_frame (start limit : UInt64) (entries : List Entry) :
    ofEntries (.frame start limit :: entries) =
      { common := (ofEntries entries).common
        ranges := (start, limit) :: (ofEntries entries).ranges } := rfl

lemma foldl_add (entries : List Entry) (found : Found) :
    entries.foldl add found =
      { common := found.common ++ (ofEntries entries).common
        ranges := found.ranges ++ (ofEntries entries).ranges } := by
  induction entries generalizing found with
  | nil => simp [ofEntries]
  | cons entry entries ih =>
    rw [List.foldl_cons, ih]
    cases entry with
    | common entry => simp [ofEntries_common, add]
    | frame start limit => simp [ofEntries_frame, add]

/-- Every record gives either a common entry or a range. -/
lemma length_ofEntries (entries : List Entry) :
    (ofEntries entries).common.length + (ofEntries entries).ranges.length = entries.length := by
  induction entries with
  | nil => rfl
  | cons entry entries ih =>
    cases entry with
    | common entry =>
      rw [ofEntries_common, List.length_cons, List.length_cons]
      dsimp only
      omega
    | frame start limit =>
      rw [ofEntries_frame, List.length_cons, List.length_cons]
      dsimp only
      omega

def commonRows (frame : ExceptionFrame) (found : Found) : List Row :=
  found.common.map fun entry => [.unsigned (frame.address + UInt64.ofNat entry.offset),
    .unsigned entry.frameEncoding.toUInt64, .unsigned entry.dataEncoding.toUInt64]

def frameRows (found : Found) : List Row :=
  found.ranges.map fun (start, limit) => [.unsigned start, .unsigned limit]

lemma commonRows_ofEntries (frame : ExceptionFrame) (entries : List Entry) :
    (ofEntries entries).commonRows frame = entries.filterMap (Loader.commonEntryRow? frame) := by
  rw [commonRows, ofEntries, List.map_filterMap]
  refine congrArg (entries.filterMap ·) (funext fun entry => ?_)
  cases entry <;> rfl

lemma frameRows_ofEntries (entries : List Entry) :
    (ofEntries entries).frameRows = entries.filterMap Loader.frameEntryRow? := by
  rw [frameRows, ofEntries, List.map_filterMap]
  refine congrArg (entries.filterMap ·) (funext fun entry => ?_)
  cases entry <;> rfl

end Checked.Found

lemma records_eq (frame : ExceptionFrame) (bytes : List UInt8) :
    frame.records bytes = (frame.readings bytes).map Reading.entry :=
  (frame.map_entry_readingsFrom _ _ _).symm

lemma length_readings_le (frame : ExceptionFrame) (bytes : List UInt8) :
    (frame.readings bytes).length ≤ bytes.length / 5 := by
  have hlength : 5 * (frame.readings bytes).length ≤ bytes.length := length_readingsFrom ..
  omega

variable {bytes : List UInt8} {reading : Reading}

lemma inside_of_mem (h : reading ∈ frame.readings bytes) :
    reading.start.offset + 5 ≤ reading.next.offset ∧ reading.next.offset ≤ bytes.length := by
  obtain ⟨hstart, hplace⟩ := room_of_record (mem_readingsFrom h).1
  have hlength := length_start_of_mem h
  omega

lemma offset_of_mem (h : reading ∈ frame.readings bytes) {common : CommonEntry}
    (hentry : reading.entry = .common common) : common.offset = reading.start.offset := by
  obtain ⟨hrecord, -⟩ := mem_readingsFrom h
  rw [hentry] at hrecord
  exact offset_of_record hrecord

/-- The common entries stand in records, in the same order. -/
lemma common_pairwise (frame : ExceptionFrame) (bytes : List UInt8) :
    (Checked.Found.ofEntries (frame.records bytes)).common.Pairwise
      fun first second => first.offset < second.offset := by
  have hbefore : (frame.readings bytes).Pairwise Reading.Before := pairwise_readingsFrom ..
  rw [Checked.Found.ofEntries, records_eq, List.filterMap_map, List.pairwise_filterMap]
  refine hbefore.imp_of_mem fun {first second} hfirst hsecond hle => ?_
  intro common hcommon common' hcommon'
  have hplace := offset_of_mem hfirst (Entry.eq_common hcommon)
  have hplace' := offset_of_mem hsecond (Entry.eq_common hcommon')
  have hroom := (inside_of_mem hfirst).1
  unfold Reading.Before at hle
  omega

lemma offset_lt_of_mem_common {common : CommonEntry}
    (h : common ∈ (Checked.Found.ofEntries (frame.records bytes)).common) :
    common.offset < bytes.length := by
  rw [Checked.Found.ofEntries, records_eq, List.filterMap_map] at h
  obtain ⟨reading, hreading, hentry⟩ := List.mem_filterMap.mp h
  have hplace := offset_of_mem hreading (Entry.eq_common hentry)
  have hinside := inside_of_mem hreading
  omega

/-- In a section that is no longer than the address space no two places have one address. -/
lemma nodup_addresses (h : bytes.length ≤ 2 ^ 64) :
    ((Checked.Found.ofEntries (frame.records bytes)).common.map
      fun common => frame.address + UInt64.ofNat common.offset).Nodup := by
  rw [List.Nodup, List.pairwise_map]
  refine (common_pairwise frame bytes).imp_of_mem fun {first second} _ hsecond hlt => ?_
  have hsmall : second.offset < UInt64.size := (offset_lt_of_mem_common hsecond).trans_le h
  intro hequal
  have hoffset := congrArg UInt64.toNat ((UInt64.add_right_inj frame.address).mp hequal)
  rw [UInt64.toNat_ofNat_of_lt' (hlt.trans hsmall), UInt64.toNat_ofNat_of_lt' hsmall] at hoffset
  exact hlt.ne hoffset

/-- What a frame record is decoded by: the common entry in the record that starts as many bytes
before the field of its distance as the distance says. -/
structure LeadsBack (frame : ExceptionFrame) (reading earlier : Reading) (common : CommonEntry)
    (start limit : UInt64) : Prop where
  entry_eq : earlier.entry = .common common
  offset_eq : common.offset = earlier.start.offset
  distance : ∃ distance,
    (frame.unsigned 4).run (reading.start.skip 4) = some (distance, reading.start.skip 8) ∧
      distance ≠ 0 ∧ earlier.start.offset + distance.toNat = reading.start.offset + 4 ∧
      frame.address + UInt64.ofNat earlier.start.offset =
        frame.address + UInt64.ofNat (reading.start.offset + 4) - distance
  pointers : ∃ range place after,
    (frame.pointer common.frameEncoding).run (reading.start.skip 8) = some (start, place) ∧
      (frame.pointer (common.frameEncoding &&& 0x0f)).run place = some (range, after) ∧
      limit = start + range

lemma leadsBack_of_append {before after : List Reading} {start limit : UInt64}
    (h : frame.readings bytes = before ++ reading :: after)
    (hentry : reading.entry = .frame start limit) :
    ∃ earlier ∈ before, ∃ common, LeadsBack frame reading earlier common start limit := by
  have hmem : ∀ other ∈ before ++ reading :: after, other ∈ frame.readings bytes := by
    rw [h]
    exact fun _ => id
  obtain ⟨hrecord, -⟩ := mem_readingsFrom (hmem reading (by simp))
  rw [hentry] at hrecord
  obtain ⟨length, distance, hlaid, -⟩ := record_eq_some_iff.mp hrecord
  obtain ⟨last, hfields⟩ := hlaid.fields_read
  have hdistance := hlaid.distance_read
  rw [Cursor.skip_skip] at hfields
  rw [Cursor.skip_skip _ 4 4] at hdistance
  unfold recordFields at hfields
  by_cases hzero : distance = 0
  · rw [if_pos hzero] at hfields
    obtain ⟨_, -, heq⟩ := Option.bind_eq_some_iff.mp hfields
    cases heq
  · rw [if_neg hzero] at hfields
    obtain ⟨common, hknown, hback, found, range, place, hstart, hrange, heq⟩ :=
      frameEntry_run_eq_some hfields
    cases heq
    obtain hnone | ⟨earlier, hearlier, hcommon⟩ := mem_known h hknown
    · cases hnone
    · have hplace := offset_of_mem (hmem earlier (List.mem_append_left _ hearlier)) hcommon
      rw [hplace] at hback
      refine ⟨earlier, hearlier, common, hcommon, hplace, ⟨distance, hdistance, hzero, hback, ?_⟩,
        range, place, last, hstart, hrange, rfl⟩
      rw [← hback, UInt64.ofNat_add, UInt64.ofNat_toNat, ← UInt64.add_assoc, UInt64.add_sub_cancel]

/-- What holds of all that a walk over a section finds. -/
structure BoundedWalk (frame : ExceptionFrame) (bytes : List UInt8) (found : Checked.Found) :
    Prop where
  /-- Where sums wrap, no index, slice or shift is out of range and the walk ends. -/
  walked : Checked.walk false frame bytes = .ok found
  /-- Where sums are checked, the walk ends alike, or the bits of one number are more than a word of
  32 bits can count. -/
  checked : Checked.walk true frame bytes = .ok found ∨
    Checked.walk true frame bytes = .error .overflow ∧ Checked.HasLongNumber bytes
  short : 7 * bytes.length < 2 ^ 32 → Checked.walk true frame bytes = .ok found
  common_rows : found.commonRows frame = frame.commonRows bytes
  frame_rows : found.frameRows = frame.frameRows bytes
  /-- Every record gives one row, and records take five bytes or more each. -/
  count_eq : found.common.length + found.ranges.length = (frame.readings bytes).length
  count_le : found.common.length + found.ranges.length ≤ bytes.length / 5
  entries : found = .ofEntries ((frame.readings bytes).map Reading.entry)
  before : (frame.readings bytes).Pairwise Reading.Before
  inside : ∀ reading ∈ frame.readings bytes,
    reading.start.offset + 5 ≤ reading.next.offset ∧ reading.next.offset ≤ bytes.length
  /-- Common entries stand at the places of their records, which ascend. -/
  placed : ∀ reading ∈ frame.readings bytes, ∀ common, reading.entry = .common common →
    common.offset = reading.start.offset
  ascending : found.common.Pairwise fun first second => first.offset < second.offset
  addresses : bytes.length ≤ 2 ^ 64 →
    (found.common.map fun common => frame.address + UInt64.ofNat common.offset).Nodup
  leads_back : ∀ before reading after start limit,
    frame.readings bytes = before ++ reading :: after → reading.entry = .frame start limit →
      ∃ earlier ∈ before, ∃ common, LeadsBack frame reading earlier common start limit

/-- The walk over a section ends without a fault, whatever the bytes are, unless sums are checked
and a number is too long for them. Its rows are bounded by the length of the section, its common
entries have ascending places, and every range is read by the encoding of a common entry that was
found before it. -/
theorem walk_is_bounded (frame : ExceptionFrame) (bytes : List UInt8) :
    ∃ found, BoundedWalk frame bytes found := by
  have hcount : (Checked.Found.ofEntries (frame.records bytes)).common.length +
      (Checked.Found.ofEntries (frame.records bytes)).ranges.length =
        (frame.readings bytes).length := by
    rw [Checked.Found.length_ofEntries, records_eq, List.length_map]
  have hfound : (frame.records bytes).foldl Checked.Found.add {} =
      .ofEntries (frame.records bytes) := Checked.Found.foldl_add _ _
  have hchecked := Checked.walk_cases true frame bytes
  rw [hfound] at hchecked
  refine ⟨.ofEntries (frame.records bytes), ?_⟩
  constructor
  case walked => rw [Checked.walk_eq, hfound]
  case checked => exact hchecked.imp_right fun h => ⟨h.1, h.2.2⟩
  case short =>
    intro hshort
    refine hchecked.resolve_right fun h => ?_
    have hlength := h.2.2.length_le
    omega
  case common_rows => exact Checked.Found.commonRows_ofEntries frame _
  case frame_rows => exact Checked.Found.frameRows_ofEntries _
  case count_eq => exact hcount
  case count_le =>
    rw [hcount]
    exact length_readings_le frame bytes
  case entries => rw [records_eq]
  case before => exact pairwise_readingsFrom ..
  case inside => exact fun _ => inside_of_mem
  case placed => exact fun _ hreading _ => offset_of_mem hreading
  case ascending => exact common_pairwise frame bytes
  case addresses => exact nodup_addresses
  case leads_back => exact fun _ _ _ _ _ => leadsBack_of_append

/-- A common record, a frame record that leads back to it, and a common record whose letters do not
end. -/
example : Checked.walk false ⟨0x1000, .little, 8⟩
    [13, 0, 0, 0, 0, 0, 0, 0, 1, 0x7a, 0x52, 0, 1, 0x78, 16, 1, 0x0b,
      12, 0, 0, 0, 21, 0, 0, 0, 0, 0x10, 0, 0, 0x40, 0, 0, 0,
      6, 0, 0, 0, 0, 0, 0, 0, 1, 0x7a] =
    .ok { common := [⟨0, 0x0b, 0xff⟩], ranges := [(0x1000, 0x1040)] } := by
  rw [Checked.walk_eq]
  exact congrArg Except.ok (by decide +kernel)

end BinaryFacts.ExceptionFrame
