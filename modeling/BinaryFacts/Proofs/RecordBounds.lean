import BinaryFacts.Proofs.LocalReaders

/-!
# The bounds of exception-frame records

The fields of a record are bounded by the end of the section, not by the end that the length of the
record declares. So the records that end at or before a limit depend only on the bytes before it
unless one of them takes bytes from behind the limit.
-/

namespace BinaryFacts.ExceptionFrame

variable (frame : ExceptionFrame)

/-- The fields of a record behind its distance, in a common entry if the distance is zero. -/
def recordFields (known : List CommonEntry) (start body : Nat) (distance : UInt64) : Reader Entry :=
  if distance = 0 then Entry.common <$> frame.commonEntry start
  else frame.frameEntry known body distance

lemma local_recordFields (known : List CommonEntry) (start body : Nat) (distance : UInt64) :
    (frame.recordFields known start body distance).Local := by
  unfold recordFields
  split
  · exact (frame.local_commonEntry start).map Entry.common
  · exact frame.local_frameEntry known body distance

namespace Cursor

/-- The place some bytes further on. -/
def skip (cursor : Cursor) (count : Nat) : Cursor :=
  ⟨cursor.offset + count, cursor.rest.drop count⟩

/-- The same place in the section cut off at a limit. -/
def upTo (cursor : Cursor) (limit : Nat) : Cursor :=
  ⟨cursor.offset, cursor.rest.take (limit - cursor.offset)⟩

lemma skip_skip (cursor : Cursor) (first second : Nat) :
    (cursor.skip first).skip second = cursor.skip (first + second) := by
  unfold skip
  rw [List.drop_drop, Nat.add_assoc]

lemma skip_upTo (cursor : Cursor) (limit count : Nat) :
    (cursor.upTo limit).skip count = (cursor.skip count).upTo limit := by
  unfold skip upTo
  rw [List.drop_take, Nat.sub_sub]

end Cursor

variable {frame}

lemma Reader.Local.run_of_upTo {α : Type} {reader : Reader α} (h : reader.Local)
    {cursor after : Cursor} {limit : Nat} {value : α}
    (hrun : reader.run (cursor.upTo limit) = some (value, after)) :
    ∃ after', reader.run cursor = some (value, after') := by
  obtain ⟨taken, hrest, hreads⟩ := h hrun
  have hwhole :
      cursor.rest = taken ++ (after.rest ++ cursor.rest.drop (limit - cursor.offset)) := by
    rw [← List.append_assoc, ← hrest]
    exact (List.take_append_drop (limit - cursor.offset) cursor.rest).symm
  have hread := hreads (after.rest ++ cursor.rest.drop (limit - cursor.offset))
  rw [← hwhole] at hread
  exact ⟨_, hread⟩

lemma unsigned_run_eq_some_iff {size : Nat} {cursor after : Cursor} {value : UInt64} :
    (frame.unsigned size).run cursor = some (value, after) ↔
      size ≤ cursor.rest.length ∧ value = frame.order.value (cursor.rest.take size) ∧
        after = cursor.skip size := by
  change (Reader.take size cursor).bind _ = _ ↔ _
  unfold Reader.take
  by_cases hsize : size ≤ cursor.rest.length
  · rw [if_pos hsize]
    constructor
    · intro h
      cases h
      exact ⟨hsize, rfl, rfl⟩
    · rintro ⟨_, rfl, rfl⟩
      rfl
  · rw [if_neg hsize]
    constructor
    · intro h
      cases h
    · rintro ⟨hle, _⟩
      exact absurd hle hsize

/-- Whether a length is one of a record that the rest of the section has room for. -/
def ProperLength (body : Cursor) (length : UInt64) : Prop :=
  length ≠ 0 ∧ length ≠ 0xffffffff ∧ length.toNat ≤ body.rest.length

instance (body : Cursor) (length : UInt64) : Decidable (ProperLength body length) :=
  inferInstanceAs (Decidable (_ ∧ _ ∧ _))

lemma record_eq (known : List CommonEntry) (cursor : Cursor) :
    frame.record known cursor =
      ((frame.unsigned 4).run cursor).bind fun (length, body) =>
        if ProperLength body length then
          ((frame.unsigned 4).run body).bind fun (distance, fields) =>
            ((frame.recordFields known cursor.offset body.offset distance).run fields).map
              fun (entry, _) => (entry, body.skip length.toNat)
        else none := by
  unfold record
  rw [Option.bind_eq_bind]
  congr 1
  funext ⟨length, body⟩
  dsimp only
  by_cases hproper : ProperLength body length
  · have hkept : ¬ (length = 0 ∨ length = 0xffffffff ∨ body.rest.length < length.toNat) := by
      obtain ⟨hzero, hlong, hroom⟩ := hproper
      rintro (h | h | h)
      · exact hzero h
      · exact hlong h
      · omega
    rw [if_neg hkept, if_pos hproper]
    congr 1
    funext ⟨distance, fields⟩
    unfold recordFields
    dsimp only
    rw [Option.map_eq_bind]
    by_cases hzero : distance = 0
    · rw [if_pos hzero, if_pos hzero]
      rfl
    · rw [if_neg hzero, if_neg hzero]
      rfl
  · have hleft : length = 0 ∨ length = 0xffffffff ∨ body.rest.length < length.toNat := by
      by_contra hnone
      simp only [not_or, not_lt] at hnone
      exact hproper hnone
    rw [if_pos hleft, if_neg hproper]
    rfl

/-- What a record is read from: its length, the distance behind the length and then its fields. -/
structure Laid (frame : ExceptionFrame) (known : List CommonEntry) (cursor : Cursor) (entry : Entry)
    (length distance : UInt64) : Prop where
  length_read : (frame.unsigned 4).run cursor = some (length, cursor.skip 4)
  proper : ProperLength (cursor.skip 4) length
  distance_read : (frame.unsigned 4).run (cursor.skip 4) = some (distance, (cursor.skip 4).skip 4)
  fields_read : ∃ after, (frame.recordFields known cursor.offset (cursor.offset + 4) distance).run
    ((cursor.skip 4).skip 4) = some (entry, after)

lemma record_eq_some_iff {known : List CommonEntry} {cursor next : Cursor} {entry : Entry} :
    frame.record known cursor = some (entry, next) ↔
      ∃ length distance, Laid frame known cursor entry length distance ∧
        next = cursor.skip (4 + length.toNat) := by
  rw [record_eq]
  constructor
  · intro h
    obtain ⟨⟨length, body⟩, hlength, h⟩ := Option.bind_eq_some_iff.mp h
    obtain ⟨-, -, rfl⟩ := unsigned_run_eq_some_iff.mp hlength
    dsimp only at h
    by_cases hproper : ProperLength (cursor.skip 4) length
    · rw [if_pos hproper] at h
      obtain ⟨⟨distance, fields⟩, hdistance, h⟩ := Option.bind_eq_some_iff.mp h
      obtain ⟨-, -, rfl⟩ := unsigned_run_eq_some_iff.mp hdistance
      obtain ⟨⟨found, after⟩, hfields, heq⟩ := Option.map_eq_some_iff.mp h
      cases heq
      exact ⟨length, distance, ⟨hlength, hproper, hdistance, after, hfields⟩, cursor.skip_skip 4 _⟩
    · rw [if_neg hproper] at h
      cases h
  · rintro ⟨length, distance, ⟨hlength, hproper, hdistance, after, hfields⟩, rfl⟩
    rw [hlength, Option.bind_some]
    dsimp only
    rw [if_pos hproper, hdistance, Option.bind_some]
    dsimp only
    rw [show (cursor.skip 4).offset = cursor.offset + 4 from rfl, hfields, ← cursor.skip_skip]
    rfl

lemma unsigned_of_upTo {size limit : Nat} {cursor : Cursor} {value : UInt64}
    (h : (frame.unsigned size).run (cursor.upTo limit) =
      some (value, (cursor.upTo limit).skip size)) :
    (frame.unsigned size).run cursor = some (value, cursor.skip size) := by
  obtain ⟨after, hrun⟩ := (frame.local_unsigned size).run_of_upTo h
  obtain ⟨-, -, rfl⟩ := unsigned_run_eq_some_iff.mp hrun
  exact hrun

lemma Laid.of_upTo {known : List CommonEntry} {cursor : Cursor} {entry : Entry} {limit : Nat}
    {length distance : UInt64} (h : Laid frame known (cursor.upTo limit) entry length distance) :
    Laid frame known cursor entry length distance := by
  obtain ⟨hlength, ⟨hzero, hlong, hroom⟩, hdistance, after, hfields⟩ := h
  rw [Cursor.skip_upTo] at hroom hdistance hfields
  rw [Cursor.skip_upTo] at hfields
  have hroom' : length.toNat ≤ (cursor.skip 4).rest.length := by
    have htake := List.length_take_le' (limit - (cursor.skip 4).offset) (cursor.skip 4).rest
    exact hroom.trans htake
  obtain ⟨after', hfields'⟩ := (frame.local_recordFields ..).run_of_upTo hfields
  exact ⟨unsigned_of_upTo hlength, ⟨hzero, hlong, hroom'⟩, unsigned_of_upTo hdistance, after',
    hfields'⟩

lemma Laid.length_le {known : List CommonEntry} {cursor : Cursor} {entry : Entry}
    {length distance : UInt64} (h : Laid frame known cursor entry length distance) :
    4 + length.toNat ≤ cursor.rest.length := by
  obtain ⟨hfour, -⟩ := unsigned_run_eq_some_iff.mp h.length_read
  have hroom := h.proper.2.2
  change length.toNat ≤ (cursor.rest.drop 4).length at hroom
  rw [List.length_drop] at hroom
  omega

lemma length_rest_lt_of_record {known : List CommonEntry} {cursor next : Cursor} {entry : Entry}
    (h : frame.record known cursor = some (entry, next)) :
    cursor.offset < next.offset ∧ next.rest.length < cursor.rest.length := by
  obtain ⟨length, distance, hlaid, rfl⟩ := record_eq_some_iff.mp h
  have hle := hlaid.length_le
  change cursor.offset < cursor.offset + (4 + length.toNat) ∧
    (cursor.rest.drop (4 + length.toNat)).length < cursor.rest.length
  rw [List.length_drop]
  omega

/-- What can be read before a limit is read alike in the whole section. -/
lemma record_of_upTo {known : List CommonEntry} {cursor next : Cursor} {entry : Entry} {limit : Nat}
    (h : frame.record known (cursor.upTo limit) = some (entry, next)) :
    ∃ after, frame.record known cursor = some (entry, after) ∧ next = after.upTo limit ∧
      after.offset ≤ limit := by
  obtain ⟨length, distance, hlaid, rfl⟩ := record_eq_some_iff.mp h
  refine ⟨cursor.skip (4 + length.toNat), ?_, cursor.skip_upTo limit _, ?_⟩
  · exact record_eq_some_iff.mpr ⟨length, distance, hlaid.of_upTo, rfl⟩
  · have hle := hlaid.length_le
    have htake : (cursor.upTo limit).rest.length ≤ limit - cursor.offset :=
      List.length_take_le _ _
    change cursor.offset + (4 + length.toNat) ≤ limit
    omega

lemma record_eq_none_of_length {known : List CommonEntry} {cursor : Cursor}
    (h : cursor.rest.length = 0) : frame.record known cursor = none := by
  by_contra hsome
  obtain ⟨⟨entry, next⟩, hrecord⟩ := Option.ne_none_iff_exists'.mp hsome
  have hshorter := (length_rest_lt_of_record hrecord).2
  omega

/-! ### The records of a walk -/

/-- A record that a walk has read: the common entries known at its start, what it says and the
place behind it. -/
structure Reading where
  known : List CommonEntry
  start : Cursor
  entry : Entry
  next : Cursor
deriving DecidableEq

variable (frame)

def readingsFrom : Nat → List CommonEntry → Cursor → List Reading
  | 0, _, _ => []
  | fuel + 1, known, cursor =>
    match frame.record known cursor with
    | none => []
    | some (entry, next) =>
      ⟨known, cursor, entry, next⟩ :: readingsFrom fuel (learn known entry) next

def readings (bytes : List UInt8) : List Reading :=
  frame.readingsFrom bytes.length [] ⟨0, bytes⟩

lemma map_entry_readingsFrom (fuel : Nat) (known : List CommonEntry) (cursor : Cursor) :
    (frame.readingsFrom fuel known cursor).map Reading.entry =
      frame.recordsFrom fuel known cursor := by
  induction fuel generalizing known cursor with
  | zero => rfl
  | succ fuel ih =>
    rw [readingsFrom, recordsFrom]
    cases frame.record known cursor with
    | none => rfl
    | some found => exact congrArg (found.1 :: ·) (ih _ _)

/-- The records that end at or before a limit. -/
def recordsUpTo (limit : Nat) (bytes : List UInt8) : List Entry :=
  ((frame.readings bytes).filter (·.next.offset ≤ limit)).map Reading.entry

/-- Whether a record that ends at or before a limit takes bytes from behind it: it cannot be read
in the section cut off there. -/
def Reading.Overruns (limit : Nat) (reading : Reading) : Prop :=
  reading.next.offset ≤ limit ∧ frame.record reading.known (reading.start.upTo limit) = none

/-- Whether a record of the section overruns the limit. -/
def Overruns (limit : Nat) (bytes : List UInt8) : Prop :=
  ∃ reading ∈ frame.readings bytes, reading.Overruns frame limit

variable {frame}

lemma readingsFrom_of_le {fuel fuel' : Nat} {known : List CommonEntry} {cursor : Cursor}
    (h : cursor.rest.length ≤ fuel) (h' : cursor.rest.length ≤ fuel') :
    frame.readingsFrom fuel known cursor = frame.readingsFrom fuel' known cursor := by
  induction fuel generalizing fuel' known cursor with
  | zero =>
    cases fuel' with
    | zero => rfl
    | succ fuel' => rw [readingsFrom, readingsFrom, record_eq_none_of_length (by omega)]
  | succ fuel ih =>
    cases fuel' with
    | zero => rw [readingsFrom, readingsFrom, record_eq_none_of_length (by omega)]
    | succ fuel' =>
      rw [readingsFrom, readingsFrom]
      cases hrecord : frame.record known cursor with
      | none => rfl
      | some found =>
        obtain ⟨entry, next⟩ := found
        have hshorter := (length_rest_lt_of_record hrecord).2
        exact congrArg (_ :: ·) (ih (by omega) (by omega))

lemma offset_lt_of_mem_readingsFrom {fuel : Nat} {known : List CommonEntry} {cursor : Cursor}
    {reading : Reading} (h : reading ∈ frame.readingsFrom fuel known cursor) :
    cursor.offset < reading.next.offset := by
  induction fuel generalizing known cursor with
  | zero => cases h
  | succ fuel ih =>
    rw [readingsFrom] at h
    cases hrecord : frame.record known cursor with
    | none =>
      rw [hrecord] at h
      cases h
    | some found =>
      obtain ⟨entry, next⟩ := found
      rw [hrecord] at h
      have hnext := (length_rest_lt_of_record hrecord).1
      rcases List.mem_cons.mp h with rfl | hlater
      · exact hnext
      · exact hnext.trans (ih hlater)

/-- The walk over the section cut off at a limit gives the first of the records that end at or
before it, and all of them if none takes bytes from behind it. -/
lemma readingsFrom_upTo (fuel : Nat) (known : List CommonEntry) (cursor : Cursor) (limit : Nat) :
    let cut := (frame.readingsFrom fuel known (cursor.upTo limit)).map Reading.entry
    let whole := ((frame.readingsFrom fuel known cursor).filter (·.next.offset ≤ limit)).map
      Reading.entry
    cut <+: whole ∧ (whole = cut ↔
      ¬ ∃ reading ∈ frame.readingsFrom fuel known cursor, reading.Overruns frame limit) := by
  induction fuel generalizing known cursor with
  | zero =>
    refine ⟨List.prefix_rfl, iff_of_true rfl ?_⟩
    rintro ⟨reading, hmem, -⟩
    cases hmem
  | succ fuel ih =>
    dsimp only
    rw [readingsFrom, readingsFrom]
    cases hrecord : frame.record known cursor with
    | none =>
      have hcut : frame.record known (cursor.upTo limit) = none := by
        by_contra hsome
        obtain ⟨⟨entry, next⟩, hread⟩ := Option.ne_none_iff_exists'.mp hsome
        obtain ⟨after, hwhole, -⟩ := record_of_upTo hread
        rw [hrecord] at hwhole
        cases hwhole
      rw [hcut]
      refine ⟨List.prefix_rfl, iff_of_true rfl ?_⟩
      rintro ⟨reading, hmem, -⟩
      cases hmem
    | some found =>
      obtain ⟨entry, next⟩ := found
      dsimp only
      by_cases hle : next.offset ≤ limit
      · rw [List.filter_cons, if_pos (decide_eq_true hle), List.map_cons]
        cases hcut : frame.record known (cursor.upTo limit) with
        | none =>
          -- the record itself takes bytes from behind the limit
          refine ⟨List.nil_prefix, iff_of_false (List.cons_ne_nil _ _) (not_not_intro ?_)⟩
          exact ⟨_, List.mem_cons_self, hle, hcut⟩
        | some found' =>
          obtain ⟨entry', next'⟩ := found'
          obtain ⟨after, hwhole, rfl, -⟩ := record_of_upTo hcut
          rw [hrecord] at hwhole
          cases hwhole
          obtain ⟨hstart, hiff⟩ := ih (learn known entry) next
          dsimp only
          rw [List.map_cons, List.cons_prefix_cons, List.cons_inj_right, hiff,
            List.exists_mem_cons_iff]
          refine ⟨⟨rfl, hstart⟩, not_congr (or_iff_right ?_).symm⟩
          rintro ⟨-, hnone⟩
          rw [hcut] at hnone
          cases hnone
      · -- this record and all behind it end behind the limit
        have hbehind : ∀ reading ∈ (⟨known, cursor, entry, next⟩ : Reading) ::
            frame.readingsFrom fuel (learn known entry) next, ¬ reading.next.offset ≤ limit := by
          intro reading hreading
          rcases List.mem_cons.mp hreading with rfl | hlater
          · exact hle
          · have hlt := offset_lt_of_mem_readingsFrom hlater
            omega
        have hcut : frame.record known (cursor.upTo limit) = none := by
          by_contra hsome
          obtain ⟨⟨entry', next'⟩, hread⟩ := Option.ne_none_iff_exists'.mp hsome
          obtain ⟨after, hwhole, -, hafter⟩ := record_of_upTo hread
          rw [hrecord] at hwhole
          cases hwhole
          exact hle hafter
        rw [hcut, List.filter_eq_nil_iff.mpr fun reading hreading =>
          decide_eq_true_iff.not.mpr (hbehind reading hreading)]
        refine ⟨List.prefix_rfl, iff_of_true rfl ?_⟩
        rintro ⟨reading, hreading, hends, -⟩
        exact hbehind reading hreading hends

lemma recordsUpTo_eq_iff (frame : ExceptionFrame) (limit : Nat) (bytes : List UInt8) :
    frame.records (bytes.take limit) <+: frame.recordsUpTo limit bytes ∧
      (frame.recordsUpTo limit bytes = frame.records (bytes.take limit) ↔
        ¬ frame.Overruns limit bytes) := by
  have hrecords : frame.records (bytes.take limit) =
      (frame.readingsFrom bytes.length [] (Cursor.upTo ⟨0, bytes⟩ limit)).map Reading.entry := by
    have hfuel : (bytes.take limit).length ≤ bytes.length := List.length_take_le' limit bytes
    rw [records, ← map_entry_readingsFrom]
    exact congrArg (List.map Reading.entry) (readingsFrom_of_le le_rfl hfuel)
  rw [hrecords]
  exact readingsFrom_upTo bytes.length [] ⟨0, bytes⟩ limit

/-- Two sections with the same bytes before a limit. Their records that end at or before it begin
with those that these bytes spell alone, and are the same unless a record takes bytes from behind
the limit; the end of a record that both walks reach is such a limit. -/
theorem records_up_to_limit_eq_iff (frame : ExceptionFrame) (first second : List UInt8)
    (limit : Nat) (hagree : first.take limit = second.take limit) :
    (¬ frame.Overruns limit first → ¬ frame.Overruns limit second →
      frame.recordsUpTo limit first = frame.recordsUpTo limit second) ∧
    ∀ bytes ∈ [first, second],
      frame.records (first.take limit) <+: frame.recordsUpTo limit bytes ∧
        (frame.recordsUpTo limit bytes = frame.records (first.take limit) ↔
          ¬ frame.Overruns limit bytes) := by
  obtain ⟨hstart, hiff⟩ := frame.recordsUpTo_eq_iff limit first
  obtain ⟨hstart', hiff'⟩ := frame.recordsUpTo_eq_iff limit second
  rw [← hagree] at hstart' hiff'
  refine ⟨fun hfirst hsecond => (hiff.mpr hfirst).trans (hiff'.mpr hsecond).symm, ?_⟩
  intro bytes hbytes
  rcases List.mem_cons.mp hbytes with rfl | hbytes
  · exact ⟨hstart, hiff⟩
  · rw [List.mem_singleton.mp hbytes]
    exact ⟨hstart', hiff'⟩

/-- A common record and a frame record that holds its own fields, before a terminator and before
another length. -/
theorem records_up_to_limit_eq_iff_whole :
    let frame : ExceptionFrame := ⟨0x1000, .little, 8⟩
    let shared : List UInt8 :=
      [13, 0, 0, 0, 0, 0, 0, 0, 1, 0x7a, 0x52, 0, 1, 0x78, 16, 1, 0x0b,
        12, 0, 0, 0, 21, 0, 0, 0, 0, 0x10, 0, 0, 0x40, 0, 0, 0]
    let first := shared ++ [0, 0, 0, 0]
    let second := shared ++ [0x40, 0, 0, 0]
    first.take 33 = second.take 33 ∧ ¬ frame.Overruns 33 first ∧ ¬ frame.Overruns 33 second ∧
      frame.recordsUpTo 33 first = frame.recordsUpTo 33 second := by
  intro frame shared first second
  obtain ⟨hequal, hrecords⟩ := records_up_to_limit_eq_iff frame first second 33 rfl
  have hfirst : ¬ frame.Overruns 33 first :=
    (hrecords first List.mem_cons_self).2.mp (by decide +kernel)
  have hsecond : ¬ frame.Overruns 33 second :=
    (hrecords second (List.mem_cons_of_mem _ List.mem_cons_self)).2.mp (by decide +kernel)
  exact ⟨rfl, hfirst, hsecond, hequal hfirst hsecond⟩

/-- A frame record that is too short for its range takes the length behind it for the range: the
terminator gives an empty range, another length a range of its size. -/
theorem short_record_takes_next_length :
    let frame : ExceptionFrame := ⟨0x1000, .little, 8⟩
    let shared : List UInt8 :=
      [13, 0, 0, 0, 0, 0, 0, 0, 1, 0x7a, 0x52, 0, 1, 0x78, 16, 1, 0x0b,
        8, 0, 0, 0, 21, 0, 0, 0, 0, 0x10, 0, 0]
    let first := shared ++ [0, 0, 0, 0]
    let second := shared ++ [0x40, 0, 0, 0]
    first.length = second.length ∧ first.take 29 = second.take 29 ∧
      (∀ bytes ∈ [first, second], 29 ∈ (frame.readings bytes).map (·.next.offset)) ∧
      frame.recordsUpTo 29 first = [.common ⟨0, 0x0b, 0xff⟩, .frame 0x1000 0x1000] ∧
      frame.recordsUpTo 29 second = [.common ⟨0, 0x0b, 0xff⟩, .frame 0x1000 0x1040] := by
  decide +kernel

end BinaryFacts.ExceptionFrame
