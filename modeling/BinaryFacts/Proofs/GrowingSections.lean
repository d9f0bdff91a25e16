import BinaryFacts.Loader.Exception
import BinaryFacts.Proofs.RecordBounds

/-!
# Growing exception-frame sections

Bytes behind a section neither change nor remove the records that are read without them, wherever
the section is cut off. If the walk stops at a length that ends the section, bytes behind it add no
record either.
-/

namespace BinaryFacts.ExceptionFrame

variable (frame : ExceptionFrame)

/-- A walk from a place on: the records that it reads, up to the first that cannot be read, and the
place of that one. -/
inductive Walks : List CommonEntry → Cursor → List Entry → Cursor → Prop
  | stop {known : List CommonEntry} {cursor : Cursor} (h : frame.record known cursor = none) :
      Walks known cursor [] cursor
  | next {known : List CommonEntry} {cursor next stop : Cursor} {entry : Entry}
      {entries : List Entry} (h : frame.record known cursor = some (entry, next))
      (hrest : Walks (learn known entry) next entries stop) :
      Walks known cursor (entry :: entries) stop

def lengthAt? (cursor : Cursor) : Option UInt64 := ((frame.unsigned 4).run cursor).map Prod.fst

/-- Whether a place holds a length of zero, or the one that stands for a 64-bit length. -/
def EndsAt (cursor : Cursor) : Prop :=
  frame.lengthAt? cursor = some 0 ∨ frame.lengthAt? cursor = some 0xffffffff

/-- Whether the walk over a section stops at a length that ends the section. -/
def Ended (bytes : List UInt8) : Prop :=
  ∃ stop, frame.Walks [] ⟨0, bytes⟩ (frame.records bytes) stop ∧ frame.EndsAt stop

def commonRows (bytes : List UInt8) : List Row :=
  (frame.records bytes).filterMap (Loader.commonEntryRow? frame)

def frameRows (bytes : List UInt8) : List Row :=
  (frame.records bytes).filterMap Loader.frameEntryRow?

variable {frame} {known : List CommonEntry} {cursor : Cursor} {entries : List Entry}

lemma walks_recordsFrom {fuel : Nat} (h : cursor.rest.length ≤ fuel) :
    ∃ stop, frame.Walks known cursor (frame.recordsFrom fuel known cursor) stop := by
  induction fuel generalizing known cursor with
  | zero => exact ⟨cursor, .stop (record_eq_none_of_length (by omega))⟩
  | succ fuel ih =>
    rw [recordsFrom]
    cases hrecord : frame.record known cursor with
    | none => exact ⟨cursor, .stop hrecord⟩
    | some found =>
      obtain ⟨entry, next⟩ := found
      have hshorter := (length_rest_lt_of_record hrecord).2
      have hfuel : next.rest.length ≤ fuel := by omega
      obtain ⟨stop, hrest⟩ := ih hfuel
      exact ⟨stop, .next hrecord hrest⟩

lemma exists_walks (frame : ExceptionFrame) (bytes : List UInt8) :
    ∃ stop, frame.Walks [] ⟨0, bytes⟩ (frame.records bytes) stop :=
  walks_recordsFrom le_rfl

lemma record_of_endsAt (h : frame.EndsAt cursor) : frame.record known cursor = none := by
  by_contra hsome
  obtain ⟨⟨entry, next⟩, hrecord⟩ := Option.ne_none_iff_exists'.mp hsome
  obtain ⟨length, distance, hlaid, -⟩ := record_eq_some_iff.mp hrecord
  have hlength : frame.lengthAt? cursor = some length := by
    rw [lengthAt?, hlaid.length_read]
    rfl
  obtain ⟨hzero, hlong, -⟩ := hlaid.proper
  rcases h with h | h
  · exact hzero (Option.some.inj (hlength.symm.trans h))
  · exact hlong (Option.some.inj (hlength.symm.trans h))

lemma lengthAt?_of_upTo {limit : Nat} {length : UInt64}
    (h : frame.lengthAt? (cursor.upTo limit) = some length) :
    frame.lengthAt? cursor = some length := by
  obtain ⟨⟨found, after⟩, hread, rfl⟩ := Option.map_eq_some_iff.mp h
  obtain ⟨-, -, rfl⟩ := unsigned_run_eq_some_iff.mp hread
  rw [lengthAt?, unsigned_of_upTo hread]
  rfl

lemma EndsAt.of_upTo {limit : Nat} (h : frame.EndsAt (cursor.upTo limit)) : frame.EndsAt cursor :=
  h.imp lengthAt?_of_upTo lengthAt?_of_upTo

/-- A walk over a section cut off at a limit reads the first of the records of the whole section,
and all of them if it stops at a length that ends the section. -/
lemma Walks.of_upTo {limit : Nat} {whole : List Entry} {stop stop' : Cursor}
    (hcut : frame.Walks known (cursor.upTo limit) entries stop)
    (hwhole : frame.Walks known cursor whole stop') :
    entries <+: whole ∧ (frame.EndsAt stop → whole = entries) := by
  induction hwhole generalizing entries with
  | @stop known cursor hnone =>
    cases hcut with
    | stop => exact ⟨List.prefix_rfl, fun _ => rfl⟩
    | next h =>
      obtain ⟨after, hrecord, -⟩ := record_of_upTo h
      cases hnone.symm.trans hrecord
  | @next known cursor next stop' entry whole h hrest ih =>
    cases hcut with
    | stop =>
      refine ⟨List.nil_prefix, fun hends => ?_⟩
      cases (record_of_endsAt hends.of_upTo).symm.trans h
    | next hfirst hlater =>
      obtain ⟨after, hrecord, rfl, -⟩ := record_of_upTo hfirst
      cases h.symm.trans hrecord
      obtain ⟨hstarts, hequal⟩ := ih hlater
      exact ⟨List.cons_prefix_cons.mpr ⟨rfl, hstarts⟩, fun hends => by rw [hequal hends]⟩

/-- The rows of a section that goes on begin with those of its beginning, and are the same if the
walk over the beginning stops at a length that ends the section. -/
theorem rows_survive_more_bytes (frame : ExceptionFrame) (bytes more : List UInt8) :
    frame.records bytes <+: frame.records (bytes ++ more) ∧
      frame.commonRows bytes <+: frame.commonRows (bytes ++ more) ∧
      frame.frameRows bytes <+: frame.frameRows (bytes ++ more) ∧
      (frame.Ended bytes →
        frame.commonRows (bytes ++ more) = frame.commonRows bytes ∧
          frame.frameRows (bytes ++ more) = frame.frameRows bytes) := by
  have hbeginning : Cursor.upTo ⟨0, bytes ++ more⟩ bytes.length = ⟨0, bytes⟩ := by
    unfold Cursor.upTo
    rw [Nat.sub_zero, List.take_left]
  obtain ⟨_, hwhole⟩ := frame.exists_walks (bytes ++ more)
  have hwalks : ∀ stop, frame.Walks [] ⟨0, bytes⟩ (frame.records bytes) stop →
      frame.records bytes <+: frame.records (bytes ++ more) ∧
        (frame.EndsAt stop → frame.records (bytes ++ more) = frame.records bytes) := by
    intro stop hstop
    rw [← hbeginning] at hstop
    exact hstop.of_upTo hwhole
  obtain ⟨stop, hstop⟩ := frame.exists_walks bytes
  have hstarts := (hwalks stop hstop).1
  refine ⟨hstarts, hstarts.filterMap _, hstarts.filterMap _, ?_⟩
  rintro ⟨stop, hstop, hends⟩
  unfold commonRows frameRows
  rw [(hwalks stop hstop).2 hends]
  exact ⟨rfl, rfl⟩

/-- A common record and a frame record before a terminator, and another frame record behind it. -/
theorem rows_survive_more_bytes_terminated :
    let frame : ExceptionFrame := ⟨0x1000, .little, 8⟩
    let bytes : List UInt8 :=
      [13, 0, 0, 0, 0, 0, 0, 0, 1, 0x7a, 0x52, 0, 1, 0x78, 16, 1, 0x0b,
        12, 0, 0, 0, 21, 0, 0, 0, 0, 0x10, 0, 0, 0x40, 0, 0, 0,
        0, 0, 0, 0]
    let more : List UInt8 := [12, 0, 0, 0, 41, 0, 0, 0, 0, 0x20, 0, 0, 0x40, 0, 0, 0]
    frame.Ended bytes ∧
      frame.commonRows (bytes ++ more) = frame.commonRows bytes ∧
      frame.frameRows (bytes ++ more) = frame.frameRows bytes ∧
      frame.frameRows bytes = [[.unsigned 0x1000, .unsigned 0x1040]] := by
  intro frame bytes more
  have hended : frame.Ended bytes := by
    have hrecords : frame.records bytes = [.common ⟨0, 0x0b, 0xff⟩, .frame 0x1000 0x1040] := by
      decide +kernel
    refine ⟨⟨33, bytes.drop 33⟩, ?_, .inl (by decide +kernel)⟩
    rw [hrecords]
    have hfirst : frame.record [] ⟨0, bytes⟩ =
        some (.common ⟨0, 0x0b, 0xff⟩, ⟨17, bytes.drop 17⟩) := by decide +kernel
    have hsecond : frame.record [⟨0, 0x0b, 0xff⟩] ⟨17, bytes.drop 17⟩ =
        some (.frame 0x1000 0x1040, ⟨33, bytes.drop 33⟩) := by decide +kernel
    exact .next hfirst (.next hsecond (.stop (by decide +kernel)))
  obtain ⟨-, -, -, hsame⟩ := rows_survive_more_bytes frame bytes more
  exact ⟨hended, (hsame hended).1, (hsame hended).2, by decide +kernel⟩

end BinaryFacts.ExceptionFrame
