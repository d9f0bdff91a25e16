import BinaryFacts.ExceptionFrame.Reader
import Mathlib.Tactic.Lemma

/-!
# Bytes that are read back

When a reader finds a value in some bytes and leaves whatever follows them.
-/

namespace BinaryFacts.ExceptionFrame

namespace Reader

variable {α β : Type}

/-- Whether a reader finds the value in these bytes, and leaves whatever follows them. -/
def Reads (reader : Reader α) (offset : Nat) (bytes : List UInt8) (value : α) : Prop :=
  ∀ rest, reader.run ⟨offset, bytes ++ rest⟩ = some (value, ⟨offset + bytes.length, rest⟩)

lemma Reads.pure (offset : Nat) (value : α) : (Pure.pure value : Reader α).Reads offset [] value :=
  fun _ => rfl

lemma Reads.bind {first : Reader α} {next : α → Reader β} {offset : Nat} {before after : List UInt8}
    {value : α} {result : β} (hfirst : first.Reads offset before value)
    (hnext : (next value).Reads (offset + before.length) after result) :
    (first >>= next).Reads offset (before ++ after) result := by
  intro rest
  rw [StateT.run_bind, List.append_assoc, hfirst, Option.bind_eq_bind, Option.bind_some, hnext,
    List.length_append, Nat.add_assoc]

lemma Reads.map {reader : Reader α} {offset : Nat} {bytes : List UInt8} {value : α}
    (h : reader.Reads offset bytes value) (compute : α → β) :
    (compute <$> reader).Reads offset bytes (compute value) := by
  intro rest
  rw [StateT.run_map, h]
  rfl

lemma Reads.bind_pure {reader : Reader α} {offset : Nat} {bytes : List UInt8} {value : α}
    (h : reader.Reads offset bytes value) (compute : α → β) :
    (reader >>= fun found => Pure.pure (compute found)).Reads offset bytes (compute value) := by
  rw [bind_pure_comp]
  exact h.map compute

lemma reads_byte (offset : Nat) (value : UInt8) : byte.Reads offset [value] value :=
  fun _ => rfl

lemma reads_take (offset : Nat) (bytes : List UInt8) :
    (take bytes.length).Reads offset bytes bytes := by
  intro rest
  show take bytes.length ⟨offset, bytes ++ rest⟩ = _
  unfold take
  rw [if_pos (by rw [List.length_append]; omega), List.take_left, List.drop_left]

lemma reads_terminated (offset : Nat) {text : List UInt8} (h : 0 ∉ text) :
    terminated.Reads offset (text ++ [0]) text := by
  intro rest
  have hall : ∀ byte ∈ text, (byte != 0) = true := by
    intro byte hbyte
    rw [bne_iff_ne]
    rintro rfl
    exact h hbyte
  show terminated ⟨offset, text ++ [0] ++ rest⟩ = _
  unfold terminated
  rw [List.append_assoc, List.takeWhile_append_of_pos hall, List.dropWhile_append_of_pos hall,
    List.singleton_append, List.takeWhile_cons_of_neg (by decide),
    List.dropWhile_cons_of_neg (by decide), List.append_nil, List.length_append]
  rfl

end Reader

end BinaryFacts.ExceptionFrame
