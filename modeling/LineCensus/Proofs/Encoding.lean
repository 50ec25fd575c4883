/-
UTF-8 keeps tokens apart. A character's first byte is never one of its later
bytes, so an encoded token lies in an encoded line only where characters start
(`not_encode_prefix_cons`), and there exactly where the token lies in the line
(`encode_prefix_iff`).

The core library proves that encoding is injective, with what follows a text left
open (`List.isPrefix_of_utf8Encode_append_eq_utf8Encode`); here that is carried
over to lists of bytes.
-/
import LineCensus.Text.Utf8

namespace LineCensus.Text

@[simp] theorem encode_nil : encode [] = [] := rfl

@[simp] theorem encode_cons (c : Char) (cs : List Char) :
    encode (c :: cs) = String.utf8EncodeChar c ++ encode cs := by
  simp only [encode, List.flatMap_cons]

@[simp] theorem encode_append (cs ds : List Char) : encode (cs ++ ds) = encode cs ++ encode ds := by
  simp only [encode, List.flatMap_append]

theorem toByteArray_encode (cs : List Char) : (encode cs).toByteArray = cs.utf8Encode := rfl

/-- One character's bytes: a first byte, and then none that could be one. -/
theorem utf8EncodeChar_eq_cons (c : Char) : ∃ b bs, String.utf8EncodeChar c = b :: bs ∧ b.IsUTF8FirstByte ∧
    ∀ x ∈ bs, ¬ x.IsUTF8FirstByte := by
  have hfirst := fun (i : Nat) (hi : i < (String.utf8EncodeChar c).length) =>
    @UInt8.isUTF8FirstByte_getElem_utf8EncodeChar c i hi
  cases henc : String.utf8EncodeChar c with
  | nil => exact absurd henc String.utf8EncodeChar_ne_nil
  | cons b bs =>
    simp only [henc] at hfirst
    refine ⟨b, bs, rfl, (hfirst 0 (by simp)).2 rfl, fun x hx => ?_⟩
    obtain ⟨i, hi, rfl⟩ := List.mem_iff_getElem.1 hx
    have h := hfirst (i + 1) (by simpa using hi)
    simp only [List.getElem_cons_succ] at h
    exact fun hx => absurd (h.1 hx) (by omega)

theorem encode_eq_nil_iff {cs : List Char} : encode cs = [] ↔ cs = [] := by
  cases cs with
  | nil => simp
  | cons c cs => simp [String.utf8EncodeChar_ne_nil]

/-- A text starts with a token where its bytes start with the token's bytes. -/
theorem encode_prefix_iff {token line : List Char} : encode token <+: encode line ↔ token <+: line := by
  constructor
  · rintro ⟨bs, h⟩
    apply List.isPrefix_of_utf8Encode_append_eq_utf8Encode bs.toByteArray
    rw [← toByteArray_encode, ← toByteArray_encode, ← h, List.toByteArray_append]
  · rintro ⟨cs, rfl⟩
    simp

theorem encode_inj {cs ds : List Char} : encode cs = encode ds ↔ cs = ds := by
  refine ⟨fun h => ?_, fun h => by rw [h]⟩
  have hcd : cs <+: ds := encode_prefix_iff.1 (h ▸ List.prefix_rfl)
  have hdc : ds <+: cs := encode_prefix_iff.1 (h ▸ List.prefix_rfl)
  exact hcd.eq_of_length_le hdc.length_le

/-- No token starts in the middle of a character. -/
theorem not_encode_prefix_cons {token : List Char} (ht : token ≠ []) {b : UInt8} (hb : ¬ b.IsUTF8FirstByte)
    (bs : List UInt8) : ¬ encode token <+: b :: bs := by
  obtain ⟨c, cs, rfl⟩ := List.exists_cons_of_ne_nil ht
  obtain ⟨b', bs', henc, hfirst, -⟩ := utf8EncodeChar_eq_cons c
  rw [encode_cons, henc, List.cons_append, List.cons_prefix_cons]
  rintro ⟨rfl, -⟩
  exact hb hfirst

end LineCensus.Text
