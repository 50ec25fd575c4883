/-
A text is read back from its bytes (`decodeLossy_encode`). The first byte of a character tells
how many follow and which bits it holds, and for the characters whose encoding would be too
long, the surrogates and the numbers above U+10FFFF it narrows the range of the next byte; a
character is none of those, so its bytes are in range (`Decoder.foldl_utf8EncodeChar`).
-/
import LineCensus.Proofs.Decoding

namespace LineCensus.Text

open Decoder

/-! ## First bytes -/

namespace Lead

variable {b : UInt8}

theorem ofByte_one (h : b.toNat < 0x80) : ofByte b = .whole (Char.ofNat b.toNat) :=
  if_pos (by simpa [UInt8.lt_iff_toNat_lt] using h)

theorem ofByte_two (h : 0xC2 ≤ b.toNat) (h' : b.toNat < 0xE0) :
    ofByte b = .part ⟨1, b.toNat - 0xC0, 0x80, 0xBF⟩ := by
  have h₁ : ¬ b.toNat < 0x80 := by omega
  have h₂ : ¬ b.toNat < 0xC2 := by omega
  simp [ofByte, UInt8.lt_iff_toNat_lt, h₁, h₂, h']

theorem ofByte_three (h : 0xE0 ≤ b.toNat) (h' : b.toNat < 0xF0) : ofByte b = .part ⟨2, b.toNat - 0xE0,
    if b.toNat = 0xE0 then 0xA0 else 0x80, if b.toNat = 0xED then 0x9F else 0xBF⟩ := by
  have h₁ : ¬ b.toNat < 0x80 := by omega
  have h₂ : ¬ b.toNat < 0xC2 := by omega
  have h₃ : ¬ b.toNat < 0xE0 := by omega
  simp only [ofByte, UInt8.lt_iff_toNat_lt, beq_iff_eq, ← UInt8.toNat_inj, UInt8.reduceToNat, h₁, h₂, h₃, h',
    if_false, if_true]
  split
  next h₄ => simp [h₄]
  next h₄ =>
    split
    next h₅ => simp [h₅]
    next h₅ => simp

theorem ofByte_four (h : 0xF0 ≤ b.toNat) (h' : b.toNat < 0xF5) : ofByte b = .part ⟨3, b.toNat - 0xF0,
    if b.toNat = 0xF0 then 0x90 else 0x80, if b.toNat = 0xF4 then 0x8F else 0xBF⟩ := by
  have h₁ : ¬ b.toNat < 0x80 := by omega
  have h₂ : ¬ b.toNat < 0xC2 := by omega
  have h₃ : ¬ b.toNat < 0xE0 := by omega
  have h₄ : b.toNat ≠ 0xE0 := by omega
  have h₅ : b.toNat ≠ 0xED := by omega
  have h₆ : ¬ b.toNat < 0xF0 := by omega
  simp only [ofByte, UInt8.lt_iff_toNat_lt, beq_iff_eq, ← UInt8.toNat_inj, UInt8.reduceToNat, h₁, h₂, h₃, h₄,
    h₅, h₆, if_false]
  split
  next h₇ => simp [h₇]
  next h₇ =>
    split
    next h₈ =>
      have : b.toNat ≠ 0xF4 := by omega
      simp [this]
    next h₈ =>
      have : b.toNat = 0xF4 := by omega
      simp [this]

end Lead

/-! ## Characters -/

namespace Decoder

theorem step_none (found : List Char) (b : UInt8) : step ⟨found, none⟩ b = start found b := rfl

section Tail

variable {b b₁ b₂ b₃ low high : UInt8} {bits : Nat}

/-- A byte in its range ends a character that waits for one. -/
theorem step_last (hlow : low ≤ b) (hhigh : b ≤ high) (found : List Char) :
    step ⟨found, some ⟨1, bits, low, high⟩⟩ b =
      ⟨Char.ofNat (bits * 64 + (b.toNat - 0x80)) :: found, none⟩ := by
  simp [step, hlow, hhigh]

/-- A byte in its range goes on with a character that waits for more. -/
theorem step_more {missing : Nat} (hlow : low ≤ b) (hhigh : b ≤ high) (found : List Char) :
    step ⟨found, some ⟨missing + 2, bits, low, high⟩⟩ b =
      ⟨found, some ⟨missing + 1, bits * 64 + (b.toNat - 0x80), 0x80, 0xBF⟩⟩ := by
  simp [step, hlow, hhigh]

/-- A byte that is never the first of a character. -/
def IsTail (b : UInt8) : Prop := 0x80 ≤ b.toNat ∧ b.toNat ≤ 0xBF

theorem IsTail.le (h : IsTail b) : 0x80 ≤ b := UInt8.le_iff_toNat_le.2 h.1

theorem IsTail.ge (h : IsTail b) : b ≤ 0xBF := UInt8.le_iff_toNat_le.2 h.2

/-- A first byte can narrow the range of the next one. -/
theorem IsTail.ite_le {q : Prop} [Decidable q] (h : IsTail b) (hq : q → low ≤ b) :
    (if q then low else 0x80) ≤ b := by
  split
  next hq' => exact hq hq'
  next => exact h.le

theorem IsTail.le_ite {q : Prop} [Decidable q] (h : IsTail b) (hq : q → b ≤ high) :
    b ≤ if q then high else 0xBF := by
  split
  next hq' => exact hq hq'
  next => exact h.ge

theorem foldl_two (hb : 0xC2 ≤ b.toNat) (hb' : b.toNat < 0xE0) (h₁ : IsTail b₁) (found : List Char) :
    [b, b₁].foldl step ⟨found, none⟩ =
      ⟨Char.ofNat ((b.toNat - 0xC0) * 64 + (b₁.toNat - 0x80)) :: found, none⟩ := by
  simp only [List.foldl_cons, List.foldl_nil, step_none, start, Lead.ofByte_two hb hb']
  rw [step_last h₁.le h₁.ge]

theorem foldl_three (hb : 0xE0 ≤ b.toNat) (hb' : b.toNat < 0xF0) (h₁ : IsTail b₁)
    (hlow : b.toNat = 0xE0 → 0xA0 ≤ b₁) (hhigh : b.toNat = 0xED → b₁ ≤ 0x9F) (h₂ : IsTail b₂)
    (found : List Char) : [b, b₁, b₂].foldl step ⟨found, none⟩ =
      ⟨Char.ofNat (((b.toNat - 0xE0) * 64 + (b₁.toNat - 0x80)) * 64 + (b₂.toNat - 0x80)) :: found, none⟩ := by
  simp only [List.foldl_cons, List.foldl_nil, step_none, start, Lead.ofByte_three hb hb']
  rw [step_more (h₁.ite_le hlow) (h₁.le_ite hhigh), step_last h₂.le h₂.ge]

theorem foldl_four (hb : 0xF0 ≤ b.toNat) (hb' : b.toNat < 0xF5) (h₁ : IsTail b₁)
    (hlow : b.toNat = 0xF0 → 0x90 ≤ b₁) (hhigh : b.toNat = 0xF4 → b₁ ≤ 0x8F) (h₂ : IsTail b₂)
    (h₃ : IsTail b₃) (found : List Char) : [b, b₁, b₂, b₃].foldl step ⟨found, none⟩ =
      ⟨Char.ofNat ((((b.toNat - 0xF0) * 64 + (b₁.toNat - 0x80)) * 64 + (b₂.toNat - 0x80)) * 64 +
        (b₃.toNat - 0x80)) :: found, none⟩ := by
  simp only [List.foldl_cons, List.foldl_nil, step_none, start, Lead.ofByte_four hb hb']
  rw [step_more (h₁.ite_le hlow) (h₁.le_ite hhigh), step_more h₂.le h₂.ge, step_last h₃.le h₃.ge]

end Tail

/-- A character's bytes are read as that character. -/
theorem foldl_utf8EncodeChar (c : Char) (found : List Char) :
    (String.utf8EncodeChar c).foldl step ⟨found, none⟩ = ⟨c :: found, none⟩ := by
  have hvalid : c.toNat < 0xD800 ∨ 0xDFFF < c.toNat ∧ c.toNat < 0x110000 := c.valid
  have hbyte : ∀ n < 256, (UInt8.ofNat n).toNat = n := fun n hn => Nat.mod_eq_of_lt hn
  have hchar : ∀ n, n = c.toNat → Char.ofNat n = c := fun n hn => hn ▸ Char.ofNat_toNat c
  rw [String.utf8EncodeChar, ← Char.toNat]
  generalize c.toNat = v at hvalid hchar
  have htail : ∀ n, IsTail (UInt8.ofNat (n % 64 + 128)) ∧ (UInt8.ofNat (n % 64 + 128)).toNat = n % 64 + 128 := by
    intro n
    have := hbyte (n % 64 + 128) (by omega)
    exact ⟨⟨by omega, by omega⟩, this⟩
  have hlast := htail v
  have hthird := htail (v / 64)
  have hsecond := htail (v / 4096)
  split
  next hone =>
    have hb := hbyte v (by omega)
    have hlead := Lead.ofByte_one (hb.symm ▸ (by omega : v < 0x80) : (UInt8.ofNat v).toNat < 0x80)
    simp only [List.foldl_cons, List.foldl_nil, step_none, start, hlead, hb, hchar]
  next hone =>
    split
    next htwo =>
      have hb := hbyte (v / 64 % 32 + 192) (by omega)
      rw [foldl_two (by omega) (by omega) hlast.1, hb, hlast.2, hchar]
      omega
    next htwo =>
      split
      next hthree =>
        have hb := hbyte (v / 4096 % 16 + 224) (by omega)
        rw [foldl_three (by omega) (by omega) hthird.1 ?low ?high hlast.1, hb, hthird.2, hlast.2, hchar]
        case low | high =>
          simp only [UInt8.le_iff_toNat_le, UInt8.reduceToNat]
          omega
        omega
      next hthree =>
        have hb := hbyte (v / 262144 % 8 + 240) (by omega)
        rw [foldl_four (by omega) (by omega) hsecond.1 ?low ?high hthird.1 hlast.1, hb, hsecond.2, hthird.2, hlast.2,
          hchar]
        case low | high =>
          simp only [UInt8.le_iff_toNat_le, UInt8.reduceToNat]
          omega
        omega

end Decoder

/-- **A text is read back from its bytes.** -/
theorem decodeLossy_encode (cs : List Char) : decodeLossy (encode cs) = cs := by
  have hfold : ∀ found, (encode cs).foldl step ⟨found, none⟩ = ⟨cs.reverse ++ found, none⟩ := by
    induction cs with
    | nil => exact fun _ => rfl
    | cons c cs ih =>
      intro found
      rw [encode, List.flatMap_cons, List.foldl_append, foldl_utf8EncodeChar, ← encode, ih]
      simp
  rw [decodeLossy, hfold]
  simp [finish]

end LineCensus.Text
