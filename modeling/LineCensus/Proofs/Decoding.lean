/-
Decoded texts, piece by piece. The decoder finds characters one after the other and never
changes one it has found (`finish_foldl`), so the first one depends on the first bytes
alone: it is a byte order mark only where the bytes begin with the three of its encoding
(`mark_prefix_of_decodeLossy`), and always there (`decodeLossy_mark`).

A started character waits for a byte that is not ASCII. So an ASCII byte is always read as
itself, and the bytes on either side of it are decoded apart (`decodeLossy_append_ascii`).
-/
import LineCensus.Text.Utf8

namespace LineCensus.Text

namespace Decoder

theorem start_eq (found : List Char) (b : UInt8) :
    start found b = ⟨(start [] b).found ++ found, (start [] b).unfinished⟩ := by
  unfold start
  cases Lead.ofByte b <;> rfl

theorem step_eq (d : Decoder) (b : UInt8) : d.step b =
    ⟨(step ⟨[], d.unfinished⟩ b).found ++ d.found, (step ⟨[], d.unfinished⟩ b).unfinished⟩ := by
  obtain ⟨found, unfinished⟩ := d
  cases unfinished with
  | none => exact start_eq found b
  | some u =>
    simp only [step]
    split
    · split <;> rfl
    · rw [start_eq (replacement :: found), start_eq [replacement]]
      simp

/-- What has been found stays in front. -/
theorem finish_foldl (d : Decoder) (bs : List UInt8) :
    (bs.foldl step d).finish = d.found.reverse ++ (bs.foldl step ⟨[], d.unfinished⟩).finish := by
  induction bs generalizing d with
  | nil =>
    obtain ⟨found, unfinished⟩ := d
    cases unfinished <;> simp [finish]
  | cons b bs ih =>
    rw [List.foldl_cons, List.foldl_cons, ih, ih (step ⟨[], d.unfinished⟩ b), step_eq d b]
    simp

/-- The first character of the bytes to come, after those of an unfinished one. -/
def first (unfinished : Option Unfinished) (bs : List UInt8) : Option Char :=
  (bs.foldl step ⟨[], unfinished⟩).finish.head?

theorem first_cons (unfinished : Option Unfinished) (b : UInt8) (bs : List UInt8) :
    first unfinished (b :: bs) =
      (step ⟨[], unfinished⟩ b).found.reverse.head?.or (first (step ⟨[], unfinished⟩ b).unfinished bs) := by
  rw [first, List.foldl_cons, finish_foldl, List.head?_append, first]

theorem first_start (b : UInt8) (bs : List UInt8) : first none (b :: bs) =
    match Lead.ofByte b with
    | .whole c => some c
    | .part u => first (some u) bs
    | .none => some replacement := by
  rw [first_cons]
  simp only [step, start]
  cases Lead.ofByte b <;> simp

/-- A character other than the replacement needs its bytes, each in its range. -/
theorem exists_of_first_unfinished {u : Unfinished} {bs : List UInt8} {c : Char} (hc : c ≠ replacement)
    (h : first (some u) bs = some c) : ∃ b rest, bs = b :: rest ∧ u.low ≤ b ∧ b ≤ u.high ∧
      (u.missing ≤ 1 → Char.ofNat (u.bits * 64 + (b.toNat - 0x80)) = c) ∧
      (1 < u.missing →
        first (some ⟨u.missing - 1, u.bits * 64 + (b.toNat - 0x80), 0x80, 0xBF⟩) rest = some c) := by
  cases bs with
  | nil =>
    simp only [first, List.foldl_nil, finish, List.reverse_singleton, List.head?_cons, Option.some.injEq] at h
    exact absurd h.symm hc
  | cons b rest =>
    refine ⟨b, rest, rfl, ?_⟩
    rw [first_cons] at h
    simp only [step] at h
    split at h
    next hrange =>
      simp only [Bool.and_eq_true, decide_eq_true_eq] at hrange
      refine ⟨hrange.1, hrange.2, ?_⟩
      split at h
      next hlast =>
        refine ⟨fun _ => by simpa using h, fun hmore => absurd hlast (by omega)⟩
      next hmore =>
        exact ⟨fun hlast => absurd hlast hmore, fun _ => by simpa using h⟩
    next =>
      rw [start_eq] at h
      simp only [List.reverse_append, List.reverse_singleton, List.singleton_append, List.head?_cons, Option.some_or,
        Option.some.injEq] at h
      exact absurd h.symm hc

end Decoder

open Decoder

/-- What the first byte of a character tells. Of several bytes, it says how many follow,
and gives the bits, or the least next byte where those are zero. -/
def Lead.Fits (b : UInt8) : Lead → Prop
  | .whole c => c = Char.ofNat b.toNat ∧ b.toNat < 0x80
  | .none => True
  | .part u => u.missing = 1 ∧ u.bits < 0x20 ∨
      u.missing = 2 ∧ b.toNat = u.bits + 0xE0 ∧ 0x80 ≤ u.low ∧ u.high ≤ 0xBF ∨
      u.missing = 3 ∧ (0 < u.bits ∨ 0x90 ≤ u.low)

theorem Lead.ofByte_fits (b : UInt8) : (ofByte b).Fits b := by
  unfold ofByte
  by_cases h₁ : b < 0x80
  · rw [if_pos h₁]
    exact ⟨rfl, by simpa [UInt8.lt_iff_toNat_lt] using h₁⟩
  rw [if_neg h₁]
  by_cases h₂ : b < 0xC2
  · rw [if_pos h₂]
    trivial
  rw [if_neg h₂]
  by_cases h₃ : b < 0xE0
  · rw [if_pos h₃]
    simp only [UInt8.lt_iff_toNat_lt, UInt8.reduceToNat] at h₃
    refine .inl ⟨rfl, ?_⟩
    show b.toNat - 0xC0 < 0x20
    omega
  rw [if_neg h₃]
  have hthree : b.toNat = b.toNat - 0xE0 + 0xE0 := by
    simp only [UInt8.lt_iff_toNat_lt, UInt8.reduceToNat] at h₃
    omega
  by_cases h₄ : b = 0xE0
  · rw [if_pos (beq_iff_eq.2 h₄)]
    exact .inr (.inl ⟨rfl, by rw [h₄]; rfl, by decide, by decide⟩)
  rw [if_neg (mt beq_iff_eq.1 h₄)]
  by_cases h₅ : b = 0xED
  · rw [if_pos (beq_iff_eq.2 h₅)]
    exact .inr (.inl ⟨rfl, by rw [h₅]; rfl, by decide, by decide⟩)
  rw [if_neg (mt beq_iff_eq.1 h₅)]
  by_cases h₆ : b < 0xF0
  · rw [if_pos h₆]
    exact .inr (.inl ⟨rfl, hthree, UInt8.le_refl _, UInt8.le_refl _⟩)
  rw [if_neg h₆]
  by_cases h₇ : b = 0xF0
  · rw [if_pos (beq_iff_eq.2 h₇)]
    exact .inr (.inr ⟨rfl, .inr (by decide)⟩)
  rw [if_neg (mt beq_iff_eq.1 h₇)]
  by_cases h₈ : b < 0xF4
  · rw [if_pos h₈]
    refine .inr (.inr ⟨rfl, .inl ?_⟩)
    rw [← UInt8.toNat_inj] at h₇
    simp only [UInt8.lt_iff_toNat_lt, UInt8.reduceToNat] at h₆ h₇
    show 0 < b.toNat - 0xF0
    omega
  rw [if_neg h₈]
  by_cases h₉ : b = 0xF4
  · rw [if_pos (beq_iff_eq.2 h₉)]
    exact .inr (.inr ⟨rfl, .inl (by decide)⟩)
  rw [if_neg (mt beq_iff_eq.1 h₉)]
  trivial

theorem eq_of_ofNat_eq_byteOrderMark {n : Nat} (h : Char.ofNat n = byteOrderMark) : n = 0xFEFF := by
  by_cases hvalid : n.isValidChar
  · have hchar : Char.ofNat n = Char.ofNatAux n hvalid := dif_pos hvalid
    exact congrArg Char.toNat (hchar.symm.trans h)
  · have hzero : Char.ofNat n = '\x00' := dif_neg hvalid
    exact absurd (hzero.symm.trans h) (by decide)

/-- **A decoded text starts with a byte order mark only if its bytes do.** -/
theorem mark_prefix_of_decodeLossy {bs : List UInt8} {cs : List Char} (h : decodeLossy bs = byteOrderMark :: cs) :
    [0xEF, 0xBB, 0xBF] <+: bs := by
  have hne : byteOrderMark ≠ replacement := by decide
  have hfirst : first none bs = some byteOrderMark := by
    rw [first, ← decodeLossy, h]
    rfl
  cases bs with
  | nil => cases hfirst
  | cons b bs =>
    rw [first_start] at hfirst
    have hfits := Lead.ofByte_fits b
    cases hlead : Lead.ofByte b with
    | whole c =>
      rw [hlead] at hfirst hfits
      obtain ⟨rfl, hb⟩ := hfits
      have := eq_of_ofNat_eq_byteOrderMark (Option.some.inj hfirst)
      omega
    | none =>
      rw [hlead] at hfirst
      exact absurd (Option.some.inj hfirst).symm hne
    | part u =>
    rw [hlead] at hfirst hfits
    obtain ⟨b₁, bs₁, rfl, hlow₁, hhigh₁, hlast₁, hmore₁⟩ := exists_of_first_unfinished hne hfirst
    have := b₁.toNat_lt
    rcases hfits with ⟨hmissing, hbits⟩ | ⟨hmissing, hb, hlow, hhigh⟩ | ⟨hmissing, hlarge⟩
    · -- Two bytes hold eleven bits.
      have := eq_of_ofNat_eq_byteOrderMark (hlast₁ (by omega))
      omega
    · obtain ⟨b₂, bs₂, rfl, hlow₂, hhigh₂, hlast₂, -⟩ :=
        exists_of_first_unfinished hne (hmore₁ (by omega))
      have hmark := eq_of_ofNat_eq_byteOrderMark (hlast₂ (by simp [hmissing]))
      simp only [UInt8.le_iff_toNat_le, UInt8.reduceToNat] at hlow hhigh hlow₁ hhigh₁ hlow₂ hhigh₂ hmark
      obtain ⟨rfl, rfl, rfl⟩ : b = 0xEF ∧ b₁ = 0xBB ∧ b₂ = 0xBF := by
        simp only [← UInt8.toNat_inj, UInt8.reduceToNat]
        omega
      exact List.prefix_append [0xEF, 0xBB, 0xBF] bs₂
    · -- Characters of four bytes start at U+10000.
      obtain ⟨b₂, bs₂, rfl, -, -, -, hmore₂⟩ := exists_of_first_unfinished hne (hmore₁ (by omega))
      obtain ⟨b₃, bs₃, rfl, -, -, hlast₃, -⟩ := exists_of_first_unfinished hne (hmore₂ (by simp [hmissing]))
      have hmark := eq_of_ofNat_eq_byteOrderMark (hlast₃ (by simp [hmissing]))
      simp only [UInt8.le_iff_toNat_le, UInt8.reduceToNat] at hlarge hlow₁ hmark
      omega

theorem decodeLossy_mark (bs : List UInt8) :
    decodeLossy ([0xEF, 0xBB, 0xBF] ++ bs) = byteOrderMark :: decodeLossy bs := by
  have hmark : [0xEF, 0xBB, 0xBF].foldl step {} = ⟨[byteOrderMark], none⟩ := rfl
  rw [decodeLossy, List.foldl_append, hmark, finish_foldl]
  rfl

/-! ## ASCII -/

theorem le_low_of_ofByte {b : UInt8} {u : Unfinished} (h : Lead.ofByte b = .part u) : 0x80 ≤ u.low := by
  unfold Lead.ofByte at h
  repeat' split at h
  all_goals cases h
  all_goals simp

namespace Decoder

/-- The next byte of a started character is not ASCII. -/
def Waits (d : Decoder) : Prop := ∀ u ∈ d.unfinished, 0x80 ≤ u.low

theorem waits_start (found : List Char) (b : UInt8) : (start found b).Waits := by
  intro u hu
  unfold start at hu
  cases hlead : Lead.ofByte b with
  | whole c => simp [hlead] at hu
  | none => simp [hlead] at hu
  | part v =>
    simp only [hlead, Option.mem_def, Option.some.injEq] at hu
    exact hu ▸ le_low_of_ofByte hlead

theorem waits_step (d : Decoder) (b : UInt8) : (d.step b).Waits := by
  unfold step
  split
  · exact waits_start _ _
  · split
    · dsimp only
      split
      · simp [Waits]
      · intro u hu
        simp only [Option.mem_def, Option.some.injEq] at hu
        simp [← hu]
    · exact waits_start _ _

theorem Waits.foldl {d : Decoder} (h : d.Waits) (bs : List UInt8) : (bs.foldl step d).Waits := by
  induction bs generalizing d with
  | nil => exact h
  | cons b bs ih => exact ih (waits_step d b)

/-- An ASCII byte ends what has been started, and stands for itself. -/
theorem step_ascii {d : Decoder} (h : d.Waits) {b : UInt8} (hb : b < 0x80) :
    d.step b = ⟨Char.ofNat b.toNat :: d.finish.reverse, none⟩ := by
  have hlead : Lead.ofByte b = .whole (Char.ofNat b.toNat) := if_pos hb
  obtain ⟨found, unfinished⟩ := d
  cases unfinished with
  | none => simp [step, start, hlead, finish]
  | some u =>
    have hlow : 0x80 ≤ u.low := h u rfl
    have hout : ¬ u.low ≤ b := fun hle => by
      simp only [UInt8.le_iff_toNat_le, UInt8.lt_iff_toNat_lt] at hlow hb hle
      omega
    simp [step, hout, start, hlead, finish]

end Decoder

/-- **An ASCII byte cuts the text.** -/
theorem decodeLossy_append_ascii {b : UInt8} (hb : b < 0x80) (bs more : List UInt8) :
    decodeLossy (bs ++ b :: more) = decodeLossy bs ++ Char.ofNat b.toNat :: decodeLossy more := by
  have hwaits : (bs.foldl step {}).Waits := Waits.foldl (by simp [Waits]) bs
  rw [decodeLossy, List.foldl_append, List.foldl_cons, step_ascii hwaits hb, finish_foldl]
  simp [decodeLossy]

end LineCensus.Text
