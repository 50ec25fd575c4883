/-
What a block delimiter makes of a line (`BlockDelimiter.hit`), said about the
line's characters: when it misses the line, when it makes code of it, and which
of the two can be told from the tokens that occur in it.
-/
import LineCensus.Proofs.CharacterTokens
import LineCensus.Scan.Scanner

namespace LineCensus

namespace BlockDelimiter

variable {d : BlockDelimiter} {line : List Char}

theorem isSymmetric_iff : d.isSymmetric = true ↔ d.opener = d.closer := by
  simp only [isSymmetric, beq_iff_eq]

theorem isSymmetric_eq_false_iff : d.isSymmetric = false ↔ d.opener ≠ d.closer := by
  simp only [isSymmetric, beq_eq_false_iff_ne]

theorem token_toList_ne_nil {token : String} (ht : token ≠ "") : token.toList ≠ [] :=
  fun h => ht (String.toList_eq_nil_iff.1 h)

theorem opener_ne_of_not_infix (h : ¬ d.opener.toList <:+: line) : d.opener ≠ "" := by
  rintro he
  rw [he] at h
  exact h List.nil_infix

theorem isLeftOpen_eq (ho : d.opener ≠ "") (line : List Char) :
    d.isLeftOpen line = Scan.leavesOpen d.opener.toList d.closer.toList line :=
  Scan.leavesOpen_encode (token_toList_ne_nil ho) _ _

theorem openers_eq (ho : d.opener ≠ "") (line : List Char) :
    d.openers line = Scan.occurrences d.opener.toList line :=
  Scan.occurrences_encode (token_toList_ne_nil ho) _

theorem infix_of_isLeftOpen (ho : d.opener ≠ "") (h : d.isLeftOpen line = true) : d.opener.toList <:+: line := by
  rw [isLeftOpen_eq ho] at h
  exact Scan.infix_of_leavesOpen (token_toList_ne_nil ho) h

/-- A line with the opener and without the closer is left open. -/
theorem isLeftOpen_of_infix (ho : d.opener ≠ "") (hcloser : ¬ d.closer.toList <:+: line)
    (hopener : d.opener.toList <:+: line) : d.isLeftOpen line = true := by
  rw [isLeftOpen_eq ho]
  exact Scan.leavesOpen_of_infix (token_toList_ne_nil ho) hcloser hopener

/-- A line that starts with the opener or ends with the closer. -/
def Frames (d : BlockDelimiter) (line : List Char) : Prop :=
  d.opener.toList <+: line ∨ d.closer.toList <:+ line

instance (d : BlockDelimiter) (line : List Char) : Decidable (d.Frames line) := inferInstanceAs (Decidable (_ ∨ _))

theorem hit_of_opener_eq (h : d.opener = "") (line : List Char) : d.hit line = .miss := by
  simp [hit, h]

theorem frames_iff : (d.opener.toList.isPrefixOf line || d.closer.toList.isSuffixOf line) = true ↔ d.Frames line := by
  simp only [Frames, Bool.or_eq_true, List.isPrefixOf_iff_prefix, List.isSuffixOf_iff_suffix]

theorem hit_of_frames (ho : d.opener ≠ "") (h : d.Frames line) : d.hit line = .comment := by
  simp [hit, ho, frames_iff.2 h]

theorem hit_of_not_frames (ho : d.opener ≠ "") (h : ¬ d.Frames line) :
    d.hit line = if d.isLeftOpen line = true then
      if d.opener ≠ d.closer ∧ (d.opener.toList <:+ line ∨ d.closer.toList <+: line) then .code else .comment
    else .miss := by
  have h' := (Bool.not_eq_true _).mp (mt frames_iff.1 h)
  simp only [hit, List.isEmpty_iff, token_toList_ne_nil ho, if_false, h', Bool.false_eq_true, Bool.and_eq_true,
    Bool.not_eq_true', isSymmetric_eq_false_iff, Bool.or_eq_true, List.isPrefixOf_iff_prefix,
    List.isSuffixOf_iff_suffix]

/-- A delimiter makes code of a line that it leaves open without framing it, when
the line ends with the opener or starts with the closer. -/
theorem hit_eq_code_iff : d.hit line = .code ↔ d.opener ≠ "" ∧ ¬ d.Frames line ∧ d.isLeftOpen line = true ∧
    d.opener ≠ d.closer ∧ (d.opener.toList <:+ line ∨ d.closer.toList <+: line) := by
  by_cases ho : d.opener = ""
  · simp [hit_of_opener_eq ho, ho]
  by_cases hf : d.Frames line
  · simp [hit_of_frames ho hf, hf]
  rw [hit_of_not_frames ho hf]
  split
  next hopen => split <;> simp_all
  next hopen => simp_all

theorem hit_eq_miss_iff (ho : d.opener ≠ "") :
    d.hit line = .miss ↔ ¬ d.Frames line ∧ d.isLeftOpen line = false := by
  by_cases hf : d.Frames line
  · simp [hit_of_frames ho hf, hf]
  rw [hit_of_not_frames ho hf]
  split
  next hopen => split <;> simp [hopen]
  next hopen => simpa [hf] using hopen

/-- A line is missed that does not have the opener in it and does not end with the closer. -/
theorem hit_of_absent (hopener : ¬ d.opener.toList <:+: line) (hcloser : ¬ d.closer.toList <:+ line) :
    d.hit line = .miss := by
  have ho := opener_ne_of_not_infix hopener
  refine (hit_eq_miss_iff ho).2 ⟨?_, ?_⟩
  · rintro (h | h)
    · exact hopener h.isInfix
    · exact hcloser h
  · rw [← Bool.not_eq_true]
    exact fun h => hopener (infix_of_isLeftOpen ho h)

/-- A line without either token is missed. -/
theorem hit_of_free (hopener : ¬ d.opener.toList <:+: line) (hcloser : ¬ d.closer.toList <:+: line) :
    d.hit line = .miss :=
  hit_of_absent hopener fun h => hcloser h.isInfix

theorem hit_ne_code_of_symmetric (hs : d.opener = d.closer) (line : List Char) : d.hit line ≠ .code :=
  fun h => (hit_eq_code_iff.1 h).2.2.2.1 hs

/-- A symmetric pair hits only lines with its token. -/
theorem infix_of_hit_symmetric (hs : d.opener = d.closer) (h : d.hit line ≠ .miss) : d.opener.toList <:+: line :=
  Decidable.of_not_not fun hnot => h (hit_of_free hnot (hs ▸ hnot))

/-- Without the closer in it, a line is made code just by the opener at its end and
not at its beginning. -/
theorem hit_eq_code_iff_of_not_infix (hcloser : ¬ d.closer.toList <:+: line) :
    d.hit line = .code ↔ d.opener.toList <:+ line ∧ ¬ d.opener.toList <+: line := by
  rw [hit_eq_code_iff]
  constructor
  · rintro ⟨-, hframes, -, -, hends | hstarts⟩
    · exact ⟨hends, fun h => hframes (.inl h)⟩
    · exact absurd hstarts.isInfix hcloser
  · rintro ⟨hends, hstarts⟩
    have ho : d.opener ≠ "" := by
      rintro he
      exact hstarts (by rw [he]; exact List.nil_prefix)
    refine ⟨ho, ?_, isLeftOpen_of_infix ho hcloser hends.isInfix, ?_, .inl hends⟩
    · rintro (h | h)
      · exact hstarts h
      · exact hcloser h.isInfix
    · rintro hs
      exact hcloser (hs ▸ hends.isInfix)

/-- A delimiter without a closer makes no line code: every line ends with it. -/
theorem closer_ne_of_hit_code (h : d.hit line = .code) : d.closer ≠ "" := by
  rintro hc
  refine (hit_eq_code_iff.1 h).2.1 (.inr ?_)
  rw [hc]
  exact List.nil_suffix

end BlockDelimiter

namespace Grammar

theorem firstHit_cons_of_miss {line : List Char} {d : BlockDelimiter} (h : d.hit line = .miss) (k : Nat)
    (ds : List BlockDelimiter) : firstHit line k (d :: ds) = firstHit line (k + 1) ds := by
  simp only [firstHit, h]

theorem firstHit_cons_of_hit {line : List Char} {d : BlockDelimiter} (h : d.hit line ≠ .miss) (k : Nat)
    (ds : List BlockDelimiter) : firstHit line k (d :: ds) = some (k, d.hit line) := by
  rw [firstHit]
  split
  · contradiction
  · rfl

/-- The first hit on a line, counted from `k`: that of a delimiter before which
every one misses the line. -/
theorem firstHit_eq_some_iff {line : List Char} {ds : List BlockDelimiter} {k i : Nat} {hit : PairHit} :
    firstHit line k ds = some (i, hit) ↔
      ∃ j d, i = k + j ∧ ds[j]? = some d ∧ d.hit line = hit ∧ hit ≠ .miss ∧
      ∀ j' < j, ∀ d', ds[j']? = some d' → d'.hit line = .miss := by
  induction ds generalizing k with
  | nil => simp [firstHit]
  | cons d ds ih =>
    by_cases hm : d.hit line = .miss
    · rw [firstHit_cons_of_miss hm, ih]
      constructor
      · rintro ⟨j, e, rfl, he, hhit, hne, hbefore⟩
        refine ⟨j + 1, e, by omega, he, hhit, hne, fun j' hj' e' he' => ?_⟩
        cases j' with
        | zero => simp only [List.getElem?_cons_zero, Option.some.injEq] at he'; exact he' ▸ hm
        | succ j' => exact hbefore j' (by omega) e' he'
      · rintro ⟨j, e, rfl, he, hhit, hne, hbefore⟩
        cases j with
        | zero =>
          simp only [List.getElem?_cons_zero, Option.some.injEq] at he
          subst he
          exact absurd (hhit.symm.trans hm) hne
        | succ j =>
          exact ⟨j, e, by omega, he, hhit, hne, fun j' hj' e' he' => hbefore (j' + 1) (by omega) e' he'⟩
    · rw [firstHit_cons_of_hit hm, Option.some.injEq, Prod.mk.injEq]
      constructor
      · rintro ⟨rfl, rfl⟩
        exact ⟨0, d, rfl, rfl, rfl, hm, fun j' hj' => absurd hj' (Nat.not_lt_zero j')⟩
      · rintro ⟨j, e, rfl, he, hhit, hne, hbefore⟩
        cases j with
        | zero =>
          simp only [List.getElem?_cons_zero, Option.some.injEq] at he
          subst he
          exact ⟨rfl, hhit⟩
        | succ j => exact absurd (hbefore 0 (by omega) d rfl) hm

end Grammar

end LineCensus
