/-
The decision about one line (`judge`), case by case: within a block, where only
the pair that opened it counts, and outside, where a line may open one.

A comment line in a block goes through `Grammar.afterComment`, whether the block
was open before or opens with this line. The pair it looks up is always there;
the facts below are stated for a pair that is.
-/
import LineCensus.Proofs.Delimiter

namespace LineCensus

open BlockDelimiter

variable {g : Grammar} {s : ScanState} {pending p : Bool} {line : List Char} {i : Nat} {d : BlockDelimiter}

@[simp] theorem ScanState.isInBlock_outside : outside.isInBlock = false := rfl

@[simp] theorem ScanState.isInBlock_inBlock (i : Nat) (p : Bool) : (inBlock i p).isInBlock = true := rfl

theorem ScanState.afterSymmetric_inBlock (i : Nat) (p : Bool) (n : Nat) : (inBlock i p).afterSymmetric n =
    if n = 2 ∨ (n = 1 ∧ p = true) then .outside else if n = 1 then .inBlock i true else .inBlock i p := by
  match n, p with
  | 0, _ | 1, true | 1, false | 2, _ => simp [afterSymmetric]
  | _ + 3, _ => simp [afterSymmetric]

theorem ScanState.afterSymmetric_even (i n : Nat) :
    (inBlock i false).afterSymmetric n = if n = 2 then .outside else .inBlock i (n = 1) := by
  match n with
  | 0 | 1 | 2 => rfl
  | n + 3 => simp [afterSymmetric]

/-- At odd parity one occurrence and two come to the same. -/
theorem ScanState.afterSymmetric_odd (i n : Nat) :
    (inBlock i true).afterSymmetric n = if n = 1 ∨ n = 2 then .outside else .inBlock i true := by
  match n with
  | 0 | 1 | 2 => rfl
  | n + 3 => simp [afterSymmetric]

namespace Grammar

theorem startsLineComment_iff : g.startsLineComment line = true ↔ ∃ t ∈ g.lineComments, t.toList <+: line := by
  simp only [startsLineComment, List.any_eq_true, List.isPrefixOf_iff_prefix]

/-! ## After a comment line -/

theorem afterComment_symmetric (hd : g.blockComments[i]? = some d) (hs : d.opener = d.closer) :
    g.afterComment (.inBlock i p) line = (ScanState.inBlock i p).afterSymmetric (d.openers line) := by
  simp [afterComment, hd, isSymmetric_iff.2 hs]

theorem afterComment_asymmetric (hd : g.blockComments[i]? = some d) (hs : d.opener ≠ d.closer) :
    g.afterComment (.inBlock i p) line = if d.closer.toList <:+: line then .outside else .inBlock i p := by
  simp [afterComment, hd, isSymmetric_eq_false_iff.2 hs, Scan.occursIn_iff]

/-- A line with neither token changes nothing. -/
theorem afterComment_free (hd : g.blockComments[i]? = some d) (hopener : ¬ d.opener.toList <:+: line)
    (hcloser : ¬ d.closer.toList <:+: line) : g.afterComment (.inBlock i p) line = .inBlock i p := by
  by_cases hs : d.opener = d.closer
  · have ho := opener_ne_of_not_infix hopener
    rw [afterComment_symmetric hd hs, openers_eq ho, Scan.occurrences_eq_zero (token_toList_ne_nil ho) hopener,
      ScanState.afterSymmetric_inBlock, if_neg (by simp), if_neg (by simp)]
  · rw [afterComment_asymmetric hd hs, if_neg hcloser]

/-- A comment line ends the block or leaves it open; only a symmetric pair ever
comes to odd parity, and only a pair with a closer stays open. -/
theorem afterComment_cases (line : List Char) (hd : g.blockComments[i]? = some d) (ho : d.opener ≠ "")
    (hp : p = true → d.opener = d.closer) :
    g.afterComment (.inBlock i p) line = .outside ∨ ∃ q, g.afterComment (.inBlock i p) line = .inBlock i q ∧
      d.closer ≠ "" ∧ (q = true → d.opener = d.closer) := by
  by_cases hs : d.opener = d.closer
  · have hc : d.closer ≠ "" := hs ▸ ho
    rw [afterComment_symmetric hd hs, ScanState.afterSymmetric_inBlock]
    split
    · exact .inl rfl
    split
    · exact .inr ⟨true, rfl, hc, fun _ => hs⟩
    · exact .inr ⟨p, rfl, hc, hp⟩
  · rw [afterComment_asymmetric hd hs]
    split
    · exact .inl rfl
    · next hmiss =>
      refine .inr ⟨p, rfl, ?_, hp⟩
      rintro hc
      exact hmiss (by rw [hc]; exact List.nil_infix)

/-- Outside, a hit is one of the grammar's pairs. -/
theorem lt_of_probe_outside (h : (g.probe .outside line).2 = .inBlock i p) : i < g.blockComments.length := by
  simp only [probe] at h
  split at h
  next k hit hf =>
    obtain ⟨j, d, rfl, hd, -⟩ := firstHit_eq_some_iff.1 hf
    simp only [ScanState.enter, ScanState.inBlock.injEq] at h
    have := (List.getElem?_eq_some_iff.1 hd).1
    omega
  · cases h

end Grammar

/-! ## Blank lines and the first line -/

@[simp] theorem judge_nil (g : Grammar) (s : ScanState) (pending : Bool) :
    judge g s pending [] = ⟨.blank, s, false⟩ := rfl

theorem kind_judge_eq_blank_iff : (judge g s pending line).kind = .blank ↔ line = [] := by
  refine ⟨fun h => ?_, fun h => by rw [h]; rfl⟩
  by_cases hl : line = []
  · exact hl
  simp only [judge, List.isEmpty_iff, hl, if_false] at h
  split at h
  · cases h
  split at h
  · cases h
  split at h
  · cases h
  split at h <;> cases h

/-- Whether an interpreter line is still possible does not matter for other lines. -/
theorem judge_pending (h : ¬ interpreterMark <+: line) : judge g s pending line = judge g s false line := by
  have h' : interpreterMark.isPrefixOf line = false := by simpa [← Bool.not_eq_true] using h
  simp only [judge, h', Bool.and_false, Bool.false_eq_true, if_false]

theorem judge_interpreter (hl : line ≠ []) (h : interpreterMark <+: line) :
    judge g s true line = ⟨.code, s, false⟩ := by
  simp [judge, hl, h]

/-- The indentation of a line counts if the line is code in its own right: not as an
interpreter line, and not because a delimiter makes code of it. -/
theorem indented_judge_iff : (judge g s pending line).indented = true ↔
    (judge g s pending line).kind = .code ∧ ¬ (pending = true ∧ interpreterMark <+: line) ∧
      (g.probe s line).1 ≠ .code := by
  unfold judge
  split
  · simp
  split
  next h =>
    rw [Bool.and_eq_true, List.isPrefixOf_iff_prefix] at h
    simp [h]
  next h =>
    rw [Bool.and_eq_true, List.isPrefixOf_iff_prefix] at h
    split
    · simp
    cases hprobe : g.probe s line with
    | mk hit s' =>
      cases hit with
      | code => simp
      | miss | comment =>
        by_cases hin : s'.isInBlock = true
        · simp [hin]
        · simp [hin, h]

/-! ## Within a block -/

theorem judge_inBlock (hd : g.blockComments[i]? = some d) (hl : line ≠ []) :
    judge g (.inBlock i p) false line = if d.hit line = .code then ⟨.code, .inBlock i p, false⟩
      else ⟨.comment, g.afterComment (.inBlock i p) line, false⟩ := by
  have hprobe : g.probe (.inBlock i p) line = (d.hit line, .inBlock i p) := by simp [Grammar.probe, hd]
  simp only [judge, List.isEmpty_iff, hl, if_false, Bool.false_and, Bool.false_eq_true,
    ScanState.isInBlock_inBlock, Bool.not_true, hprobe]
  cases d.hit line <;> rfl

/-- Within a block of a symmetric pair no line is code, and its occurrences of the
token decide what comes after it; a blank line has none. -/
theorem judge_symmetric (hd : g.blockComments[i]? = some d) (ho : d.opener ≠ "") (hs : d.opener = d.closer)
    (line : List Char) : judge g (.inBlock i p) false line =
      ⟨if line = [] then .blank else .comment,
        (ScanState.inBlock i p).afterSymmetric (Scan.occurrences d.opener.toList line), false⟩ := by
  by_cases hl : line = []
  · subst hl
    have hnone : Scan.occurrences d.opener.toList [] = 0 := rfl
    rw [judge_nil, if_pos rfl, hnone, ScanState.afterSymmetric_inBlock, if_neg (by simp), if_neg (by simp)]
  · rw [judge_inBlock hd hl, if_neg (hit_ne_code_of_symmetric hs line), if_neg hl,
      Grammar.afterComment_symmetric hd hs, openers_eq ho]

/-! ## Outside -/

theorem judge_lineComment (hl : line ≠ []) (h : g.startsLineComment line = true) :
    judge g .outside false line = ⟨.comment, .outside, false⟩ := by
  simp [judge, hl, h]

theorem judge_outside_hit {hit : PairHit} (hl : line ≠ []) (hc : g.startsLineComment line = false)
    (h : Grammar.firstHit line 0 g.blockComments = some (i, hit)) :
    judge g .outside false line = if hit = .code then ⟨.code, .inBlock i false, false⟩
      else ⟨.comment, g.afterComment (.inBlock i false) line, false⟩ := by
  have hprobe : g.probe .outside line = (hit, .inBlock i false) := by simp [Grammar.probe, h, ScanState.enter]
  simp only [judge, List.isEmpty_iff, hl, if_false, Bool.false_and, Bool.false_eq_true,
    ScanState.isInBlock_outside, hc, Bool.and_false, hprobe]
  cases hit <;> rfl

theorem judge_outside_miss (hl : line ≠ []) (hc : g.startsLineComment line = false)
    (h : Grammar.firstHit line 0 g.blockComments = none) :
    judge g .outside false line = ⟨.code, .outside, true⟩ := by
  have hprobe : g.probe .outside line = (.miss, .outside) := by simp [Grammar.probe, h]
  simp [judge, hl, hc, hprobe]

/-- A line that opens a block is not blank. The block is that of a pair that hits it,
and the hit decides the line as it does within the block. -/
theorem judge_opens_eq (h : (judge g .outside pending line).state = .inBlock i p) :
    line ≠ [] ∧ ∃ d, g.blockComments[i]? = some d ∧ d.opener ≠ "" ∧ d.hit line ≠ .miss ∧
      judge g .outside pending line = if d.hit line = .code then ⟨.code, .inBlock i false, false⟩
        else ⟨.comment, g.afterComment (.inBlock i false) line, false⟩ := by
  have hl : line ≠ [] := by rintro rfl; simp at h
  refine ⟨hl, ?_⟩
  by_cases hint : interpreterMark <+: line ∧ pending = true
  · obtain ⟨hint, rfl⟩ := hint
    simp [judge_interpreter hl hint] at h
  have hpending : judge g .outside pending line = judge g .outside false line := by
    cases pending with
    | false => rfl
    | true => exact judge_pending fun hm => hint ⟨hm, rfl⟩
  rw [hpending] at h ⊢
  by_cases hc : g.startsLineComment line = true
  · simp [judge_lineComment hl hc] at h
  rw [Bool.not_eq_true] at hc
  cases hf : Grammar.firstHit line 0 g.blockComments with
  | none => simp [judge_outside_miss hl hc hf] at h
  | some found =>
    obtain ⟨k, hit⟩ := found
    obtain ⟨j, d, hk, hd, rfl, hne, -⟩ := Grammar.firstHit_eq_some_iff.1 hf
    obtain rfl : k = j := by omega
    have ho : d.opener ≠ "" := fun he => hne (hit_of_opener_eq he line)
    have heq := judge_outside_hit hl hc hf
    -- The block that is open after the line is that of the pair that hit it.
    obtain rfl : k = i := by
      rw [heq] at h
      split at h
      · simp only [ScanState.inBlock.injEq] at h; exact h.1
      rcases Grammar.afterComment_cases line hd ho (p := false) (by simp) with hout | ⟨q, hin, -⟩
      · simp [hout] at h
      · simp only [hin, ScanState.inBlock.injEq] at h; exact h.1
    exact ⟨d, hd, ho, hne, heq⟩

/-- A line that opens a block counts as code or is the block's first comment line. -/
theorem judge_opens (h : (judge g .outside pending line).state = .inBlock i p) :
    line ≠ [] ∧ ∃ d, g.blockComments[i]? = some d ∧ d.opener ≠ "" ∧
      (d.hit line = .code ∧ p = false ∨ g.afterComment (.inBlock i false) line = .inBlock i p) := by
  obtain ⟨hl, d, hd, ho, -, heq⟩ := judge_opens_eq h
  refine ⟨hl, d, hd, ho, ?_⟩
  rw [heq] at h
  split at h
  next hcode =>
    simp only [ScanState.inBlock.injEq] at h
    exact .inl ⟨hcode, h.2.symm⟩
  next => exact .inr h

end LineCensus
