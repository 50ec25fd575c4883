/-
How far a block of an asymmetric pair reaches: from the line that opens it to the
first line that has the closer in it and is not code.

The three ways a line can go within the block (framed by a token, leaving the
opener unclosed, neither) agree on that: each of them ends at the search for the
closer, except for the lines that are code (`feed_asymmetric`).
-/
import LineCensus.Proofs.OpeningLine

namespace LineCensus.Scanner

open BlockDelimiter

variable {g : Grammar} {s : Scanner} {i : Nat} {p : Bool} {d : BlockDelimiter}

/-- The next line ends a block of the pair. -/
def Leaves (g : Grammar) (d : BlockDelimiter) (s : Scanner) (raw : List Char) : Prop :=
  d.closer.toList <:+: s.trimmed raw ∧ s.classify g raw ≠ .code

instance (raw : List Char) : Decidable (Leaves g d s raw) := inferInstanceAs (Decidable (_ ∧ _))

/-- No line of the run ends a block of the pair. -/
def NoneLeaves (g : Grammar) (d : BlockDelimiter) : Scanner → List (List Char) → Prop
  | _, [] => True
  | s, raw :: raws => ¬ Leaves g d s raw ∧ NoneLeaves g d (s.feed g raw) raws

/-! ## The opening line -/

theorem opens_asymmetric (hd : g.blockComments[i]? = some d) (ho : d.opener ≠ "") (hne : d.opener ≠ d.closer)
    (hs : s.state = .outside) (hpending : s.interpreterPending = false) {raw : List Char}
    (hopener : d.opener.toList <+: s.trimmed raw) (hcloser : ¬ d.closer.toList <:+: s.trimmed raw)
    (hcomment : g.startsLineComment (s.trimmed raw) = false)
    (hbefore : ∀ j < i, ∀ d', g.blockComments[j]? = some d' → d'.hit (s.trimmed raw) = .miss) :
    s.verdict g raw = ⟨.comment, .inBlock i false, false⟩ := by
  have hoffered : Offered g s raw i d := ⟨hd, hs, by simp [hpending], hcomment, hbefore⟩
  have hhit := hit_of_frames ho (.inl hopener)
  rw [hoffered.verdict_eq (hopener.ne_nil (token_toList_ne_nil ho)) (by simp [hhit]), if_neg (by simp [hhit]),
    Grammar.afterComment_asymmetric hd hne, if_neg hcloser]

/-! ## Within the block -/

/-- Every line within the block leaves it if it has the closer and is not code, and
stays in it otherwise. -/
theorem feed_asymmetric (h : Invariant g s) (hs : s.state = .inBlock i p) (hd : g.blockComments[i]? = some d)
    (hc : d.closer ≠ "") (hne : d.opener ≠ d.closer) (raw : List Char) :
    (s.feed g raw).state = if Leaves g d s raw then .outside else .inBlock i p := by
  have hv := h.verdict_inBlock hs raw
  have hleaves : Leaves g d s raw ↔ d.closer.toList <:+: s.trimmed raw ∧
      (judge g (.inBlock i p) false (s.trimmed raw)).kind ≠ .code := by
    unfold Leaves; rw [classify_eq, hv]
  simp only [feed_state, hv, hleaves]
  by_cases hl : s.trimmed raw = []
  · rw [hl, judge_nil, if_neg]
    rintro ⟨hcloser, -⟩
    exact token_toList_ne_nil hc (List.infix_nil.1 hcloser)
  · rw [judge_inBlock hd hl]
    by_cases hcode : d.hit (s.trimmed raw) = .code
    · simp [hcode]
    · rw [if_neg hcode, Grammar.afterComment_asymmetric hd hne]
      simp

theorem feedAll_asymmetric (h : Invariant g s) (hs : s.state = .inBlock i p) (hd : g.blockComments[i]? = some d)
    (hc : d.closer ≠ "") (hne : d.opener ≠ d.closer) {raws : List (List Char)} (hraws : NoneLeaves g d s raws) :
    (s.feedAll g raws).state = .inBlock i p := by
  induction raws generalizing s with
  | nil => exact hs
  | cons raw raws ih =>
    obtain ⟨hstay, hrest⟩ := hraws
    refine ih (h.feed raw) ?_ hrest
    rw [feed_asymmetric h hs hd hc hne, if_neg hstay]

/-- **The span of an asymmetric block.** Outside, past the first line with text, a
line that starts with the opener, lacks the closer, and is taken by no line comment
and no earlier pair opens the block. The block is left at the first line that has the
closer and is not code, whatever lines come before that one; lines with neither token
are comments in it, and so is a line with the closer that leaves no opener unclosed,
which is its last. -/
theorem asymmetric_block_span (h : Reachable g s) (hd : g.blockComments[i]? = some d) (ho : d.opener ≠ "")
    (hc : d.closer ≠ "") (hne : d.opener ≠ d.closer) :
    (s.state = .outside → s.interpreterPending = false → ∀ raw, d.opener.toList <+: s.trimmed raw →
      ¬ d.closer.toList <:+: s.trimmed raw → g.startsLineComment (s.trimmed raw) = false →
      (∀ j < i, ∀ d', g.blockComments[j]? = some d' → d'.hit (s.trimmed raw) = .miss) →
      s.classify g raw = .comment ∧ (s.feed g raw).state = .inBlock i false) ∧
    ∀ p, s.state = .inBlock i p →
      (∀ raws, NoneLeaves g d s raws → (s.feedAll g raws).state = .inBlock i p ∧
        ∀ raw, ((s.feedAll g raws).feed g raw).state =
          if Leaves g d (s.feedAll g raws) raw then .outside else .inBlock i p) ∧
      ∀ raw, (¬ d.opener.toList <:+: s.trimmed raw → ¬ d.closer.toList <:+: s.trimmed raw →
          s.classify g raw = (if s.trimmed raw = [] then .blank else .comment) ∧
          (s.feed g raw).state = .inBlock i p) ∧
        (d.closer.toList <:+: s.trimmed raw → d.isLeftOpen (s.trimmed raw) = false →
          s.classify g raw = .comment ∧ (s.feed g raw).state = .outside) := by
  have hinv := h.invariant
  refine ⟨fun hs hpending raw hopener hcloser hcomment hbefore => ?_, fun p hs => ⟨fun raws hraws => ?_,
    fun raw => ?_⟩⟩
  · have hv := opens_asymmetric hd ho hne hs hpending hopener hcloser hcomment hbefore
    exact ⟨by rw [classify_eq, hv], by rw [feed_state, hv]⟩
  · have hstate := feedAll_asymmetric hinv hs hd hc hne hraws
    exact ⟨hstate, feed_asymmetric (h.feedAll raws).invariant hstate hd hc hne⟩
  · refine ⟨fun hopener hcloser => ⟨?_, ?_⟩, fun hcloser hclosed => ?_⟩
    · rw [classify_eq, hinv.verdict_free hs hd hopener hcloser]
    · rw [feed_state, hinv.verdict_free hs hd hopener hcloser]
    · have hcode : d.hit (s.trimmed raw) ≠ .code := by
        intro hcode
        obtain ⟨-, -, hopen, -⟩ := hit_eq_code_iff.1 hcode
        rw [hclosed] at hopen
        cases hopen
      have hl : s.trimmed raw ≠ [] := hcloser.ne_nil (token_toList_ne_nil hc)
      have hv : s.verdict g raw = ⟨.comment, .outside, false⟩ := by
        rw [hinv.verdict_inBlock hs, judge_inBlock hd hl, if_neg hcode, Grammar.afterComment_asymmetric hd hne,
          if_pos hcloser]
      exact ⟨by rw [classify_eq, hv], by rw [feed_state, hv]⟩

theorem asymmetric_block_span_second :
    let g : Grammar := { lineComments := ["//"], blockComments := [⟨"/*", "*/"⟩, ⟨"/+", "+/"⟩] }
    let s := Scanner.feedAll g {} ["int x;".toList]
    let t := s.feed g "/+ a".toList
    let u := t.feedAll g ["// */ b".toList, [], "+/ c /+".toList]
    t.state = .inBlock 1 false ∧ u.state = .inBlock 1 false ∧ (u.feed g "d +/ e".toList).state = .outside ∧
      t.classify g "d".toList = .comment ∧ t.classify g "/+ f +/".toList = .comment := by
  intro g s t u
  have hs : Reachable g s := reachable_iff.2 ⟨_, rfl⟩
  have hopens := (asymmetric_block_span (i := 1) hs rfl (by decide) (by decide) (by decide)).1
  have ht : t.state = .inBlock 1 false := by
    refine (hopens rfl rfl "/+ a".toList (by decide) (by decide) (by decide) fun j hj d' hd' => ?_).2
    obtain rfl : j = 0 := by omega
    cases hd'
    decide
  have hwithin := (asymmetric_block_span (i := 1) (hs.feed _) rfl (by decide) (by decide) (by decide)).2 false ht
  obtain ⟨hu, hnext⟩ := hwithin.1 ["// */ b".toList, [], "+/ c /+".toList]
    ⟨by decide +kernel, by decide +kernel, by decide +kernel, trivial⟩
  refine ⟨ht, hu, ?_, ?_, ?_⟩
  · rw [hnext, if_pos (by decide +kernel)]
  · exact ((hwithin.2 "d".toList).1 (by decide +kernel) (by decide +kernel)).1
  · exact ((hwithin.2 "/+ f +/".toList).2 (by decide +kernel) (by decide +kernel)).1

end LineCensus.Scanner
