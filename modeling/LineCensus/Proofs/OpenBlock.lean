/-
The invariant of an open block: in every scan some run comes to, an open block is
that of a pair of the grammar with two tokens that are not empty, at odd parity
only if the pair is symmetric, and no interpreter line can come any more.

A pair with an opener but no closer does get entered, since every line ends with
the empty closer; it is left on the same line, since the empty closer occurs in
it. So the invariant holds between lines, not within one (`Grammar.afterComment_cases`
is where the closer is seen not to be empty).
-/
import LineCensus.Proofs.Run

namespace LineCensus

open BlockDelimiter

/-- What is so of an open block: its pair is there, its tokens are not empty, and
its parity is odd only where one token opens and closes. -/
def ScanState.Sound (g : Grammar) : ScanState → Prop
  | .outside => True
  | .inBlock i p => ∃ d, g.blockComments[i]? = some d ∧ d.opener ≠ "" ∧ d.closer ≠ "" ∧
      (p = true → d.opener = d.closer)

variable {g : Grammar} {i : Nat} {p : Bool} {d : BlockDelimiter}

/-! ## One line -/

/-- A comment line leads from a pair with an opener to a sound state, and to no
other pair. -/
theorem sound_afterComment (hd : g.blockComments[i]? = some d) (ho : d.opener ≠ "")
    (hp : p = true → d.opener = d.closer) (line : List Char) :
    (g.afterComment (.inBlock i p) line).Sound g ∧
      (g.afterComment (.inBlock i p) line = .outside ∨ ∃ q, g.afterComment (.inBlock i p) line = .inBlock i q) := by
  rcases Grammar.afterComment_cases line hd ho hp with hout | ⟨q, hin, hc, hq⟩
  · rw [hout]; exact ⟨trivial, .inl rfl⟩
  · rw [hin]; exact ⟨⟨d, hd, ho, hc, hq⟩, .inr ⟨q, rfl⟩⟩

/-- A line read within a block leaves it or stays in it. -/
theorem judge_stays (hs : (ScanState.inBlock i p).Sound g) (line : List Char) :
    (judge g (.inBlock i p) false line).state.Sound g ∧
      ((judge g (.inBlock i p) false line).state = .outside ∨
        ∃ q, (judge g (.inBlock i p) false line).state = .inBlock i q) := by
  obtain ⟨d, hd, ho, hc, hp⟩ := id hs
  by_cases hl : line = []
  · subst hl; exact ⟨hs, .inr ⟨p, rfl⟩⟩
  rw [judge_inBlock hd hl]
  split
  · exact ⟨hs, .inr ⟨p, rfl⟩⟩
  · exact sound_afterComment hd ho hp line

/-- A line that opens a block leads to a sound state. -/
theorem sound_judge_outside (g : Grammar) (pending : Bool) (line : List Char) :
    (judge g .outside pending line).state.Sound g := by
  cases hstate : (judge g .outside pending line).state with
  | outside => trivial
  | inBlock i p =>
    obtain ⟨-, d, hd, ho, ⟨hcode, rfl⟩ | hcomment⟩ := judge_opens hstate
    · exact ⟨d, hd, ho, closer_ne_of_hit_code hcode, by simp⟩
    · rw [← hcomment]
      exact (sound_afterComment hd ho (p := false) (by simp) line).1

/-! ## Every run -/

namespace Scanner

/-- The invariant of a scan. -/
structure Invariant (g : Grammar) (s : Scanner) : Prop where
  sound : s.state.Sound g
  settled : s.state.isInBlock = true → s.interpreterPending = false

/-- Outside there is nothing to keep. -/
theorem Invariant.of_outside {s : Scanner} (hs : s.state = .outside) : Invariant g s :=
  ⟨by rw [hs]; trivial, by simp [hs]⟩

theorem Invariant.start (g : Grammar) : Invariant g {} := .of_outside rfl

theorem Invariant.feed {s : Scanner} (h : Invariant g s) (raw : List Char) : Invariant g (s.feed g raw) := by
  rcases hs : s.state with _ | ⟨i, p⟩
  · refine ⟨?_, fun hin => ?_⟩
    · rw [feed_state, verdict_eq, hs]
      exact sound_judge_outside g s.interpreterPending (s.trimmed raw)
    · -- A line that opens a block is not blank, so it settles the question.
      cases hstate : (s.feed g raw).state with
      | outside => rw [hstate] at hin; cases hin
      | inBlock i p =>
        rw [feed_state, verdict_eq, hs] at hstate
        have hl := (judge_opens hstate).1
        have hkind : s.classify g raw ≠ .blank := by
          rw [classify_eq, verdict_eq]
          exact fun hb => hl (kind_judge_eq_blank_iff.1 hb)
        simp [hkind]
  · have hpending := h.settled (by rw [hs]; rfl)
    refine ⟨?_, fun _ => feed_interpreterPending_of_not hpending raw⟩
    rw [feed_state, verdict_eq, hs, hpending]
    exact (judge_stays (hs ▸ h.sound) _).1

theorem Invariant.feedAll {s : Scanner} (h : Invariant g s) (raws : List (List Char)) :
    Invariant g (s.feedAll g raws) := by
  induction raws generalizing s with
  | nil => exact h
  | cons raw raws ih => exact ih (h.feed raw)

theorem Reachable.invariant {s : Scanner} (h : Reachable g s) : Invariant g s := by
  induction h with
  | start => exact Invariant.start g
  | feed _ raw ih => exact ih.feed raw

/-- Within a block the decision is `judge_inBlock`'s: no interpreter line is possible. -/
theorem Invariant.verdict_inBlock {s : Scanner} (h : Invariant g s) (hs : s.state = .inBlock i p)
    (raw : List Char) : s.verdict g raw = judge g (.inBlock i p) false (s.trimmed raw) := by
  rw [verdict_eq, hs, h.settled (by rw [hs]; rfl)]

/-- The next line leaves the block or stays in it. -/
theorem Invariant.feed_stays {s : Scanner} (h : Invariant g s) (hs : s.state = .inBlock i p) (raw : List Char) :
    (s.feed g raw).state = .outside ∨ ∃ q, (s.feed g raw).state = .inBlock i q := by
  rw [feed_state, h.verdict_inBlock hs]
  exact (judge_stays (hs ▸ h.sound) _).2

/-- The pair of an open block, which has both tokens. -/
theorem Invariant.tokens_ne {s : Scanner} (h : Invariant g s) (hs : s.state = .inBlock i p)
    (hd : g.blockComments[i]? = some d) : d.opener ≠ "" ∧ d.closer ≠ "" := by
  have hsound : (ScanState.inBlock i p).Sound g := hs ▸ h.sound
  obtain ⟨d', hd', ho, hc, -⟩ := hsound
  obtain rfl : d' = d := Option.some.inj (hd'.symm.trans hd)
  exact ⟨ho, hc⟩

/-- A line with neither token is a comment within the block, or blank, and changes
nothing. -/
theorem Invariant.verdict_free {s : Scanner} (h : Invariant g s) (hs : s.state = .inBlock i p)
    (hd : g.blockComments[i]? = some d) {raw : List Char} (hopener : ¬ d.opener.toList <:+: s.trimmed raw)
    (hcloser : ¬ d.closer.toList <:+: s.trimmed raw) : s.verdict g raw =
      ⟨if s.trimmed raw = [] then .blank else .comment, .inBlock i p, false⟩ := by
  rw [h.verdict_inBlock hs]
  split
  next hl => rw [hl]; rfl
  next hl =>
    rw [judge_inBlock hd hl, if_neg (by simp [hit_of_free hopener hcloser]),
      Grammar.afterComment_free hd hopener hcloser]

/-- **Open blocks in every reachable scan.** The pair of an open block is in the
grammar, with an opener and a closer, is at odd parity only if they are the same,
and was opened after any interpreter line; the next line leaves the block or stays
in it, and is compared with this pair alone. So when a comment line is looked at
within a block, the pair is always found. -/
theorem reachable_openBlock {s : Scanner} (h : Reachable g s) :
    (∀ i p, s.state = .inBlock i p → ∃ d, g.blockComments[i]? = some d ∧ d.opener ≠ "" ∧ d.closer ≠ "" ∧
      (p = true → d.opener = d.closer) ∧ s.interpreterPending = false ∧
      (∀ raw, (s.feed g raw).state = .outside ∨ ∃ q, (s.feed g raw).state = .inBlock i q) ∧
      ∀ line, g.probe s.state line = (d.hit line, s.state)) ∧
    ∀ line i p, (g.probe s.state line).2 = .inBlock i p → i < g.blockComments.length := by
  have hinv := h.invariant
  refine ⟨fun i p hs => ?_, fun line i p hprobe => ?_⟩
  · have hsound : (ScanState.inBlock i p).Sound g := hs ▸ hinv.sound
    obtain ⟨d, hd, ho, hc, hp⟩ := id hsound
    refine ⟨d, hd, ho, hc, hp, hinv.settled (by rw [hs]; rfl), fun raw => ?_,
      fun line => by simp [hs, Grammar.probe, hd]⟩
    rw [feed_state, hinv.verdict_inBlock hs]
    exact (judge_stays hsound _).2
  · rcases hs : s.state with _ | ⟨j, q⟩
    · rw [hs] at hprobe
      exact Grammar.lt_of_probe_outside hprobe
    · have hsound : (ScanState.inBlock j q).Sound g := hs ▸ hinv.sound
      obtain ⟨d, hd, -⟩ := hsound
      simp only [hs, Grammar.probe, ScanState.inBlock.injEq] at hprobe
      obtain ⟨rfl, rfl⟩ := hprobe
      exact (List.getElem?_eq_some_iff.1 hd).1

theorem reachable_openBlock_docstring :
    let g : Grammar := { lineComments := ["#"], blockComments := [⟨"'''", "'''"⟩, ⟨"\"\"\"", "\"\"\""⟩] }
    let s := Scanner.feedAll g {} ["x = 1".toList, "\"\"\"text".toList]
    Reachable g s ∧ s.state = .inBlock 1 true ∧ s.interpreterPending = false ∧
      ∀ raw, (s.feed g raw).state = .outside ∨ ∃ q, (s.feed g raw).state = .inBlock 1 q := by
  intro g s
  have h : Reachable g s := reachable_iff.2 ⟨_, rfl⟩
  have hs : s.state = .inBlock 1 true := by decide
  obtain ⟨d, -, -, -, -, hpending, hnext, -⟩ := (reachable_openBlock h).1 1 true hs
  exact ⟨h, hs, hpending, hnext⟩

end Scanner

end LineCensus
