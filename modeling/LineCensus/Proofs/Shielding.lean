/-
What an open block keeps out. Until the block is left, a line is compared with the pair
that opened it and with nothing else: no line comment, no other pair and no interpreter
line. So two grammars with that pair at the same place decide the lines of the block alike
(`judge_inBlock_congr`).

An open block also settles the rest of a scan: it has read a line, and one with text. Two
scans in the same state within a block are therefore the same scan once their tallies are
(`Reachable.eq_of_inBlock`), and both grammars can be followed from one scan.
-/
import LineCensus.Proofs.OpenBlock

namespace LineCensus

variable {g g' : Grammar} {i : Nat} {p : Bool} {d : BlockDelimiter}

theorem Grammar.afterComment_congr (hd : g.blockComments[i]? = g'.blockComments[i]?) (p : Bool) (line : List Char) :
    g.afterComment (.inBlock i p) line = g'.afterComment (.inBlock i p) line := by
  simp only [afterComment, hd]

/-- Within a block, grammars with its pair in common decide alike. -/
theorem judge_inBlock_congr (hd : g.blockComments[i]? = some d) (hd' : g'.blockComments[i]? = some d) (p : Bool)
    (line : List Char) : judge g (.inBlock i p) false line = judge g' (.inBlock i p) false line := by
  by_cases hl : line = []
  · rw [hl, judge_nil, judge_nil]
  · rw [judge_inBlock hd hl, judge_inBlock hd' hl, Grammar.afterComment_congr (hd.trans hd'.symm)]

namespace Scanner

variable {s s' : Scanner} {raw : List Char}

/-- The lines of a run up to the one that leaves the block, and that one. -/
def blockLines (g : Grammar) : Scanner → List (List Char) → List (List Char)
  | _, [] => []
  | s, raw :: raws => if s.state.isInBlock then raw :: blockLines g (s.feed g raw) raws else []

theorem blockLines_cons (hs : s.state = .inBlock i p) (raw : List Char) (raws : List (List Char)) :
    s.blockLines g (raw :: raws) = raw :: (s.feed g raw).blockLines g raws := by
  rw [blockLines, hs, ScanState.isInBlock_inBlock, if_pos rfl]

theorem blockLines_outside (hs : s.state = .outside) (raws : List (List Char)) : s.blockLines g raws = [] := by
  cases raws with
  | nil => rfl
  | cons raw raws => rw [blockLines, hs, ScanState.isInBlock_outside, if_neg (by simp)]

/-- What a line leaves of a scan hangs on the decision about it. -/
theorem feed_congr (h : s.verdict g raw = s.verdict g' raw) : s.feed g raw = s.feed g' raw := by
  simp only [verdict] at h
  simp only [feed, h]

/-- The state and the tally make out a scan within a block. -/
theorem Reachable.eq_of_inBlock (h : Reachable g s) (h' : Reachable g' s') (hs : s.state = .inBlock i p)
    (hs' : s'.state = .inBlock i p) (htally : s.tally = s'.tally) : s = s' := by
  have hpending : s.interpreterPending = false := h.invariant.settled (by rw [hs]; rfl)
  have hpending' : s'.interpreterPending = false := h'.invariant.settled (by rw [hs']; rfl)
  have hstart : s.atStart = false := h.atStart hpending
  have hstart' : s'.atStart = false := h'.atStart hpending'
  cases s
  cases s'
  simp_all

/-- One line within a block, read with either grammar. -/
theorem Invariant.verdict_congr (h : Invariant g s) (h' : Invariant g' s) (hs : s.state = .inBlock i p)
    (hd : g.blockComments[i]? = some d) (hd' : g'.blockComments[i]? = some d) (raw : List Char) :
    s.verdict g raw = s.verdict g' raw := by
  rw [h.verdict_inBlock hs, h'.verdict_inBlock hs, judge_inBlock_congr hd hd']

/-- A run within a block, with either grammar. -/
theorem Invariant.run_congr (h : Invariant g s) (h' : Invariant g' s) (hs : s.state = .inBlock i p)
    (hd : g.blockComments[i]? = some d) (hd' : g'.blockComments[i]? = some d) (raws : List (List Char)) :
    s.blockLines g raws = s.blockLines g' raws ∧
      s.kinds g (s.blockLines g raws) = s.kinds g' (s.blockLines g raws) ∧
      s.scans g (s.blockLines g raws) = s.scans g' (s.blockLines g raws) := by
  induction raws generalizing s p with
  | nil => exact ⟨rfl, rfl, rfl⟩
  | cons raw raws ih =>
    have hv := h.verdict_congr h' hs hd hd' raw
    have hkind : s.classify g raw = s.classify g' raw := congrArg Verdict.kind hv
    have hfeed : s.feed g raw = s.feed g' raw := feed_congr hv
    rw [blockLines_cons hs, blockLines_cons hs, kinds, kinds, scans, scans, hkind, ← hfeed]
    rcases h.feed_stays hs raw with hout | ⟨q, hin⟩
    · -- The line leaves the block, so it is the last one.
      rw [blockLines_outside hout, blockLines_outside hout]
      exact ⟨rfl, rfl, rfl⟩
    · obtain ⟨hlines, hkinds, hscans⟩ := ih (h.feed raw) (hfeed ▸ h'.feed raw) hin
      exact ⟨by rw [hlines], by rw [hkinds], by rw [hscans]⟩

/-- **An open block shields its lines from the rest of the grammar.** Take two grammars
with the same pair at the block's place, whatever their other pairs and line comments, and
a scan with each that stands in the block, in the same state and with the same tally.
Whatever lines follow, the same one of them leaves the block, and up to that one the scans
agree after every line, in kind, state and tally. -/
theorem open_block_shields (h : Reachable g s) (h' : Reachable g' s') (hs : s.state = .inBlock i p)
    (hs' : s'.state = .inBlock i p) (htally : s.tally = s'.tally)
    (hd : g.blockComments[i]? = g'.blockComments[i]?) (raws : List (List Char)) :
    let block := s.blockLines g raws
    s'.blockLines g' raws = block ∧ s.kinds g block = s'.kinds g' block ∧
      s.states g block = s'.states g' block ∧
      (s.scans g block).map Scanner.tally = (s'.scans g' block).map Scanner.tally := by
  intro block
  obtain rfl : s = s' := h.eq_of_inBlock h' hs hs' htally
  have hsound : (ScanState.inBlock i p).Sound g := hs ▸ h.invariant.sound
  obtain ⟨pair, hpair, -⟩ := hsound
  obtain ⟨hlines, hkinds, hscans⟩ := h.invariant.run_congr h'.invariant hs hpair (hd ▸ hpair) raws
  exact ⟨hlines.symm, hkinds, congrArg (List.map Scanner.state) hscans, congrArg (List.map Scanner.tally) hscans⟩

theorem open_block_shields_second :
    let g : Grammar := { lineComments := ["//"], blockComments := [⟨"'''", "'''"⟩, ⟨"/*", "*/"⟩] }
    let g' : Grammar :=
      { lineComments := ["x", "*/"], blockComments := [⟨"b", "b"⟩, ⟨"/*", "*/"⟩, ⟨"*/", "*/"⟩] }
    let s := Scanner.feedAll g {} ["/* a".toList]
    let s' := Scanner.feedAll g' {} ["/* c".toList]
    let block := ["''' b".toList, "x /*".toList, "#! */ x".toList]
    s.blockLines g (block ++ ["x = 1".toList]) = block ∧ s'.blockLines g' (block ++ ["x = 1".toList]) = block ∧
      s'.kinds g' block = [.comment, .code, .comment] ∧
      s'.states g' block = [.inBlock 1 false, .inBlock 1 false, .outside] := by
  intro g g' s s' block
  have h : Reachable g s := reachable_iff.2 ⟨_, rfl⟩
  have h' : Reachable g' s' := reachable_iff.2 ⟨_, rfl⟩
  have hs : s.state = .inBlock 1 false := by decide +kernel
  have hs' : s'.state = .inBlock 1 false := by decide +kernel
  have hblock : s.blockLines g (block ++ ["x = 1".toList]) = block := by decide +kernel
  obtain ⟨hlines, hkinds, hstates, -⟩ :=
    open_block_shields h h' hs hs' (by decide +kernel) rfl (block ++ ["x = 1".toList])
  rw [hblock] at hlines hkinds hstates
  exact ⟨hblock, hlines, hkinds.symm.trans (by decide +kernel), hstates.symm.trans (by decide +kernel)⟩

end Scanner

end LineCensus
