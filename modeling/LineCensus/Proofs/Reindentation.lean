/-
What becomes of a scan when its lines are indented anew. White space around a line is
gone from the form in which it is compared, so kinds, states and counters stay
(`run_eq_of_forms`). It does count in the measure of the line, byte for byte as it is once
tabs are expanded, and in no other measure (`measure_surround`). Only a line that is code
in its own right is measured: no interpreter line, and none that a delimiter makes code of
by closing a block and opening it again (`indented_iff`).

A tab and the four spaces that it stands for make the same line, so nothing at all depends
on which of them is written.
-/
import LineCensus.Proofs.ReadAlike
import LineCensus.Proofs.Spacing

namespace LineCensus.Scanner

open Text

variable {g : Grammar} {s t : Scanner} {raw raw' a b : List Char} {raws raws' : List (List Char)}

/-- The line is an interpreter line. -/
def Interpreter (s : Scanner) (raw : List Char) : Prop :=
  s.interpreterPending = true ∧ interpreterMark <+: s.trimmed raw

/-- A delimiter makes code of the line, as of one that closes a block and opens it again
(`PairHit.code`). -/
def Reopens (g : Grammar) (s : Scanner) (raw : List Char) : Prop :=
  (g.probe s.state (s.trimmed raw)).1 = .code

/-- The line is code in its own right: it is no interpreter line, and it is not one that
closes a block and opens it again. -/
def Measures (g : Grammar) (s : Scanner) (raw : List Char) : Prop :=
  s.classify g raw = .code ∧ ¬ s.Interpreter raw ∧ ¬ s.Reopens g raw

instance (s : Scanner) (raw : List Char) : Decidable (s.Interpreter raw) := inferInstanceAs (Decidable (_ ∧ _))

instance (g : Grammar) (s : Scanner) (raw : List Char) : Decidable (s.Reopens g raw) :=
  inferInstanceAs (Decidable (_ = _))

instance (g : Grammar) (s : Scanner) (raw : List Char) : Decidable (s.Measures g raw) :=
  inferInstanceAs (Decidable (_ ∧ _))

theorem indented_iff : (s.verdict g raw).indented = true ↔ s.Measures g raw := by
  rw [Measures, classify_eq, verdict_eq]
  exact indented_judge_iff

/-! ## White space around a line -/

theorem trimmed_surround (ha : Blank a) (hb : Blank b)
    (hraw : Line.body s.atStart raw' = a ++ Line.body s.atStart raw ++ b) : s.trimmed raw' = s.trimmed raw := by
  rw [trimmed_eq_laterForm, trimmed_eq_laterForm, hraw, laterForm_surround ha hb]

theorem verdict_surround (ha : Blank a) (hb : Blank b)
    (hraw : Line.body s.atStart raw' = a ++ Line.body s.atStart raw ++ b) : s.verdict g raw' = s.verdict g raw := by
  rw [verdict_eq, verdict_eq, trimmed_surround ha hb hraw]

/-- White space around a line is measured as it is expanded. -/
theorem measure_surround (ha : Blank a) (hb : Blank b)
    (hraw : Line.body s.atStart raw' = a ++ Line.body s.atStart raw ++ b) : s.measure g raw' = s.measure g raw +
      if s.Measures g raw then (byteLength (Line.expandTabs (a ++ b)) : Int) else 0 := by
  have htrimmed : (Line.ofRaw s.atStart raw').trimmed = (Line.ofRaw s.atStart raw).trimmed :=
    trimmed_surround ha hb hraw
  have hlength : byteLength (Line.ofRaw s.atStart raw').expanded =
      byteLength (Line.ofRaw s.atStart raw).expanded + byteLength (Line.expandTabs (a ++ b)) := by
    simp only [Line.ofRaw_eq, hraw, Line.expandTabs_append, byteLength_append]
    omega
  rw [measure, measure, verdict_surround ha hb hraw]
  by_cases hmeasures : s.Measures g raw
  · rw [if_pos (indented_iff.2 hmeasures), if_pos (indented_iff.2 hmeasures), if_pos hmeasures, Line.indentMeasure,
      Line.indentMeasure, htrimmed, hlength]
    omega
  · have hskip : ¬ (s.verdict g raw).indented = true := mt indented_iff.1 hmeasures
    rw [if_neg hskip, if_neg hskip, if_neg hmeasures, Int.add_zero]

/-- The other lines of a run are measured as they were. -/
theorem indentation_surround (ha : Blank a) (hb : Blank b) {raws : List (List Char)}
    (hraw : Line.body (t.feedAll g raws).atStart raw' = a ++ Line.body (t.feedAll g raws).atStart raw ++ b)
    (rest : List (List Char)) : t.indentation g (raws ++ raw' :: rest) = t.indentation g (raws ++ raw :: rest) +
      if (t.feedAll g raws).Measures g raw then (byteLength (Line.expandTabs (a ++ b)) : Int) else 0 := by
  have hv : (t.feedAll g raws).verdict g raw' = (t.feedAll g raws).verdict g raw := verdict_surround ha hb hraw
  have halike : ReadAlike ((t.feedAll g raws).feed g raw') ((t.feedAll g raws).feed g raw) rest := by
    refine ⟨congrArg Verdict.state hv, fun _ _ => rfl, .inl ?_⟩
    rw [feed_interpreterPending, feed_interpreterPending, classify_eq, hv, ← classify_eq]
  obtain ⟨-, -, hrest⟩ := halike.run_eq (g := g)
  rw [indentation_append, indentation_append, indentation, indentation, measure_surround ha hb hraw, hrest]
  omega

/-! ## Tabs -/

theorem run_eq_of_retabbed (h : List.Forall₂ Line.Retabbed raws raws') (g : Grammar) (s : Scanner) :
    s.kinds g raws = s.kinds g raws' ∧ s.scans g raws = s.scans g raws' ∧ s.feedAll g raws = s.feedAll g raws' := by
  induction h generalizing s with
  | nil => exact ⟨rfl, rfl, rfl⟩
  | @cons raw raw' raws raws' hline _ ih =>
    have hread : Line.ofRaw s.atStart raw = Line.ofRaw s.atStart raw' := hline.ofRaw_eq s.atStart
    have hfeed : s.feed g raw = s.feed g raw' := feed_congr_ofRaw hread g
    have hkind : s.classify g raw = s.classify g raw' := by
      rw [classify_eq, classify_eq, verdict, verdict, hread]
    obtain ⟨hkinds, hscans, hlast⟩ := ih (s.feed g raw)
    refine ⟨?_, ?_, ?_⟩
    · rw [kinds, kinds, hkind, hkinds, hfeed]
    · rw [scans, scans, hscans, hfeed]
    · rw [feedAll_cons, feedAll_cons, hlast, hfeed]

/-- **Indenting a text anew changes its indentation sum only.** White space around any of
the lines makes no difference to kinds, states and counters; a byte order mark has gone off
the first line before. Put around one line, white space adds its bytes, with tabs expanded,
to the sum if the line is code in its own right, and nothing otherwise, as far as sums go.
And a tab can be written as four spaces, or the other way, anywhere. -/
theorem reindented (g : Grammar) :
    (∀ raws raws', List.Forall₂ Respaced (Scanner.texts {} raws) (Scanner.texts {} raws') →
      Scanner.kinds g {} raws = Scanner.kinds g {} raws' ∧ Scanner.states g {} raws = Scanner.states g {} raws' ∧
      ∀ k, (Scanner.feedAll g {} raws).tally.count k = (Scanner.feedAll g {} raws').tally.count k) ∧
    (∀ raws raw raw' rest a b, Blank a → Blank b →
      let s := Scanner.feedAll g {} raws
      Line.body s.atStart raw' = a ++ Line.body s.atStart raw ++ b →
      Scanner.indentation g {} (raws ++ raw' :: rest) ≤ indentLimit →
      (Scanner.feedAll g {} (raws ++ raw' :: rest)).tally.indent =
        (Scanner.feedAll g {} (raws ++ raw :: rest)).tally.indent +
          if s.Measures g raw then (byteLength (Line.expandTabs (a ++ b)) : Int) else 0) ∧
    ∀ raws raws', List.Forall₂ Line.Retabbed raws raws' →
      Scanner.kinds g {} raws = Scanner.kinds g {} raws' ∧ Scanner.scans g {} raws = Scanner.scans g {} raws' ∧
      Scanner.feedAll g {} raws = Scanner.feedAll g {} raws' := by
  refine ⟨fun raws raws' hspaced => ?_, fun raws raw raw' rest a b ha hb => ?_,
    fun raws raws' htabs => run_eq_of_retabbed htabs g {}⟩
  · obtain ⟨hkinds, hstates, -⟩ :=
      run_eq_of_forms (g := g) (s := {}) (t := {}) rfl rfl (forms_eq_of_respaced hspaced)
    exact ⟨hkinds, hstates, count_feedAll_congr hkinds⟩
  · intro s hraw hlimit
    have hsum : Scanner.indentation g {} (raws ++ raw' :: rest) = Scanner.indentation g {} (raws ++ raw :: rest) +
        if s.Measures g raw then (byteLength (Line.expandTabs (a ++ b)) : Int) else 0 :=
      indentation_surround ha hb hraw rest
    have hnonneg := ({} : Scanner).indentation_nonneg g (raws ++ raw :: rest)
    have hgrows : (0 : Int) ≤ if s.Measures g raw then (byteLength (Line.expandTabs (a ++ b)) : Int) else 0 := by
      split
      · exact Int.natCast_nonneg _
      · exact Int.le_refl 0
    have hzero : ({} : Scanner).tally.indent = 0 := rfl
    rw [indent_feedAll measured_start, indent_feedAll measured_start, hzero]
    omega

theorem reindented_c :
    let g : Grammar := { lineComments := ["//"], blockComments := [⟨"/*", "*/"⟩] }
    let mark := Text.byteOrderMark
    let raws := [mark :: "x = 1;".toList, "/* a".toList, "*/ f(); /*".toList, "*/".toList, "\ty\tz".toList]
    let spaced := [mark :: '\t' :: "x = 1;".toList, "/* a\u3000".toList, "\t*/ f(); /*".toList, " */\r".toList,
      "y\tz".toList]
    let tabless := [mark :: "x = 1;".toList, "/* a".toList, "*/ f(); /*".toList, "*/".toList, "    y\tz".toList]
    Scanner.kinds g {} spaced = [.code, .comment, .code, .comment, .code] ∧
      Scanner.states g {} spaced = [.outside, .inBlock 0 false, .inBlock 0 false, .outside, .outside] ∧
      (Scanner.feedAll g {} ((mark :: '\t' :: "x = 1;\u3000".toList) :: raws.tail)).tally.indent =
        (Scanner.feedAll g {} raws).tally.indent + 7 ∧
      (Scanner.feedAll g {} (raws.take 2 ++ "\t*/ f(); /*".toList :: raws.drop 3)).tally.indent =
        (Scanner.feedAll g {} raws).tally.indent ∧
      Scanner.feedAll g {} tabless = Scanner.feedAll g {} raws := by
  intro g mark raws spaced tabless
  obtain ⟨hspaced, hsum, htabs⟩ := reindented g
  have hlines : List.Forall₂ Respaced (Scanner.texts {} raws) (Scanner.texts {} spaced) := by
    refine .cons ⟨[], [], ['\t'], [], "x = 1;".toList, ?_⟩ (.cons ⟨[], [], [], ['\u3000'], "/* a".toList, ?_⟩
      (.cons ⟨[], [], ['\t'], [], "*/ f(); /*".toList, ?_⟩ (.cons ⟨[], [], [' '], ['\r'], "*/".toList, ?_⟩
      (.cons ⟨['\t'], [], [], [], "y\tz".toList, ?_⟩ .nil))))
    all_goals decide +kernel
  obtain ⟨hkinds, hstates, -⟩ := hspaced raws spaced hlines
  have hfirst := hsum [] (mark :: "x = 1;".toList) (mark :: '\t' :: "x = 1;\u3000".toList) raws.tail ['\t'] ['\u3000']
    (by decide) (by decide) (by decide +kernel) (by decide +kernel)
  have hreopens := hsum (raws.take 2) "*/ f(); /*".toList "\t*/ f(); /*".toList (raws.drop 3) ['\t'] []
    (by decide) (by decide) (by decide +kernel) (by decide +kernel)
  rw [if_pos (by decide +kernel)] at hfirst
  rw [if_neg (by decide +kernel)] at hreopens
  refine ⟨hkinds.symm.trans (by decide +kernel), hstates.symm.trans (by decide +kernel), hfirst, ?_, ?_⟩
  · rw [hreopens, Int.add_zero]
    rfl
  · have hlast : Line.Retabbed "    y\tz".toList "\ty\tz".toList := .tab (.refl "y\tz".toList)
    exact (htabs tabless raws (.cons (.refl _) (.cons (.refl _) (.cons (.refl _) (.cons (.refl _)
      (.cons hlast .nil)))))).2.2

end LineCensus.Scanner
