/-
Lines of white space put between the lines of a text. Such a line has no form, so it
leaves the state alone, keeps an interpreter line possible if it was, and adds no
indentation (`verdict_of_blank`). All it takes away is the first place in the text, and
with it the chance of a byte order mark in front of a line that follows.

Where lines have been put in is said by marks, one for each line of the whole: `unmarked`
leaves the text's own lines, and what is seen at them.
-/
import LineCensus.Proofs.ReadAlike
import LineCensus.Proofs.Spacing

namespace LineCensus.Scanner

open Text

variable {g : Grammar} {s t : Scanner} {raw : List Char} {marks : List Bool} {raws : List (List Char)}

/-- What stands at the places that have no mark. -/
def unmarked {α : Type} : List Bool → List α → List α
  | mark :: marks, x :: xs => if mark then unmarked marks xs else x :: unmarked marks xs
  | _, _ => []

@[simp] theorem unmarked_true {α : Type} (marks : List Bool) (x : α) (xs : List α) :
    unmarked (true :: marks) (x :: xs) = unmarked marks xs := rfl

@[simp] theorem unmarked_false {α : Type} (marks : List Bool) (x : α) (xs : List α) :
    unmarked (false :: marks) (x :: xs) = x :: unmarked marks xs := rfl

/-! ## One line of white space -/

theorem verdict_of_blank (h : Blank raw) (g : Grammar) (s : Scanner) :
    s.verdict g raw = ⟨.blank, s.state, false⟩ := by
  rw [verdict_eq, trimmed_of_blank h, judge_nil]

theorem classify_of_blank (h : Blank raw) (g : Grammar) (s : Scanner) : s.classify g raw = .blank := by
  rw [classify_eq, verdict_of_blank h]

theorem measure_of_blank (h : Blank raw) (g : Grammar) (s : Scanner) : s.measure g raw = 0 := by
  rw [measure, verdict_of_blank h, if_neg (by simp)]

theorem dropMark_of_head?_ne (h : raw.head? ≠ some byteOrderMark) : Line.dropMark raw = raw := by
  cases raw with
  | nil => rfl
  | cons c cs =>
    refine if_neg fun hc => ?_
    rw [hc] at h
    exact h rfl

/-- A line of white space put in front leaves the scans alike, if no mark is lost by it. -/
theorem ReadAlike.feed_blank (h : ReadAlike t s raws) (hraw : Blank raw)
    (hmark : s.atStart = true → ∀ next ∈ raws.head?, Line.dropMark next = next) :
    ReadAlike (t.feed g raw) s raws where
  state := by rw [feed_state, verdict_of_blank hraw, h.state]
  line := by
    intro next hnext
    rw [feed_atStart]
    cases hs : s.atStart with
    | false => rfl
    | true => simp only [Line.ofRaw, Bool.false_eq_true, if_false, if_true, hmark hs next hnext]
  pending := by
    rw [feed_interpreterPending, classify_of_blank hraw, beq_self_eq_true, Bool.and_true]
    exact h.pending

/-! ## A text with such lines put in -/

/-- The runs over the whole and over the text's own lines, side by side. -/
theorem run_unmarked (h : ReadAlike t s (unmarked marks raws))
    (hput : List.Forall₂ (fun mark raw => mark = true → Blank raw) marks raws)
    (hmark : s.atStart = true → marks.head? = some true →
      ∀ next ∈ (unmarked marks raws).head?, Line.dropMark next = next) :
    unmarked marks (t.kinds g raws) = s.kinds g (unmarked marks raws) ∧
      unmarked marks (t.states g raws) = s.states g (unmarked marks raws) ∧
      (t.feedAll g raws).state = (s.feedAll g (unmarked marks raws)).state ∧
      t.indentation g raws = s.indentation g (unmarked marks raws) ∧
      ∀ k, (t.kinds g raws).count k =
        (s.kinds g (unmarked marks raws)).count k + if k = .blank then marks.count true else 0 := by
  induction hput generalizing s t with
  | nil => exact ⟨rfl, rfl, h.state, rfl, fun k => by simp [unmarked, kinds]⟩
  | @cons mark raw marks raws hraw _ ih =>
    cases mark with
    | true =>
      have hblank : Blank raw := hraw rfl
      rw [unmarked_true] at h hmark
      obtain ⟨hkinds, hstates, hstate, hindent, hcount⟩ :=
        ih (h.feed_blank (g := g) hblank fun hs => hmark hs rfl) fun hs _ => hmark hs rfl
      refine ⟨hkinds, hstates, hstate, ?_, fun k => ?_⟩
      · rw [indentation, measure_of_blank hblank, hindent, unmarked_true, Int.zero_add]
      · rw [kinds, classify_of_blank hblank, unmarked_true, List.count_cons, hcount, List.count_cons_self]
        cases k <;> simp [Nat.add_assoc]
    | false =>
      rw [unmarked_false] at h
      obtain ⟨hkinds, hstates, hstate, hindent, hcount⟩ := ih (h.feed (g := g)) fun hs => by cases hs
      have hkind : t.classify g raw = s.classify g raw := congrArg Verdict.kind h.verdict_eq
      have hnext : (t.feed g raw).state = (s.feed g raw).state := congrArg Verdict.state h.verdict_eq
      refine ⟨?_, ?_, hstate, ?_, fun k => ?_⟩
      · rw [kinds, unmarked_false, hkinds, hkind, unmarked_false, kinds]
      · rw [states_cons, unmarked_false, hstates, hnext, unmarked_false, states_cons]
      · rw [indentation, h.measure_eq, hindent, unmarked_false, indentation]
      · rw [kinds, hkind, unmarked_false, kinds, List.count_cons, List.count_cons, hcount,
          List.count_cons_of_ne (by simp)]
        omega

/-- **Blank lines are transparent.** Lines of white space are put into a text at the
marked places, but not before a first line with a byte order mark. The text's own lines
keep their kinds and the states after them; the counters of code and comments, the
indentation sum and the last state stay what they were; and the counter of blank lines
goes up by the number of lines put in, as far as counters go. -/
theorem blank_lines_transparent (g : Grammar)
    (hput : List.Forall₂ (fun mark raw => mark = true → Blank raw) marks raws)
    (hmark : marks.head? = some true → ∀ raw ∈ (unmarked marks raws).head?, raw.head? ≠ some byteOrderMark) :
    let own := unmarked marks raws
    let whole := Scanner.feedAll g {} raws
    let alone := Scanner.feedAll g {} own
    unmarked marks (Scanner.kinds g {} raws) = Scanner.kinds g {} own ∧
      unmarked marks (Scanner.states g {} raws) = Scanner.states g {} own ∧
      whole.tally.code = alone.tally.code ∧ whole.tally.comments = alone.tally.comments ∧
      whole.tally.indent = alone.tally.indent ∧ whole.state = alone.state ∧
      whole.tally.blanks.value = min (alone.tally.blanks.value + marks.count true) Count.limit ∧
      (raws.length < wordSize → whole.tally.blanks.value = alone.tally.blanks.value + marks.count true) := by
  intro own whole alone
  have hsame : ReadAlike {} {} own := ⟨rfl, fun _ _ => rfl, .inl rfl⟩
  obtain ⟨hkinds, hstates, hstate, hindent, hcounts⟩ := run_unmarked (g := g) hsame hput fun _ hfirst next hnext =>
    dropMark_of_head?_ne (hmark hfirst next hnext)
  have hcount : ∀ k, (Scanner.kinds g {} raws).count k =
      (Scanner.kinds g {} own).count k + if k = .blank then marks.count true else 0 := hcounts
  have hwhole : ∀ k, (whole.tally.count k).value = min ((Scanner.kinds g {} raws).count k) Count.limit :=
    count_feedAll_start g raws
  have halone : ∀ k, (alone.tally.count k).value = min ((Scanner.kinds g {} own).count k) Count.limit :=
    count_feedAll_start g own
  have hother : ∀ k, k ≠ .blank → whole.tally.count k = alone.tally.count k := by
    intro k hk
    refine Count.eq_of_value_eq ?_
    rw [hwhole, halone, hcount, if_neg hk, Nat.add_zero]
  have hblanks : whole.tally.blanks.value = min (alone.tally.blanks.value + marks.count true) Count.limit := by
    have hwhole' := hwhole .blank
    have halone' := halone .blank
    rw [hcount, if_pos rfl] at hwhole'
    simp only [Tally.count] at hwhole' halone'
    omega
  refine ⟨hkinds, hstates, hother .code (by simp), hother .comment (by simp), ?_, hstate, hblanks, fun hsize => ?_⟩
  · rw [indent_feedAll measured_start, indent_feedAll measured_start, hindent]
  · have hfew := (Scanner.kinds g {} raws).count_le_length (a := .blank)
    have halone' := halone .blank
    rw [length_kinds, hcount, if_pos rfl] at hfew
    simp only [Tally.count] at halone'
    rw [hblanks]
    simp only [Count.limit] at halone' ⊢
    omega

theorem blank_lines_transparent_shell :
    let g : Grammar := { lineComments := ["#"], blockComments := [⟨"<#", "#>"⟩] }
    let marks := [true, false, false, true, true, false, false]
    let raws := ["\t ".toList, "#!/bin/sh".toList, "<# a".toList, [], " \u2003".toList, "".toList, "b #>".toList]
    let own := ["#!/bin/sh".toList, "<# a".toList, "".toList, "b #>".toList]
    unmarked marks raws = own ∧
      unmarked marks (Scanner.kinds g {} raws) = [.code, .comment, .blank, .comment] ∧
      (Scanner.feedAll g {} raws).state = .outside ∧
      (Scanner.feedAll g {} raws).tally.blanks.value = (Scanner.feedAll g {} own).tally.blanks.value + 3 := by
  intro g marks raws own
  have hput : List.Forall₂ (fun mark raw => mark = true → Blank raw) marks raws := by
    simp only [marks, raws, List.forall₂_cons, List.Forall₂.nil, and_true]
    decide +kernel
  have hmark : marks.head? = some true →
      ∀ raw ∈ (unmarked marks raws).head?, raw.head? ≠ some byteOrderMark := by
    decide +kernel
  obtain ⟨hkinds, -, -, -, -, hstate, -, hblanks⟩ := blank_lines_transparent g hput hmark
  exact ⟨by decide +kernel, hkinds.trans (by decide +kernel), hstate.trans (by decide +kernel),
    hblanks (by decide +kernel)⟩

end LineCensus.Scanner
