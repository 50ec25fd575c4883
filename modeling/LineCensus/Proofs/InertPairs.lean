/-
Pairs that hit no line of a text may as well not be in the grammar: a pair without an opener,
and one whose opener is in no line while no line ends with its closer (`BlockDelimiter.Inert`).
With such pairs taken away, the first hit on a line is the same pair (`Grammar.firstHit_unmarked`),
so no block that opens is one of theirs, and every line is decided as before. Only the places
of the pairs that are left change, and with them the states: `ScanState.renumber` moves a state
from the one grammar to the other, and every step goes along with it (`Scanner.feed_without`).

Which pairs are taken away is said by marks, one for each pair, as for lines that are put into
a text (`Scanner.unmarked`).
-/
import LineCensus.Proofs.BlankLines

namespace LineCensus

open BlockDelimiter Scanner

variable {g : Grammar} {d : BlockDelimiter} {line : List Char} {marks : List Bool} {i j : Nat}

/-- The pair cannot hit the line: it has no opener, or the line neither has the opener in it
nor ends with the closer. -/
def BlockDelimiter.Inert (d : BlockDelimiter) (line : List Char) : Prop :=
  d.opener = "" ∨ ¬ d.opener.toList <:+: line ∧ ¬ d.closer.toList <:+ line

instance (d : BlockDelimiter) (line : List Char) : Decidable (d.Inert line) := inferInstanceAs (Decidable (_ ∨ _))

theorem BlockDelimiter.hit_of_inert (h : d.Inert line) : d.hit line = .miss := by
  rcases h with he | ⟨hopener, hcloser⟩
  · exact hit_of_opener_eq he line
  · exact hit_of_absent hopener hcloser

/-! ## Places among what has no mark -/

/-- The place of the `i`-th item among those without a mark. -/
def unmarkedPlace (marks : List Bool) (i : Nat) : Nat := (marks.take i).count false

@[simp] theorem unmarkedPlace_zero (marks : List Bool) : unmarkedPlace marks 0 = 0 := rfl

@[simp] theorem unmarkedPlace_true (marks : List Bool) (i : Nat) :
    unmarkedPlace (true :: marks) (i + 1) = unmarkedPlace marks i := by
  simp [unmarkedPlace]

@[simp] theorem unmarkedPlace_false (marks : List Bool) (i : Nat) :
    unmarkedPlace (false :: marks) (i + 1) = unmarkedPlace marks i + 1 := by
  simp [unmarkedPlace]

theorem getElem?_unmarked {α : Type} (h : marks[i]? = some false) (xs : List α) :
    (unmarked marks xs)[unmarkedPlace marks i]? = xs[i]? := by
  induction marks generalizing i xs with
  | nil => simp at h
  | cons mark marks ih =>
    cases xs with
    | nil => simp [unmarked]
    | cons x xs =>
      cases i with
      | zero =>
        obtain rfl : mark = false := by simpa using h
        rfl
      | succ i => cases mark <;> simpa using ih (by simpa using h) xs

/-- What has no mark keeps its order. -/
theorem unmarkedPlace_lt (h : marks[i]? = some false) (hij : i < j) :
    unmarkedPlace marks i < unmarkedPlace marks j := by
  induction marks generalizing i j with
  | nil => simp at h
  | cons mark marks ih =>
    obtain ⟨j, rfl⟩ : ∃ k, j = k + 1 := ⟨j - 1, by omega⟩
    cases i with
    | zero =>
      obtain rfl : mark = false := by simpa using h
      simp
    | succ i =>
      have hrest := ih (i := i) (j := j) (by simpa using h) (by omega)
      cases mark <;> simpa using hrest

/-! ## One line -/

/-- A state in the grammar without the marked pairs. -/
def ScanState.renumber (marks : List Bool) : ScanState → ScanState
  | .outside => .outside
  | .inBlock i p => .inBlock (unmarkedPlace marks i) p

/-- The open block is not that of a marked pair. -/
def ScanState.Unmarked (marks : List Bool) : ScanState → Prop
  | .outside => True
  | .inBlock i _ => marks[i]? = some false

/-- The grammar without the marked pairs. -/
def Grammar.without (g : Grammar) (marks : List Bool) : Grammar :=
  { g with blockComments := unmarked marks g.blockComments }

/-- No marked pair hits the line. -/
def MarkedMiss (marks : List Bool) (line : List Char) (ds : List BlockDelimiter) : Prop :=
  List.Forall₂ (fun mark d => mark = true → d.hit line = .miss) marks ds

/-- Pairs that can hit none of several lines hit none of them. -/
theorem MarkedMiss.of_inert {lines : List (List Char)} {ds : List BlockDelimiter}
    (h : List.Forall₂ (fun mark d => mark = true → ∀ line ∈ lines, BlockDelimiter.Inert d line) marks ds) :
    ∀ line ∈ lines, MarkedMiss marks line ds :=
  fun line hline => h.imp fun _ _ hinert hmark => hit_of_inert (hinert hmark line hline)

theorem MarkedMiss.getElem?_of_hit {ds : List BlockDelimiter} (h : MarkedMiss marks line ds) (hd : ds[i]? = some d)
    (hhit : d.hit line ≠ .miss) : marks[i]? = some false := by
  induction h generalizing i with
  | nil => simp at hd
  | @cons mark d' marks ds hmark _ ih =>
    cases i with
    | zero =>
      obtain rfl : d' = d := by simpa using hd
      simpa using mt hmark hhit
    | succ i => exact ih (by simpa using hd)

@[simp] theorem ScanState.isInBlock_renumber (marks : List Bool) (s : ScanState) :
    (s.renumber marks).isInBlock = s.isInBlock := by
  cases s <;> rfl

theorem ScanState.Unmarked.afterSymmetric {p : Bool} (h : (inBlock i p).Unmarked marks) (n : Nat) :
    ((inBlock i p).afterSymmetric n).Unmarked marks := by
  rw [afterSymmetric_inBlock]
  split
  · trivial
  split <;> exact h

theorem ScanState.afterSymmetric_renumber (marks : List Bool) (i : Nat) (p : Bool) (n : Nat) :
    (ScanState.inBlock (unmarkedPlace marks i) p).afterSymmetric n =
      ((ScanState.inBlock i p).afterSymmetric n).renumber marks := by
  rw [afterSymmetric_inBlock, afterSymmetric_inBlock, apply_ite (renumber marks), apply_ite (renumber marks)]
  rfl

namespace Grammar

theorem firstHit_succ (line : List Char) (k : Nat) (ds : List BlockDelimiter) :
    firstHit line (k + 1) ds = (firstHit line k ds).map (Prod.map (· + 1) id) := by
  induction ds generalizing k with
  | nil => rfl
  | cons d ds ih =>
    by_cases hm : d.hit line = .miss
    · rw [firstHit_cons_of_miss hm, firstHit_cons_of_miss hm, ih]
    · rw [firstHit_cons_of_hit hm, firstHit_cons_of_hit hm]
      rfl

/-- The first hit is the same pair without the marked ones. -/
theorem firstHit_unmarked {ds : List BlockDelimiter} (h : MarkedMiss marks line ds) :
    firstHit line 0 (unmarked marks ds) = (firstHit line 0 ds).map (Prod.map (unmarkedPlace marks) id) := by
  induction h with
  | nil => rfl
  | @cons mark d marks ds hmark _ ih =>
    by_cases hm : d.hit line = .miss
    · rw [firstHit_cons_of_miss hm, firstHit_succ]
      cases mark with
      | true =>
        rw [unmarked_true, ih]
        cases firstHit line 0 ds <;> simp [Prod.map]
      | false =>
        rw [unmarked_false, firstHit_cons_of_miss hm, firstHit_succ, ih]
        cases firstHit line 0 ds <;> simp [Prod.map]
    · obtain rfl : mark = false := by simpa using mt hmark hm
      rw [unmarked_false, firstHit_cons_of_hit hm, firstHit_cons_of_hit hm]
      rfl

theorem probe_without {s : ScanState} (hs : s.Unmarked marks) (h : MarkedMiss marks line g.blockComments) :
    (g.without marks).probe (s.renumber marks) line = ((g.probe s line).1, (g.probe s line).2.renumber marks) := by
  cases s with
  | outside =>
    simp only [probe, ScanState.renumber, without, firstHit_unmarked h]
    cases firstHit line 0 g.blockComments <;> rfl
  | inBlock i p => simp only [probe, ScanState.renumber, without, getElem?_unmarked hs]

/-- No block opens with a marked pair. -/
theorem unmarked_probe {s : ScanState} (hs : s.Unmarked marks) (h : MarkedMiss marks line g.blockComments) :
    (g.probe s line).2.Unmarked marks := by
  cases s with
  | outside =>
    simp only [probe]
    split
    next k hit hfirst =>
      obtain ⟨j, d, rfl, hd, rfl, hhit, -⟩ := firstHit_eq_some_iff.1 hfirst
      simpa [ScanState.enter, ScanState.Unmarked] using h.getElem?_of_hit hd hhit
    next => trivial
  | inBlock i p => exact hs

theorem afterComment_without {s : ScanState} (hs : s.Unmarked marks) (line : List Char) :
    (g.without marks).afterComment (s.renumber marks) line = (g.afterComment s line).renumber marks := by
  cases s with
  | outside => rfl
  | inBlock i p =>
    simp only [afterComment, ScanState.renumber, without, getElem?_unmarked hs]
    cases g.blockComments[i]? with
    | none => rfl
    | some d =>
      dsimp only
      split
      · exact ScanState.afterSymmetric_renumber marks i p _
      split <;> rfl

theorem unmarked_afterComment {s : ScanState} (hs : s.Unmarked marks) (line : List Char) :
    (g.afterComment s line).Unmarked marks := by
  cases s with
  | outside => trivial
  | inBlock i p =>
    simp only [afterComment]
    cases g.blockComments[i]? with
    | none => trivial
    | some d =>
      dsimp only
      split
      · exact hs.afterSymmetric _
      split
      · trivial
      · exact hs

end Grammar

/-- A line is decided as before, and leads to the same state under its new number. -/
theorem judge_without {s : ScanState} (hs : s.Unmarked marks) (h : MarkedMiss marks line g.blockComments)
    (pending : Bool) : judge (g.without marks) (s.renumber marks) pending line =
      { judge g s pending line with state := (judge g s pending line).state.renumber marks } := by
  have hprobe := Grammar.probe_without hs h
  have hprobed := Grammar.unmarked_probe hs h
  have hcomment : (g.without marks).startsLineComment line = g.startsLineComment line := rfl
  simp only [judge, ScanState.isInBlock_renumber, hcomment, hprobe]
  split
  · rfl
  split
  · rfl
  split
  · rfl
  rcases hp : g.probe s line with ⟨hit, s'⟩
  rw [hp] at hprobed
  cases hit with
  | code => rfl
  | miss | comment =>
    simp only [ScanState.isInBlock_renumber, Grammar.afterComment_without hprobed]
    split <;> rfl

theorem unmarked_judge {s : ScanState} (hs : s.Unmarked marks) (h : MarkedMiss marks line g.blockComments)
    (pending : Bool) : (judge g s pending line).state.Unmarked marks := by
  have hprobed := Grammar.unmarked_probe hs h
  unfold judge
  split
  · exact hs
  split
  · exact hs
  split
  · exact hs
  rcases hp : g.probe s line with ⟨hit, s'⟩
  rw [hp] at hprobed
  cases hit with
  | code => exact hprobed
  | miss | comment =>
    dsimp only
    split
    · exact Grammar.unmarked_afterComment hprobed line
    · exact hprobed

namespace Scanner

variable {s : Scanner} {raw : List Char} {raws : List (List Char)}

/-- A scan in the grammar without the marked pairs. -/
def renumber (marks : List Bool) (s : Scanner) : Scanner := { s with state := s.state.renumber marks }

theorem verdict_without (hs : s.state.Unmarked marks) (h : MarkedMiss marks (s.trimmed raw) g.blockComments) :
    (s.renumber marks).verdict (g.without marks) raw =
      { s.verdict g raw with state := (s.verdict g raw).state.renumber marks } :=
  judge_without hs h s.interpreterPending

/-- Reading a line goes along with the new numbers. -/
theorem feed_without (hs : s.state.Unmarked marks) (h : MarkedMiss marks (s.trimmed raw) g.blockComments) :
    (s.renumber marks).feed (g.without marks) raw = (s.feed g raw).renumber marks := by
  have hv : judge (g.without marks) (s.state.renumber marks) s.interpreterPending (Line.ofRaw s.atStart raw).trimmed =
      { s.verdict g raw with state := (s.verdict g raw).state.renumber marks } := verdict_without hs h
  simp only [feed, renumber, hv]
  rfl

/-! ## Every run -/

/-- The runs with the marked pairs and without them, side by side. -/
theorem run_without (hs : s.state.Unmarked marks)
    (h : ∀ form ∈ s.forms raws, MarkedMiss marks form g.blockComments) :
    (s.renumber marks).kinds (g.without marks) raws = s.kinds g raws ∧
      (s.renumber marks).scans (g.without marks) raws = (s.scans g raws).map (renumber marks) ∧
      (s.renumber marks).feedAll (g.without marks) raws = (s.feedAll g raws).renumber marks ∧
      ∀ scan ∈ s.scans g raws, scan.state.Unmarked marks := by
  induction raws generalizing s with
  | nil => exact ⟨rfl, rfl, rfl, by simp [scans]⟩
  | cons raw raws ih =>
    rw [forms_cons g, List.forall_mem_cons] at h
    have hkind : (s.renumber marks).classify (g.without marks) raw = s.classify g raw :=
      by rw [classify_eq, verdict_without hs h.1]; rfl
    have hfeed := feed_without hs h.1
    have hnext : (s.feed g raw).state.Unmarked marks := unmarked_judge hs h.1 s.interpreterPending
    obtain ⟨hkinds, hscans, hlast, hunmarked⟩ := ih hnext h.2
    refine ⟨?_, ?_, ?_, ?_⟩
    · rw [kinds, kinds, hkind, hfeed, hkinds]
    · rw [scans, scans, hfeed, hscans, List.map_cons]
    · rw [feedAll_cons, feedAll_cons, hfeed, hlast]
    · rw [scans]
      exact List.forall_mem_cons.2 ⟨hnext, hunmarked⟩

/-- **Pairs that hit no line are inert.** Pairs are taken out of a grammar at the marked
places, each of them a pair without an opener, or one whose opener is in no line's form and
whose closer ends none. Every line of the text keeps its kind, and the counters and the
indentation sum are the same after every line. So are the states, but for the place of the
open block's pair: that pair is never one of those taken out, it is the same pair under its
new number, and the pairs that are left keep their order. -/
theorem inert_pairs (g : Grammar)
    (hmarks : List.Forall₂ (fun mark d => mark = true → ∀ form ∈ Scanner.forms {} raws, d.Inert form)
      marks g.blockComments) :
    let g' := g.without marks
    Scanner.kinds g' {} raws = Scanner.kinds g {} raws ∧
      (Scanner.scans g' {} raws).map tally = (Scanner.scans g {} raws).map tally ∧
      (Scanner.feedAll g' {} raws).tally = (Scanner.feedAll g {} raws).tally ∧
      Scanner.states g' {} raws = (Scanner.states g {} raws).map (ScanState.renumber marks) ∧
      (∀ i p, .inBlock i p ∈ Scanner.states g {} raws → marks[i]? = some false ∧
        g'.blockComments[unmarkedPlace marks i]? = g.blockComments[i]?) ∧
      ∀ i j, marks[i]? = some false → i < j → unmarkedPlace marks i < unmarkedPlace marks j := by
  intro g'
  obtain ⟨hkinds, hscans, hlast, hunmarked⟩ :=
    run_without (s := {}) (g := g) trivial (MarkedMiss.of_inert hmarks)
  have hstart : ({} : Scanner).renumber marks = {} := rfl
  rw [hstart] at hkinds hscans hlast
  refine ⟨hkinds, ?_, by rw [hlast]; rfl, ?_, fun i p hopen => ?_, fun i j hi hij => unmarkedPlace_lt hi hij⟩
  · rw [hscans, List.map_map]
    rfl
  · rw [states, states, hscans, List.map_map, List.map_map]
    rfl
  · obtain ⟨scan, hscan, hstate⟩ := List.mem_map.1 hopen
    have hi : scan.state.Unmarked marks := hunmarked scan hscan
    rw [hstate] at hi
    exact ⟨hi, getElem?_unmarked hi g.blockComments⟩

theorem inert_pairs_two_of_four :
    let g : Grammar := { blockComments := [⟨"", "*/"⟩, ⟨"/*", "*/"⟩, ⟨"/+", "+/"⟩, ⟨"'''", "'''"⟩] }
    let marks := [true, false, true, false]
    let raws := ["f();".toList, "/* a".toList, "b + / */".toList, "''' c".toList, "''' /*".toList]
    g.without marks = { blockComments := [⟨"/*", "*/"⟩, ⟨"'''", "'''"⟩] } ∧
      Scanner.kinds (g.without marks) {} raws = [.code, .comment, .comment, .comment, .comment] ∧
      Scanner.states g {} raws = [.outside, .inBlock 1 false, .outside, .inBlock 3 true, .outside] ∧
      Scanner.states (g.without marks) {} raws = [.outside, .inBlock 0 false, .outside, .inBlock 1 true, .outside] := by
  intro g marks raws
  have hmarks : List.Forall₂ (fun mark d => mark = true → ∀ form ∈ Scanner.forms {} raws, d.Inert form)
      marks g.blockComments := by
    simp only [marks, g, List.forall₂_cons, List.Forall₂.nil, and_true]
    decide +kernel
  obtain ⟨hkinds, -, -, hstates, -, -⟩ := inert_pairs g hmarks
  have hnumbers : Scanner.states g {} raws = [.outside, .inBlock 1 false, .outside, .inBlock 3 true, .outside] := by
    decide +kernel
  refine ⟨by decide +kernel, hkinds.trans (by decide +kernel), hnumbers, hstates.trans ?_⟩
  rw [hnumbers]
  rfl

end Scanner

end LineCensus
