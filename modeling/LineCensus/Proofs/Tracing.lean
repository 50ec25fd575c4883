/-
What tracing does to an analysis: it leaves the scan alone and notes each line once.

A note is taken from the scan before a line and the line itself, so what stands at a
place in the notes is told by the lines up to there alone (`getElem?_notes`). The
kinds of a run, the scans it passes through and the records of a trace are notes in
this sense; that is how they are read side by side.
-/
import LineCensus.Proofs.PhysicalLines

namespace LineCensus

namespace Scanner

variable {α : Type} {g : Grammar} {s : Scanner} {raws : List (List Char)} {k : Nat}

/-- What is noted along a run, once for each line: `note` is given the scan before it. -/
def notes (g : Grammar) (note : Scanner → List Char → α) : Scanner → List (List Char) → List α
  | _, [] => []
  | s, raw :: raws => note s raw :: notes g note (s.feed g raw) raws

/-- The records of a trace, in order. -/
def traces (g : Grammar) : Scanner → List (List Char) → List LineTrace :=
  notes g fun s raw => .ofScan (s.feed g raw) (s.classify g raw) raw

theorem kinds_eq_notes (g : Grammar) (s : Scanner) (raws : List (List Char)) :
    s.kinds g raws = s.notes g (classify g) raws := by
  induction raws generalizing s with
  | nil => rfl
  | cons raw raws ih => rw [kinds, notes, ih]

theorem scans_eq_notes (g : Grammar) (s : Scanner) (raws : List (List Char)) :
    s.scans g raws = s.notes g (feed g) raws := by
  induction raws generalizing s with
  | nil => rfl
  | cons raw raws ih => rw [scans, notes, ih]

@[simp] theorem length_notes (g : Grammar) (note : Scanner → List Char → α) (s : Scanner)
    (raws : List (List Char)) : (s.notes g note raws).length = raws.length := by
  induction raws generalizing s with
  | nil => rfl
  | cons raw raws ih => simp only [notes, List.length_cons, ih]

/-- The note on a line is that of the scan its predecessors lead to. -/
theorem getElem?_notes (note : Scanner → List Char → α) (hk : k < raws.length) :
    (s.notes g note raws)[k]? = some (note (s.feedAll g (raws.take k)) raws[k]) := by
  induction raws generalizing s k with
  | nil => cases hk
  | cons raw raws ih =>
    cases k with
    | zero => rfl
    | succ k => exact ih (Nat.lt_of_succ_lt_succ hk)

theorem feedAll_take_succ (hk : k < raws.length) :
    s.feedAll g (raws.take (k + 1)) = (s.feedAll g (raws.take k)).feed g raws[k] := by
  rw [List.take_succ_eq_append_getElem hk, feedAll_append]
  rfl

theorem take_kinds (g : Grammar) (s : Scanner) (raws : List (List Char)) (k : Nat) :
    (s.kinds g raws).take k = s.kinds g (raws.take k) := by
  induction raws generalizing s k with
  | nil => rw [List.take_nil, kinds, List.take_nil]
  | cons raw raws ih =>
    cases k with
    | zero => rfl
    | succ k => rw [kinds, List.take_succ_cons, List.take_succ_cons, kinds, ih]

/-- After so many lines a counter holds the number of those of its kind, as far as counters go. -/
theorem count_feedAll_take (g : Grammar) (raws : List (List Char)) (k : Nat) (kind : LineKind) :
    (Scanner.feedAll g {} (raws.take k)).tally.count kind =
      .ofNat (((Scanner.kinds g {} raws).take k).count kind) :=
  Count.eq_of_value_eq (by rw [count_feedAll_start, take_kinds, Count.value_ofNat])

/-- A record says what the kinds and the scans of the run say up to its line. -/
theorem getElem?_traces (g : Grammar) (hk : k < raws.length) :
    ∃ kind scan, (Scanner.kinds g {} raws)[k]? = some kind ∧ (Scanner.scans g {} raws)[k]? = some scan ∧
      (traces g {} raws)[k]? = some
        { kind := kind
          code := .ofNat (((Scanner.kinds g {} raws).take (k + 1)).count .code)
          comments := .ofNat (((Scanner.kinds g {} raws).take (k + 1)).count .comment)
          blanks := .ofNat (((Scanner.kinds g {} raws).take (k + 1)).count .blank)
          inBlock := scan.state.isInBlock
          parity := scan.state.parity
          text := raws[k] } := by
  let before := Scanner.feedAll g {} (raws.take k)
  let after := Scanner.feedAll g {} (raws.take (k + 1))
  have hafter : after = before.feed g raws[k] := feedAll_take_succ hk
  refine ⟨before.classify g raws[k], after, ?_, ?_, ?_⟩
  · rw [kinds_eq_notes, getElem?_notes _ hk]
  · rw [scans_eq_notes, getElem?_notes _ hk, hafter]
  · -- The record is read off the scan after the line, whose counters are those numbers.
    rw [traces, getElem?_notes _ hk, ← count_feedAll_take g raws (k + 1) .code,
      ← count_feedAll_take g raws (k + 1) .comment, ← count_feedAll_take g raws (k + 1) .blank]
    change _ = some (LineTrace.ofScan after (before.classify g raws[k]) raws[k])
    rw [hafter]

end Scanner

namespace Analysis

/-- The kinds an analysis gives to lines, in order. -/
def Progress.kinds (g : Grammar) (traced : Bool) : Progress → List (List Char) → List LineKind
  | _, [] => []
  | p, raw :: raws => p.scanner.classify g raw :: kinds g traced (p.line g traced raw) raws

/-- The scans an analysis passes through, one after each line. -/
def Progress.scans (g : Grammar) (traced : Bool) : Progress → List (List Char) → List Scanner
  | _, [] => []
  | p, raw :: raws => (p.line g traced raw).scanner :: scans g traced (p.line g traced raw) raws

namespace Progress

theorem kinds_eq (g : Grammar) (traced : Bool) (p : Progress) (raws : List (List Char)) :
    p.kinds g traced raws = p.scanner.kinds g raws := by
  induction raws generalizing p with
  | nil => rfl
  | cons raw raws ih => rw [Progress.kinds, Scanner.kinds, ih]; rfl

theorem scans_eq (g : Grammar) (traced : Bool) (p : Progress) (raws : List (List Char)) :
    p.scans g traced raws = p.scanner.scans g raws := by
  induction raws generalizing p with
  | nil => rfl
  | cons raw raws ih => rw [Progress.scans, Scanner.scans, ih]; rfl

theorem messages_lines_untraced (g : Grammar) (p : Progress) (raws : List (List Char)) :
    (p.lines g false raws).messages = p.messages := by
  induction raws generalizing p with
  | nil => rfl
  | cons raw raws ih => exact ih (p.line g false raw)

/-- A traced analysis puts the records of its lines in front of the messages it had. -/
theorem messages_lines_traced (g : Grammar) (p : Progress) (raws : List (List Char)) :
    (p.lines g true raws).messages = ((p.scanner.traces g raws).map LineTrace.toLog).reverse ++ p.messages := by
  induction raws generalizing p with
  | nil => rfl
  | cons raw raws ih =>
    calc ((p.line g true raw).lines g true raws).messages
      _ = (((p.scanner.feed g raw).traces g raws).map LineTrace.toLog).reverse ++ (p.line g true raw).messages :=
        ih (p.line g true raw)
      _ = ((p.scanner.traces g (raw :: raws)).map LineTrace.toLog).reverse ++ p.messages := by
        rw [Scanner.traces, Scanner.notes, List.map_cons, List.reverse_cons, List.append_assoc]
        rfl

end Progress

/-- **Tracing observes and does not take part.** A traced analysis of lines gives them the
kinds, and passes through the scans, of one that is not traced, which has nothing to say.
It leaves one message for each line, in order. The message is one for the finding of faults, on
the target of line traces, and it spells out the kind of the line, how many lines of each kind there
were up to and with this one, how the scan stands after it, and the line as it was given. A counter
stays at its limit once it has come to it. -/
theorem lines_traced (g : Grammar) (raws : List (List Char)) :
    let plain := Progress.lines g false {} raws
    let traced := Progress.lines g true {} raws
    let kinds := Progress.kinds g true {} raws
    let scans := Progress.scans g true {} raws
    kinds = Progress.kinds g false {} raws ∧ scans = Progress.scans g false {} raws ∧
      traced.scanner = plain.scanner ∧ plain.messages = [] ∧ traced.messages.length = raws.length ∧
      ∀ k (hk : k < raws.length), ∃ kind scan, kinds[k]? = some kind ∧ scans[k]? = some scan ∧
        let lines (kind : LineKind) : Nat := (kinds.take (k + 1)).count kind
        let code := min (lines .code) Count.limit
        let comments := min (lines .comment) Count.limit
        let blanks := min (lines .blank) Count.limit
        let state := scan.state
        traced.messages.reverse[k]? = some
          { level := .debug
            target := "cloc_lines::trace"
            text := s!"[{kind.mark},cd:{code},cm:{comments},bk:{blanks},iscm:{state.isInBlock},iscms:{state.parity}] "
              ++ String.ofList raws[k] } ∧
          (k < Count.limit → code = lines .code ∧ comments = lines .comment ∧ blanks = lines .blank) := by
  intro plain traced kinds scans
  have hkinds : kinds = Scanner.kinds g {} raws := Progress.kinds_eq g true {} raws
  have hscans : scans = Scanner.scans g {} raws := Progress.scans_eq g true {} raws
  have hmessages : traced.messages.reverse = (Scanner.traces g {} raws).map LineTrace.toLog := by
    rw [Progress.messages_lines_traced, List.append_nil, List.reverse_reverse]
  have hlength : traced.messages.length = raws.length := by
    rw [← List.length_reverse, hmessages, List.length_map, Scanner.traces, Scanner.length_notes]
  have hscanner : traced.scanner = plain.scanner := by rw [Progress.scanner_lines, Progress.scanner_lines]
  refine ⟨hkinds.trans (Progress.kinds_eq g false {} raws).symm,
    hscans.trans (Progress.scans_eq g false {} raws).symm, hscanner,
    Progress.messages_lines_untraced g {} raws, hlength, fun k hk => ?_⟩
  obtain ⟨kind, scan, hkind, hscan, hrecord⟩ := Scanner.getElem?_traces g hk
  rw [← hkinds] at hkind hrecord
  rw [← hscans] at hscan
  refine ⟨kind, scan, hkind, hscan, by rw [hmessages, List.getElem?_map, hrecord]; rfl, fun hlimit => ?_⟩
  -- Of the lines up to this one no more than `k + 1` can be of a kind.
  have hexact : ∀ kind, min ((kinds.take (k + 1)).count kind) Count.limit = (kinds.take (k + 1)).count kind := by
    intro kind
    have hle := (kinds.take (k + 1)).count_le_length (a := kind)
    rw [List.length_take] at hle
    omega
  exact ⟨hexact .code, hexact .comment, hexact .blank⟩

theorem lines_traced_docstring :
    let python : Grammar := { lineComments := ["#"], blockComments := [⟨"'''", "'''"⟩] }
    let raws := ["x = 1".toList, "'''".toList, "\t ".toList, "# y".toList]
    let traced := Progress.lines python true {} raws
    -- The third line is blank and stands in the block that the second one opened.
    traced.messages.length = 4 ∧ traced.messages.reverse[2]? = some
      { level := .debug, target := "cloc_lines::trace"
        text := "[BLNK,cd:1,cm:1,bk:1,iscm:true,iscms:true] \t " } := by
  intro python raws traced
  obtain ⟨-, -, -, -, hlength, hmessages⟩ := lines_traced python raws
  obtain ⟨kind, scan, hkind, hscan, hmessage, -⟩ := hmessages 2 (by decide)
  have hkind' : kind = .blank := Option.some.inj (hkind.symm.trans (by decide +kernel))
  have hstate : scan.state = .inBlock 0 true :=
    Option.some.inj ((congrArg (Option.map Scanner.state) hscan).symm.trans (by decide +kernel))
  have hkinds : (Progress.kinds python true {} raws).take 3 = [.code, .comment, .blank] := by decide +kernel
  rw [hkinds, hstate, hkind'] at hmessage
  exact ⟨hlength, hmessage.trans (by decide +kernel)⟩

/-- A traced stream is measured like any other, and its log has the records of its lines. -/
theorem run_traced (name : String) (g : Grammar) (bytes : List UInt8) (buffer : LineBuffer) :
    let plain := run name g false { bytes } buffer
    let traced := run name g true { bytes } buffer
    traced.scanner = plain.scanner ∧ plain.log = [] ∧
      traced.log = (Scanner.traces g {} (lineTexts bytes)).map LineTrace.toLog := by
  intro plain traced
  have hlog : ∀ noted, (run name g noted { bytes } buffer).log =
      (Progress.lines g noted {} (lineTexts bytes)).messages.reverse := by
    intro noted
    have hread : (bytes.foldl (Progress.push g noted) { buffer := buffer.clear }).close g noted =
        Progress.lines g noted {} (lineTexts bytes) := close_foldl _ List.not_mem_nil bytes
    rw [← hread]
    rfl
  refine ⟨by rw [scanner_run, scanner_run], ?_, ?_⟩
  · rw [hlog, Progress.messages_lines_untraced]
    rfl
  · rw [hlog, Progress.messages_lines_traced, List.append_nil, List.reverse_reverse]

end Analysis

end LineCensus
