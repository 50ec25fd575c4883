/-
Streams that fail. The lines that were complete when the failure came are the bytes up to the
last line feed, `wholeLines`. Reading them leaves nothing in the buffer, and what comes behind
them only goes into the buffer (`foldl_push_of_notMem`), which is emptied when the stream fails.
So a failing stream leads to what its whole lines lead to (`run_interrupted`), and nothing of it
is left for the next file.
-/
import LineCensus.Proofs.PhysicalLines
import Mathlib.Data.List.DropRight

namespace LineCensus.Analysis

variable {g : Grammar} {traced : Bool} {bytes rest : List UInt8}

/-- The bytes up to the last line feed, with it. -/
def wholeLines (bytes : List UInt8) : List UInt8 := bytes.rdropWhile (· != 10)

example : wholeLines [120, 10, 121] = [120, 10] ∧ wholeLines [121] = [] := by decide

/-- What follows the last line feed. -/
def unfinishedLine (bytes : List UInt8) : List UInt8 := bytes.rtakeWhile (· != 10)

theorem wholeLines_append_unfinishedLine (bytes : List UInt8) : wholeLines bytes ++ unfinishedLine bytes = bytes :=
  List.rdropWhile_append_rtakeWhile

theorem feed_notMem_unfinishedLine (bytes : List UInt8) : 10 ∉ unfinishedLine bytes := fun h =>
  absurd (List.mem_rtakeWhile_imp h) (by decide)

theorem exists_wholeLines_concat (h : wholeLines bytes ≠ []) : ∃ front, wholeLines bytes = front ++ [10] := by
  have hlast : (wholeLines bytes).getLast h = 10 :=
    of_not_not fun hne => List.rdropWhile_last_not (fun b : UInt8 => b != 10) bytes h (bne_iff_ne.2 hne)
  exact ⟨(wholeLines bytes).dropLast, by rw [← hlast, List.dropLast_concat_getLast]⟩

/-! ## Reading whole lines, and a part of one -/

theorem push_feed (p : Progress) : p.push g traced 10 = p.line g traced p.buffer.text := if_pos rfl

/-- Bytes without a line feed only go into the buffer. -/
theorem foldl_push_of_notMem (h : 10 ∉ rest) (p : Progress) :
    rest.foldl (Progress.push g traced) p = { p with buffer := rest.foldl LineBuffer.push p.buffer } := by
  induction rest generalizing p with
  | nil => rfl
  | cons b bs ih =>
    rw [List.mem_cons, not_or] at h
    have hpush : p.push g traced b = { p with buffer := p.buffer.push b } := if_neg (Ne.symm h.1)
    rw [List.foldl_cons, List.foldl_cons, hpush, ih h.2]

/-- Reading whole lines leaves nothing in the buffer. -/
theorem buffer_foldl_wholeLines (g : Grammar) (traced : Bool) (bytes : List UInt8) :
    ((wholeLines bytes).foldl (Progress.push g traced) {}).buffer = {} := by
  by_cases hnone : wholeLines bytes = []
  · rw [hnone]
    rfl
  · obtain ⟨front, hfront⟩ := exists_wholeLines_concat hnone
    rw [hfront, List.foldl_append, List.foldl_cons, List.foldl_nil, push_feed]
    rfl

/-- So nothing is left to be read as a last line. -/
theorem close_foldl_wholeLines (g : Grammar) (traced : Bool) (bytes : List UInt8) :
    ((wholeLines bytes).foldl (Progress.push g traced) {}).close g traced =
      (wholeLines bytes).foldl (Progress.push g traced) {} := by
  rw [Progress.close, buffer_foldl_wholeLines]
  rfl

/-- What has been read of some bytes: their whole lines, and the rest in the buffer. -/
theorem foldl_push_eq_wholeLines (g : Grammar) (traced : Bool) (bytes : List UInt8) :
    bytes.foldl (Progress.push g traced) {} =
      { (wholeLines bytes).foldl (Progress.push g traced) {} with
        buffer := (unfinishedLine bytes).foldl LineBuffer.push {} } := by
  conv => lhs; rw [← wholeLines_append_unfinishedLine bytes, List.foldl_append]
  rw [foldl_push_of_notMem (feed_notMem_unfinishedLine bytes), buffer_foldl_wholeLines]

/-- **A stream that fails leads to what its whole lines lead to.** Of any bytes, `n` are read and
then the stream fails: the scan, and so the counters, the indentation and the complexity, are
those of the whole lines among these bytes, and the messages are the same but for a warning at the
end. Whatever is measured next with the buffer is measured as with a new one. -/
theorem run_interrupted (name : String) (g : Grammar) (traced : Bool) (data : List UInt8) (n : Nat) (error : String)
    (buffer buffer' : LineBuffer) :
    let cut := run name g traced { bytes := data.take n, failure := some error } buffer
    let whole := run name g traced { bytes := wholeLines (data.take n) } buffer'
    cut.scanner = whole.scanner ∧
      (∀ language, cut.summary name language = whole.summary name language) ∧
      cut.log = whole.log ++
        [.analysisWarning s!"{name}: read failed after {whole.scanner.tally.total} lines: {error}"] ∧
      ∀ next g' traced' stream, run next g' traced' stream cut.buffer = run next g' traced' stream {} := by
  intro cut whole
  let p := (wholeLines (data.take n)).foldl (Progress.push g traced) {}
  have hread : (data.take n).foldl (Progress.push g traced) {} =
      { p with buffer := (unfinishedLine (data.take n)).foldl LineBuffer.push {} } :=
    foldl_push_eq_wholeLines g traced (data.take n)
  have hcut : cut = ⟨p.scanner,
      p.messages.reverse ++ [.analysisWarning s!"{name}: read failed after {p.scanner.tally.total} lines: {error}"],
      {}⟩ := by
    simp only [cut, run, LineBuffer.clear, hread, List.reverse_cons]
  have hclose : p.close g traced = p := close_foldl_wholeLines g traced (data.take n)
  have hwhole : whole = ⟨(p.close g traced).scanner, (p.close g traced).messages.reverse, {}⟩ := rfl
  rw [hclose] at hwhole
  rw [hcut, hwhole]
  exact ⟨rfl, fun _ => rfl, rfl, fun _ _ _ _ => rfl⟩

end LineCensus.Analysis
