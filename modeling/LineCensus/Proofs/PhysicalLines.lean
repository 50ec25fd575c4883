/-
The lines of a sequence of bytes, and the analysis of a stream as a scan of them.

`physicalLines` says where lines end without a word about reading: at each line feed,
and at the end of the bytes if something is left there. An analysis reads byte by
byte and keeps what it has of the next line in a buffer; what carries the proof that
it scans just these lines is that the buffer never holds a line feed. Nothing here
looks at the grammar, at the text of a line or at the buffer an analysis is handed,
so the count of lines holds for all of them.
-/
import LineCensus.Analysis.Stream
import LineCensus.Proofs.Run

namespace LineCensus

namespace Analysis

/-- The lines of a sequence of bytes, without the line feeds that end them. -/
def physicalLines : List UInt8 → List (List UInt8)
  | [] => []
  | b :: bs =>
    if b = 10 then [] :: physicalLines bs
    else
      match physicalLines bs with
      | [] => [[b]]
      | l :: ls => (b :: l) :: ls

/-- The number of lines: that of line feeds, and one more for bytes after the last. -/
def lineCount (bytes : List UInt8) : Nat :=
  bytes.count 10 + if bytes = [] ∨ bytes.getLast? = some 10 then 0 else 1

/-- The text of a line, without a carriage return at its end. -/
def lineText (line : List UInt8) : List Char :=
  Text.decodeLossy (if line.getLast? = some 13 then line.dropLast else line)

/-- The texts of the lines of a sequence of bytes. -/
def lineTexts (bytes : List UInt8) : List (List Char) := (physicalLines bytes).map lineText

variable {g : Grammar} {traced : Bool} {line bytes : List UInt8} {b : UInt8}

/-! ## Lines -/

theorem physicalLines_feed (bytes : List UInt8) : physicalLines (10 :: bytes) = [] :: physicalLines bytes := by
  rw [physicalLines, if_pos rfl]

/-- A byte that ends no line belongs to the line that follows. -/
theorem physicalLines_cons (hb : b ≠ 10) (bytes : List UInt8) : physicalLines (b :: bytes) =
    (b :: (physicalLines bytes).headD []) :: (physicalLines bytes).tail := by
  rw [physicalLines, if_neg hb]
  cases physicalLines bytes <;> rfl

theorem physicalLines_append_feed (h : 10 ∉ line) (bytes : List UInt8) :
    physicalLines (line ++ 10 :: bytes) = line :: physicalLines bytes := by
  induction line with
  | nil => exact physicalLines_feed bytes
  | cons b bs ih =>
    simp only [List.mem_cons, not_or] at h
    rw [List.cons_append, physicalLines_cons (Ne.symm h.1), ih h.2]
    rfl

theorem physicalLines_of_not_mem (h : 10 ∉ line) (hne : line ≠ []) : physicalLines line = [line] := by
  induction line with
  | nil => exact absurd rfl hne
  | cons b bs ih =>
    simp only [List.mem_cons, not_or] at h
    rw [physicalLines_cons (Ne.symm h.1)]
    cases bs with
    | nil => rfl
    | cons c cs => rw [ih h.2 (List.cons_ne_nil c cs)]; rfl

theorem physicalLines_ne_nil (h : bytes ≠ []) : physicalLines bytes ≠ [] := by
  cases bytes with
  | nil => exact absurd rfl h
  | cons b bs =>
    by_cases hb : b = 10
    · rw [hb, physicalLines_feed]; exact List.cons_ne_nil _ _
    · rw [physicalLines_cons hb]; exact List.cons_ne_nil _ _

/-- Induction along lines: on the bytes after the last line feed, and on a line in front. -/
theorem line_induction {motive : List UInt8 → Prop} (last : ∀ line, 10 ∉ line → motive line)
    (next : ∀ line bytes, 10 ∉ line → motive bytes → motive (line ++ 10 :: bytes)) (bytes : List UInt8) :
    motive bytes := by
  induction h : bytes.length using Nat.strongRecOn generalizing bytes with
  | ind n ih =>
    by_cases hfeed : 10 ∈ bytes
    · obtain ⟨line, rest, rfl, hline⟩ := List.eq_append_cons_of_mem hfeed
      have hshorter : rest.length < n := by
        rw [← h, List.length_append, List.length_cons]
        omega
      exact next line rest hline (ih rest.length hshorter rest rfl)
    · exact last bytes hfeed

/-- A line feed that ends the last line makes no further line. -/
theorem physicalLines_concat_feed (hne : bytes ≠ []) (hlast : bytes.getLast? ≠ some 10) :
    physicalLines (bytes ++ [10]) = physicalLines bytes := by
  induction bytes using line_induction with
  | last line hline => rw [physicalLines_append_feed hline, physicalLines_of_not_mem hline hne]; rfl
  | next line rest hline ih =>
    have hrest : rest ≠ [] := by
      rintro rfl
      simp at hlast
    have hlast' : rest.getLast? ≠ some 10 := by
      obtain ⟨b, bs, rfl⟩ := List.exists_cons_of_ne_nil hrest
      simpa [List.getLast?_append] using hlast
    rw [List.append_assoc, List.cons_append, physicalLines_append_feed hline, physicalLines_append_feed hline,
      ih hrest hlast']

/-- After whole lines, the lines start anew. -/
theorem physicalLines_append (h : bytes = [] ∨ bytes.getLast? = some 10) (more : List UInt8) :
    physicalLines (bytes ++ more) = physicalLines bytes ++ physicalLines more := by
  induction bytes with
  | nil => rfl
  | cons b bs ih =>
    have hbs : bs ≠ [] → bs.getLast? = some 10 := by
      intro hne
      obtain ⟨c, cs, rfl⟩ := List.exists_cons_of_ne_nil hne
      simpa using h
    have hrest : bs = [] ∨ bs.getLast? = some 10 := (Decidable.em (bs = [])).imp_right hbs
    by_cases hb : b = 10
    · rw [hb, List.cons_append, physicalLines_feed, physicalLines_feed, ih hrest, List.cons_append]
    · -- A byte that ends no line is not the last one, so its line is there to be continued.
      have hne : bs ≠ [] := by
        rintro rfl
        simp [hb] at h
      obtain ⟨l, ls, hlines⟩ := List.exists_cons_of_ne_nil (physicalLines_ne_nil hne)
      rw [List.cons_append, physicalLines_cons hb, physicalLines_cons hb, ih hrest, hlines]
      rfl

/-- The first line is what the bytes begin with. -/
theorem prefix_of_mem_head? (h : line ∈ (physicalLines bytes).head?) : line <+: bytes := by
  induction bytes generalizing line with
  | nil => cases h
  | cons b bs ih =>
    by_cases hb : b = 10
    · rw [hb, physicalLines_feed] at h
      cases h
      exact List.nil_prefix
    · rw [physicalLines_cons hb] at h
      cases h
      refine List.cons_prefix_cons.2 ⟨rfl, ?_⟩
      cases hlines : physicalLines bs with
      | nil => exact List.nil_prefix
      | cons l ls => exact ih (by rw [hlines]; rfl)

theorem lineCount_feed (bytes : List UInt8) : lineCount (10 :: bytes) = lineCount bytes + 1 := by
  cases bytes with
  | nil => rfl
  | cons c cs =>
    simp only [lineCount, List.count_cons_self, List.getLast?_cons_cons, reduceCtorEq, false_or]
    omega

theorem lineCount_cons (hb : b ≠ 10) (bytes : List UInt8) : lineCount (b :: bytes) = max (lineCount bytes) 1 := by
  cases bytes with
  | nil => simp [lineCount, hb]
  | cons c cs =>
    -- With bytes left there is a line: one that ends, or one that does not.
    have hpos : 1 ≤ lineCount (c :: cs) := by
      by_cases hlast : (c :: cs).getLast? = some 10
      · have := List.count_pos_iff.2 (List.mem_of_getLast? hlast)
        rw [lineCount]; omega
      · rw [lineCount, if_neg (by simp [hlast])]; omega
    rw [Nat.max_eq_left hpos]
    simp only [lineCount, List.count_cons_of_ne hb, List.getLast?_cons_cons, reduceCtorEq, false_or]

/-- There are as many lines as the bytes say. -/
theorem length_physicalLines (bytes : List UInt8) : (physicalLines bytes).length = lineCount bytes := by
  induction bytes with
  | nil => rfl
  | cons b bs ih =>
    by_cases hb : b = 10
    · rw [hb, physicalLines_feed, lineCount_feed, List.length_cons, ih]
    · rw [physicalLines_cons hb, lineCount_cons hb, List.length_cons, List.length_tail, ih]; omega

theorem length_lineTexts (bytes : List UInt8) : (lineTexts bytes).length = lineCount bytes := by
  rw [lineTexts, List.length_map, length_physicalLines]

theorem lineCount_append (h : bytes = [] ∨ bytes.getLast? = some 10) (more : List UInt8) :
    lineCount (bytes ++ more) = lineCount bytes + lineCount more := by
  simp only [← length_physicalLines, physicalLines_append h, List.length_append]

theorem lineTexts_append (h : bytes = [] ∨ bytes.getLast? = some 10) (more : List UInt8) :
    lineTexts (bytes ++ more) = lineTexts bytes ++ lineTexts more := by
  rw [lineTexts, physicalLines_append h, List.map_append]
  rfl

/-! ## Reading -/

theorem text_eq_lineText (buffer : LineBuffer) : buffer.text = lineText buffer.bytes := by
  obtain ⟨rev⟩ := buffer
  cases rev with
  | nil => rfl
  | cons b bs =>
    have hlast : (b :: bs).reverse.getLast? = some b := by simp
    by_cases hb : b = 13
    · subst hb
      simp [LineBuffer.text, LineBuffer.bytes, lineText]
    · have htext : LineBuffer.text ⟨b :: bs⟩ = Text.decodeLossy (b :: bs).reverse := by
        rw [LineBuffer.text]
        split
        next h => exact absurd (List.cons.inj h).1 hb
        next => rfl
      rw [htext, LineBuffer.bytes, lineText, hlast, if_neg (by simpa using hb)]

theorem bytes_push (buffer : LineBuffer) (b : UInt8) : (buffer.push b).bytes = buffer.bytes ++ [b] :=
  List.reverse_cons

/-- An analysis after several lines, given without their line ends. -/
def Progress.lines (g : Grammar) (traced : Bool) (p : Progress) (raws : List (List Char)) : Progress :=
  raws.foldl (Progress.line g traced) p

theorem Progress.scanner_lines (g : Grammar) (traced : Bool) (p : Progress) (raws : List (List Char)) :
    (p.lines g traced raws).scanner = p.scanner.feedAll g raws := by
  induction raws generalizing p with
  | nil => rfl
  | cons raw raws ih => exact ih (p.line g traced raw)

/-- Reading to the end classifies the lines of what is in the buffer and what is to come. -/
theorem close_foldl (p : Progress) (h : 10 ∉ p.buffer.bytes) (bytes : List UInt8) :
    (bytes.foldl (Progress.push g traced) p).close g traced =
      { p with buffer := {} }.lines g traced (lineTexts (p.buffer.bytes ++ bytes)) := by
  induction bytes generalizing p with
  | nil =>
    rw [List.foldl_nil, List.append_nil, Progress.close]
    split
    next hempty =>
      obtain ⟨scanner, ⟨reversed⟩, messages⟩ := p
      cases List.isEmpty_iff.1 hempty
      rfl
    next hempty =>
      have hne : p.buffer.bytes ≠ [] := by simpa [LineBuffer.bytes, LineBuffer.isEmpty] using hempty
      rw [lineTexts, physicalLines_of_not_mem h hne, List.map_singleton, ← text_eq_lineText]; rfl
  | cons b bs ih =>
    rw [List.foldl_cons, Progress.push]
    by_cases hb : b = 10
    · rw [if_pos hb, hb, ih _ List.not_mem_nil, lineTexts, lineTexts, physicalLines_append_feed h, List.map_cons,
        ← text_eq_lineText]
      rfl
    · have hbuffer : 10 ∉ (p.buffer.push b).bytes := by
        rw [bytes_push, List.mem_append, List.mem_singleton, not_or]
        exact ⟨h, Ne.symm hb⟩
      rw [if_neg hb, ih _ hbuffer, bytes_push, List.append_assoc]
      rfl

/-- **An analysis scans the lines of its bytes**, traced or not and whatever buffer it
is handed. -/
theorem scanner_run (name : String) (g : Grammar) (traced : Bool) (bytes : List UInt8) (buffer : LineBuffer) :
    (run name g traced { bytes } buffer).scanner = Scanner.feedAll g {} (lineTexts bytes) := by
  have hread : (bytes.foldl (Progress.push g traced) { buffer := buffer.clear }).close g traced =
      Progress.lines g traced {} (lineTexts bytes) := close_foldl _ List.not_mem_nil bytes
  exact (congrArg Progress.scanner hread).trans (Progress.scanner_lines g traced {} (lineTexts bytes))

/-! ## Counters -/

theorem count_run_le (name : String) (g : Grammar) (traced : Bool) (bytes : List UInt8) (buffer : LineBuffer)
    (k : LineKind) : ((run name g traced { bytes } buffer).scanner.tally.count k).value ≤ lineCount bytes := by
  have hle := (Scanner.kinds g {} (lineTexts bytes)).count_le_length (a := k)
  rw [Scanner.length_kinds, length_lineTexts] at hle
  rw [scanner_run, Scanner.count_feedAll_start]
  omega

/-- **No line is lost and none is counted twice.** The counters of a file's summary
come to the number of lines of its bytes, each is the number of lines of its kind,
and the complexity is there. Files have fewer lines than counters have values. -/
theorem summary_run_counts (name language : String) (g : Grammar) (traced : Bool) (bytes : List UInt8)
    (buffer : LineBuffer) (hsize : lineCount bytes < wordSize) :
    let summary := (run name g traced { bytes } buffer).summary name language
    let kinds := Scanner.kinds g {} (lineTexts bytes)
    summary.code.value + summary.comments.value + summary.blanks.value = lineCount bytes ∧
      summary.code.value = kinds.count .code ∧ summary.comments.value = kinds.count .comment ∧
      summary.blanks.value = kinds.count .blank ∧ kinds.length = lineCount bytes ∧ summary.complexity.isSome := by
  intro summary kinds
  have hlength : kinds.length = lineCount bytes := by rw [Scanner.length_kinds, length_lineTexts]
  have hcount : ∀ k, ((run name g traced { bytes } buffer).scanner.tally.count k).value = kinds.count k := by
    intro k
    have hzero : ((({} : Scanner).tally.count k)).value = 0 := by cases k <;> rfl
    have hle : kinds.count k ≤ Count.limit := by
      have := kinds.count_le_length (a := k)
      rw [Count.limit]; omega
    rw [scanner_run, Scanner.count_feedAll, hzero, Nat.zero_add]
    exact Nat.min_eq_left hle
  have hcode : summary.code.value = kinds.count .code := hcount .code
  have hcomments : summary.comments.value = kinds.count .comment := hcount .comment
  have hblanks : summary.blanks.value = kinds.count .blank := hcount .blank
  refine ⟨?_, hcode, hcomments, hblanks, hlength, rfl⟩
  rw [hcode, hcomments, hblanks, Scanner.count_kinds, hlength]

theorem summary_run_counts_c :
    let c : Grammar := { lineComments := ["//"], blockComments := [⟨"/*", "*/"⟩] }
    -- `/*`, a byte that is no text, a blank line, `*/`, and `x` without a line end.
    let bytes : List UInt8 := [47, 42, 13, 10, 255, 10, 10, 42, 47, 10, 120]
    let summary := (run "input" c true { bytes } ⟨[47, 47]⟩).summary "input" "C"
    lineCount bytes = 5 ∧ summary.code.value = 1 ∧ summary.comments.value = 3 ∧ summary.blanks.value = 1 := by
  intro c bytes summary
  obtain ⟨-, hcode, hcomments, hblanks, -⟩ := summary_run_counts "input" "C" c true bytes ⟨[47, 47]⟩ (by decide)
  exact ⟨by decide, hcode.trans (by decide +kernel), hcomments.trans (by decide +kernel),
    hblanks.trans (by decide +kernel)⟩

end Analysis

end LineCensus
