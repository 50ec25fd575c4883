/-
The table of files, line by line. A row is a name at the left of its column and three counters at the
right of theirs, and what makes rows equally long is that nothing is wider than its column: the column of
names goes by the longest of them (`length_le_fileNameWidth`), and a counter below 10 ^ 14 has no more
digits than fit (`Count.length_toString_le`). A counter with more would push its row beyond the others.

The rest is that a text made of lines is cut into these lines again (`Text.splitOn_flatMap_line`), since
no row has a line end in it.
-/
import LineCensus.Present.Render
import Mathlib.Data.List.Basic
import Mathlib.Data.Nat.Digits.Defs

namespace LineCensus

/-- A text made of lines, with a line end behind each, is cut into these lines, and nothing is left. -/
theorem Text.splitOn_flatMap_line {lines : List (List Char)} (h : ∀ l ∈ lines, '\n' ∉ l) :
    (lines.flatMap (· ++ ['\n'])).splitOn '\n' = lines ++ [[]] := by
  induction lines with
  | nil => rfl
  | cons l ls ih =>
    obtain ⟨hl, hls⟩ := List.forall_mem_cons.1 h
    have hline : l.splitOn '\n' = [l] :=
      List.splitOnP_eq_singleton fun _ hc => beq_eq_false_iff_ne.2 fun he => hl (he ▸ hc)
    have hcut : (l ++ '\n' :: ls.flatMap (· ++ ['\n'])).splitOn '\n' =
        l.splitOn '\n' ++ (ls.flatMap (· ++ ['\n'])).splitOn '\n' :=
      List.splitOnP_append_cons _ _ (beq_self_eq_true '\n')
    rw [List.flatMap_cons, List.append_assoc, List.singleton_append, hcut, hline, ih hls]
    rfl

namespace Count

theorem toString_eq (c : Count) : toString c = c.value.repr := rfl

theorem length_toString_le {c : Count} {n : Nat} (hn : 0 < n) (h : c.value < 10 ^ n) : (toString c).length ≤ n :=
  Nat.repr_length c.value n hn h

theorem lineEnd_notMem_toString (c : Count) : '\n' ∉ (toString c).toList := by
  intro h
  rw [toString_eq, Nat.repr, String.toList_ofList] at h
  exact absurd (Nat.isDigit_of_mem_toDigits (by decide) (by decide) h) (by decide)

end Count

namespace Present

variable {r : Report} {files : List Summary} {f : Summary} {width : Nat} {name : String} {cells : List String}
  {blanks comments code : Count}

/-! ## Rows -/

/-- A text at the right of a column that has room for a counter and a space in front. -/
def column (s : String) : List Char := List.replicate (countWidth + 1 - s.length) ' ' ++ s.toList

/-- A name at the left of its column, and columns behind it. -/
def rowText (width : Nat) (name : String) (cells : List String) : List Char :=
  name.toList ++ List.replicate (width - name.length) ' ' ++ cells.flatMap column

theorem toList_padLeft {s : String} (h : s.length ≤ countWidth) :
    ' ' :: (Text.padLeft countWidth s).toList = column s := by
  have hroom : countWidth + 1 - s.length = (countWidth - s.length) + 1 := by omega
  rw [column, hroom, List.replicate_succ, Text.padLeft, Text.fill, String.toList_append, String.toList_ofList,
    List.cons_append]

theorem toList_fileRow {blank comment code : String} (h : ∀ s ∈ [blank, comment, code], s.length ≤ countWidth) :
    (fileRow width name blank comment code).toList = rowText width name [blank, comment, code] ++ ['\n'] := by
  have hspace : " ".toList = [' '] := rfl
  have hend : "\n".toList = ['\n'] := rfl
  simp only [List.forall_mem_cons] at h
  obtain ⟨hblank, hcomment, hcode, -⟩ := h
  rw [rowText, List.flatMap_cons, List.flatMap_cons, List.flatMap_singleton, ← toList_padLeft hblank,
    ← toList_padLeft hcomment, ← toList_padLeft hcode]
  simp only [fileRow, line, counters, Text.padRight, Text.fill, String.toList_append, String.toList_ofList, hspace,
    hend, List.append_assoc, List.cons_append, List.nil_append]

theorem length_column {s : String} (h : s.length ≤ countWidth) : (column s).length = countWidth + 1 := by
  rw [column, List.length_append, List.length_replicate, String.length_toList]
  omega

theorem length_flatMap_column (h : ∀ s ∈ cells, s.length ≤ countWidth) :
    (cells.flatMap column).length = (countWidth + 1) * cells.length := by
  induction cells with
  | nil => rfl
  | cons s cells ih =>
    obtain ⟨hs, hcells⟩ := List.forall_mem_cons.1 h
    rw [List.flatMap_cons, List.length_append, length_column hs, ih hcells, List.length_cons, Nat.mul_succ,
      Nat.add_comm]

/-- Where nothing is wider than its column, a row is as long as its columns. -/
theorem length_rowText (hname : name.length ≤ width) (h : ∀ s ∈ cells, s.length ≤ countWidth) :
    (rowText width name cells).length = width + (countWidth + 1) * cells.length := by
  rw [rowText, List.length_append, List.length_append, List.length_replicate, String.length_toList,
    length_flatMap_column h]
  omega

theorem lineEnd_notMem_rowText (hname : '\n' ∉ name.toList) (h : ∀ s ∈ cells, '\n' ∉ s.toList) :
    '\n' ∉ rowText width name cells := by
  simp only [rowText, column, List.mem_append, List.mem_flatMap, List.mem_replicate]
  rintro ((hmem | ⟨-, heq⟩) | ⟨s, hs, ⟨-, heq⟩ | hmem⟩)
  · exact hname hmem
  · exact absurd heq (by decide)
  · exact absurd heq (by decide)
  · exact h s hs hmem

/-! ## Cells -/

/-- The counters of a row. -/
def cellsOf (blanks comments code : Count) : List String := [toString blanks, toString comments, toString code]

theorem length_le_of_mem_cellsOf (h : ∀ c ∈ [blanks, comments, code], c.value < 10 ^ countWidth) :
    ∀ s ∈ cellsOf blanks comments code, s.length ≤ countWidth := by
  intro s hs
  obtain ⟨c, hc, rfl⟩ := List.mem_map.1 (show s ∈ [blanks, comments, code].map toString from hs)
  exact Count.length_toString_le (by decide) (h c hc)

theorem lineEnd_notMem_of_mem_cellsOf : ∀ s ∈ cellsOf blanks comments code, '\n' ∉ s.toList := by
  intro s hs
  obtain ⟨c, -, rfl⟩ := List.mem_map.1 (show s ∈ [blanks, comments, code].map toString from hs)
  exact c.lineEnd_notMem_toString

/-! ## The column of names -/

theorem fileNameWidth_eq (files : List Summary) :
    fileNameWidth files = max nameWidth ((files.map fun f => f.name.length).max?.getD 0) := by
  rw [fileNameWidth, List.foldl_max]
  cases (files.map fun f => f.name.length).max? with
  | none => rfl
  | some longest => rfl

theorem length_le_fileNameWidth (hf : f ∈ files) : f.name.length ≤ fileNameWidth files := by
  have hle : f.name.length ≤ (files.map fun f => f.name.length).max?.getD 0 :=
    List.le_max?_getD_of_mem (List.mem_map_of_mem hf)
  rw [fileNameWidth_eq]
  exact le_trans hle (le_max_right _ _)

/-! ## The table -/

/-- A line that sets parts of the table off. -/
def edgeText (width : Nat) : List Char := List.replicate (max (width + 3 * (countWidth + 1)) ruleWidth) '-'

theorem toList_rule (n : Nat) : (rule n).toList = List.replicate n '-' ++ ['\n'] := by
  rw [rule, line, String.toList_append, Text.fill, String.toList_ofList]
  rfl

/-- The lines of the table of files. -/
def fileLines (r : Report) : List (List Char) :=
  let width := fileNameWidth r.files.toList
  let edge := edgeText width
  [edge, rowText width "File" ["blank", "comment", "code"], edge]
    ++ r.files.toList.map (fun f => rowText width f.name (cellsOf f.blanks f.comments f.code))
    ++ [edge, rowText width "TOTAL" (cellsOf r.totals.blanks r.totals.comments r.totals.code), edge]

theorem toList_fileTable
    (hfiles : ∀ f ∈ r.files.toList, ∀ c ∈ [f.blanks, f.comments, f.code], c.value < 10 ^ countWidth)
    (htotals : ∀ c ∈ [r.totals.blanks, r.totals.comments, r.totals.code], c.value < 10 ^ countWidth) :
    (fileTable r).toList = (fileLines r).flatMap (· ++ ['\n']) := by
  have hheader : ∀ s ∈ ["blank", "comment", "code"], s.length ≤ countWidth := by decide
  have hrows : (r.files.toList.map fun f => fileRow (fileNameWidth r.files.toList) f.name (toString f.blanks)
      (toString f.comments) (toString f.code)).flatMap String.toList =
        (r.files.toList.map fun f => rowText (fileNameWidth r.files.toList) f.name
          (cellsOf f.blanks f.comments f.code)).flatMap (· ++ ['\n']) := by
    rw [List.flatMap_map, List.flatMap_map]
    exact List.flatMap_congr fun f hf => toList_fileRow (length_le_of_mem_cellsOf (hfiles f hf))
  rw [fileTable, fileLines]
  simp only [String.toList_append, String.toList_join, List.flatMap_append, hrows, toList_rule,
    toList_fileRow hheader, toList_fileRow (length_le_of_mem_cellsOf htotals), edgeText, List.flatMap_cons,
    List.flatMap_nil, List.append_nil, List.append_assoc, cellsOf]

theorem lineEnd_notMem_fileLines (hnames : ∀ f ∈ r.files.toList, '\n' ∉ f.name.toList) :
    ∀ l ∈ fileLines r, '\n' ∉ l := by
  have hedge (width : Nat) : '\n' ∉ edgeText width := fun h => absurd (List.eq_of_mem_replicate h) (by decide)
  have hheader (width : Nat) : '\n' ∉ rowText width "File" ["blank", "comment", "code"] :=
    lineEnd_notMem_rowText (by decide) (by decide)
  have htotal (width : Nat) :
      '\n' ∉ rowText width "TOTAL" (cellsOf r.totals.blanks r.totals.comments r.totals.code) :=
    lineEnd_notMem_rowText (by decide) lineEnd_notMem_of_mem_cellsOf
  simp only [fileLines, List.forall_mem_append, List.forall_mem_cons, List.forall_mem_map]
  exact ⟨⟨⟨hedge _, hheader _, hedge _, nofun⟩,
    fun f hf => lineEnd_notMem_rowText (hnames f hf) lineEnd_notMem_of_mem_cellsOf⟩,
    hedge _, htotal _, hedge _, nofun⟩

theorem length_fileLines (r : Report) : (fileLines r).length = r.files.toList.length + 6 := by
  simp only [fileLines, List.length_append, List.length_map, List.length_cons, List.length_nil]
  omega

/-- **The table of files is complete and its rows are equally long.** It has a line for each file and six
more. Where no counter is wider than its column, the header, the rows of the files and that of the sums are
as long as the longest name, or a name of 27 characters, and 45 characters more, and the lines that set
them off are not shorter. The row of each file starts with its whole name, and only spaces stand between
the name and the counters. -/
theorem fileTable_aligned (hnames : ∀ f ∈ r.files.toList, '\n' ∉ f.name.toList)
    (hcounters : ∀ f ∈ r.files.toList, ∀ c ∈ [f.blanks, f.comments, f.code], c.value < 10 ^ 14)
    (htotals : ∀ c ∈ [r.totals.blanks, r.totals.comments, r.totals.code], c.value < 10 ^ 14) :
    let files := r.files.toList
    let width := max 27 ((files.map fun f => f.name.length).max?.getD 0)
    ∃ edge header total rows lines, lines = [edge, header, edge] ++ rows ++ [edge, total, edge] ∧
      (render .table true r).toList.splitOn '\n' = lines ++ [[]] ∧ lines.length = files.length + 6 ∧
      (∀ row ∈ header :: total :: rows, row.length = width + 45) ∧
      (∃ n, width + 45 ≤ n ∧ edge = List.replicate n '-') ∧
      header = rowText width "File" ["blank", "comment", "code"] ∧
      total = rowText width "TOTAL" (cellsOf r.totals.blanks r.totals.comments r.totals.code) ∧
      ∀ (k : Nat) (f : Summary), files[k]? = some f → rows[k]? = some (f.name.toList
        ++ List.replicate (width - f.name.length) ' '
        ++ (cellsOf f.blanks f.comments f.code).flatMap column) := by
  intro files width
  have hwidth : fileNameWidth files = width := fileNameWidth_eq files
  have htable : (render .table true r).toList = (fileLines r).flatMap (· ++ ['\n']) :=
    toList_fileTable hcounters htotals
  refine ⟨edgeText width, _, _, files.map fun f => rowText width f.name (cellsOf f.blanks f.comments f.code),
    fileLines r, ?_, ?_, length_fileLines r, ?_, ⟨_, le_max_left _ _, rfl⟩, rfl, rfl, ?_⟩
  · rw [fileLines, hwidth]
  · rw [htable, Text.splitOn_flatMap_line (lineEnd_notMem_fileLines hnames)]
  · have hnarrow : ∀ name : String, name.length ≤ 27 → name.length ≤ width :=
      fun name h => le_trans h (le_max_left _ _)
    refine List.forall_mem_cons.2 ⟨?_, List.forall_mem_cons.2 ⟨?_, List.forall_mem_map.2 fun f hf => ?_⟩⟩
    · exact length_rowText (hnarrow _ (by decide)) (by decide)
    · exact length_rowText (hnarrow _ (by decide)) (length_le_of_mem_cellsOf htotals)
    · exact length_rowText (hwidth ▸ length_le_fileNameWidth hf) (length_le_of_mem_cellsOf (hcounters f hf))
  · intro k f hf
    rw [List.getElem?_map, hf]
    rfl

/-- A file with a name of 31 characters, some of which take more than a byte, and one that could not be read. -/
def longNamed : Report where
  files := ⟨#[
    { name := "数え方/とても長い名前のファイル/main_module.rs", language := "Rust", code := .ofNat 12 },
    .unreadable "gone.rs" "Rust"]⟩
  languages := []
  totals := { files := .ofNat 2, code := .ofNat 12 }

theorem fileTable_aligned_longNamed :
    ((∀ f ∈ longNamed.files.toList, '\n' ∉ f.name.toList) ∧
      (∀ f ∈ longNamed.files.toList, ∀ c ∈ [f.blanks, f.comments, f.code], c.value < 10 ^ 14) ∧
      ∀ c ∈ [longNamed.totals.blanks, longNamed.totals.comments, longNamed.totals.code], c.value < 10 ^ 14) ∧
    ∃ edge header total row gone, (render .table true longNamed).toList.splitOn '\n' =
        [edge, header, edge, row, gone, edge, total, edge, []] ∧
      (∀ l ∈ [header, total, row, gone], l.length = 76) ∧
      row = "数え方/とても長い名前のファイル/main_module.rs              0              0             12".toList := by
  have hnames : ∀ f ∈ longNamed.files.toList, '\n' ∉ f.name.toList := by decide
  have hcounters : ∀ f ∈ longNamed.files.toList, ∀ c ∈ [f.blanks, f.comments, f.code], c.value < 10 ^ 14 := by
    decide
  have htotals : ∀ c ∈ [longNamed.totals.blanks, longNamed.totals.comments, longNamed.totals.code],
      c.value < 10 ^ 14 := by decide
  obtain ⟨edge, header, total, rows, lines, rfl, hcut, hlength, hrows, -, -, -, hrow⟩ :=
    fileTable_aligned hnames hcounters htotals
  obtain ⟨row, gone, rfl⟩ : ∃ row gone, rows = [row, gone] := by
    refine List.length_eq_two.1 ?_
    have hfiles : longNamed.files.toList.length = 2 := rfl
    simp only [List.length_append, List.length_cons, List.length_nil, hfiles] at hlength
    omega
  refine ⟨⟨hnames, hcounters, htotals⟩, edge, header, total, row, gone, hcut, hrows, ?_⟩
  exact (Option.some.inj (hrow 0 _ rfl)).trans (by decide)

end Present

end LineCensus
