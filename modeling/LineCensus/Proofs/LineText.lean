/-
The text of one line of a file. One carriage return goes off its end, and what is left is
decoded; so a second one stays in the text as its last character (`lineText_cases`). A byte
order mark in front of the bytes is one in front of the text, and no other bytes make one
(`lineText_mark`, `dropMark_lineText`).
-/
import LineCensus.Proofs.Decoding
import LineCensus.Proofs.PhysicalLines

namespace LineCensus.Analysis

variable {line : List UInt8}

/-- The line without a carriage return at its end. -/
def withoutReturn (line : List UInt8) : List UInt8 := if line.getLast? = some 13 then line.dropLast else line

theorem lineText_eq (line : List UInt8) : lineText line = Text.decodeLossy (withoutReturn line) := rfl

@[simp] theorem withoutReturn_concat (line : List UInt8) : withoutReturn (line ++ [13]) = line := by
  simp [withoutReturn]

theorem withoutReturn_of_ne (h : line.getLast? ≠ some 13) : withoutReturn line = line := if_neg h

theorem withoutReturn_cons (h : line ≠ []) (b : UInt8) : withoutReturn (b :: line) = b :: withoutReturn line := by
  obtain ⟨c, cs, rfl⟩ := List.exists_cons_of_ne_nil h
  rw [withoutReturn, withoutReturn, List.getLast?_cons_cons]
  split <;> rfl

theorem withoutReturn_isPrefix (line : List UInt8) : withoutReturn line <+: line := by
  rw [withoutReturn]
  split
  next => exact List.dropLast_prefix line
  next => exact List.prefix_rfl

theorem return_cases (line : List UInt8) : (∃ bs, line = bs ++ [13]) ∨ line.getLast? ≠ some 13 :=
  (Decidable.em (line.getLast? = some 13)).imp_left List.getLast?_eq_some_iff.1

/-- Of two carriage returns at its end, a line's text keeps one. -/
theorem lineText_cases (line : List UInt8) : lineText line = lineText (withoutReturn line) ∨
    (∃ bs, line = bs ++ [13, 13]) ∧ lineText line = lineText (withoutReturn line) ++ ['\r'] := by
  rcases return_cases line with ⟨bs, rfl⟩ | hline
  · rw [lineText_eq, lineText_eq, withoutReturn_concat]
    rcases return_cases bs with ⟨cs, rfl⟩ | hbs
    · refine .inr ⟨⟨cs, by simp⟩, ?_⟩
      rw [withoutReturn_concat]
      exact Text.decodeLossy_append_ascii (by decide) cs []
    · rw [withoutReturn_of_ne hbs]
      exact .inl rfl
  · rw [withoutReturn_of_ne hline]
    exact .inl rfl

theorem lineText_mark (line : List UInt8) :
    lineText ([0xEF, 0xBB, 0xBF] ++ line) = Text.byteOrderMark :: lineText line := by
  have hreturn : withoutReturn ([0xEF, 0xBB, 0xBF] ++ line) = [0xEF, 0xBB, 0xBF] ++ withoutReturn line := by
    rcases return_cases line with ⟨bs, rfl⟩ | hline
    · rw [← List.append_assoc, withoutReturn_concat, withoutReturn_concat]
    · have hlast : ([0xEF, 0xBB, 0xBF] ++ line).getLast? ≠ some 13 := by
        rw [List.getLast?_append]
        cases hb : line.getLast? with
        | none => decide
        | some b => rw [hb] at hline; exact hline
      rw [withoutReturn_of_ne hlast, withoutReturn_of_ne hline]
  rw [lineText_eq, hreturn, Text.decodeLossy_mark, lineText_eq]

theorem dropMark_lineText (hmark : ¬ [0xEF, 0xBB, 0xBF] <+: line) :
    Line.dropMark (lineText line) = lineText line := by
  cases htext : lineText line with
  | nil => rfl
  | cons c cs =>
    refine if_neg ?_
    rintro rfl
    have hbytes : [0xEF, 0xBB, 0xBF] <+: withoutReturn line := Text.mark_prefix_of_decodeLossy htext
    exact hmark (hbytes.trans (withoutReturn_isPrefix line))

end LineCensus.Analysis
