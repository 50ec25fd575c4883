/-
The tokens of a block delimiter in a line. A line is scanned for them in bytes, and each round of the scan
takes one token; what the line leaves open is told by which of its tokens prevail towards the end
(`isLeftOpen_iff_unbalanced`). Bytes are scanned as characters are, so both the answer and the count of
openers may be read off the characters (`scanned_as_characters`).
-/
import LineCensus.Proofs.Delimiter

namespace LineCensus

namespace BlockDelimiter

open Scan

/-- The bytes of a line as tokens of this delimiter. -/
def Tokenises (d : BlockDelimiter) (line : List Char) (ts : List (Token UInt8)) : Prop :=
  Tokenised (Text.encode d.opener.toList) (Text.encode d.closer.toList) (Text.encode line) ts

/-- One round of the scan for this delimiter, from a depth and the bytes that are left of the line. -/
def advance (d : BlockDelimiter) : Nat × List UInt8 → Nat × List UInt8 :=
  Scan.advance (Text.encode d.opener.toList) (Text.encode d.closer.toList)

/-- **The scan ends, and tells whether the openers prevail.** For a delimiter with an opener every line is
read as one list of tokens, and the scan is at the end of the line after as many rounds, which are not
more than the line has bytes. If opener and closer differ, what the scan ends with says whether the line
leaves a block open, and it does exactly if in some end of the list there are more openers than closers.
So a line that leaves a block open has the opener in it. -/
theorem isLeftOpen_iff_unbalanced {d : BlockDelimiter} (ho : d.opener ≠ "") (line : List Char) :
    ∃ ts, d.Tokenises line ts ∧ (∀ ts', d.Tokenises line ts' → ts' = ts) ∧
      ts.length ≤ (Text.encode line).length ∧
      (∃ depth, d.advance^[ts.length] (0, Text.encode line) = (depth, []) ∧
        (d.opener ≠ d.closer → (d.isLeftOpen line = true ↔ depth ≠ 0))) ∧
      (d.opener ≠ d.closer → (d.isLeftOpen line = true ↔
        ∃ s, s <:+ ts ∧ s.countP Token.isCloser < s.countP Token.isOpener)) ∧
      (d.isLeftOpen line = true → d.opener.toList <:+: line) := by
  have hbytes : Text.encode d.opener.toList ≠ [] := mt Text.encode_eq_nil_iff.1 (token_toList_ne_nil ho)
  obtain ⟨ts, hts⟩ := exists_tokenised hbytes (Text.encode d.closer.toList) (Text.encode line)
  have hdiffer : d.opener ≠ d.closer → Text.encode d.opener.toList ≠ Text.encode d.closer.toList := by
    intro hne h
    exact hne (String.toList_inj.1 (Text.encode_inj.1 h))
  refine ⟨ts, hts, fun ts' => hts.unique hbytes, hts.length_le hbytes, ⟨_, hts.iterate_advance 0, fun hne => ?_⟩,
    fun hne => ?_, infix_of_isLeftOpen ho⟩
  · rw [isLeftOpen, leavesOpen, if_neg (by simpa using hdiffer hne), hts.depthFrom_eq hbytes, bne_iff_ne]
  · rw [isLeftOpen, leavesOpen_iff_endsAbove hbytes (hdiffer hne) hts]
    simp only [Token.EndsAbove, Nat.zero_add]

/-- A line that closes a block before it opens one. -/
theorem isLeftOpen_iff_unbalanced_reopened :
    let d : BlockDelimiter := ⟨"/*", "*/"⟩
    let line := "*/ /*".toList
    d.opener ≠ "" ∧ d.opener ≠ d.closer ∧ d.Tokenises line [.closer, .symbol 32, .opener] ∧
      d.advance^[3] (0, Text.encode line) = (1, []) ∧ d.isLeftOpen line = true ∧ d.opener.toList <:+: line := by
  intro d line
  have ho : d.opener ≠ "" := by decide
  have hne : d.opener ≠ d.closer := by decide
  have hbytes : Text.encode line = Text.encode d.closer.toList ++ 32 :: (Text.encode d.opener.toList ++ []) := by decide
  have hts : d.Tokenises line [.closer, .symbol 32, .opener] := by
    rw [Tokenises, hbytes]
    exact .closer (by decide) (by decide) (.symbol (by decide) (by decide) (.opener .nil))
  obtain ⟨ts, -, hunique, -, ⟨depth, hdepth, hscan⟩, hopen, hinfix⟩ := isLeftOpen_iff_unbalanced ho line
  obtain rfl := hunique _ hts
  have hleft : d.isLeftOpen line = true := (hopen hne).2 ⟨[.opener], by decide, by decide⟩
  exact ⟨ho, hne, hts, by decide, hleft, hinfix hleft⟩

/-- **Bytes are scanned as characters are.** The bytes of a line are read as the tokens of its characters.
Whether the line leaves a block open is told by the depth count over the characters, an opener before a
closer at each place from the left; and the openers counted are those of the characters, taken from the
left without overlap. -/
theorem scanned_as_characters {d : BlockDelimiter} (ho : d.opener ≠ "") (line : List Char) :
    ∃ ts us, Tokenised d.opener.toList d.closer.toList line ts ∧ Tokenised d.opener.toList [] line us ∧
      d.Tokenises line (ts.flatMap Token.bytes) ∧
      depthFrom d.opener.toList d.closer.toList 0 0 line = ts.foldl Token.after 0 ∧
      (d.isLeftOpen line = true ↔ depthFrom d.opener.toList d.closer.toList 0 0 line ≠ 0) ∧
      occurrences d.opener.toList line = us.countP Token.isOpener ∧
      d.openers line = occurrences d.opener.toList line := by
  have hopener : d.opener.toList ≠ [] := token_toList_ne_nil ho
  obtain ⟨ts, hts⟩ := exists_tokenised hopener d.closer.toList line
  obtain ⟨us, hus⟩ := exists_tokenised hopener [] line
  refine ⟨ts, us, hts, hus, hts.encode hopener, hts.depthFrom_eq hopener 0, ?_, hus.occurrences_eq hopener,
    openers_eq ho line⟩
  rw [isLeftOpen_eq ho, leavesOpen_iff_depthFrom hopener, Nat.pos_iff_ne_zero]

/-- Arrows of which the first two bytes are the same. -/
theorem scanned_as_characters_arrows :
    let d : BlockDelimiter := ⟨"→", "←"⟩
    let line := "→é← ↔→".toList
    d.opener ≠ "" ∧ d.isLeftOpen line = true ∧ d.openers line = 2 ∧
      d.Tokenises line ([.opener, .symbol 'é', .closer, .symbol ' ', .symbol '↔', .opener].flatMap Token.bytes) := by
  intro d line
  have ho : d.opener ≠ "" := by decide
  have hline : line =
      d.opener.toList ++ 'é' :: (d.closer.toList ++ ' ' :: '↔' :: (d.opener.toList ++ [])) := by decide
  have hread : Tokenised d.opener.toList d.closer.toList line
      [.opener, .symbol 'é', .closer, .symbol ' ', .symbol '↔', .opener] := by
    rw [hline]
    exact .opener (.symbol (by decide) (by decide) (.closer (by decide) (by decide)
      (.symbol (by decide) (by decide) (.symbol (by decide) (by decide) (.opener .nil)))))
  obtain ⟨ts, us, hts, -, htokens, -, hopen, -, hcount⟩ := scanned_as_characters ho line
  obtain rfl := hread.unique (token_toList_ne_nil ho) hts
  exact ⟨ho, hopen.2 (by decide), hcount.trans (by decide), htokens⟩

end BlockDelimiter

end LineCensus
