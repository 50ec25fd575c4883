/-
The tokens of a line in bytes and in characters. A scan goes over the bytes of a line, and where no token
is it goes on by one byte, so it comes to places in the middle of characters as well. UTF-8 keeps every
token away from there: the bytes are read as what the characters are read as, with each character that
belongs to no token spelled out (`Tokenised.encode`).

So bytes and characters of a line are scanned alike. Spelling characters out changes no depth
(`Token.foldl_after_bytes`), hence the depth of a line is the same on both (`depthFrom_encode`), and with
it what the line leaves open and how often a token occurs.
-/
import LineCensus.Proofs.Encoding
import LineCensus.Proofs.Tokenised

namespace LineCensus.Scan

open Text

/-! ## Tokens spelled out -/

namespace Token

/-- A token of characters in bytes. A character outside the tokens stands for all of its bytes. -/
def bytes : Token Char → List (Token UInt8)
  | opener => [opener]
  | closer => [closer]
  | symbol c => (String.utf8EncodeChar c).map symbol

theorem foldl_after_symbols {α : Type} (xs : List α) (depth : Nat) : (xs.map symbol).foldl after depth = depth := by
  induction xs with
  | nil => rfl
  | cons x xs ih => exact ih

theorem foldl_after_bytes (ts : List (Token Char)) (depth : Nat) :
    (ts.flatMap bytes).foldl after depth = ts.foldl after depth := by
  induction ts generalizing depth with
  | nil => rfl
  | cons t ts ih =>
    have htoken : t.bytes.foldl after depth = t.after depth := by
      cases t with
      | opener => rfl
      | closer => rfl
      | symbol c => exact foldl_after_symbols _ depth
    rw [List.flatMap_cons, List.foldl_append, htoken, ih, List.foldl_cons]

end Token

variable {opener closer line : List Char} {ts : List (Token Char)}

/-- Bytes that no character starts with are read one by one. -/
theorem Tokenised.later (ho : opener ≠ []) {bs ys : List UInt8} {us : List (Token UInt8)}
    (hbs : ∀ x ∈ bs, ¬ x.IsUTF8FirstByte) (h : Tokenised (encode opener) (encode closer) ys us) :
    Tokenised (encode opener) (encode closer) (bs ++ ys) (bs.map .symbol ++ us) := by
  induction bs with
  | nil => exact h
  | cons b bs ih =>
    have hb := hbs b (by simp)
    refine .symbol (not_encode_prefix_cons ho hb _) ?_ (ih fun x hx => hbs x (by simp [hx]))
    by_cases hc : closer = []
    · exact .inl (encode_eq_nil_iff.2 hc)
    · exact .inr (not_encode_prefix_cons hc hb _)

/-- **The bytes of a line have the tokens of its characters.** -/
theorem Tokenised.encode (ho : opener ≠ []) (h : Tokenised opener closer line ts) :
    Tokenised (Text.encode opener) (Text.encode closer) (Text.encode line) (ts.flatMap Token.bytes) := by
  induction h with
  | nil => exact .nil
  | opener _ ih =>
    rw [encode_append]
    exact .opener ih
  | closer hc hopen _ ih =>
    rw [encode_append]
    exact .closer (mt encode_eq_nil_iff.1 hc) (by rwa [← encode_append, encode_prefix_iff]) ih
  | @symbol c cs ts hopen hclose _ ih =>
    obtain ⟨b, bs, hspelled, -, hlater⟩ := utf8EncodeChar_eq_cons c
    have hline : Text.encode (c :: cs) = b :: (bs ++ Text.encode cs) := by
      rw [encode_cons, hspelled, List.cons_append]
    have htokens : (.symbol c :: ts).flatMap Token.bytes = .symbol b :: (bs.map .symbol ++ ts.flatMap Token.bytes) := by
      rw [List.flatMap_cons, Token.bytes, hspelled, List.map_cons, List.cons_append]
    -- The first byte stands where the character does, and the others are within it.
    rw [htokens, hline]
    refine .symbol ?_ ?_ (ih.later ho hlater)
    · rwa [← hline, encode_prefix_iff]
    · rwa [← hline, encode_prefix_iff, encode_eq_nil_iff]

/-! ## Scans -/

/-- **The depth of a line is the same on its bytes as on its characters.** -/
theorem depthFrom_encode (ho : opener ≠ []) (closer : List Char) (depth : Nat) (line : List Char) :
    depthFrom (encode opener) (encode closer) 0 depth (encode line) = depthFrom opener closer 0 depth line := by
  obtain ⟨ts, hts⟩ := exists_tokenised ho closer line
  rw [hts.depthFrom_eq ho, (hts.encode ho).depthFrom_eq (mt encode_eq_nil_iff.1 ho), Token.foldl_after_bytes]

theorem leavesOpen_encode (ho : opener ≠ []) (closer line : List Char) :
    leavesOpen (encode opener) (encode closer) (encode line) = leavesOpen opener closer line := by
  rw [Bool.eq_iff_iff, leavesOpen_iff_depthFrom (mt encode_eq_nil_iff.1 ho), leavesOpen_iff_depthFrom ho,
    depthFrom_encode ho]

theorem occurrences_encode {token : List Char} (ht : token ≠ []) (line : List Char) :
    occurrences (encode token) (encode line) = occurrences token line := by
  simp only [occurrences, countFrom_eq_depthFrom]
  exact depthFrom_encode ht [] 0 line

end LineCensus.Scan
