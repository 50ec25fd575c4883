/-
Values of JSON are read back from their text. What stands between quotes is read piece by piece, and each
character's piece stands for that character again (`exists_piece`). A text that spells a value does so
whatever follows it (`Spells`), and so the items of an array and the members of an object are read one
after the other. The reader's bound, the length of the text, is enough, for every value that is read leaves
at least its own characters behind.

Numbers are left out: they are kept as they are spelled, and need not be spelled as numbers.
-/
import LineCensus.Json.Reader
import LineCensus.Json.Writer
import Mathlib

namespace LineCensus.Json

variable {v : Json} {cs : List Char}

/-! ## Strings -/

theorem readPieces_char {c : Char} (hquote : c ≠ '"') (hbackslash : c ≠ '\\') (hcontrol : ¬ c.val < 0x20)
    (read : List Piece) (rest : List Char) : readPieces read (c :: rest) = readPieces (.char c :: read) rest := by
  rw [readPieces.eq_def]
  split <;> simp_all

theorem hexQuad?_hexDigit : ∀ n < 32, hexQuad? '0' '0' (hexDigit (n / 16)) (hexDigit (n % 16)) = some n := by decide

theorem joinPieces_unit {n : Nat} (hn : n < 32) (read : List Char) (pieces : List Piece) :
    joinPieces read (.unit n :: pieces) = joinPieces (Char.ofNat n :: read) pieces := by
  have hhigh : isHighHalf n = false := by
    rw [isHighHalf, decide_eq_false (by omega), Bool.false_and]
  have hlow : isLowHalf n = false := by
    rw [isLowHalf, decide_eq_false (by omega), Bool.false_and]
  cases pieces with
  | nil => simp [joinPieces, hhigh, hlow]
  | cons piece pieces => cases piece <;> simp [joinPieces, hhigh, hlow]

/-- A character is read as one piece, which stands for this character. -/
theorem exists_piece (c : Char) : ∃ piece,
    (∀ read rest, readPieces read (escapeChar c ++ rest) = readPieces (piece :: read) rest) ∧
    ∀ read pieces, joinPieces read (piece :: pieces) = joinPieces (c :: read) pieces := by
  have hjoin : ∀ c : Char, ∀ read pieces, joinPieces read (.char c :: pieces) = joinPieces (c :: read) pieces :=
    fun _ _ _ => rfl
  unfold escapeChar
  split
  next => exact ⟨.char '"', fun _ _ => rfl, hjoin _⟩
  next => exact ⟨.char '\\', fun _ _ => rfl, hjoin _⟩
  next => exact ⟨.char '\n', fun _ _ => rfl, hjoin _⟩
  next => exact ⟨.char '\r', fun _ _ => rfl, hjoin _⟩
  next => exact ⟨.char '\t', fun _ _ => rfl, hjoin _⟩
  next hquote hbackslash _ _ _ =>
    split
    next hval =>
      obtain rfl : c = Char.ofNat 8 := Char.ext hval
      exact ⟨.char (Char.ofNat 8), fun _ _ => rfl, hjoin _⟩
    next =>
      split
      next hval =>
        obtain rfl : c = Char.ofNat 12 := Char.ext hval
        exact ⟨.char (Char.ofNat 12), fun _ _ => rfl, hjoin _⟩
      next =>
        split
        next hcontrol =>
          have hlt : c.toNat < 32 := UInt32.lt_iff_toNat_lt.1 hcontrol
          refine ⟨.unit c.toNat, fun read rest => ?_, fun read pieces => ?_⟩
          · have hquad := hexQuad?_hexDigit c.toNat hlt
            simp only [List.cons_append, List.nil_append, readPieces]
            rw [show c.val.toNat = c.toNat from rfl, hquad]
          · rw [joinPieces_unit hlt, Char.ofNat_toNat]
        next hcontrol =>
          exact ⟨.char c, fun read rest => readPieces_char hquote hbackslash hcontrol read rest, hjoin c⟩

theorem exists_pieces (cs : List Char) : ∃ pieces,
    (∀ read rest, readPieces read (cs.flatMap escapeChar ++ rest) = readPieces (pieces.reverse ++ read) rest) ∧
    ∀ read, joinPieces read pieces = some (cs.reverse ++ read) := by
  induction cs with
  | nil => exact ⟨[], fun _ _ => rfl, fun _ => rfl⟩
  | cons c cs ih =>
    obtain ⟨piece, hread, hjoin⟩ := exists_piece c
    obtain ⟨pieces, hreads, hjoins⟩ := ih
    refine ⟨piece :: pieces, fun read rest => ?_, fun read => ?_⟩
    · rw [List.flatMap_cons, List.append_assoc, hread, hreads, List.reverse_cons, List.append_assoc]
      rfl
    · rw [hjoin, hjoins, List.reverse_cons, List.append_assoc]
      rfl

theorem toList_quote (s : String) : (quote s).toList = '"' :: (s.toList.flatMap escapeChar ++ ['"']) := by
  simp [quote]

theorem readString_quoted (s : String) (rest : List Char) :
    readString (s.toList.flatMap escapeChar ++ ['"'] ++ rest) = some (some s, rest) := by
  obtain ⟨pieces, hreads, hjoins⟩ := exists_pieces s.toList
  have hread : readPieces [] (s.toList.flatMap escapeChar ++ ['"'] ++ rest) = some (pieces.reverse, rest) := by
    rw [List.append_assoc, hreads, List.append_nil]
    rfl
  rw [readString, hread]
  simp [hjoins]

/-! ## Values -/

theorem skipSpace_cons {c : Char} (h : isSpace c = false) (rest : List Char) : skipSpace (c :: rest) = c :: rest := by
  rw [skipSpace, List.dropWhile_cons_of_neg (by simp [h])]

/-- A text is read as a value, whatever follows it. It starts with a character that a value can start with. -/
structure Spells (cs : List Char) (v : Json) : Prop where
  head : ∃ c tail, cs = c :: tail ∧ isSpace c = false ∧ c ≠ ']'
  read : ∀ fuel rest, cs.length ≤ fuel → readValue fuel (cs ++ rest) = some (v, rest)

/-- What follows the first character is all the reader's bound is needed for. -/
theorem Spells.of_cons {c : Char} {tail : List Char} (htext : cs = c :: tail) (hspace : isSpace c = false)
    (hclosing : c ≠ ']') (hread : ∀ fuel rest, tail.length ≤ fuel →
      readValue (fuel + 1) (c :: (tail ++ rest)) = some (v, rest)) : Spells cs v := by
  refine ⟨⟨c, tail, htext, hspace, hclosing⟩, fun fuel rest hfuel => ?_⟩
  subst htext
  obtain ⟨fuel, rfl⟩ := Nat.exists_eq_add_of_le' (Nat.le_trans (Nat.le_add_left 1 _) hfuel)
  exact hread fuel rest (Nat.le_of_succ_le_succ hfuel)

theorem spells_quote (s : String) : Spells (quote s).toList (.text s) := by
  refine .of_cons (toList_quote s) rfl (by decide) fun fuel rest _ => ?_
  rw [readValue, skipSpace_cons rfl]
  exact congrArg (Option.map _) (readString_quoted s rest)

/-- The items of an array, after those that have been read. -/
theorem readItems_spelled {texts : List (List Char)} {vs : List Json} (h : List.Forall₂ Spells texts vs)
    (hvs : vs ≠ []) {fuel : Nat} (hfuel : ([','].intercalate texts).length < fuel) (read : List Json)
    (rest : List Char) :
    readItems fuel read ([','].intercalate texts ++ ']' :: rest) = some (.array (read.reverse ++ vs), rest) := by
  induction h generalizing fuel read with
  | nil => exact absurd rfl hvs
  | @cons text v texts vs hspells h ih =>
    obtain ⟨fuel, rfl⟩ := Nat.exists_eq_add_of_le' (Nat.lt_of_le_of_lt (Nat.zero_le _) hfuel)
    cases h with
    | nil =>
      rw [List.intercalate_singleton] at hfuel ⊢
      rw [readItems, hspells.read _ _ (by omega)]
      simp [skipSpace_cons, isSpace]
    | @cons text' v' texts vs hspells' h =>
      rw [List.intercalate_cons_cons, List.length_append, List.length_append, List.length_singleton] at hfuel
      rw [List.intercalate_cons_cons, List.append_assoc, List.append_assoc, readItems, hspells.read _ _ (by omega)]
      have hrest := ih (by simp) (by omega : _ < fuel) (v :: read)
      simpa [skipSpace_cons, isSpace] using hrest

/-- The text of a member. -/
def MemberSpells (text : List Char) (m : String × Json) : Prop :=
  ∃ cs, text = (quote m.1).toList ++ ':' :: cs ∧ Spells cs m.2

theorem MemberSpells.read {text : List Char} {m : String × Json} (h : MemberSpells text m) {fuel : Nat}
    (hfuel : text.length ≤ fuel + 1) (read : List (Option String × Json)) (rest : List Char) :
    readMembers (fuel + 1) read (text ++ rest) =
      match skipSpace rest with
      | ',' :: rest => readMembers fuel ((some m.1, m.2) :: read) rest
      | '\x7d' :: rest => some (.object ((some m.1, m.2) :: read).reverse, rest)
      | _ => none := by
  obtain ⟨cs, rfl, hspells⟩ := h
  have hread : readString (m.1.toList.flatMap escapeChar ++ ['"'] ++ (':' :: (cs ++ rest))) =
      some (some m.1, ':' :: (cs ++ rest)) := readString_quoted _ _
  rw [toList_quote, List.length_append, List.length_cons, List.length_cons] at hfuel
  have hvalue : readValue fuel (cs ++ rest) = some (m.2, rest) := hspells.read _ _ (by omega)
  rw [toList_quote, List.append_assoc, List.cons_append, List.cons_append]
  simp only [readMembers, skipSpace_cons, isSpace, hread, hvalue, Option.bind_eq_bind, Option.bind_some, Char.reduceBEq,
    Bool.or_self]
  rfl

/-- The members of an object, after those that have been read. -/
theorem readMembers_spelled {texts : List (List Char)} {ms : List (String × Json)}
    (h : List.Forall₂ MemberSpells texts ms) (hms : ms ≠ []) {fuel : Nat}
    (hfuel : ([','].intercalate texts).length < fuel) (read : List (Option String × Json)) (rest : List Char) :
    readMembers fuel read ([','].intercalate texts ++ '\x7d' :: rest) =
      some (.object (read.reverse ++ ms.map fun (k, v) => (some k, v)), rest) := by
  induction h generalizing fuel read with
  | nil => exact absurd rfl hms
  | @cons text m texts ms hspells h ih =>
    obtain ⟨fuel, rfl⟩ := Nat.exists_eq_add_of_le' (Nat.lt_of_le_of_lt (Nat.zero_le _) hfuel)
    cases h with
    | nil =>
      rw [List.intercalate_singleton] at hfuel ⊢
      rw [hspells.read (by omega), skipSpace_cons rfl]
      simp
    | @cons text' m' texts ms hspells' h =>
      rw [List.intercalate_cons_cons, List.length_append, List.length_append, List.length_singleton] at hfuel
      rw [List.intercalate_cons_cons, List.append_assoc, List.append_assoc, hspells.read (by omega)]
      have hrest := ih (by simp) (by omega : _ < fuel) ((some m.1, m.2) :: read)
      simpa [skipSpace_cons, isSpace] using hrest

/-! ## What is written for a value -/

theorem compactItems_eq (vs : List Json) : compactItems vs = vs.map compact := by
  induction vs with
  | nil => rfl
  | cons v vs ih => rw [compactItems, ih, List.map_cons]

theorem compactMembers_record (ms : List (String × Json)) :
    compactMembers (ms.map fun (k, v) => (some k, v)) = ms.map fun m => quote m.1 ++ ":" ++ m.2.compact := by
  induction ms with
  | nil => rfl
  | cons m ms ih =>
    rw [List.map_cons, compactMembers, ih, List.map_cons]
    rfl

/-- A value without numbers, in which all names and strings are text. -/
inductive Textual : Json → Prop where
  | null : Textual .null
  | bool (b : Bool) : Textual (.bool b)
  | text (s : String) : Textual (.text s)
  | array {vs : List Json} (h : ∀ v ∈ vs, Textual v) : Textual (.array vs)
  | record {ms : List (String × Json)} (h : ∀ m ∈ ms, Textual m.2) : Textual (.record ms)

theorem spells_array {vs : List Json} (h : ∀ v ∈ vs, Spells v.compact.toList v) :
    Spells (compact (.array vs)).toList (.array vs) := by
  have htext : (compact (.array vs)).toList = '[' :: ([','].intercalate (vs.map (·.compact.toList)) ++ [']']) := by
    rw [compact, compactItems_eq]
    simp [Function.comp_def]
  refine .of_cons htext rfl (by decide) fun fuel rest hfuel => ?_
  rw [List.length_append, List.length_singleton] at hfuel
  rw [List.append_assoc]
  simp only [readValue, skipSpace_cons, isSpace, Char.reduceBEq, Bool.or_self]
  cases vs with
  | nil => simp [skipSpace_cons, isSpace]
  | cons v vs =>
    have hitems : List.Forall₂ Spells ((v :: vs).map (·.compact.toList)) (v :: vs) :=
      List.forall₂_map_left_iff.2 (List.forall₂_same.2 h)
    have hread := readItems_spelled hitems (by simp) (by omega : _ < fuel) [] rest
    obtain ⟨c, tail, hhead, hspace, hclosing⟩ := (h v List.mem_cons_self).head
    obtain ⟨tail', htail⟩ : ∃ tail', [','].intercalate ((v :: vs).map (·.compact.toList)) = c :: tail' := by
      cases vs <;> simp [hhead]
    rw [htail] at hread ⊢
    simp only [List.cons_append, List.nil_append, skipSpace_cons hspace] at hread ⊢
    split
    next heq => exact absurd (List.cons.inj heq).1 hclosing
    next => exact hread

theorem spells_record {ms : List (String × Json)} (h : ∀ m ∈ ms, Spells m.2.compact.toList m.2) :
    Spells (compact (.record ms)).toList (.record ms) := by
  let text (m : String × Json) : List Char := (quote m.1).toList ++ ':' :: m.2.compact.toList
  have htext : (compact (.record ms)).toList = '\x7b' :: ([','].intercalate (ms.map text) ++ ['\x7d']) := by
    rw [record, compact, compactMembers_record]
    simp [Function.comp_def, text]
  refine .of_cons htext rfl (by decide) fun fuel rest hfuel => ?_
  rw [List.length_append, List.length_singleton] at hfuel
  rw [List.append_assoc]
  simp only [readValue, skipSpace_cons, isSpace, Char.reduceBEq, Bool.or_self]
  cases ms with
  | nil => simp [skipSpace_cons, isSpace, record]
  | cons m ms =>
    have hmembers : List.Forall₂ MemberSpells ((m :: ms).map text) (m :: ms) :=
      List.forall₂_map_left_iff.2 (List.forall₂_same.2 fun m hm => ⟨_, rfl, h m hm⟩)
    have hread := readMembers_spelled hmembers (by simp) (by omega : _ < fuel) [] rest
    obtain ⟨tail, htail⟩ : ∃ tail, [','].intercalate ((m :: ms).map text) = '"' :: tail := by
      cases ms <;> simp [text, toList_quote]
    rw [htail] at hread ⊢
    simp only [List.cons_append, List.nil_append, skipSpace_cons, isSpace, Char.reduceBEq, Bool.or_self] at hread ⊢
    exact hread

theorem Textual.spells (h : Textual v) : Spells v.compact.toList v := by
  induction h with
  | null => exact .of_cons rfl rfl (by decide) fun _ _ _ => rfl
  | bool b => cases b <;> exact .of_cons rfl rfl (by decide) fun _ _ _ => rfl
  | text s => exact spells_quote s
  | array _ ih => exact spells_array ih
  | record _ ih => exact spells_record ih

/-- **A value is read back from its text**, if there are no numbers in it and its strings are text. -/
theorem Textual.parse?_compact (h : Textual v) : parse? v.compact = some v := by
  have hread := h.spells.read (v.compact.toList.length + 1) [] (Nat.le_succ _)
  rw [List.append_nil] at hread
  rw [parse?, hread]
  rfl

end LineCensus.Json
