/-
Block comments of the known languages, written the plain way: the opener with some
text after it, lines of text, and the closer on a line of its own.

Such a block is taken as one if nothing else in the grammar gets at the opening
line. Two things could: a token for line comments that the opener starts with, since
line comments are looked for before blocks are, and a pair further up in the table.
`Grammar.Clear` says of a pair that no pair further up does, in terms of tokens only,
so that it can be computed for the whole table (`clear_builtin`); every pair of every
language is clear. Line comments do get at six of the openers, those of Nim, Julia,
CoffeeScript, CMake, Lua and MATLAB.
-/
import LineCensus.Language.Builtin
import LineCensus.Proofs.InnerLine
import LineCensus.Proofs.OpeningLine
import LineCensus.Proofs.Trimming

namespace LineCensus

open BlockDelimiter Text

namespace Grammar

/-- Everything that is looked for in lines. -/
def tokens (g : Grammar) : List (List Char) :=
  g.lineComments.map String.toList ++ g.blockComments.flatMap fun d => [d.opener.toList, d.closer.toList]

/-- A text without any token in it. -/
def Free (g : Grammar) (cs : List Char) : Prop := ∀ t ∈ g.tokens, ¬ t <:+: cs

instance (g : Grammar) (cs : List Char) : Decidable (g.Free cs) := inferInstanceAs (Decidable (∀ t ∈ _, _))

/-- Whether a block of the pair `d`, at place `i`, is taken as one: outside, past the
first line with text, an opening line, body lines and a closing line are not code, and
the block is open after each of them but the last. -/
def TakesBlock (g : Grammar) (i : Nat) (d : BlockDelimiter) : Prop :=
  ∀ s, Scanner.Reachable g s → s.state = .outside → s.interpreterPending = false →
    ∀ text body, g.Free text → (∀ raw ∈ body, g.Free raw) →
      .code ∉ s.kinds g ((d.opener.toList ++ ' ' :: text) :: body ++ [d.closer.toList]) ∧
      (∀ k ≤ body.length,
        (s.feedAll g ((d.opener.toList ++ ' ' :: text) :: body.take k)).state.active? = some i) ∧
      (s.feedAll g ((d.opener.toList ++ ' ' :: text) :: body ++ [d.closer.toList])).state = .outside

/-- A pair whose opener no pair further up can get at: tokens are words, an opener
that is not the closer does not contain it, and no token of a pair further up is in
the opener. -/
structure Clear (g : Grammar) (i : Nat) (d : BlockDelimiter) : Prop where
  words : ∀ t ∈ g.tokens, IsWord t
  closer : d.opener ≠ d.closer → ¬ d.closer.toList <:+: d.opener.toList
  further : ∀ e ∈ g.blockComments.take i,
    ¬ e.opener.toList <:+: d.opener.toList ∧ ¬ e.closer.toList <:+: d.opener.toList

instance (g : Grammar) (i : Nat) (d : BlockDelimiter) : Decidable (g.Clear i d) :=
  decidable_of_iff (_ ∧ _ ∧ _)
    ⟨fun ⟨h, h', h''⟩ => ⟨h, h', h''⟩, fun ⟨h, h', h''⟩ => ⟨h, h', h''⟩⟩

variable {g : Grammar} {i : Nat} {d : BlockDelimiter}

theorem lineComment_mem_tokens {t : String} (h : t ∈ g.lineComments) : t.toList ∈ g.tokens :=
  List.mem_append_left _ (List.mem_map_of_mem h)

theorem opener_mem_tokens (h : d ∈ g.blockComments) : d.opener.toList ∈ g.tokens :=
  List.mem_append_right _ (List.mem_flatMap.2 ⟨d, h, by simp⟩)

theorem closer_mem_tokens (h : d ∈ g.blockComments) : d.closer.toList ∈ g.tokens :=
  List.mem_append_right _ (List.mem_flatMap.2 ⟨d, h, by simp⟩)

theorem Clear.opener_ne (hg : g.Clear i d) (hd : d ∈ g.blockComments) : d.opener ≠ "" := by
  intro he
  exact (hg.words _ (opener_mem_tokens hd)).1 (by rw [he]; rfl)

end Grammar

namespace Scanner

open Grammar

variable {g : Grammar} {s : Scanner} {i : Nat} {p : Bool} {d : BlockDelimiter}

theorem not_infix_trimmed (hg : g.Clear i d) {raw : List Char} (hfree : g.Free raw) {t : List Char}
    (ht : t ∈ g.tokens) : ¬ t <:+: s.trimmed raw :=
  fun h => hfree t ht (infix_of_trimmed (hg.words t ht) h)

/-! ## The opening line -/

/-- A token in the opening line is in the opener: it lies on one side of the space. -/
theorem infix_opener_of_opening (hg : g.Clear i d) {text : List Char} (hfree : g.Free text) {t : List Char}
    (ht : t ∈ g.tokens) (h : t <:+: d.opener.toList ++ trimEnd (Line.expandTabs (' ' :: text))) :
    t <:+: d.opener.toList := by
  have hspace : ' ' ∉ t := (hg.words t ht).not_mem (by decide)
  have hline : t <:+: d.opener.toList ++ ' ' :: Line.expandTabs text :=
    h.trans ((List.prefix_append_right_inj _).2 (trimEnd_isPrefix _)).isInfix
  rcases infix_of_infix_append_cons hspace hline with h | h
  · exact h
  · exact absurd (Line.infix_of_expandTabs hspace h) (hfree t ht)

theorem startsLineComment_opening (hg : g.Clear i d) {text : List Char}
    (hcomment : g.startsLineComment d.opener.toList = false) :
    g.startsLineComment (d.opener.toList ++ trimEnd (Line.expandTabs (' ' :: text))) = false := by
  rw [← Bool.not_eq_true, startsLineComment_iff] at hcomment ⊢
  rintro ⟨t, ht, hprefix⟩
  have hspace : ' ' ∉ t.toList := (hg.words _ (lineComment_mem_tokens ht)).not_mem (by decide)
  have hline : t.toList <+: d.opener.toList ++ ' ' :: Line.expandTabs text :=
    hprefix.trans ((List.prefix_append_right_inj _).2 (trimEnd_isPrefix _))
  exact hcomment ⟨t, ht, prefix_of_prefix_append_cons hspace hline⟩

/-- The opening line is a comment and opens the block, with odd parity if the pair is
symmetric. -/
theorem verdict_opening (hg : g.Clear i d) (hd : g.blockComments[i]? = some d)
    (hcomment : g.startsLineComment d.opener.toList = false) (h : Reachable g s) (hs : s.state = .outside)
    (hpending : s.interpreterPending = false) {text : List Char} (hfree : g.Free text) :
    s.verdict g (d.opener.toList ++ ' ' :: text) = ⟨.comment, .inBlock i d.isSymmetric, false⟩ := by
  have hmem := List.mem_of_getElem? hd
  have hword := hg.words _ (opener_mem_tokens hmem)
  have ho := hg.opener_ne hmem
  have htrimmed := trimmed_append (h.atStart hpending) hword (' ' :: text)
  have hhit : d.hit (d.opener.toList ++ trimEnd (Line.expandTabs (' ' :: text))) = .comment :=
    hit_of_frames ho (.inl (List.prefix_append _ _))
  have hoffered : Offered g s (d.opener.toList ++ ' ' :: text) i d := by
    refine ⟨hd, hs, by simp [hpending], ?_, fun j hj e he => ?_⟩ <;> rw [htrimmed]
    · exact startsLineComment_opening hg hcomment
    · have hmem' := List.mem_of_getElem? he
      obtain ⟨hopener, hcloser⟩ := hg.further e (List.mem_of_getElem? (by rw [List.getElem?_take_of_lt hj, he]))
      exact hit_of_free (fun hin => hopener (infix_opener_of_opening hg hfree (opener_mem_tokens hmem') hin))
        (fun hin => hcloser (infix_opener_of_opening hg hfree (closer_mem_tokens hmem') hin))
  rw [hoffered.verdict_eq (by simp [htrimmed, hword.1]) (by simp [htrimmed, hhit]), htrimmed, hhit, if_neg (by simp)]
  by_cases hsym : d.opener = d.closer
  · have hrest : ¬ d.opener.toList <:+: trimEnd (Line.expandTabs (' ' :: text)) := by
      intro hin
      have hspace : ' ' ∉ d.opener.toList := hword.not_mem (by decide)
      have hin := infix_of_infix_cons hspace (hin.trans (trimEnd_isPrefix _).isInfix)
      exact hfree _ (opener_mem_tokens hmem) (Line.infix_of_expandTabs hspace hin)
    rw [afterComment_symmetric hd hsym, openers_eq ho, Scan.occurrences_append_eq_one hword.1 hrest,
      isSymmetric_iff.2 hsym]
    rfl
  · have hcloser := fun hin => hg.closer hsym (infix_opener_of_opening hg hfree (closer_mem_tokens hmem) hin)
    rw [afterComment_asymmetric hd hsym, if_neg hcloser, isSymmetric_eq_false_iff.2 hsym]

/-! ## The body and the closing line -/

theorem feedAll_free (hg : g.Clear i d) (hd : g.blockComments[i]? = some d) (h : Invariant g s)
    (hs : s.state = .inBlock i p) {raws : List (List Char)} (hfree : ∀ raw ∈ raws, g.Free raw) :
    (s.feedAll g raws).state = .inBlock i p ∧ .code ∉ s.kinds g raws := by
  have hmem := List.mem_of_getElem? hd
  induction raws generalizing s with
  | nil => exact ⟨hs, by simp [kinds]⟩
  | cons raw raws ih =>
    have hraw := hfree raw (by simp)
    have hv := h.verdict_free hs hd (not_infix_trimmed hg hraw (opener_mem_tokens hmem))
      (not_infix_trimmed hg hraw (closer_mem_tokens hmem))
    obtain ⟨hstate, hkinds⟩ := ih (h.feed raw) (by rw [feed_state, hv]) fun r hr => hfree r (by simp [hr])
    refine ⟨hstate, ?_⟩
    rw [kinds, List.mem_cons, not_or, classify_eq, hv]
    refine ⟨?_, hkinds⟩
    dsimp only
    split <;> simp

/-- The closer alone ends the block. -/
theorem verdict_closing (hg : g.Clear i d) (hd : g.blockComments[i]? = some d) (h : Reachable g s)
    (hs : s.state = .inBlock i d.isSymmetric) : s.verdict g d.closer.toList = ⟨.comment, .outside, false⟩ := by
  have hmem := List.mem_of_getElem? hd
  have hword := hg.words _ (closer_mem_tokens hmem)
  have hpending := h.invariant.settled (by rw [hs]; rfl)
  have htrimmed : s.trimmed d.closer.toList = d.closer.toList := by
    have := trimmed_append (h.atStart hpending) hword []
    simpa [Line.expandTabs, trimEnd] using this
  rw [h.invariant.verdict_closer hs hd htrimmed, if_neg]
  rintro ⟨hsym, heven⟩
  rw [isSymmetric_iff.2 hsym] at heven
  cases heven

/-! ## The whole block -/

/-- Where a token for line comments gets at the opener, no block opens. -/
theorem verdict_shadowed (hword : IsWord d.opener.toList) (hcomment : g.startsLineComment d.opener.toList = true)
    (h : Reachable g s) (hs : s.state = .outside) (hpending : s.interpreterPending = false) (text : List Char) :
    s.verdict g (d.opener.toList ++ ' ' :: text) = ⟨.comment, .outside, false⟩ := by
  obtain ⟨t, ht, hprefix⟩ := startsLineComment_iff.1 hcomment
  rw [verdict_eq, hs, hpending, trimmed_append (h.atStart hpending) hword]
  refine judge_lineComment (by simp [hword.1]) (startsLineComment_iff.2 ⟨t, ht, ?_⟩)
  exact List.prefix_append_of_prefix hprefix

/-- A block of a clear pair is taken as one unless its opener is a line comment. -/
theorem takesBlock_iff (hg : g.Clear i d) (hd : g.blockComments[i]? = some d) :
    g.TakesBlock i d ↔ g.startsLineComment d.opener.toList = false := by
  have hmem := List.mem_of_getElem? hd
  constructor
  · intro htakes
    by_cases hcomment : g.startsLineComment d.opener.toList = true
    · -- After an interpreter line, whatever the grammar, the scan is outside.
      have hstart : Reachable g (Scanner.feed g {} interpreterMark) := Reachable.start.feed _
      have hfree : g.Free [] := fun t ht => (hg.words t ht).not_infix_nil
      have hopen := (htakes _ hstart rfl rfl [] [] hfree (by simp)).2.1 0 (by simp)
      rw [List.take_nil, feedAll_cons, feedAll_nil, feed_state,
        verdict_shadowed (hg.words _ (opener_mem_tokens hmem)) hcomment hstart rfl rfl] at hopen
      cases hopen
    · rwa [Bool.not_eq_true] at hcomment
  · intro hcomment s h hs hpending text body htext hbody
    have hopening := verdict_opening hg hd hcomment h hs hpending htext
    have hstate : (s.feed g (d.opener.toList ++ ' ' :: text)).state = .inBlock i d.isSymmetric := by
      rw [feed_state, hopening]
    have hbody' := fun k => feedAll_free hg hd (h.feed _).invariant hstate fun raw hraw =>
      hbody raw (List.mem_of_mem_take (i := k) hraw)
    have hlast := hbody' body.length
    rw [List.take_length] at hlast
    have hclosing := verdict_closing hg hd ((h.feed _).feedAll body) hlast.1
    refine ⟨?_, fun k _ => ?_, ?_⟩
    · simp only [List.cons_append, kinds, kinds_append, classify_eq, hopening, hclosing, List.mem_cons,
        List.mem_append, reduceCtorEq, false_or, or_false, List.not_mem_nil]
      exact hlast.2
    · rw [feedAll_cons, (hbody' k).1]; rfl
    · rw [List.cons_append, feedAll_cons, feedAll_append, feedAll_cons, feedAll_nil, feed_state, hclosing]

end Scanner

/-! ## The table -/

namespace Language

open Grammar

theorem clear_builtin : ∀ l ∈ builtin, ∀ e ∈ l.grammar.blockComments.zipIdx, l.grammar.Clear e.2 e.1 := by
  decide +kernel

/-- The languages whose opener starts a line comment. -/
def shadowed : List String := ["nim", "julia", "coffeescript", "cmake", "lua", "matlab"]

theorem startsLineComment_builtin : ∀ l ∈ builtin, ∀ d ∈ l.grammar.blockComments,
    (l.grammar.startsLineComment d.opener.toList = true ↔ l.id ∈ shadowed) := by
  decide +kernel

/-- **Block comments of the known languages.** A block of a known language is taken as
one, whatever its text, just if its opener does not start a line comment of the
language; and that leaves out six languages. -/
theorem builtin_takesBlock_iff {l : Definition} (hl : l ∈ builtin) {i : Nat} {d : BlockDelimiter}
    (hd : l.grammar.blockComments[i]? = some d) :
    (l.grammar.TakesBlock i d ↔ l.grammar.startsLineComment d.opener.toList = false) ∧
    (l.grammar.TakesBlock i d ↔ l.id ∉ shadowed) := by
  have hclear := clear_builtin l hl (d, i) (List.mem_zipIdx_iff_getElem?.2 hd)
  have htakes := Scanner.takesBlock_iff hclear hd
  have hshadowed := startsLineComment_builtin l hl d (List.mem_of_getElem? hd)
  refine ⟨htakes, ?_⟩
  rw [htakes, ← hshadowed, Bool.not_eq_true]

theorem vue_takesBlock :
    let vue := language "vue" "Vue" ["vue"] slashes [⟨"<!--", "-->"⟩, ⟨"/*", "*/"⟩]
    vue ∈ builtin ∧ vue.grammar.TakesBlock 1 ⟨"/*", "*/"⟩ := by
  intro vue
  have hvue : vue ∈ builtin := by decide +kernel
  exact ⟨hvue, (builtin_takesBlock_iff hvue rfl).2.2 (by decide)⟩

/-- In Lua the opening line is a line comment, and the body is code. -/
theorem not_all_builtin_takesBlock : ¬ ∀ l ∈ builtin, ∀ i d, l.grammar.blockComments[i]? = some d →
    l.grammar.TakesBlock i d := by
  intro h
  let lua := language "lua" "Lua" ["lua"] dashes [⟨"--[[", "]]"⟩]
  have htakes := h lua (by decide +kernel) 0 ⟨"--[[", "]]"⟩ rfl
  have hreach : Scanner.Reachable lua.grammar (Scanner.feed lua.grammar {} "x = 1".toList) :=
    Scanner.Reachable.start.feed _
  have hcode := (htakes _ hreach (by decide) (by decide) "text".toList ["body".toList] (by decide +kernel)
    (by decide +kernel)).1
  exact hcode (by decide +kernel)

end Language

end LineCensus
