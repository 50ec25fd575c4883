/-
Two lines within an open block: the closer on a line of its own, and a line that counts
as code.

The closer alone ends the block, but for a symmetric pair at even parity: there it is the
first of two single occurrences. Such a block was opened by a line with three occurrences
of the token or more (`feedAll_ne_even`).

A line counts as code when it leaves the opener unclosed and has the closer at its
beginning or the opener at its end. With the closer in front, it closes the block and
opens it again; with the opener at the end, no closer is needed.
-/
import LineCensus.Proofs.SymmetricSpan

namespace LineCensus.Scanner

open BlockDelimiter

variable {g : Grammar} {s : Scanner} {i : Nat} {p : Bool} {d : BlockDelimiter} {raw : List Char}

/-! ## The closer alone -/

theorem Invariant.verdict_closer (h : Invariant g s) (hs : s.state = .inBlock i p)
    (hd : g.blockComments[i]? = some d) (hraw : s.trimmed raw = d.closer.toList) : s.verdict g raw =
      ⟨.comment, if d.opener = d.closer ∧ p = false then .inBlock i true else .outside, false⟩ := by
  obtain ⟨ho, hc⟩ := h.tokens_ne hs hd
  have htoken := token_toList_ne_nil hc
  by_cases hsym : d.opener = d.closer
  · have hone : Scan.occurrences d.closer.toList (d.closer.toList ++ []) = 1 :=
      Scan.occurrences_append_eq_one htoken fun hin => htoken (List.infix_nil.1 hin)
    rw [List.append_nil] at hone
    rw [h.verdict_symmetric hs hd hsym, hraw, if_neg htoken, hsym, hone]
    cases p <;> simp [ScanState.afterSymmetric]
  · have hhit := hit_of_frames ho (.inr (List.suffix_rfl (l := d.closer.toList)))
    rw [h.verdict_inBlock hs, hraw, judge_inBlock hd htoken, if_neg (by simp [hhit]),
      Grammar.afterComment_asymmetric hd hsym, if_pos List.infix_rfl, if_neg (fun hodd => hsym hodd.1)]

/-- **The closer alone ends a block** of an asymmetric pair, or at odd parity, and is a
comment in any case. Parity is odd unless a line was read with three occurrences of the
token. -/
theorem closer_alone (h : Reachable g s) (hs : s.state = .inBlock i p) (hd : g.blockComments[i]? = some d)
    (hraw : s.trimmed raw = d.closer.toList) :
    s.classify g raw = .comment ∧ (d.opener ≠ d.closer ∨ p = true → (s.feed g raw).state = .outside) ∧
      ∀ raws, s = Scanner.feedAll g {} raws →
        (∀ form ∈ forms {} raws, Scan.occurrences d.closer.toList form ≤ 2) →
        (s.feed g raw).state = .outside := by
  have hv := h.invariant.verdict_closer hs hd hraw
  have hends : d.opener ≠ d.closer ∨ p = true → (s.feed g raw).state = .outside := by
    intro hodd
    rw [feed_state, hv, if_neg]
    rintro ⟨hsym, heven⟩
    rcases hodd with hne | htrue
    · exact hne hsym
    · rw [htrue] at heven
      cases heven
  refine ⟨by rw [classify_eq, hv], hends, fun raws hrun hfew => hends ?_⟩
  by_cases hsym : d.opener = d.closer
  · have hne := feedAll_ne_even (Invariant.start g) hd hsym (by simp) (hsym ▸ hfew)
    rw [← hrun, hs] at hne
    exact .inr (by simpa using hne)
  · exact .inl hsym

theorem closer_alone_docstring :
    let g : Grammar := { lineComments := ["#"], blockComments := [⟨"\"\"\"", "\"\"\""⟩, ⟨"'''", "'''"⟩] }
    let s := Scanner.feedAll g {} ["x = 1".toList, "\"\"\" text".toList]
    s.classify g "\t\"\"\" ".toList = .comment ∧ (s.feed g "\t\"\"\" ".toList).state = .outside := by
  intro g s
  have h : Reachable g s := reachable_iff.2 ⟨_, rfl⟩
  have hraw : s.trimmed "\t\"\"\" ".toList = "\"\"\"".toList := by decide +kernel
  obtain ⟨hkind, -, hfew⟩ :=
    closer_alone (i := 0) (p := true) (d := ⟨"\"\"\"", "\"\"\""⟩) h (by decide +kernel) rfl hraw
  exact ⟨hkind, hfew _ rfl (by decide +kernel)⟩

/-- After a line with four occurrences, the closer alone does not end the block. -/
theorem not_closer_alone_always : ¬ ∀ (g : Grammar) (s : Scanner) (i : Nat) (p : Bool) (d : BlockDelimiter)
    (raw : List Char), g.hasTokens = true → Reachable g s → s.state = .inBlock i p →
      g.blockComments[i]? = some d → s.trimmed raw = d.closer.toList →
      s.classify g raw = .comment ∧ (s.feed g raw).state = .outside := by
  intro hall
  let g : Grammar := { lineComments := ["#"], blockComments := [⟨"\"\"\"", "\"\"\""⟩] }
  let s := Scanner.feedAll g {} ["x = 1".toList, "\"\"\" a \"\"\" b \"\"\" c \"\"\"".toList]
  have h : Reachable g s := reachable_iff.2 ⟨_, rfl⟩
  have hout := (hall g s 0 false ⟨"\"\"\"", "\"\"\""⟩ "\"\"\"".toList (by decide +kernel) h (by decide +kernel) rfl
    (by decide +kernel)).2
  exact absurd hout (by decide +kernel)

/-! ## Code -/

theorem Invariant.classify_eq_code_iff (h : Invariant g s) (hs : s.state = .inBlock i p)
    (hd : g.blockComments[i]? = some d) (raw : List Char) :
    s.classify g raw = .code ↔ d.hit (s.trimmed raw) = .code := by
  rw [classify_eq, h.verdict_inBlock hs]
  by_cases hl : s.trimmed raw = []
  · rw [hl, judge_nil]
    constructor
    · intro hblank
      cases hblank
    · intro hcode
      obtain ⟨ho, -, hopen, -⟩ := hit_eq_code_iff.1 hcode
      exact absurd (List.infix_nil.1 (infix_of_isLeftOpen ho hopen)) (token_toList_ne_nil ho)
  · rw [judge_inBlock hd hl]
    split
    next hcode => simp [hcode]
    next hcode => simp [hcode]

/-- **Code within a block.** A line within an open block that counts as code has the
closer in it, or the opener at its end and not at its beginning; without the closer the
latter is enough. The block stays open after it. Every other line is a comment, or blank. -/
theorem code_within_block (h : Reachable g s) (hs : s.state = .inBlock i p) (hd : g.blockComments[i]? = some d)
    (raw : List Char) :
    (s.classify g raw = .code → d.closer.toList <:+: s.trimmed raw ∨
      d.opener.toList <:+ s.trimmed raw ∧ ¬ d.opener.toList <+: s.trimmed raw) ∧
    (¬ d.closer.toList <:+: s.trimmed raw → (s.classify g raw = .code ↔
      d.opener.toList <:+ s.trimmed raw ∧ ¬ d.opener.toList <+: s.trimmed raw)) ∧
    (s.classify g raw = .code → (s.feed g raw).state = .inBlock i p) ∧
    (s.classify g raw ≠ .code → s.classify g raw = if s.trimmed raw = [] then .blank else .comment) := by
  have hcode := h.invariant.classify_eq_code_iff hs hd raw
  have hv := h.invariant.verdict_inBlock hs raw
  have hfree : ¬ d.closer.toList <:+: s.trimmed raw → (s.classify g raw = .code ↔
      d.opener.toList <:+ s.trimmed raw ∧ ¬ d.opener.toList <+: s.trimmed raw) := by
    intro hcloser
    rw [hcode, hit_eq_code_iff_of_not_infix hcloser]
  refine ⟨fun hc => ?_, hfree, fun hc => ?_, fun hc => ?_⟩
  · by_cases hcloser : d.closer.toList <:+: s.trimmed raw
    · exact .inl hcloser
    · exact .inr ((hfree hcloser).1 hc)
  · have hl : s.trimmed raw ≠ [] := by
      intro hl
      rw [classify_eq, hv, hl] at hc
      cases hc
    rw [feed_state, hv, judge_inBlock hd hl, if_pos (hcode.1 hc)]
  · rw [classify_eq, hv]
    split
    next hl => rw [hl]; rfl
    next hl => rw [judge_inBlock hd hl, if_neg (mt hcode.2 hc)]

theorem code_within_block_c :
    let g : Grammar := { lineComments := ["//"], blockComments := [⟨"/*", "*/"⟩] }
    let s := Scanner.feedAll g {} ["/* first".toList]
    s.classify g "see src/*".toList = .code ∧ (s.feed g "*/ call(); /*".toList).state = .inBlock 0 false ∧
      s.classify g "/* /*".toList = .comment := by
  intro g s
  have h : Reachable g s := reachable_iff.2 ⟨_, rfl⟩
  have hs : s.state = .inBlock 0 false := by decide +kernel
  obtain ⟨-, htrailing, -⟩ := code_within_block h hs rfl "see src/*".toList
  obtain ⟨-, -, hreopened, -⟩ := code_within_block h hs rfl "*/ call(); /*".toList
  obtain ⟨-, -, -, hother⟩ := code_within_block h hs rfl "/* /*".toList
  exact ⟨(htrailing (by decide +kernel)).2 (by decide +kernel), hreopened (by decide +kernel),
    (hother (by decide +kernel)).trans (if_neg (by decide +kernel))⟩

/-- A comment line that ends with the opener counts as code without a closer in it. -/
theorem not_code_only_with_closer : ¬ ∀ (g : Grammar) (s : Scanner) (i : Nat) (p : Bool) (d : BlockDelimiter)
    (raw : List Char), g.hasTokens = true → Reachable g s → s.state = .inBlock i p →
      g.blockComments[i]? = some d → (s.classify g raw = .code → d.closer.toList <:+: s.trimmed raw) ∧
      (s.trimmed raw ≠ [] → s.classify g raw ≠ .code → s.classify g raw = .comment) := by
  intro hall
  let g : Grammar := { lineComments := ["//"], blockComments := [⟨"/*", "*/"⟩] }
  let s := Scanner.feedAll g {} ["/* first".toList]
  have h : Reachable g s := reachable_iff.2 ⟨_, rfl⟩
  have hcloser := (hall g s 0 false ⟨"/*", "*/"⟩ "see src/*".toList (by decide +kernel) h (by decide +kernel) rfl).1
  exact absurd (hcloser (by decide +kernel)) (by decide +kernel)

end LineCensus.Scanner
