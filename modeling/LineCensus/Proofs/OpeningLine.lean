/-
The line that opens a block. Outside, a line goes through the rules in their order: an
interpreter line, line comments, then one pair after the other. A line that comes to a pair
(`Scanner.Offered`) and is hit by it is decided by that pair alone, as it is within a block
(`Offered.verdict_eq`).

What opens a block and what ends one are told by different tests, and the line that opens it
is put to both. An opener left unclosed opens a block of an asymmetric pair, yet any closer on
the line ends it again, also one that stands in front of that opener (`unclosed_opener`). The
occurrences of a symmetric token are counted, and the count tells only one from two: from three
on, the block stays open at even parity whatever the number is (`symmetric_opening`).
-/
import LineCensus.Proofs.OpenBlock

namespace LineCensus.Scanner

open BlockDelimiter

variable {g : Grammar} {s : Scanner} {i : Nat} {d : BlockDelimiter} {raw : List Char}

/-- Outside, the line comes to the `i`-th pair: it is no interpreter line and no line comment,
and no earlier pair hits it. -/
structure Offered (g : Grammar) (s : Scanner) (raw : List Char) (i : Nat) (d : BlockDelimiter) : Prop where
  pair : g.blockComments[i]? = some d
  outside : s.state = .outside
  interpreter : s.interpreterPending = true → ¬ interpreterMark <+: s.trimmed raw
  lineComment : g.startsLineComment (s.trimmed raw) = false
  before : ∀ j < i, ∀ d', g.blockComments[j]? = some d' → d'.hit (s.trimmed raw) = .miss

/-- Past the interpreter line, a line that the first pair misses comes to the second one. -/
theorem Offered.second {d₀ : BlockDelimiter} {ds : List BlockDelimiter} (hpairs : g.blockComments = d₀ :: d :: ds)
    (hs : s.state = .outside) (hpending : s.interpreterPending = false)
    (hcomment : g.startsLineComment (s.trimmed raw) = false) (hmiss : d₀.hit (s.trimmed raw) = .miss) :
    Offered g s raw 1 d where
  pair := by rw [hpairs]; rfl
  outside := hs
  interpreter := by simp [hpending]
  lineComment := hcomment
  before := by
    intro j hj d' hd'
    obtain rfl : j = 0 := by omega
    rw [hpairs] at hd'
    cases hd'
    exact hmiss

/-- The pair decides a line that comes to it and is hit. -/
theorem Offered.verdict_eq (h : Offered g s raw i d) (hl : s.trimmed raw ≠ [])
    (hhit : d.hit (s.trimmed raw) ≠ .miss) : s.verdict g raw =
      if d.hit (s.trimmed raw) = .code then ⟨.code, .inBlock i false, false⟩
      else ⟨.comment, g.afterComment (.inBlock i false) (s.trimmed raw), false⟩ := by
  have hfirst : Grammar.firstHit (s.trimmed raw) 0 g.blockComments = some (i, d.hit (s.trimmed raw)) :=
    Grammar.firstHit_eq_some_iff.2 ⟨i, d, by omega, h.pair, rfl, hhit, h.before⟩
  have hpending : judge g .outside s.interpreterPending (s.trimmed raw) = judge g .outside false (s.trimmed raw) := by
    cases hp : s.interpreterPending with
    | false => rfl
    | true => exact judge_pending (h.interpreter hp)
  rw [Scanner.verdict_eq, h.outside, hpending, judge_outside_hit hl h.lineComment hfirst]

/-! ## An opener left unclosed -/

/-- **An opener left unclosed opens the block**, unless the line is a comment with a closer in
it: that line ends the block too. A line is code if it ends with the opener or starts with the
closer, and a comment otherwise; code leaves the block open, whatever closers there are. -/
theorem unclosed_opener (h : Offered g s raw i d) (ho : d.opener ≠ "") (hne : d.opener ≠ d.closer)
    (hframes : ¬ d.Frames (s.trimmed raw)) (hopen : d.isLeftOpen (s.trimmed raw) = true) :
    let code := d.opener.toList <:+ s.trimmed raw ∨ d.closer.toList <+: s.trimmed raw
    (code → s.classify g raw = .code ∧ (s.feed g raw).state = .inBlock i false) ∧
      (¬ code → s.classify g raw = .comment ∧ (s.feed g raw).state =
        if d.closer.toList <:+: s.trimmed raw then .outside else .inBlock i false) := by
  intro code
  have hl : s.trimmed raw ≠ [] := (infix_of_isLeftOpen ho hopen).ne_nil (token_toList_ne_nil ho)
  have hhit : d.hit (s.trimmed raw) = if code then .code else .comment := by
    rw [hit_of_not_frames ho hframes, if_pos hopen]
    simp only [hne, ne_eq, not_false_eq_true, true_and]
    rfl
  have hv := h.verdict_eq hl (by rw [hhit]; split <;> simp)
  rw [hhit] at hv
  constructor
  · intro hcode
    rw [if_pos hcode, if_pos rfl] at hv
    exact ⟨by rw [classify_eq, hv], by rw [feed_state, hv]⟩
  · intro hcode
    rw [if_neg hcode, if_neg (by simp), Grammar.afterComment_asymmetric h.pair hne] at hv
    exact ⟨by rw [classify_eq, hv], by rw [feed_state, hv]⟩

theorem unclosed_opener_second :
    let g : Grammar := { lineComments := ["//"], blockComments := [⟨"/*", "*/"⟩, ⟨"/+", "+/"⟩] }
    let s := Scanner.feedAll g {} ["int x;".toList]
    (s.feed g "f(); /+ a".toList).state = .inBlock 1 false ∧ s.classify g "f(); /+ a".toList = .comment ∧
      (s.feed g "+/ f(); /+".toList).state = .inBlock 1 false ∧ s.classify g "+/ f(); /+".toList = .code ∧
      (s.feed g "f(); /+ a +/ h(); /+ b".toList).state = .outside := by
  intro g s
  have hoffered : ∀ raw, g.startsLineComment (s.trimmed raw) = false →
      (⟨"/*", "*/"⟩ : BlockDelimiter).hit (s.trimmed raw) = .miss → Offered g s raw 1 ⟨"/+", "+/"⟩ :=
    fun raw => Offered.second rfl (by decide +kernel) (by decide +kernel)
  obtain ⟨-, hopens⟩ := unclosed_opener (hoffered "f(); /+ a".toList (by decide +kernel) (by decide +kernel))
    (by decide) (by decide) (by decide +kernel) (by decide +kernel)
  obtain ⟨hcode, -⟩ := unclosed_opener (hoffered "+/ f(); /+".toList (by decide +kernel) (by decide +kernel))
    (by decide) (by decide) (by decide +kernel) (by decide +kernel)
  obtain ⟨-, hends⟩ := unclosed_opener
    (hoffered "f(); /+ a +/ h(); /+ b".toList (by decide +kernel) (by decide +kernel))
    (by decide) (by decide) (by decide +kernel) (by decide +kernel)
  obtain ⟨hkind, hstate⟩ := hopens (by decide +kernel)
  obtain ⟨hkind', hstate'⟩ := hcode (by decide +kernel)
  exact ⟨hstate.trans (if_neg (by decide +kernel)), hkind, hstate', hkind',
    (hends (by decide +kernel)).2.trans (if_pos (by decide +kernel))⟩

/-- A closer on the line ends the block that an opener after it has opened. -/
theorem not_unclosed_opener_always : ¬ ∀ (g : Grammar) (s : Scanner) (raw : List Char) (i : Nat)
    (d : BlockDelimiter), Offered g s raw i d → d.opener ≠ "" → d.closer ≠ "" → d.opener ≠ d.closer →
      d.isLeftOpen (s.trimmed raw) = true → ¬ d.opener.toList <+: s.trimmed raw →
      ¬ d.closer.toList <:+ s.trimmed raw → ∃ p, (s.feed g raw).state = .inBlock i p := by
  intro hall
  let g : Grammar := { lineComments := ["//"], blockComments := [⟨"/*", "*/"⟩] }
  let raw := "f(); /* a */ g(); /* b".toList
  have h : Offered g {} raw 0 ⟨"/*", "*/"⟩ := ⟨rfl, rfl, fun _ => by decide +kernel, by decide +kernel, by simp⟩
  obtain ⟨p, hin⟩ := hall g {} raw 0 ⟨"/*", "*/"⟩ h (by decide) (by decide) (by decide) (by decide +kernel)
    (by decide +kernel) (by decide +kernel)
  have hout : (({} : Scanner).feed g raw).state = .outside := by decide +kernel
  rw [hout] at hin
  cases hin

/-! ## A symmetric token -/

/-- The state that the parity of a token's occurrences asks for after the line that opens a block. -/
def parityState (i occurrences : Nat) : ScanState := if occurrences % 2 = 0 then .outside else .inBlock i true

theorem parityState_iff {i k : Nat} (hk : 0 < k) :
    (if k = 2 then .outside else .inBlock i (k = 1)) = parityState i k ↔ k ≤ 2 := by
  match k with
  | 1 | 2 => simp [parityState]
  | k + 3 =>
    -- The block is open, at even parity: neither is what any parity of the occurrences asks for.
    have hother : ScanState.inBlock i false ≠ parityState i (k + 3) := by
      rw [parityState]
      split <;> simp
    simpa using hother

theorem Offered.verdict_symmetric (h : Offered g s raw i d) (hsym : d.opener = d.closer)
    (hhit : d.hit (s.trimmed raw) ≠ .miss) : 0 < Scan.occurrences d.opener.toList (s.trimmed raw) ∧
      s.verdict g raw = ⟨.comment,
        (ScanState.inBlock i false).afterSymmetric (Scan.occurrences d.opener.toList (s.trimmed raw)), false⟩ := by
  have ho : d.opener ≠ "" := fun he => hhit (hit_of_opener_eq he _)
  have htoken : d.opener.toList <:+: s.trimmed raw := infix_of_hit_symmetric hsym hhit
  refine ⟨Scan.occurrences_pos (token_toList_ne_nil ho) htoken, ?_⟩
  rw [h.verdict_eq (htoken.ne_nil (token_toList_ne_nil ho)) hhit, if_neg (hit_ne_code_of_symmetric hsym _),
    Grammar.afterComment_symmetric h.pair hsym, openers_eq ho]

/-- **The line that opens a symmetric block** is a comment with the token in it. One occurrence
leaves the block open at odd parity, two end it, and from three on it stays open at even parity.
So the parity of the occurrences tells the state up to two of them and not beyond. -/
theorem symmetric_opening (h : Offered g s raw i d) (hsym : d.opener = d.closer)
    (hhit : d.hit (s.trimmed raw) ≠ .miss) :
    let k := Scan.occurrences d.opener.toList (s.trimmed raw)
    s.classify g raw = .comment ∧ 0 < k ∧
      (s.feed g raw).state = (if k = 2 then .outside else .inBlock i (k = 1)) ∧
      ((s.feed g raw).state = parityState i k ↔ k ≤ 2) := by
  intro k
  obtain ⟨hpos, hv⟩ := h.verdict_symmetric hsym hhit
  have hstate : (s.feed g raw).state = if k = 2 then .outside else .inBlock i (k = 1) := by
    rw [feed_state, hv, ScanState.afterSymmetric_even]
  refine ⟨by rw [classify_eq, hv], hpos, hstate, ?_⟩
  rw [hstate]
  exact parityState_iff hpos

theorem symmetric_opening_docstring :
    let g : Grammar := { lineComments := ["#"], blockComments := [⟨"\"\"\"", "\"\"\""⟩, ⟨"'''", "'''"⟩] }
    let s := Scanner.feedAll g {} ["x = 1".toList]
    (s.feed g "'''text".toList).state = .inBlock 1 true ∧ (s.feed g "y = '''a''' + b".toList).state = .outside ∧
      (s.feed g "'''a''' + '''b'''".toList).state = .inBlock 1 false ∧
      s.classify g "y = '''a''' + b".toList = .comment := by
  intro g s
  have hoffered : ∀ raw, g.startsLineComment (s.trimmed raw) = false →
      (⟨"\"\"\"", "\"\"\""⟩ : BlockDelimiter).hit (s.trimmed raw) = .miss →
        Offered g s raw 1 ⟨"'''", "'''"⟩ :=
    fun raw => Offered.second rfl (by decide +kernel) (by decide +kernel)
  obtain ⟨-, -, hone, -⟩ := symmetric_opening (hoffered "'''text".toList (by decide +kernel) (by decide +kernel))
    rfl (by decide +kernel)
  obtain ⟨hkind, -, -, htwo⟩ := symmetric_opening
    (hoffered "y = '''a''' + b".toList (by decide +kernel) (by decide +kernel)) rfl (by decide +kernel)
  obtain ⟨-, -, hfour, -⟩ := symmetric_opening
    (hoffered "'''a''' + '''b'''".toList (by decide +kernel) (by decide +kernel)) rfl (by decide +kernel)
  exact ⟨hone.trans (by decide +kernel), (htwo.2 (by decide +kernel)).trans (by decide +kernel),
    hfour.trans (by decide +kernel), hkind⟩

/-- Parity fails for a number of occurrences that is even, and for one that is odd. -/
theorem not_parity_beyond_two :
    (¬ ∀ (g : Grammar) (s : Scanner) (raw : List Char) (i : Nat) (d : BlockDelimiter), Offered g s raw i d →
      d.opener = d.closer → d.opener ≠ "" → d.hit (s.trimmed raw) ≠ .miss →
      Scan.occurrences d.opener.toList (s.trimmed raw) % 2 = 0 → (s.feed g raw).state = .outside) ∧
    ¬ ∀ (g : Grammar) (s : Scanner) (raw : List Char) (i : Nat) (d : BlockDelimiter), Offered g s raw i d →
      d.opener = d.closer → d.opener ≠ "" → d.hit (s.trimmed raw) ≠ .miss →
      Scan.occurrences d.opener.toList (s.trimmed raw) % 2 = 1 → (s.feed g raw).state = .inBlock i true := by
  let g : Grammar := { lineComments := ["#"], blockComments := [⟨"'''", "'''"⟩] }
  have hoffered : ∀ raw, g.startsLineComment (({} : Scanner).trimmed raw) = false →
      ¬ interpreterMark <+: ({} : Scanner).trimmed raw → Offered g {} raw 0 ⟨"'''", "'''"⟩ :=
    fun raw hcomment hmark => ⟨rfl, rfl, fun _ => hmark, hcomment, by simp⟩
  constructor
  · intro hall
    have hout := hall g {} "'''a''' + '''b'''".toList 0 ⟨"'''", "'''"⟩
      (hoffered _ (by decide +kernel) (by decide +kernel)) rfl (by decide) (by decide +kernel) (by decide +kernel)
    exact absurd hout (by decide +kernel)
  · intro hall
    have hin := hall g {} "'''a''' + '''b".toList 0 ⟨"'''", "'''"⟩
      (hoffered _ (by decide +kernel) (by decide +kernel)) rfl (by decide) (by decide +kernel) (by decide +kernel)
    exact absurd hin (by decide +kernel)

end LineCensus.Scanner
