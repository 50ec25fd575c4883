/-
How far a block of a symmetric pair reaches, where one token opens and closes and its
occurrences in a line are counted. A line with one occurrence opens the block at odd
parity; from then on the block lasts to the first line with one occurrence or two, and
lines with none, or with three and more, change nothing (`verdict_odd`).

A line that opens a block has the token in it, so parity stays even in a block only if
the opening line has three occurrences at least (`feedAll_ne_even`).
-/
import LineCensus.Proofs.OpenBlock

namespace LineCensus.Scanner

open BlockDelimiter

variable {g : Grammar} {s : Scanner} {i : Nat} {p : Bool} {d : BlockDelimiter} {raw : List Char}

/-- The line ends an open block of the symmetric pair at odd parity: its token occurs
once or twice. -/
def Closes (d : BlockDelimiter) (raw : List Char) : Prop :=
  Scan.occurrences d.opener.toList (laterForm raw) = 1 ∨ Scan.occurrences d.opener.toList (laterForm raw) = 2

instance (d : BlockDelimiter) (raw : List Char) : Decidable (Closes d raw) := inferInstanceAs (Decidable (_ ∨ _))

/-- The kind of a line within a block, code aside. -/
def innerKind (raw : List Char) : LineKind := if laterForm raw = [] then .blank else .comment

/-! ## One line -/

theorem Invariant.verdict_symmetric (h : Invariant g s) (hs : s.state = .inBlock i p)
    (hd : g.blockComments[i]? = some d) (hsym : d.opener = d.closer) (raw : List Char) :
    s.verdict g raw = ⟨if s.trimmed raw = [] then .blank else .comment,
      (ScanState.inBlock i p).afterSymmetric (Scan.occurrences d.opener.toList (s.trimmed raw)), false⟩ := by
  rw [h.verdict_inBlock hs, judge_symmetric hd (h.tokens_ne hs hd).1 hsym]

/-- The line that opens a block of a symmetric pair is a comment with the token in it. -/
theorem verdict_opens_symmetric (hd : g.blockComments[i]? = some d) (hsym : d.opener = d.closer)
    (hs : s.state = .outside) (hopens : (s.feed g raw).state = .inBlock i p) :
    0 < Scan.occurrences d.opener.toList (s.trimmed raw) ∧ s.verdict g raw = ⟨.comment,
      (ScanState.inBlock i false).afterSymmetric (Scan.occurrences d.opener.toList (s.trimmed raw)), false⟩ := by
  rw [feed_state, verdict_eq, hs] at hopens
  obtain ⟨-, d', hd', ho, hhit, hjudge⟩ := judge_opens_eq hopens
  obtain rfl : d' = d := Option.some.inj (hd'.symm.trans hd)
  constructor
  · exact Scan.occurrences_pos (token_toList_ne_nil ho) (infix_of_hit_symmetric hsym hhit)
  · rw [verdict_eq, hs, hjudge, if_neg (hit_ne_code_of_symmetric hsym _), Grammar.afterComment_symmetric hd hsym,
      openers_eq ho]

/-- Within a block at odd parity, a line ends it or changes nothing. -/
theorem verdict_odd (h : Invariant g s) (hs : s.state = .inBlock i true) (hstart : s.atStart = false)
    (hd : g.blockComments[i]? = some d) (hsym : d.opener = d.closer) (raw : List Char) :
    s.verdict g raw = ⟨innerKind raw, if Closes d raw then .outside else .inBlock i true, false⟩ := by
  rw [h.verdict_symmetric hs hd hsym, trimmed_of_not_atStart hstart, ScanState.afterSymmetric_odd]
  rfl

/-- A line that ends a block is not blank. -/
theorem innerKind_of_closes (h : Closes d raw) : innerKind raw = .comment := by
  refine if_neg fun hblank => ?_
  have hnone : Scan.occurrences d.opener.toList [] = 0 := rfl
  rw [Closes, hblank, hnone] at h
  omega

/-! ## Parity -/

/-- A line with at most two occurrences of the token leads to no block of the pair at
even parity but from one. -/
theorem feed_ne_even (h : Invariant g s) (hd : g.blockComments[i]? = some d) (hsym : d.opener = d.closer)
    (hs : s.state ≠ .inBlock i false) (hfew : Scan.occurrences d.opener.toList (s.trimmed raw) ≤ 2) :
    (s.feed g raw).state ≠ .inBlock i false := by
  intro heven
  rcases hstate : s.state with _ | ⟨j, q⟩
  · obtain ⟨hpos, hv⟩ := verdict_opens_symmetric hd hsym hstate heven
    rw [feed_state, hv, ScanState.afterSymmetric_inBlock] at heven
    split at heven
    · cases heven
    split at heven
    · cases heven
    · omega
  · rcases h.feed_stays hstate raw with hout | ⟨r, hin⟩
    · rw [hout] at heven
      cases heven
    obtain ⟨rfl, -⟩ := ScanState.inBlock.inj (hin.symm.trans heven)
    have hodd : q = true := by
      rw [hstate] at hs
      simpa using hs
    rw [feed_state, h.verdict_symmetric hstate hd hsym, hodd, ScanState.afterSymmetric_odd] at heven
    dsimp only at heven
    split at heven <;> cases heven

/-- In a run without a line of three occurrences, a block of the pair is at odd parity. -/
theorem feedAll_ne_even (h : Invariant g s) (hd : g.blockComments[i]? = some d) (hsym : d.opener = d.closer)
    (hs : s.state ≠ .inBlock i false) {raws : List (List Char)}
    (hfew : ∀ form ∈ s.forms raws, Scan.occurrences d.opener.toList form ≤ 2) :
    (s.feedAll g raws).state ≠ .inBlock i false := by
  induction raws generalizing s with
  | nil => exact hs
  | cons raw raws ih =>
    rw [forms_cons g, List.forall_mem_cons] at hfew
    exact ih (h.feed raw) (feed_ne_even h hd hsym hs hfew.1) hfew.2

/-! ## The whole block -/

theorem feedAll_odd (h : Invariant g s) (hs : s.state = .inBlock i true) (hstart : s.atStart = false)
    (hd : g.blockComments[i]? = some d) (hsym : d.opener = d.closer) {raws : List (List Char)}
    (hraws : ∀ raw ∈ raws, ¬ Closes d raw) :
    (s.feedAll g raws).state = .inBlock i true ∧ s.kinds g raws = raws.map innerKind := by
  induction raws generalizing s with
  | nil => exact ⟨hs, rfl⟩
  | cons raw raws ih =>
    have hv := verdict_odd h hs hstart hd hsym raw
    have hstate : (s.feed g raw).state = .inBlock i true := by
      rw [feed_state, hv, if_neg (hraws raw (by simp))]
    obtain ⟨hrest, hkinds⟩ := ih (h.feed raw) hstate rfl fun r hr => hraws r (by simp [hr])
    exact ⟨hrest, by rw [kinds, hkinds, classify_eq, hv]; rfl⟩

/-- **The span of a symmetric block.** A line with the token in it once that opens a
block leaves it at odd parity. Whatever lines follow, the block then lasts to the first
of them with one occurrence or two of the token: up to it no line is code, the parity
stays odd before it, and after it the scan is outside. -/
theorem symmetric_block_span (hd : g.blockComments[i]? = some d) (hsym : d.opener = d.closer)
    (hs : s.state = .outside) (hopens : (s.feed g raw).state = .inBlock i p)
    (hone : Scan.occurrences d.opener.toList (s.trimmed raw) = 1) {raws : List (List Char)}
    (hraws : ∀ line ∈ raws, ¬ Closes d line) (last : List Char) :
    let u := s.feedAll g (raw :: raws)
    s.kinds g (raw :: (raws ++ [last])) = .comment :: (raws ++ [last]).map innerKind ∧ u.state = .inBlock i true ∧
      (u.feed g last).state = (if Closes d last then .outside else .inBlock i true) ∧
      (Closes d last → u.classify g last = .comment) := by
  intro u
  have hopening := (verdict_opens_symmetric hd hsym hs hopens).2
  have hfirst : (s.feed g raw).state = .inBlock i true := by
    rw [feed_state, hopening, hone]; rfl
  have hinv := (Invariant.of_outside (g := g) hs).feed raw
  obtain ⟨hstate, hkinds⟩ := feedAll_odd hinv hfirst rfl hd hsym hraws
  have hlast : u.verdict g last = ⟨innerKind last, if Closes d last then .outside else .inBlock i true, false⟩ :=
    verdict_odd (hinv.feedAll raws) hstate (by simp [feedAll_atStart]) hd hsym last
  refine ⟨?_, hstate, by rw [feed_state, hlast], fun hcloses => ?_⟩
  · rw [kinds, kinds_append, hkinds, classify_eq, hopening, List.map_append]
    exact congrArg (fun v : Verdict => LineKind.comment :: (raws.map innerKind ++ [v.kind])) hlast
  · rw [classify_eq, hlast]
    exact innerKind_of_closes hcloses

theorem symmetric_block_span_docstring :
    let g : Grammar := { lineComments := ["#"], blockComments := [⟨"\"\"\"", "\"\"\""⟩, ⟨"'''", "'''"⟩] }
    let s := Scanner.feedAll g {} ["x = 1".toList]
    let body := ["a''' b ''' c'''".toList, [' '], "\"\"\" # '".toList]
    let u := s.feedAll g ("'''text".toList :: body)
    u.state = .inBlock 1 true ∧ (u.feed g "''' and '''".toList).state = .outside ∧
      (u.feed g "end '''".toList).state = .outside ∧
      s.kinds g ("'''text".toList :: (body ++ ["end '''".toList])) =
        [.comment, .comment, .blank, .comment, .comment] := by
  intro g s body u
  have hopens : (s.feed g "'''text".toList).state = .inBlock 1 true := by decide +kernel
  have hbody : ∀ line ∈ body, ¬ Closes ⟨"'''", "'''"⟩ line := by decide +kernel
  have hspan := symmetric_block_span rfl rfl (by decide) hopens (by decide +kernel) hbody
  obtain ⟨-, hu, htwice, -⟩ := hspan "''' and '''".toList
  obtain ⟨hkinds, -, honce, -⟩ := hspan "end '''".toList
  exact ⟨hu, htwice.trans (if_pos (by decide +kernel)), honce.trans (if_pos (by decide +kernel)),
    hkinds.trans (by decide +kernel)⟩

end LineCensus.Scanner
