/-
A line as its tokens, and what is left open in it. Reading a line from the left, taking an opener where
there is one, else a closer, else one symbol, gives one list of tokens (`exists_tokenised`,
`Tokenised.unique`). The scan for depths takes them one at a time (`Tokenised.iterate_advance`); since an
opener is not empty, each takes something off the line, and so the scan comes to the end of every line.

The depth does not go below zero, and for this reason it is not the openers less the closers. Where it
is zero a new count begins: the depth at the end is positive exactly if some end of the list has more
openers than closers (`Token.lt_foldl_after_iff`).
-/
import LineCensus.Proofs.TokenScan
import Mathlib.Logic.Function.Iterate

namespace LineCensus

namespace Scan

/-- What a line is read as: tokens that open and close a block, and symbols that are part of none. -/
inductive Token (α : Type) where
  | opener
  | closer
  | symbol (x : α)
deriving DecidableEq

/-! ## Depths -/

namespace Token

variable {α : Type} {ts : List (Token α)}

def isOpener : Token α → Bool
  | opener => true
  | _ => false

def isCloser : Token α → Bool
  | closer => true
  | _ => false

/-- The depth behind a token. -/
def after (depth : Nat) : Token α → Nat
  | opener => depth + 1
  | closer => depth - 1
  | symbol _ => depth

/-- In some end of the list there are more openers than closers, by more than `n`. -/
def EndsAbove (n : Nat) (ts : List (Token α)) : Prop :=
  ∃ s, s <:+ ts ∧ n + s.countP isCloser < s.countP isOpener

theorem endsAbove_cons (n : Nat) (t : Token α) : EndsAbove n (t :: ts) ↔
    n + (t :: ts).countP isCloser < (t :: ts).countP isOpener ∨ EndsAbove n ts := by
  simp only [EndsAbove, List.suffix_cons_iff, or_and_right, exists_or, exists_eq_left]

/-- **The depth behind a list of tokens** is above `n` if it would be so without a bound below, or if
the openers in some end of the list are enough for it. -/
theorem lt_foldl_after_iff (n depth : Nat) : n < ts.foldl after depth ↔
    n + ts.countP isCloser < depth + ts.countP isOpener ∨ EndsAbove n ts := by
  induction ts generalizing depth with
  | nil => simp [EndsAbove]
  | cons t ts ih =>
    rw [List.foldl_cons, ih, endsAbove_cons]
    by_cases hends : EndsAbove n ts
    · simp only [hends, or_true]
    · have hwhole : ¬ n + ts.countP isCloser < ts.countP isOpener := fun h => hends ⟨ts, List.suffix_refl ts, h⟩
      cases t <;>
        simp only [hends, or_false, after, List.countP_cons, isOpener, isCloser, if_true, Bool.false_eq_true,
          if_false] <;>
        omega

end Token

/-! ## Reading a line -/

section
variable {α : Type} {opener closer xs : List α} {ts ts' : List (Token α)}

/-- A line read from the left: an opener where there is one, else a closer, unless that is empty, else
one symbol. -/
inductive Tokenised (opener closer : List α) : List α → List (Token α) → Prop where
  | nil : Tokenised opener closer [] []
  | opener {xs : List α} {ts : List (Token α)} :
      Tokenised opener closer xs ts → Tokenised opener closer (opener ++ xs) (.opener :: ts)
  | closer {xs : List α} {ts : List (Token α)} : closer ≠ [] → ¬ opener <+: closer ++ xs →
      Tokenised opener closer xs ts → Tokenised opener closer (closer ++ xs) (.closer :: ts)
  | symbol {x : α} {xs : List α} {ts : List (Token α)} : ¬ opener <+: x :: xs →
      closer = [] ∨ ¬ closer <+: x :: xs → Tokenised opener closer xs ts →
      Tokenised opener closer (x :: xs) (.symbol x :: ts)

theorem exists_tokenised (ho : opener ≠ []) (closer xs : List α) : ∃ ts, Tokenised opener closer xs ts := by
  -- The depth plays no part here.
  induction 0, xs using depth_induction opener closer ho with
  | nil depth => exact ⟨[], .nil⟩
  | opens depth xs ih =>
    obtain ⟨ts, hts⟩ := ih
    exact ⟨_, .opener hts⟩
  | closes depth xs hc hopen ih =>
    obtain ⟨ts, hts⟩ := ih
    exact ⟨_, .closer hc hopen hts⟩
  | other depth x xs hopen hclose ih =>
    obtain ⟨ts, hts⟩ := ih
    exact ⟨_, .symbol hopen hclose hts⟩

/-- There is only one way to read a line. -/
theorem Tokenised.unique (ho : opener ≠ []) (h : Tokenised opener closer xs ts)
    (h' : Tokenised opener closer xs ts') : ts' = ts := by
  induction h generalizing ts' with
  | nil =>
    generalize hline : [] = line at h'
    cases h' with
    | nil => rfl
    | opener => simp [ho] at hline
    | closer hc => simp [hc] at hline
    | symbol => cases hline
  | @opener xs ts _ ih =>
    generalize hline : opener ++ xs = line at h'
    cases h' with
    | nil => simp [ho] at hline
    | opener h' =>
      obtain rfl := List.append_cancel_left hline
      rw [ih h']
    | closer _ hopen => exact absurd (hline ▸ List.prefix_append opener xs) hopen
    | symbol hopen => exact absurd (hline ▸ List.prefix_append opener xs) hopen
  | @closer xs ts hc hopen _ ih =>
    generalize hline : closer ++ xs = line at h'
    cases h' with
    | nil => simp [hc] at hline
    | opener => exact absurd (hline ▸ List.prefix_append opener _) hopen
    | closer _ _ h' =>
      obtain rfl := List.append_cancel_left hline
      rw [ih h']
    | symbol _ hclose => exact absurd (hline ▸ List.prefix_append closer xs) (hclose.resolve_left hc)
  | @symbol x xs ts hopen hclose _ ih =>
    generalize hline : x :: xs = line at h'
    cases h' with
    | nil => cases hline
    | opener => exact absurd (hline ▸ List.prefix_append opener _) hopen
    | closer hc => exact absurd (hline ▸ List.prefix_append closer _) (hclose.resolve_left hc)
    | symbol _ _ h' =>
      obtain ⟨rfl, rfl⟩ := List.cons.inj hline
      rw [ih h']

/-- A line has no more tokens than symbols. -/
theorem Tokenised.length_le (ho : opener ≠ []) (h : Tokenised opener closer xs ts) : ts.length ≤ xs.length := by
  induction h with
  | nil => exact Nat.le_refl 0
  | opener _ ih =>
    have := List.length_pos_iff.2 ho
    rw [List.length_cons, List.length_append]
    omega
  | closer hc _ _ ih =>
    have := List.length_pos_iff.2 hc
    rw [List.length_cons, List.length_append]
    omega
  | symbol _ _ _ ih => exact Nat.succ_le_succ ih

/-- Without a closer the depth is the number of openers. -/
theorem Tokenised.foldl_after_eq (h : Tokenised opener [] xs ts) (depth : Nat) :
    ts.foldl Token.after depth = depth + ts.countP Token.isOpener := by
  generalize hcloser : ([] : List α) = closer at h
  induction h generalizing depth with
  | nil => rfl
  | opener _ ih =>
    rw [List.foldl_cons, ih, List.countP_cons_of_pos rfl, Token.after]
    omega
  | closer hc => exact absurd hcloser.symm hc
  | symbol _ _ _ ih => rw [List.foldl_cons, ih, List.countP_cons_of_neg (by simp [Token.isOpener]), Token.after]

/-! ## The scan -/

variable [BEq α]

/-- One round of the scan for depths, from a depth and the rest of the line. -/
def advance (opener closer : List α) : Nat × List α → Nat × List α
  | (depth, rest) =>
    if opener.isPrefixOf rest then (depth + 1, rest.drop opener.length)
    else if !closer.isEmpty && closer.isPrefixOf rest then (depth - 1, rest.drop closer.length)
    else (depth, rest.drop 1)

variable [LawfulBEq α]

theorem advance_opener (depth : Nat) (xs : List α) :
    advance opener closer (depth, opener ++ xs) = (depth + 1, xs) := by
  simp [advance]

theorem advance_closer (hc : closer ≠ []) (ho : ¬ opener <+: closer ++ xs) (depth : Nat) :
    advance opener closer (depth, closer ++ xs) = (depth - 1, xs) := by
  simp [advance, ho, hc]

theorem advance_symbol {x : α} (ho : ¬ opener <+: x :: xs) (hc : closer = [] ∨ ¬ closer <+: x :: xs)
    (depth : Nat) :
    advance opener closer (depth, x :: xs) = (depth, xs) := by
  rcases hc with rfl | hc <;> simp [advance, *]

/-- **The scan takes the tokens one at a time**, up to the end of the line. -/
theorem Tokenised.iterate_advance (h : Tokenised opener closer xs ts) (depth : Nat) :
    (advance opener closer)^[ts.length] (depth, xs) = (ts.foldl Token.after depth, []) := by
  induction h generalizing depth with
  | nil => rfl
  | opener _ ih =>
    rw [List.length_cons, Function.iterate_succ_apply, advance_opener, ih]
    rfl
  | closer hc hopen _ ih =>
    rw [List.length_cons, Function.iterate_succ_apply, advance_closer hc hopen, ih]
    rfl
  | symbol hopen hclose _ ih =>
    rw [List.length_cons, Function.iterate_succ_apply, advance_symbol hopen hclose, ih]
    rfl

theorem Tokenised.depthFrom_eq (ho : opener ≠ []) (h : Tokenised opener closer xs ts) (depth : Nat) :
    depthFrom opener closer 0 depth xs = ts.foldl Token.after depth := by
  induction h generalizing depth with
  | nil => rfl
  | opener _ ih => exact (depthFrom_opener ho depth _).trans (ih _)
  | closer hc hopen _ ih => exact (depthFrom_closer hc depth _ hopen).trans (ih _)
  | symbol hopen hclose _ ih => exact (depthFrom_other depth _ _ hopen hclose).trans (ih _)

/-- The openers counted are those taken from the left, each behind the one before. -/
theorem Tokenised.occurrences_eq (ho : opener ≠ []) (h : Tokenised opener [] xs ts) :
    occurrences opener xs = ts.countP Token.isOpener := by
  rw [occurrences, countFrom_eq_depthFrom, h.depthFrom_eq ho, h.foldl_after_eq, Nat.zero_add]

theorem leavesOpen_iff_endsAbove (ho : opener ≠ []) (hne : opener ≠ closer) (h : Tokenised opener closer xs ts) :
    leavesOpen opener closer xs = true ↔ Token.EndsAbove 0 ts := by
  have hwhole : 0 + ts.countP Token.isCloser < 0 + ts.countP Token.isOpener → Token.EndsAbove 0 ts := fun hlt =>
    ⟨ts, List.suffix_refl ts, by omega⟩
  rw [leavesOpen, if_neg (by simpa using hne), bne_iff_ne, h.depthFrom_eq ho, ← Nat.pos_iff_ne_zero,
    Token.lt_foldl_after_iff]
  exact ⟨fun h => h.elim hwhole id, .inr⟩

end

end Scan

end LineCensus
