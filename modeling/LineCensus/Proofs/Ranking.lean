/-
The order of files and the orders of rows of languages. All of them list by a number, the greatest
first, and where the numbers are equal by a name (`Rank.Before`). Two things with different names are
never level, so a list in which no name is repeated can be put in order in one way only. That is what
sorting does (`Rank.ascending_sort`), and the order in which the list comes makes no difference
(`Rank.sort_eq_of_perm`).
-/
import LineCensus.Summary.Collection
import LineCensus.Totals
import Mathlib.Data.String.Basic

namespace LineCensus

/-- What something is listed by. -/
structure Rank where
  number : Nat
  name : String
deriving DecidableEq

namespace Rank

variable {p q r : Rank}

/-- The greater number comes first; of equal numbers the one with the lesser name. -/
def Before (p q : Rank) : Prop := q.number < p.number ∨ p.number = q.number ∧ p.name < q.name

def compare (p q : Rank) : Ordering := (Ord.compare q.number p.number).then (Ord.compare p.name q.name)

/-- Whether one may be listed before another. -/
def notAfter (p q : Rank) : Bool := p.compare q != .gt

/-! ## The order -/

theorem Before.trans (hpq : p.Before q) (hqr : q.Before r) : p.Before r := by
  unfold Before at *
  rcases hpq with hpq | ⟨hpq, hname⟩
  · left; omega
  · rcases hqr with hqr | ⟨hqr, hname'⟩
    · left; omega
    · exact .inr ⟨hpq.trans hqr, lt_trans hname hname'⟩

theorem Before.asymm (hpq : p.Before q) : ¬ q.Before p := by
  unfold Before at *
  rintro (hqp | ⟨hqp, hname⟩)
  · omega
  · rcases hpq with hpq | ⟨-, hname'⟩
    · omega
    · exact lt_asymm hname hname'

theorem trichotomy (p q : Rank) : p.Before q ∨ p = q ∨ q.Before p := by
  obtain ⟨n, s⟩ := p
  obtain ⟨m, t⟩ := q
  simp only [Before, mk.injEq]
  rcases Nat.lt_trichotomy n m with h | rfl | h
  · exact .inr (.inr (.inl h))
  · rcases lt_trichotomy s t with h | rfl | h
    · exact .inl (.inr ⟨rfl, h⟩)
    · exact .inr (.inl ⟨rfl, rfl⟩)
    · exact .inr (.inr (.inr ⟨rfl, h⟩))
  · exact .inl (.inl h)

/-- Different names are never level. -/
theorem Before.of_not (h : ¬ q.Before p) (hne : p.name ≠ q.name) : p.Before q := by
  rcases trichotomy p q with hpq | rfl | hqp
  · exact hpq
  · exact absurd rfl hne
  · exact absurd hqp h

theorem notAfter_iff : p.notAfter q = true ↔ ¬ q.Before p := by
  unfold notAfter compare Before
  rw [bne_iff_ne, ne_eq, Ordering.then_eq_gt, compare_gt_iff_gt, compare_gt_iff_gt, compare_eq_iff_eq]

theorem notAfter_trans (hpq : p.notAfter q = true) (hqr : q.notAfter r = true) : p.notAfter r = true := by
  rw [notAfter_iff] at *
  intro hrp
  rcases trichotomy p q with h | rfl | h
  · exact hqr (hrp.trans h)
  · exact hqr hrp
  · exact hpq h

theorem notAfter_total (p q : Rank) : (p.notAfter q || q.notAfter p) = true := by
  rw [Bool.or_eq_true, notAfter_iff, notAfter_iff]
  by_cases h : q.Before p
  · exact .inr h.asymm
  · exact .inl h

/-! ## Sorting -/

variable {α : Type} {rank : α → Rank} {l l' : List α}

/-- The list in order; what is level stays as it came. -/
def sort (rank : α → Rank) (l : List α) : List α := l.mergeSort fun a b => (rank a).notAfter (rank b)

theorem perm_sort (rank : α → Rank) (l : List α) : (sort rank l).Perm l := List.mergeSort_perm l _

/-- Nothing is listed after something that it comes before. -/
def InOrder (rank : α → Rank) (l : List α) : Prop := l.Pairwise fun a b => ¬ (rank b).Before (rank a)

theorem inOrder_sort (rank : α → Rank) (l : List α) : InOrder rank (sort rank l) := by
  have hsorted : (sort rank l).Pairwise fun a b => (rank a).notAfter (rank b) = true := by
    apply List.pairwise_mergeSort
    · intro a b c hab hbc
      exact notAfter_trans hab hbc
    · intro a b
      exact notAfter_total (rank a) (rank b)
  exact hsorted.imp notAfter_iff.1

/-- Without repeated names nothing in the sorted list is level. -/
theorem ascending_sort (h : (l.map fun a => (rank a).name).Nodup) :
    (sort rank l).Pairwise fun a b => (rank a).Before (rank b) := by
  have hnames : ((sort rank l).map fun a => (rank a).name).Nodup := ((perm_sort rank l).map _).nodup_iff.2 h
  have hdistinct := List.pairwise_map.1 hnames
  exact (List.Pairwise.and (inOrder_sort rank l) hdistinct).imp fun hab => .of_not hab.1 hab.2

/-- **A list without repeated names has one order**, whichever way it comes. -/
theorem sort_eq_of_perm (h : l.Perm l') (hnames : (l.map fun a => (rank a).name).Nodup) :
    sort rank l = sort rank l' := by
  have hnames' := (h.map fun a => (rank a).name).nodup_iff.1 hnames
  have hperm : (sort rank l).Perm (sort rank l') := (perm_sort rank l).trans (h.trans (perm_sort rank l').symm)
  refine hperm.eq_of_pairwise (fun a b _ _ hab hba => ?_) (ascending_sort hnames) (ascending_sort hnames')
  exact absurd hba hab.asymm

end Rank

/-! ## Files and rows -/

/-- Files are listed by their code. -/
def Summary.rank (s : Summary) : Rank := ⟨s.code.value, s.name⟩

theorem Collection.toList_ofList (ss : List Summary) : (ofList ss).toList = Rank.sort Summary.rank ss := rfl

namespace SortKey

/-- The number that rows are listed by; names are listed alone. -/
def number : SortKey → LanguageTotals → Nat
  | .name, _ => 0
  | .files, row => row.files.value
  | .blank, row => row.blanks.value
  | .comment, row => row.comments.value
  | .code, row => row.code.value

def rank (k : SortKey) (row : LanguageTotals) : Rank := ⟨k.number row, row.language⟩

theorem sort_eq (k : SortKey) (rows : List LanguageTotals) : k.sort rows = Rank.sort k.rank rows := by
  cases k <;> rfl

end SortKey

end LineCensus
