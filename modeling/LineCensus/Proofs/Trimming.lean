/-
What is left of a token in the trimmed form of a line. Tabs become spaces and
white space goes from both ends, so a token without white space in it (`IsWord`)
is found in the trimmed form only if it was in the line (`infix_of_trimmed`), and
a line that starts with one keeps it in front (`trim_append`).
-/
import LineCensus.Proofs.Run

namespace LineCensus

section
variable {α : Type} {t s r : List α} {c : α}

theorem prefix_of_prefix_append_cons (hc : c ∉ t) (h : t <+: s ++ c :: r) : t <+: s := by
  rcases List.prefix_or_prefix_of_prefix h (List.prefix_append s (c :: r)) with h' | ⟨u, rfl⟩
  · exact h'
  · rw [List.prefix_append_right_inj] at h
    rcases List.prefix_cons_iff.1 h with rfl | ⟨v, rfl, -⟩
    · simp
    · simp at hc

theorem infix_of_infix_append_cons (hc : c ∉ t) (h : t <:+: s ++ c :: r) : t <:+: s ∨ t <:+: r := by
  induction s with
  | nil =>
    rcases List.infix_cons_iff.1 h with h | h
    · exact .inl (prefix_of_prefix_append_cons (s := []) hc h).isInfix
    · exact .inr h
  | cons x s ih =>
    rcases List.infix_cons_iff.1 h with h | h
    · exact .inl (prefix_of_prefix_append_cons (s := x :: s) hc h).isInfix
    · exact (ih h).imp_left List.infix_cons

theorem infix_of_infix_cons (hc : c ∉ t) (h : t <:+: c :: r) : t <:+: r := by
  rcases infix_of_infix_append_cons (s := []) hc h with h | h
  · rw [List.infix_nil.1 h]; exact List.nil_infix
  · exact h
end

namespace Text

/-- A text with something in it and no white space. -/
def IsWord (t : List Char) : Prop := t ≠ [] ∧ ∀ c ∈ t, isBlank c = false

instance (t : List Char) : Decidable (IsWord t) :=
  decidable_of_iff (t ≠ [] ∧ t.all (fun c => !isBlank c) = true) (by simp [IsWord])

variable {t : List Char}

theorem IsWord.not_mem (ht : IsWord t) {c : Char} (hc : isBlank c = true) : c ∉ t := by
  intro hmem
  have := ht.2 c hmem
  rw [hc] at this
  cases this

theorem IsWord.not_infix_nil (ht : IsWord t) : ¬ t <:+: [] := fun h => ht.1 (List.infix_nil.1 h)

/-! ## Trimming -/

theorem trimEnd_isPrefix (cs : List Char) : trimEnd cs <+: cs := by
  have h := (List.dropWhile_suffix isBlank (l := cs.reverse)).reverse
  rwa [List.reverse_reverse] at h

theorem trim_isInfix (cs : List Char) : trim cs <:+: cs :=
  (trimEnd_isPrefix _).isInfix.trans (List.dropWhile_suffix _).isInfix

theorem trimStart_append (ht : IsWord t) (r : List Char) : trimStart (t ++ r) = t ++ r := by
  obtain ⟨c, cs, rfl⟩ := List.exists_cons_of_ne_nil ht.1
  have hc := ht.2 c (by simp)
  simp [trimStart, hc]

theorem trimEnd_append (ht : IsWord t) (r : List Char) : trimEnd (t ++ r) = t ++ trimEnd r := by
  -- Nothing is dropped from the reversed word, whatever is dropped in front of it.
  have hrev : t.reverse.dropWhile isBlank = t.reverse := by
    cases hr : t.reverse with
    | nil => rfl
    | cons c cs =>
      have hc := ht.2 c (List.mem_reverse.1 (by simp [hr]))
      simp [hc]
  simp only [trimEnd, List.reverse_append, List.dropWhile_append, hrev]
  split
  next he => simp [List.isEmpty_iff.1 he]
  next => simp

/-- A word in front stays in front. -/
theorem trim_append (ht : IsWord t) (r : List Char) : trim (t ++ r) = t ++ trimEnd r := by
  rw [trim, trimStart_append ht, trimEnd_append ht]

end Text

namespace Line

open Text

variable {t : List Char}

@[simp] theorem expandTabs_append (cs ds : List Char) : expandTabs (cs ++ ds) = expandTabs cs ++ expandTabs ds := by
  simp only [expandTabs, List.flatMap_append]

@[simp] theorem expandTabs_tab (cs : List Char) :
    expandTabs ('\t' :: cs) = ' ' :: ' ' :: ' ' :: ' ' :: expandTabs cs := rfl

theorem expandTabs_cons {c : Char} (hc : c ≠ '\t') (cs : List Char) : expandTabs (c :: cs) = c :: expandTabs cs := by
  simp [expandTabs, hc]

theorem expandTabs_of_not_mem {cs : List Char} (h : '\t' ∉ cs) : expandTabs cs = cs := by
  induction cs with
  | nil => rfl
  | cons c cs ih =>
    simp only [List.mem_cons, not_or] at h
    rw [expandTabs_cons (Ne.symm h.1), ih h.2]

theorem prefix_of_expandTabs {cs : List Char} (ht : ' ' ∉ t) (h : t <+: expandTabs cs) : t <+: cs := by
  induction cs generalizing t with
  | nil => exact h
  | cons c cs ih =>
    by_cases hc : c = '\t'
    · rw [hc, expandTabs_tab] at h
      exact (prefix_of_prefix_append_cons (s := []) ht h).trans List.nil_prefix
    · rw [expandTabs_cons hc] at h
      rcases List.prefix_cons_iff.1 h with rfl | ⟨u, rfl, hu⟩
      · exact List.nil_prefix
      · exact List.cons_prefix_cons.2 ⟨rfl, ih (fun hm => ht (by simp [hm])) hu⟩

theorem infix_of_expandTabs {cs : List Char} (ht : ' ' ∉ t) (h : t <:+: expandTabs cs) : t <:+: cs := by
  induction cs with
  | nil => exact h
  | cons c cs ih =>
    by_cases hc : c = '\t'
    · rw [hc, expandTabs_tab] at h
      have h' := infix_of_infix_cons ht (infix_of_infix_cons ht (infix_of_infix_cons ht (infix_of_infix_cons ht h)))
      exact List.infix_cons (ih h')
    · rw [expandTabs_cons hc] at h
      rcases List.infix_cons_iff.1 h with h | h
      · rw [← expandTabs_cons hc] at h
        exact (prefix_of_expandTabs ht h).isInfix
      · exact List.infix_cons (ih h)

theorem dropMark_suffix : ∀ raw : List Char, dropMark raw <:+ raw
  | [] => List.suffix_rfl
  | c :: cs => by
    simp only [dropMark]
    split
    · exact List.suffix_cons c cs
    · exact List.suffix_rfl

end Line

namespace Scanner

open Text

variable {s : Scanner} {t : List Char}

/-- A word in a line's trimmed form was in the line. -/
theorem infix_of_trimmed (ht : IsWord t) {raw : List Char} (h : t <:+: s.trimmed raw) : t <:+: raw := by
  have hspace : ' ' ∉ t := ht.not_mem (by decide)
  have h' := Line.infix_of_expandTabs hspace (h.trans (trim_isInfix _))
  split at h'
  · exact h'.trans (Line.dropMark_suffix raw).isInfix
  · exact h'

/-- A line that starts with a word: its trimmed form, once a first line has been read. -/
theorem trimmed_append (hs : s.atStart = false) (ht : IsWord t) (r : List Char) :
    s.trimmed (t ++ r) = t ++ trimEnd (Line.expandTabs r) := by
  have htab : '\t' ∉ t := ht.not_mem (by decide)
  simp only [trimmed, Line.trimmed, Line.ofRaw, hs, Bool.false_eq_true, if_false, Line.expandTabs_append,
    Line.expandTabs_of_not_mem htab]
  exact trim_append ht _

end Scanner

end LineCensus
