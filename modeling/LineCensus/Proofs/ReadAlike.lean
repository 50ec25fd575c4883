/-
Two scans that read the same lines alike. They may differ in what they have read before,
as long as that makes no difference to a line to come: a byte order mark goes off the next
line in both or in neither, and an interpreter line is possible in both or comes in
neither (`ReadAlike`). One line on, they are still alike, so they agree over the whole run
in kinds, indentation and state (`ReadAlike.run_eq`).
-/
import LineCensus.Proofs.Indentation

namespace LineCensus.Scanner

variable {g : Grammar} {s t : Scanner} {raw : List Char} {raws : List (List Char)}

/-- The first form that is not blank. -/
def firstText (forms : List (List Char)) : Option (List Char) := forms.find? (!·.isEmpty)

theorem firstText_cons_nil (forms : List (List Char)) : firstText ([] :: forms) = firstText forms := rfl

theorem firstText_cons {form : List Char} (h : form ≠ []) (forms : List (List Char)) :
    firstText (form :: forms) = some form := by
  obtain ⟨c, cs, rfl⟩ := List.exists_cons_of_ne_nil h
  rfl

/-- Two scans that will decide these lines alike. -/
structure ReadAlike (s t : Scanner) (raws : List (List Char)) : Prop where
  state : s.state = t.state
  /-- A byte order mark goes off the next line in both scans or in neither, if it has one. -/
  line : ∀ raw ∈ raws.head?, Line.ofRaw s.atStart raw = Line.ofRaw t.atStart raw
  /-- An interpreter line is possible in both scans or in neither, or none comes. -/
  pending : s.interpreterPending = t.interpreterPending ∨
    ∀ form ∈ firstText (t.forms raws), ¬ interpreterMark <+: form

namespace ReadAlike

theorem trimmed_eq (h : ReadAlike s t (raw :: raws)) : s.trimmed raw = t.trimmed raw := by
  rw [trimmed, trimmed, h.line raw rfl]

theorem verdict_eq (h : ReadAlike s t (raw :: raws)) : s.verdict g raw = t.verdict g raw := by
  rw [Scanner.verdict_eq, Scanner.verdict_eq, h.state, h.trimmed_eq]
  rcases h.pending with hpending | hfirst
  · rw [hpending]
  by_cases hl : t.trimmed raw = []
  · rw [hl, judge_nil, judge_nil]
  · have hmark : ¬ interpreterMark <+: t.trimmed raw := hfirst _ (firstText_cons hl _)
    exact (judge_pending hmark).trans (judge_pending hmark).symm

theorem measure_eq (h : ReadAlike s t (raw :: raws)) : s.measure g raw = t.measure g raw := by
  rw [measure, measure, h.verdict_eq, h.line raw rfl]

/-- One line on, the scans are still alike. -/
theorem feed (h : ReadAlike s t (raw :: raws)) : ReadAlike (s.feed g raw) (t.feed g raw) raws where
  state := by rw [feed_state, feed_state, h.verdict_eq]
  line := fun _ _ => rfl
  pending := by
    have hkind : s.classify g raw = t.classify g raw := congrArg Verdict.kind h.verdict_eq
    rw [feed_interpreterPending, feed_interpreterPending, hkind]
    rcases h.pending with hpending | hfirst
    · exact .inl (by rw [hpending])
    by_cases hl : t.trimmed raw = []
    · right
      rwa [forms_cons g, hl, firstText_cons_nil] at hfirst
    · -- The line settles the question in both scans.
      have htext : t.classify g raw ≠ .blank := fun hblank => hl (kind_judge_eq_blank_iff.1 hblank)
      left
      rw [beq_eq_false_iff_ne.2 htext, Bool.and_false, Bool.and_false]

/-- **Scans that read lines alike agree over the whole run.** -/
theorem run_eq (h : ReadAlike s t raws) : (s.feedAll g raws).state = (t.feedAll g raws).state ∧
    s.kinds g raws = t.kinds g raws ∧ s.indentation g raws = t.indentation g raws := by
  induction raws generalizing s t with
  | nil => exact ⟨h.state, rfl, rfl⟩
  | cons raw raws ih =>
    obtain ⟨hstate, hkinds, hindent⟩ := ih (h.feed (g := g))
    have hkind : s.classify g raw = t.classify g raw := congrArg Verdict.kind h.verdict_eq
    exact ⟨hstate, by rw [kinds, kinds, hkind, hkinds], by rw [indentation, indentation, h.measure_eq, hindent]⟩

end ReadAlike

end LineCensus.Scanner
