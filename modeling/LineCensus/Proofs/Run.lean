/-
Runs of a scan: what it comes to after several lines, the kinds it gives them,
and the scans that some run comes to (`Scanner.Reachable`).

A step writes each field of the scan once, so the facts about one step are read
off `Scanner.feed`; the facts about runs follow by induction on the lines. The
counters are told by `count_feedAll`: each holds the number of lines of its kind,
or the limit where that is less.
-/
import LineCensus.Proofs.Verdict

namespace LineCensus.Scanner

variable {g : Grammar} {s : Scanner}

/-- The form in which the next line is compared with tokens. -/
def trimmed (s : Scanner) (raw : List Char) : List Char := (Line.ofRaw s.atStart raw).trimmed

/-- That form of a line that is not the first of its text. -/
def laterForm (raw : List Char) : List Char := (Line.ofRaw false raw).trimmed

/-- Those forms of the lines of a run, in order. -/
def forms (s : Scanner) : List (List Char) → List (List Char)
  | [] => []
  | raw :: raws => s.trimmed raw :: raws.map laterForm

/-- The kinds of the lines of a run, in order. -/
def kinds (g : Grammar) : Scanner → List (List Char) → List LineKind
  | _, [] => []
  | s, raw :: raws => s.classify g raw :: kinds g (s.feed g raw) raws

/-- The scans that a run passes through, one after each of its lines. -/
def scans (g : Grammar) : Scanner → List (List Char) → List Scanner
  | _, [] => []
  | s, raw :: raws => s.feed g raw :: scans g (s.feed g raw) raws

/-- The states that a run passes through, one after each of its lines. -/
def states (g : Grammar) (s : Scanner) (raws : List (List Char)) : List ScanState := (s.scans g raws).map Scanner.state

/-! ## One step -/

theorem trimmed_of_not_atStart (hs : s.atStart = false) (raw : List Char) : s.trimmed raw = laterForm raw := by
  rw [trimmed, hs, laterForm]

theorem verdict_eq (g : Grammar) (s : Scanner) (raw : List Char) :
    s.verdict g raw = judge g s.state s.interpreterPending (s.trimmed raw) := rfl

theorem classify_eq (g : Grammar) (s : Scanner) (raw : List Char) : s.classify g raw = (s.verdict g raw).kind := rfl

@[simp] theorem feed_state (g : Grammar) (s : Scanner) (raw : List Char) :
    (s.feed g raw).state = (s.verdict g raw).state := rfl

@[simp] theorem feed_atStart (g : Grammar) (s : Scanner) (raw : List Char) : (s.feed g raw).atStart = false := rfl

@[simp] theorem feed_interpreterPending (g : Grammar) (s : Scanner) (raw : List Char) :
    (s.feed g raw).interpreterPending = (s.interpreterPending && s.classify g raw == .blank) := rfl

/-- Once a line with text has been read, no interpreter line comes. -/
theorem feed_interpreterPending_of_not (h : s.interpreterPending = false) (raw : List Char) :
    (s.feed g raw).interpreterPending = false := by simp [h]

theorem count_feed (g : Grammar) (s : Scanner) (raw : List Char) (k : LineKind) : (s.feed g raw).tally.count k =
    if s.classify g raw = k then (s.tally.count k).increment else s.tally.count k := by
  -- Indentation is kept apart from the counters.
  have htally : (s.feed g raw).tally.count k = (s.tally.record (s.classify g raw)).count k := by
    simp only [feed, Scanner.classify, verdict]
    split
    · exact Tally.count_addIndent _ _ k
    · rfl
  rw [htally, Tally.count_record]

/-! ## Runs -/

@[simp] theorem feedAll_nil (g : Grammar) (s : Scanner) : s.feedAll g [] = s := rfl

@[simp] theorem feedAll_cons (g : Grammar) (s : Scanner) (raw : List Char) (raws : List (List Char)) :
    s.feedAll g (raw :: raws) = (s.feed g raw).feedAll g raws := rfl

@[simp] theorem feedAll_append (g : Grammar) (s : Scanner) (raws raws' : List (List Char)) :
    s.feedAll g (raws ++ raws') = (s.feedAll g raws).feedAll g raws' := by
  simp only [feedAll, List.foldl_append]

/-- Only a scan that has read nothing is at the start. -/
theorem feedAll_atStart (g : Grammar) (s : Scanner) (raws : List (List Char)) :
    (s.feedAll g raws).atStart = (s.atStart && raws.isEmpty) := by
  induction raws generalizing s with
  | nil => simp
  | cons raw raws ih => rw [feedAll_cons, ih, feed_atStart]; simp

theorem forms_cons (g : Grammar) (s : Scanner) (raw : List Char) (raws : List (List Char)) :
    s.forms (raw :: raws) = s.trimmed raw :: (s.feed g raw).forms raws := by
  cases raws <;> rfl

@[simp] theorem length_kinds (g : Grammar) (s : Scanner) (raws : List (List Char)) :
    (s.kinds g raws).length = raws.length := by
  induction raws generalizing s with
  | nil => rfl
  | cons raw raws ih => simp only [kinds, List.length_cons, ih]

theorem states_cons (g : Grammar) (s : Scanner) (raw : List Char) (raws : List (List Char)) :
    s.states g (raw :: raws) = (s.feed g raw).state :: (s.feed g raw).states g raws := rfl

theorem kinds_append (g : Grammar) (s : Scanner) (raws raws' : List (List Char)) :
    s.kinds g (raws ++ raws') = s.kinds g raws ++ (s.feedAll g raws).kinds g raws' := by
  induction raws generalizing s with
  | nil => rfl
  | cons raw raws ih => simp only [List.cons_append, kinds, feedAll_cons, ih]

/-- **A run is decided by the forms of its lines.** Two runs from the same state that have
them in common have their kinds and their states in common. -/
theorem run_eq_of_forms {s t : Scanner} (hstate : s.state = t.state)
    (hpending : s.interpreterPending = t.interpreterPending) {raws raws' : List (List Char)}
    (hforms : s.forms raws = t.forms raws') :
    s.kinds g raws = t.kinds g raws' ∧ s.states g raws = t.states g raws' ∧
      (s.feedAll g raws).state = (t.feedAll g raws').state := by
  induction raws generalizing s t raws' with
  | nil =>
    cases raws' with
    | nil => exact ⟨rfl, rfl, hstate⟩
    | cons raw' raws' => cases hforms
  | cons raw raws ih =>
    cases raws' with
    | nil => cases hforms
    | cons raw' raws' =>
      rw [forms_cons g, forms_cons g, List.cons.injEq] at hforms
      obtain ⟨hform, hforms⟩ := hforms
      have hv : s.verdict g raw = t.verdict g raw' := by rw [verdict_eq, verdict_eq, hstate, hpending, hform]
      have hkind : s.classify g raw = t.classify g raw' := congrArg Verdict.kind hv
      have hnext : (s.feed g raw).state = (t.feed g raw').state := congrArg Verdict.state hv
      have hpending' : (s.feed g raw).interpreterPending = (t.feed g raw').interpreterPending := by
        rw [feed_interpreterPending, feed_interpreterPending, hpending, hkind]
      obtain ⟨hkinds, hstates, hlast⟩ := ih hnext hpending' hforms
      exact ⟨by rw [kinds, kinds, hkind, hkinds], by rw [states_cons, states_cons, hnext, hstates], hlast⟩

/-- **Each counter holds the number of lines of its kind**, added to what it held
before, as far as counters go. -/
theorem count_feedAll (g : Grammar) (s : Scanner) (raws : List (List Char)) (k : LineKind) :
    ((s.feedAll g raws).tally.count k).value =
      min ((s.tally.count k).value + (s.kinds g raws).count k) Count.limit := by
  induction raws generalizing s with
  | nil =>
    have := (s.tally.count k).value_le_limit
    simp only [feedAll_nil, kinds, List.count_nil]; omega
  | cons raw raws ih =>
    rw [feedAll_cons, ih, count_feed, kinds]
    by_cases hk : s.classify g raw = k
    · rw [if_pos hk, hk, List.count_cons_self, Count.value_increment]; omega
    · rw [if_neg hk, List.count_cons_of_ne hk]

theorem count_feedAll_start (g : Grammar) (raws : List (List Char)) (k : LineKind) :
    ((Scanner.feedAll g {} raws).tally.count k).value = min ((Scanner.kinds g {} raws).count k) Count.limit := by
  have hzero : (({} : Scanner).tally.count k).value = 0 := by cases k <;> rfl
  rw [count_feedAll, hzero, Nat.zero_add]

/-- Where the kinds agree, so do the counters. -/
theorem count_feedAll_congr {raws raws' : List (List Char)}
    (h : Scanner.kinds g {} raws = Scanner.kinds g {} raws') (k : LineKind) :
    (Scanner.feedAll g {} raws).tally.count k = (Scanner.feedAll g {} raws').tally.count k :=
  Count.eq_of_value_eq (by rw [count_feedAll_start, count_feedAll_start, h])

theorem count_kinds (ks : List LineKind) :
    ks.count .code + ks.count .comment + ks.count .blank = ks.length := by
  induction ks with
  | nil => rfl
  | cons k ks ih => cases k <;> simp <;> omega

/-- An interpreter line is possible as long as every line read was blank. -/
theorem interpreterPending_feedAll_iff (g : Grammar) (s : Scanner) (raws : List (List Char)) :
    (s.feedAll g raws).interpreterPending = true ↔
      s.interpreterPending = true ∧ ∀ k ∈ s.kinds g raws, k = .blank := by
  induction raws generalizing s with
  | nil => simp [kinds]
  | cons raw raws ih =>
    rw [feedAll_cons, ih]
    simp only [feed_interpreterPending, Bool.and_eq_true, beq_iff_eq, kinds, List.mem_cons, forall_eq_or_imp]
    exact and_assoc

/-! ## Reachable scans -/

/-- What a scan can come to: it starts empty, and reads any line next. -/
inductive Reachable (g : Grammar) : Scanner → Prop
  | start : Reachable g {}
  | feed {s : Scanner} (h : Reachable g s) (raw : List Char) : Reachable g (s.feed g raw)

theorem Reachable.feedAll (h : Reachable g s) (raws : List (List Char)) : Reachable g (s.feedAll g raws) := by
  induction raws generalizing s with
  | nil => exact h
  | cons raw raws ih => exact ih (h.feed raw)

/-- Once a line with text has been read, a line has been read. -/
theorem Reachable.atStart (h : Reachable g s) (hpending : s.interpreterPending = false) : s.atStart = false := by
  cases h with
  | start => cases hpending
  | feed _ raw => rfl

theorem reachable_iff : Reachable g s ↔ ∃ raws, s = Scanner.feedAll g {} raws := by
  constructor
  · intro h
    induction h with
    | start => exact ⟨[], rfl⟩
    | feed _ raw ih =>
      obtain ⟨raws, rfl⟩ := ih
      exact ⟨raws ++ [raw], by simp⟩
  · rintro ⟨raws, rfl⟩
    exact Reachable.start.feedAll raws

end LineCensus.Scanner
