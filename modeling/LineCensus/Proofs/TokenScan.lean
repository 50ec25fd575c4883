/-
Laws of the token scans of `Scan.Occurrence`, for any symbols.

The scans skip a recognised token by counting its symbols down. `depthFrom_drop`
takes the skip count away, and the three equations after it read a sequence token
by token: an opener, a closer, or one symbol that starts neither.
`depth_induction` is the induction that goes with them.

The count of a token is the depth scan without a closer (`countFrom_eq_depthFrom`),
so what is shown of depths holds of counts. Whether a token occurs is told by the
depth as well, and so is what a line leaves open, also where one token opens and
closes (`leavesOpen_iff_depthFrom`).
-/
import LineCensus.Scan.Occurrence

namespace LineCensus.Scan

variable {α : Type} {opener closer token : List α}

/-- Induction along a depth scan: over the rest after the token, or the symbol,
that the scan takes first. -/
theorem depth_induction {motive : Nat → List α → Prop} (opener closer : List α) (ho : opener ≠ [])
    (nil : ∀ depth, motive depth [])
    (opens : ∀ depth xs, motive (depth + 1) xs → motive depth (opener ++ xs))
    (closes : ∀ depth xs, closer ≠ [] → ¬ opener <+: closer ++ xs → motive (depth - 1) xs →
      motive depth (closer ++ xs))
    (other : ∀ depth x xs, ¬ opener <+: x :: xs → (closer = [] ∨ ¬ closer <+: x :: xs) → motive depth xs →
      motive depth (x :: xs))
    (depth : Nat) (xs : List α) : motive depth xs := by
  -- The rest is shorter whichever case applies, a token not being empty.
  induction h : xs.length using Nat.strongRecOn generalizing depth xs with
  | ind n ih =>
    subst h
    have hrest : ∀ (t ys : List α), t ≠ [] → ∀ d, xs = t ++ ys → motive d ys := by
      intro t ys ht d hxs
      refine ih ys.length ?_ d ys rfl
      have := List.length_pos_iff.2 ht
      rw [hxs, List.length_append]; omega
    by_cases hopen : opener <+: xs
    · obtain ⟨ys, rfl⟩ := hopen
      exact opens depth ys (hrest opener ys ho _ rfl)
    by_cases hclose : closer ≠ [] ∧ closer <+: xs
    · obtain ⟨hc, ys, rfl⟩ := hclose
      exact closes depth ys hc hopen (hrest closer ys hc _ rfl)
    cases xs with
    | nil => exact nil depth
    | cons x xs =>
      refine other depth x xs hopen ?_ (hrest [x] xs (by simp) depth rfl)
      by_cases hc : closer = []
      · exact .inl hc
      · exact .inr fun h => hclose ⟨hc, h⟩

variable [BEq α]

theorem depthFrom_drop (skip depth : Nat) (xs : List α) :
    depthFrom opener closer skip depth xs = depthFrom opener closer 0 depth (xs.drop skip) := by
  induction xs generalizing skip with
  | nil => cases skip <;> rfl
  | cons x xs ih =>
    cases skip with
    | zero => rfl
    | succ skip => simp only [depthFrom, List.drop_succ_cons]; exact ih skip

theorem countFrom_eq_depthFrom (skip count : Nat) (xs : List α) :
    countFrom token skip count xs = depthFrom token [] skip count xs := by
  induction xs generalizing skip count with
  | nil => cases skip <;> rfl
  | cons x xs ih =>
    cases skip with
    | zero =>
      simp only [countFrom, depthFrom, List.isEmpty_nil, Bool.not_true, Bool.false_and, Bool.false_eq_true, if_false]
      split
      · exact ih _ _
      · exact ih _ _
    | succ skip => exact ih skip count

variable [LawfulBEq α]

theorem occursIn_iff {xs : List α} : occursIn token xs = true ↔ token <:+: xs := by
  induction xs with
  | nil => simp [occursIn]
  | cons x xs ih => simp only [occursIn, Bool.or_eq_true, List.isPrefixOf_iff_prefix, ih, List.infix_cons_iff]

/-- Whether a token lies in a line is decided by the scan for it. -/
instance (priority := high) decidableOccurs (token xs : List α) : Decidable (token <:+: xs) :=
  decidable_of_iff _ occursIn_iff

/-! ## Depths, token by token -/

theorem depthFrom_opener (ho : opener ≠ []) (depth : Nat) (xs : List α) :
    depthFrom opener closer 0 depth (opener ++ xs) = depthFrom opener closer 0 (depth + 1) xs := by
  obtain ⟨x, o, rfl⟩ := List.exists_cons_of_ne_nil ho
  have h : (x :: o).isPrefixOf (x :: (o ++ xs)) = true := by simp
  rw [List.cons_append, depthFrom, if_pos h, depthFrom_drop]
  simp

theorem depthFrom_closer (hc : closer ≠ []) (depth : Nat) (xs : List α) (ho : ¬ opener <+: closer ++ xs) :
    depthFrom opener closer 0 depth (closer ++ xs) = depthFrom opener closer 0 (depth - 1) xs := by
  obtain ⟨x, c, rfl⟩ := List.exists_cons_of_ne_nil hc
  have h : ¬ opener.isPrefixOf (x :: (c ++ xs)) = true := by simpa using ho
  rw [List.cons_append, depthFrom, if_neg h, if_pos (by simp), depthFrom_drop]
  simp

theorem depthFrom_other (depth : Nat) (x : α) (xs : List α) (ho : ¬ opener <+: x :: xs)
    (hc : closer = [] ∨ ¬ closer <+: x :: xs) :
    depthFrom opener closer 0 depth (x :: xs) = depthFrom opener closer 0 depth xs := by
  have h : ¬ (!closer.isEmpty && closer.isPrefixOf (x :: xs)) = true := by
    rcases hc with rfl | hc
    · simp
    · simp [hc]
  rw [depthFrom, if_neg (by simpa using ho), if_neg h]

/-- A scan that ends deeper than it began has met an opener. -/
theorem infix_of_lt_depthFrom (ho : opener ≠ []) {depth : Nat} {xs : List α}
    (h : depth < depthFrom opener closer 0 depth xs) : opener <:+: xs := by
  induction depth, xs using depth_induction opener closer ho with
  | nil depth => exact absurd h (Nat.lt_irrefl depth)
  | opens depth xs _ => exact List.infix_append_left
  | closes depth xs hc hopen ih =>
    rw [depthFrom_closer hc depth xs hopen] at h
    exact List.infix_append_of_infix_right (ih (by omega))
  | other depth x xs hopen hclose ih =>
    rw [depthFrom_other depth x xs hopen hclose] at h
    exact List.infix_cons (ih h)

/-! ## Lines without a closer -/

/-- Without a closer in what is left, a scan only goes deeper. -/
theorem le_depthFrom (ho : opener ≠ []) {depth : Nat} {xs : List α} (hc : closer ≠ [] → ¬ closer <:+: xs) :
    depth ≤ depthFrom opener closer 0 depth xs := by
  induction depth, xs using depth_induction opener closer ho with
  | nil depth => exact Nat.le_refl depth
  | opens depth xs ih =>
    rw [depthFrom_opener ho]
    exact Nat.le_of_succ_le (ih fun hne hin => hc hne (List.infix_append_of_infix_right hin))
  | closes depth xs hne _ _ => exact absurd List.infix_append_left (hc hne)
  | other depth x xs hopen hclose ih =>
    rw [depthFrom_other depth x xs hopen hclose]
    exact ih fun hne hin => hc hne (List.infix_cons hin)

/-- The converse of `infix_of_lt_depthFrom` there: an opener is counted. -/
theorem lt_depthFrom_of_infix (ho : opener ≠ []) {depth : Nat} {xs : List α}
    (hc : closer ≠ [] → ¬ closer <:+: xs)
    (h : opener <:+: xs) : depth < depthFrom opener closer 0 depth xs := by
  induction depth, xs using depth_induction opener closer ho with
  | nil depth => exact absurd (List.infix_nil.1 h) ho
  | opens depth xs _ =>
    rw [depthFrom_opener ho]
    exact le_depthFrom ho fun hne hin => hc hne (List.infix_append_of_infix_right hin)
  | closes depth xs hne _ _ => exact absurd List.infix_append_left (hc hne)
  | other depth x xs hopen hclose ih =>
    rw [depthFrom_other depth x xs hopen hclose]
    exact ih (fun hne hin => hc hne (List.infix_cons hin)) ((List.infix_cons_iff.1 h).resolve_left hopen)

/-! ## What a line leaves open -/

/-- A token that opens and closes is never taken as a closer. -/
theorem depthFrom_self (ho : opener ≠ []) (depth : Nat) (xs : List α) :
    depthFrom opener opener 0 depth xs = depthFrom opener [] 0 depth xs := by
  induction depth, xs using depth_induction opener [] ho with
  | nil depth => rfl
  | opens depth xs ih => rw [depthFrom_opener ho, depthFrom_opener ho, ih]
  | closes depth xs hc _ _ => exact absurd rfl hc
  | other depth x xs hopen _ ih =>
    rw [depthFrom_other depth x xs hopen (.inr hopen), depthFrom_other depth x xs hopen (.inl rfl), ih]

/-- A line leaves a block open where its scan ends above zero. -/
theorem leavesOpen_iff_depthFrom (ho : opener ≠ []) {xs : List α} :
    leavesOpen opener closer xs = true ↔ 0 < depthFrom opener closer 0 0 xs := by
  by_cases hsame : opener = closer
  · subst hsame
    rw [leavesOpen, if_pos (beq_self_eq_true opener), occursIn_iff, depthFrom_self ho]
    exact ⟨fun h => lt_depthFrom_of_infix ho (fun hne => absurd rfl hne) h, infix_of_lt_depthFrom ho⟩
  · rw [leavesOpen, if_neg (by simpa using hsame), bne_iff_ne, Nat.pos_iff_ne_zero]

/-- A line that leaves a block open has an opener in it. -/
theorem infix_of_leavesOpen (ho : opener ≠ []) {xs : List α} (h : leavesOpen opener closer xs = true) :
    opener <:+: xs :=
  infix_of_lt_depthFrom ho ((leavesOpen_iff_depthFrom ho).1 h)

/-- A line with an opener and no closer leaves a block open. -/
theorem leavesOpen_of_infix (ho : opener ≠ []) {xs : List α} (hc : ¬ closer <:+: xs) (h : opener <:+: xs) :
    leavesOpen opener closer xs = true := by
  rw [leavesOpen_iff_depthFrom ho]
  exact lt_depthFrom_of_infix ho (fun _ => hc) h

/-! ## Counts -/

/-- A token that is in a line is found there. -/
theorem occurrences_pos (ht : token ≠ []) {xs : List α} (h : token <:+: xs) : 0 < occurrences token xs := by
  rw [occurrences, countFrom_eq_depthFrom]
  exact lt_depthFrom_of_infix ht (fun hne => absurd rfl hne) h

theorem occurrences_eq_zero (ht : token ≠ []) {xs : List α} (h : ¬ token <:+: xs) : occurrences token xs = 0 := by
  rw [occurrences, countFrom_eq_depthFrom]
  exact Decidable.of_not_not fun hd => h (infix_of_lt_depthFrom ht (Nat.pos_of_ne_zero hd))

/-- A token in front that is not found again is found once. -/
theorem occurrences_append_eq_one (ht : token ≠ []) {xs : List α} (h : ¬ token <:+: xs) :
    occurrences token (token ++ xs) = 1 := by
  rw [occurrences, countFrom_eq_depthFrom, depthFrom_opener ht]
  -- From here on the count stays, because the token does not occur in what follows.
  suffices ∀ count, depthFrom token [] 0 count xs = count from this 1
  intro count
  induction count, xs using depth_induction token [] ht with
  | nil count => rfl
  | opens count xs _ => exact absurd List.infix_append_left h
  | closes count xs hc _ _ => exact absurd rfl hc
  | other count x xs hopen hclose ih =>
    rw [depthFrom_other count x xs hopen hclose]
    exact ih fun hx => h (List.infix_cons hx)

end LineCensus.Scan
