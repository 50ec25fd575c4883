/-
The ways to add summaries to a collection agree. A list in order is determined by what it holds of each
rank, in which order (`Rank.InOrder.eq_of_level`), and sorting changes neither (`Rank.level_sort`); so a
list is in order and sorted alike however it was put together. Bisection relies on the order of what is
there: it finds the cut between what does not come after a summary and what does (`partitionPoint_eq`),
and a summary put there stands where sorting would put the last one to come (`Rank.sort_concat`). By
induction on the additions, a collection is that of all summaries that came, sorted once
(`Collection.Gathered.toList_eq`).
-/
import LineCensus.Proofs.Ranking
import Mathlib.Data.List.Permutation

namespace LineCensus

/-! ## Levels -/

namespace Rank

variable {α : Type} {rank : α → Rank} {l l' : List α} {a : α} {r : Rank}

/-- What has a rank, in the order of the list. -/
def level (rank : α → Rank) (r : Rank) (l : List α) : List α := l.filter fun a => rank a = r

theorem mem_level_iff : a ∈ level rank r l ↔ a ∈ l ∧ rank a = r := by simp [level]

theorem level_append (rank : α → Rank) (r : Rank) (l l' : List α) :
    level rank r (l ++ l') = level rank r l ++ level rank r l' := List.filter_append ..

theorem level_level (rank : α → Rank) (r : Rank) (l : List α) : level rank r (level rank r l) = level rank r l := by
  simp [level]

theorem mem_of_level_eq (h : ∀ r, level rank r l = level rank r l') (ha : a ∈ l) : a ∈ l' := by
  have hlevel : a ∈ level rank (rank a) l := mem_level_iff.2 ⟨ha, rfl⟩
  rw [h] at hlevel
  exact (mem_level_iff.1 hlevel).1

theorem not_before_self (r : Rank) : ¬ r.Before r := fun h => h.asymm h

theorem InOrder.not_before (h : InOrder rank (a :: l)) {b : α} (hb : b ∈ a :: l) : ¬ (rank b).Before (rank a) := by
  rcases List.mem_cons.1 hb with rfl | hb
  · exact not_before_self _
  · exact (List.pairwise_cons.1 h).1 b hb

/-- **Lists in order that hold the same of each rank are the same.** -/
theorem InOrder.eq_of_level (h : InOrder rank l) (h' : InOrder rank l')
    (hlevel : ∀ r, level rank r l = level rank r l') : l = l' := by
  induction l generalizing l' with
  | nil =>
    refine (List.eq_nil_iff_forall_not_mem.2 fun a ha => ?_).symm
    exact List.not_mem_nil (mem_of_level_eq (fun r => (hlevel r).symm) ha)
  | cons a l ih =>
    cases l' with
    | nil => exact absurd (mem_of_level_eq hlevel List.mem_cons_self) List.not_mem_nil
    | cons b l' =>
      have hba := h.not_before (mem_of_level_eq (fun r => (hlevel r).symm) List.mem_cons_self)
      have hab := h'.not_before (mem_of_level_eq hlevel List.mem_cons_self)
      have hrank : rank a = rank b := by
        rcases trichotomy (rank a) (rank b) with hlt | heq | hgt
        · exact absurd hlt hab
        · exact heq
        · exact absurd hgt hba
      -- Each head is the first of its level, and the two levels are one.
      have hhead := hlevel (rank a)
      simp only [level, List.filter_cons, hrank, decide_true, if_true, List.cons.injEq] at hhead
      obtain ⟨rfl, -⟩ := hhead
      refine congrArg (a :: ·) (ih (List.pairwise_cons.1 h).2 (List.pairwise_cons.1 h').2 fun r => ?_)
      have htail := hlevel r
      simp only [level, List.filter_cons] at htail
      split at htail
      · exact (List.cons.inj htail).2
      · exact htail

/-- What is level stays as it came. -/
theorem level_sort (rank : α → Rank) (r : Rank) (l : List α) : level rank r (sort rank l) = level rank r l := by
  have hsorted : (level rank r l).Pairwise fun a b => (rank a).notAfter (rank b) = true := by
    apply List.pairwise_of_forall_mem_list
    intro a ha b hb
    rw [notAfter_iff, (mem_level_iff.1 ha).2, (mem_level_iff.1 hb).2]
    exact not_before_self r
  have hsublist : (level rank r l).Sublist (sort rank l) := by
    apply List.sublist_mergeSort _ _ hsorted List.filter_sublist
    · intro a b c hab hbc
      exact notAfter_trans hab hbc
    · intro a b
      exact notAfter_total (rank a) (rank b)
  have hlevel : (level rank r l).Sublist (level rank r (sort rank l)) := level_level rank r l ▸ hsublist.filter _
  exact (hlevel.eq_of_length ((perm_sort rank l).filter _).length_eq.symm).symm

theorem sort_eq_of_level (h : InOrder rank l) (hlevel : ∀ r, level rank r l = level rank r l') :
    sort rank l' = l := by
  refine InOrder.eq_of_level (inOrder_sort rank l') h fun r => ?_
  rw [level_sort, hlevel]

/-- What is sorted may be sorted again, with more behind it. -/
theorem sort_sort_append (rank : α → Rank) (l l' : List α) :
    sort rank (sort rank l ++ l') = sort rank (l ++ l') := by
  refine sort_eq_of_level (inOrder_sort rank _) fun r => ?_
  rw [level_sort, level_append, level_append, level_sort]

/-! ## One more -/

/-- A list in order can be cut between what does not come after a rank and what does. -/
theorem InOrder.exists_cut (h : InOrder rank l) (r : Rank) : ∃ before after, l = before ++ after ∧
    (∀ a ∈ before, ¬ r.Before (rank a)) ∧ ∀ a ∈ after, r.Before (rank a) := by
  induction l with
  | nil => exact ⟨[], [], rfl, nofun, nofun⟩
  | cons a l ih =>
    obtain ⟨ha, hl⟩ := List.pairwise_cons.1 h
    by_cases hr : r.Before (rank a)
    · refine ⟨[], a :: l, rfl, nofun, List.forall_mem_cons.2 ⟨hr, fun b hb => ?_⟩⟩
      rcases trichotomy (rank a) (rank b) with hlt | heq | hgt
      · exact hr.trans hlt
      · exact heq ▸ hr
      · exact absurd hgt (ha b hb)
    · obtain ⟨before, after, rfl, hbefore, hafter⟩ := ih hl
      exact ⟨a :: before, after, rfl, List.forall_mem_cons.2 ⟨hr, hbefore⟩, hafter⟩

/-- The last one to come stands behind all that does not come after it. -/
theorem sort_concat {before after : List α} (h : InOrder rank (before ++ after))
    (hbefore : ∀ b ∈ before, ¬ (rank a).Before (rank b)) (hafter : ∀ b ∈ after, (rank a).Before (rank b)) :
    sort rank (before ++ after ++ [a]) = before ++ [a] ++ after := by
  obtain ⟨hb, ha, hba⟩ := List.pairwise_append.1 h
  apply sort_eq_of_level
  · rw [List.append_assoc]
    refine List.pairwise_append.2
      ⟨hb, List.pairwise_cons.2 ⟨fun c hc => (hafter c hc).asymm, ha⟩, fun b hmem => ?_⟩
    exact List.forall_mem_cons.2 ⟨hbefore b hmem, hba b hmem⟩
  · intro r
    simp only [level_append, List.append_assoc, List.append_cancel_left_eq]
    by_cases hr : rank a = r
    · have hnone : level rank r after = [] := by
        refine List.eq_nil_iff_forall_not_mem.2 fun b hmem => ?_
        obtain ⟨hmem, hrank⟩ := mem_level_iff.1 hmem
        have hlt := hafter b hmem
        rw [hrank, hr] at hlt
        exact not_before_self r hlt
      rw [hnone, List.append_nil, List.nil_append]
    · have hnone : level rank r [a] = [] := by simp [level, hr]
      rw [hnone, List.append_nil, List.nil_append]

end Rank

/-! ## Collections -/

theorem Summary.notAfter_iff {a b : Summary} : a.notAfter b = true ↔ ¬ b.rank.Before a.rank :=
  Rank.notAfter_iff (p := a.rank) (q := b.rank)

theorem Summary.rank_eq_iff {s : Summary} {code : Count} {name : String} :
    s.rank = ⟨code.value, name⟩ ↔ s.code = code ∧ s.name = name := by
  rw [rank, Rank.mk.injEq]
  exact and_congr_left fun _ => ⟨Count.eq_of_value_eq, congrArg Count.value⟩

namespace Collection

variable {c : Collection} {ss : List Summary}

theorem ext {c c' : Collection} (h : c.toList = c'.toList) : c = c' := by
  obtain ⟨xs⟩ := c
  obtain ⟨ys⟩ := c'
  exact congrArg mk (Array.toList_inj.1 h)

theorem toList_extend (c : Collection) (ss : List Summary) :
    (c.extend ss).toList = Rank.sort Summary.rank (c.toList ++ ss) := toList_ofList _

/-- In a collection in order, bisection finds the place of a summary. -/
theorem toList_insert (h : Rank.InOrder Summary.rank c.toList) (s : Summary) :
    (c.insert s).toList = Rank.sort Summary.rank (c.toList ++ [s]) := by
  obtain ⟨before, after, hc, hbefore, hafter⟩ := h.exists_cut s.rank
  have hlist : c.summaries.toList = before ++ after := hc
  have hsize : c.summaries.size = before.length + after.length := by
    rw [← Array.length_toList, hlist, List.length_append]
  have hplace : partitionPoint c.summaries (·.notAfter s) 0 c.summaries.size = before.length := by
    refine partitionPoint_eq hlist (fun b hb => ?_) (fun b hb => ?_) (Nat.zero_le _) (by omega) le_rfl
    · exact Summary.notAfter_iff.2 (hbefore b hb)
    · rw [Bool.eq_false_iff, ne_eq, Summary.notAfter_iff, not_not]
      exact hafter b hb
  rw [hc] at h ⊢
  rw [Rank.sort_concat h hbefore hafter, insert, hplace, toList]
  simp [hlist, hsize]

/-- Collections that come about, with all that was added to them in the order in which it came. -/
inductive Gathered : List Summary → Collection → Prop where
  | empty : Gathered [] {}
  | insert {ss : List Summary} {c : Collection} (s : Summary) : Gathered ss c → Gathered (ss ++ [s]) (c.insert s)
  | extend {ss : List Summary} {c : Collection} (more : List Summary) :
      Gathered ss c → Gathered (ss ++ more) (c.extend more)
  | ofList (ss : List Summary) : Gathered ss (ofList ss)

/-- In whatever way summaries came, the collection is all of them, sorted. -/
theorem Gathered.toList_eq (h : Gathered ss c) : c.toList = Rank.sort Summary.rank ss := by
  induction h with
  | empty => exact List.mergeSort_nil.symm
  | insert s _ ih => rw [toList_insert (ih ▸ Rank.inOrder_sort _ _), ih, Rank.sort_sort_append]
  | extend more _ ih => rw [toList_extend, ih, Rank.sort_sort_append]
  | ofList ss => exact toList_ofList ss

theorem Gathered.foldl_insert (h : Gathered ss c) (more : List Summary) :
    Gathered (ss ++ more) (more.foldl Collection.insert c) := by
  induction more generalizing ss c with
  | nil => rwa [List.append_nil]
  | cons s more ih =>
    rw [List.foldl_cons, List.append_cons]
    exact ih (h.insert s)

theorem Gathered.pairwise_compare (h : Gathered ss c) : c.toList.Pairwise fun a b => a.compare b ≠ .gt := by
  rw [h.toList_eq]
  refine List.Pairwise.imp ?_ (Rank.inOrder_sort Summary.rank ss)
  intro a b hab
  exact bne_iff_ne.1 (Summary.notAfter_iff.2 hab)

/-- **However summaries are added, the same collection comes about.** A collection is always in the order
of reports. Whether more summaries are inserted one after another, added at once, or collected anew
behind those that are there makes no difference: the result holds the old and the new ones, and those
with as much code and the same name stand in it as they came, all the way back to the first. -/
theorem Gathered.additions_agree (h : Gathered ss c) :
    (c.toList.Pairwise fun a b => a.compare b ≠ .gt) ∧
    ∀ more, more.foldl Collection.insert c = c.extend more ∧
      Collection.ofList (c.toList ++ more) = c.extend more ∧
      (c.extend more).toList.Perm (c.toList ++ more) ∧
      ((c.extend more).toList.Pairwise fun a b => a.compare b ≠ .gt) ∧
      ∀ code name, (c.extend more).toList.filter (fun s => s.code = code ∧ s.name = name) =
        (ss ++ more).filter fun s => s.code = code ∧ s.name = name := by
  refine ⟨h.pairwise_compare, fun more => ?_⟩
  have hmore : (c.extend more).toList = Rank.sort Summary.rank (ss ++ more) := (h.extend more).toList_eq
  refine ⟨ext ?_, rfl, ?_, (h.extend more).pairwise_compare, fun code name => ?_⟩
  · rw [(h.foldl_insert more).toList_eq, hmore]
  · rw [toList_extend]
    exact Rank.perm_sort _ _
  · simp only [← Summary.rank_eq_iff]
    rw [hmore]
    exact Rank.level_sort Summary.rank ⟨code.value, name⟩ _

/-- A file with as many lines of code and of comments. -/
def goFile (name : String) (code comments : Nat) : Summary :=
  { name, language := "Go", code := .ofNat code, comments := .ofNat comments }

theorem Gathered.additions_agree_sameName :
    let c := ((Collection.ofList [goFile "b.go" 3 0, goFile "a.go" 3 1]).insert (goFile "a.go" 3 2)).extend
      [.unreadable "0.go" "Go"]
    let more := [goFile "a.go" 3 0, goFile "c.go" 10 0]
    Gathered [goFile "b.go" 3 0, goFile "a.go" 3 1, goFile "a.go" 3 2, .unreadable "0.go" "Go"] c ∧
      more.foldl Collection.insert c = c.extend more ∧
      (more.foldl Collection.insert c).toList = [goFile "c.go" 10 0, goFile "a.go" 3 1, goFile "a.go" 3 2,
        goFile "a.go" 3 0, goFile "b.go" 3 0, .unreadable "0.go" "Go"] ∧
      (c.extend more).toList.filter (fun s => s.code = .ofNat 3 ∧ s.name = "a.go") =
        [goFile "a.go" 3 1, goFile "a.go" 3 2, goFile "a.go" 3 0] := by
  intro c more
  have h : Gathered [goFile "b.go" 3 0, goFile "a.go" 3 1, goFile "a.go" 3 2, .unreadable "0.go" "Go"] c :=
    .extend [.unreadable "0.go" "Go"] (.insert (goFile "a.go" 3 2) (.ofList [goFile "b.go" 3 0, goFile "a.go" 3 1]))
  obtain ⟨-, hmore⟩ := h.additions_agree
  obtain ⟨hinsert, -, -, -, hlevel⟩ := hmore more
  exact ⟨h, hinsert, by cbv, (hlevel _ _).trans (by decide)⟩

end Collection

end LineCensus
