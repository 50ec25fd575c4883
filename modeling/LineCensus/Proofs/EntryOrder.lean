/-
The order of chosen entries. What the roots contribute is sorted by path, and of
neighbours with the same path one is kept; so the entries chosen come in strictly
ascending order (`ascending_ofRoots`), each one from some root (`exists_root`), and each
path that a root contributes is there (`exists_mem_ofRoots`). Since sorting leaves entries with the
same path as they came, the first of them is the one that is kept (`mem_ofRoots_iff_find?`).
-/
import LineCensus.Proofs.PathParts
import LineCensus.Selection.Choose

namespace LineCensus

/-- The path of an entry comes before that of another. -/
def Entry.Before (a b : Entry) : Prop := a.path.compare b.path = .lt

namespace Selection

open LineCensus.Language

variable {es : List Entry} {e kept : Entry}

theorem mem_sortEntries : e ∈ sortEntries es ↔ e ∈ es := List.mem_mergeSort

theorem isLE_trans {a b c : Entry} (hab : (a.path.compare b.path).isLE = true)
    (hbc : (b.path.compare c.path).isLE = true) : (a.path.compare c.path).isLE = true := Std.TransCmp.isLE_trans hab hbc

theorem isLE_total (a b : Entry) : ((a.path.compare b.path).isLE || (b.path.compare a.path).isLE) = true := by
  rw [@Std.OrientedCmp.eq_swap _ Path.compare _ b.path]
  cases a.path.compare b.path <;> rfl

theorem sortEntries_pairwise (es : List Entry) :
    (sortEntries es).Pairwise fun a b => (a.path.compare b.path).isLE := by
  apply List.pairwise_mergeSort
  · intro a b c hab hbc
    exact isLE_trans hab hbc
  · intro a b
    exact isLE_total a b

/-- Sorting leaves entries with the same path as they came. -/
theorem filter_sortEntries (es : List Entry) (path : Path) :
    (sortEntries es).filter (·.path.same path) = es.filter (·.path.same path) := by
  have hlevel : (es.filter (·.path.same path)).Pairwise fun a b => (a.path.compare b.path).isLE := by
    apply List.pairwise_of_forall_mem_list
    intro a ha b hb
    have hparts : a.path.parts = b.path.parts :=
      (Path.same_iff.1 (List.mem_filter.1 ha).2).trans (Path.same_iff.1 (List.mem_filter.1 hb).2).symm
    rw [Path.compare_eq_iff.2 hparts]
    rfl
  have hsublist : (es.filter (·.path.same path)).Sublist (sortEntries es) := by
    apply List.sublist_mergeSort _ _ hlevel List.filter_sublist
    · intro a b c hab hbc
      exact isLE_trans hab hbc
    · intro a b
      exact isLE_total a b
  have hfiltered := hsublist.filter (·.path.same path)
  simp only [List.filter_filter, Bool.and_self] at hfiltered
  exact (hfiltered.eq_of_length ((List.mergeSort_perm es _).filter _).length_eq.symm).symm

namespace dropRepeated

theorem dropFrom_subset (kept : Entry) (es : List Entry) : dropFrom kept es ⊆ es := by
  induction es generalizing kept with
  | nil => exact List.Subset.refl _
  | cons e es ih =>
    rw [dropFrom]
    split
    · exact List.subset_cons_of_subset e (ih kept)
    · exact List.cons_subset_cons e (ih e)

/-- Of sorted entries each one that is kept comes before those kept later. -/
theorem dropFrom_pairwise (h : (kept :: es).Pairwise fun a b => (a.path.compare b.path).isLE) :
    (kept :: dropFrom kept es).Pairwise Entry.Before := by
  induction es generalizing kept with
  | nil => simp [dropFrom]
  | cons e es ih =>
    rw [List.pairwise_cons, List.forall_mem_cons] at h
    obtain ⟨⟨hle, hall⟩, hes⟩ := h
    rw [dropFrom]
    split
    next => exact ih (List.pairwise_cons.2 ⟨hall, (List.pairwise_cons.1 hes).2⟩)
    next hne =>
      have hlt : kept.Before e := by
        have : kept.path.compare e.path ≠ .eq := fun heq => hne (Path.same_iff.2 (Path.compare_eq_iff.1 heq))
        rw [Entry.Before]
        cases hc : kept.path.compare e.path <;> simp_all
      have hrest := ih hes
      refine List.pairwise_cons.2 ⟨?_, hrest⟩
      rw [List.forall_mem_cons]
      exact ⟨hlt, fun x hx => Std.TransCmp.lt_trans hlt (List.rel_of_pairwise_cons hrest hx)⟩

/-- No path is lost. -/
theorem exists_mem_dropFrom (kept : Entry) (he : e ∈ es) :
    ∃ e' ∈ kept :: dropFrom kept es, e'.path.parts = e.path.parts := by
  induction es generalizing kept with
  | nil => cases he
  | cons x es ih =>
    rw [dropFrom]
    split
    next hsame =>
      rcases List.mem_cons.1 he with rfl | he
      · exact ⟨kept, List.mem_cons_self, Path.same_iff.1 hsame⟩
      · exact ih kept he
    next =>
      rcases List.mem_cons.1 he with rfl | he
      · exact ⟨e, by simp, rfl⟩
      · obtain ⟨e', he', hparts⟩ := ih x he
        exact ⟨e', List.mem_cons_of_mem _ he', hparts⟩

/-- What is dropped is not the first with its path. -/
theorem find?_dropFrom (kept : Entry) (es : List Entry) (path : Path) :
    (kept :: dropFrom kept es).find? (·.path.same path) = (kept :: es).find? (·.path.same path) := by
  induction es generalizing kept with
  | nil => rfl
  | cons e es ih =>
    rw [dropFrom]
    split
    next hsame =>
      have heq : e.path.same path = kept.path.same path := by
        rw [Bool.eq_iff_iff, Path.same_iff, Path.same_iff, Path.same_iff.1 hsame]
      rw [ih kept, List.find?_cons, List.find?_cons, List.find?_cons, heq]
      cases kept.path.same path <;> rfl
    next =>
      cases hkept : kept.path.same path with
      | true => simp only [List.find?_cons, hkept]
      | false => simpa only [List.find?_cons, hkept] using ih e

end dropRepeated

theorem dropRepeated_subset (es : List Entry) : dropRepeated es ⊆ es := by
  cases es with
  | nil => exact List.Subset.refl _
  | cons e es => exact List.cons_subset_cons e (dropRepeated.dropFrom_subset e es)

theorem dropRepeated_pairwise (h : es.Pairwise fun a b => (a.path.compare b.path).isLE) :
    (dropRepeated es).Pairwise Entry.Before := by
  cases es with
  | nil => exact .nil
  | cons e es => exact dropRepeated.dropFrom_pairwise h

theorem exists_mem_dropRepeated (he : e ∈ es) : ∃ e' ∈ dropRepeated es, e'.path.parts = e.path.parts := by
  cases es with
  | nil => cases he
  | cons x es =>
    rcases List.mem_cons.1 he with rfl | he
    · exact ⟨e, List.mem_cons_self, rfl⟩
    · exact dropRepeated.exists_mem_dropFrom x he

theorem find?_dropRepeated (es : List Entry) (path : Path) :
    (dropRepeated es).find? (·.path.same path) = es.find? (·.path.same path) := by
  cases es with
  | nil => rfl
  | cons e es => exact dropRepeated.find?_dropFrom e es path

/-- In an ascending list an entry is the only one with its path. -/
theorem mem_iff_find?_of_ascending (h : es.Pairwise Entry.Before) :
    e ∈ es ↔ es.find? (·.path.same e.path) = some e := by
  refine ⟨fun he => ?_, List.mem_of_find?_eq_some⟩
  induction es with
  | nil => cases he
  | cons x es ih =>
    obtain ⟨hx, hes⟩ := List.pairwise_cons.1 h
    rw [List.find?_cons]
    rcases List.mem_cons.1 he with rfl | he
    · rw [Path.same_iff.2 rfl]
    · have hne : x.path.same e.path = false := by
        rw [Bool.eq_false_iff, ne_eq, Path.same_iff, ← Path.compare_eq_iff, hx e he]
        exact nofun
      rw [hne]
      exact ih hes he

/-! ## The entries of several roots -/

variable {g : Engine} {t : FileTree} {r : Registry} {f : Filter} {p : Plan} {root : Path}

theorem exists_root (he : e ∈ (ofRoots g t r f p).1) : ∃ root ∈ p.roots, e ∈ (ofRoot g t r f p root).1 := by
  have he := mem_sortEntries.1 (dropRepeated_subset _ he)
  rw [List.flatMap_map] at he
  exact List.mem_flatMap.1 he

theorem ascending_ofRoots (g : Engine) (t : FileTree) (r : Registry) (f : Filter) (p : Plan) :
    (ofRoots g t r f p).1.Pairwise Entry.Before :=
  dropRepeated_pairwise (sortEntries_pairwise _)

theorem nodup_paths_ofRoots : ((ofRoots g t r f p).1.map Entry.path).Nodup := by
  refine List.pairwise_map.2 ((ascending_ofRoots g t r f p).imp fun {a b} hlt heq => ?_)
  rw [Entry.Before, heq, Path.compare_eq_iff.2 rfl] at hlt
  cases hlt

theorem exists_mem_ofRoots (hroot : root ∈ p.roots) (he : e ∈ (ofRoot g t r f p root).1) :
    ∃ e' ∈ (ofRoots g t r f p).1, e'.path.parts = e.path.parts := by
  refine exists_mem_dropRepeated (mem_sortEntries.2 ?_)
  rw [List.flatMap_map]
  exact List.mem_flatMap.2 ⟨root, hroot, he⟩

/-- **Of the entries that the roots contribute for a path, the first to come is kept.** -/
theorem mem_ofRoots_iff_find? : e ∈ (ofRoots g t r f p).1 ↔
    (p.roots.flatMap fun root => (ofRoot g t r f p root).1).find? (·.path.same e.path) = some e := by
  rw [mem_iff_find?_of_ascending (ascending_ofRoots g t r f p), ofRoots]
  dsimp only
  rw [find?_dropRepeated, ← List.head?_filter, filter_sortEntries, List.head?_filter, List.flatMap_map]

end Selection

end LineCensus
