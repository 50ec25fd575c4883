/-
Files shared out to workers. What an entry gives does not depend on the buffer it is measured with
(`measureFrom_fst`), so a worker that goes through its entries one after another brings back what
each of them gives alone. The results are put back by their places; hence any schedule on which
every place stands leads to the same list (`onSchedule_eq_map`).

Since each entry counts alone, what another one stands for makes no difference. What an entry's
name opens may be missing for another reason than before, but that shows in no summary
(`summary_alone_congr`); hence two trees that agree but for some files give the same summary for
every entry that goes to none of those (`FileTree.AgreeOff.toOption_read`).
-/
import LineCensus.Batch
import LineCensus.Proofs.RegistrySearch
import LineCensus.Proofs.TreeChange
import Mathlib

namespace LineCensus.Batch

open LineCensus.Language

variable {source source' : Opener} {r : Registry} {o : AnalysisOptions} {es : List Entry} {e : Entry} {s : Schedule}
  {i n : Nat} {m : Measured}

/-- What an entry gives measured alone, with a new buffer. -/
def alone (source : Opener) (r : Registry) (o : AnalysisOptions) (e : Entry) : Measured :=
  (measureFrom source r o {} e).1

/-! ## One worker -/

/-- What the buffer was used for before makes no difference. -/
theorem measureFrom_fst (source : Opener) (r : Registry) (o : AnalysisOptions) (buffer : LineBuffer) (e : Entry) :
    (measureFrom source r o buffer e).1 = alone source r o e := by
  rw [alone, measureFrom, measureFrom]
  cases r.get? e.languageId with
  | none => rfl
  | some d =>
    dsimp only
    cases source e.name with
    | error reason => rfl
    | ok stream => rfl

theorem inTurn_eq_map (source : Opener) (r : Registry) (o : AnalysisOptions) (buffer : LineBuffer) (es : List Entry) :
    inTurn source r o buffer es = es.map (alone source r o) := by
  induction es generalizing buffer with
  | nil => rfl
  | cons e es ih =>
    have hstep : inTurn source r o buffer (e :: es) =
        (measureFrom source r o buffer e).1 :: inTurn source r o (measureFrom source r o buffer e).2 es := rfl
    rw [hstep, ih, measureFrom_fst, List.map_cons]

/-- A worker brings back what its entries give alone, each with its place. -/
theorem work_eq_filterMap (source : Opener) (r : Registry) (o : AnalysisOptions) (es : List Entry) (places : List Nat) :
    work source r o es places = places.filterMap fun i => es[i]?.map fun e => (i, alone source r o e) := by
  rw [work, inTurn_eq_map]
  induction places with
  | nil => rfl
  | cons i places ih => cases hi : es[i]? <;> simp_all

/-! ## Several workers -/

/-- Every place below `n` is on the schedule of some worker. -/
def Schedule.Covers (s : Schedule) (n : Nat) : Prop := ∀ i < n, ∃ places ∈ s, i ∈ places

instance (s : Schedule) (n : Nat) : Decidable (s.Covers n) := inferInstanceAs (Decidable (∀ i < n, _))

theorem mem_results_iff : (i, m) ∈ s.flatMap (work source r o es) ↔
    (∃ places ∈ s, i ∈ places) ∧ (es.map (alone source r o))[i]? = some m := by
  simp only [List.mem_flatMap, work_eq_filterMap, List.mem_filterMap, Option.map_eq_some_iff, Prod.mk.injEq,
    List.getElem?_map]
  constructor
  · rintro ⟨places, hplaces, j, hj, e, he, rfl, rfl⟩
    exact ⟨⟨places, hplaces, hj⟩, e, he, rfl⟩
  · rintro ⟨⟨places, hplaces, hi⟩, e, he, hm⟩
    exact ⟨places, hplaces, i, hi, e, he, rfl, hm⟩

/-- What is looked up of the results at a place that is on schedule. -/
theorem lookup_results (h : ∃ places ∈ s, i ∈ places) :
    (s.flatMap (work source r o es)).lookup i = (es.map (alone source r o))[i]? := by
  cases hfound : (s.flatMap (work source r o es)).lookup i with
  | none =>
    symm
    rw [Option.eq_none_iff_forall_ne_some]
    intro m hm
    exact absurd (List.lookup_eq_none_iff.1 hfound _ (mem_results_iff.2 ⟨h, hm⟩)) (by simp)
  | some m =>
    obtain ⟨before, after, hresults, -⟩ := List.lookup_eq_some_iff.1 hfound
    have hmem : (i, m) ∈ s.flatMap (work source r o es) := by simp [hresults]
    exact (mem_results_iff.1 hmem).2.symm

/-- A list is what is found at its places. -/
theorem filterMap_range {α : Type} {f : Nat → Option α} {l : List α} (h : ∀ i < l.length, f i = l[i]?) :
    (List.range l.length).filterMap f = l := by
  have hmap : (List.range l.length).map f = l.map some := by
    refine List.ext_getElem (by simp) fun i hi _ => ?_
    rw [List.length_map, List.length_range] at hi
    simp [h i hi, hi]
  calc (List.range l.length).filterMap f
      _ = ((List.range l.length).map f).filterMap id := by rw [List.filterMap_map, Function.id_comp]
      _ = (l.map some).filterMap id := by rw [hmap]
      _ = l := by rw [List.filterMap_map, Function.id_comp, List.filterMap_some]

/-- **Whoever measures an entry, the results are those of the entries alone, in their order.** -/
theorem onSchedule_eq_map (h : s.Covers es.length) : onSchedule source r o es s = es.map (alone source r o) := by
  rw [onSchedule, ← List.length_map (f := alone source r o)]
  refine filterMap_range fun i hi => lookup_results (h i ?_)
  rwa [List.length_map] at hi

theorem covers_deal (hn : 0 < n) (k : Nat) : (Schedule.deal n k).Covers k := by
  intro i hi
  refine ⟨_, List.mem_map_of_mem (List.mem_range.2 (Nat.mod_lt i hn)), ?_⟩
  simpa using hi

theorem runFrom_eq_map (source : Opener) (r : Registry) (o : AnalysisOptions) (jobs : Nat) (es : List Entry) :
    runFrom source r o jobs es = es.map (alone source r o) := by
  rw [runFrom]
  split
  next => exact inTurn_eq_map source r o {} es
  next hmany =>
    have hlength : sharingThreshold ≤ es.length := by simp at hmany; exact hmany.1
    have hworkers : 1 ≤ workers jobs := Nat.le_max_right jobs 1
    exact onSchedule_eq_map (covers_deal (Nat.lt_min.2 ⟨hworkers, Nat.lt_of_lt_of_le (by decide) hlength⟩) _)

/-! ## One file -/

/-- A summary depends on what the entry's name opens, but not on why it opens nothing. -/
theorem summary_alone_congr (h : (source e.name).toOption = (source' e.name).toOption) :
    (alone source r o e).summary = (alone source' r o e).summary := by
  rw [alone, alone, measureFrom, measureFrom]
  cases r.get? e.languageId with
  | none => rfl
  | some d =>
    dsimp only
    cases hs : source e.name <;> cases hs' : source' e.name <;> simp_all [Except.toOption]

theorem toOption_openNamed (t : FileTree) (name : String) :
    (openNamed t name).toOption = (t.read (.ofString name)).toOption.map fun bytes => { bytes } := by
  rw [openNamed, FileTree.read]
  rcases t.stat (.ofString name) with fault | (bytes | _ | _) <;> rfl

/-- **Sharing files out changes no result.** Whatever opens the files, any number of jobs gives
just what the entries give alone, in their order, and so does any schedule on which every place
stands. A file that is changed or taken away therefore changes what bears its name and nothing
else; and if files of a tree change, no summary does but those of entries that go to them. -/
theorem shared_eq_alone (source : Opener) (r : Registry) (o : AnalysisOptions) (es : List Entry) :
    (∀ jobs, runFrom source r o jobs es = es.map (alone source r o)) ∧
      (∀ s : Schedule, s.Covers es.length → onSchedule source r o es s = es.map (alone source r o)) ∧
      (∀ name source', (∀ other, other ≠ name → source' other = source other) →
        ∀ jobs jobs' (i : Nat) (e : Entry), es[i]? = some e → e.name ≠ name →
          (runFrom source' r o jobs' es)[i]? = (runFrom source r o jobs es)[i]?) ∧
      ∀ t t' places, FileTree.AgreeOff t t' places → ∀ jobs jobs' (i : Nat) (e : Entry), es[i]? = some e →
        (∀ place ∈ places, ¬ t.GoesTo (.ofString e.name) place ∧ ¬ t'.GoesTo (.ofString e.name) place) →
          (run t' r o jobs' es)[i]?.map Measured.summary = (run t r o jobs es)[i]?.map Measured.summary := by
  refine ⟨fun jobs => runFrom_eq_map source r o jobs es, fun s hs => onSchedule_eq_map hs, ?_, ?_⟩
  · intro name source' hsame jobs jobs' i e he hname
    rw [runFrom_eq_map, runFrom_eq_map, List.getElem?_map, List.getElem?_map, he, Option.map_some, Option.map_some,
      alone, alone, measureFrom, measureFrom, hsame e.name hname]
  · intro t t' places hagree jobs jobs' i e he hne
    have hopened : (openNamed t e.name).toOption = (openNamed t' e.name).toOption := by
      rw [toOption_openNamed, toOption_openNamed, hagree.toOption_read hne]
    rw [run, run, runFrom_eq_map, runFrom_eq_map, List.getElem?_map, List.getElem?_map, he]
    exact congrArg some (summary_alone_congr hopened).symm

/-- Two entries, of which the first one goes to the file of a tree. -/
def twoEntries : List Entry := [⟨.ofString "src/a.c", "c"⟩, ⟨.ofString "b.c", "c"⟩]

theorem shared_eq_alone_twoEntries :
    let t := FileTree.someC "src"
    let place := [Text.encode "src".toList, Text.encode "a.c".toList]
    let t' := t.setFile place none
    let gone := Function.update (openNamed t) "src/a.c" (.error "gone")
    (Schedule.Covers [[1], [0]] twoEntries.length ∧
      (∀ other, other ≠ "src/a.c" → gone other = openNamed t other) ∧
      t.AgreeOff t' {place} ∧
      ∀ q ∈ ({place} : Set Place), ¬ t.GoesTo (.ofString "b.c") q ∧ ¬ t'.GoesTo (.ofString "b.c") q) ∧
    onSchedule (openNamed t) .onlyC {} twoEntries [[1], [0]] = twoEntries.map (alone (openNamed t) .onlyC {}) ∧
    (runFrom gone .onlyC {} 0 twoEntries)[1]? = (runFrom (openNamed t) .onlyC {} 4 twoEntries)[1]? ∧
    (run t' .onlyC {} 0 twoEntries)[1]?.map Measured.summary =
      (run t .onlyC {} 4 twoEntries)[1]?.map Measured.summary := by
  intro t place t' gone
  have hcovers : Schedule.Covers [[1], [0]] twoEntries.length := by decide
  have hgone : ∀ other, other ≠ "src/a.c" → gone other = openNamed t other :=
    fun other hother => Function.update_of_ne hother _ _
  have hfile : t.item? place = some (.file []) := by cbv
  have hagree : t.AgreeOff t' {place} := FileTree.agreeOff_setFile
    (fun item hitem => ⟨[], Option.some.inj (hitem.symm.trans hfile)⟩) none
  have hmissing : t.locate true (.ofString "b.c") = .error .missing := by cbv
  have hmissing' : t'.locate true (.ofString "b.c") = .error .missing := by cbv
  have hne : ∀ q ∈ ({place} : Set Place), ¬ t.GoesTo (.ofString "b.c") q ∧ ¬ t'.GoesTo (.ofString "b.c") q := by
    intro q _
    rw [FileTree.GoesTo, FileTree.GoesTo, hmissing, hmissing']
    simp
  have hname : (⟨.ofString "b.c", "c"⟩ : Entry).name = "b.c" := by cbv
  obtain ⟨-, hschedule, hopener, htree⟩ := shared_eq_alone (openNamed t) .onlyC {} twoEntries
  exact ⟨⟨hcovers, hgone, hagree, hne⟩, hschedule _ hcovers,
    hopener "src/a.c" gone hgone 4 0 1 _ rfl (by rw [hname]; decide),
    htree t t' {place} hagree 4 0 1 _ rfl (by rwa [hname])⟩

end LineCensus.Batch
