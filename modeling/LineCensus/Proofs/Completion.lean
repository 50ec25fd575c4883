/-
Nothing in a tree makes a run fail. Whether files can be chosen depends on the plan, the table of
languages and the patterns of the engine, not on the tree (`choose_fails_iff`); a root that leads
nowhere, a link that leads in a circle or a directory named as a file leave at most a warning. A file
that is chosen is of a language that is in the table, and so it is measured whatever its name opens by
then (`reportedAs_alone`): one summary for each entry, with no lines if nothing could be opened.
-/
import LineCensus.Proofs.Canonical
import LineCensus.Proofs.MeasuredFile
import LineCensus.Proofs.Overriding
import LineCensus.Proofs.ReportOrder
import LineCensus.Proofs.Sharing

namespace LineCensus

open LineCensus.Language

variable {g : Engine} {t : FileTree} {r : Registry} {p : Plan} {source : Opener} {e : Entry}

/-! ## Choosing -/

namespace Plan

theorem not_accepted_iff : ¬ p.Accepted g r ↔ (∃ id ∈ p.includeLanguages, r.get? id = none) ∨
    ∃ pattern ∈ p.patterns, ∃ reason, g.compile pattern = .error reason := by
  constructor
  · intro h
    by_contra hnone
    push Not at hnone
    refine h ⟨fun id hid => Option.isSome_iff_ne_none.2 (hnone.1 id hid), fun pattern hpattern => ?_⟩
    cases hcompile : g.compile pattern with
    | error reason => exact absurd hcompile (hnone.2 pattern hpattern reason)
    | ok test => exact ⟨test, hcompile⟩
  · rintro (⟨id, hid, hnone⟩ | ⟨pattern, hpattern, reason, hreason⟩) h
    · simpa [hnone] using h.languages id hid
    · obtain ⟨test, htest⟩ := h.patterns pattern hpattern
      rw [hreason] at htest
      cases htest

/-- Files are chosen unless the plan is at fault. -/
theorem choose_fails_iff (g : Engine) (t : FileTree) :
    (∃ failure, Selection.choose g t r p = .error failure) ↔ ¬ p.Accepted g r := by
  constructor
  · rintro ⟨failure, hfailure⟩ h
    rw [choose_of_accepted h] at hfailure
    cases hfailure
  · intro h
    cases hchoose : Selection.choose g t r p with
    | error failure => exact ⟨failure, rfl⟩
    | ok found => exact absurd (accepted_of_choose hchoose) h

/-- The first language that is not known is the first thing to fail. -/
theorem choose_unknownLanguage {known others : List String} {id : String}
    (hids : p.includeLanguages = known ++ id :: others) (hknown : ∀ k ∈ known, (r.get? k).isSome)
    (hid : r.get? id = none) : Selection.choose g t r p = .error (.unknownLanguage id) := by
  have hfirst : (p.includeLanguages.find? fun id => (r.get? id).isNone) = some id := by
    refine List.find?_eq_some_iff_append.2 ⟨by simp [hid], known, others, hids, fun k hk => ?_⟩
    simpa [Option.isSome_iff_ne_none] using hknown k hk
  rw [Selection.choose, hfirst]

end Plan

theorem Selection.detected_of_choose {es : List Entry} {log : Log} (h : choose g t r p = .ok (es, log))
    (he : e ∈ es) : e.Detected r := by
  rw [Plan.choose_of_accepted (Plan.accepted_of_choose h)] at h
  cases h
  exact detected_of_mem_ofRoots he

/-! ## Measuring -/

/-- What a summary has to say of an entry. -/
structure Entry.ReportedAs (e : Entry) (source : Opener) (r : Registry) (s : Summary) : Prop where
  name : s.name = e.name
  language : ∃ d, r.detect? e.path = some d ∧ s.language = d.label
  unopened : ∀ reason, source e.name = .error reason →
    s.code = 0 ∧ s.comments = 0 ∧ s.blanks = 0 ∧ s.complexity = none

theorem Batch.reportedAs_alone (hr : r.Reachable) (he : e.Detected r) (source : Opener) (o : AnalysisOptions) :
    e.ReportedAs source r (alone source r o e).summary := by
  obtain ⟨d, hd, hid⟩ := he
  have hget : r.get? e.languageId = some d := hid ▸ hr.get?_of_detect? hd
  rw [alone, measureFrom, hget]
  dsimp only
  cases hopened : source e.name with
  | error reason => exact ⟨rfl, ⟨d, hd, rfl⟩, fun _ _ => ⟨rfl, rfl, rfl, rfl⟩⟩
  | ok stream =>
    refine ⟨rfl, ⟨d, hd, rfl⟩, fun reason herror => ?_⟩
    rw [hopened] at herror
    cases herror

namespace Report

open Selection

/-- **The content of the tree never aborts a run.** Files are chosen in every tree unless a language
of the plan is not known or a pattern is none, and the first language that is not known is what is
reported. Once files are chosen the run succeeds, whatever becomes of them until they are opened:
the report has one summary for each entry. -/
theorem run_complete (hr : r.Reachable) (g : Engine) (t : FileTree) (p : Plan) :
    ((∃ failure, choose g t r p = .error failure) ↔ (∃ id ∈ p.includeLanguages, r.get? id = none) ∨
      ∃ pattern ∈ p.patterns, ∃ reason, g.compile pattern = .error reason) ∧
    (∀ known id others, p.includeLanguages = known ++ id :: others → (∀ k ∈ known, (r.get? k).isSome) →
      r.get? id = none → choose g t r p = .error (.unknownLanguage id)) ∧
    ∀ es log, choose g t r p = .ok (es, log) →
      ∀ (source : Opener) (o : AnalysisOptions) (jobs : Nat) (key : SortKey),
      ∃ report, run p.roots.length key ((choose g t r p).map Prod.fst)
          (fun es => .ok ((Batch.runFrom source r o jobs es).map Measured.summary)) = .ok report ∧
        report.files.toList.Perm (es.map fun e => (Batch.alone source r o e).summary) ∧
        ∀ e ∈ es, e.ReportedAs source r (Batch.alone source r o e).summary := by
  refine ⟨(Plan.choose_fails_iff g t).trans Plan.not_accepted_iff,
    fun known id others hids hknown hid => Plan.choose_unknownLanguage hids hknown hid, ?_⟩
  intro es log hchoose source o jobs key
  refine ⟨_, by rw [hchoose]; rfl, ?_,
    fun e he => Batch.reportedAs_alone hr (detected_of_choose hchoose he) source o⟩
  rw [Batch.runFrom_eq_map, List.map_map]
  exact perm_files _ key

/-- A plan in which a language that is known stands before one that is not. -/
def alsoCobol : Plan := { includeLanguages := ["c", "cobol"] }

/-- A plan for a directory and for a file that is missing. -/
def partlyGone : Plan := { roots := [.ofString ".", .ofString "gone.c"] }

/-- The entry for the file in the directory. -/
def presentEntry : Entry := ⟨.ofString "./src/a.c", "c"⟩

/-- The entry for the file that is missing. -/
def missingEntry : Entry := ⟨.ofString "gone.c", "c"⟩

theorem choose_partlyGone : choose .standard (.someC "src") .onlyC partlyGone =
    .ok ([presentEntry, missingEntry], [.selectionWarning "gone.c: no such file or directory"]) := by
  have hpresent : ofRoot .standard (.someC "src") .onlyC {} partlyGone (.ofString ".") = ([presentEntry], []) :=
    Plan.ofRoot_someC
  have hmissing : ofRoot .standard (.someC "src") .onlyC {} partlyGone (.ofString "gone.c") =
      ([missingEntry], [.selectionWarning "gone.c: no such file or directory"]) := by
    have hstat : (FileTree.someC "src").stat (.ofString "gone.c") = .error .missing := by cbv
    have hdetect : Registry.onlyC.detect? (.ofString "gone.c") = some .plainC :=
      Registry.detect?_onlyC (by decide +kernel)
    rw [ofRoot, hstat, entryOf, hdetect, Path.display_ofString]
    rfl
  rw [partlyGone, Plan.choose_roots (.cons hpresent (.cons hmissing .nil))]
  exact congrArg Except.ok (Prod.ext (by cbv) rfl)

theorem summary_presentEntry : (Batch.alone (Batch.openNamed (.someC "src")) .onlyC {} presentEntry).summary =
    { name := "./src/a.c", language := "c", complexity := some .nan } := by
  have hname : presentEntry.name = "./src/a.c" := Path.display_ofString _
  have hread : (FileTree.someC "src").read (.ofString presentEntry.name) = .ok [] := by
    rw [FileTree.read_eq_ok_iff, hname]
    cbv
  have hmeasure : (Batch.measure (.someC "src") .onlyC {} {} presentEntry).1 = _ :=
    Batch.measure_of_read Registry.get?_onlyC hread
  rw [hname] at hmeasure
  exact (congrArg Measured.summary hmeasure).trans (by decide +kernel)

theorem summary_missingEntry : (Batch.alone (Batch.openNamed (.someC "src")) .onlyC {} missingEntry).summary =
    { name := "gone.c", language := "c" } := by
  have hname : missingEntry.name = "gone.c" := Path.display_ofString _
  have hlanguage : Registry.onlyC.get? missingEntry.languageId = some .plainC := Registry.get?_onlyC
  have hstat : (FileTree.someC "src").stat (.ofString "gone.c") = .error .missing := by cbv
  rw [Batch.alone, Batch.measureFrom, hlanguage, hname]
  simp only [Batch.openNamed, hstat]
  rfl

theorem run_complete_partlyGone :
    let source := Batch.openNamed (.someC "src")
    let present : Summary := { name := "./src/a.c", language := "c", complexity := some .nan }
    let missing : Summary := { name := "gone.c", language := "c" }
    (Registry.onlyC.Reachable ∧ (∀ k ∈ ["c"], (Registry.onlyC.get? k).isSome) ∧
      Registry.onlyC.get? "cobol" = none) ∧
    choose .standard (.someC "src") .onlyC partlyGone =
      .ok ([presentEntry, missingEntry], [.selectionWarning "gone.c: no such file or directory"]) ∧
    choose .standard (.someC "src") .onlyC alsoCobol = .error (.unknownLanguage "cobol") ∧
    ∃ report, run 2 .code ((choose .standard (.someC "src") .onlyC partlyGone).map Prod.fst)
        (fun es => .ok ((Batch.runFrom source .onlyC {} 0 es).map Measured.summary)) = .ok report ∧
      report.files.toList.Perm [present, missing] ∧ presentEntry.ReportedAs source .onlyC present ∧
      missingEntry.ReportedAs source .onlyC missing := by
  intro source present missing
  have hcobol : Registry.onlyC.get? "cobol" = none := by
    rw [Registry.onlyC, Registry.get?_index]
    decide +kernel
  have hknown : ∀ k ∈ ["c"], (Registry.onlyC.get? k).isSome := by simp [Registry.get?_onlyC]
  obtain ⟨-, hunknown, -⟩ := run_complete Registry.reachable_onlyC .standard (.someC "src") alsoCobol
  obtain ⟨-, -, hruns⟩ := run_complete Registry.reachable_onlyC .standard (.someC "src") partlyGone
  obtain ⟨report, hrun, hfiles, hreported⟩ := hruns _ _ choose_partlyGone source {} 0 .code
  rw [List.map_cons, List.map_singleton, summary_presentEntry, summary_missingEntry] at hfiles
  rw [List.forall_mem_cons, List.forall_mem_singleton, summary_presentEntry, summary_missingEntry] at hreported
  exact ⟨⟨Registry.reachable_onlyC, hknown, hcobol⟩, choose_partlyGone,
    hunknown ["c"] "cobol" [] rfl hknown hcobol, report, hrun, hfiles, hreported⟩

end Report

end LineCensus
