/-
Which file is measured. An entry is opened by the name it has in reports, and that is read off
its path (`measure_by_name`). Where the path is text, the name is the path (`IsText.ofString_display`),
so the summary describes the file itself, and a file that a walk has found is there to be opened
(`measure_own_bytes`). A path that is not text has a name in which U+FFFD stands for some bytes,
and what that name leads to is measured in its place.
-/
import LineCensus.Batch
import LineCensus.Proofs.DirectorySelection
import LineCensus.Proofs.EncodedText

namespace LineCensus

open LineCensus.Language

namespace Path

variable {p : Path}

/-- The bytes of a path are those of a text. -/
def IsText (p : Path) : Prop := ∃ cs, p.bytes = Text.encode cs

@[simp] theorem display_ofString (s : String) : (ofString s).display = s := by
  rw [display, ofString, Text.decodeLossy_encode, String.ofList_toList]

theorem IsText.ofString_display (h : p.IsText) : ofString p.display = p := by
  obtain ⟨cs, hbytes⟩ := h
  rw [ofString, display, String.toList_ofList, hbytes, Text.decodeLossy_encode, ← hbytes]

end Path

namespace Batch

variable {g : Engine} {t : FileTree} {r : Registry} {o : AnalysisOptions} {buffer : LineBuffer} {e : Entry}
  {d : Definition} {bytes : List UInt8} {f : Filter} {p : Plan} {root : Path}

/-- What the bytes of a file give under a name, whatever is left in the buffer. -/
def ofBytes (o : AnalysisOptions) (d : Definition) (name : String) (bytes : List UInt8) (buffer : LineBuffer) :
    Measured :=
  let outcome := Analysis.run name d.grammar o.debugTrace { bytes } buffer
  ⟨outcome.summary name d.label, outcome.log⟩

theorem ofBytes_congr (o : AnalysisOptions) (d : Definition) (name : String) (bytes : List UInt8)
    (buffer buffer' : LineBuffer) : ofBytes o d name bytes buffer = ofBytes o d name bytes buffer' := rfl

theorem openNamed_of_read {name : String} (h : t.read (.ofString name) = .ok bytes) :
    openNamed t name = .ok { bytes } := by
  rw [openNamed, FileTree.read_eq_ok_iff.1 h]

/-- An entry is measured as its name says. -/
theorem measure_by_name (t : FileTree) (r : Registry) (o : AnalysisOptions) (buffer : LineBuffer) (e : Entry) :
    measure t r o buffer e = measure t r o buffer ⟨.ofString e.name, e.languageId⟩ := by
  simp only [measure, measureFrom, Entry.name, Path.display_ofString]

theorem measure_of_read (hlanguage : r.get? e.languageId = some d) (h : t.read (.ofString e.name) = .ok bytes) :
    (measure t r o buffer e).1 = ofBytes o d e.name bytes buffer := by
  simp only [measure, measureFrom, hlanguage, openNamed_of_read h, ofBytes]

/-- The file of an entry that a directory contributes can be read by its path. -/
theorem exists_read_of_mem_ofRoot (hg : g.Lawful) (ht : t.Sound) (hroot : t.stat root = .ok .directory)
    (he : e ∈ (Selection.ofRoot g t r f p root).1) (hlength : e.path.bytes.length < 4096) :
    ∃ bytes, t.read e.path = .ok bytes := by
  obtain ⟨place, hlocate⟩ := FileTree.stat_eq_ok_iff.1 hroot
  obtain ⟨hfound, -⟩ := (Plan.mem_ofRoot_directory hroot).1 he
  obtain ⟨place', bytes, hleads⟩ := hg.leads ht hlocate hfound
  exact ⟨bytes, FileTree.read_eq_ok_iff.2 (FileTree.stat_eq_ok_iff.2 ⟨place', hleads.locate hlength⟩)⟩

/-- **A file whose path is text is measured from its own bytes**, and one that was found below
a directory always can be. -/
theorem measure_own_bytes (hpath : e.path.IsText) (hlanguage : r.get? e.languageId = some d) :
    (∀ bytes, t.read e.path = .ok bytes →
      ∀ buffer', (measure t r o buffer e).1 = ofBytes o d e.name bytes buffer') ∧
    ∀ (g : Engine) f p root, g.Lawful → t.Sound → t.stat root = .ok .directory →
      e ∈ (Selection.ofRoot g t r f p root).1 → e.path.bytes.length < 4096 →
      ∃ bytes, t.read e.path = .ok bytes ∧
        ∀ buffer', (measure t r o buffer e).1 = ofBytes o d e.name bytes buffer' := by
  have hmeasure : ∀ bytes, t.read e.path = .ok bytes →
      ∀ buffer', (measure t r o buffer e).1 = ofBytes o d e.name bytes buffer' := by
    intro bytes hread buffer'
    rw [← hpath.ofString_display] at hread
    rw [measure_of_read hlanguage hread, ofBytes_congr o d e.name bytes buffer buffer']
  refine ⟨hmeasure, fun g f p root hg ht hroot he hlength => ?_⟩
  obtain ⟨bytes, hread⟩ := exists_read_of_mem_ofRoot hg ht hroot he hlength
  exact ⟨bytes, hread, hmeasure bytes hread⟩

/-- An entry whose path is text. -/
def plainEntry : Entry := ⟨.ofString "./src/a.c", "c"⟩

theorem measure_own_bytes_plainEntry :
    (plainEntry.path.IsText ∧ Registry.onlyC.get? plainEntry.languageId = some .plainC ∧
      (FileTree.someC "src").Sound ∧ (FileTree.someC "src").stat (.ofString ".") = .ok .directory ∧
      plainEntry.path.bytes.length < 4096 ∧
      plainEntry ∈ (Selection.ofRoot .standard (.someC "src") .onlyC {} .startingHere (.ofString ".")).1) ∧
    ∃ bytes, (FileTree.someC "src").read plainEntry.path = .ok bytes ∧ ∀ buffer',
      (measure (.someC "src") .onlyC {} {} plainEntry).1 = ofBytes {} .plainC plainEntry.name bytes buffer' := by
  have hpath : plainEntry.path.IsText := ⟨_, rfl⟩
  have hsearches := Plan.searches_someC
  have hroot := FileTree.stat_eq_ok_iff.2 ⟨_, hsearches.directory⟩
  have hlength : plainEntry.path.bytes.length < 4096 := by decide +kernel
  have hchosen : plainEntry ∈
      (Selection.ofRoot .standard (.someC "src") .onlyC {} .startingHere (.ofString ".")).1 := by
    rw [Plan.ofRoot_someC]
    exact List.mem_singleton_self _
  exact ⟨⟨hpath, Registry.get?_onlyC, hsearches.sound, hroot, hlength, hchosen⟩,
    (measure_own_bytes hpath Registry.get?_onlyC).2 _ _ _ _ Engine.standard_lawful hsearches.sound hroot
      hchosen hlength⟩

/-! ## Paths that are not text -/

/-- A path one byte of which is in no UTF-8. -/
def strangePath : Path := ⟨[97, 0xFF, 46, 99]⟩

/-- A file whose path is not text. -/
def strangeName : FileTree := { items := [([strangePath.bytes], .file (Text.encode "x\n".toList))] }

/-- A file that is called what that path is called in reports. -/
def namesake : FileTree :=
  { items := [([Text.encode "a\uFFFD.c".toList], .file (Text.encode "x\ny\nz\n".toList))] }

/-- A file whose path is not text can be read by its path, and is yet measured as unreadable. Where there
is no file of that path, another one that has its name in reports is measured for it. -/
theorem not_measure_own_bytes :
    (¬ ∀ (t : FileTree) (r : Registry) (o : AnalysisOptions) (buffer : LineBuffer) (e : Entry) (d : Definition)
      (bytes : List UInt8), r.get? e.languageId = some d → t.read e.path = .ok bytes →
        (measure t r o buffer e).1 = ofBytes o d e.name bytes buffer) ∧
    namesake.read strangePath = .error .missing ∧
    (measure namesake .onlyC {} {} ⟨strangePath, "c"⟩).1 =
      ofBytes {} .plainC "a\uFFFD.c" (Text.encode "x\ny\nz\n".toList) {} ∧
    (measure namesake .onlyC {} {} ⟨strangePath, "c"⟩).1.summary.code.value = 3 := by
  have hlanguage : Registry.onlyC.get? "c" = some .plainC := Registry.get?_onlyC
  refine ⟨fun h => ?_, by cbv, ?_⟩
  · have hread : strangeName.read strangePath = .ok (Text.encode "x\n".toList) := by
      rw [FileTree.read_eq_ok_iff]
      cbv
    have hmeasure := h strangeName .onlyC {} {} ⟨strangePath, "c"⟩ _ _ hlanguage hread
    have hstat : strangeName.stat (.ofString (Entry.name ⟨strangePath, "c"⟩)) = .error .missing := by cbv
    have hunreadable : (measure strangeName .onlyC {} {} ⟨strangePath, "c"⟩).1.summary.complexity = none := by
      simp only [measure, measureFrom, hlanguage, openNamed, hstat]
      rfl
    rw [hmeasure] at hunreadable
    cases hunreadable
  · have hread : namesake.read (.ofString (Entry.name ⟨strangePath, "c"⟩)) =
        .ok (Text.encode "x\ny\nz\n".toList) := by
      rw [FileTree.read_eq_ok_iff]
      cbv
    have hmeasure : (measure namesake .onlyC {} {} ⟨strangePath, "c"⟩).1 = _ :=
      measure_of_read (e := ⟨strangePath, "c"⟩) hlanguage hread
    have hname : Entry.name ⟨strangePath, "c"⟩ = "a\uFFFD.c" := by decide +kernel
    rw [hname] at hmeasure
    refine ⟨hmeasure, ?_⟩
    rw [hmeasure]
    decide +kernel

end Batch

end LineCensus
