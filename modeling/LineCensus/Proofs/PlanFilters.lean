/-
The filters of a plan, said of the plan itself. A plan is carried out just if it is accepted:
its languages are known and its patterns are patterns (`choose_of_accepted`,
`accepted_of_choose`). What its filters then let pass is what the plan admits
(`acceptsLanguage_filter`, `acceptsFile_filter`, `enters_filter`, `acceptsParents_filter`).

Entries come from a root in one of three ways (`mem_ofRoot`), and only for a root that leads
nowhere is the file itself not tested, since it is to be reported as it stands
(`choose_admits`).

How patterns are matched and directories walked makes no difference to any of this: it holds
for every engine.
-/
import LineCensus.Proofs.EntryOrder
import LineCensus.Proofs.RegistrySearch
import Mathlib

namespace LineCensus

open LineCensus.Language

namespace Engine

/-- A text writes a pattern. -/
def IsPattern (g : Engine) (text : String) : Prop := ∃ test, g.compile text = .ok test

/-- A text matches the pattern that another text writes. -/
def Matches (g : Engine) (pattern text : String) : Prop := ∃ test, g.compile pattern = .ok test ∧ test text = true

/-- The test of the pattern that a text writes, if it writes one. -/
def test? (g : Engine) (text : String) : Option (String → Bool) := (g.compile text).toOption

theorem test?_eq_some_iff {g : Engine} {text : String} {test : String → Bool} :
    g.test? text = some test ↔ g.compile text = .ok test := by
  rw [test?]
  cases g.compile text <;> simp [Except.toOption]

end Engine

/-- An entry carries the id of the language that is found for its path. -/
def Entry.Detected (e : Entry) (r : Registry) : Prop := ∃ d, r.detect? e.path = some d ∧ d.id = e.languageId

namespace Plan

variable {g : Engine} {t : FileTree} {r : Registry} {p : Plan} {path root : Path} {e : Entry}
  {es : List Entry} {log : Log}

/-- The patterns of a plan. -/
def patterns (p : Plan) : List String :=
  [p.matchFile, p.notMatchFile, p.matchDirectory, p.notMatchDirectory].filterMap id

/-- A plan that can be carried out by an engine and with a table of languages. -/
structure Accepted (p : Plan) (g : Engine) (r : Registry) : Prop where
  languages : ∀ id ∈ p.includeLanguages, (r.get? id).isSome
  patterns : ∀ pattern ∈ p.patterns, g.IsPattern pattern

/-- A language that a plan keeps. -/
def AdmitsLanguage (p : Plan) (id : String) : Prop :=
  p.includeLanguages = [] ∨ ∃ included ∈ p.includeLanguages, Text.lower included = Text.lower id

/-- What a plan asks of the path of a file. A name that is no text is tested as the empty
one. -/
structure AdmitsFile (p : Plan) (g : Engine) (path : Path) : Prop where
  extension : ∀ e, path.extensionText? = some e →
    ∀ excluded ∈ p.excludeExtensions, Definition.extensionKey excluded ≠ Text.lower e
  matched : ∀ pattern, p.matchFile = some pattern → g.Matches pattern (path.fileNameText?.getD "")
  notMatched : ∀ pattern, p.notMatchFile = some pattern → ¬ g.Matches pattern (path.fileNameText?.getD "")

/-- A plan lets directories of this name be entered. Names that are no text match nothing. -/
def Enters (p : Plan) (g : Engine) (d : List UInt8) : Prop :=
  ∀ pattern, p.notMatchDirectory = some pattern → ∀ name, Path.text? d = some name → ¬ g.Matches pattern name

/-- What a plan asks of the names of the directories on the way from a root to a file. -/
structure AdmitsWay (p : Plan) (g : Engine) (dirs : List (List UInt8)) : Prop where
  matched : ∀ pattern, p.matchDirectory = some pattern →
    ∃ d ∈ dirs, ∃ name, Path.text? d = some name ∧ g.Matches pattern name
  entered : ∀ d ∈ dirs, p.Enters g d

/-! ## Filters -/

/-- The filters of a plan that is accepted. -/
def filter (p : Plan) (g : Engine) : Filter where
  languages := p.includeLanguages.map Text.lower
  excludedExtensions := p.excludeExtensions.map Definition.extensionKey
  matchFile := p.matchFile.bind g.test?
  notMatchFile := p.notMatchFile.bind g.test?
  matchDirectory := p.matchDirectory.bind g.test?
  notMatchDirectory := p.notMatchDirectory.bind g.test?

theorem compile_eq_ok_iff {text : Option String} {test : Option (String → Bool)} :
    Filter.compile g text = .ok test ↔
      text.bind g.test? = test ∧ ∀ pattern, text = some pattern → g.IsPattern pattern := by
  cases text with
  | none => simp [Filter.compile]
  | some pattern =>
    cases h : g.compile pattern <;> simp [Filter.compile, Engine.test?, Engine.IsPattern, Except.toOption, h]

theorem ofPlan_of_patterns (h : ∀ pattern ∈ p.patterns, g.IsPattern pattern) :
    Filter.ofPlan g p = .ok (p.filter g) := by
  have hcompile : ∀ text ∈ [p.matchFile, p.notMatchFile, p.matchDirectory, p.notMatchDirectory],
      Filter.compile g text = .ok (text.bind g.test?) := fun text htext =>
    compile_eq_ok_iff.2 ⟨rfl, fun pattern hpattern => h pattern (List.mem_filterMap.2 ⟨text, htext, hpattern⟩)⟩
  rw [Filter.ofPlan, hcompile p.matchFile (by simp), hcompile p.notMatchFile (by simp),
    hcompile p.matchDirectory (by simp), hcompile p.notMatchDirectory (by simp)]
  rfl

theorem patterns_of_ofPlan {f : Filter} (h : Filter.ofPlan g p = .ok f) :
    ∀ pattern ∈ p.patterns, g.IsPattern pattern := by
  obtain ⟨_, hfile, h⟩ := Failure.exists_of_bind_eq_ok h
  obtain ⟨_, hnotFile, h⟩ := Failure.exists_of_bind_eq_ok h
  obtain ⟨_, hdirectory, h⟩ := Failure.exists_of_bind_eq_ok h
  obtain ⟨_, hnotDirectory, -⟩ := Failure.exists_of_bind_eq_ok h
  intro pattern hpattern
  simp only [patterns, List.mem_filterMap, List.mem_cons, List.not_mem_nil, or_false, id] at hpattern
  obtain ⟨text, rfl | rfl | rfl | rfl, hsome⟩ := hpattern
  · exact (compile_eq_ok_iff.1 hfile).2 pattern hsome
  · exact (compile_eq_ok_iff.1 hnotFile).2 pattern hsome
  · exact (compile_eq_ok_iff.1 hdirectory).2 pattern hsome
  · exact (compile_eq_ok_iff.1 hnotDirectory).2 pattern hsome

theorem choose_of_accepted (h : p.Accepted g r) (t : FileTree) :
    Selection.choose g t r p = .ok (Selection.ofRoots g t r (p.filter g) p) := by
  have hknown : (p.includeLanguages.find? fun id => (r.get? id).isNone) = none :=
    List.find?_eq_none.2 fun id hid => by simpa [Option.isSome_iff_ne_none] using h.languages id hid
  rw [Selection.choose, hknown, ofPlan_of_patterns h.patterns]
  rfl

theorem accepted_of_choose {found : List Entry × Log} (h : Selection.choose g t r p = .ok found) : p.Accepted g r := by
  rw [Selection.choose] at h
  split at h
  next => cases h
  next hknown =>
    obtain ⟨f, hf⟩ : ∃ f, Filter.ofPlan g p = .ok f := by
      cases hf : Filter.ofPlan g p with
      | error => rw [hf] at h; cases h
      | ok f => exact ⟨f, rfl⟩
    refine ⟨fun id hid => ?_, patterns_of_ofPlan hf⟩
    simpa [Option.isSome_iff_ne_none] using List.find?_eq_none.1 hknown id hid

/-! ## What the filters let pass -/

theorem any_compiled_iff {pattern : Option String} {text : String} :
    (pattern.bind g.test?).any (· text) = true ↔ ∃ s, pattern = some s ∧ g.Matches s text := by
  simp only [Option.any_eq_true, Option.bind_eq_some_iff, Engine.test?_eq_some_iff, Engine.Matches]
  constructor
  · rintro ⟨test, ⟨s, hs, htest⟩, hmatch⟩
    exact ⟨s, hs, test, htest, hmatch⟩
  · rintro ⟨s, hs, test, htest, hmatch⟩
    exact ⟨test, ⟨s, hs, htest⟩, hmatch⟩

theorem not_any_compiled_iff {pattern : Option String} {text : String} :
    (!(pattern.bind g.test?).any (· text)) = true ↔ ∀ s, pattern = some s → ¬ g.Matches s text := by
  rw [Bool.not_eq_true', ← Bool.not_eq_true, any_compiled_iff]
  simp

theorem all_compiled_iff {pattern : Option String} (h : ∀ s, pattern = some s → g.IsPattern s)
    {q : (String → Bool) → Bool} : (pattern.bind g.test?).all q = true ↔
      ∀ s, pattern = some s → ∃ test, g.compile s = .ok test ∧ q test = true := by
  cases pattern with
  | none => simp
  | some s =>
    obtain ⟨test, htest⟩ := h s rfl
    simp [Engine.test?_eq_some_iff.2 htest, htest]

theorem Accepted.compiles (h : p.Accepted g r) {pattern : Option String}
    (hpattern : pattern ∈ [p.matchFile, p.notMatchFile, p.matchDirectory, p.notMatchDirectory]) :
    ∀ s, pattern = some s → g.IsPattern s :=
  fun s hs => h.patterns s (List.mem_filterMap.2 ⟨pattern, hpattern, hs⟩)

theorem acceptsLanguage_filter (g : Engine) (p : Plan) (d : Definition) :
    (p.filter g).acceptsLanguage d = true ↔ p.AdmitsLanguage d.id := by
  simp [filter, Filter.acceptsLanguage, AdmitsLanguage]

theorem acceptsFile_filter (h : p.Accepted g r) (path : Path) :
    (p.filter g).acceptsFile path = true ↔ p.AdmitsFile g path := by
  have hextension :
      (!(path.extensionText?.any fun e => (p.filter g).excludedExtensions.contains (Text.lower e))) = true ↔
      ∀ e, path.extensionText? = some e →
        ∀ excluded ∈ p.excludeExtensions, Definition.extensionKey excluded ≠ Text.lower e := by
    simp [filter, Option.any_eq_false]
  rw [Filter.acceptsFile, Bool.and_eq_true, Bool.and_eq_true, hextension]
  simp only [filter, all_compiled_iff (h.compiles List.mem_cons_self), not_any_compiled_iff]
  exact ⟨fun ⟨⟨h₁, h₂⟩, h₃⟩ => ⟨h₁, h₂, h₃⟩,
    fun h => ⟨⟨h.extension, h.matched⟩, h.notMatched⟩⟩

/-- A directory is entered unless its name is a text that matches. -/
theorem enters_filter (g : Engine) (p : Plan) (d : List UInt8) : (p.filter g).enters d = true ↔ p.Enters g d := by
  rw [Filter.enters, Enters]
  cases Path.text? d with
  | none => simp
  | some name =>
    simp only [Option.some.injEq, forall_eq']
    exact not_any_compiled_iff

/-! ## The entries of one root -/

open Selection

theorem entryOf_eq_some_iff {f : Filter} : entryOf r f path = some e ↔
    e.path = path ∧ ∃ d, r.detect? path = some d ∧ d.id = e.languageId ∧ f.acceptsLanguage d = true := by
  rw [entryOf, Option.bind_eq_some_iff]
  constructor
  · rintro ⟨d, hd, h⟩
    obtain ⟨haccepts, h⟩ := Option.ite_none_right_eq_some.1 h
    cases h
    exact ⟨rfl, d, hd, rfl, haccepts⟩
  · rintro ⟨rfl, d, hd, hid, haccepts⟩
    exact ⟨d, hd, by rw [if_pos haccepts, hid]⟩

theorem entryAt_eq_some_iff {f : Filter} :
    entryAt r f path = some e ↔ f.acceptsFile path = true ∧ entryOf r f path = some e := by
  rw [entryAt, Option.ite_none_right_eq_some]

theorem entryBelow_eq_some_iff {f : Filter} : entryBelow r f root path = some e ↔
    f.acceptsParents root path = true ∧ f.acceptsFile path = true ∧ entryOf r f path = some e := by
  rw [entryBelow, Option.ite_none_right_eq_some, entryAt_eq_some_iff]

/-- How the walk from a root goes. -/
def walkOptions (p : Plan) (f : Filter) : WalkOptions :=
  { followLinks := p.followLinks, includeHidden := p.includeHidden, enters := f.enters }

theorem mem_ofRoot_directory {f : Filter} (h : t.stat root = .ok .directory) : e ∈ (ofRoot g t r f p root).1 ↔
    .file e.path ∈ g.walk t (p.walkOptions f) root ∧ entryBelow r f root e.path = some e := by
  rw [ofRoot, h]
  dsimp only
  rw [List.mem_filterMap]
  constructor
  · rintro ⟨x, hx, hentry⟩
    cases x with
    | fault => cases hentry
    | file path =>
      obtain ⟨-, -, hof⟩ := entryBelow_eq_some_iff.1 hentry
      rw [(entryOf_eq_some_iff.1 hof).1]
      exact ⟨hx, hentry⟩
  · rintro ⟨hx, hentry⟩
    exact ⟨.file e.path, hx, hentry⟩

/-- What a directory contributes in which a walk finds just these files. -/
theorem ofRoot_of_walk {f : Filter} {paths : List Path} (hstat : t.stat root = .ok .directory)
    (hwalk : g.walk t (p.walkOptions f) root = paths.map .file) :
    ofRoot g t r f p root = (paths.filterMap (entryBelow r f root), []) := by
  rw [walkOptions] at hwalk
  rw [ofRoot, hstat]
  dsimp only
  rw [hwalk, List.filterMap_map, List.filterMap_map]
  exact Prod.ext rfl (List.filterMap_eq_nil_iff.2 fun _ _ => rfl)

/-- What a root that is a file contributes, if it passes. -/
theorem ofRoot_of_file {f : Filter} {bytes : List UInt8} (hstat : t.stat path = .ok (.file bytes))
    (hentry : entryAt r f path = some e) : ofRoot g t r f p path = ([e], []) := by
  rw [ofRoot, hstat]
  simp [hentry]

/-- **Where an entry comes from**: a root that leads nowhere, a root that is a file, or a
file below a root. -/
theorem mem_ofRoot {f : Filter} (h : e ∈ (ofRoot g t r f p root).1) :
    (e.path = root ∧ ∃ fault, t.stat root = .error fault) ∧ entryOf r f e.path = some e ∨
    e.path = root ∧ entryAt r f e.path = some e ∨
    t.stat root = .ok .directory ∧ .file e.path ∈ g.walk t (p.walkOptions f) root ∧
      entryBelow r f root e.path = some e := by
  cases hstat : t.stat root with
  | error fault =>
    rw [ofRoot, hstat] at h
    have hof : entryOf r f root = some e := by simpa using h
    obtain ⟨rfl, -⟩ := entryOf_eq_some_iff.1 hof
    exact .inl ⟨⟨rfl, fault, rfl⟩, hof⟩
  | ok item =>
    cases item with
    | directory => exact .inr (.inr ⟨rfl, (mem_ofRoot_directory hstat).1 h⟩)
    | file | link =>
      rw [ofRoot, hstat] at h
      have hat : entryAt r f root = some e := by simpa using h
      obtain ⟨rfl, -⟩ := entryOf_eq_some_iff.1 (entryAt_eq_some_iff.1 hat).2
      exact .inr (.inl ⟨rfl, hat⟩)

/-! ## The entries chosen -/

/-- **Every entry chosen is of a language the plan admits and passes the plan's tests of
files**, unless it stands for a root that leads nowhere: that is reported whatever its name is. -/
theorem choose_admits (g : Engine) (t : FileTree) (h : p.Accepted g r) : ∃ es log, choose g t r p = .ok (es, log) ∧
    ∀ e ∈ es, e.Detected r ∧ p.AdmitsLanguage e.languageId ∧
      (p.AdmitsFile g e.path ∨ e.path ∈ p.roots ∧ ∃ fault, t.stat e.path = .error fault) := by
  refine ⟨_, _, choose_of_accepted h t, fun e he => ?_⟩
  obtain ⟨root, hroot, he⟩ := exists_root he
  have hof : entryOf r (p.filter g) e.path = some e → e.Detected r ∧ p.AdmitsLanguage e.languageId := by
    intro hof
    obtain ⟨-, d, hd, hid, haccepts⟩ := entryOf_eq_some_iff.1 hof
    exact ⟨⟨d, hd, hid⟩, hid ▸ (acceptsLanguage_filter g p d).1 haccepts⟩
  rcases mem_ofRoot he with ⟨⟨rfl, hfault⟩, hentry⟩ | ⟨-, hentry⟩ | ⟨-, -, hentry⟩
  · obtain ⟨hdetected, hlanguage⟩ := hof hentry
    exact ⟨hdetected, hlanguage, .inr ⟨hroot, hfault⟩⟩
  · obtain ⟨hfile, hentry⟩ := entryAt_eq_some_iff.1 hentry
    obtain ⟨hdetected, hlanguage⟩ := hof hentry
    exact ⟨hdetected, hlanguage, .inl ((acceptsFile_filter h e.path).1 hfile)⟩
  · obtain ⟨-, hfile, hentry⟩ := entryBelow_eq_some_iff.1 hentry
    obtain ⟨hdetected, hlanguage⟩ := hof hentry
    exact ⟨hdetected, hlanguage, .inl ((acceptsFile_filter h e.path).1 hfile)⟩

/-! ## Plans that ask nothing of files -/

theorem accepted_roots (g : Engine) (r : Registry) (roots : List Path) : Accepted { roots } g r :=
  ⟨by simp, by simp [patterns]⟩

theorem entryAt_of_detect {d : Definition} (hd : r.detect? path = some d) :
    entryAt r {} path = some ⟨path, d.id⟩ := by
  simp [entryAt, entryOf, Filter.acceptsFile, Filter.acceptsLanguage, hd]

theorem entryBelow_of_detect {d : Definition} (hd : r.detect? path = some d) :
    entryBelow r {} root path = some ⟨path, d.id⟩ := entryAt_of_detect hd

/-- What a directory contributes in which a walk finds just these files, all in a known language. -/
theorem ofRoot_of_detect (paths : List Path) (id : Path → String) (hstat : t.stat root = .ok .directory)
    (hwalk : g.walk t (p.walkOptions {}) root = paths.map .file)
    (hid : ∀ path ∈ paths, (r.detect? path).map Definition.id = some (id path)) :
    ofRoot g t r {} p root = (paths.map fun path => ⟨path, id path⟩, []) := by
  rw [ofRoot_of_walk hstat hwalk, ← List.filterMap_eq_map]
  refine Prod.ext (List.filterMap_congr fun path hpath => ?_) rfl
  obtain ⟨d, hd, hd'⟩ := Option.map_eq_some_iff.1 (hid path hpath)
  rw [entryBelow_of_detect hd, hd']
  rfl

/-- All that the roots contribute is chosen. -/
theorem choose_roots {roots : List Path} {contributed : List (List Entry × Log)}
    (h : List.Forall₂ (fun root found => ofRoot g t r {} { roots } root = found) roots contributed) :
    choose g t r { roots } =
      .ok (dropRepeated (sortEntries (contributed.flatMap (·.1))), contributed.flatMap (·.2)) := by
  have hresults : roots.map (ofRoot g t r {} { roots }) = contributed := by
    rw [← List.forall₂_eq_eq_eq, List.forall₂_map_left_iff]
    exact h
  rw [choose_of_accepted (accepted_roots g r roots), show filter { roots } g = {} from rfl, ofRoots, hresults]

/-! ## A root that leads nowhere -/

/-- A plan with one root, which leads nowhere in an empty tree and has an excluded extension. -/
def missingRoot : Plan := { roots := [.ofString "gone.c"], excludeExtensions := ["c"] }

theorem accepted_missingRoot (g : Engine) : missingRoot.Accepted g .onlyC :=
  ⟨by simp [missingRoot], by simp [missingRoot, patterns]⟩

theorem choose_missingRoot (g : Engine) :
    ∃ log, choose g {} .onlyC missingRoot = .ok ([⟨.ofString "gone.c", "c"⟩], log) := by
  have hstat : ({} : FileTree).stat (.ofString "gone.c") = .error .missing := by cbv
  have hdetect : Registry.onlyC.detect? (.ofString "gone.c") = some .plainC :=
    Registry.detect?_onlyC (by decide +kernel)
  rw [choose_of_accepted (accepted_missingRoot g)]
  simp [ofRoots, ofRoot, missingRoot, hstat, entryOf, hdetect, Definition.plainC, Filter.acceptsLanguage, filter,
    sortEntries, dropRepeated, dropRepeated.dropFrom]

theorem choose_admits_missingRoot : missingRoot.Accepted .standard .onlyC ∧
    ∃ es log, choose .standard {} .onlyC missingRoot = .ok (es, log) ∧ ∀ e ∈ es,
      e.Detected .onlyC ∧ missingRoot.AdmitsLanguage e.languageId ∧
        (missingRoot.AdmitsFile .standard e.path ∨
          e.path ∈ missingRoot.roots ∧ ∃ fault, FileTree.stat {} e.path = .error fault) :=
  ⟨accepted_missingRoot _, choose_admits _ {} (accepted_missingRoot _)⟩

/-- A root that leads nowhere is chosen though its extension is excluded. -/
theorem not_choose_admitsFile : ¬ ∀ (t : FileTree) (r : Registry) (p : Plan) (es : List Entry) (log : Log),
    p.Accepted .standard r → choose .standard t r p = .ok (es, log) →
      ∀ e ∈ es, e.Detected r ∧ p.AdmitsLanguage e.languageId ∧ p.AdmitsFile .standard e.path := by
  intro h
  obtain ⟨log, hchoose⟩ := choose_missingRoot .standard
  obtain ⟨-, -, hfile⟩ := h _ _ _ _ log (accepted_missingRoot _) hchoose _ List.mem_cons_self
  exact hfile.extension "c" (by decide +kernel) "c" (by simp [missingRoot]) (by decide +kernel)

end Plan

end LineCensus
