/-
What a plan selects below a directory, when there are no links and no ignore files. The walk
enters a directory by its name alone and tests files by their paths; since the names below the
root are the last parts of a path (`partsBelow?_descend`), both are tests of the names from the
root down to the file (`mem_ofRoot_iff`), and each such way down is chosen once
(`choose_iff_selects`).

Two things a plan can name are out of reach: what lies below a root that is spelled as a hyphen, and
what lies in a directory whose path is too long to be read (`not_choosesSelected`).
-/
import LineCensus.Proofs.PlanFilters
import LineCensus.Proofs.WalkLaws

namespace LineCensus.Plan

open LineCensus.Language Selection LineCensus.Path FileTree

variable {g : Engine} {t : FileTree} {r : Registry} {p : Plan} {root : Path} {place : Place}
  {dirs : List (List UInt8)} {n : List UInt8} {e : Entry}

theorem directoryNames_descend (hroot : root.bytes ≠ []) (hnames : ∀ m ∈ dirs ++ [n], IsName m) :
    Filter.directoryNames root (root.descend (dirs ++ [n])) = dirs.filterMap text? := by
  rw [Filter.directoryNames, partsBelow?_descend hroot hnames, Option.getD_some, List.map_append, List.map_singleton,
    List.dropLast_concat, List.filterMap_map]
  rfl

/-- One of the directories on the way to a file passes. -/
theorem acceptsParents_filter (h : p.Accepted g r) (hroot : root.bytes ≠ [])
    (hnames : ∀ m ∈ dirs ++ [n], IsName m) :
    (p.filter g).acceptsParents root (root.descend (dirs ++ [n])) = true ↔
      ∀ pattern, p.matchDirectory = some pattern →
        ∃ d ∈ dirs, ∃ name, text? d = some name ∧ g.Matches pattern name := by
  rw [Filter.acceptsParents, directoryNames_descend hroot hnames, filter, all_compiled_iff (h.compiles (by simp))]
  refine forall₂_congr fun pattern _ => ?_
  simp only [List.any_eq_true, List.mem_filterMap, Engine.Matches]
  constructor
  · rintro ⟨test, htest, name, ⟨d, hd, hname⟩, hmatch⟩
    exact ⟨d, hd, name, hname, test, htest, hmatch⟩
  · rintro ⟨d, hd, name, hname, test, htest, hmatch⟩
    exact ⟨test, htest, name, ⟨d, hd, hname⟩, hmatch⟩

/-- A plan selects the file of a name in the directories of these names below a root: its
language is known by its path and admitted, its path and the way to it pass the tests, and no
name hides it unless hidden names count. -/
structure Selects (p : Plan) (g : Engine) (r : Registry) (root : Path) (dirs : List (List UInt8)) (n : List UInt8)
    (id : String) : Prop where
  detected : Entry.Detected ⟨root.descend (dirs ++ [n]), id⟩ r
  language : p.AdmitsLanguage id
  file : p.AdmitsFile g (root.descend (dirs ++ [n]))
  way : p.AdmitsWay g dirs
  shown : p.includeHidden = true ∨ ∀ m ∈ dirs ++ [n], ¬ Hides m

theorem selects_iff (h : p.Accepted g r) (hroot : root.bytes ≠ []) (hnames : ∀ m ∈ dirs ++ [n], IsName m)
    (hpath : e.path = root.descend (dirs ++ [n])) : p.Selects g r root dirs n e.languageId ↔
      (p.includeHidden = true ∨ ∀ m ∈ dirs ++ [n], ¬ Hides m) ∧
        (∀ d ∈ dirs, (p.filter g).enters d = true) ∧ entryBelow r (p.filter g) root e.path = some e := by
  rw [entryBelow_eq_some_iff, entryOf_eq_some_iff, acceptsFile_filter h, hpath, acceptsParents_filter h hroot hnames]
  simp only [enters_filter, acceptsLanguage_filter]
  constructor
  · rintro ⟨⟨d, hd, hid⟩, hlanguage, hfile, hway, hshown⟩
    exact ⟨hshown, hway.entered, hway.matched, hfile, trivial, d, hd, hid, hid ▸ hlanguage⟩
  · rintro ⟨hshown, hentered, hmatched, hfile, -, d, hd, hid, hlanguage⟩
    exact ⟨⟨d, hd, hid⟩, hid ▸ hlanguage, hfile, ⟨hmatched, hentered⟩, hshown⟩

/-- A plan whose only root is a directory, to be carried out in a tree without links and ignore files. -/
structure Searches (p : Plan) (g : Engine) (r : Registry) (t : FileTree) (root : Path) (place : Place) : Prop where
  sound : t.Sound
  linkless : t.Linkless
  ignoreFree : t.IgnoreFree
  accepted : p.Accepted g r
  roots : p.roots = [root]
  directory : t.locate true root = .ok (place, .directory)

/-- A file that a plan selects, by its path and its language, where it can be reached. -/
def Reaches (p : Plan) (g : Engine) (r : Registry) (t : FileTree) (root : Path) (place : Place) (e : Entry) : Prop :=
  ∃ dirs n bytes, e.path = root.descend (dirs ++ [n]) ∧ t.item? (place ++ (dirs ++ [n])) = some (.file bytes) ∧
    (root.descend dirs).isTooLong = false ∧ p.Selects g r root dirs n e.languageId

/-- **The entries below a directory.** -/
theorem mem_ofRoot_iff (hg : g.Lawful) (h : p.Searches g r t root place) :
    e ∈ (ofRoot g t r (p.filter g) p root).1 ↔
      root.same (ofString "-") = false ∧ p.Reaches g r t root place e := by
  have hbytes := (leads_of_locate h.directory).bytes_ne
  rw [mem_ofRoot_directory (stat_eq_ok_iff.2 ⟨place, h.directory⟩),
    hg.file_mem_iff h.sound h.linkless h.ignoreFree h.directory, and_assoc, Reaches]
  refine and_congr_right fun _ => ?_
  simp only [← exists_and_right]
  refine exists_congr fun dirs => exists_congr fun n => exists_congr fun bytes => ?_
  constructor
  · rintro ⟨⟨hpath, hitem, hlong, hshown, henters⟩, hentry⟩
    have hnames := h.sound.isName_of_item? hitem
    exact ⟨hpath, hitem, hlong, (selects_iff h.accepted hbytes hnames hpath).2 ⟨hshown, henters, hentry⟩⟩
  · rintro ⟨hpath, hitem, hlong, hselects⟩
    have hnames := h.sound.isName_of_item? hitem
    obtain ⟨hshown, henters, hentry⟩ := (selects_iff h.accepted hbytes hnames hpath).1 hselects
    exact ⟨⟨hpath, hitem, hlong, hshown, henters⟩, hentry⟩

/-- With one root that is a directory no entry is lost to another. -/
theorem mem_ofRoots_iff (hg : g.Lawful) (h : p.Searches g r t root place) :
    e ∈ (ofRoots g t r (p.filter g) p).1 ↔ e ∈ (ofRoot g t r (p.filter g) p root).1 := by
  have hstat := stat_eq_ok_iff.2 ⟨place, h.directory⟩
  have hone : ∀ {e}, e ∈ (ofRoots g t r (p.filter g) p).1 → e ∈ (ofRoot g t r (p.filter g) p root).1 := by
    intro e he
    obtain ⟨root', hroot', he⟩ := exists_root he
    rw [h.roots, List.mem_singleton] at hroot'
    exact hroot' ▸ he
  refine ⟨hone, fun he => ?_⟩
  obtain ⟨e', he', hparts⟩ := exists_mem_ofRoots (p := p) (by rw [h.roots]; exact List.mem_singleton_self root) he
  -- The entry kept for this path is the same, since the path settles the language.
  obtain ⟨hfound, hentry⟩ := (mem_ofRoot_directory hstat).1 he
  obtain ⟨hfound', hentry'⟩ := (mem_ofRoot_directory hstat).1 (hone he')
  obtain ⟨names, -, hnames, hpath, -⟩ := hg.descends h.sound h.linkless h.directory hfound
  obtain ⟨names', -, hnames', hpath', -⟩ := hg.descends h.sound h.linkless h.directory hfound'
  have hsame : e'.path = e.path := by
    rw [hpath, hpath'] at hparts ⊢
    rw [descend_injective (leads_of_locate h.directory).bytes_ne hnames' hnames hparts]
  rw [hsame] at hentry'
  rwa [Option.some.inj (hentry'.symm.trans hentry)] at he'

/-- The warnings of a search. -/
theorem mem_warnings_iff (hg : g.Lawful) (h : p.Searches g r t root place) {warning : LogRecord} :
    warning ∈ (ofRoots g t r (p.filter g) p).2 ↔
      root.same (ofString "-") = false ∧ ∃ dirs n, t.item? (place ++ (dirs ++ [n])) = some .directory ∧
        (root.descend dirs).isTooLong = false ∧ (root.descend (dirs ++ [n])).isTooLong = true ∧
        (p.includeHidden = true ∨ ∀ m ∈ dirs ++ [n], ¬ Hides m) ∧ (∀ d ∈ dirs ++ [n], p.Enters g d) ∧
        warning = .selectionWarning
          s!"{root.display}: {Walk.faultText (root.descend (dirs ++ [n])) .nameTooLong}" := by
  have hwarning : warning ∈ (ofRoots g t r (p.filter g) p).2 ↔
      ∃ text, .fault text ∈ g.walk t (p.walkOptions (p.filter g)) root ∧
        warning = .selectionWarning s!"{root.display}: {text}" := by
    simp only [ofRoots, ofRoot, h.roots, stat_eq_ok_iff.2 ⟨place, h.directory⟩, List.map_singleton,
      List.flatMap_singleton, List.mem_filterMap]
    constructor
    · rintro ⟨x, hx, hwarning⟩
      cases x with
      | file => cases hwarning
      | fault text => exact ⟨text, hx, (Option.some.inj hwarning).symm⟩
    · rintro ⟨text, htext, rfl⟩
      exact ⟨_, htext, rfl⟩
  rw [hwarning]
  simp only [hg.fault_mem_iff h.sound h.linkless h.ignoreFree h.directory, walkOptions, enters_filter]
  constructor
  · rintro ⟨-, ⟨hhyphen, dirs, n, hitem, hlong, hlong', hshown, hentered, rfl⟩, rfl⟩
    exact ⟨hhyphen, dirs, n, hitem, hlong, hlong', hshown, hentered, rfl⟩
  · rintro ⟨hhyphen, dirs, n, hitem, hlong, hlong', hshown, hentered, rfl⟩
    exact ⟨_, ⟨hhyphen, dirs, n, hitem, hlong, hlong', hshown, hentered, rfl⟩, rfl⟩

/-- **What a plan selects below a directory is what is chosen**, each file once, if the directory that
holds it has a path short enough to be read; but nothing is chosen where the root is spelled as a hyphen,
which stands for something else. The only warnings are about directories that cannot be read. -/
theorem choose_iff_selects (hg : g.Lawful) (h : p.Searches g r t root place) :
    ∃ es log, choose g t r p = .ok (es, log) ∧ (es.map Entry.path).Nodup ∧
      (∀ path id, ⟨path, id⟩ ∈ es ↔ root.same (ofString "-") = false ∧ ∃ dirs n bytes,
        path = root.descend (dirs ++ [n]) ∧ t.item? (place ++ (dirs ++ [n])) = some (.file bytes) ∧
        (root.descend dirs).isTooLong = false ∧ p.Selects g r root dirs n id) ∧
      ∀ warning, warning ∈ log ↔ root.same (ofString "-") = false ∧ ∃ dirs n,
        t.item? (place ++ (dirs ++ [n])) = some .directory ∧
        (root.descend dirs).isTooLong = false ∧ (root.descend (dirs ++ [n])).isTooLong = true ∧
        (p.includeHidden = true ∨ ∀ m ∈ dirs ++ [n], ¬ Hides m) ∧ (∀ d ∈ dirs ++ [n], p.Enters g d) ∧
        warning = .selectionWarning
          s!"{root.display}: {Walk.faultText (root.descend (dirs ++ [n])) .nameTooLong}" := by
  refine ⟨(ofRoots g t r (p.filter g) p).1, (ofRoots g t r (p.filter g) p).2, choose_of_accepted h.accepted t,
    nodup_paths_ofRoots, fun path id => ?_, fun warning => mem_warnings_iff hg h⟩
  rw [mem_ofRoots_iff hg h, mem_ofRoot_iff hg h]
  rfl

/-- A plan for the directory where paths start. -/
def startingHere : Plan := { roots := [ofString "."] }

theorem searches_startingHere (g : Engine) (r : Registry) (ht : t.Sound) (hlinks : t.Linkless) (hfree : t.IgnoreFree) :
    startingHere.Searches g r t (ofString ".") t.here :=
  ⟨ht, hlinks, hfree, accepted_roots g r _, rfl, locate_here t⟩

theorem searches_someC : startingHere.Searches .standard .onlyC (someC "src") (ofString ".") [] :=
  have hlinks : (someC "src").Linkless := linkless_oneFile _ _ _
  searches_startingHere _ _ (sound_oneFile (by decide +kernel) (by decide +kernel) []) hlinks
    (hlinks.ignoreFree rfl (by decide +kernel))

theorem ofRoot_someC : ofRoot .standard (someC "src") .onlyC {} startingHere (ofString ".") =
    ([⟨ofString "./src/a.c", "c"⟩], []) :=
  ofRoot_of_detect [ofString "./src/a.c"] (fun _ => "c") (stat_eq_ok_iff.2 ⟨_, locate_here _⟩) (by cbv)
    (List.forall_mem_singleton.2 (Registry.map_id_detect?_onlyC (by decide +kernel)))

theorem choose_someC :
    choose .standard (someC "src") .onlyC startingHere = .ok ([⟨ofString "./src/a.c", "c"⟩], []) := by
  rw [startingHere, choose_roots (.cons ofRoot_someC .nil)]
  simp [sortEntries, dropRepeated, dropRepeated.dropFrom]

theorem choose_iff_selects_someC : startingHere.Searches .standard .onlyC (someC "src") (ofString ".") [] ∧
    choose .standard (someC "src") .onlyC startingHere = .ok ([⟨ofString "./src/a.c", "c"⟩], []) ∧
    ∀ path id, ⟨path, id⟩ ∈ [(⟨ofString "./src/a.c", "c"⟩ : Entry)] ↔
      (ofString ".").same (ofString "-") = false ∧ ∃ dirs n bytes, path = (ofString ".").descend (dirs ++ [n]) ∧
        (someC "src").item? ([] ++ (dirs ++ [n])) = some (.file bytes) ∧
        ((ofString ".").descend dirs).isTooLong = false ∧
        startingHere.Selects .standard .onlyC (ofString ".") dirs n id := by
  obtain ⟨es, log, hchoose, -, hselects, -⟩ := choose_iff_selects Engine.standard_lawful searches_someC
  rw [choose_someC] at hchoose
  cases hchoose
  exact ⟨searches_someC, choose_someC, hselects⟩

/-! ## Out of reach -/

/-- Just what a plan selects below its root is chosen, wherever it is, and nothing is warned of. -/
def ChoosesSelected (p : Plan) (g : Engine) (r : Registry) (t : FileTree) (root : Path) (place : Place) : Prop :=
  ∃ es, choose g t r p = .ok (es, []) ∧ ∀ path id, ⟨path, id⟩ ∈ es ↔ ∃ dirs n bytes,
    path = root.descend (dirs ++ [n]) ∧ t.item? (place ++ (dirs ++ [n])) = some (.file bytes) ∧
      p.Selects g r root dirs n id

/-- A file that is selected and cannot be reached is not chosen. -/
theorem not_choosesSelected_of (hg : g.Lawful) (h : p.Searches g r t root place) {bytes : List UInt8} {id : String}
    (hitem : t.item? (place ++ (dirs ++ [n])) = some (.file bytes)) (hselects : p.Selects g r root dirs n id)
    (hreach : root.same (ofString "-") = true ∨ (root.descend dirs).isTooLong = true) :
    ¬ p.ChoosesSelected g r t root place := by
  rintro ⟨es, hchoose, hall⟩
  have hchosen := (hall _ _).2 ⟨dirs, n, bytes, rfl, hitem, hselects⟩
  rw [choose_of_accepted h.accepted] at hchoose
  have hes : (ofRoots g t r (p.filter g) p).1 = es := congrArg Prod.fst (Except.ok.inj hchoose)
  rw [← hes, mem_ofRoots_iff hg h, mem_ofRoot_iff hg h] at hchosen
  obtain ⟨hhyphen, dirs', n', bytes', hpath, hitem', hlong, -⟩ := hchosen
  have hnames : dirs ++ [n] = dirs' ++ [n'] :=
    descend_injective (leads_of_locate h.directory).bytes_ne (h.sound.isName_of_item? hitem)
      (h.sound.isName_of_item? hitem') (congrArg parts hpath)
  obtain ⟨rfl, -⟩ := List.append_inj' hnames rfl
  rcases hreach with hsame | hlong'
  · exact Bool.false_ne_true (hhyphen.symm.trans hsame)
  · exact Bool.false_ne_true (hlong.symm.trans hlong')

/-- A plan for a directory that is named by a hyphen. -/
def hyphened : Plan := { roots := [ofString "-"] }

/-- Directories of one name, each in the one before, and an empty file `a.c` in the last one. -/
def deepC (d : List UInt8) (depth : Nat) : FileTree where
  items := ((List.range depth).map fun k => (List.replicate (k + 1) d, .directory)) ++
    [(List.replicate depth d ++ [Text.encode "a.c".toList], .file [])]

variable {d : List UInt8} {depth : Nat}

theorem mem_deepC {x : Place × Item} : x ∈ (deepC d depth).items ↔
    (∃ k < depth, x = (List.replicate (k + 1) d, .directory)) ∨
      x = (List.replicate depth d ++ [Text.encode "a.c".toList], .file []) := by
  simp [deepC, eq_comm]

theorem sound_deepC (hd : IsName d) (depth : Nat) : (deepC d depth).Sound := by
  have hdistinct : ((deepC d depth).items.map Prod.fst).Nodup := by
    -- No two places are of the same length.
    refine List.Nodup.of_map List.length ?_
    have hlengths : ((deepC d depth).items.map Prod.fst).map List.length = (List.range (depth + 1)).map (· + 1) := by
      simp [deepC, List.range_succ, Function.comp_def]
    rw [hlengths]
    exact List.nodup_range.map fun a b h => Nat.succ.inj h
  have hplaces : ∀ x ∈ (deepC d depth).items, x.1 ≠ [] ∧ ∀ n ∈ x.1, IsName n := by
    intro x hx
    rcases mem_deepC.1 hx with ⟨k, -, rfl⟩ | rfl
    · exact ⟨by simp, fun n hn => (List.eq_of_mem_replicate hn).symm ▸ hd⟩
    · refine ⟨by simp, List.forall_mem_append.2 ⟨fun n hn => (List.eq_of_mem_replicate hn).symm ▸ hd, ?_⟩⟩
      exact List.forall_mem_singleton.2 (by decide +kernel)
  refine ⟨hdistinct, hplaces, fun x hx => ?_⟩
  have hheld : ∀ k ≤ depth, (deepC d depth).item? (List.replicate k d) = some .directory := by
    intro k hk
    cases k with
    | zero => rfl
    | succ k => exact item?_of_mem hdistinct (by simp) (mem_deepC.2 (.inl ⟨k, hk, rfl⟩))
  rcases mem_deepC.1 hx with ⟨k, hk, rfl⟩ | rfl
  · rw [List.dropLast_replicate]
    exact hheld k (Nat.le_of_lt hk)
  · rw [List.dropLast_concat]
    exact hheld depth (Nat.le_refl _)

theorem linkless_deepC (d : List UInt8) (depth : Nat) : (deepC d depth).Linkless := by
  intro x hx
  rcases mem_deepC.1 hx with ⟨k, -, rfl⟩ | rfl <;> rfl

/-- The names of ignore files have few bytes. -/
theorem ignoreFree_deepC (hd : 10 < d.length) (depth : Nat) : (deepC d depth).IgnoreFree := by
  have hshort : ∀ name ∈ [".ignore", ".gitignore", "exclude"], (Text.encode name.toList).length ≤ 10 := by
    decide +kernel
  refine (linkless_deepC d depth).ignoreFree rfl fun x hx name hname => ?_
  rcases mem_deepC.1 hx with ⟨k, -, rfl⟩ | rfl
  · rw [List.replicate_succ', List.getLast?_concat]
    intro hsame
    have := hshort name hname
    rw [← Option.some.inj hsame] at this
    omega
  · rw [List.getLast?_concat]
    revert name
    decide +kernel

/-- A plan that asks nothing of files selects every `a.c` below its root. -/
theorem selects_file (g : Engine) (root : Path) (dirs : List (List UInt8)) (hroot : root.bytes ≠ [])
    (hdirs : ∀ m ∈ dirs, IsName m ∧ ¬ Hides m) :
    Selects { roots := [root] } g .onlyC root dirs (Text.encode "a.c".toList) "c" := by
  have hfile : IsName (Text.encode "a.c".toList) := by decide +kernel
  have hnames : ∀ m ∈ dirs ++ [Text.encode "a.c".toList], IsName m ∧ ¬ Hides m :=
    List.forall_mem_append.2 ⟨hdirs, List.forall_mem_singleton.2 ⟨hfile, by decide +kernel⟩⟩
  have hdetect : Registry.onlyC.detect? (root.descend (dirs ++ [Text.encode "a.c".toList])) = some .plainC := by
    refine Registry.detect?_onlyC ?_
    rw [extensionText?, extension?, fileName?, parts_descend hroot fun m hm => (hnames m hm).1, List.map_append,
      ← List.append_assoc, List.map_singleton, List.getLast?_concat]
    decide +kernel
  exact ⟨⟨_, hdetect, rfl⟩, .inl rfl, ⟨by simp, by simp, by simp⟩, ⟨by simp, by simp [Enters]⟩,
    .inr fun m hm => (hnames m hm).2⟩

/-- A name as long as names can be. -/
def longName : List UInt8 := List.replicate 255 100

theorem length_longName : longName.length = 255 := List.length_replicate

theorem isTooLong_deep : ((ofString ".").descend (List.replicate 17 longName)).isTooLong = true := by
  have hlength := length_add_le_descend (ofString ".") (List.replicate 17 longName)
  rw [List.length_flatten, List.map_replicate, length_longName, List.sum_replicate, smul_eq_mul] at hlength
  rw [isTooLong_iff]
  omega

/-- What a plan selects below a hyphen is not chosen, nor is what lies too deep. -/
theorem not_choosesSelected :
    (hyphened.Searches .standard .onlyC (someC "-") (ofString "-") [Text.encode "-".toList] ∧
      ¬ hyphened.ChoosesSelected .standard .onlyC (someC "-") (ofString "-") [Text.encode "-".toList]) ∧
    startingHere.Searches .standard .onlyC (deepC longName 17) (ofString ".") [] ∧
      ¬ startingHere.ChoosesSelected .standard .onlyC (deepC longName 17) (ofString ".") [] := by
  have hg := Engine.standard_lawful
  constructor
  · have hlinks : (someC "-").Linkless := linkless_oneFile _ _ _
    have hsearches : hyphened.Searches .standard .onlyC (someC "-") (ofString "-") [Text.encode "-".toList] :=
      ⟨sound_oneFile (by decide +kernel) (by decide +kernel) [], hlinks, hlinks.ignoreFree rfl (by decide +kernel),
        accepted_roots _ _ _, rfl, by cbv⟩
    have hitem : (someC "-").item? ([Text.encode "-".toList] ++ ([] ++ [Text.encode "a.c".toList])) =
        some (.file []) := by cbv
    have hselects := selects_file .standard (ofString "-") [] (by decide +kernel) (by simp)
    exact ⟨hsearches, not_choosesSelected_of hg hsearches hitem hselects (.inl (by decide +kernel))⟩
  · have hname : IsName longName := by decide +kernel
    have hsearches : startingHere.Searches .standard .onlyC (deepC longName 17) (ofString ".") [] :=
      searches_startingHere _ _ (sound_deepC hname 17) (linkless_deepC _ _)
        (ignoreFree_deepC (by rw [length_longName]; decide) 17)
    have hitem : (deepC longName 17).item? ([] ++ (List.replicate 17 longName ++ [Text.encode "a.c".toList])) =
        some (.file []) := (sound_deepC hname 17).item?_of_mem (mem_deepC.2 (.inr rfl))
    have hdirs : ∀ m ∈ List.replicate 17 longName, IsName m ∧ ¬ Hides m := fun m hm => by
      rw [List.eq_of_mem_replicate hm]
      exact ⟨hname, by decide +kernel⟩
    have hselects := selects_file .standard (ofString ".") _ (by decide +kernel) hdirs
    exact ⟨hsearches, not_choosesSelected_of hg hsearches hitem hselects (.inr isTooLong_deep)⟩

end LineCensus.Plan
