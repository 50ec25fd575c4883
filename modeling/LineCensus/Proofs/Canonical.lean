/-
The choice of entries does not depend on how it comes about. A tree that lists its items in another
order lets a walk find the same, in another order (`Relisted.perm_run`): at each directory the walk
asks for what lies there and for the rules, and both are looked up by paths. So every root
contributes the same entries, and what is chosen are those of all roots, each path once
(`mem_keys_ofRoots_iff`).

Two entries with one path are of one language, since that is found by the path (`Registry.detect?_congr`).
Hence it makes no difference which of them is kept, and since an ascending list is determined by
its members (`keys_eq_of_ascending`), the list that is chosen is determined by what the roots
contribute.
-/
import LineCensus.Proofs.PlanFilters
import LineCensus.Proofs.TreeChange

namespace LineCensus

open LineCensus.Language

variable {g g' : Engine} {t t' : FileTree} {r : Registry} {f : Filter} {p : Plan}

/-! ## A walk through a tree in another order -/

namespace FileTree

open LineCensus.Ignore LineCensus.Walk

variable {o : WalkOptions} {fuel : Nat} {rules : Chain} {way : Way} {place : Place} {path root : Path} {item : Item}

theorem Relisted.perm_entries (h : t.Relisted t') (place : Place) : (t'.entries place).Perm (t.entries place) :=
  h.items.filterMap _

theorem Relisted.depthLimit_eq (h : t.Relisted t') : depthLimit t' = depthLimit t := by
  rw [depthLimit, depthLimit, h.items.length_eq, h.items.foldl_eq']
  exact fun x _ y _ n => by dsimp only; omega

theorem Relisted.stat_eq (h : t.Relisted t') : t'.stat = t.stat := by
  funext p
  rw [stat, stat, h.locate]

theorem Relisted.read_eq (h : t.Relisted t') : t'.read = t.read := by
  funext p
  rw [read, read, h.stat_eq]

/-- Rules are looked up by paths. -/
theorem Relisted.ofDirectory_eq (h : t.Relisted t') (directory : Path) :
    Level.ofDirectory t' directory = Level.ofDirectory t directory := by
  simp only [Level.ofDirectory, Level.rulesAt, Level.repository?, Level.firstLine?, hasPath, h.read_eq, h.stat_eq]

theorem Relisted.ofUser_eq (h : t.Relisted t') (directory : Path) :
    Level.ofUser t' directory = Level.ofUser t directory := by
  simp only [Level.ofUser, Level.rulesAt, h.userIgnore, h.read_eq]

theorem Relisted.resolve_eq (h : t.Relisted t') (o : WalkOptions) (way : Way) (path : Path) (place : Place)
    (item : Item) : resolve t' o way path place item = resolve t o way path place item := by
  cases item <;> simp only [resolve, h.locate]

/-- A walk finds the same, directory by directory. -/
theorem Relisted.perm_visit (h : t.Relisted t') :
    (visit t' o fuel rules way place path).Perm (visit t o fuel rules way place path) := by
  induction fuel generalizing rules way place path with
  | zero => exact .refl _
  | succ fuel ih =>
    rw [visit, visit, h.ofDirectory_eq]
    split
    next => exact .refl _
    next =>
      refine (h.perm_entries place).flatMap ?_
      rintro ⟨name, item⟩ -
      dsimp only
      rw [h.resolve_eq]
      split
      next => exact .refl _
      next =>
        split
        next => exact .refl _
        next =>
          split
          next =>
            split
            next => exact ih
            next => exact .refl _
          next => exact .refl _
          next => exact .refl _

theorem Relisted.perm_run (h : t.Relisted t') (o : WalkOptions) (root : Path) :
    (run t' o root).Perm (run t o root) := by
  rw [run, run, h.locate, h.depthLimit_eq, funext h.ofDirectory_eq, h.here, h.ofUser_eq]
  split
  next => exact .refl _
  next =>
    split
    next => exact .refl _
    next => exact h.perm_visit

end FileTree

/-- An engine reads patterns as another does and finds in a tree what the other finds in its tree, in
whatever order. -/
structure Engine.Reorders (g : Engine) (t : FileTree) (g' : Engine) (t' : FileTree) : Prop where
  compile : g'.compile = g.compile
  walk : ∀ o root, (g'.walk t' o root).Perm (g.walk t o root)

theorem Engine.standard_reorders (h : t.Relisted t') : standard.Reorders t standard t' := ⟨rfl, h.perm_run⟩

theorem Plan.filter_congr (h : g'.compile = g.compile) (p : Plan) : p.filter g' = p.filter g := by
  simp only [filter, funext fun s => show g'.test? s = g.test? s by rw [Engine.test?, Engine.test?, h]]

theorem Plan.Accepted.congr (h : g'.compile = g.compile) (hp : p.Accepted g r) : p.Accepted g' r :=
  ⟨hp.languages, fun pattern hpattern => by simpa only [Engine.IsPattern, h] using hp.patterns pattern hpattern⟩

/-! ## What is chosen -/

/-- The language of a path does not depend on how the path is spelled. -/
theorem Language.Registry.detect?_congr {p q : Path} (h : p.parts = q.parts) : r.detect? p = r.detect? q := by
  have hname : p.fileName? = q.fileName? := by rw [Path.fileName?, Path.fileName?, h]
  simp only [detect?, Path.fileNameText?, Path.extensionText?, Path.extension?, hname]

namespace Entry

/-- What tells entries apart: the path, but not how it is spelled, and the language. -/
def key (e : Entry) : List Path.Part × String := (e.path.parts, e.languageId)

/-- Two entries with the same path and the same language. -/
def Alike (a b : Entry) : Prop := a.path.same b.path = true ∧ a.languageId = b.languageId

theorem alike_iff {a b : Entry} : a.Alike b ↔ a.key = b.key := by
  rw [Alike, Path.same_iff, key, key, Prod.mk.injEq]

theorem forall₂_alike_iff {es es' : List Entry} : List.Forall₂ Alike es es' ↔ es.map key = es'.map key := by
  have halike : Alike = fun a b => a.key = b.key := by
    funext a b
    exact propext alike_iff
  rw [← List.forall₂_eq_eq_eq, List.forall₂_map_left_iff, List.forall₂_map_right_iff, halike]

theorem Detected.key_eq {a b : Entry} (ha : a.Detected r) (hb : b.Detected r) (h : a.path.parts = b.path.parts) :
    a.key = b.key := by
  obtain ⟨d, hd, hid⟩ := ha
  obtain ⟨d', hd', hid'⟩ := hb
  rw [Registry.detect?_congr h, hd'] at hd
  cases hd
  rw [key, key, h, ← hid, ← hid']

/-- Ascending lists of entries with the same keys have them in the same order. -/
theorem keys_eq_of_ascending {es es' : List Entry} (h : es.Pairwise Before) (h' : es'.Pairwise Before)
    (hkeys : ∀ k, k ∈ es.map key ↔ k ∈ es'.map key) : es.map key = es'.map key := by
  let before (a b : List Path.Part × String) : Prop := Path.compareParts a.1 b.1 = .lt
  have hirrefl : Std.Irrefl before := ⟨fun a => by simp [before, Std.ReflCmp.compare_self]⟩
  have hantisymm : Std.Antisymm before := ⟨fun a b hlt hgt => by
    have := hlt.symm.trans Std.OrientedCmp.eq_swap
    simp [show Path.compareParts b.1 a.1 = .lt from hgt] at this⟩
  have hmap : ∀ {es : List Entry}, es.Pairwise Before → (es.map key).Pairwise before :=
    fun h => List.pairwise_map.2 (h.imp id)
  exact (hmap h).eq_of_mem_iff (hmap h') hkeys

/-- Ascending lists with the same entries have them in the same order. -/
theorem eq_of_ascending {es es' : List Entry} (h : es.Pairwise Before) (h' : es'.Pairwise Before)
    (hmem : ∀ e, e ∈ es ↔ e ∈ es') : es = es' := by
  have hirrefl : Std.Irrefl Before := ⟨fun e => by simp [Before, Path.compare_eq_iff.2]⟩
  have hantisymm : Std.Antisymm Before := ⟨fun a b hlt hgt => by
    have hswap := @Std.OrientedCmp.eq_swap _ Path.compare _ a.path b.path
    rw [hlt, hgt] at hswap
    cases hswap⟩
  exact h.eq_of_mem_iff h' hmem

end Entry

namespace Selection

variable {e : Entry} {root : Path}

theorem detected_of_mem_ofRoot (h : e ∈ (ofRoot g t r f p root).1) : e.Detected r := by
  have hof : entryOf r f e.path = some e := by
    rcases Plan.mem_ofRoot h with ⟨-, hof⟩ | ⟨-, hat⟩ | ⟨-, -, hbelow⟩
    · exact hof
    · exact (Plan.entryAt_eq_some_iff.1 hat).2
    · exact (Plan.entryBelow_eq_some_iff.1 hbelow).2.2
  obtain ⟨-, d, hd, hid, -⟩ := Plan.entryOf_eq_some_iff.1 hof
  exact ⟨d, hd, hid⟩

theorem detected_of_mem_ofRoots (h : e ∈ (ofRoots g t r f p).1) : e.Detected r := by
  obtain ⟨root, -, he⟩ := exists_root h
  exact detected_of_mem_ofRoot he

/-- **What the roots contribute is chosen**, whichever entry of a path is kept. -/
theorem mem_keys_ofRoots_iff {k : List Path.Part × String} : k ∈ (ofRoots g t r f p).1.map Entry.key ↔
    ∃ root ∈ p.roots, ∃ e ∈ (ofRoot g t r f p root).1, e.key = k := by
  rw [List.mem_map]
  constructor
  · rintro ⟨e, he, rfl⟩
    obtain ⟨root, hroot, he⟩ := exists_root he
    exact ⟨root, hroot, e, he, rfl⟩
  · rintro ⟨root, hroot, e, he, rfl⟩
    obtain ⟨kept, hkept, hparts⟩ := exists_mem_ofRoots hroot he
    obtain ⟨root', -, hfrom⟩ := exists_root hkept
    exact ⟨kept, hkept, (detected_of_mem_ofRoot hfrom).key_eq (detected_of_mem_ofRoot he) hparts⟩

/-- A root contributes the same entries in whatever order they are found. -/
theorem mem_ofRoot_reordered (ht : t.Relisted t') (hg : g.Reorders t g' t') :
    e ∈ (ofRoot g' t' r f p root).1 ↔ e ∈ (ofRoot g t r f p root).1 := by
  rw [ofRoot, ofRoot, ht.stat_eq]
  split
  next => rfl
  next => exact ((hg.walk _ root).filterMap _).mem_iff
  next => rfl

/-- Only the members of the list of roots count, and only what is found. -/
theorem alike_ofRoots (ht : t.Relisted t') (hg : g.Reorders t g' t') {roots : List Path}
    (hroots : ∀ root, root ∈ roots ↔ root ∈ p.roots) :
    List.Forall₂ Entry.Alike (ofRoots g' t' r f { p with roots }).1 (ofRoots g t r f p).1 := by
  refine Entry.forall₂_alike_iff.2 (Entry.keys_eq_of_ascending (ascending_ofRoots g' t' r f { p with roots })
    (ascending_ofRoots g t r f p) fun k => ?_)
  rw [mem_keys_ofRoots_iff, mem_keys_ofRoots_iff]
  refine exists_congr fun root => and_congr (hroots root) (exists_congr fun e => and_congr_left' ?_)
  exact mem_ofRoot_reordered ht hg

/-- **The choice is canonical.** The entries chosen come in strictly ascending order, so no two of
them have the same path; and the list stays the same but for the spelling of its paths when the
tree lists its items in another order, when the walk finds them in another order, and when the roots
are named in another order or repeated. -/
theorem choose_canonical (g : Engine) (t : FileTree) (h : p.Accepted g r) :
    ∃ es log, choose g t r p = .ok (es, log) ∧
      es.Pairwise Entry.Before ∧ es.Pairwise (fun a b => a.path.same b.path = false) ∧
      ∀ g' t' roots, t.Relisted t' → g.Reorders t g' t' → (∀ root, root ∈ roots ↔ root ∈ p.roots) →
        ∃ es' log', choose g' t' r { p with roots } = .ok (es', log') ∧ List.Forall₂ Entry.Alike es' es := by
  have hascending := ascending_ofRoots g t r (p.filter g) p
  refine ⟨_, _, Plan.choose_of_accepted h t, hascending, hascending.imp fun {a b} hlt => ?_, ?_⟩
  · rw [Bool.eq_false_iff]
    intro hsame
    rw [Entry.Before, Path.compare_eq_iff.2 (Path.same_iff.1 hsame)] at hlt
    cases hlt
  · intro g' t' roots ht hg hroots
    have haccepted : Plan.Accepted { p with roots } g' r := Plan.Accepted.congr hg.compile ⟨h.languages, h.patterns⟩
    refine ⟨_, _, Plan.choose_of_accepted haccepted t', ?_⟩
    rw [Plan.filter_congr hg.compile]
    exact alike_ofRoots ht hg hroots

/-- A directory with two files. -/
def twoFiles : FileTree where
  items := [([Text.encode "src".toList], .directory),
    ([Text.encode "src".toList, Text.encode "a.c".toList], .file []),
    ([Text.encode "src".toList, Text.encode "b.c".toList], .file [])]

/-- A directory and a file below it as roots. -/
def nested : Plan := { roots := [.ofString "src", .ofString "src/b.c"] }

theorem choose_canonical_nested :
    let reversed : FileTree := { items := twoFiles.items.reverse }
    let roots : List Path := [.ofString "src/b.c", .ofString "src", .ofString "src"]
    let es : List Entry := [⟨.ofString "src/a.c", "c"⟩, ⟨.ofString "src/b.c", "c"⟩]
    (nested.Accepted .standard .onlyC ∧ twoFiles.Relisted reversed ∧
      Engine.standard.Reorders twoFiles .standard reversed ∧ ∀ root, root ∈ roots ↔ root ∈ nested.roots) ∧
    Engine.standard.walk twoFiles {} (.ofString "src") = [.file (.ofString "src/a.c"), .file (.ofString "src/b.c")] ∧
    Engine.standard.walk reversed {} (.ofString "src") = [.file (.ofString "src/b.c"), .file (.ofString "src/a.c")] ∧
    choose .standard twoFiles .onlyC nested = .ok (es, []) ∧ es.Pairwise Entry.Before ∧
    ∃ es' log', choose .standard reversed .onlyC { nested with roots } = .ok (es', log') ∧
      List.Forall₂ Entry.Alike es' es := by
  intro reversed roots es
  have haccepted : nested.Accepted .standard .onlyC := Plan.accepted_roots _ _ _
  have hsound : twoFiles.Sound := by decide +kernel
  have hrelisted : twoFiles.Relisted reversed := hsound.relisted rfl rfl (List.reverse_perm _)
  have hreorders := Engine.standard_reorders hrelisted
  have hroots : ∀ root, root ∈ roots ↔ root ∈ nested.roots := by
    intro root
    simp only [roots, nested, List.mem_cons, List.not_mem_nil, or_false]
    tauto
  have hchoose : choose .standard twoFiles .onlyC nested = .ok (es, []) := by
    have hdirectory : ofRoot .standard twoFiles .onlyC {} nested (.ofString "src") = (es, []) :=
      Plan.ofRoot_of_detect [.ofString "src/a.c", .ofString "src/b.c"] (fun _ => "c") (by cbv) (by cbv)
        fun path hpath => Registry.map_id_detect?_onlyC (by revert path; decide +kernel)
    have hfile : ofRoot .standard twoFiles .onlyC {} nested (.ofString "src/b.c") =
        ([⟨.ofString "src/b.c", "c"⟩], []) :=
      Plan.ofRoot_of_file (by cbv) (Plan.entryAt_of_detect (Registry.detect?_onlyC (by decide +kernel)))
    rw [nested, Plan.choose_roots (.cons hdirectory (.cons hfile .nil))]
    exact congrArg Except.ok (Prod.ext (by cbv) rfl)
  obtain ⟨es₀, log, hchoose₀, hascending, -, hsame⟩ := choose_canonical .standard twoFiles haccepted
  rw [hchoose] at hchoose₀
  cases hchoose₀
  obtain ⟨es', log', hchoose', halike⟩ := hsame .standard reversed roots hrelisted hreorders hroots
  exact ⟨⟨haccepted, hrelisted, hreorders, hroots⟩, by cbv, by cbv, hchoose, hascending,
    es', log', hchoose', halike⟩

end Selection

end LineCensus
