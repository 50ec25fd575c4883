/-
No file is chosen twice. Entries are told apart by the parts of their paths, so a file that two
roots lead down to is kept once if both ways have the same parts. They have if the lower root is
spelled as the upper one's path with the names between behind it (`parts_eq_of_below`). A root
spelled otherwise, as `src` is beside `.`, makes other paths for the same files, and only so can
a file be chosen twice (`choose_distinct`).
-/
import LineCensus.Proofs.PlanFilters
import LineCensus.Proofs.WalkLaws

namespace LineCensus

open LineCensus.Language Selection LineCensus.Path FileTree

variable {g : Engine} {t : FileTree} {r : Registry} {f : Filter} {p : Plan} {root above below : Path}
  {place upper lower : Place}
  {item item' : Item} {e : Entry} {names names' : List (List UInt8)}

/-- Two paths lead to the same file, however long they are. -/
def FileTree.SameFile (t : FileTree) (p q : Path) : Prop :=
  ∃ place bytes, t.Leads p place (.file bytes) ∧ t.Leads q place (.file bytes)

/-- A path goes down from another one by names. -/
def Path.GoesDown (above below : Path) : Prop := ∃ names, (∀ n ∈ names, IsName n) ∧ below = above.descend names

/-- A root leads to where another does or below that, and is not spelled as that one's path
with the names between behind it. -/
def FileTree.Strays (t : FileTree) (above below : Path) : Prop :=
  ∃ upper item names item', t.locate true above = .ok (upper, item) ∧
    t.locate true below = .ok (upper ++ names, item') ∧ below.parts ≠ above.parts ++ names.map .name

namespace Selection

/-- The names that lead down from a root to what an entry stands for. -/
theorem exists_names_of_mem_ofRoot (hg : g.Lawful) (ht : t.Sound) (hlinks : t.Linkless)
    (hroot : t.locate true root = .ok (place, item)) (he : e ∈ (ofRoot g t r f p root).1) :
    ∃ names item, (∀ n ∈ names, IsName n) ∧ e.path = root.descend names ∧
      t.Leads e.path (place ++ names) item := by
  rcases Plan.mem_ofRoot he with ⟨⟨-, fault, hfault⟩, -⟩ | ⟨hpath, -⟩ | ⟨hstat, hfound, -⟩
  · rw [stat_eq_ok_iff.2 ⟨place, hroot⟩] at hfault
    cases hfault
  · refine ⟨[], item, by simp, hpath, ?_⟩
    rw [hpath, List.append_nil]
    exact leads_of_locate hroot
  · rw [stat_eq_ok_iff.2 ⟨place, hroot⟩] at hstat
    cases hstat
    obtain ⟨names, bytes, hnames, hpath, hleads⟩ := hg.descends ht hlinks hroot hfound
    exact ⟨names, .file bytes, hnames, hpath, hleads⟩

/-- Two ways down to one place have the same parts, if the lower root's path goes by the
upper one's. -/
theorem parts_eq_of_below (habove : t.locate true above = .ok (upper, item))
    (hbelow : t.locate true below = .ok (lower, item')) (hstrays : ¬ t.Strays above below)
    (hnames : ∀ n ∈ names, IsName n) (hnames' : ∀ n ∈ names', IsName n)
    (hplace : upper ++ names = lower ++ names') (hbetween : upper <+: lower) :
    (above.descend names).parts = (below.descend names').parts := by
  obtain ⟨between, rfl⟩ := hbetween
  rw [List.append_assoc, List.append_cancel_left_eq] at hplace
  have hparts : below.parts = above.parts ++ between.map .name := by
    by_contra hne
    exact hstrays ⟨upper, item, between, item', habove, hbelow, hne⟩
  rw [parts_descend (leads_of_locate habove).bytes_ne hnames, parts_descend (leads_of_locate hbelow).bytes_ne hnames',
    hparts, hplace, List.map_append, List.append_assoc]

/-- **No two entries chosen stand for the same file**, whatever the roots are that lead
somewhere, unless they come from two roots of which one strays from the other. -/
theorem choose_distinct (hg : g.Lawful) (ht : t.Sound) (hlinks : t.Linkless)
    (hroots : ∀ root ∈ p.roots, ∃ found, t.locate true root = .ok found) {es : List Entry} {log : Log}
    (h : choose g t r p = .ok (es, log)) : es.Pairwise fun a b => t.SameFile a.path b.path →
      ∃ above ∈ p.roots, ∃ below ∈ p.roots, t.Strays above below ∧
        (above.GoesDown a.path ∧ below.GoesDown b.path ∨ above.GoesDown b.path ∧ below.GoesDown a.path) := by
  rw [Plan.choose_of_accepted (Plan.accepted_of_choose h)] at h
  obtain ⟨rfl, -⟩ := Prod.mk.inj (Except.ok.inj h)
  refine List.Pairwise.imp_of_mem (fun {a b} ha hb hlt => ?_) (ascending_ofRoots g t r (p.filter g) p)
  rintro ⟨place, bytes, hleadsa, hleadsb⟩
  have hne : a.path.parts ≠ b.path.parts := by
    intro hparts
    rw [Entry.Before, compare_eq_iff.2 hparts] at hlt
    cases hlt
  obtain ⟨root, hroot, ha⟩ := exists_root ha
  obtain ⟨root', hroot', hb⟩ := exists_root hb
  obtain ⟨⟨placea, itema⟩, hlocatea⟩ := hroots root hroot
  obtain ⟨⟨placeb, itemb⟩, hlocateb⟩ := hroots root' hroot'
  obtain ⟨names, item, hnames, hpatha, hdowna⟩ := exists_names_of_mem_ofRoot hg ht hlinks hlocatea ha
  obtain ⟨names', item', hnames', hpathb, hdownb⟩ := exists_names_of_mem_ofRoot hg ht hlinks hlocateb hb
  have hplace : placea ++ names = placeb ++ names' := (hdowna.unique hleadsa).1.trans (hleadsb.unique hdownb).1
  have ha : root.GoesDown a.path := ⟨names, hnames, hpatha⟩
  have hb : root'.GoesDown b.path := ⟨names', hnames', hpathb⟩
  rw [hpatha, hpathb] at hne
  -- Of two ways to one place one starts above the other.
  rcases List.prefix_or_prefix_of_prefix (List.prefix_append placea names) (hplace ▸ List.prefix_append placeb names')
    with hbetween | hbetween
  · refine ⟨root, hroot, root', hroot', ?_, .inl ⟨ha, hb⟩⟩
    by_contra hstrays
    exact hne (parts_eq_of_below hlocatea hlocateb hstrays hnames hnames' hplace hbetween)
  · refine ⟨root', hroot', root, hroot, ?_, .inr ⟨hb, ha⟩⟩
    by_contra hstrays
    exact hne (parts_eq_of_below hlocateb hlocatea hstrays hnames' hnames hplace.symm hbetween).symm

/-- A root that leads to the file `a.c`. -/
theorem ofRoot_fileC {path : Path} {d : String} (hstat : (someC d).stat path = .ok (.file []))
    (hextension : path.extensionText? = some "c") : ofRoot g (someC d) .onlyC {} p path = ([⟨path, "c"⟩], []) :=
  Plan.ofRoot_of_file hstat (Plan.entryAt_of_detect (Registry.detect?_onlyC hextension))

/-- A directory and a file below it as roots. -/
def overlapping : Plan := { roots := [ofString "src", ofString "src/a.c"] }

theorem choose_overlapping :
    choose .standard (someC "src") .onlyC overlapping = .ok ([⟨ofString "src/a.c", "c"⟩], []) := by
  have hdirectory : ofRoot .standard (someC "src") .onlyC {} overlapping (ofString "src") =
      ([⟨ofString "src/a.c", "c"⟩], []) :=
    Plan.ofRoot_of_detect [ofString "src/a.c"] (fun _ => "c") (by cbv) (by cbv)
      (List.forall_mem_singleton.2 (Registry.map_id_detect?_onlyC (by decide +kernel)))
  rw [overlapping, Plan.choose_roots (.cons hdirectory (.cons (ofRoot_fileC (by cbv) (by decide +kernel)) .nil))]
  exact congrArg Except.ok (Prod.ext (by cbv) rfl)

theorem choose_distinct_overlapping :
    (Engine.standard.Lawful ∧ (someC "src").Sound ∧ (someC "src").Linkless ∧
      ∀ root ∈ overlapping.roots, ∃ found, (someC "src").locate true root = .ok found) ∧
    choose .standard (someC "src") .onlyC overlapping = .ok ([⟨ofString "src/a.c", "c"⟩], []) ∧
      [(⟨ofString "src/a.c", "c"⟩ : Entry)].Pairwise fun a b => (someC "src").SameFile a.path b.path →
        ∃ above ∈ overlapping.roots, ∃ below ∈ overlapping.roots, (someC "src").Strays above below ∧
          (above.GoesDown a.path ∧ below.GoesDown b.path ∨ above.GoesDown b.path ∧ below.GoesDown a.path) := by
  have hsound : (someC "src").Sound := sound_oneFile (by decide +kernel) (by decide +kernel) []
  have hlinks : (someC "src").Linkless := linkless_oneFile _ _ _
  have hroots : ∀ root ∈ overlapping.roots, ∃ found, (someC "src").locate true root = .ok found := by
    simp only [overlapping, List.forall_mem_cons]
    exact ⟨⟨_, by cbv⟩, ⟨_, by cbv⟩, by simp⟩
  exact ⟨⟨Engine.standard_lawful, hsound, hlinks, hroots⟩, choose_overlapping,
    choose_distinct Engine.standard_lawful hsound hlinks hroots choose_overlapping⟩

/-- A file as a root, and once more by another path. -/
def respelled : Plan := { roots := [ofString "src/a.c", ofString "./src/a.c"] }

theorem choose_respelled : choose .standard (someC "src") .onlyC respelled =
    .ok ([⟨ofString "./src/a.c", "c"⟩, ⟨ofString "src/a.c", "c"⟩], []) := by
  rw [respelled, Plan.choose_roots (.cons (ofRoot_fileC (by cbv) (by decide +kernel))
    (.cons (ofRoot_fileC (by cbv) (by decide +kernel)) .nil))]
  exact congrArg Except.ok (Prod.ext (by cbv) rfl)

/-- The same file is chosen twice by two spellings of its path. -/
theorem not_choose_distinct_respelled : ¬ ∀ (t : FileTree) (r : Registry) (p : Plan) (es : List Entry) (log : Log),
    t.Sound → t.Linkless → (∀ root ∈ p.roots, ∃ found, t.locate true root = .ok found) →
    choose .standard t r p = .ok (es, log) → es.Pairwise fun a b => ¬ t.SameFile a.path b.path := by
  intro h
  let place : Place := [Text.encode "src".toList, Text.encode "a.c".toList]
  have hplain : (someC "src").locate true (ofString "src/a.c") = .ok (place, .file []) := by cbv
  have hdotted : (someC "src").locate true (ofString "./src/a.c") = .ok (place, .file []) := by cbv
  have hroots : ∀ root ∈ respelled.roots, ∃ found, (someC "src").locate true root = .ok found :=
    List.forall_mem_cons.2 ⟨⟨_, hplain⟩, List.forall_mem_singleton.2 ⟨_, hdotted⟩⟩
  have hpairwise := h _ _ _ _ _ (sound_oneFile (by decide +kernel) (by decide +kernel) []) (linkless_oneFile _ _ _)
    hroots choose_respelled
  exact (List.pairwise_cons.1 hpairwise).1 _ List.mem_cons_self
    ⟨place, [], leads_of_locate hdotted, leads_of_locate hplain⟩

end Selection

end LineCensus
