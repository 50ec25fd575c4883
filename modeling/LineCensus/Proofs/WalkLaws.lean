/-
What is relied on of a walk. Where files are chosen the walk is not looked into; what the results
about the choice need of it is named here as laws of an engine, each for itself (`Engine.Lawful`),
and the standard engine keeps them (`Engine.standard_lawful`). Of patterns nothing is relied on.
-/
import LineCensus.Proofs.Walking
import LineCensus.Selection.Engine

namespace LineCensus

open LineCensus.Path FileTree Walk

namespace Engine

/-- The laws of an engine's walk. -/
structure Lawful (g : Engine) : Prop where
  /-- The path of a file found leads to a file. -/
  leads : ∀ {t : FileTree} {o : WalkOptions} {root q : Path} {place : Place}, t.Sound →
    t.locate true root = .ok (place, .directory) → .file q ∈ g.walk t o root →
    ∃ place' bytes, t.Leads q place' (.file bytes)
  /-- Without links that path goes down from the root by the names of the file's place. -/
  descends : ∀ {t : FileTree} {o : WalkOptions} {root q : Path} {place : Place}, t.Sound → t.Linkless →
    t.locate true root = .ok (place, .directory) → .file q ∈ g.walk t o root →
    ∃ names bytes, (∀ n ∈ names, IsName n) ∧ q = root.descend names ∧ t.Leads q (place ++ names) (.file bytes)
  /-- Without links and ignore files the walk visits every entry of a directory that it visits, unless the
  entry is hidden or not let pass, and tells of what it visits. -/
  visits : ∀ {t : FileTree} {o : WalkOptions} {root : Path} {place : Place} {x : Found}, t.Sound → t.Linkless →
    t.IgnoreFree → t.locate true root = .ok (place, .directory) → root.same (ofString "-") = false →
    (x ∈ g.walk t o root ↔ ∃ q spot item, Visits t o place root q spot item ∧ report? q item = some x)
  /-- A hyphen as a root stands for the standard input, and nothing is found there. -/
  hyphen : ∀ {t : FileTree} {o : WalkOptions} {root : Path}, root.same (ofString "-") = true → g.walk t o root = []

theorem standard_lawful : standard.Lawful where
  leads := leads_of_mem_run
  descends := exists_names_of_mem_run
  visits := mem_run_iff
  hyphen := run_of_hyphen

end Engine

/-! ## The way down -/

namespace Walk

variable {t : FileTree} {o : WalkOptions} {place spot : Place} {q root : Path} {item : Item}
  {dirs more : List (List UInt8)} {n : List UInt8}

/-- A directory on the way down has a path that is no longer. -/
theorem isTooLong_of_append (h : (root.descend (dirs ++ more)).isTooLong = false) :
    (root.descend dirs).isTooLong = false := by
  rw [isTooLong_eq_false_iff] at h ⊢
  have := length_add_le_descend (root.descend dirs) more
  rw [← descend_append] at this
  omega

/-- A directory is visited if all those down to it may be entered and can be read. -/
theorem visits_descend (ht : t.Sound) (hitem : t.item? (place ++ dirs) = some .directory)
    (hlong : (root.descend dirs).isTooLong = false) (hshown : o.includeHidden = true ∨ ∀ d ∈ dirs, ¬ Hides d)
    (hdirs : ∀ d ∈ dirs, o.enters d = true) :
    Visits t o place root (root.descend dirs) (place ++ dirs) .directory := by
  induction dirs using List.reverseRecOn with
  | nil =>
    rw [List.append_nil]
    exact .root
  | append_singleton dirs d ih =>
    rw [List.forall_mem_append, List.forall_mem_singleton] at hshown hdirs
    rw [← List.append_assoc] at hitem ⊢
    rw [descend_append]
    have hlong' := isTooLong_of_append hlong
    exact .entry (ih (ht.directory_above (by simp) hitem) hlong' (hshown.imp_right And.left) hdirs.1) hlong' hitem
      (hshown.imp_right And.right) fun _ => hdirs.2

/-- What is visited, by the names that lead down to it. -/
theorem visits_iff_names (ht : t.Sound) : Visits t o place root q spot item ↔
    (q = root ∧ spot = place ∧ item = .directory) ∨
    ∃ dirs n, q = root.descend (dirs ++ [n]) ∧ spot = place ++ (dirs ++ [n]) ∧ t.item? spot = some item ∧
      (root.descend dirs).isTooLong = false ∧ (o.includeHidden = true ∨ ∀ m ∈ dirs ++ [n], ¬ Hides m) ∧
      (∀ d ∈ dirs, o.enters d = true) ∧ (item = .directory → o.enters n = true) := by
  constructor
  · intro h
    induction h with
    | root => exact .inl ⟨rfl, rfl, rfl⟩
    | @entry path spot n item _ hlong hitem hshown henters ih =>
      right
      rcases ih with ⟨rfl, rfl, -⟩ | ⟨dirs, d, rfl, rfl, -, -, hshown', hdirs, hd⟩
      · exact ⟨[], n, rfl, rfl, hitem, hlong, by simpa using hshown, by simp, henters⟩
      · refine ⟨dirs ++ [d], n, by rw [descend_append _ (dirs ++ [d])]; rfl, by rw [List.append_assoc],
          hitem, hlong, ?_, List.forall_mem_append.2 ⟨hdirs, by simpa using hd rfl⟩, henters⟩
        rw [List.forall_mem_append, List.forall_mem_singleton]
        rcases hshown with hall | hn
        · exact .inl hall
        · exact hshown'.imp_right fun h => ⟨h, hn⟩
  · rintro (⟨rfl, rfl, rfl⟩ | ⟨dirs, n, rfl, rfl, hitem, hlong, hshown, hdirs, hn⟩)
    · exact .root
    · -- The directory that holds the item is visited, and the item is an entry of it.
      rw [List.forall_mem_append, List.forall_mem_singleton] at hshown
      rw [← List.append_assoc] at hitem ⊢
      rw [descend_append]
      have habove := ht.directory_above (by simp) hitem
      exact .entry (visits_descend ht habove hlong (hshown.imp_right And.left) hdirs) hlong hitem
        (hshown.imp_right And.right) hn

end Walk

namespace Engine.Lawful

variable {g : Engine} {t : FileTree} {o : WalkOptions} {root q : Path} {place : Place} {text : String}

/-- **The files found below a root**: those to which directories lead that may be entered, with short
enough paths, and with no hidden name on the way. -/
theorem file_mem_iff (hg : g.Lawful) (ht : t.Sound) (hlinks : t.Linkless) (hfree : t.IgnoreFree)
    (hroot : t.locate true root = .ok (place, .directory)) : .file q ∈ g.walk t o root ↔
      root.same (ofString "-") = false ∧ ∃ dirs n bytes, q = root.descend (dirs ++ [n]) ∧
        t.item? (place ++ (dirs ++ [n])) = some (.file bytes) ∧ (root.descend dirs).isTooLong = false ∧
        (o.includeHidden = true ∨ ∀ m ∈ dirs ++ [n], ¬ Hides m) ∧ ∀ d ∈ dirs, o.enters d = true := by
  cases hhyphen : root.same (ofString "-") with
  | true => simp [hg.hyphen hhyphen]
  | false =>
    rw [hg.visits ht hlinks hfree hroot hhyphen]
    simp only [visits_iff_names ht, true_and]
    constructor
    · rintro ⟨q', spot, item,
        ⟨rfl, rfl, rfl⟩ | ⟨dirs, n, rfl, rfl, hitem, hlong, hshown, hdirs, -⟩, hreport⟩
      · cases (Option.ite_none_right_eq_some.1 hreport).2
      · cases item with
        | file bytes =>
          obtain rfl := Found.file.inj (Option.some.inj hreport)
          exact ⟨dirs, n, bytes, rfl, hitem, hlong, hshown, hdirs⟩
        | directory => cases (Option.ite_none_right_eq_some.1 hreport).2
        | link => cases hreport
    · rintro ⟨dirs, n, bytes, rfl, hitem, hlong, hshown, hdirs⟩
      exact ⟨_, _, _, .inr ⟨dirs, n, rfl, rfl, hitem, hlong, hshown, hdirs, nofun⟩, rfl⟩

/-- **The faults below a root**: directories to which others lead as to files, but whose own paths are
too long for them to be read. -/
theorem fault_mem_iff (hg : g.Lawful) (ht : t.Sound) (hlinks : t.Linkless) (hfree : t.IgnoreFree)
    (hroot : t.locate true root = .ok (place, .directory)) : .fault text ∈ g.walk t o root ↔
      root.same (ofString "-") = false ∧ ∃ dirs n, t.item? (place ++ (dirs ++ [n])) = some .directory ∧
        (root.descend dirs).isTooLong = false ∧ (root.descend (dirs ++ [n])).isTooLong = true ∧
        (o.includeHidden = true ∨ ∀ m ∈ dirs ++ [n], ¬ Hides m) ∧
        (∀ d ∈ dirs ++ [n], o.enters d = true) ∧ text = faultText (root.descend (dirs ++ [n])) .nameTooLong := by
  cases hhyphen : root.same (ofString "-") with
  | true => simp [hg.hyphen hhyphen]
  | false =>
    rw [hg.visits ht hlinks hfree hroot hhyphen]
    simp only [visits_iff_names ht, true_and, List.forall_mem_append, List.forall_mem_singleton]
    constructor
    · rintro ⟨q', spot, item,
        ⟨rfl, rfl, rfl⟩ | ⟨dirs, n, rfl, rfl, hitem, hlong, hshown, hdirs, hn⟩, hreport⟩
      · rw [report?, isTooLong_of_locate hroot] at hreport
        cases hreport
      · cases item with
        | file bytes => cases hreport
        | directory =>
          obtain ⟨hlong', htext⟩ := Option.ite_none_right_eq_some.1 hreport
          have htext := (Found.fault.inj (Option.some.inj htext)).symm
          exact ⟨dirs, n, hitem, hlong, hlong', hshown, ⟨hdirs, hn rfl⟩, htext⟩
        | link => cases hreport
    · rintro ⟨dirs, n, hitem, hlong, hlong', hshown, ⟨hdirs, hn⟩, rfl⟩
      exact ⟨_, _, _, .inr ⟨dirs, n, rfl, rfl, hitem, hlong, hshown, hdirs, fun _ => hn⟩, if_pos hlong'⟩

end Engine.Lawful

end LineCensus
