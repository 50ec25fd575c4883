/-
What the walk finds. One entry of a directory is passed over, is found, or is walked into
(`mem_visit_succ`); everything else about the walk is an induction on that.

Whatever links and rules there are, the path of a file found leads to a file
(`leads_of_mem_visit`): the walk reaches a directory only by its path. Without links the
names of the path below the root are also those of the place below the root's
(`exists_names_of_mem_visit`). Without links and ignore files the walk comes to its root and, in
each directory that it comes to and can read, to every entry that is not hidden and let pass
(`Visits`); it tells of just these (`mem_visit_iff`).
-/
import LineCensus.Proofs.IgnoreFree
import LineCensus.Walk.Basic

namespace LineCensus

open LineCensus.Path FileTree

variable {t : FileTree} {o : WalkOptions} {fuel : Nat} {rules : Ignore.Chain} {way : Walk.Way}
  {place place' spot : Place}
  {path q root : Path} {item item' : Item} {n : List UInt8} {x : Found}

/-- A name that hides what it names: it starts with a dot. -/
def Path.Hides (n : List UInt8) : Prop := n.head? = some dot

instance (n : List UInt8) : Decidable (Hides n) := inferInstanceAs (Decidable (_ = _))

namespace Walk

/-! ## One entry -/

theorem mem_visit_succ : x ∈ visit t o (fuel + 1) rules way place path ↔
    path.isTooLong = true ∧ x = .fault (faultText path .nameTooLong) ∨
    path.isTooLong = false ∧ ∃ n item, (n, item) ∈ t.entries place ∧
      match resolve t o ((place, path) :: way) (path.child n) (place ++ [n]) item with
      | .error text => x = .fault text
      | .ok (place', item') => skips o (rules.enter t path) (path.child n) (item' == .directory) = false ∧
        match item' with
        | .directory => o.enters n = true ∧
            x ∈ visit t o fuel (rules.enter t path) ((place, path) :: way) place' (path.child n)
        | .file _ => x = .file (path.child n)
        | .link _ => False := by
  rw [visit]
  split
  next hlong => simp [hlong]
  next hlong =>
    rw [List.mem_flatMap, Prod.exists]
    simp only [hlong, Bool.false_eq_true, false_and, true_and, false_or]
    refine exists_congr fun n => exists_congr fun item => and_congr_right fun _ => ?_
    simp only [Ignore.Chain.enter]
    rcases resolve t o ((place, path) :: way) (path.child n) (place ++ [n]) item with text | ⟨place', item'⟩
    · simp
    · dsimp only
      generalize skips o _ (path.child n) (item' == .directory) = skipped
      cases skipped <;> cases item' <;> simp

theorem resolve_of_linkless (hlink : item.isLink = false) : resolve t o way path place item = .ok (place, item) := by
  cases item with
  | file => rfl
  | directory => rfl
  | link => cases hlink

/-- What an entry is to the walk is what its path leads to. -/
theorem leads_of_resolve (hpath : t.Leads path place .directory) (hn : IsName n)
    (hitem : t.item? (place ++ [n]) = some item)
    (h : resolve t o way (path.child n) (place ++ [n]) item = .ok (place', item')) (hlink : item'.isLink = false) :
    t.Leads (path.child n) place' item' := by
  cases hentry : item with
  | link target =>
    rw [hentry, resolve] at h
    split at h
    · cases h
      cases hlink
    · -- A link that is followed is looked up by the entry's path.
      split at h
      next => cases h
      next found hfound =>
        split at h
        · cases h
        · cases h
          exact leads_of_locate hfound
      next found hfound =>
        cases h
        exact leads_of_locate hfound
  | file bytes | directory =>
    rw [hentry] at h hitem
    rw [resolve_of_linkless rfl] at h
    cases h
    exact hpath.child hn hitem rfl

/-- **The path of a file found leads to a file.** -/
theorem leads_of_mem_visit (ht : t.Sound) (hpath : t.Leads path place .directory)
    (h : .file q ∈ visit t o fuel rules way place path) : ∃ place' bytes, t.Leads q place' (.file bytes) := by
  induction fuel generalizing rules way place path with
  | zero => cases h
  | succ fuel ih =>
    obtain ⟨-, h⟩ | ⟨-, n, item, hentry, h⟩ := mem_visit_succ.1 h
    · cases h
    have hname : IsName n := ht.isName (mem_entries_iff.1 hentry)
    split at h
    next => cases h
    next place' item' hresolve =>
      have hleads := leads_of_resolve hpath hname (ht.item?_of_mem_entries hentry) hresolve
      obtain ⟨-, h⟩ := h
      split at h
      next => exact ih (hleads rfl) h.2
      next bytes =>
        cases h
        exact ⟨place', bytes, hleads rfl⟩
      next => cases h

/-! ## Without links -/

/-- One entry that is no link. -/
theorem mem_visit_succ_of_linkless (ht : t.Sound) (hlinks : t.Linkless) :
    x ∈ visit t o (fuel + 1) rules way place path ↔
      path.isTooLong = true ∧ x = .fault (faultText path .nameTooLong) ∨
      path.isTooLong = false ∧ ∃ n item, t.item? (place ++ [n]) = some item ∧
        skips o (rules.enter t path) (path.child n) (item == .directory) = false ∧
        ((∃ bytes, item = .file bytes ∧ x = .file (path.child n)) ∨ item = .directory ∧ o.enters n = true ∧
          x ∈ visit t o fuel (rules.enter t path) ((place, path) :: way) (place ++ [n]) (path.child n)) := by
  rw [mem_visit_succ]
  refine or_congr_right (and_congr_right fun _ => exists_congr fun n => exists_congr fun item => ?_)
  rw [mem_entries_iff]
  constructor
  · rintro ⟨hmem, h⟩
    rw [resolve_of_linkless (hlinks _ hmem)] at h
    refine ⟨ht.item?_of_mem hmem, h.1, ?_⟩
    cases item with
    | file bytes => exact .inl ⟨bytes, rfl, h.2⟩
    | directory => exact .inr ⟨rfl, h.2⟩
    | link => exact h.2.elim
  · rintro ⟨hitem, hskips, h⟩
    have hmem := mem_of_item? (by simp) hitem
    refine ⟨hmem, ?_⟩
    rw [resolve_of_linkless (hlinks _ hmem)]
    refine ⟨hskips, ?_⟩
    rcases h with ⟨bytes, rfl, rfl⟩ | ⟨rfl, henters, h⟩
    · rfl
    · exact ⟨henters, h⟩

/-- The names that lead down to a file found are those of its place. -/
theorem exists_names_of_mem_visit (ht : t.Sound) (hlinks : t.Linkless) (hpath : t.Leads path place .directory)
    (h : .file q ∈ visit t o fuel rules way place path) : ∃ names bytes, (∀ n ∈ names, IsName n) ∧
      q = path.descend names ∧ t.Leads q (place ++ names) (.file bytes) := by
  induction fuel generalizing rules way place path with
  | zero => cases h
  | succ fuel ih =>
    obtain ⟨-, h⟩ | ⟨-, n, item, hitem, -, h⟩ := (mem_visit_succ_of_linkless ht hlinks).1 h
    · cases h
    have hname : IsName n := ht.isName (mem_of_item? (by simp) hitem)
    rcases h with ⟨bytes, rfl, hq⟩ | ⟨rfl, -, h⟩
    · obtain rfl := Found.file.inj hq
      exact ⟨[n], bytes, by simpa using hname, rfl, hpath.child hname hitem rfl⟩
    · obtain ⟨names, bytes, hnames, hq, hleads⟩ := ih (hpath.child hname hitem rfl) h
      refine ⟨n :: names, bytes, List.forall_mem_cons.2 ⟨hname, hnames⟩, hq, ?_⟩
      rwa [List.append_assoc] at hleads

/-! ## Without links and ignore files -/

/-- What a walk comes to where neither links nor rules are in its way, by its path and its place: the
root and, in each directory that the walk comes to and can read, every entry that is not hidden and,
if it is a directory, may be entered. -/
inductive Visits (t : FileTree) (o : WalkOptions) (place : Place) (root : Path) : Path → Place → Item → Prop
  | root : Visits t o place root root place .directory
  | entry {path : Path} {spot : Place} {n : List UInt8} {item : Item} :
      Visits t o place root path spot .directory → path.isTooLong = false →
      t.item? (spot ++ [n]) = some item → (o.includeHidden = true ∨ ¬ Hides n) →
      (item = .directory → o.enters n = true) → Visits t o place root (path.child n) (spot ++ [n]) item

/-- What a walk tells of an item that it comes to: a file is found, and a directory that cannot be
read is a fault. -/
def report? (path : Path) : Item → Option Found
  | .file _ => some (.file path)
  | .directory => if path.isTooLong then some (.fault (faultText path .nameTooLong)) else none
  | .link _ => none

/-- What is visited below an entry of the root is visited from the root. -/
theorem Visits.of_entry (hlong : root.isTooLong = false) (hitem : t.item? (place ++ [n]) = some .directory)
    (hshown : o.includeHidden = true ∨ ¬ Hides n) (henters : o.enters n = true)
    (h : Visits t o (place ++ [n]) (root.child n) q spot item) : Visits t o place root q spot item := by
  induction h with
  | root => exact .entry .root hlong hitem hshown fun _ => henters
  | entry _ hlong' hitem' hshown' henters' ih => exact .entry ih hlong' hitem' hshown' henters'

/-- All that is visited but the root is an entry of the root, or below one. -/
theorem visits_iff : Visits t o place root q spot item ↔ (q = root ∧ spot = place ∧ item = .directory) ∨
    root.isTooLong = false ∧ ∃ n first, t.item? (place ++ [n]) = some first ∧
      (o.includeHidden = true ∨ ¬ Hides n) ∧
      (first = .directory → o.enters n = true) ∧ ((q = root.child n ∧ spot = place ++ [n] ∧ item = first) ∨
        first = .directory ∧ Visits t o (place ++ [n]) (root.child n) q spot item) := by
  constructor
  · intro h
    induction h with
    | root => exact .inl ⟨rfl, rfl, rfl⟩
    | @entry path spot n item _ hlong hitem hshown henters ih =>
      right
      rcases ih with ⟨rfl, rfl, -⟩ | ⟨hroot, m, first, hfirst, hshown', henters', h⟩
      · exact ⟨hlong, n, item, hitem, hshown, henters, .inl ⟨rfl, rfl, rfl⟩⟩
      · refine ⟨hroot, m, first, hfirst, hshown', henters', .inr ?_⟩
        rcases h with ⟨rfl, rfl, rfl⟩ | ⟨rfl, h⟩
        · exact ⟨rfl, .entry .root hlong hitem hshown henters⟩
        · exact ⟨rfl, .entry h hlong hitem hshown henters⟩
  · rintro (⟨rfl, rfl, rfl⟩ | ⟨hlong, n, first, hfirst, hshown, henters, ⟨rfl, rfl, rfl⟩ | ⟨rfl, h⟩⟩)
    · exact .root
    · exact .entry .root hlong hfirst hshown henters
    · exact h.of_entry hlong hfirst hshown (henters rfl)

theorem isHidden_child (hn : IsName n) (path : Path) : isHidden (path.child n) = decide (Hides n) := by
  have hlast : ((path.child n).bytes.splitOn slash).getLast? = some n := by
    by_cases hpath : path.bytes = []
    · rw [child, if_pos (by simpa using hpath), splitOn_of_notMem hn.slash_notMem, List.getLast?_singleton]
    · obtain ⟨front, -, hsplit, -⟩ := splitOn_child hpath n
      rw [hsplit, splitOn_of_notMem hn.slash_notMem, List.getLast?_concat]
  rw [isHidden, hlast, Bool.eq_iff_iff, decide_eq_true_iff]
  simp [Hides]

theorem skips_eq_false_iff (hrules : rules.Silent) (hn : IsName n) (isDirectory : Bool) :
    skips o rules (path.child n) isDirectory = false ↔ o.includeHidden = true ∨ ¬ Hides n := by
  rw [skips, hrules.verdict?_eq_none, isHidden_child hn]
  cases o.includeHidden <;> simp

/-- **The walk tells of what it comes to and of nothing else.** -/
theorem mem_visit_iff (ht : t.Sound) (hlinks : t.Linkless) (hfree : t.IgnoreFree) (hrules : rules.Silent)
    (hfuel : 0 < fuel) (hdepth : ∀ y ∈ t.items, y.1.length < place.length + fuel) :
    x ∈ visit t o fuel rules way place path ↔
      ∃ q spot item, Visits t o place path q spot item ∧ report? q item = some x := by
  induction fuel generalizing rules way place path with
  | zero => cases hfuel
  | succ fuel ih =>
    have hrules' := hfree.enter hrules path
    have ih' : ∀ {n}, t.item? (place ++ [n]) = some .directory →
        (x ∈ visit t o fuel (rules.enter t path) ((place, path) :: way) (place ++ [n]) (path.child n) ↔
          ∃ q spot item, Visits t o (place ++ [n]) (path.child n) q spot item ∧ report? q item = some x) := by
      intro n hn
      have hlength := hdepth _ (mem_of_item? (by simp) hn)
      simp only [List.length_append, List.length_singleton] at hlength
      refine ih hrules' (by omega) fun y hy => ?_
      have := hdepth y hy
      simp only [List.length_append, List.length_singleton]
      omega
    have hskips : ∀ {n first}, t.item? (place ++ [n]) = some first →
        (skips o (rules.enter t path) (path.child n) (first == .directory) = false ↔
          o.includeHidden = true ∨ ¬ Hides n) := fun hfirst =>
      skips_eq_false_iff hrules' (ht.isName (mem_of_item? (by simp) hfirst)) _
    rw [mem_visit_succ_of_linkless ht hlinks]
    constructor
    · rintro (⟨hlong, rfl⟩ | ⟨hlong, n, first, hfirst, hshown, ⟨bytes, rfl, rfl⟩ | ⟨rfl, henters, h⟩⟩)
      · exact ⟨path, place, .directory, .root, by rw [report?, if_pos hlong]⟩
      · exact ⟨_, _, _, .entry .root hlong hfirst ((hskips hfirst).1 hshown) nofun, rfl⟩
      · obtain ⟨q, spot, item, hvisits, hreport⟩ := (ih' hfirst).1 h
        exact ⟨q, spot, item, hvisits.of_entry hlong hfirst ((hskips hfirst).1 hshown) henters, hreport⟩
    · rintro ⟨q, spot, item, hvisits, hreport⟩
      rcases visits_iff.1 hvisits with ⟨rfl, rfl, rfl⟩ | ⟨hlong, n, first, hfirst, hshown, henters, h⟩
      · obtain ⟨hlong, hx⟩ := Option.ite_none_right_eq_some.1 hreport
        exact .inl ⟨hlong, (Option.some.inj hx).symm⟩
      · refine .inr ⟨hlong, n, first, hfirst, (hskips hfirst).2 hshown, ?_⟩
        rcases h with ⟨rfl, rfl, rfl⟩ | ⟨rfl, h⟩
        · cases item with
          | file bytes => exact .inl ⟨bytes, rfl, (Option.some.inj hreport).symm⟩
          | directory => exact .inr ⟨rfl, henters rfl, (ih' hfirst).2 ⟨_, _, _, .root, hreport⟩⟩
          | link => cases hreport
        · exact .inr ⟨rfl, henters rfl, (ih' hfirst).2 ⟨q, spot, item, h, hreport⟩⟩

/-! ## From a root -/

theorem length_lt_depthLimit {y : Place × Item} (h : y ∈ t.items) : y.1.length < depthLimit t := by
  have hmax : y.1.length ≤ t.items.foldl (fun n z => max n z.1.length) 0 := by
    have hmem : y.1.length ∈ t.items.map (·.1.length) := List.mem_map_of_mem h
    have := List.le_max?_getD_of_mem hmem (k := 0)
    rw [← List.foldl_map (f := fun z : Place × Item => z.1.length) (g := max), List.foldl_max]
    omega
  rw [depthLimit]
  exact Nat.lt_of_lt_of_le (Nat.lt_succ_of_le hmax) (Nat.le_mul_of_pos_left _ (Nat.succ_pos _))

theorem depthLimit_pos (t : FileTree) : 0 < depthLimit t := Nat.mul_pos (Nat.succ_pos _) (Nat.succ_pos _)

/-- A hyphen as a root stands for something else. -/
theorem run_of_hyphen (h : root.same (ofString "-") = true) : run t o root = [] := by rw [run, if_pos h]

/-- **What the walk tells below a root, without links and ignore files.** -/
theorem mem_run_iff (ht : t.Sound) (hlinks : t.Linkless) (hfree : t.IgnoreFree)
    (hroot : t.locate true root = .ok (place, .directory)) (hhyphen : root.same (ofString "-") = false) :
    x ∈ run t o root ↔ ∃ q spot item, Visits t o place root q spot item ∧ report? q item = some x := by
  rw [run, if_neg (by simp [hhyphen]), hroot]
  dsimp only
  refine mem_visit_iff ht hlinks hfree ⟨fun l hl => ?_, hfree.silent_user _⟩ (depthLimit_pos t) fun y hy => ?_
  · obtain ⟨place', -, rfl⟩ := List.mem_map.1 hl
    exact hfree.silent _
  · exact Nat.lt_of_lt_of_le (length_lt_depthLimit hy) (Nat.le_add_left _ _)

/-- **The path of a file found below a root leads to a file.** -/
theorem leads_of_mem_run (ht : t.Sound) (hroot : t.locate true root = .ok (place, .directory))
    (h : .file q ∈ run t o root) : ∃ place' bytes, t.Leads q place' (.file bytes) := by
  rw [run, hroot] at h
  split at h
  · cases h
  · exact leads_of_mem_visit ht (leads_of_locate hroot) h

theorem exists_names_of_mem_run (ht : t.Sound) (hlinks : t.Linkless)
    (hroot : t.locate true root = .ok (place, .directory)) (h : .file q ∈ run t o root) :
    ∃ names bytes, (∀ n ∈ names, IsName n) ∧ q = root.descend names ∧
      t.Leads q (place ++ names) (.file bytes) := by
  rw [run, hroot] at h
  split at h
  · cases h
  · exact exists_names_of_mem_visit ht hlinks (leads_of_locate hroot) h

end Walk

end LineCensus
