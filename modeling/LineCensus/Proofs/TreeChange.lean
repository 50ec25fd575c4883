/-
One tree and another that is much like it. Where two trees agree but for some files, a path is
followed alike in both until it comes to a place of such a file; there it ends or leads nowhere, in
either tree (`AgreeOff.follow`). So a path that goes to none of these places leads to the same in
both, or nowhere in both (`AgreeOff.toOption_read`); the reason why it leads nowhere may change.

A tree that lists its items in another order agrees with the first one everywhere, and every path
leads to the same in both (`Relisted.locate`).
-/
import LineCensus.Proofs.Following
import Mathlib.Data.Set.Basic

namespace LineCensus.FileTree

variable {t t' : FileTree} {places : Set Place} {place start : Place} {links : Nat} {p : Path}

/-- Two trees that hold the same but at some places, and at those each of them has a file or
nothing. -/
structure AgreeOff (t t' : FileTree) (places : Set Place) : Prop where
  here : t'.here = t.here
  elsewhere : ∀ q, q ∉ places → t'.item? q = t.item? q
  before : ∀ q ∈ places, ∀ item, t.item? q = some item → ∃ bytes, item = .file bytes
  after : ∀ q ∈ places, ∀ item, t'.item? q = some item → ∃ bytes, item = .file bytes

/-- Following some pieces ends at a place or leads nowhere. -/
def EndsAt (result : Except PathFault (Place × Item)) (place : Place) : Prop :=
  ∀ found, result = .ok found → found.1 = place

/-- A path goes to a place. -/
def GoesTo (t : FileTree) (p : Path) (place : Place) : Prop := ∃ item, t.locate true p = .ok (place, item)

theorem endsAt_error (fault : PathFault) (place : Place) : EndsAt (.error fault) place := nofun

/-- Pieces that come to a file, or to a place where nothing is, go no further. -/
theorem endsAt_follow_name {n : List UInt8} {rest : List (List UInt8)} (hhere : n ≠ [Path.dot])
    (hup : n ≠ [Path.dot, Path.dot]) (hlength : ¬ 255 < n.length)
    (hfile : ∀ item, t.item? (start ++ [n]) = some item → ∃ bytes, item = .file bytes) :
    EndsAt (t.follow true links start (n :: rest)) (start ++ [n]) := by
  rw [follow_name hhere hup hlength]
  cases hitem : t.item? (start ++ [n]) with
  | none => exact endsAt_error _ _
  | some item =>
    obtain ⟨bytes, rfl⟩ := hfile item hitem
    dsimp only
    split
    next => exact fun found hfound => by cases hfound; rfl
    next => exact endsAt_error _ _

/-- **Pieces are followed alike** until they come to a place where the trees may differ. -/
theorem AgreeOff.follow (h : t.AgreeOff t' places) (links : Nat) (start : Place) :
    ∀ ps, t'.follow true links start ps = t.follow true links start ps ∨
      ∃ q ∈ places, EndsAt (t.follow true links start ps) q ∧ EndsAt (t'.follow true links start ps) q
  | [] => .inl (by rw [FileTree.follow, FileTree.follow])
  | n :: rest => by
    by_cases hhere : n = [Path.dot]
    · subst hhere
      rw [follow_here, follow_here]
      exact h.follow links start rest
    by_cases hup : n = [Path.dot, Path.dot]
    · subst hup
      rw [follow_up, follow_up]
      exact h.follow links start.dropLast rest
    by_cases hlength : 255 < n.length
    · left
      rw [FileTree.follow, FileTree.follow]
      simp only [hhere, hup, hlength, if_true, if_false]
    by_cases hplace : start ++ [n] ∈ places
    · exact .inr ⟨_, hplace, endsAt_follow_name hhere hup hlength (h.before _ hplace),
        endsAt_follow_name hhere hup hlength (h.after _ hplace)⟩
    rw [follow_name hhere hup hlength, follow_name hhere hup hlength, h.elsewhere _ hplace]
    cases t.item? (start ++ [n]) with
    | none => exact .inl rfl
    | some item =>
      cases item with
      | file bytes => exact .inl rfl
      | directory => exact h.follow links (start ++ [n]) rest
      | link target =>
        cases links with
        | zero => exact .inl rfl
        | succ links =>
          dsimp only
          split
          next => exact .inl rfl
          next => exact h.follow links _ (pieces target ++ rest)
termination_by ps => (links, ps.length)

theorem AgreeOff.locate (h : t.AgreeOff t' places) (p : Path) : t'.locate true p = t.locate true p ∨
    ∃ q ∈ places, EndsAt (t.locate true p) q ∧ EndsAt (t'.locate true p) q := by
  rw [FileTree.locate, FileTree.locate, h.here]
  split
  next => exact .inl rfl
  next =>
    split
    next => exact .inl rfl
    next =>
      split
      next => exact .inl rfl
      next => exact h.follow _ _ _

/-- A path that can only end at a place it does not go to leads nowhere. -/
theorem exists_fault_of_endsAt (h : EndsAt (t.locate true p) place) (hne : ¬ t.GoesTo p place) :
    ∃ fault, t.locate true p = .error fault := by
  cases hlocate : t.locate true p with
  | error fault => exact ⟨fault, rfl⟩
  | ok found => exact absurd ⟨found.2, by rw [hlocate, ← h found hlocate]⟩ hne

/-- **A path that goes to none of the places has the same to be read in both trees.** -/
theorem AgreeOff.toOption_read (h : t.AgreeOff t' places)
    (hne : ∀ q ∈ places, ¬ t.GoesTo p q ∧ ¬ t'.GoesTo p q) : (t'.read p).toOption = (t.read p).toOption := by
  rw [read, read, stat, stat]
  rcases h.locate p with hsame | ⟨q, hq, hends, hends'⟩
  · rw [hsame]
  · obtain ⟨fault, hfault⟩ := exists_fault_of_endsAt hends (hne q hq).1
    obtain ⟨fault', hfault'⟩ := exists_fault_of_endsAt hends' (hne q hq).2
    rw [hfault, hfault']
    rfl

/-! ## One file changed -/

/-- The tree with a file of these bytes at a place, or with nothing there. -/
def setFile (t : FileTree) (place : Place) (content : Option (List UInt8)) : FileTree :=
  { t with items := (content.map fun bytes => (place, .file bytes)).toList ++ t.items.filter (·.1 ≠ place) }

theorem lookup_filter (keeps : Place → Bool) (items : List (Place × Item)) (q : Place) :
    (items.filter fun x => keeps x.1).lookup q = if keeps q then items.lookup q else none := by
  induction items with
  | nil => simp
  | cons x items ih =>
    obtain ⟨p, item⟩ := x
    by_cases hq : q = p
    · subst hq
      cases hkeeps : keeps q <;> simp [hkeeps, ih]
    · have hne : (q == p) = false := beq_eq_false_iff_ne.2 hq
      cases hkeeps : keeps p <;> simp [hkeeps, ih, List.lookup_cons, hne]

theorem item?_setFile (hplace : place ≠ []) (content : Option (List UInt8)) (q : Place) :
    (t.setFile place content).item? q = if q = place then content.map .file else t.item? q := by
  rw [item?, item?, setFile, List.lookup_append, lookup_filter (· ≠ place)]
  by_cases hq : q = place
  · subst hq
    cases content <;> simp [hplace]
  · have hne : (q == place) = false := beq_eq_false_iff_ne.2 hq
    cases content <;> simp [hq, hne, List.lookup_cons]

/-- A file that is changed, taken away or added makes no difference but at its place. -/
theorem agreeOff_setFile (h : ∀ item, t.item? place = some item → ∃ bytes, item = .file bytes)
    (content : Option (List UInt8)) : t.AgreeOff (t.setFile place content) {place} := by
  have hplace : place ≠ [] := by
    rintro rfl
    obtain ⟨bytes, hbytes⟩ := h .directory rfl
    cases hbytes
  refine ⟨rfl, fun q hq => by rw [item?_setFile hplace, if_neg (show ¬ q = place from hq)], ?_, ?_⟩
  · rintro q rfl
    exact h
  · rintro q rfl item hitem
    rw [item?_setFile hplace, if_pos rfl] at hitem
    obtain ⟨bytes, -, hbytes⟩ := Option.map_eq_some_iff.1 hitem
    exact ⟨bytes, hbytes.symm⟩

/-! ## Items in another order -/

/-- Two trees with the same items, listed in different orders. -/
structure Relisted (t t' : FileTree) : Prop where
  here : t'.here = t.here
  userIgnore : t'.userIgnore = t.userIgnore
  items : t'.items.Perm t.items
  same : ∀ place, t'.item? place = t.item? place

/-- In a tree that has one item at a place, any order will do. -/
theorem Sound.relisted (ht : t.Sound) (hhere : t'.here = t.here) (huser : t'.userIgnore = t.userIgnore)
    (hitems : t'.items.Perm t.items) : t.Relisted t' := by
  refine ⟨hhere, huser, hitems, fun place => ?_⟩
  by_cases hplace : place = []
  · subst hplace
    rfl
  cases h' : t'.item? place with
  | some item => exact (ht.item?_of_mem (hitems.subset (mem_of_item? hplace h'))).symm
  | none =>
    rw [item?, if_neg (by simpa using hplace), List.lookup_eq_none_iff] at h'
    symm
    rw [Option.eq_none_iff_forall_ne_some]
    intro item h
    simpa using h' _ (hitems.symm.subset (mem_of_item? hplace h))

theorem Relisted.locate (h : t.Relisted t') (p : Path) : t'.locate true p = t.locate true p := by
  have hagree : t.AgreeOff t' ∅ := ⟨h.here, fun q _ => h.same q, by simp, by simp⟩
  exact (hagree.locate p).resolve_right (by simp)

end LineCensus.FileTree
