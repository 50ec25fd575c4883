/-
Where paths lead. A path is followed piece by piece, so what leads to an entry of a
directory leads to the directory first (`directory_of_follow_append`), and from there on
only the entry's own pieces count (`follow_append`). A path that leads to a directory
therefore leads to each of its entries once the entry's name is added (`Leads.child`), as
long as the entry is no link, and for that no limit on the length of paths is looked at.
-/
import LineCensus.Files.Tree
import LineCensus.Proofs.PathParts
import Mathlib.Data.List.Induction

namespace LineCensus

open LineCensus.Path

def Item.isLink : Item → Bool
  | .link _ => true
  | _ => false

namespace FileTree

variable {t : FileTree} {p : Path} {place place' : Place} {item : Item} {links : Nat} {n : List UInt8}
  {ps rest : List (List UInt8)}

/-- A tree as a file system holds it: at each place one item, under a name and in a
directory. -/
structure Sound (t : FileTree) : Prop where
  distinct : (t.items.map Prod.fst).Nodup
  places : ∀ x ∈ t.items, x.1 ≠ [] ∧ ∀ n ∈ x.1, IsName n
  held : ∀ x ∈ t.items, t.item? x.1.dropLast = some .directory

instance (t : FileTree) : Decidable t.Sound :=
  decidable_of_iff (_ ∧ _ ∧ _)
    ⟨fun ⟨h, h', h''⟩ => ⟨h, h', h''⟩, fun ⟨h, h', h''⟩ => ⟨h, h', h''⟩⟩

/-- A tree without links. -/
def Linkless (t : FileTree) : Prop := ∀ x ∈ t.items, x.2.isLink = false

instance (t : FileTree) : Decidable t.Linkless := inferInstanceAs (Decidable (∀ x ∈ _, _))

theorem mem_of_item? (hplace : place ≠ []) (h : t.item? place = some item) : (place, item) ∈ t.items := by
  rw [item?, if_neg (by simpa using hplace), List.lookup_eq_some_iff] at h
  obtain ⟨before, after, hitems, -⟩ := h
  simp [hitems]

theorem item?_of_mem (hdistinct : (t.items.map Prod.fst).Nodup) (hplace : place ≠ [])
    (h : (place, item) ∈ t.items) :
    t.item? place = some item := by
  rw [item?, if_neg (by simpa using hplace), List.lookup_eq_some_iff]
  obtain ⟨before, after, hitems⟩ := List.append_of_mem h
  refine ⟨before, after, hitems, fun x hx => bne_iff_ne.2 fun heq => ?_⟩
  rw [hitems, List.map_append, List.nodup_append] at hdistinct
  exact hdistinct.2.2 x.1 (List.mem_map_of_mem hx) place (by simp) heq.symm

theorem Sound.item?_of_mem (ht : t.Sound) (h : (place, item) ∈ t.items) : t.item? place = some item :=
  FileTree.item?_of_mem ht.distinct (ht.places _ h).1 h

theorem mem_entries_iff : (n, item) ∈ t.entries place ↔ (place ++ [n], item) ∈ t.items := by
  rw [entries, List.mem_filterMap]
  constructor
  · rintro ⟨⟨q, item'⟩, hmem, h⟩
    dsimp only at h
    split at h
    next hq =>
      obtain ⟨m, hm, heq⟩ := Option.map_eq_some_iff.1 h
      obtain ⟨rfl, rfl⟩ := Prod.mk.inj heq
      obtain ⟨front, rfl⟩ := List.getLast?_eq_some_iff.1 hm
      rw [List.dropLast_concat] at hq
      exact hq ▸ hmem
    next => cases h
  · intro h
    exact ⟨_, h, by simp⟩

/-- What lies above an item is a directory. -/
theorem Sound.directory_above (ht : t.Sound) (hrest : rest ≠ []) (h : t.item? (place ++ rest) = some item) :
    t.item? place = some .directory := by
  induction rest using List.reverseRecOn generalizing item with
  | nil => exact absurd rfl hrest
  | append_singleton front n ih =>
    have hheld := ht.held _ (mem_of_item? (by simp) h)
    rw [← List.append_assoc, List.dropLast_concat] at hheld
    cases front with
    | nil => rwa [List.append_nil] at hheld
    | cons m front => exact ih (by simp) hheld

theorem Sound.isName (ht : t.Sound) (h : (place ++ [n], item) ∈ t.items) : IsName n := (ht.places _ h).2 n (by simp)

theorem Sound.isName_of_item? (ht : t.Sound) {names : List (List UInt8)} (h : t.item? (place ++ names) = some item) :
    ∀ m ∈ names, IsName m := by
  intro m hm
  have hne : place ++ names ≠ [] := List.append_ne_nil_of_right_ne_nil _ (List.ne_nil_of_mem hm)
  exact (ht.places _ (mem_of_item? hne h)).2 m (List.mem_append_right _ hm)

theorem Sound.item?_of_mem_entries (ht : t.Sound) (h : (n, item) ∈ t.entries place) :
    t.item? (place ++ [n]) = some item := ht.item?_of_mem (mem_entries_iff.1 h)

/-- A tree of one file in one directory. -/
def oneFile (d n : List UInt8) (bytes : List UInt8) : FileTree where
  items := [([d], .directory), ([d, n], .file bytes)]

theorem sound_oneFile {d : List UInt8} (hd : IsName d) (hn : IsName n) (bytes : List UInt8) :
    (oneFile d n bytes).Sound where
  distinct := by simp [oneFile]
  places := by simp [oneFile, hd, hn]
  held := by simp [oneFile, item?]

theorem linkless_oneFile (d n bytes : List UInt8) : (oneFile d n bytes).Linkless := by
  simp [Linkless, oneFile, Item.isLink]

/-- A tree of an empty file `a.c` in a directory. -/
abbrev someC (d : String) : FileTree := oneFile (Text.encode d.toList) (Text.encode "a.c".toList) []

/-! ## Piece by piece -/

theorem follow_here (t : FileTree) (links : Nat) (place : Place) (rest : List (List UInt8)) :
    t.follow true links place ([dot] :: rest) = t.follow true links place rest := by
  rw [follow, if_pos rfl]

theorem follow_up (t : FileTree) (links : Nat) (place : Place) (rest : List (List UInt8)) :
    t.follow true links place ([dot, dot] :: rest) = t.follow true links place.dropLast rest := by
  rw [follow, if_neg (by decide), if_pos rfl]

/-- A name is looked up. -/
theorem follow_name (hhere : n ≠ [dot]) (hup : n ≠ [dot, dot]) (hlength : ¬ 255 < n.length) (links : Nat)
    (rest : List (List UInt8)) : t.follow true links place (n :: rest) =
      match t.item? (place ++ [n]) with
      | none => .error .missing
      | some .directory => t.follow true links (place ++ [n]) rest
      | some (.file bytes) => if rest.isEmpty then .ok (place ++ [n], .file bytes) else .error .notDirectory
      | some (.link target) =>
        match links with
        | 0 => .error .tooManyLinks
        | links + 1 =>
          if target.bytes.isEmpty then .error .missing
          else t.follow true links (if target.isAbsolute then [] else place) (pieces target ++ rest) := by
  rw [follow.eq_def]
  simp only [hhere, hup, hlength, if_false, Bool.not_true, Bool.and_false]
  rfl

/-- What pieces are to those behind them: they lead to a directory, from which the ones behind
are followed, or nothing can follow them. -/
def Passes (t : FileTree) (links : Nat) (place : Place) (ps : List (List UInt8)) : Prop :=
  (∃ place' links', t.follow true links place ps = .ok (place', .directory) ∧
    ∀ rest, t.follow true links place (ps ++ rest) = t.follow true links' place' rest) ∨
  ∀ rest found, t.follow true links place (ps ++ rest) = .ok found → rest = [] ∧ found.2 ≠ .directory

theorem passes (t : FileTree) (links : Nat) (place : Place) (ps : List (List UInt8)) : t.Passes links place ps := by
  unfold Passes
  fun_induction follow t true links place ps with
  | case1 links place => exact .inl ⟨place, links, rfl, fun _ => rfl⟩
  | case2 links place rest ih => simpa only [List.cons_append, follow_here] using ih
  | case3 links place rest _ ih => simpa only [List.cons_append, follow_up] using ih
  | case4 links place n rest hhere hup hlength =>
    refine .inr fun more found h => ?_
    simp [follow, hhere, hup, hlength] at h
  | case5 links place n rest hhere hup hlength next hitem =>
    refine .inr fun more found h => ?_
    simp [follow_name hhere hup hlength, show t.item? (place ++ [n]) = none from hitem] at h
  | case6 links place n rest hhere hup hlength next hitem ih =>
    have hitem : t.item? (place ++ [n]) = some .directory := hitem
    simpa only [List.cons_append, follow_name hhere hup hlength, hitem] using ih
  | case7 links place n rest hhere hup hlength next bytes hitem
  | case8 links place n rest hhere hup hlength next bytes hitem =>
    -- Nothing comes behind a file.
    refine .inr fun more found h => ?_
    simp only [List.cons_append, follow_name hhere hup hlength,
      show t.item? (place ++ [n]) = some (.file bytes) from hitem] at h
    split at h
    next hmore =>
      cases h
      exact ⟨(List.append_eq_nil_iff.1 (List.isEmpty_iff.1 hmore)).2, by simp⟩
    next => cases h
  | case9 links place n rest hhere hup hlength next target hitem hlast => simp at hlast
  | case10 place n rest hhere hup hlength next target hitem =>
    refine .inr fun more found h => ?_
    simp [follow_name hhere hup hlength, show t.item? (place ++ [n]) = some (.link target) from hitem] at h
  | case11 place n rest hhere hup hlength next target hitem _ links htarget =>
    refine .inr fun more found h => ?_
    simp [follow_name hhere hup hlength, show t.item? (place ++ [n]) = some (.link target) from hitem, htarget] at h
  | case12 place n rest hhere hup hlength next target hitem _ links htarget ih =>
    have hitem : t.item? (place ++ [n]) = some (.link target) := hitem
    simpa [follow_name hhere hup hlength, hitem, htarget] using ih

theorem follow_append (h : t.follow true links place ps = .ok (place', .directory)) :
    ∃ links', ∀ rest, t.follow true links place (ps ++ rest) = t.follow true links' place' rest := by
  rcases t.passes links place ps with ⟨found, links', hfound, happend⟩ | hnone
  · rw [h] at hfound
    cases hfound
    exact ⟨links', happend⟩
  · rw [← List.append_nil ps] at h
    exact absurd rfl (hnone [] _ h).2

theorem directory_of_follow_append (hrest : rest ≠ []) {found : Place × Item}
    (h : t.follow true links place (ps ++ rest) = .ok found) :
    ∃ place', t.follow true links place ps = .ok (place', .directory) := by
  rcases t.passes links place ps with ⟨place', -, hfound, -⟩ | hnone
  · exact ⟨place', hfound⟩
  · exact absurd (hnone rest found h).1 hrest

theorem ne_nil_of_follow_file {bytes : List UInt8} (h : t.follow true links place ps = .ok (place', .file bytes)) :
    ps ≠ [] := by
  rintro rfl
  rw [follow] at h
  cases h

/-- Without links a file stands under the last name of the path that leads to it. -/
theorem Linkless.follow_file (ht : t.Linkless) {bytes : List UInt8}
    (h : t.follow true links place ps = .ok (place', .file bytes)) :
    t.item? place' = some (.file bytes) ∧ place'.getLast? = ps.getLast? := by
  have hcons : ∀ {links place rest} (n : List UInt8), t.follow true links place rest = .ok (place', .file bytes) →
      (n :: rest).getLast? = rest.getLast? := by
    intro links place rest n h
    obtain ⟨m, rest, rfl⟩ := List.exists_cons_of_ne_nil (ne_nil_of_follow_file h)
    exact List.getLast?_cons_cons
  have hlink : ∀ place target, place ≠ [] → t.item? place ≠ some (.link target) := by
    intro place target hplace hitem
    cases ht _ (mem_of_item? hplace hitem)
  fun_induction follow t true links place ps with
  | case1 => cases h
  | case2 links place rest ih | case3 links place rest _ ih =>
    rw [hcons _ h]
    exact ih h
  | case4 | case5 | case8 => cases h
  | case6 links place n rest _ _ _ next hitem ih =>
    rw [hcons n h]
    exact ih h
  | case7 links place n rest _ _ _ next bytes' hitem hrest =>
    obtain ⟨rfl, rfl⟩ : place ++ [n] = place' ∧ bytes' = bytes := by simpa [next] using h
    rw [List.isEmpty_iff.1 hrest]
    exact ⟨hitem, by simp⟩
  | case9 links place n rest _ _ _ next target hitem
  | case10 place n rest _ _ _ next target hitem
  | case11 place n rest _ _ _ next target hitem
  | case12 place n rest _ _ _ next target hitem =>
    -- There is no link to follow.
    exact absurd hitem (hlink _ _ (by simp [next]))

/-! ## Paths -/

/-- The pieces of a path but for the one that asks for a directory. -/
def namedPieces (p : Path) : List (List UInt8) := (p.bytes.splitOn slash).filter (!·.isEmpty)

theorem pieces_eq (p : Path) : pieces p = namedPieces p ∨ pieces p = namedPieces p ++ [[dot]] := by
  rw [pieces]
  split
  · exact .inr rfl
  · exact .inl rfl

theorem pieces_child (p : Path) {s : List UInt8} (hs : s ≠ []) :
    pieces (p.child s) = namedPieces p ++ pieces ⟨s⟩ := by
  by_cases hp : p.bytes = []
  · rw [child, if_pos (by simp [hp]), namedPieces, hp]
    rfl
  · obtain ⟨front, -, hchild, hpieces⟩ := splitOn_child hp s
    obtain ⟨bytes, -, hbytes, -⟩ := child_bytes hp s
    have hnamed : namedPieces p = front.filter (!·.isEmpty) := by
      rw [namedPieces]
      rcases hpieces with hpieces | hpieces
      · rw [hpieces]
      · rw [hpieces, List.filter_append]
        exact List.append_nil _
    have hlast : (p.child s).bytes.getLast? = s.getLast? := by
      rw [hbytes, List.getLast?_append, List.getLast?_eq_some_getLast hs, Option.some_or]
    rw [pieces, pieces, hlast, hchild, List.filter_append, ← hnamed]
    split
    · exact List.append_assoc _ _ _
    · rfl

theorem pieces_name (hn : IsName n) : pieces ⟨n⟩ = [n] := by
  have hlast : n.getLast? ≠ some slash := fun h => hn.slash_notMem (List.mem_of_getLast? h)
  rw [pieces, if_neg (by simpa using hlast), splitOn_of_notMem hn.slash_notMem]
  simp [hn.ne_nil]

/-- A path leads to an item, however long it is. -/
structure Leads (t : FileTree) (p : Path) (place : Place) (item : Item) : Prop where
  bytes_ne : p.bytes ≠ []
  zero_notMem : 0 ∉ p.bytes
  follow : t.follow true linkLimit (if p.isAbsolute then [] else t.here) (pieces p) = .ok (place, item)

theorem leads_of_locate (h : t.locate true p = .ok (place, item)) : t.Leads p place item := by
  rw [locate] at h
  split at h
  next => cases h
  next hzero =>
    split at h
    next => cases h
    next hp =>
      split at h
      next => cases h
      next => exact ⟨by simpa using hp, by simpa using hzero, h⟩

theorem isTooLong_of_locate (h : t.locate true p = .ok (place, item)) : p.isTooLong = false := by
  rw [locate] at h
  split at h
  next => cases h
  next =>
    split at h
    next => cases h
    next =>
      split at h
      next => cases h
      next hlong => exact Bool.eq_false_iff.2 hlong

theorem locate_here (t : FileTree) : t.locate true (ofString ".") = .ok (t.here, .directory) := by
  have hpieces : pieces (ofString ".") = [[dot]] := by decide +kernel
  rw [locate, if_neg (by decide +kernel), if_neg (by decide +kernel), if_neg (by decide +kernel), hpieces, follow_here,
    follow]
  rfl

theorem stat_eq_ok_iff : t.stat p = .ok item ↔ ∃ place, t.locate true p = .ok (place, item) := by
  rw [stat]
  rcases t.locate true p with fault | ⟨place, item'⟩ <;> simp [Except.map]

theorem read_eq_ok_iff {bytes : List UInt8} : t.read p = .ok bytes ↔ t.stat p = .ok (.file bytes) := by
  rw [read]
  rcases t.stat p with fault | item
  · simp [bind, Except.bind]
  · cases item <;> simp [bind, Except.bind, pure, Except.pure, throw, throwThe, MonadExceptOf.throw]

theorem Leads.locate (h : t.Leads p place item) (hlength : p.bytes.length < 4096) :
    t.locate true p = .ok (place, item) := by
  rw [FileTree.locate, if_neg (by simpa using h.zero_notMem), if_neg (by simpa using h.bytes_ne),
    isTooLong_eq_false_iff.2 hlength, if_neg Bool.false_ne_true]
  exact h.follow

/-- A relative path of one name leads to the file of that name. -/
theorem read_name {bytes : List UInt8} (hn : IsName n) (hfile : t.item? (t.here ++ [n]) = some (.file bytes)) :
    t.read ⟨n⟩ = .ok bytes := by
  have hlength := hn.length_le
  have hrelative : isAbsolute ⟨n⟩ = false :=
    beq_eq_false_iff_ne.2 fun h => hn.slash_notMem (List.mem_of_head? h)
  have hleads : t.Leads ⟨n⟩ (t.here ++ [n]) (.file bytes) := by
    refine ⟨hn.ne_nil, hn.zero_notMem, ?_⟩
    rw [hrelative, if_neg Bool.false_ne_true, pieces_name hn, follow_name hn.ne_here hn.ne_up (by omega), hfile]
    rfl
  exact read_eq_ok_iff.2 (stat_eq_ok_iff.2 ⟨_, hleads.locate (Nat.lt_of_le_of_lt hlength (by decide))⟩)

theorem Leads.unique {item' : Item} (h : t.Leads p place item) (h' : t.Leads p place' item') :
    place = place' ∧ item = item' := by
  have := h.follow.symm.trans h'.follow
  simpa using this

theorem Leads.namedPieces (h : t.Leads p place .directory) :
    t.follow true linkLimit (if p.isAbsolute then [] else t.here) (namedPieces p) = .ok (place, .directory) := by
  have h := h.follow
  rcases pieces_eq p with hpieces | hpieces
  · rwa [hpieces] at h
  · rw [hpieces] at h
    obtain ⟨place', hnamed⟩ := directory_of_follow_append (by simp) h
    obtain ⟨links', happend⟩ := follow_append hnamed
    rw [happend, follow_here, FileTree.follow] at h
    cases h
    exact hnamed

/-- **A directory's path and the name of an entry lead to the entry.** -/
theorem Leads.child (h : t.Leads p place .directory) (hn : IsName n) (hitem : t.item? (place ++ [n]) = some item)
    (hlink : item.isLink = false) : t.Leads (p.child n) (place ++ [n]) item := by
  refine ⟨child_bytes_ne_nil h.bytes_ne n, zero_notMem_child h.zero_notMem hn, ?_⟩
  obtain ⟨links', happend⟩ := follow_append h.namedPieces
  rw [pieces_child p hn.ne_nil, pieces_name hn, isAbsolute_child h.bytes_ne, happend,
    follow_name hn.ne_here hn.ne_up (by have := hn.length_le; omega), hitem]
  cases item with
  | file bytes => rfl
  | directory => exact FileTree.follow.eq_1 ..
  | link target => cases hlink

end FileTree

end LineCensus
