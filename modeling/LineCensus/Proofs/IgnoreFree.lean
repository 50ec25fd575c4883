/-
Trees without ignore files. Where no rules are laid down, nothing is said about any path
(`Chain.Silent.verdict?_eq_none`), and in a tree without ignore files no directory lays down
rules (`IgnoreFree.silent`). A tree without links is such a tree if nothing in it has the
name of an ignore file (`Linkless.ignoreFree`).
-/
import LineCensus.Ignore.Level
import LineCensus.Proofs.Following

namespace LineCensus

open LineCensus.Path FileTree

variable {t : FileTree} {rules : Ignore.Chain}

namespace Ignore

/-- The rules that bear on the entries of a directory, with its own. -/
def Chain.enter (c : Chain) (t : FileTree) (directory : Path) : Chain :=
  { c with inside := .ofDirectory t directory :: c.inside }

/-- A directory that lays down no rules. -/
structure Level.Silent (l : Level) : Prop where
  own : l.own = []
  shared : l.shared = []
  excluded : l.excluded = []

/-- Neither a directory nor the user lays down rules. -/
structure Chain.Silent (c : Chain) : Prop where
  directories : ∀ l ∈ c.inside ++ c.above, l.Silent
  user : c.user.Silent

theorem findSome?_verdict_eq_none {lists : Level → List Rule} {levels : List (Level × List UInt8)}
    (h : ∀ x ∈ levels, lists x.1 = []) (isDirectory : Bool) :
    (levels.findSome? fun (l, path) => l.verdict? lists isDirectory path) = none := by
  rw [List.findSome?_eq_none_iff]
  rintro ⟨l, path⟩ hx
  have hnone : lists l = [] := h _ hx
  simp only [Level.verdict?, hnone]
  rfl

/-- Where there are no rules, nothing is said about a path. -/
theorem Chain.Silent.verdict?_eq_none {c : Chain} (h : c.Silent) (path : Path) (isDirectory : Bool) :
    c.verdict? path isDirectory = none := by
  have hlevels : ∀ bytes, ∀ x ∈ c.levels bytes, x.1.Silent := by
    intro bytes x hx
    rw [levels, List.mem_append, List.mem_map, List.mem_map] at hx
    rcases hx with ⟨l, hl, rfl⟩ | ⟨l, hl, rfl⟩
    · exact h.directories l (List.mem_append_left _ hl)
    · exact h.directories l (List.mem_append_right _ hl)
  have hversioned : ∀ bytes, ∀ x ∈ inRepository (c.levels bytes), x ∈ c.levels bytes := by
    intro bytes x hx
    rcases List.mem_append.1 hx with hx | hx
    · exact (List.takeWhile_subset _) hx
    · exact (List.dropWhile_subset _) (List.mem_of_mem_take hx)
  rw [verdict?]
  dsimp only
  rw [findSome?_verdict_eq_none fun x hx => (hlevels _ x hx).own]
  split
  · rw [findSome?_verdict_eq_none fun x hx => (hlevels _ x (hversioned _ x hx)).shared,
      findSome?_verdict_eq_none fun x hx => (hlevels _ x (hversioned _ x hx)).excluded,
      findSome?_verdict_eq_none (List.forall_mem_singleton.2 h.user.shared)]
    rfl
  · rfl

end Ignore

/-- A tree without ignore files: where the rules of a directory or of the user are looked
for, there is no file. -/
structure FileTree.IgnoreFree (t : FileTree) : Prop where
  own : ∀ directory bytes, t.read (Ignore.Level.named directory ".ignore") ≠ .ok bytes
  shared : ∀ directory bytes, t.read (Ignore.Level.named directory ".gitignore") ≠ .ok bytes
  excluded : ∀ directory p bytes, Ignore.Level.repository? t directory = some p →
    t.read (Ignore.Level.named p "info/exclude") ≠ .ok bytes
  user : ∀ p bytes, t.userIgnore = some p → t.read p ≠ .ok bytes

theorem Ignore.Level.rulesAt_eq_nil {p : Path} (h : ∀ bytes, t.read p ≠ .ok bytes) : rulesAt t p = [] := by
  rw [rulesAt]
  split
  next bytes hbytes => exact absurd hbytes (h bytes)
  next => rfl

open Ignore.Level in
theorem FileTree.IgnoreFree.silent (h : t.IgnoreFree) (directory : Path) : (ofDirectory t directory).Silent := by
  refine ⟨rulesAt_eq_nil (h.own directory), rulesAt_eq_nil (h.shared directory), ?_⟩
  rw [ofDirectory]
  dsimp only
  split
  next p hp => exact rulesAt_eq_nil (h.excluded directory p · hp)
  next => rfl

open Ignore.Level in
theorem FileTree.IgnoreFree.silent_user (h : t.IgnoreFree) (directory : Path) : (ofUser t directory).Silent := by
  refine ⟨rfl, ?_, rfl⟩
  rw [ofUser]
  dsimp only
  split
  next p hp => exact rulesAt_eq_nil (h.user p · hp)
  next => rfl

theorem FileTree.IgnoreFree.enter (h : t.IgnoreFree) (hrules : rules.Silent) (directory : Path) :
    (rules.enter t directory).Silent where
  directories := List.forall_mem_cons.2 ⟨h.silent directory, hrules.directories⟩
  user := hrules.user

/-- Without links a file that is read below a directory by a name has the end of that name. -/
theorem FileTree.Linkless.exists_item_of_read (h : t.Linkless) {directory : Path} {name : String} {bytes : List UInt8}
    (hname : pieces (ofString name) ≠ []) (hread : t.read (Ignore.Level.named directory name) = .ok bytes) :
    ∃ x ∈ t.items, x.1.getLast? = (pieces (ofString name)).getLast? ∧ x.2 = .file bytes := by
  have hne : Text.encode name.toList ≠ [] := by
    intro hnil
    rw [ofString, hnil] at hname
    exact hname rfl
  obtain ⟨place, hlocate⟩ := stat_eq_ok_iff.1 (read_eq_ok_iff.1 hread)
  have hfollow := (leads_of_locate hlocate).follow
  rw [Ignore.Level.named, pieces_child directory hne] at hfollow
  obtain ⟨hitem, hlast⟩ := h.follow_file hfollow
  rw [List.getLast?_append, ← ofString, List.getLast?_eq_some_getLast hname, Option.some_or,
    ← List.getLast?_eq_some_getLast hname] at hlast
  refine ⟨_, mem_of_item? ?_ hitem, hlast, rfl⟩
  rintro rfl
  exact hname (List.getLast?_eq_none_iff.1 hlast.symm)

/-- A tree without links in which nothing has the name of an ignore file, and the user keeps
none. -/
theorem FileTree.Linkless.ignoreFree (h : t.Linkless) (huser : t.userIgnore = none)
    (hnames : ∀ x ∈ t.items, ∀ name ∈ [".ignore", ".gitignore", "exclude"],
      x.1.getLast? ≠ some (Text.encode name.toList)) : t.IgnoreFree := by
  have hnone : ∀ name end', end' ∈ [".ignore", ".gitignore", "exclude"] →
      (pieces (ofString name)).getLast? = some (Text.encode end'.toList) →
      ∀ directory bytes, t.read (Ignore.Level.named directory name) ≠ .ok bytes := by
    intro name end' hmem hlast directory bytes hread
    have hname : pieces (ofString name) ≠ [] := by
      intro hnil
      rw [hnil] at hlast
      cases hlast
    obtain ⟨x, hx, hend, -⟩ := h.exists_item_of_read hname hread
    exact hnames x hx end' hmem (hend.trans hlast)
  exact ⟨hnone ".ignore" ".ignore" (by simp) (by decide +kernel),
    hnone ".gitignore" ".gitignore" (by simp) (by decide +kernel),
    fun directory p bytes _ => hnone "info/exclude" "exclude" (by simp) (by decide +kernel) p bytes,
    fun p bytes hp => by simp [huser] at hp⟩

end LineCensus
