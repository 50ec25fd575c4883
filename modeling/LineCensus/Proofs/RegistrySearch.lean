/-
A table of languages asked by an index answers as a search through its definitions does:
the first definition that has the key is found (`get?_index`, `byExtension?_index`,
`byFileName?_index`). An index keeps the place that was entered first (`getElem?_place`), and
the definitions are entered in their order.
-/
import LineCensus.Language.Registry
import Mathlib.Data.List.Basic
import Std.Data.HashMap.Lemmas

namespace LineCensus.Language

variable {ds : List Definition} {keys : Definition → List String} {key : String}

namespace Index

theorem getElem?_enter (index : Index) (place : Nat) (entered key : String) :
    (index.enter place entered)[key]? = index[key]?.or (if key = entered then some place else none) := by
  rw [enter, Std.HashMap.getElem?_insertIfNew]
  by_cases hmem : key ∈ index
  · obtain ⟨place', hplace⟩ := Option.isSome_iff_exists.1 (Std.HashMap.isSome_getElem?_iff_mem.2 hmem)
    rw [hplace, Option.some_or, if_neg]
    rintro ⟨hkey, hnew⟩
    exact hnew (eq_of_beq hkey ▸ hmem)
  · rw [Std.HashMap.getElem?_eq_none hmem, Option.none_or]
    by_cases hkey : key = entered
    · subst hkey
      simp [hmem]
    · simp [hkey, Ne.symm hkey]

/-- Enter every key of a definition for its place. -/
def place (keys : Definition → List String) (index : Index) (placed : Definition × Nat) : Index :=
  (keys placed.1).foldl (enter · placed.2 ·) index

theorem getElem?_place (keys : Definition → List String) (index : Index) (placed : Definition × Nat) (key : String) :
    (place keys index placed)[key]? =
      index[key]?.or (if (keys placed.1).contains key then some placed.2 else none) := by
  rw [place]
  induction keys placed.1 generalizing index with
  | nil => simp
  | cons entered rest ih =>
    rw [List.foldl_cons, ih, getElem?_enter, Option.or_assoc, List.contains_cons]
    by_cases hkey : key = entered <;> simp [hkey]

/-- What an index says after these definitions: its own word, or else the place of the first
that has the key. -/
theorem getElem?_foldl_place (keys : Definition → List String) (index : Index) (n : Nat) (key : String) :
    ((ds.zipIdx n).foldl (place keys) index)[key]? =
      index[key]?.or ((ds.findIdx? fun d => (keys d).contains key).map (n + ·)) := by
  induction ds generalizing index n with
  | nil => simp
  | cons d ds ih =>
    rw [List.zipIdx_cons, List.foldl_cons, ih, getElem?_place, Option.or_assoc, List.findIdx?_cons]
    split
    · simp
    · rw [Option.none_or, Option.map_map]
      congr 2
      funext i
      exact Nat.add_right_comm n 1 i

end Index

namespace Registry

theorem definitions_index (ds : List Definition) : (index ds).definitions = ds :=
  (List.foldl_hom definitions fun _ _ => rfl).symm.trans (List.foldl_fixed _)

theorem byId_index (ds : List Definition) : (index ds).byId = ds.zipIdx.foldl (Index.place fun d => [d.key]) ∅ :=
  (List.foldl_hom byId fun _ _ => rfl).symm

theorem byExtension_index (ds : List Definition) :
    (index ds).byExtension = ds.zipIdx.foldl (Index.place fun d => d.extensions.map Definition.extensionKey) ∅ :=
  (List.foldl_hom byExtension fun _ _ => rfl).symm

theorem byFileName_index (ds : List Definition) :
    (index ds).byFileName = ds.zipIdx.foldl (Index.place Definition.fileNames) ∅ :=
  (List.foldl_hom byFileName fun _ _ => rfl).symm

/-- **An index finds the first definition with the key.** -/
theorem look_foldl_place (ds : List Definition) (keys : Definition → List String) (key : String) :
    (index ds).look (ds.zipIdx.foldl (Index.place keys) ∅) key = ds.find? fun d => (keys d).contains key := by
  rw [look, Index.getElem?_foldl_place, Std.HashMap.getElem?_empty, Option.none_or, definitions_index,
    List.find?_eq_bind_findIdx?_getElem?, Option.bind_map]
  simp only [Function.comp_def, Nat.zero_add]

theorem get?_index (ds : List Definition) (id : String) :
    (index ds).get? id = ds.find? fun d => d.key == Text.lower id := by
  rw [get?, byId_index, look_foldl_place]
  simp only [List.contains_cons, List.contains_nil, Bool.or_false, Bool.beq_comm]

theorem byExtension?_index (ds : List Definition) (extension : String) : (index ds).byExtension? extension =
    ds.find? fun d => (d.extensions.map Definition.extensionKey).contains (Definition.extensionKey extension) := by
  rw [byExtension?, byExtension_index, look_foldl_place]

theorem byFileName?_index (ds : List Definition) (name : String) :
    (index ds).byFileName? name = ds.find? fun d => d.fileNames.contains name := by
  rw [byFileName?, byFileName_index, look_foldl_place]

/-- The language of a file in a table: of the definitions that claim its whole name, else of
those that claim its extension, the first. -/
theorem detect?_index (ds : List Definition) (p : Path) : (index ds).detect? p =
    (p.fileNameText?.bind fun name => ds.find? fun d => d.fileNames.contains name).or
      (p.extensionText?.bind fun extension => ds.find? fun d =>
        (d.extensions.map Definition.extensionKey).contains (Definition.extensionKey extension)) := by
  rw [detect?, funext (byFileName?_index ds), funext (byExtension?_index ds)]

end Registry

/-- A language known by one extension. -/
def Definition.plainC : Definition := { id := "c", extensions := ["c"] }

/-- A table of one language. -/
def Registry.onlyC : Registry := .index [.plainC]

theorem Registry.get?_onlyC : onlyC.get? "c" = some .plainC := by
  rw [onlyC, get?_index]
  decide +kernel

theorem Registry.detect?_onlyC {p : Path} (h : p.extensionText? = some "c") : onlyC.detect? p = some .plainC := by
  have hname : (p.fileNameText?.bind fun name => [Definition.plainC].find? fun d => d.fileNames.contains name) = none :=
    Option.bind_eq_none_iff.2 fun _ _ => rfl
  rw [onlyC, detect?_index, hname, h]
  decide +kernel

theorem Registry.map_id_detect?_onlyC {p : Path} (h : p.extensionText? = some "c") :
    (onlyC.detect? p).map Definition.id = some "c" := by rw [detect?_onlyC h]; rfl

end LineCensus.Language
