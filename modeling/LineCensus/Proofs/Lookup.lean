/-
The answers of every table of languages that can come about are those of a search through its
definitions, first to last. The three ways of asking are three tests of a definition (`hasId`,
`hasExtension`, `hasFileName`), and since such a table is the table of its definitions
(`Reachable.eq_index`), each index finds the first definition that passes its test
(`look_foldl_place`). What the indexes hold are places in the table (`lt_of_getElem?_foldl_place`). The
language of a file is looked for by the last part of its path alone (`searchPart`).
-/
import LineCensus.Proofs.Overriding

namespace LineCensus.Language

/-- A text without the dots in front of it. -/
def withoutDots (s : String) : String := String.ofList (s.toList.dropWhile (· == '.'))

namespace Definition

/-- Whether a definition has this id; the case of ASCII letters does not count. -/
def hasId (id : String) (d : Definition) : Bool := Text.sameLetters d.id id

/-- Whether one of the extensions is this one; dots in front and the case of ASCII letters do not count. -/
def hasExtension (extension : String) (d : Definition) : Bool :=
  d.extensions.any fun own => Text.sameLetters (withoutDots own) (withoutDots extension)

/-- Whether one of the file names is exactly this one. -/
def hasFileName (name : String) (d : Definition) : Bool := d.fileNames.contains name

/-- The search for the language of a file by the last part of its path: the first definition with
that name, or else the first one with the name's extension. What is not UTF-8 is not looked for. -/
def searchPart (ds : List Definition) : Path.Part → Option Definition
  | .name bytes =>
    ((Path.text? bytes).bind fun name => ds.find? (hasFileName name)).or
      (((Path.extensionOf bytes).bind Path.text?).bind fun extension => ds.find? (hasExtension extension))
  | _ => none

theorem hasExtension_eq (extension : String) (d : Definition) : d.hasExtension extension =
    (d.extensions.map extensionKey).contains (extensionKey extension) := by
  rw [List.contains_eq_any_beq, List.any_map, hasExtension]
  simp only [Function.comp_def, Bool.beq_comm (a := extensionKey extension)]
  rfl

end Definition

namespace Registry

open Definition

variable {r : Registry} {ds : List Definition} {d : Definition} {keys : Definition → List String} {key : String}
  {place : Nat}

theorem Reachable.eq_index (h : r.Reachable) : r = index r.definitions := by
  obtain ⟨ds, rfl, -⟩ := h.exists_index
  rw [definitions_index]

/-- An index holds places of the table. -/
theorem lt_of_getElem?_foldl_place (h : (ds.zipIdx.foldl (Index.place keys) ∅)[key]? = some place) :
    place < ds.length := by
  rw [Index.getElem?_foldl_place, Std.HashMap.getElem?_empty, Option.none_or] at h
  obtain ⟨i, hi, rfl⟩ := Option.map_eq_some_iff.1 h
  obtain ⟨hlt, -⟩ := List.findIdx?_eq_some_iff_getElem.1 hi
  omega

theorem Reachable.pairwise_ids (h : r.Reachable) :
    r.definitions.Pairwise fun a b => Text.sameLetters a.id b.id = false := by
  obtain ⟨ds, rfl, hds⟩ := h.exists_index
  rw [definitions_index]
  exact hds.distinct

theorem Reachable.get?_eq (h : r.Reachable) (id : String) : r.get? id = r.definitions.find? (hasId id) := by
  conv => lhs; rw [h.eq_index]
  exact get?_index r.definitions id

theorem Reachable.byExtension?_eq (h : r.Reachable) (extension : String) :
    r.byExtension? extension = r.definitions.find? (hasExtension extension) := by
  conv => lhs; rw [h.eq_index]
  rw [byExtension?_index]
  exact congrArg r.definitions.find? (funext fun d => (hasExtension_eq extension d).symm)

theorem Reachable.byFileName?_eq (h : r.Reachable) (name : String) :
    r.byFileName? name = r.definitions.find? (hasFileName name) := by
  conv => lhs; rw [h.eq_index]
  exact byFileName?_index r.definitions name

theorem Reachable.detect?_eq (h : r.Reachable) (p : Path) :
    r.detect? p = p.parts.getLast?.bind (searchPart r.definitions) := by
  have hname : r.byFileName? = fun name => r.definitions.find? (hasFileName name) := funext h.byFileName?_eq
  have hextension : r.byExtension? = fun extension => r.definitions.find? (hasExtension extension) :=
    funext h.byExtension?_eq
  unfold detect? Path.fileNameText? Path.extensionText? Path.extension? Path.fileName?
  rw [hname, hextension]
  cases p.parts.getLast? with
  | none => rfl
  | some part => cases part <;> rfl

/-- **Looking up is searching.** In every table that can come about no id is repeated, in any case of
ASCII letters, and what the indexes hold are places of the table. Asked for an id, an extension or a
file name, it gives the first of its definitions that has it. The language of a file is that of the
whole name its path ends in, if a definition has it, and else that of the name's extension; the rest
of the path makes no difference. -/
theorem Reachable.lookup_eq_search (h : r.Reachable) :
    (r.definitions.Pairwise fun a b => Text.sameLetters a.id b.id = false) ∧
    (∀ i ∈ [r.byId, r.byExtension, r.byFileName], ∀ (key : String) (place : Nat),
      i[key]? = some place → place < r.definitions.length) ∧
    (∀ id, r.get? id = r.definitions.find? (hasId id)) ∧
    (∀ extension, r.byExtension? extension = r.definitions.find? (hasExtension extension)) ∧
    (∀ name, r.byFileName? name = r.definitions.find? (hasFileName name)) ∧
    (∀ p, r.detect? p = p.parts.getLast?.bind (searchPart r.definitions)) ∧
    ∀ p q : Path, p.parts.getLast? = q.parts.getLast? → r.detect? p = r.detect? q := by
  refine ⟨h.pairwise_ids, ?_, h.get?_eq, h.byExtension?_eq, h.byFileName?_eq, h.detect?_eq, ?_⟩
  · have hindex := h.eq_index
    intro i hi key place hplace
    rw [hindex, byId_index, byExtension_index, byFileName_index] at hi
    simp only [List.mem_cons, List.not_mem_nil, or_false] at hi
    rcases hi with rfl | rfl | rfl <;> exact lt_of_getElem?_foldl_place hplace
  · intro p q hlast
    rw [h.detect?_eq, h.detect?_eq, hlast]

/-- Definitions of which one takes the place of a known language and one claims the extension of another. -/
def pythons : List Definition :=
  [{ id := "Python", displayName := "Python (custom)", extensions := ["py"] },
    { id := "cython", extensions := [".PYX", "rs"], fileNames := ["setup.pyx.in"] }]

/-- The table of the known languages with these put in front. -/
def withPythons : Registry := index (pythons ++ kept Language.builtin pythons)

theorem override_pythons : builtin.override pythons = .ok withPythons :=
  override_index_of_faultless (by decide +kernel) Language.builtin

theorem Reachable.lookup_eq_search_pythons :
    withPythons.Reachable ∧ (withPythons.get? "PYTHON").map label = some "Python (custom)" ∧
      (withPythons.byExtension? "..pyx").map Definition.id = some "cython" ∧
      (withPythons.byExtension? "RS").map Definition.id = some "cython" ∧
      (withPythons.byFileName? "makefile").map Definition.id = some "makefile" ∧
      withPythons.byFileName? "MAKEFILE" = none ∧
      (withPythons.detect? (.ofString "build.rs/CMakeLists.txt")).map Definition.id = some "cmake" ∧
      (withPythons.detect? (.ofString "notes.txt")).map Definition.id = some "plain-text" ∧
      withPythons.detect? (.ofString "x.rs") = withPythons.detect? (.ofString "/src/x.rs/.") := by
  have h : withPythons.Reachable := .override .builtin override_pythons
  have hds : withPythons.definitions = pythons ++ kept Language.builtin pythons := definitions_index _
  obtain ⟨-, -, hget, hextension, hname, hdetect, hcongr⟩ := h.lookup_eq_search
  rw [hget, hextension, hextension, hname, hname, hdetect, hdetect, hds]
  exact ⟨h, by decide +kernel, by decide +kernel, by decide +kernel, by decide +kernel, by decide +kernel,
    by decide +kernel, by decide +kernel, hcongr _ _ (by decide +kernel)⟩

end Registry

end LineCensus.Language
