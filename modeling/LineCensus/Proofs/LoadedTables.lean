/-
Definitions from a file, up to the table a run works with. What a file is read as has no defect, as each
definition is tested alone when the file is read (`valid_of_load`); so when the table of known languages
is put behind it, only a repeated id can be in the way (`Registry.blames_of_override_load`). The known
languages are not tested then, but they would pass (`Registry.acceptable_builtin`), and so every table
that can come about holds valid definitions only (`Registry.Reachable.valid`), the one of a run among
them (`reachable_of_languages`).
-/
import LineCensus.Command.Run
import LineCensus.Proofs.Following
import LineCensus.Proofs.Lookup

namespace LineCensus.Language

variable {t : FileTree} {p : Path} {ds : List Definition} {d : Definition}

/-! ## Files -/

/-- The definitions of a text in the format that its file's name says. -/
def listOf? (p : Path) (text : String) : Option (List Definition) :=
  if isYaml p then Definition.listOfYaml? text else Definition.listOfJson? text

theorem definitionsOf_eq_ok_iff {text : String} :
    definitionsOf p text = .ok ds ↔ listOf? p text = some ds ∧ ds.all (·.defect?.isNone) = true := by
  have htest (l : List Definition) : (l.findSome? fun d => d.defect?.map fun e => (d.id, e)) = none ↔
      l.all (·.defect?.isNone) = true := by
    simp [List.findSome?_eq_none_iff]
  have htaken {parsed : Option (List Definition)} {f : Failure} {l : List Definition} :
      parsed.elim (.error f) Except.ok = .ok l ↔ parsed = some l := by
    cases parsed <;> simp
  unfold definitionsOf listOf?
  -- The same test ends the reading of both formats.
  split
  all_goals
    constructor
    · intro h
      obtain ⟨l, hl, htested⟩ := Failure.exists_of_bind_eq_ok h
      dsimp only at htested
      split at htested
      next => cases htested
      next hnone =>
        cases htested
        exact ⟨htaken.1 hl, (htest _).1 hnone⟩
    · rintro ⟨hl, hnone⟩
      simp only [htaken.2 hl, bind, Except.bind, (htest _).2 hnone]

theorem load_eq_ok_iff : load t p = .ok ds ↔ ∃ bytes text, t.read p = .ok bytes ∧ Path.text? bytes = some text ∧
    listOf? p text = some ds ∧ ds.all (·.defect?.isNone) = true := by
  simp only [← definitionsOf_eq_ok_iff]
  rw [load, FileTree.readText]
  cases t.read p with
  | error fault => simp [bind, Except.bind]
  | ok bytes => cases htext : Path.text? bytes <;> simp [bind, Except.bind, htext]

theorem valid_of_load (h : load t p = .ok ds) : ∀ d ∈ ds, d.Valid := by
  obtain ⟨_, _, -, -, -, hnone⟩ := load_eq_ok_iff.1 h
  intro d hd
  exact Definition.defect?_eq_none_iff.1 (Option.isNone_iff_eq_none.1 (List.all_eq_true.1 hnone d hd))

namespace Registry

variable {r : Registry} {f : Refusal} {x : List Definition}

theorem override_eq_error_iff : r.override x = .error f ↔ Registry.ofDefinitions x = .error f := by
  rw [override]
  cases Registry.ofDefinitions x <;> simp [Except.map]

/-- Definitions of a file are refused for nothing but a repeated id. -/
theorem blames_of_override_load (hload : load t p = .ok ds) (h : r.override ds = .error f) :
    f.defect = .duplicateId ∧ ∃ before after, ds = before ++ f.definition :: after ∧
      ∃ e ∈ before, Text.sameLetters e.id f.definition.id = true := by
  obtain ⟨before, after, rfl, -, hblames⟩ := ofDefinitions_eq_error_iff.1 (override_eq_error_iff.1 h)
  rcases hblames with ⟨hinvalid, -⟩ | ⟨-, hdefect, hrepeated⟩
  · exact absurd (valid_of_load hload f.definition (by simp)) hinvalid
  · exact ⟨hdefect, before, after, rfl, hrepeated⟩

theorem Reachable.valid (h : r.Reachable) (hd : d ∈ r.definitions) : d.Valid := by
  obtain ⟨ds, rfl, hds⟩ := h.exists_index
  rw [definitions_index] at hd
  exact hds.valid d hd

end Registry

theorem reachable_of_languages {definitions : Option Path} {r : Registry}
    (h : Command.languages t definitions = .ok r) : r.Reachable := by
  unfold Command.languages at h
  split at h
  next =>
    cases h
    exact .builtin
  next path =>
    split at h
    next => cases h
    next ds _ =>
      cases hoverride : Registry.builtin.override ds with
      | error refusal =>
        rw [hoverride] at h
        cases h
      | ok table =>
        rw [hoverride] at h
        cases h
        exact .override .builtin hoverride

/-- **Definitions are accepted exactly if none is at fault, and no other get into a run.** A list is
accepted if its definitions are valid and no two have the same id; if not, the definition that is named is
the first one that is invalid or has the id of one in front of it. What is read from a file can only be
refused for a repeated id when the known languages are put behind it, and otherwise gives a table of
definitions without a defect. So no run meets an empty token in the grammar of any language. -/
theorem acceptance_of_definitions :
    (∀ ds, (∃ r, Registry.ofDefinitions ds = .ok r) ↔ Registry.Acceptable ds) ∧
    (∀ ds f, Registry.ofDefinitions ds = .error f ↔
      ∃ before after, ds = before ++ f.definition :: after ∧ Registry.Acceptable before ∧ f.Blames before) ∧
    (∀ t p ds, load t p = .ok ds →
      (∀ f, Registry.builtin.override ds = .error f → f.defect = .duplicateId ∧
        ∃ before after, ds = before ++ f.definition :: after ∧
          ∃ e ∈ before, Text.sameLetters e.id f.definition.id = true) ∧
      ∀ r, Registry.builtin.override ds = .ok r → ∀ d ∈ r.definitions, d.defect? = none) ∧
    ∀ t definitions r, Command.languages t definitions = .ok r →
      (∀ d ∈ r.definitions, d.defect? = none) ∧ ∀ id d, r.get? id = some d → d.grammar.hasTokens = true := by
  refine ⟨fun ds => ?_, fun ds f => Registry.ofDefinitions_eq_error_iff,
    fun t p ds hload => ⟨fun f => ?_, ?_⟩, ?_⟩
  · simp only [Registry.ofDefinitions_eq_ok_iff, exists_and_left, exists_eq, and_true]
  · exact Registry.blames_of_override_load hload
  · intro r hr d hd
    exact Definition.defect?_eq_none_iff.2 ((Registry.Reachable.override .builtin hr).valid hd)
  · intro t definitions r hr
    have hvalid : ∀ d ∈ r.definitions, d.Valid := fun d hd => (reachable_of_languages hr).valid hd
    refine ⟨fun d hd => Definition.defect?_eq_none_iff.2 (hvalid d hd), fun id d hd => ?_⟩
    exact (hvalid d (Registry.mem_of_look hd)).hasTokens

/-- A language in JSON, and with one of the same id behind it in YAML. -/
def nimFiles : FileTree where
  items := [
    ([Text.encode "nim.json".toList], .file (Text.encode
      "\x7b\"languages\": [\x7b\"id\": \"nim\", \"line_comments\": [\"#\"]\x7d]\x7d".toList)),
    ([Text.encode "twice.yml".toList], .file (Text.encode
      "languages:\n  - id: nim\n    line_comments: ['#']\n  - id: NIM\n".toList))]

def Definition.hashNim : Definition := { id := "nim", grammar := { lineComments := ["#"] } }

def Definition.loudNim : Definition := { id := "NIM" }

theorem load_nim : load nimFiles (.ofString "nim.json") = .ok [.hashNim] :=
  load_eq_ok_iff.2 ⟨_, "\x7b\"languages\": [\x7b\"id\": \"nim\", \"line_comments\": [\"#\"]\x7d]\x7d",
    FileTree.read_name (by decide +kernel) rfl, by decide +kernel⟩

theorem load_twice : load nimFiles (.ofString "twice.yml") = .ok [.hashNim, .loudNim] :=
  load_eq_ok_iff.2 ⟨_, "languages:\n  - id: nim\n    line_comments: ['#']\n  - id: NIM\n",
    FileTree.read_name (by decide +kernel) rfl, by decide +kernel⟩

/-- What the file with a repeated id leads to, and the file without. -/
theorem acceptance_of_definitions_nim :
    (load nimFiles (.ofString "twice.yml") = .ok [.hashNim, .loudNim] ∧
      ∃ f, Registry.builtin.override [.hashNim, .loudNim] = .error f ∧ f.defect = .duplicateId ∧
        f.definition = .loudNim) ∧
    load nimFiles (.ofString "nim.json") = .ok [.hashNim] ∧
    ∃ r, Registry.builtin.override [.hashNim] = .ok r ∧
      Command.languages nimFiles (some (.ofString "nim.json")) = .ok r ∧
      (∀ d ∈ r.definitions, d.defect? = none) ∧
      r.get? "Nim" = some .hashNim ∧ Definition.hashNim.grammar.hasTokens = true := by
  obtain ⟨haccepted, hrefused, hloaded, hrun⟩ := acceptance_of_definitions
  have hnim : Registry.Acceptable [.hashNim] := Registry.acceptable_iff.2 (by decide +kernel)
  have hloud : Definition.loudNim.Valid := Definition.defect?_eq_none_iff.1 (by decide +kernel)
  refine ⟨⟨load_twice, ⟨.loudNim, .duplicateId⟩, ?_⟩, load_nim, ?_⟩
  · have hblames : Registry.Refusal.Blames ⟨.loudNim, .duplicateId⟩ [.hashNim] :=
      .inr ⟨hloud, rfl, .hashNim, by decide, by decide +kernel⟩
    have hrefusal : Registry.builtin.override [.hashNim, .loudNim] = .error ⟨.loudNim, .duplicateId⟩ :=
      Registry.override_eq_error_iff.2 ((hrefused _ _).2 ⟨[.hashNim], [], rfl, hnim, hblames⟩)
    exact ⟨hrefusal, ((hloaded _ _ _ load_twice).1 _ hrefusal).1, rfl⟩
  · obtain ⟨table, htable⟩ := (haccepted [.hashNim]).2 hnim
    have hr := Registry.override_index_of_ok htable Language.builtin
    have hlanguages : Command.languages nimFiles (some (.ofString "nim.json")) =
        .ok (.index ([.hashNim] ++ Registry.kept Language.builtin [.hashNim])) := by
      rw [Command.languages, load_nim]
      exact congrArg (Except.mapError _) hr
    have hget : Registry.get? (.index ([.hashNim] ++ Registry.kept Language.builtin [.hashNim])) "Nim" =
        some .hashNim := by
      rw [Registry.get?_index]
      decide +kernel
    exact ⟨_, hr, hlanguages, (hloaded _ _ _ load_nim).2 _ hr, hget, (hrun _ _ _ hlanguages).2 _ _ hget⟩

end LineCensus.Language
