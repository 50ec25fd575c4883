/-
Tables of languages as they come about: the empty one, that of the known languages, those of a list
that is accepted, and those in which accepted definitions take the place of others. A definition of a
table is kept only if its id is not among those put in front, so what is kept would still be accepted
together with them (`Acceptable.append_kept`); hence every table that comes about in this way is the
table of valid definitions with pairwise different ids (`Reachable.exists_index`).

Each of its definitions is therefore found by its id (`Reachable.get?_id`), and so is the language
of a path (`Reachable.get?_of_detect?`).
-/
import LineCensus.Proofs.Acceptance
import LineCensus.Proofs.RegistrySearch

namespace LineCensus.Language.Registry

variable {r added : Registry} {ds : List Definition} {d : Definition}

/-- The tables that can come about. -/
inductive Reachable : Registry → Prop where
  | empty : Reachable {}
  | builtin : Reachable builtin
  | ofDefinitions {ds : List Definition} {r : Registry} : ofDefinitions ds = .ok r → Reachable r
  | override {r r' : Registry} {extra : List Definition} :
      Reachable r → r.override extra = .ok r' → Reachable r'

/-! ## Ids -/

theorem contains_byId_index (ds : List Definition) (key : String) :
    (index ds).byId.contains key = (ds.map Definition.key).contains key := by
  rw [Std.HashMap.contains_eq_isSome_getElem?, byId_index, Index.getElem?_foldl_place, Std.HashMap.getElem?_empty,
    Option.none_or, Option.isSome_map, List.findIdx?_isSome, List.contains_eq_any_beq, List.any_map]
  simp only [List.contains_cons, List.contains_nil, Bool.or_false]
  rfl

/-- The definitions that `extra` does not take the place of. -/
def kept (ds extra : List Definition) : List Definition :=
  ds.filter fun d => !(extra.map Definition.key).contains d.key

theorem mem_kept_iff {extra : List Definition} :
    d ∈ kept ds extra ↔ d ∈ ds ∧ ∀ e ∈ extra, e.key ≠ d.key := by
  simp [kept]

theorem Acceptable.append_kept {extra : List Definition} (hextra : Acceptable extra) (h : Acceptable ds) :
    Acceptable (extra ++ kept ds extra) where
  valid d hd := (List.mem_append.1 hd).elim (hextra.valid d) fun hd => h.valid d (mem_kept_iff.1 hd).1
  distinct := by
    refine List.pairwise_append.2 ⟨hextra.distinct, h.distinct.sublist List.filter_sublist, fun e he d hd => ?_⟩
    rw [← Bool.not_eq_true, ← Definition.key_eq_iff]
    exact (mem_kept_iff.1 hd).2 e he

theorem override_index_of_ok {extra : List Definition} {table : Registry} (h : Registry.ofDefinitions extra = .ok table)
    (ds : List Definition) : (index ds).override extra = .ok (index (extra ++ kept ds extra)) := by
  obtain ⟨-, rfl⟩ := ofDefinitions_eq_ok_iff.1 h
  rw [override, h]
  simp only [Except.map, definitions_index, contains_byId_index, kept]

theorem override_index {extra : List Definition} (h : (index ds).override extra = .ok added) :
    added = index (extra ++ kept ds extra) ∧ Acceptable extra := by
  cases hextra : Registry.ofDefinitions extra with
  | error refusal =>
    rw [override, hextra] at h
    cases h
  | ok table =>
    rw [override_index_of_ok hextra] at h
    cases h
    exact ⟨rfl, (ofDefinitions_eq_ok_iff.1 hextra).1⟩

/-- A list without a fault is accepted. -/
theorem override_index_of_faultless {extra : List Definition} (h : refusal? [] extra = none) (ds : List Definition) :
    (index ds).override extra = .ok (index (extra ++ kept ds extra)) :=
  override_index_of_ok (ofDefinitions_eq_ok_iff.2 ⟨acceptable_iff.2 h, rfl⟩) ds

theorem acceptable_builtin : Acceptable Language.builtin := acceptable_iff.2 (by decide +kernel)

/-- **A table that can come about is the table of definitions that would be accepted together.** -/
theorem Reachable.exists_index (h : r.Reachable) : ∃ ds, r = index ds ∧ Acceptable ds := by
  induction h with
  | empty => exact ⟨[], rfl, acceptable_nil⟩
  | builtin => exact ⟨_, rfl, acceptable_builtin⟩
  | ofDefinitions hds =>
    obtain ⟨hacceptable, rfl⟩ := ofDefinitions_eq_ok_iff.1 hds
    exact ⟨_, rfl, hacceptable⟩
  | override _ hoverride ih =>
    obtain ⟨ds, rfl, hds⟩ := ih
    obtain ⟨rfl, hextra⟩ := override_index hoverride
    exact ⟨_, rfl, hextra.append_kept hds⟩

/-! ## Looking up -/

theorem mem_of_look {index : Index} {key : String} (h : r.look index key = some d) : d ∈ r.definitions := by
  obtain ⟨place, -, hplace⟩ := Option.bind_eq_some_iff.1 h
  exact List.mem_of_getElem? hplace

theorem mem_of_detect? {p : Path} (h : r.detect? p = some d) : d ∈ r.definitions := by
  rcases Option.or_eq_some_iff.1 h with h | ⟨-, h⟩
  · obtain ⟨name, -, h⟩ := Option.bind_eq_some_iff.1 h
    exact mem_of_look h
  · obtain ⟨extension, -, h⟩ := Option.bind_eq_some_iff.1 h
    exact mem_of_look h

/-- A definition is found by its id. -/
theorem Reachable.get?_id (h : r.Reachable) (hd : d ∈ r.definitions) : r.get? d.id = some d := by
  obtain ⟨ds, rfl, hds⟩ := h.exists_index
  rw [definitions_index] at hd
  rw [get?_index]
  obtain ⟨before, after, rfl⟩ := List.append_of_mem hd
  refine List.find?_eq_some_iff_append.2 ⟨beq_self_eq_true _, before, after, rfl, fun e he => ?_⟩
  have hne : Text.sameLetters e.id d.id = false :=
    (List.pairwise_append.1 hds.distinct).2.2 e he d List.mem_cons_self
  simpa [Text.sameLetters, Definition.key] using hne

/-- The language of a path is found by its id as well. -/
theorem Reachable.get?_of_detect? (h : r.Reachable) {p : Path} (hd : r.detect? p = some d) : r.get? d.id = some d :=
  h.get?_id (mem_of_detect? hd)

theorem reachable_onlyC : onlyC.Reachable := by
  have hrefusal : refusal? [] [Definition.plainC] = none := by decide +kernel
  refine @Reachable.ofDefinitions [.plainC] _ ?_
  rw [Registry.ofDefinitions, hrefusal]
  rfl

end LineCensus.Language.Registry
