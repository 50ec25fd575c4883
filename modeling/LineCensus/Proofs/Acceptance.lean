/-
Which lists of definitions are accepted. A definition may have a defect of its own, which it has exactly
if its id is blank or a token is empty (`Definition.defect?_eq_none_iff`), or repeat an id that was seen
before it. Definitions are gone through in their order with the ids seen so far: the first one at fault
is the one that is refused, and those in front of it would have been accepted alone
(`Registry.refusal?_eq_some_iff`). So a list is accepted exactly if none of its definitions has a defect
and no two have the same id (`Registry.ofDefinitions_eq_ok_iff`).
-/
import LineCensus.Language.Registry
import LineCensus.Proofs.Spacing

namespace LineCensus.Language

/-! ## One definition -/

namespace Definition

variable {d : Definition} {seen : List String} {defect : Defect}

/-- What a definition must satisfy taken alone. -/
structure Valid (d : Definition) : Prop where
  id : ¬ Text.Blank d.id.toList
  lineComments : ∀ token ∈ d.grammar.lineComments, token ≠ ""
  blockComments : ∀ b ∈ d.grammar.blockComments, b.opener ≠ "" ∧ b.closer ≠ ""

theorem defect?_eq_none_iff : d.defect? = none ↔ d.Valid := by
  have hid : (Text.trim d.id.toList).isEmpty = true ↔ Text.Blank d.id.toList := by
    rw [List.isEmpty_iff, Text.trim_eq_nil_iff]
  have hlines : d.grammar.lineComments.any String.isEmpty = true ↔
      ¬ ∀ token ∈ d.grammar.lineComments, token ≠ "" := by
    simp [List.any_eq_true]
  have hblocks : (d.grammar.blockComments.any fun b => b.opener.isEmpty || b.closer.isEmpty) = true ↔
      ¬ ∀ b ∈ d.grammar.blockComments, b.opener ≠ "" ∧ b.closer ≠ "" := by
    simp [List.any_eq_true, or_iff_not_imp_left]
  rw [defect?]
  split
  next h => exact iff_of_false nofun fun hd => hd.id (hid.1 h)
  next hnotBlank =>
    split
    next h => exact iff_of_false nofun fun hd => hlines.1 h hd.lineComments
    next hnoLine =>
      split
      next h => exact iff_of_false nofun fun hd => hblocks.1 h hd.blockComments
      next hnoBlock =>
        refine iff_of_true rfl ⟨fun h => hnotBlank (hid.2 h), ?_, ?_⟩
        · exact not_not.1 fun h => hnoLine (hlines.2 h)
        · exact not_not.1 fun h => hnoBlock (hblocks.2 h)

theorem Valid.hasTokens (h : d.Valid) : d.grammar.hasTokens = true := by
  simpa [Grammar.hasTokens] using And.intro h.lineComments h.blockComments

/-- What is wrong with a definition behind others that have these ids. -/
def faultAfter? (seen : List String) (d : Definition) : Option Defect :=
  d.defect?.or (if seen.contains d.key then some .duplicateId else none)

theorem faultAfter?_eq_none_iff : d.faultAfter? seen = none ↔ d.Valid ∧ d.key ∉ seen := by
  simp [faultAfter?, defect?_eq_none_iff]

theorem faultAfter?_eq_some_iff : d.faultAfter? seen = some defect ↔
    d.defect? = some defect ∨ d.Valid ∧ defect = .duplicateId ∧ d.key ∈ seen := by
  rw [faultAfter?, Option.or_eq_some_iff, defect?_eq_none_iff]
  simp [eq_comm, and_comm]

theorem key_eq_iff {e : Definition} : e.key = d.key ↔ Text.sameLetters e.id d.id = true := beq_iff_eq.symm

end Definition

/-! ## Lists of definitions -/

namespace Registry

variable {ds : List Definition} {seen : List String} {f : Refusal} {r : Registry}

/-- A list without a fault: its definitions are valid, and no id is repeated in any case of ASCII letters. -/
structure Acceptable (ds : List Definition) : Prop where
  valid : ∀ d ∈ ds, d.Valid
  distinct : ds.Pairwise fun a b => Text.sameLetters a.id b.id = false

theorem acceptable_nil : Acceptable [] := ⟨nofun, .nil⟩

theorem nodup_keys_iff :
    (ds.map Definition.key).Nodup ↔ ds.Pairwise fun a b => Text.sameLetters a.id b.id = false := by
  rw [List.Nodup, List.pairwise_map]
  simp only [ne_eq, Definition.key_eq_iff, Bool.not_eq_true]

theorem refusal?_cons (seen : List String) (d : Definition) (ds : List Definition) :
    refusal? seen (d :: ds) = ((d.faultAfter? seen).map (Refusal.mk d)).or (refusal? (d.key :: seen) ds) := by
  rw [refusal?, Definition.faultAfter?]
  cases d.defect? with
  | some defect => rfl
  | none => cases seen.contains d.key <;> rfl

theorem refusal?_eq_none_iff : refusal? seen ds = none ↔
    (∀ d ∈ ds, d.Valid) ∧ (ds.map Definition.key).Nodup ∧ ∀ d ∈ ds, d.key ∉ seen := by
  induction ds generalizing seen with
  | nil => simp [refusal?]
  | cons d ds ih =>
    rw [refusal?_cons, Option.or_eq_none_iff, Option.map_eq_none_iff, Definition.faultAfter?_eq_none_iff, ih]
    simp only [List.map_cons, List.nodup_cons, List.mem_map, List.mem_cons, not_or, not_exists, not_and]
    grind

/-- The definition that is refused is the first one at fault. -/
theorem refusal?_eq_some_iff : refusal? seen ds = some f ↔
    ∃ before after, ds = before ++ f.definition :: after ∧ refusal? seen before = none ∧
      f.definition.faultAfter? ((before.map Definition.key).reverse ++ seen) = some f.defect := by
  induction ds generalizing seen with
  | nil => simp [refusal?]
  | cons d ds ih =>
    rw [refusal?_cons]
    cases hd : d.faultAfter? seen with
    | some defect =>
      constructor
      · intro h
        cases h
        exact ⟨[], ds, rfl, rfl, hd⟩
      · rintro ⟨before, after, hds, hbefore, hf⟩
        cases before with
        | nil =>
          cases hds
          rw [List.map_nil, List.reverse_nil, List.nil_append, hd] at hf
          cases hf
          rfl
        | cons e before =>
          cases hds
          rw [refusal?_cons, hd] at hbefore
          cases hbefore
    | none =>
      rw [Option.map_none, Option.none_or, ih]
      constructor
      · rintro ⟨before, after, rfl, hbefore, hf⟩
        refine ⟨d :: before, after, rfl, ?_, by simpa using hf⟩
        rw [refusal?_cons, hd, hbefore]
        rfl
      · rintro ⟨before, after, hds, hbefore, hf⟩
        cases before with
        | nil =>
          cases hds
          rw [List.map_nil, List.reverse_nil, List.nil_append, hd] at hf
          cases hf
        | cons e before =>
          cases hds
          rw [refusal?_cons, hd] at hbefore
          exact ⟨before, after, rfl, hbefore, by simpa using hf⟩

theorem acceptable_iff : Acceptable ds ↔ refusal? [] ds = none := by
  rw [refusal?_eq_none_iff, nodup_keys_iff]
  constructor
  · rintro ⟨hvalid, hdistinct⟩
    exact ⟨hvalid, hdistinct, fun _ _ => List.not_mem_nil⟩
  · rintro ⟨hvalid, hdistinct, -⟩
    exact ⟨hvalid, hdistinct⟩

/-- What a refusal says of its definition: that it has the defect, or else that one in front has its id. -/
def Refusal.Blames (f : Refusal) (before : List Definition) : Prop :=
  (¬ f.definition.Valid ∧ f.definition.defect? = some f.defect) ∨
    f.definition.Valid ∧ f.defect = .duplicateId ∧ ∃ e ∈ before, Text.sameLetters e.id f.definition.id = true

theorem Refusal.blames_iff {before : List Definition} : f.Blames before ↔
    f.definition.faultAfter? ((before.map Definition.key).reverse ++ []) = some f.defect := by
  have hdefect : f.definition.defect? = some f.defect → ¬ f.definition.Valid := by
    intro h hvalid
    rw [Definition.defect?_eq_none_iff.2 hvalid] at h
    cases h
  rw [Definition.faultAfter?_eq_some_iff, Blames, and_iff_right_of_imp hdefect, List.append_nil, List.mem_reverse,
    List.mem_map]
  simp only [Definition.key_eq_iff]

theorem ofDefinitions_eq_ok_iff : ofDefinitions ds = .ok r ↔ Acceptable ds ∧ r = index ds := by
  rw [acceptable_iff, ofDefinitions]
  cases refusal? [] ds with
  | none => simp [eq_comm]
  | some f => simp

theorem ofDefinitions_eq_error_iff : ofDefinitions ds = .error f ↔
    ∃ before after, ds = before ++ f.definition :: after ∧ Acceptable before ∧ f.Blames before := by
  simp only [acceptable_iff, Refusal.blames_iff]
  rw [← refusal?_eq_some_iff, ofDefinitions]
  cases refusal? [] ds with
  | none => simp
  | some f' => simp

end Registry

end LineCensus.Language
