/-
Definitions put in front of a table twice. What the second ones do not replace of the first is put in
front together with them, and what is kept of the table is the same either way: a definition whose id is
neither among the second ones nor among what is left of the first has an id that is in neither
(`kept_kept`). So two steps are one (`append_kept_append_kept`); a step that repeats the one before it
adds nothing, as nothing of the first is left.
-/
import LineCensus.Proofs.Precedence

namespace LineCensus.Language.Registry

open Definition

variable {r r' : Registry} {a b x : List Definition}

theorem kept_append (ds ds' x : List Definition) : kept (ds ++ ds') x = kept ds x ++ kept ds' x := List.filter_append ..

theorem kept_nil (ds : List Definition) : kept ds [] = ds := List.filter_eq_self.2 fun _ _ => rfl

theorem kept_self (ds : List Definition) : kept ds ds = [] := by
  rw [List.eq_nil_iff_forall_not_mem]
  intro d hd
  obtain ⟨hmem, hnone⟩ := mem_kept_iff.1 hd
  exact hnone d hmem rfl

theorem kept_kept (ds a b : List Definition) : kept (kept ds a) b = kept ds (b ++ kept a b) := by
  rw [kept, kept, List.filter_filter, kept]
  refine List.filter_congr fun d _ => ?_
  have hids : ((b ++ kept a b).map Definition.key).contains d.key =
      ((b.map Definition.key).contains d.key || (a.map Definition.key).contains d.key) := by
    rw [Bool.eq_iff_iff]
    simp only [List.map_append, List.contains_eq_mem, List.mem_append, List.mem_map, Bool.or_eq_true,
      decide_eq_true_eq]
    constructor
    · rintro (hb | ⟨e, he, hkey⟩)
      · exact .inl hb
      · exact .inr ⟨e, (mem_kept_iff.1 he).1, hkey⟩
    · rintro (hb | ⟨e, he, hkey⟩)
      · exact .inl hb
      · by_cases hb : ∃ e ∈ b, e.key = d.key
        · exact .inl hb
        · refine .inr ⟨e, mem_kept_iff.2 ⟨he, fun e' he' heq => hb ⟨e', he', heq.trans hkey⟩⟩, hkey⟩
  rw [hids, Bool.not_or]

/-- The definitions after two steps are those after one. -/
theorem append_kept_append_kept (ds a b : List Definition) :
    b ++ kept (a ++ kept ds a) b = (b ++ kept a b) ++ kept ds (b ++ kept a b) := by
  rw [kept_append, kept_kept, List.append_assoc]

theorem Reachable.override_of_acceptable (hr : r.Reachable) (hx : Acceptable x) :
    r.override x = .ok (index (x ++ kept r.definitions x)) := by
  conv => lhs; rw [hr.eq_index]
  exact override_index_of_ok (ofDefinitions_eq_ok_iff.2 ⟨hx, rfl⟩) _

/-- **Two steps of overriding are one.** Lists that are accepted can be put in front of a table one after
the other, and the table is the one that comes of the second list with those of the first behind it whose
ids are not in the second; this list is accepted as well. To put the same list in front again changes
nothing, and neither does an empty one. -/
theorem Reachable.override_override (hr : r.Reachable) (ha : ∃ table, Registry.ofDefinitions a = .ok table)
    (hb : ∃ table, Registry.ofDefinitions b = .ok table) :
    let both := b ++ a.filter fun d => !b.any (hasId d.id)
    (∃ table, Registry.ofDefinitions both = .ok table) ∧
    (∃ r₁ r₂, r.override a = .ok r₁ ∧ r₁.override b = .ok r₂ ∧ r.override both = .ok r₂ ∧
      r₁.override a = .ok r₁) ∧
    r.override [] = .ok r := by
  intro both
  obtain ⟨_, ha⟩ := ha
  obtain ⟨_, hb⟩ := hb
  replace ha := (ofDefinitions_eq_ok_iff.1 ha).1
  replace hb := (ofDefinitions_eq_ok_iff.1 hb).1
  have hboth : both = b ++ kept a b := by rw [kept_eq_filter]
  have hacceptable : Acceptable both := hboth ▸ hb.append_kept ha
  have hra := hr.override_of_acceptable ha
  have hr₁ : (index (a ++ kept r.definitions a)).Reachable := .override hr hra
  refine ⟨⟨_, ofDefinitions_eq_ok_iff.2 ⟨hacceptable, rfl⟩⟩,
    ⟨_, _, hra, hr₁.override_of_acceptable hb, ?_, ?_⟩, ?_⟩
  · rw [hr.override_of_acceptable hacceptable, definitions_index, append_kept_append_kept, hboth]
  · rw [hr₁.override_of_acceptable ha, definitions_index, append_kept_append_kept, kept_self, List.append_nil]
  · rw [hr.override_of_acceptable acceptable_nil, kept_nil, List.nil_append, ← hr.eq_index]

/-- Another definition in place of the first of `pythons`. -/
def plainPython : List Definition := [{ id := "PYTHON", extensions := ["py"], grammar := { lineComments := ["#"] } }]

theorem Reachable.override_override_pythons :
    (∃ table, Registry.ofDefinitions pythons = .ok table) ∧
    (∃ table, Registry.ofDefinitions plainPython = .ok table) ∧
    ∃ r₁ r₂, Registry.builtin.override pythons = .ok r₁ ∧ r₁.override plainPython = .ok r₂ ∧
      Registry.builtin.override (plainPython ++ pythons.drop 1) = .ok r₂ ∧ r₁.override pythons = .ok r₁ ∧
      Registry.builtin.override [] = .ok Registry.builtin ∧
      (r₂.get? "Python").map Definition.label = some "PYTHON" ∧
      (r₂.byExtension? "rs").map Definition.id = some "cython" := by
  have hpythons : Registry.ofDefinitions pythons = .ok (index pythons) :=
    ofDefinitions_eq_ok_iff.2 ⟨acceptable_iff.2 (by decide +kernel), rfl⟩
  have hplain : Registry.ofDefinitions plainPython = .ok (index plainPython) :=
    ofDefinitions_eq_ok_iff.2 ⟨acceptable_iff.2 (by decide +kernel), rfl⟩
  obtain ⟨-, ⟨r₁, r₂, h₁, h₂, hboth, hagain⟩, hnone⟩ :=
    Reachable.builtin.override_override ⟨_, hpythons⟩ ⟨_, hplain⟩
  have hlist : plainPython ++ pythons.filter (fun d => !plainPython.any (hasId d.id)) =
      plainPython ++ pythons.drop 1 := by decide +kernel
  rw [hlist] at hboth
  have hr₂ : r₂.Reachable := .override (.override .builtin h₁) h₂
  have hds : r₂.definitions =
      plainPython ++ pythons.drop 1 ++ kept Language.builtin (plainPython ++ pythons.drop 1) := by
    rw [Reachable.builtin.definitions_override hboth, Registry.builtin, definitions_index]
  refine ⟨⟨_, hpythons⟩, ⟨_, hplain⟩, r₁, r₂, h₁, h₂, hboth, hagain, hnone, ?_, ?_⟩
  · rw [hr₂.get?_eq, hds]
    decide +kernel
  · rw [hr₂.byExtension?_eq, hds]
    decide +kernel

end LineCensus.Language.Registry
