/-
What definitions put in front of a table change. The new table lists them first, and behind them those
definitions of the old table that have none of their ids, in the old order
(`Reachable.definitions_override`). A search through it is therefore a search through the new ones, and
if that finds nothing, one through these others. Asked for an id it comes to what the old table says,
as only definitions with other ids are gone (`find?_hasId_kept`); asked for an extension or a name it
may come to a definition that stood behind one that is gone.
-/
import LineCensus.Proofs.Lookup

namespace LineCensus.Language.Registry

open Definition

variable {r r' : Registry} {x ds : List Definition} {d : Definition} {id : String}

theorem kept_eq_filter (ds x : List Definition) : kept ds x = ds.filter fun d => !x.any (hasId d.id) := by
  refine congrArg ds.filter (funext fun d => ?_)
  rw [List.contains_eq_any_beq, List.any_map]
  simp only [Function.comp_def, Bool.beq_comm (a := d.key)]
  rfl

theorem mem_kept_iff_hasId : d ∈ kept ds x ↔ d ∈ ds ∧ ∀ e ∈ x, e.hasId d.id = false := by
  simp [kept_eq_filter]

theorem Reachable.definitions_override (hr : r.Reachable) (hx : r.override x = .ok r') :
    r'.definitions = x ++ kept r.definitions x := by
  rw [hr.eq_index] at hx
  obtain ⟨rfl, -⟩ := override_index hx
  rw [definitions_index]

theorem hasId_congr (h : d.hasId id = true) : hasId d.id = hasId id := by
  have hlower : Text.lower d.id = Text.lower id := eq_of_beq h
  funext e
  rw [hasId, hasId, Text.sameLetters, Text.sameLetters, hlower]

/-- No definition with an id is gone if none of the new ones has the id. -/
theorem find?_hasId_kept (h : ∀ e ∈ x, e.hasId id = false) :
    (kept ds x).find? (hasId id) = ds.find? (hasId id) := by
  have hnone : x.any (hasId id) = false := by simpa using h
  rw [kept_eq_filter, List.find?_filter]
  refine congrArg ds.find? (funext fun d => ?_)
  cases hd : d.hasId id with
  | false => simp
  | true => simp [hasId_congr hd, hnone]

/-- A definition that a table gives when asked in one of the ways. -/
def Gives (r : Registry) (d : Definition) : Prop :=
  (∃ id, r.get? id = some d) ∨ (∃ extension, r.byExtension? extension = some d) ∨
    (∃ name, r.byFileName? name = some d) ∨ ∃ p, r.detect? p = some d

theorem mem_of_gives (h : r.Gives d) : d ∈ r.definitions := by
  rcases h with ⟨id, h⟩ | ⟨extension, h⟩ | ⟨name, h⟩ | ⟨p, h⟩
  · exact mem_of_look h
  · exact mem_of_look h
  · exact mem_of_look h
  · exact mem_of_detect? h

/-- **Definitions put in front take precedence, and hide only what they replace.** By id, the new table
gives the new definition with the id, or what the old table gives if there is none. By extension or file
name it gives the first new definition that has it, or else the first of the old ones that has it and
whose id is not among the new ones. Whatever it gives in any way, also for a path, is one of the new
definitions or an old one whose id is not among theirs, and these are all it holds. An old definition
that is repeated word for word counts as a new one. -/
theorem Reachable.override_precedence (hr : r.Reachable) (hx : r.override x = .ok r') :
    let others := r.definitions.filter fun d => !x.any (hasId d.id)
    (∀ id, (∀ d ∈ x, d.hasId id = true → r'.get? id = some d) ∧
      ((∀ d ∈ x, d.hasId id = false) → r'.get? id = r.get? id)) ∧
    (∀ extension, r'.byExtension? extension =
      (x.find? (hasExtension extension)).or (others.find? (hasExtension extension))) ∧
    (∀ name, r'.byFileName? name = (x.find? (hasFileName name)).or (others.find? (hasFileName name))) ∧
    (∀ d, r'.Gives d → d ∈ x ∨ d ∈ r.definitions ∧ ∀ e ∈ x, e.hasId d.id = false) ∧
    r'.definitions.length = x.length + others.length := by
  intro others
  have hr' : r'.Reachable := .override hr hx
  have hothers : kept r.definitions x = others := kept_eq_filter r.definitions x
  have hds : r'.definitions = x ++ others := hothers ▸ hr.definitions_override hx
  refine ⟨fun id => ⟨fun d hd hid => ?_, fun hnone => ?_⟩, fun extension => ?_, fun name => ?_,
    fun d hd => ?_, ?_⟩
  · have hmem : d ∈ r'.definitions := by
      rw [hds]
      exact List.mem_append_left _ hd
    have hlower : Text.lower d.id = Text.lower id := eq_of_beq hid
    have hget := hr'.get?_id hmem
    rwa [get?, hlower] at hget
  · have hx' : x.find? (hasId id) = none := List.find?_eq_none.2 fun d hd => by simp [hnone d hd]
    rw [hr'.get?_eq, hr.get?_eq, hds, List.find?_append, hx', Option.none_or, ← hothers,
      find?_hasId_kept hnone]
  · rw [hr'.byExtension?_eq, hds, List.find?_append]
  · rw [hr'.byFileName?_eq, hds, List.find?_append]
  · have hmem := mem_of_gives hd
    rwa [hds, List.mem_append, ← hothers, mem_kept_iff_hasId] at hmem
  · rw [hds, List.length_append]

/-- Two languages with one extension in common. -/
def sharedHeaders : List Definition :=
  [{ id := "c", extensions := ["c", "h"] }, { id := "objective-c", extensions := ["m", "h"] }]

/-- The first of them without that extension. -/
def headerless : List Definition := [{ id := "C", displayName := "C", extensions := ["c"] }]

theorem Reachable.override_precedence_headerless :
    ∃ r r', Registry.ofDefinitions sharedHeaders = .ok r ∧ r.Reachable ∧ r.override headerless = .ok r' ∧
      (r'.get? "c").map displayName = some "C" ∧ r'.get? "Objective-C" = r.get? "Objective-C" ∧
      (r.byExtension? "h").map Definition.id = some "c" ∧
      (r'.byExtension? ".H").map Definition.id = some "objective-c" ∧
      (∀ d ∈ r.definitions, d.id = "c" → ¬ r'.Gives d) ∧ r'.definitions.length = 2 := by
  have hrefusal : refusal? [] sharedHeaders = none := by decide +kernel
  have hr : Registry.ofDefinitions sharedHeaders = .ok (index sharedHeaders) := by rw [Registry.ofDefinitions, hrefusal]
  have hreachable : (index sharedHeaders).Reachable := .ofDefinitions hr
  have hx : (index sharedHeaders).override headerless = .ok (index (headerless ++ kept sharedHeaders headerless)) :=
    override_index_of_faultless (by decide +kernel) sharedHeaders
  obtain ⟨hget, hextension, -, hgives, hlength⟩ := hreachable.override_precedence hx
  refine ⟨_, _, hr, hreachable, hx, ?_, (hget "Objective-C").2 (by decide +kernel), ?_, ?_, ?_, ?_⟩
  · rw [(hget "c").1 _ List.mem_cons_self (by decide +kernel)]
    rfl
  · rw [hreachable.byExtension?_eq, definitions_index]
    decide +kernel
  · rw [hextension, definitions_index]
    decide +kernel
  · rw [definitions_index]
    intro d hd hid hgiven
    have hnew : ∀ d ∈ sharedHeaders, d ∉ headerless := by decide
    rcases hgives d hgiven with hmem | ⟨-, hnone⟩
    · exact hnew d hd hmem
    · have := hnone _ List.mem_cons_self
      rw [hid] at this
      exact absurd this (by decide +kernel)
  · rw [hlength, definitions_index]
    decide +kernel

end LineCensus.Language.Registry
