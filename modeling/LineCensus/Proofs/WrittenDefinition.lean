/-
Definitions of languages survive being written in JSON. An object that writes a definition holds its members in
any order, may lack those that are empty, and may hold others (`Definition.Layout`). Looking up a member
does not ask for the order and passes over the others, so each field is found or takes its default, and the
default is what an empty member says (`Layout.field`). The two fields of the grammar are read last, from
members that have been held on to until then, and what is written for them can be held on to
(`Layout.isStorable`).

A file lists such objects, and the text that is written for them is read as their list
(`Json.Textual.parse?_compact`).
-/
import LineCensus.Proofs.EncodedText
import LineCensus.Proofs.JsonText
import LineCensus.Proofs.LoadedTables

namespace LineCensus

/-! ## Reading records -/

namespace Json

variable {ms own : List (String × Json)} {name : String} {v : Json}

/-- An empty text or list. -/
def IsEmpty (v : Json) : Prop := v = .text "" ∨ v = .array []

theorem mapM_eq_some_of_forall₂ {α β : Type} {f : β → Option α} {as : List α} {bs : List β}
    (h : List.Forall₂ (fun a b => f b = some a) as bs) : bs.mapM f = some as := by
  induction h with
  | nil => rfl
  | cons hab _ ih => simp [List.mapM_cons, hab, ih]

theorem members?_record (ms : List (String × Json)) : (record ms).members? = some ms :=
  mapM_eq_some_of_forall₂ (List.forall₂_map_right_iff.2 (List.forall₂_same.2 fun _ _ => rfl))

theorem member?_of_perm (hms : ms.Perm own) (h : own.filter (·.1 == name) = [(name, v)]) :
    member? ms name = some (some v) := by
  have hfilter := hms.filter (·.1 == name)
  rw [h, List.perm_singleton] at hfilter
  rw [member?, hfilter]

theorem member?_of_perm_absent (hms : ms.Perm own) (h : own.filter (·.1 == name) = []) :
    member? ms name = some none := by
  have hfilter := hms.filter (·.1 == name)
  rw [h, List.perm_nil] at hfilter
  rw [member?, hfilter]

/-- A member stands among the others, once, or it has been left out. -/
theorem member?_of_kept {kept others : List (String × Json)} (hms : ms.Perm (kept ++ others))
    (hkept : kept.Sublist own) (hown : own.filter (·.1 == name) = [(name, v)])
    (hothers : ∀ m ∈ others, m.1 ≠ name) :
    member? ms name = some (some v) ∨ member? ms name = some none ∧ (name, v) ∉ kept := by
  have hnone : others.filter (·.1 == name) = [] :=
    List.filter_eq_nil_iff.2 fun m hm => by simpa using hothers m hm
  have hsublist := hkept.filter (·.1 == name)
  rw [hown, List.sublist_singleton] at hsublist
  rcases hsublist with hempty | hone
  · right
    refine ⟨member?_of_perm_absent hms (by rw [List.filter_append, hempty, hnone]; rfl), fun hmem => ?_⟩
    exact List.filter_eq_nil_iff.1 hempty _ hmem (beq_self_eq_true name)
  · left
    exact member?_of_perm hms (by rw [List.filter_append, hone, hnone]; rfl)

theorem list?_texts (ss : List String) : list? text? (texts ss) = some ss :=
  mapM_eq_some_of_forall₂ (List.forall₂_map_right_iff.2 (List.forall₂_same.2 fun _ _ => rfl))

theorem areStorable_iff {depth : Nat} {vs : List Json} :
    areStorable depth vs = true ↔ ∀ v ∈ vs, v.isStorable depth = true := by
  induction vs with
  | nil => simp [areStorable]
  | cons v vs ih => simp [areStorable, ih]

theorem membersStorable_record_iff {depth : Nat} : membersStorable depth (ms.map fun (k, v) => (some k, v)) = true ↔
    ∀ m ∈ ms, m.2.isStorable depth = true := by
  induction ms with
  | nil => simp [membersStorable]
  | cons m ms ih => simp [membersStorable, ih]

end Json

namespace BlockDelimiter

/-- A value that writes a delimiter: its members, in any order. -/
def Written (d : BlockDelimiter) (v : Json) : Prop :=
  ∃ ms, ms.Perm [("start", .text d.opener), ("end", .text d.closer)] ∧ v = .record ms

variable {d : BlockDelimiter} {v : Json} {depth : Nat}

theorem Written.ofJson?_eq (h : d.Written v) : ofJson? v = some d := by
  obtain ⟨ms, hms, rfl⟩ := h
  have hstart : Json.member? ms "start" = some (some (.text d.opener)) := Json.member?_of_perm hms (by simp)
  have hend : Json.member? ms "end" = some (some (.text d.closer)) := Json.member?_of_perm hms (by simp)
  have hmembers := Json.members?_record ms
  rw [Json.record] at hmembers
  simp [ofJson?, Json.record, Json.fields?, hmembers, hstart, hend, Json.required, Json.text?, Json.text]

theorem Written.isStorable (h : d.Written v) : v.isStorable (depth + 1) = true := by
  obtain ⟨ms, hms, rfl⟩ := h
  rw [Json.record, Json.isStorable, Json.membersStorable_record_iff.2]
  · rfl
  · intro m hm
    have hmem := hms.subset hm
    simp only [List.mem_cons, List.not_mem_nil, or_false] at hmem
    rcases hmem with rfl | rfl <;> rfl

theorem isStorable_of_forall₂ {ds : List BlockDelimiter} {vs : List Json} (h : List.Forall₂ Written ds vs) :
    ∀ v ∈ vs, v.isStorable (depth + 1) = true := by
  induction h with
  | nil => exact List.forall_mem_nil _
  | cons hd _ ih => exact List.forall_mem_cons.2 ⟨hd.isStorable, ih⟩

theorem written_toJson (d : BlockDelimiter) : d.Written d.toJson := ⟨_, .refl _, rfl⟩

end BlockDelimiter

namespace Language.Definition

variable {d : Definition} {depth : Nat} {v : Json}

/-- The members of a definition, with these values for its delimiters. -/
def members (d : Definition) (blocks : List Json) : List (String × Json) :=
  [("id", .text d.id), ("display_name", .text d.displayName), ("extensions", .texts d.extensions),
    ("file_names", .texts d.fileNames), ("line_comments", .texts d.grammar.lineComments),
    ("block_comments", .array blocks)]

/-- The names of the members. -/
def memberNames : List String := ownMembers ++ ["line_comments", "block_comments"]

/-- The members of an object that writes a definition, in any order: those of the definition that are kept,
with values for the delimiters in which the members stand in any order too, and others that it does not know. -/
structure Layout (depth : Nat) (d : Definition) (pairs : List Json) (kept others ms : List (String × Json)) :
    Prop where
  delimiters : List.Forall₂ BlockDelimiter.Written d.grammar.blockComments pairs
  sublist : kept.Sublist (d.members pairs)
  /-- Only what is empty is left out, and never the id. -/
  leftOut : ∀ m ∈ d.members pairs, m ∉ kept → m.1 ≠ "id" ∧ m.2.IsEmpty
  /-- A member that is not known may hold whatever the reader of the text can hold on to. -/
  unknown : ∀ m ∈ others, m.1 ∉ memberNames ∧ m.2.isStorable depth
  order : ms.Perm (kept ++ others)

/-- A value that writes a definition. -/
def Written (depth : Nat) (d : Definition) (v : Json) : Prop :=
  ∃ pairs kept others ms, d.Layout depth pairs kept others ms ∧ v = .record ms

theorem written_toJson (depth : Nat) (d : Definition) : d.Written depth d.toJson := by
  refine ⟨d.grammar.blockComments.map BlockDelimiter.toJson, d.members _, [], d.members _, ⟨?_, .refl _,
    fun _ hm hnot => absurd hm hnot, List.forall_mem_nil _, ?_⟩, rfl⟩
  · exact List.forall₂_map_right_iff.2 (List.forall₂_same.2 fun b _ => b.written_toJson)
  · rw [List.append_nil]

theorem map_members (d : Definition) (blocks : List Json) : (d.members blocks).map Prod.fst = memberNames := rfl

theorem filter_members {name : String} (blocks : List Json) (h : (name, v) ∈ d.members blocks) :
    (d.members blocks).filter (·.1 == name) = [(name, v)] := by
  simp only [members, List.mem_cons, List.not_mem_nil, or_false, Prod.mk.injEq] at h
  rcases h with ⟨rfl, rfl⟩ | ⟨rfl, rfl⟩ | ⟨rfl, rfl⟩ | ⟨rfl, rfl⟩ | ⟨rfl, rfl⟩ | ⟨rfl, rfl⟩ <;>
    simp [members]

namespace Layout

variable {pairs : List Json} {kept others ms : List (String × Json)} {m : String × Json} {name : String}

theorem member? (h : d.Layout depth pairs kept others ms) (hv : (name, v) ∈ d.members pairs) :
    Json.member? ms name = some (some v) ∨ Json.member? ms name = some none ∧ name ≠ "id" ∧ v.IsEmpty := by
  have hunknown : ∀ m ∈ others, m.1 ≠ name := fun m hm hname => (h.unknown m hm).1 <| by
    rw [hname, ← map_members d pairs]
    exact List.mem_map_of_mem hv
  have hmember := Json.member?_of_kept h.order h.sublist (filter_members pairs hv) hunknown
  exact hmember.imp_right fun ⟨hnone, hnot⟩ => ⟨hnone, h.leftOut _ hv hnot⟩

theorem id (h : d.Layout depth pairs kept others ms) : Json.member? ms "id" = some (some (.text d.id)) :=
  (h.member? List.mem_cons_self).resolve_right fun ⟨_, hne, _⟩ => hne rfl

/-- A member that is left out is empty, and that is its field's default. -/
theorem field {α : Type} {f : Json → Option α} {default a : α} (h : d.Layout depth pairs kept others ms)
    (hv : (name, v) ∈ d.members pairs) (hf : f v = some a) (hdefault : v.IsEmpty → a = default) :
    ∃ field, Json.member? ms name = some field ∧ Json.withDefault f default field = some a := by
  rcases h.member? hv with hmember | ⟨hmember, -, hempty⟩
  · exact ⟨_, hmember, hf⟩
  · exact ⟨_, hmember, by rw [hdefault hempty]; rfl⟩

theorem displayName (h : d.Layout depth pairs kept others ms) : ∃ field,
    Json.member? ms "display_name" = some field ∧ Json.withDefault Json.text? "" field = some d.displayName :=
  h.field (List.mem_cons_of_mem _ List.mem_cons_self) rfl (by simp [Json.IsEmpty, Json.text])

theorem texts (h : d.Layout depth pairs kept others ms) (name : String) (ss : List String)
    (hv : (name, .texts ss) ∈ d.members pairs) : ∃ field,
      Json.member? ms name = some field ∧ Json.withDefault (Json.list? Json.text?) [] field = some ss :=
  h.field hv (Json.list?_texts ss) (by simp [Json.IsEmpty, Json.text, Json.texts])

theorem blockComments (h : d.Layout depth pairs kept others ms) : ∃ field,
    Json.member? ms "block_comments" = some field ∧
      Json.withDefault (Json.list? BlockDelimiter.ofJson?) [] field = some d.grammar.blockComments := by
  refine h.field (v := .array pairs) (by simp [members]) ?_ fun hempty => ?_
  · exact Json.mapM_eq_some_of_forall₂ (h.delimiters.imp fun _ _ hb => hb.ofJson?_eq)
  · obtain rfl : pairs = [] := by simpa [Json.IsEmpty, Json.text] using hempty
    exact List.forall₂_nil_right_iff.1 h.delimiters

theorem isStorable_of_mem_members (h : d.Layout depth pairs kept others ms) (hdepth : 2 ≤ depth)
    (hm : m ∈ d.members pairs) : m.2.isStorable depth = true := by
  obtain ⟨depth, rfl⟩ := Nat.exists_eq_add_of_le' hdepth
  have htexts : ∀ ss, (Json.texts ss).isStorable (depth + 2) = true := fun ss => by
    rw [Json.texts, Json.isStorable, Json.areStorable_iff.2 (List.forall_mem_map.2 fun s _ => rfl)]
    rfl
  have hpairs : (Json.array pairs).isStorable (depth + 2) = true := by
    rw [Json.isStorable, Bool.and_eq_true]
    exact ⟨rfl, Json.areStorable_iff.2 (BlockDelimiter.isStorable_of_forall₂ h.delimiters)⟩
  simp only [members, List.mem_cons, List.not_mem_nil, or_false] at hm
  rcases hm with rfl | rfl | rfl | rfl | rfl | rfl
  · rfl
  · rfl
  · exact htexts _
  · exact htexts _
  · exact htexts _
  · exact hpairs

/-- All members can be held on to. -/
theorem isStorable (h : d.Layout depth pairs kept others ms) (hdepth : 2 ≤ depth) :
    ∀ m ∈ ms, m.2.isStorable depth = true := by
  intro m hm
  rcases List.mem_append.1 (h.order.subset hm) with hkept | hother
  · exact h.isStorable_of_mem_members hdepth (h.sublist.subset hkept)
  · exact (h.unknown m hother).2

end Layout

/-- **A definition is read back from whatever writes it.** -/
theorem Written.ofJson?_eq (hdepth : 2 ≤ depth) (h : d.Written depth v) : ofJson? depth v = some d := by
  obtain ⟨pairs, kept, others, ms, h, rfl⟩ := h
  have hstorable : (ms.all fun m => ownMembers.contains m.1 || m.2.isStorable depth) = true :=
    List.all_eq_true.2 fun m hm => Bool.or_eq_true_iff.2 (.inr (h.isStorable hdepth m hm))
  have hguard : (guard ((ms.all fun m => ownMembers.contains m.1 || m.2.isStorable depth) = true) : Option Unit) =
      some () := by
    rw [hstorable]
    rfl
  have hid : Json.required Json.text? (some (.text d.id)) = some d.id := rfl
  obtain ⟨display, hdisplay, hdisplayName⟩ := h.displayName
  obtain ⟨extensions, hextensions, hextensionList⟩ := h.texts "extensions" d.extensions (by simp [members])
  obtain ⟨names, hnames, hnameList⟩ := h.texts "file_names" d.fileNames (by simp [members])
  obtain ⟨lines, hlines, hlineList⟩ := h.texts "line_comments" d.grammar.lineComments (by simp [members])
  obtain ⟨blocks, hblocks, hblockList⟩ := h.blockComments
  have hgrammar : Grammar.ofFields? lines blocks = some d.grammar := by
    rw [Grammar.ofFields?, hlineList, hblockList]
    rfl
  simp only [ofJson?, Json.members?_record, Option.bind_eq_bind, Option.bind_some, hguard, h.id, hid, hdisplay,
    hdisplayName, hextensions, hextensionList, hnames, hnameList, hlines, hblocks, hgrammar]
  rfl

end Language.Definition

namespace Language

open Definition

variable {t : FileTree} {p : Path} {ds : List Definition} {text : String}

/-! ## Files -/

theorem text?_encode (text : String) : Path.text? (Text.encode text.toList) = some text := by
  rw [Path.text?, Text.decode?, Text.decodeLossy_encode, if_pos rfl, Option.map_some, String.ofList_toList]

/-- A file of definitions may have other members, too. -/
theorem listOfJson?_of_written {ms others : List (String × Json)} {vs : List Json}
    (htext : Json.parse? text = some (.record ms)) (hms : ms.Perm (("languages", .array vs) :: others))
    (hothers : ∀ m ∈ others, m.1 ≠ "languages") (hvs : List.Forall₂ (Written (jsonDepth - 3)) ds vs) :
    listOfJson? text = some ds := by
  have hkept : ms.Perm ([("languages", .array vs)] ++ others) := hms
  have hmember : Json.member? ms "languages" = some (some (.array vs)) :=
    (Json.member?_of_kept hkept (.refl _) (by simp) hothers).resolve_right fun ⟨_, hnot⟩ => hnot List.mem_cons_self
  have hlist : (Json.array vs).list? (ofJson? (jsonDepth - 3)) = some ds :=
    Json.mapM_eq_some_of_forall₂ (hvs.imp fun _ _ h => h.ofJson?_eq (by decide))
  have hmembers := Json.members?_record ms
  rw [Json.record] at hmembers htext
  simp [listOfJson?, htext, Json.fields?, hmembers, hmember, Json.withDefault, hlist]

theorem load_of_written {ms others : List (String × Json)} {vs : List Json} (hpath : isYaml p = false)
    (hread : t.read p = .ok (Text.encode text.toList)) (htext : Json.parse? text = some (.record ms))
    (hms : ms.Perm (("languages", .array vs) :: others)) (hothers : ∀ m ∈ others, m.1 ≠ "languages")
    (hvs : List.Forall₂ (Written (jsonDepth - 3)) ds vs) (hvalid : ∀ d ∈ ds, d.defect? = none) :
    load t p = .ok ds := by
  refine load_eq_ok_iff.2 ⟨_, text, hread, text?_encode text, ?_, List.all_eq_true.2 fun d hd => ?_⟩
  · rw [listOf?, hpath, if_neg Bool.false_ne_true, listOfJson?_of_written htext hms hothers hvs]
  · rw [hvalid d hd]
    rfl

/-- What a file that lists these definitions writes. -/
def fileJson (ds : List Definition) : Json := .record [("languages", .array (ds.map toJson))]

theorem textual_texts (ss : List String) : (Json.texts ss).Textual :=
  .array (List.forall_mem_map.2 fun s _ => .text s)

theorem textual_blockDelimiter (b : BlockDelimiter) : b.toJson.Textual := by
  refine .record fun m hm => ?_
  simp only [List.mem_cons, List.not_mem_nil, or_false] at hm
  rcases hm with rfl | rfl <;> exact .text _

theorem textual_toJson (d : Definition) : d.toJson.Textual := by
  refine .record fun m hm => ?_
  simp only [List.mem_cons, List.not_mem_nil, or_false] at hm
  rcases hm with rfl | rfl | rfl | rfl | rfl | rfl
  · exact .text _
  · exact .text _
  · exact textual_texts _
  · exact textual_texts _
  · exact textual_texts _
  · exact .array (List.forall_mem_map.2 fun b _ => textual_blockDelimiter b)

theorem textual_fileJson (ds : List Definition) : (fileJson ds).Textual := by
  refine .record fun m hm => ?_
  rw [List.mem_singleton.1 hm]
  exact .array (List.forall_mem_map.2 fun d _ => textual_toJson d)

/-- **Definitions survive being written.** A definition is read back from the value that it is written as, and
from each value that differs from this one only in the order of its members, in members that are not known, or in
leaving out members that are empty, but for the id. A JSON file that lists such values, whatever other
members it has, gives the definitions they write, in their order, if none of them has a defect; so
does the file whose text is written from the definitions. -/
theorem load_written :
    (∀ depth d, Written depth d d.toJson) ∧
    (∀ depth d v, 2 ≤ depth → Written depth d v → ofJson? depth v = some d) ∧
    (∀ t p text ms others vs ds, isYaml p = false → t.read p = .ok (Text.encode text.toList) →
      Json.parse? text = some (.record ms) → ms.Perm (("languages", .array vs) :: others) →
      (∀ m ∈ others, m.1 ≠ "languages") → List.Forall₂ (Written (jsonDepth - 3)) ds vs →
      (∀ d ∈ ds, d.defect? = none) → load t p = .ok ds) ∧
    ∀ t p ds, isYaml p = false → t.read p = .ok (Text.encode (fileJson ds).compact.toList) →
      (∀ d ∈ ds, d.defect? = none) → load t p = .ok ds := by
  refine ⟨written_toJson, fun depth d v hdepth h => h.ofJson?_eq hdepth, ?_, ?_⟩
  · intro t p text ms others vs ds hpath hread htext hms hothers hvs hvalid
    exact load_of_written hpath hread htext hms hothers hvs hvalid
  · intro t p ds hpath hread hvalid
    refine load_of_written hpath hread (textual_fileJson ds).parse?_compact (.refl _) (List.forall_mem_nil _) ?_ hvalid
    exact List.forall₂_map_right_iff.2 (List.forall₂_same.2 fun d _ => d.written_toJson _)

/-- A definition that says nothing but its id and a pair of delimiters. -/
def Definition.fennel : Definition where
  id := "fennel"
  grammar := { blockComments := [⟨"#|", "|#"⟩] }

/-- The definition without its empty members, with one that is not known, in another order. -/
def fennelMembers : List (String × Json) :=
  [("since", .nat 2016), ("block_comments", .array [.record [("end", .text "|#"), ("start", .text "#|")]]),
    ("id", .text "fennel")]

/-- The text of a file that lists it. -/
def fennelText : String :=
  "\x7b\"languages\":[\x7b\"since\":2016,\"block_comments\":[\x7b\"end\":\"|#\",\"start\":\"#|\"\x7d]," ++
    "\"id\":\"fennel\"\x7d]\x7d"

/-- This file, and the one that is written from the definition. -/
def fennelFiles : FileTree where
  items := [([Text.encode "by-hand.json".toList], .file (Text.encode fennelText.toList)),
    ([Text.encode "written.json".toList], .file (Text.encode (fileJson [.fennel]).compact.toList))]

theorem parse?_fennelText : Json.parse? fennelText =
    some (.record [("languages", .array [.record fennelMembers])]) := by
  cbv

theorem written_fennelMembers : Written (jsonDepth - 3) .fennel (.record fennelMembers) := by
  let pairs : List Json := [.record [("end", .text "|#"), ("start", .text "#|")]]
  refine ⟨pairs, [("id", .text "fennel"), ("block_comments", .array pairs)], [("since", .nat 2016)],
    fennelMembers, ?_, rfl⟩
  refine ⟨?_, ?_, ?_, ?_, (List.reverse_perm _).symm⟩
  · exact .cons ⟨_, .swap _ _ _, rfl⟩ .nil
  · exact .cons_cons _ (.cons _ (.cons _ (.cons _ (.cons _ (.cons_cons _ .slnil)))))
  · simp [members, Definition.fennel, Json.IsEmpty, Json.texts]
  · intro m hm
    rw [List.mem_singleton.1 hm]
    exact ⟨by decide +kernel, by decide +kernel⟩

theorem load_written_fennel : ofJson? (jsonDepth - 3) (.record fennelMembers) = some .fennel ∧
    load fennelFiles (.ofString "by-hand.json") = .ok [.fennel] ∧
    load fennelFiles (.ofString "written.json") = .ok [.fennel] := by
  obtain ⟨-, hread, hbyHand, hwritten⟩ := load_written
  have hvalid : ∀ d ∈ [Definition.fennel], d.defect? = none := by decide +kernel
  refine ⟨hread _ _ _ (by decide) written_fennelMembers, ?_, ?_⟩
  · exact hbyHand _ _ fennelText _ [] _ _ (by decide +kernel) (FileTree.read_name (by decide +kernel) rfl)
      parse?_fennelText (.refl _) (List.forall_mem_nil _) (.cons written_fennelMembers .nil) hvalid
  · exact hwritten _ _ _ (by decide +kernel) (FileTree.read_name (by decide +kernel) rfl) hvalid

end Language

end LineCensus
