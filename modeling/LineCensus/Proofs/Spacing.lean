/-
White space around a line, and tabs in it. A scan compares a line with tokens only once
its tabs are expanded and the white space around it is gone, so texts that differ in
nothing else have the same form (`laterForm_eq_of_respaced`). Tabs and the spaces they
stand for are not told apart at all (`Line.Retabbed.expandTabs_eq`).

The byte order mark comes off before either, and no white space is one: `Line.body` is the
text that is left, and `Scanner.texts` lists those of a run.
-/
import LineCensus.Proofs.Trimming
import Mathlib.Data.List.Forall2
import Mathlib.Data.List.TakeWhile

namespace LineCensus

namespace Text

/-- White space and nothing else. -/
def Blank (cs : List Char) : Prop := ∀ c ∈ cs, isBlank c = true

instance (cs : List Char) : Decidable (Blank cs) := decidable_of_iff (cs.all isBlank = true) (by simp [Blank])

/-- Two texts that are the same but for white space around them. -/
def Respaced (cs ds : List Char) : Prop := ∃ a b a' b' text, Blank a ∧ Blank b ∧ Blank a' ∧ Blank b' ∧
  cs = a ++ text ++ b ∧ ds = a' ++ text ++ b'

variable {a b cs ds : List Char}

@[simp] theorem blank_nil : Blank [] := by simp [Blank]

theorem Blank.of_suffix (hb : Blank b) (h : a <:+ b) : Blank a := fun c hc => hb c (h.subset hc)

theorem trimStart_append_of_blank (ha : Blank a) (cs : List Char) : trimStart (a ++ cs) = trimStart cs :=
  List.dropWhile_append_of_pos ha

theorem trimEnd_append_of_blank (hb : Blank b) (cs : List Char) : trimEnd (cs ++ b) = trimEnd cs := by
  have hrev : ∀ c ∈ b.reverse, isBlank c = true := fun c hc => hb c (List.mem_reverse.1 hc)
  simp only [trimEnd, List.reverse_append, List.dropWhile_append_of_pos hrev]

theorem trimStart_of_blank (ha : Blank a) : trimStart a = [] := by
  have h := trimStart_append_of_blank ha []
  rwa [List.append_nil] at h

/-- White space after a text is trimmed away, also where nothing is left of the text. -/
theorem trim_append_of_blank (hb : Blank b) (cs : List Char) : trim (cs ++ b) = trim cs := by
  have hstart : trimStart (cs ++ b) = if (trimStart cs).isEmpty then trimStart b else trimStart cs ++ b :=
    List.dropWhile_append
  rw [trim, trim, hstart]
  split
  next he => rw [List.isEmpty_iff.1 he, trimStart_of_blank hb]
  next => exact trimEnd_append_of_blank hb _

theorem trim_surround (ha : Blank a) (hb : Blank b) (cs : List Char) : trim (a ++ cs ++ b) = trim cs := by
  rw [trim_append_of_blank hb, trim, trimStart_append_of_blank ha, trim]

theorem trim_of_blank (ha : Blank a) : trim a = [] := by
  rw [trim, trimStart_of_blank ha]
  rfl

theorem trim_eq_nil_iff : trim cs = [] ↔ Blank cs := by
  refine ⟨fun h => ?_, trim_of_blank⟩
  have hstart : Blank (trimStart cs) := by
    intro c hc
    exact List.dropWhile_eq_nil_iff.1 (List.reverse_eq_nil_iff.1 h) c (List.mem_reverse.2 hc)
  intro c hc
  rw [← List.takeWhile_append_dropWhile (p := isBlank) (l := cs)] at hc
  rcases List.mem_append.1 hc with hc | hc
  · exact List.mem_takeWhile_imp hc
  · exact hstart c hc

theorem Respaced.refl (cs : List Char) : Respaced cs cs :=
  ⟨[], [], [], [], cs, blank_nil, blank_nil, blank_nil, blank_nil, by simp, by simp⟩

theorem Respaced.symm (h : Respaced cs ds) : Respaced ds cs := by
  obtain ⟨a, b, a', b', text, ha, hb, ha', hb', hcs, hds⟩ := h
  exact ⟨a', b', a, b, text, ha', hb', ha, hb, hds, hcs⟩

theorem Respaced.surround (ha : Blank a) (hb : Blank b) (cs : List Char) : Respaced cs (a ++ cs ++ b) :=
  ⟨[], [], a, b, cs, blank_nil, blank_nil, ha, hb, by simp, rfl⟩

end Text

namespace Line

open Text

variable {a b cs ds : List Char}

/-- The text of a line as its tabs are expanded: a mark in front of the first line is gone. -/
def body (first : Bool) (raw : List Char) : List Char := if first then dropMark raw else raw

theorem ofRaw_eq (first : Bool) (raw : List Char) : ofRaw first raw = ⟨expandTabs (body first raw)⟩ := rfl

theorem body_suffix (first : Bool) (raw : List Char) : body first raw <:+ raw := by
  cases first with
  | false => exact List.suffix_rfl
  | true => exact dropMark_suffix raw

theorem expandTabs_blank (ha : Blank a) : Blank (expandTabs a) := by
  intro c hc
  obtain ⟨d, hd, hc⟩ := List.mem_flatMap.1 hc
  split at hc
  · simp only [List.mem_cons, List.not_mem_nil, or_false, or_self] at hc
    rw [hc]
    rfl
  · rw [List.mem_singleton.1 hc]
    exact ha d hd

/-- Lines in which some tabs are four spaces in the other. -/
inductive Retabbed : List Char → List Char → Prop
  | nil : Retabbed [] []
  | cons (c : Char) {cs ds : List Char} (h : Retabbed cs ds) : Retabbed (c :: cs) (c :: ds)
  | spaces {cs ds : List Char} (h : Retabbed cs ds) : Retabbed ('\t' :: cs) (' ' :: ' ' :: ' ' :: ' ' :: ds)
  | tab {cs ds : List Char} (h : Retabbed cs ds) : Retabbed (' ' :: ' ' :: ' ' :: ' ' :: cs) ('\t' :: ds)

theorem Retabbed.refl : ∀ cs : List Char, Retabbed cs cs
  | [] => .nil
  | c :: cs => .cons c (refl cs)

theorem expandTabs_spaces (cs : List Char) :
    expandTabs (' ' :: ' ' :: ' ' :: ' ' :: cs) = ' ' :: ' ' :: ' ' :: ' ' :: expandTabs cs := rfl

theorem Retabbed.expandTabs_eq (h : Retabbed cs ds) : expandTabs cs = expandTabs ds := by
  induction h with
  | nil => rfl
  | cons c _ ih =>
    by_cases hc : c = '\t'
    · rw [hc, expandTabs_tab, expandTabs_tab, ih]
    · rw [expandTabs_cons hc, expandTabs_cons hc, ih]
  | spaces _ ih => rw [expandTabs_tab, expandTabs_spaces, ih]
  | tab _ ih => rw [expandTabs_tab, expandTabs_spaces, ih]

/-- A mark in front is neither a tab nor a space, so it goes off both lines or neither. -/
theorem Retabbed.dropMark (h : Retabbed cs ds) : Retabbed (dropMark cs) (dropMark ds) := by
  cases h with
  | nil => exact .nil
  | cons c h =>
    simp only [Line.dropMark]
    split
    · exact h
    · exact .cons c h
  | spaces h => exact .spaces h
  | tab h => exact .tab h

theorem Retabbed.ofRaw_eq (h : Retabbed cs ds) (first : Bool) : ofRaw first cs = ofRaw first ds := by
  cases first with
  | false => exact congrArg Line.mk h.expandTabs_eq
  | true => exact congrArg Line.mk h.dropMark.expandTabs_eq

end Line

namespace Scanner

open Text

variable {s t : Scanner} {cs ds raw raw' : List Char}

theorem laterForm_eq (cs : List Char) : laterForm cs = trim (Line.expandTabs cs) := rfl

/-- White space around a text leaves its form alone. -/
theorem laterForm_surround {a b : List Char} (ha : Blank a) (hb : Blank b) (cs : List Char) :
    laterForm (a ++ cs ++ b) = laterForm cs := by
  rw [laterForm_eq, laterForm_eq, Line.expandTabs_append, Line.expandTabs_append,
    trim_surround (Line.expandTabs_blank ha) (Line.expandTabs_blank hb)]

theorem laterForm_of_blank (h : Blank cs) : laterForm cs = [] := by
  rw [laterForm_eq, trim_of_blank (Line.expandTabs_blank h)]

theorem laterForm_eq_of_respaced (h : Respaced cs ds) : laterForm cs = laterForm ds := by
  obtain ⟨a, b, a', b', text, ha, hb, ha', hb', rfl, rfl⟩ := h
  rw [laterForm_surround ha hb, laterForm_surround ha' hb']

theorem map_laterForm_eq_of_respaced {texts texts' : List (List Char)} (h : List.Forall₂ Respaced texts texts') :
    texts.map laterForm = texts'.map laterForm := by
  induction h with
  | nil => rfl
  | cons htext _ ih => rw [List.map_cons, List.map_cons, laterForm_eq_of_respaced htext, ih]

/-- The texts of a run, without a byte order mark in front of the first. -/
def texts (s : Scanner) : List (List Char) → List (List Char)
  | [] => []
  | raw :: raws => Line.body s.atStart raw :: raws

theorem trimmed_eq_laterForm (s : Scanner) (raw : List Char) :
    s.trimmed raw = laterForm (Line.body s.atStart raw) := rfl

theorem forms_eq_map_texts (s : Scanner) (raws : List (List Char)) : s.forms raws = (s.texts raws).map laterForm := by
  cases raws <;> rfl

/-- A line of white space has no form, wherever it stands. -/
theorem trimmed_of_blank (h : Blank raw) (s : Scanner) : s.trimmed raw = [] := by
  rw [trimmed_eq_laterForm]
  exact laterForm_of_blank (h.of_suffix (Line.body_suffix _ _))

theorem forms_eq_of_respaced {raws raws' : List (List Char)}
    (h : List.Forall₂ Respaced (s.texts raws) (t.texts raws')) : s.forms raws = t.forms raws' := by
  rw [forms_eq_map_texts, forms_eq_map_texts, map_laterForm_eq_of_respaced h]

theorem feed_congr_ofRaw (h : Line.ofRaw s.atStart raw = Line.ofRaw s.atStart raw') (g : Grammar) :
    s.feed g raw = s.feed g raw' := by
  rw [feed, feed, h]

/-- A run is decided by its texts. -/
theorem feedAll_eq_of_texts {raws raws' : List (List Char)} (h : s.texts raws = s.texts raws') (g : Grammar) :
    s.feedAll g raws = s.feedAll g raws' := by
  cases raws with
  | nil =>
    cases raws' with
    | nil => rfl
    | cons raw' raws' => cases h
  | cons raw raws =>
    cases raws' with
    | nil => cases h
    | cons raw' raws' =>
      rw [texts, texts, List.cons.injEq] at h
      obtain ⟨hbody, rfl⟩ := h
      have hread : Line.ofRaw s.atStart raw = Line.ofRaw s.atStart raw' := by
        rw [Line.ofRaw_eq, Line.ofRaw_eq, hbody]
      rw [feedAll_cons, feedAll_cons, feed_congr_ofRaw hread]

end Scanner

end LineCensus
