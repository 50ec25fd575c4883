/-
Choosing by language. A plan that names languages walks through the tree as one that names none, and
tests what it finds once more: so each root contributes the entries of these languages and gives the same
warnings (`ofRoot_only`). Which entry of a path is kept does not depend on the test, since all entries
of a path are of one language (`Entry.Detected.key_eq`). So what is chosen are the entries of these
languages from among all that would be chosen (`choose_only`), in their order.

In a table that can come about each entry is of one language, whose id no other has. Hence the choices for
its ids, taken together, are the choice for all (`perm_flatMap_filter`). Of a list of ids only the set of
their letters counts, in small ones (`Entry.isAmong_iff`), for the test as for whether they are known
(`choose_only_congr`).
-/
import LineCensus.Proofs.Canonical
import LineCensus.Proofs.Lookup

namespace LineCensus

open LineCensus.Language

variable {g : Engine} {t : FileTree} {r : Registry} {f : Filter} {p : Plan} {ids : List String} {e : Entry}
  {es : List Entry}

/-- Whether the language of an entry is one of these; the case of ASCII letters does not count. -/
def Entry.isAmong (ids : List String) (e : Entry) : Bool := ids.any (Text.sameLetters · e.languageId)

theorem Entry.isAmong_iff : e.isAmong ids = true ↔ Text.lower e.languageId ∈ ids.map Text.lower := by
  rw [isAmong, List.any_eq_true, List.mem_map]
  exact exists_congr fun id => and_congr_right' beq_iff_eq

theorem Entry.isAmong_singleton {id : String} : e.isAmong [id] = true ↔ Text.lower id = Text.lower e.languageId := by
  rw [isAmong_iff, List.map_singleton, List.mem_singleton, eq_comm]

/-- Neither the order of the ids counts nor their case, nor that they are repeated. -/
theorem Entry.isAmong_congr_ids {ids' : List String}
    (h : ∀ key, key ∈ ids'.map Text.lower ↔ key ∈ ids.map Text.lower) : isAmong ids' = isAmong ids := by
  funext e
  rw [Bool.eq_iff_iff, isAmong_iff, isAmong_iff, h]

namespace Filter

/-- The filters with languages of their own. -/
def only (f : Filter) (ids : List String) : Filter := { f with languages := ids.map Text.lower }

theorem acceptsLanguage_only (f : Filter) (hids : ids ≠ []) (path : Path) (d : Definition) :
    (f.only ids).acceptsLanguage d = Entry.isAmong ids ⟨path, d.id⟩ := by
  have hnone : (ids.map Text.lower).isEmpty = false := by simpa using hids
  rw [acceptsLanguage, only, hnone, Bool.false_or, List.contains_eq_any_beq, List.any_map, Entry.isAmong]
  congr 1
  funext id
  exact Bool.beq_comm

end Filter

namespace Selection

/-! ## One root -/

theorem entryOf_only (hall : f.languages = []) (hids : ids ≠ []) (path : Path) :
    entryOf r (f.only ids) path = (entryOf r f path).filter (Entry.isAmong ids) := by
  have haccepts : ∀ d, f.acceptsLanguage d = true := fun d => by simp [Filter.acceptsLanguage, hall]
  rw [entryOf, entryOf]
  cases r.detect? path with
  | none => rfl
  | some d =>
    rw [Option.bind_some, Option.bind_some, haccepts d, Filter.acceptsLanguage_only f hids path]
    rfl

theorem entryAt_only (hall : f.languages = []) (hids : ids ≠ []) (path : Path) :
    entryAt r (f.only ids) path = (entryAt r f path).filter (Entry.isAmong ids) := by
  have hfile : (f.only ids).acceptsFile path = f.acceptsFile path := rfl
  rw [entryAt, entryAt, hfile, entryOf_only hall hids]
  split <;> rfl

theorem entryBelow_only (hall : f.languages = []) (hids : ids ≠ []) (root path : Path) :
    entryBelow r (f.only ids) root path = (entryBelow r f root path).filter (Entry.isAmong ids) := by
  have hparents : (f.only ids).acceptsParents root path = f.acceptsParents root path := rfl
  rw [entryBelow, entryBelow, hparents, entryAt_only hall hids]
  split <;> rfl

/-- **A root contributes the entries of these languages**, with the same warnings. -/
theorem ofRoot_only (hall : f.languages = []) (hids : ids ≠ []) (root : Path) :
    ofRoot g t r (f.only ids) { p with includeLanguages := ids } root =
      ((ofRoot g t r f p root).1.filter (Entry.isAmong ids), (ofRoot g t r f p root).2) := by
  have henters : (f.only ids).enters = f.enters := rfl
  rw [ofRoot, ofRoot]
  cases t.stat root with
  | error fault => simp only [entryOf_only hall hids, Option.toList_filter]
  | ok item =>
    cases item with
    | directory =>
      simp only [henters, List.filter_filterMap, Prod.mk.injEq, and_true]
      refine List.filterMap_congr fun x _ => ?_
      cases x with
      | file path => exact entryBelow_only hall hids root path
      | fault => rfl
    | file | link => simp only [entryAt_only hall hids, Option.toList_filter]

/-! ## All roots -/

/-- Whether an entry is tested for its language, and hence whether it is chosen, depends on its path alone. -/
theorem isAmong_congr {a b : Entry} (ha : a.Detected r) (hb : b.Detected r) (h : a.path.same b.path = true) :
    a.isAmong ids = b.isAmong ids := by
  have hlanguage : a.languageId = b.languageId := congrArg Prod.snd (ha.key_eq hb (Path.same_iff.1 h))
  rw [Entry.isAmong, Entry.isAmong, hlanguage]

/-- The first entry with a path may be looked for before or after the test of the language. -/
theorem find?_filter_isAmong (hes : ∀ e ∈ es, e.Detected r) (path : Path) :
    (es.filter (Entry.isAmong ids)).find? (fun e => e.path.same path) =
      (es.find? (·.path.same path)).filter (Entry.isAmong ids) := by
  rw [List.find?_filter]
  cases hfirst : es.find? (·.path.same path) with
  | none =>
    rw [Option.filter_none, List.find?_eq_none]
    intro e he
    simpa using fun _ => List.find?_eq_none.1 hfirst e he
  | some b =>
    have hsame : b.path.same path = true := by simpa using List.find?_some hfirst
    have hall : ∀ e ∈ es, e.path.same path = true → e.isAmong ids = b.isAmong ids := fun e he h =>
      isAmong_congr (hes e he) (hes b (List.mem_of_find?_eq_some hfirst))
        (Path.same_iff.2 ((Path.same_iff.1 h).trans (Path.same_iff.1 hsame).symm))
    rw [Option.filter_some]
    split
    next hamong =>
      rw [← hfirst]
      refine List.find?_congr fun e he => ?_
      cases hpath : e.path.same path with
      | false => simp
      | true => simp [(hall e he hpath).trans hamong]
    next hamong =>
      rw [List.find?_eq_none]
      intro e he
      simpa using fun hin hpath => hamong ((hall e he (Path.same_iff.2 hpath)).symm.trans hin)

theorem ofRoots_only (hall : f.languages = []) (hids : ids ≠ []) :
    ofRoots g t r (f.only ids) { p with includeLanguages := ids } =
      ((ofRoots g t r f p).1.filter (Entry.isAmong ids), (ofRoots g t r f p).2) := by
  have hdetected : ∀ e ∈ p.roots.flatMap fun root => (ofRoot g t r f p root).1, e.Detected r := fun e he => by
    obtain ⟨root, -, he⟩ := List.mem_flatMap.1 he
    exact detected_of_mem_ofRoot he
  have hentries : (ofRoots g t r (f.only ids) { p with includeLanguages := ids }).1 =
      (ofRoots g t r f p).1.filter (Entry.isAmong ids) := by
    refine Entry.eq_of_ascending (ascending_ofRoots _ _ _ _ _) ((ascending_ofRoots g t r f p).filter _) fun e => ?_
    rw [List.mem_filter, mem_ofRoots_iff_find?, mem_ofRoots_iff_find?]
    simp only [ofRoot_only hall hids, ← List.filter_flatMap]
    rw [find?_filter_isAmong hdetected, Option.filter_eq_some_iff]
  refine Prod.ext hentries ?_
  simp only [ofRoots, ofRoot_only hall hids, List.flatMap_map]

/-- **To choose by language is to choose and to keep these languages.** -/
theorem choose_only (h : p.Accepted g r) (hall : p.includeLanguages = []) (hids : ids ≠ [])
    (hknown : ∀ id ∈ ids, (r.get? id).isSome) : choose g t r { p with includeLanguages := ids } =
      .ok ((ofRoots g t r (p.filter g) p).1.filter (Entry.isAmong ids), (ofRoots g t r (p.filter g) p).2) := by
  have haccepted : Plan.Accepted { p with includeLanguages := ids } g r := ⟨hknown, h.patterns⟩
  have hfilter : (p.filter g).languages = [] := by rw [Plan.filter, hall, List.map_nil]
  rw [Plan.choose_of_accepted haccepted, ← ofRoots_only hfilter hids]
  rfl

/-- The list of ids counts only for its members, and these only for their letters. -/
theorem choose_only_congr {ids' : List String} (h : p.Accepted g r) (hall : p.includeLanguages = []) (hids : ids ≠ [])
    (hknown : ∀ id ∈ ids, (r.get? id).isSome)
    (hkeys : ∀ key, key ∈ ids'.map Text.lower ↔ key ∈ ids.map Text.lower) :
    choose g t r { p with includeLanguages := ids' } = choose g t r { p with includeLanguages := ids } := by
  have hids' : ids' ≠ [] := by
    rintro rfl
    obtain ⟨id, hid⟩ := List.exists_mem_of_ne_nil ids hids
    simpa using (hkeys _).2 (List.mem_map_of_mem hid)
  have hknown' : ∀ id ∈ ids', (r.get? id).isSome := fun id hid => by
    obtain ⟨own, hown, hsame⟩ := List.mem_map.1 ((hkeys _).1 (List.mem_map_of_mem hid))
    rw [Registry.get?, ← hsame]
    exact hknown own hown
  rw [choose_only h hall hids hknown, choose_only h hall hids' hknown', Entry.isAmong_congr_ids hkeys]

/-! ## All languages -/

/-- A list is the parts of it that pass tests of which each element passes exactly one. -/
theorem perm_flatMap_filter {α β : Type} {xs : List α} {ys : List β} {test : β → α → Bool} (hxs : xs.Nodup)
    (hys : ys.Pairwise fun b c => ∀ a, test b a = true → test c a = false)
    (hcovered : ∀ a ∈ xs, ∃ b ∈ ys, test b a = true) : (ys.flatMap fun b => xs.filter (test b)).Perm xs := by
  have hdisjoint : ys.Pairwise (List.Disjoint.onFun fun b => xs.filter (test b)) := by
    refine hys.imp fun hbc a hb hc => ?_
    have hfalse := hbc a (List.mem_filter.1 hb).2
    rw [(List.mem_filter.1 hc).2] at hfalse
    cases hfalse
  have hnodup := List.nodup_flatMap.2 ⟨fun b _ => hxs.filter (test b), hdisjoint⟩
  refine (List.perm_ext_iff_of_nodup hnodup hxs).2 fun a => ?_
  simp only [List.mem_flatMap, List.mem_filter]
  constructor
  · rintro ⟨-, -, ha, -⟩
    exact ha
  · intro ha
    obtain ⟨b, hb, htest⟩ := hcovered a ha
    exact ⟨b, hb, ha, htest⟩

/-- An entry is of a language of the table. -/
theorem exists_isAmong (h : e.Detected r) : ∃ d ∈ r.definitions, e.isAmong [d.id] = true := by
  obtain ⟨d, hd, hid⟩ := h
  exact ⟨d, Registry.mem_of_detect? hd, Entry.isAmong_singleton.2 (by rw [hid])⟩

/-- An entry is of one language only. -/
theorem pairwise_isAmong (hr : r.Reachable) :
    r.definitions.Pairwise fun c d => ∀ e : Entry, e.isAmong [c.id] = true → e.isAmong [d.id] = false := by
  refine hr.pairwise_ids.imp fun {c d} hne e hc => ?_
  rw [Bool.eq_false_iff, ne_eq, Entry.isAmong_singleton, ← Entry.isAmong_singleton.1 hc]
  exact (ne_of_beq_false hne).symm

theorem isAmong_iff_exists {d : Definition} (h : e.isAmong [d.id] = true) :
    e.isAmong ids = true ↔ ∃ id ∈ ids, Text.sameLetters id d.id = true := by
  simp only [Entry.isAmong, List.any_eq_true, Text.sameLetters, beq_iff_eq, ← Entry.isAmong_singleton.1 h]

/-- **The choices by language make up the choice for all.** Where a plan that names no language chooses
`es`, naming one of the table, in any case of ASCII letters, chooses a part of `es`. No two of the parts have
a path in common, and together they are `es`. What is chosen for several languages is what is in the part of
one of them, in the order of `es`; it depends neither on the order of the names nor on their case and
on repetitions. The warnings are the same throughout. -/
theorem choose_partition (g : Engine) (t : FileTree) (hr : r.Reachable) (h : p.Accepted g r)
    (hall : p.includeLanguages = []) :
    ∃ es log, choose g t r p = .ok (es, log) ∧ ∃ part : Definition → List Entry,
      (∀ d ∈ r.definitions, (part d).Sublist es ∧ ∀ id, Text.sameLetters id d.id = true →
        choose g t r { p with includeLanguages := [id] } = .ok (part d, log)) ∧
      (r.definitions.flatMap part).Perm es ∧
      r.definitions.Pairwise (fun c d => ∀ a ∈ part c, ∀ b ∈ part d, a.path.same b.path = false) ∧
      ∀ ids, ids ≠ [] → (∀ id ∈ ids, (r.get? id).isSome) →
        ∃ chosen, choose g t r { p with includeLanguages := ids } = .ok (chosen, log) ∧ chosen.Sublist es ∧
          (∀ e, e ∈ chosen ↔
            ∃ id ∈ ids, ∃ d ∈ r.definitions, Text.sameLetters id d.id = true ∧ e ∈ part d) ∧
          ∀ ids', (∀ key, key ∈ ids'.map Text.lower ↔ key ∈ ids.map Text.lower) →
            choose g t r { p with includeLanguages := ids' } = .ok (chosen, log) := by
  have hdetected : ∀ e ∈ (ofRoots g t r (p.filter g) p).1, e.Detected r := fun e he => detected_of_mem_ofRoots he
  have hnodup : (ofRoots g t r (p.filter g) p).1.Nodup := nodup_paths_ofRoots.of_map
  have hchoose := Plan.choose_of_accepted h t
  have honly := fun ids (hids : ids ≠ []) (hknown : ∀ id ∈ ids, (r.get? id).isSome) =>
    choose_only (t := t) h hall hids hknown
  generalize ofRoots g t r (p.filter g) p = chosen at *
  obtain ⟨es, log⟩ := chosen
  have hcovered : ∀ e ∈ es, ∃ d ∈ r.definitions, e.isAmong [d.id] = true :=
    fun e he => exists_isAmong (hdetected e he)
  have hknown : ∀ d ∈ r.definitions, ∀ id ∈ [d.id], (r.get? id).isSome := fun d hd id hid => by
    rw [List.mem_singleton.1 hid, hr.get?_id hd]
    rfl
  refine ⟨es, log, hchoose, fun d => es.filter (Entry.isAmong [d.id]), fun d hd => ⟨List.filter_sublist, ?_⟩,
    perm_flatMap_filter hnodup (pairwise_isAmong hr) hcovered, ?_, ?_⟩
  · intro id hid
    have hkeys : ∀ key, key ∈ [id].map Text.lower ↔ key ∈ [d.id].map Text.lower := fun key => by
      rw [List.map_singleton, List.map_singleton, eq_of_beq hid]
    rw [choose_only_congr h hall (by simp) (hknown d hd) hkeys]
    exact honly [d.id] (by simp) (hknown d hd)
  · refine (pairwise_isAmong hr).imp fun {c d} hne a ha b hb => ?_
    rw [List.mem_filter] at ha hb
    rw [Bool.eq_false_iff]
    intro hsame
    have hd := hne a ha.2
    rw [isAmong_congr (hdetected a ha.1) (hdetected b hb.1) hsame, hb.2] at hd
    cases hd
  · intro ids hids hknown
    refine ⟨_, honly ids hids hknown, List.filter_sublist, fun e => ?_, fun ids' hsame => ?_⟩
    · rw [List.mem_filter]
      constructor
      · rintro ⟨he, hamong⟩
        obtain ⟨d, hd, hof⟩ := hcovered e he
        obtain ⟨id, hid, hsame⟩ := (isAmong_iff_exists hof).1 hamong
        exact ⟨id, hid, d, hd, hsame, List.mem_filter.2 ⟨he, hof⟩⟩
      · rintro ⟨id, hid, d, -, hsame, he⟩
        obtain ⟨he, hof⟩ := List.mem_filter.1 he
        exact ⟨he, (isAmong_iff_exists hof).2 ⟨id, hid, hsame⟩⟩
    · rw [choose_only_congr h hall hids hknown hsame]
      exact honly ids hids hknown

/-- A directory with files in two languages. -/
def twoLanguages : FileTree where
  items := [([Text.encode "src".toList], .directory),
    ([Text.encode "src".toList, Text.encode "b.rs".toList], .file []),
    ([Text.encode "src".toList, Text.encode "a.c".toList], .file [])]

/-- A plan for a directory. -/
def sources : Plan := { roots := [.ofString "src"] }

theorem choose_sources : choose .standard twoLanguages .builtin sources =
    .ok ([⟨.ofString "src/a.c", "c"⟩, ⟨.ofString "src/b.rs", "rust"⟩], []) := by
  let id (path : Path) : String := if path = .ofString "src/a.c" then "c" else "rust"
  have hid : ∀ path ∈ [Path.ofString "src/b.rs", .ofString "src/a.c"],
      (Registry.builtin.detect? path).map Definition.id = some (id path) := by
    intro path hpath
    rw [Registry.Reachable.builtin.detect?_eq, show Registry.builtin.definitions = builtin from
      Registry.definitions_index _]
    revert path
    decide +kernel
  have hstat : twoLanguages.stat (.ofString "src") = .ok .directory := by cbv
  have hdirectory := Plan.ofRoot_of_detect (g := .standard) (p := sources) _ id hstat (by cbv) hid
  rw [sources, Plan.choose_roots (.cons hdirectory .nil)]
  exact congrArg Except.ok (Prod.ext (by cbv) rfl)

theorem choose_partition_sources :
    let a : Entry := ⟨.ofString "src/a.c", "c"⟩
    let b : Entry := ⟨.ofString "src/b.rs", "rust"⟩
    (Registry.builtin.Reachable ∧ sources.Accepted .standard .builtin ∧ sources.includeLanguages = []) ∧
    choose .standard twoLanguages .builtin sources = .ok ([a, b], []) ∧
      choose .standard twoLanguages .builtin { sources with includeLanguages := ["C"] } = .ok ([a], []) ∧
      choose .standard twoLanguages .builtin { sources with includeLanguages := ["c", "rust"] } = .ok ([a, b], []) ∧
      choose .standard twoLanguages .builtin { sources with includeLanguages := ["RUST", "c", "C"] } =
        .ok ([a, b], []) := by
  intro a b
  have haccepted : sources.Accepted .standard .builtin := Plan.accepted_roots _ _ _
  have hknown : ∀ id ∈ ["C", "c", "rust"], (Registry.builtin.get? id).isSome := by
    simp only [Registry.Reachable.builtin.get?_eq, show Registry.builtin.definitions = builtin from
      Registry.definitions_index _]
    decide +kernel
  have honly : ∀ ids, ids ≠ [] → (∀ id ∈ ids, (Registry.builtin.get? id).isSome) →
      choose .standard twoLanguages .builtin { sources with includeLanguages := ids } =
        .ok ([a, b].filter (Entry.isAmong ids), []) := by
    intro ids hids hids'
    have hroots := (Plan.choose_of_accepted haccepted twoLanguages).symm.trans choose_sources
    rw [choose_only haccepted rfl hids hids', Except.ok.inj hroots]
  obtain ⟨es, log, hchoose, part, -, -, -, hseveral⟩ :=
    choose_partition .standard twoLanguages .builtin haccepted rfl
  rw [choose_sources] at hchoose
  cases hchoose
  have hids : ∀ id ∈ ["c", "rust"], (Registry.builtin.get? id).isSome :=
    fun id hid => hknown id (List.mem_cons_of_mem _ hid)
  obtain ⟨both, hboth, -, -, hsame⟩ := hseveral ["c", "rust"] (by simp) hids
  have hkeys : ∀ key, key ∈ ["RUST", "c", "C"].map Text.lower ↔ key ∈ ["c", "rust"].map Text.lower := by
    intro key
    rw [show ["RUST", "c", "C"].map Text.lower = ["rust", "c", "c"] from by decide +kernel,
      show ["c", "rust"].map Text.lower = ["c", "rust"] from by decide +kernel]
    simp only [List.mem_cons, List.not_mem_nil, or_false]
    tauto
  have hchosen : [a, b].filter (Entry.isAmong ["c", "rust"]) = [a, b] := by decide +kernel
  rw [honly _ (by simp) hids, hchosen] at hboth
  cases hboth
  have hC : [a, b].filter (Entry.isAmong ["C"]) = [a] := by decide +kernel
  refine ⟨⟨.builtin, haccepted, rfl⟩, choose_sources, ?_, ?_, hsame _ hkeys⟩
  · rw [honly _ (by simp) (List.forall_mem_singleton.2 (hknown "C" List.mem_cons_self)), hC]
  · rw [honly _ (by simp) hids, hchosen]

end Selection

end LineCensus
