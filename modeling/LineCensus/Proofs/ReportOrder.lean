/-
Reports are canonical and agree with themselves. Files of different names have one order only, so the
order in which they were measured is forgotten when they are collected (`files_eq_of_perm`); the rest of
a report is made of the collected files. Its rows are those of the languages that occur, put in order by
a key, and each column of them adds up to the total that was taken over the files directly
(`Totals.ofLanguages_eq_of_perm`, `LanguageTotals.ofLanguages_group`).
-/
import LineCensus.Proofs.LanguageRows
import LineCensus.Proofs.Ranking
import LineCensus.Report

namespace LineCensus.Report

variable {ss ss' : List Summary} {row : LanguageTotals} {language : String}

theorem files_eq (ss : List Summary) (key : SortKey) :
    (ofSummaries ss key).files.toList = Rank.sort Summary.rank ss := Collection.toList_ofList ss

theorem languages_eq (ss : List Summary) (key : SortKey) : (ofSummaries ss key).languages =
    Rank.sort key.rank (LanguageTotals.group (ofSummaries ss key).files.toList) := key.sort_eq _

theorem perm_files (ss : List Summary) (key : SortKey) : (ofSummaries ss key).files.toList.Perm ss :=
  Rank.perm_sort Summary.rank ss

theorem perm_languages (ss : List Summary) (key : SortKey) :
    (ofSummaries ss key).languages.Perm (LanguageTotals.group (ofSummaries ss key).files.toList) := by
  rw [languages_eq]
  exact Rank.perm_sort key.rank _

theorem files_eq_of_perm (h : ss'.Perm ss) (hnames : (ss.map Summary.name).Nodup) :
    Collection.ofList ss' = Collection.ofList ss := by
  have hsort : Rank.sort Summary.rank ss' = Rank.sort Summary.rank ss := (Rank.sort_eq_of_perm h.symm hnames).symm
  exact congrArg (fun l => Collection.mk l.toArray) hsort

theorem ascending_files (hnames : (ss.map Summary.name).Nodup) (key : SortKey) :
    (ofSummaries ss key).files.toList.Pairwise fun a b => a.rank.Before b.rank := by
  rw [files_eq]
  exact Rank.ascending_sort hnames

/-- A report does not tell in which order its files came. -/
theorem ofSummaries_eq_of_perm (h : ss'.Perm ss) (hnames : (ss.map Summary.name).Nodup) (key : SortKey) :
    ofSummaries ss' key = ofSummaries ss key := by
  unfold ofSummaries
  rw [files_eq_of_perm h hnames]

/-! ## Rows -/

theorem nodup_languages (ss : List Summary) (key : SortKey) :
    ((ofSummaries ss key).languages.map LanguageTotals.language).Nodup := by
  have hgroup := LanguageTotals.ascending_group (ofSummaries ss key).files.toList
  refine ((perm_languages ss key).map _).nodup_iff.2 (List.pairwise_map.2 (hgroup.imp fun hab => ?_))
  exact ne_of_lt hab

theorem ascending_languages (ss : List Summary) (key : SortKey) :
    (ofSummaries ss key).languages.Pairwise fun a b => (key.rank a).Before (key.rank b) := by
  have hnodup := ((perm_languages ss key).map _).nodup_iff.1 (nodup_languages ss key)
  rw [languages_eq]
  exact Rank.ascending_sort hnodup

theorem mem_languages {key : SortKey} :
    language ∈ (ofSummaries ss key).languages.map LanguageTotals.language ↔
      ∃ s ∈ ss, s.language = language := by
  rw [((perm_languages ss key).map _).mem_iff, LanguageTotals.mem_languages_group]
  simp only [(perm_files ss key).mem_iff]

theorem totals_of_mem_languages {key : SortKey} (h : row ∈ (ofSummaries ss key).languages) :
    row.totals = .ofSummaries (ss.filter (·.language == row.language)) := by
  rw [LanguageTotals.totals_of_mem_group ((perm_languages ss key).mem_iff.1 h)]
  exact Totals.ofSummaries_eq_of_perm ((perm_files ss key).filter _)

theorem totals_eq (ss : List Summary) (key : SortKey) : (ofSummaries ss key).totals = .ofSummaries ss :=
  Totals.ofSummaries_eq_of_perm (perm_files ss key)

theorem ofLanguages_languages (ss : List Summary) (key : SortKey) :
    Totals.ofLanguages (ofSummaries ss key).languages = (ofSummaries ss key).totals := by
  rw [Totals.ofLanguages_eq_of_perm (perm_languages ss key), LanguageTotals.ofLanguages_group]
  rfl

/-- **A report depends on what was measured, not on the order, and its parts agree.** Whatever order
summaries of different names come back in, a run builds one report. Its files are these summaries, those
with more code first and those with as much by name; its rows are of different languages, those that
occur, the greater number of the key first and equal ones by language. Each row holds the sums over the
files of its language, and each column of the rows adds up to the total over all files, where sums stay
at the limit of counters. -/
theorem run_canonical (hnames : (ss.map Summary.name).Nodup) (key : SortKey) : ∃ report : Report,
    (∀ ss', ss'.Perm ss → ∀ roots es measure, measure es = .ok ss' →
      run roots key (.ok es) measure = .ok report) ∧
    report.files.toList.Perm ss ∧
    (report.files.toList.Pairwise fun a b =>
      b.code.value < a.code.value ∨ a.code.value = b.code.value ∧ a.name < b.name) ∧
    (report.languages.map LanguageTotals.language).Nodup ∧
    (∀ language, language ∈ report.languages.map LanguageTotals.language ↔
      ∃ s ∈ ss, s.language = language) ∧
    (report.languages.Pairwise fun a b =>
      key.number b < key.number a ∨ key.number a = key.number b ∧ a.language < b.language) ∧
    (∀ row ∈ report.languages, row.totals = .ofSummaries (ss.filter (·.language == row.language))) ∧
    Totals.ofLanguages report.languages = report.totals ∧ report.totals = .ofSummaries ss := by
  refine ⟨ofSummaries ss key, ?_, perm_files ss key, ascending_files hnames key, nodup_languages ss key,
    fun _ => mem_languages, ascending_languages ss key, fun _ => totals_of_mem_languages,
    ofLanguages_languages ss key, totals_eq ss key⟩
  intro ss' hperm roots es measure hmeasure
  rw [run, hmeasure]
  exact congrArg Except.ok (ofSummaries_eq_of_perm hperm hnames key)

/-- Files of two languages, one of them with as many lines as can be counted and one that could not be read. -/
def manyLines : List Summary :=
  [{ name := "b.c", language := "C", code := .ofNat 1, comments := .ofNat 2 }, .unreadable "d.c" "C",
    { name := "a.c", language := "C", code := .ofNat Count.limit },
    { name := "c.py", language := "Python", code := .ofNat 1 }]

theorem run_canonical_manyLines :
    (manyLines.map Summary.name).Nodup ∧ manyLines.reverse.Perm manyLines ∧ ∃ report : Report,
      run 1 .files (.ok []) (fun _ => .ok manyLines) = .ok report ∧
      run 2 .files (.ok [default]) (fun _ => .ok manyLines.reverse) = .ok report ∧
      (report.languages.Pairwise fun a b =>
        b.files.value < a.files.value ∨ a.files.value = b.files.value ∧ a.language < b.language) ∧
      Totals.ofLanguages report.languages = report.totals ∧
      report.totals = ⟨.ofNat 4, 0, .ofNat 2, .ofNat Count.limit⟩ := by
  have hnames : (manyLines.map Summary.name).Nodup := by decide
  obtain ⟨report, hrun, -, -, -, -, hrows, -, hsum, htotals⟩ := run_canonical hnames .files
  have hperm : manyLines.reverse.Perm manyLines := List.reverse_perm _
  exact ⟨hnames, hperm, report, hrun manyLines (.refl _) 1 _ _ rfl, hrun _ hperm 2 _ _ rfl, hrows, hsum,
    htotals.trans (by decide)⟩

end LineCensus.Report
