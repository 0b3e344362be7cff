import Mathlib.Data.List.Forall2
import OnlineLearning.Compare.Table
import OnlineLearning.Proofs.Binary.Monotone
import OnlineLearning.Proofs.FileTree.Listing

/-!
# Rows of a comparison

Each directory below the base directory that holds a summary has one row, and the rows stand in the order of the
names (`Runs`). Every row names an algorithm. A delta is the difference to the accuracy of the first perceptron, and
there are none if that is not known (`rows_of_collect`). A row whose own accuracy is not known has a delta
nevertheless: its accuracy counts as zero there (`delta_without_accuracy`).
-/

namespace OnlineLearning

namespace Text

theorem toNat_toUpper {letter : Char} (h : letter.isLower = true) :
    97 ≤ letter.toNat ∧ letter.toNat ≤ 122 ∧ letter.toUpper.toNat = letter.toNat - 32 := by
  unfold Char.isLower at h
  obtain ⟨hlow, hhigh⟩ : 'a'.val ≤ letter.val ∧ letter.val ≤ 'z'.val := by simpa using h
  have hshift : ('A'.val - 'a'.val).toNat = 4294967264 := by decide
  have hlow' : 97 ≤ letter.toNat := UInt32.le_iff_toNat_le.mp hlow
  have hhigh' : letter.toNat ≤ 122 := UInt32.le_iff_toNat_le.mp hhigh
  refine ⟨hlow', hhigh', ?_⟩
  unfold Char.toUpper
  rw [dif_pos ⟨hlow, hhigh⟩, Char.toNat, UInt32.toNat_add, hshift]
  rw [Char.toNat] at *
  omega

theorem toNat_toLower (c : Char) :
    c.toLower.toNat = if 65 ≤ c.toNat ∧ c.toNat ≤ 90 then c.toNat + 32 else c.toNat := by
  have hshift : ('a'.val - 'A'.val).toNat = 32 := by decide
  have hlarge : c.val ≥ 'A'.val ∧ c.val ≤ 'Z'.val ↔ 65 ≤ c.toNat ∧ c.toNat ≤ 90 :=
    and_congr UInt32.le_iff_toNat_le UInt32.le_iff_toNat_le
  unfold Char.toLower
  by_cases h : 65 ≤ c.toNat ∧ c.toNat ≤ 90
  · rw [if_pos h, dif_pos (hlarge.mpr h), Char.toNat, UInt32.toNat_add, hshift]
    rw [Char.toNat] at *
    omega
  · rw [if_neg h, dif_neg (mt hlarge.mp h)]

theorem toLower_eq_iff {c letter : Char} (h : letter.isLower = true) :
    c.toLower = letter ↔ c = letter ∨ c = letter.toUpper := by
  obtain ⟨hlow, hhigh, hupper⟩ := toNat_toUpper h
  rw [← Char.toNat_inj, ← Char.toNat_inj, ← Char.toNat_inj, hupper, toNat_toLower]
  split <;> omega

theorem lowerLatin_eq_iff {cs word : List Char} (h : ∀ letter ∈ word, letter.isLower = true) :
    lowerLatin cs = word ↔ List.Forall₂ (fun c letter => c = letter ∨ c = letter.toUpper) cs word := by
  induction cs generalizing word with
  | nil => cases word <;> simp [lowerLatin]
  | cons c cs ih =>
    cases word with
    | nil => simp [lowerLatin]
    | cons letter word =>
      obtain ⟨hletter, hword⟩ := List.forall_mem_cons.mp h
      rw [List.forall₂_cons, ← toLower_eq_iff hletter, ← ih hword]
      exact List.cons_eq_cons

end Text

namespace Compare
variable {files : FileTree} {base : String} {place names : List String} {rs : List Record} {rows : List Row} {b : Double}

/-- A perceptron by its name, in letters of any case. -/
def Record.IsPerceptron (r : Record) : Prop :=
  ∃ name, r.algorithm = some name ∧
    List.Forall₂ (fun c letter => c = letter ∨ c = letter.toUpper) name.toList "perceptron".toList

/-- The record of a summary in the directory of a name. -/
def Record.named (r : Record) (name : String) : Record :=
  if r.algorithm.getD "" = "" then { r with algorithm := some name } else r

def summaryBelow (base name : String) : String := Path.join (Path.join base name) "summary.txt"

/-- The names of directories whose summaries can be read. -/
def withSummary (files : FileTree) (base : String) (names : List String) : List String :=
  names.filter fun name => (files.text? (summaryBelow base name)).isSome

/-- A directory of the name holds a summary, at a path that is not too long. -/
def HoldsSummary (files : FileTree) (base : String) (place : List String) (name : String) : Prop :=
  (summaryBelow base name).utf8ByteSize ≤ FileTree.pathLimit ∧ files.node? (place ++ [name]) = some .directory ∧
    ∃ text, files.node? (place ++ [name, "summary.txt"]) = some (.file text)

/-- The row holds what is read from the summary in the directory of the name. -/
def IsRowOf (files : FileTree) (place : List String) (name : String) (row : Row) : Prop :=
  ∃ text read, files.node? (place ++ [name, "summary.txt"]) = some (.file text) ∧ Record.ofText text = .ok read ∧
    row.record = read.named name

/-- One row for each directory with a summary, in the order of the names. -/
structure Runs (files : FileTree) (base : String) (place names : List String) (rows : List Row) : Prop where
  sorted : names.Pairwise (· < ·)
  mem_iff : ∀ name, name ∈ names ↔ HoldsSummary files base place name
  rows : List.Forall₂ (IsRowOf files place) names rows

/-- The row that the others are set against. -/
def IsFirstPerceptron (rows : List Row) (row : Row) : Prop :=
  row.record.IsPerceptron ∧
    ∃ before after, rows = before ++ row :: after ∧ ∀ other ∈ before, ¬other.record.IsPerceptron

/-! ### Names of algorithms -/

theorem isBaseline_iff {r : Record} : isBaseline r = true ↔ r.IsPerceptron := by
  have hlower : "perceptron".toList.all Char.isLower = true := by decide
  unfold isBaseline Record.IsPerceptron
  rw [decide_eq_true_eq, Text.lowerLatin_eq_iff (List.all_eq_true.mp hlower)]
  cases r.algorithm with
  | none => simp
  | some name => simp

theorem exists_algorithm_named (r : Record) {name : String} (hname : name ≠ "") :
    ∃ algorithm, (r.named name).algorithm = some algorithm ∧ algorithm ≠ "" := by
  unfold Record.named
  split
  · exact ⟨name, rfl, hname⟩
  · rename_i hne
    cases halgorithm : r.algorithm with
    | none => exact absurd (by rw [halgorithm]; rfl) hne
    | some algorithm => exact ⟨algorithm, rfl, fun h => hne (by rw [halgorithm, h]; rfl)⟩

/-! ### Records -/

theorem forall_mem_of_forall₂ {α β : Type} {R : α → β → Prop} {p : β → Prop} {xs : List α} {ys : List β}
    (h : List.Forall₂ R xs ys) (hp : ∀ x y, R x y → p y) : ∀ y ∈ ys, p y := by
  induction h with
  | nil => exact List.forall_mem_nil p
  | cons hxy _ ih => exact List.forall_mem_cons.mpr ⟨hp _ _ hxy, ih⟩

theorem records_cons (files : FileTree) (base name : String) (names : List String) :
    records files base (name :: names) =
      match files.text? (summaryBelow base name) with
      | none => records files base names
      | some text => do
        let read ← Record.ofText text
        return read.named name :: (← records files base names) := by
  rfl

theorem forall₂_records (h : records files base names = .ok rs) :
    List.Forall₂ (fun name r => ∃ text read, files.text? (summaryBelow base name) = some text ∧
        Record.ofText text = .ok read ∧ r = read.named name)
      (withSummary files base names) rs := by
  induction names generalizing rs with
  | nil =>
    cases h
    exact .nil
  | cons name names ih =>
    rw [records_cons] at h
    cases htext : files.text? (summaryBelow base name) with
    | none =>
      rw [htext] at h
      rw [withSummary, List.filter_cons, htext, Option.isSome_none, if_neg Bool.false_ne_true]
      exact ih h
    | some text =>
      rw [htext] at h
      obtain ⟨read, hread, h⟩ := exists_of_bind_eq_ok h
      obtain ⟨rest, hrest, h⟩ := exists_of_bind_eq_ok h
      cases h
      rw [withSummary, List.filter_cons, htext, Option.isSome_some, if_pos rfl]
      exact .cons ⟨text, read, htext, hread, rfl⟩ (ih hrest)

theorem collect_eq_ok_iff : collect files base = .ok rows ↔ ∃ listed rs, files.list base = .ok listed ∧
    records files base listed = .ok rs ∧ withDeltas rs = rows := by
  unfold collect
  cases files.list base with
  | error e => simp [bind, Except.bind]
  | ok listed =>
    cases hrecords : records files base listed with
    | error e => simp [bind, Except.bind, hrecords]
    | ok rs => simp [bind, Except.bind, pure, Except.pure, hrecords]

/-! ### Deltas -/

theorem find?_records (rs : List Record) :
    (withDeltas rs).find? (fun row => isBaseline row.record) =
      (rs.find? isBaseline).map fun r => ⟨r, (baseline? rs).map fun b => comparedAccuracy r - b⟩ := by
  rw [withDeltas, List.find?_map]
  rfl

theorem isFirstPerceptron_iff {row : Row} :
    IsFirstPerceptron rows row ↔ rows.find? (fun row => isBaseline row.record) = some row := by
  simp only [List.find?_eq_some_iff_append, isBaseline_iff, Bool.not_eq_true', ← Bool.not_eq_true]
  rfl

theorem baseline?_eq_some_iff : baseline? rs = some b ↔
    ∃ first, IsFirstPerceptron (withDeltas rs) first ∧ first.record.accuracy = some b := by
  simp only [isFirstPerceptron_iff, find?_records, baseline?, Option.bind_eq_some_iff, Option.map_eq_some_iff]
  constructor
  · rintro ⟨r, hr, hb⟩
    exact ⟨_, ⟨r, hr, rfl⟩, hb⟩
  · rintro ⟨_, ⟨r, hr, rfl⟩, hb⟩
    exact ⟨r, hr, hb⟩

/-- What a row is compared with is its accuracy, but for the sign of a zero. -/
theorem comparedAccuracy_sub (r : Record) (b : Double) : comparedAccuracy r - b = r.accuracy.getD 0 - b ∨
    (comparedAccuracy r - b).same (r.accuracy.getD 0 - b) = true := by
  unfold comparedAccuracy
  cases r.accuracy with
  | none => exact .inl rfl
  | some x =>
    dsimp only [Option.getD_some]
    split
    · rename_i hzero
      by_cases hb : b = .nan
      · left
        rw [hb]
        exact (Number.add_nan _).trans (Number.add_nan _).symm
      · right
        rw [Number.same_comm] at hzero
        exact Number.same_sub_sub hzero rfl (Number.isFinite_of_same_zero (Number.same_comm _ _ ▸ hzero)) hb
    · exact .inl rfl

/-- The delta of a row is what it is compared with less a known accuracy of the first perceptron. -/
theorem delta_of_mem {row : Row} (h : row ∈ withDeltas rs) :
    row.delta = (baseline? rs).map fun b => comparedAccuracy row.record - b := by
  obtain ⟨r, -, rfl⟩ := List.mem_map.mp h
  rfl

theorem delta_eq_none (h : ∀ first, IsFirstPerceptron (withDeltas rs) first → first.record.accuracy = none) {row : Row}
    (hrow : row ∈ withDeltas rs) : row.delta = none := by
  have hnone : baseline? rs = none := by
    refine Option.eq_none_iff_forall_ne_some.mpr fun b hb => ?_
    obtain ⟨first, hfirst, hb⟩ := baseline?_eq_some_iff.mp hb
    rw [h first hfirst] at hb
    cases hb
  rw [delta_of_mem hrow, hnone, Option.map_none]

section
variable {first : Row} (hfirst : IsFirstPerceptron (withDeltas rs) first) (hb : first.record.accuracy = some b)
include hfirst hb

theorem exists_delta {row : Row} (hrow : row ∈ withDeltas rs) : ∃ d, row.delta = some d ∧
    (d = row.record.accuracy.getD 0 - b ∨ d.same (row.record.accuracy.getD 0 - b) = true) :=
  ⟨_, by rw [delta_of_mem hrow, baseline?_eq_some_iff.mpr ⟨first, hfirst, hb⟩, Option.map_some],
    comparedAccuracy_sub row.record b⟩

/-- The first perceptron is level with itself. -/
theorem exists_delta_same_zero (hfinite : b.isFinite = true) : ∃ d, first.delta = some d ∧ d.same 0 = true := by
  obtain ⟨-, before, after, hrows, -⟩ := id hfirst
  have hmem : first ∈ withDeltas rs := by simp [hrows]
  obtain ⟨d, hd, hsame⟩ := exists_delta hfirst hb hmem
  rw [hb, Option.getD_some] at hsame
  have hzero : (b - b).same 0 = true := Number.sub_self_same_zero hfinite
  refine ⟨d, hd, ?_⟩
  rcases hsame with rfl | hsame
  · exact hzero
  · exact Number.same_trans hsame hzero

end

/-! ### The rows of a base directory -/

theorem isName_summary : Path.IsName "summary.txt" := by decide

theorem text?_summaryBelow_iff {name text : String} (hplace : files.locate base = .ok place)
    (hdirectory : files.node? place = some .directory) (hname : Path.IsName name) :
    files.text? (summaryBelow base name) = some text ↔
      (summaryBelow base name).utf8ByteSize ≤ FileTree.pathLimit ∧ files.node? (place ++ [name]) = some .directory ∧
        files.node? (place ++ [name, "summary.txt"]) = some (.file text) := by
  rw [summaryBelow, FileTree.text?_join_join_iff hplace hname isName_summary, and_iff_right hdirectory]

section
variable {listed : List String} (hfiles : files.IsProper) (hlist : files.list base = .ok listed)
include hfiles hlist

theorem isName_of_mem_withSummary : ∀ name ∈ withSummary files base listed, Path.IsName name :=
  fun _ hmem => FileTree.isName_of_mem_list hfiles hlist (List.mem_filter.mp hmem).1

theorem mem_withSummary_iff {name : String} (hplace : files.locate base = .ok place)
    (hdirectory : files.node? place = some .directory) :
    name ∈ withSummary files base listed ↔ HoldsSummary files base place name := by
  rw [withSummary, List.mem_filter, Option.isSome_iff_exists]
  constructor
  · rintro ⟨hlisted, text, hread⟩
    have hname := FileTree.isName_of_mem_list hfiles hlist hlisted
    obtain ⟨hsize, hbelow, hfile⟩ := (text?_summaryBelow_iff hplace hdirectory hname).mp hread
    exact ⟨hsize, hbelow, text, hfile⟩
  · rintro ⟨hsize, hbelow, text, hfile⟩
    have hlisted : name ∈ listed := (FileTree.mem_list_iff hlist hplace).mpr (by rw [hbelow]; rfl)
    have hname := FileTree.isName_of_mem_list hfiles hlist hlisted
    exact ⟨hlisted, text, (text?_summaryBelow_iff hplace hdirectory hname).mpr ⟨hsize, hbelow, hfile⟩⟩

theorem exists_runs (hrecords : records files base listed = .ok rs) :
    ∃ place names, files.locate base = .ok place ∧ Runs files base place names (withDeltas rs) := by
  obtain ⟨place, hplace, hdirectory, -⟩ := FileTree.list_eq_ok_iff.mp hlist
  have hname := isName_of_mem_withSummary hfiles hlist
  refine ⟨place, withSummary files base listed, hplace, (FileTree.pairwise_list hfiles hlist).filter _,
    fun name => mem_withSummary_iff hfiles hlist hplace hdirectory, List.forall₂_map_right_iff.mpr ?_⟩
  refine ((List.forall₂_and_left _ rs).mpr ⟨hname, forall₂_records hrecords⟩).imp ?_
  rintro name _ ⟨hname, text, read, htext, hread, rfl⟩
  exact ⟨text, read, ((text?_summaryBelow_iff hplace hdirectory hname).mp htext).2.2, hread, rfl⟩

theorem exists_algorithm (hrecords : records files base listed = .ok rs) :
    ∀ r ∈ rs, ∃ algorithm, r.algorithm = some algorithm ∧ algorithm ≠ "" := by
  have hname := isName_of_mem_withSummary hfiles hlist
  refine forall_mem_of_forall₂ ((List.forall₂_and_left _ rs).mpr ⟨hname, forall₂_records hrecords⟩) ?_
  rintro name _ ⟨hname, text, read, -, -, rfl⟩
  exact exists_algorithm_named read hname.ne_empty

end

/-- The directories with a summary have one row each, in the order of their names, and every row names an
algorithm. A delta is the accuracy of its row, which counts as zero if it is not known, less that of the first
perceptron. There is none if that is not known. -/
theorem rows_of_collect (hfiles : files.IsProper) (h : collect files base = .ok rows) :
    (∃ place names, files.locate base = .ok place ∧ Runs files base place names rows) ∧
    (∀ row ∈ rows, ∃ algorithm, row.record.algorithm = some algorithm ∧ algorithm ≠ "") ∧
    (∀ first b, IsFirstPerceptron rows first → first.record.accuracy = some b →
      (∀ row ∈ rows, ∃ d, row.delta = some d ∧
        (d = row.record.accuracy.getD 0 - b ∨ d.same (row.record.accuracy.getD 0 - b) = true)) ∧
      (b.isFinite = true → ∃ d, first.delta = some d ∧ d.same 0 = true)) ∧
    ((∀ first, IsFirstPerceptron rows first → first.record.accuracy = none) → ∀ row ∈ rows, row.delta = none) := by
  obtain ⟨listed, rs, hlist, hrecords, rfl⟩ := collect_eq_ok_iff.mp h
  refine ⟨exists_runs hfiles hlist hrecords, fun row hrow => ?_, fun first b hfirst hb => ⟨?_, ?_⟩,
    fun hunknown row hrow => ?_⟩
  · obtain ⟨r, hr, rfl⟩ := List.mem_map.mp hrow
    exact exists_algorithm hfiles hlist hrecords r hr
  · exact fun row hrow => exists_delta hfirst hb hrow
  · exact fun hfinite => exists_delta_same_zero hfirst hb hfinite
  · exact delta_eq_none hunknown hrow

/-- A tree with summaries below a base directory, and with other things there. -/
def treeOf (summaries : List (String × String)) : FileTree where
  nodes := [(["work"], .directory), (["work", "results"], .directory),
      (["work", "results", "notes.txt"], .file "summary.txt"), (["work", "results", "empty"], .directory)] ++
    summaries.flatMap fun (name, text) =>
      [(["work", "results", name], .directory), (["work", "results", name, "summary.txt"], .file text)]
  start := ["work"]

/-- Two perceptrons, the first of them by the name of its directory alone, and one run without an accuracy. -/
def fourSummaries : List (String × String) :=
  [("second", "Algorithm: PERCEPTRON\nAccuracy: 75.00%\n"), ("cw", "Algorithm: cw\n"),
    ("perceptron", "Accuracy: 50.00%\n"), ("old", "Algorithm: cw\nAccuracy: 12.50%\n")]

/-- The row of the first perceptron among four summaries. -/
def perceptronRow : Row := ⟨{ algorithm := some "perceptron", accuracy := some 50 }, some 0⟩

def fourRows : List Row :=
  [⟨{ algorithm := some "cw" }, some (-50)⟩, ⟨{ algorithm := some "cw", accuracy := some (25 / 2) }, some (-75 / 2)⟩,
    perceptronRow, ⟨{ algorithm := some "PERCEPTRON", accuracy := some 75 }, some 25⟩]

theorem eq_ok_of_toOption {α : Type} {x : Except Fault α} {a : α} (h : x.toOption = some a) : x = .ok a := by
  cases x with
  | error e => cases h
  | ok b => rw [Option.some.inj h]

theorem collect_fourSummaries : collect (treeOf fourSummaries) "results" = .ok fourRows := by
  have hplace : (treeOf fourSummaries).locate "results" = .ok ["work", "results"] := rfl
  have hlist : (treeOf fourSummaries).list "results" =
      .ok ["cw", "empty", "notes.txt", "old", "perceptron", "second"] :=
    FileTree.list_of_perm hplace rfl (by decide) (by decide)
  have hrecords : (records (treeOf fourSummaries) "results"
      ["cw", "empty", "notes.txt", "old", "perceptron", "second"]).toOption = some (fourRows.map Row.record) := by
    decide +kernel
  have hdeltas : withDeltas (fourRows.map Row.record) = fourRows := by decide +kernel
  exact collect_eq_ok_iff.mpr ⟨_, _, hlist, eq_ok_of_toOption hrecords, hdeltas⟩

theorem isProper_fourSummaries : (treeOf fourSummaries).IsProper := by decide

theorem isFirstPerceptron_fourRows : IsFirstPerceptron fourRows perceptronRow :=
  isFirstPerceptron_iff.mpr (by decide +kernel)

theorem rows_of_collect_fourSummaries :
    (treeOf fourSummaries).IsProper ∧ collect (treeOf fourSummaries) "results" = .ok fourRows ∧
      IsFirstPerceptron fourRows perceptronRow ∧
      (∃ place names, (treeOf fourSummaries).locate "results" = .ok place ∧
        Runs (treeOf fourSummaries) "results" place names fourRows) ∧
      (∀ row ∈ fourRows, ∃ d, row.delta = some d ∧
        (d = row.record.accuracy.getD 0 - 50 ∨ d.same (row.record.accuracy.getD 0 - 50) = true)) ∧
      ∃ d, perceptronRow.delta = some d ∧ d.same 0 = true := by
  obtain ⟨hruns, -, hdeltas, -⟩ := rows_of_collect isProper_fourSummaries collect_fourSummaries
  obtain ⟨hall, hlevel⟩ := hdeltas perceptronRow 50 isFirstPerceptron_fourRows rfl
  exact ⟨isProper_fourSummaries, collect_fourSummaries, isFirstPerceptron_fourRows, hruns, hall, hlevel (by decide +kernel)⟩

/-- A run without an accuracy is not without a delta. -/
theorem delta_without_accuracy : (treeOf fourSummaries).IsProper ∧
    ∃ rows row first, collect (treeOf fourSummaries) "results" = .ok rows ∧ row ∈ rows ∧ IsFirstPerceptron rows first ∧
      first.record.accuracy = some 50 ∧ row.record.accuracy = none ∧ row.delta = some (-50) :=
  ⟨isProper_fourSummaries, fourRows, ⟨{ algorithm := some "cw" }, some (-50)⟩, perceptronRow, collect_fourSummaries,
    List.mem_cons_self .., isFirstPerceptron_fourRows, rfl, rfl, rfl⟩

end Compare

end OnlineLearning
