/-
# Tozalist.Worker.Columns -- the result columns and their header

A header line is the first record with five names behind it, a data line a record with five
cells behind it.  The parser is relaxed about the number of cells, so a record may be
shorter or longer than the header, and its five cells then stand in other columns.

* `ColumnsLineUp` -- what a reader of the file finds below the five names;
* `columns_line_up_iff` -- the cells of the row, exactly when no record is ragged.
-/
import Mathlib.Data.List.Forall2
import Tozalist.Worker.RowOrder

namespace Tozalist.Worker

set_option autoImplicit false

open Db

variable {deps : BatchProcessorDeps} {job : ClaimedBatch} {db : Database}

/-- The names behind the header. -/
def resultColumns : List JsString :=
  ["normalized_email", "verdict", "score", "reason_codes", "suggestion"].map Js.ofString

/-- The cells behind the record of a row. -/
def WrittenRow.resultCells (row : WrittenRow) : List JsString :=
  [row.normalized, Js.ofString (verdictText row.result.verdict), Js.ofNat row.result.score,
    Js.join row.result.reasonCodes bar, row.result.suggestion]

/-- In the columns of the five names, and in no later one, every line has the five cells of
its row. -/
def ColumnsLineUp (job : ClaimedBatch) (header : Record) (rest : List Record) (p : Progress) :
    Prop :=
  ∃ names lines,
    rfc4180.parse (resultLines job (header :: rest) p).flatten = some (names :: lines) ∧
      names.drop header.length = resultColumns ∧
      List.Forall₂ (fun row line =>
        line.drop header.length = row.resultCells.map neutralizeFormula) p.rows lines

/-- No record is shorter or longer than the header. -/
def NoRagged (header : Record) (rest : List Record) : Prop :=
  ∀ record ∈ rest, record.length = header.length

/-- What stands behind `n` cells starts in column `n`. -/
theorem drop_eq_right_iff {α : Type} {before behind : List α} (some_ : behind ≠ []) (n : ℕ) :
    (before ++ behind).drop n = behind ↔ before.length = n := by
  constructor
  · intro same
    have lengths := congrArg List.length same
    have positive := List.length_pos_iff.2 some_
    rw [List.length_drop, List.length_append] at lengths
    omega
  · rintro rfl
    exact List.drop_left

/-- A reader gets the header with its names, and the rows with their cells. -/
theorem parse_resultLines (header : Record) (rest : List Record) (p : Progress)
    (hasHeader : job.layout.hasHeader = true) :
    rfc4180.parse (resultLines job (header :: rest) p).flatten =
      some ((header ++ resultColumns).map neutralizeFormula ::
        p.rows.map fun row => (row.cells ++ row.resultCells).map neutralizeFormula) := by
  have names : headerLine job.layout (header :: rest) = [header ++ resultColumns] := by
    rw [headerLine, if_pos hasHeader]
    rfl
  have text : (resultLines job (header :: rest) p).flatten =
      ((header ++ resultColumns) :: p.rows.map WrittenRow.line).flatMap toCsvLine := by
    rw [resultLines, names, List.singleton_append, List.flatMap_def]
  rw [text, parse_toCsvLines, List.map_cons, List.map_map]
  · rfl
  · refine List.forall_mem_cons.2 ⟨?_, fun line member => ?_⟩
    · exact List.append_ne_nil_of_right_ne_nil _ (List.cons_ne_nil _ _)
    · obtain ⟨row, -, rfl⟩ := List.mem_map.1 member
      exact List.append_ne_nil_of_right_ne_nil _ (List.cons_ne_nil _ _)

/-- The columns line up when every written row is as long as the header. -/
theorem columnsLineUp_iff_rows (header : Record) (rest : List Record) (p : Progress)
    (hasHeader : job.layout.hasHeader = true) :
    ColumnsLineUp job header rest p ↔ ∀ row ∈ p.rows, row.cells.length = header.length := by
  have below (row : WrittenRow) :
      ((row.cells ++ row.resultCells).map neutralizeFormula).drop header.length =
          row.resultCells.map neutralizeFormula ↔
        row.cells.length = header.length := by
    rw [List.map_append, drop_eq_right_iff (by simp [WrittenRow.resultCells]), List.length_map]
  have names : ((header ++ resultColumns).map neutralizeFormula).drop header.length =
      resultColumns := by
    rw [List.map_append, List.drop_append_of_le_length (by rw [List.length_map]),
      ← List.length_map neutralizeFormula, List.drop_length, List.nil_append]
    decide
  have lines : List.Forall₂ (fun (row : WrittenRow) (line : List JsString) =>
      line.drop header.length = row.resultCells.map neutralizeFormula) p.rows
        (p.rows.map fun row => (row.cells ++ row.resultCells).map neutralizeFormula) ↔
      ∀ row ∈ p.rows, row.cells.length = header.length := by
    rw [List.forall₂_map_right_iff, List.forall₂_same]
    exact forall₂_congr fun row _ => below row
  rw [ColumnsLineUp, parse_resultLines header rest p hasHeader]
  constructor
  · rintro ⟨_, _, found, -, under⟩
    obtain ⟨rfl, rfl⟩ := List.cons.inj (Option.some.inj found)
    exact lines.1 under
  · intro even
    exact ⟨_, _, rfl, names, lines.2 even⟩

/-- **The result columns** of a batch that completes line up with their header exactly when
no record of the file is shorter or longer than the header. -/
theorem columns_line_up_iff (deps : BatchProcessorDeps) (job : ClaimedBatch) (db : Database)
    (header : Record) (rest : List Record) (hasHeader : job.layout.hasHeader = true)
    (positive : 1 ≤ deps.chunkSize)
    (free : CollisionFree deps (addresses deps job (dataRows job.layout (header :: rest))))
    (completes : (processRecords deps job db (header :: rest)).failure = none) :
    ColumnsLineUp job header rest (processRecords deps job db (header :: rest)) ↔
      NoRagged header rest := by
  have data : dataRows job.layout (header :: rest) = rest := by
    rw [dataRows, if_pos hasHeader]
    rfl
  have finished := finished_of_failure_eq_none positive free completes
  have cells := finished.rows_perm.map (·.cells)
  rw [List.map_map, data] at cells
  have same : (rest.map (WrittenRow.cells ∘ writtenOf deps job db rest)) = rest := List.map_id rest
  rw [same] at cells
  rw [columnsLineUp_iff_rows header rest _ hasHeader, NoRagged]
  constructor
  · intro even record member
    obtain ⟨row, inside, rfl⟩ := List.mem_map.1 (cells.symm.subset member)
    exact even row inside
  · intro even row member
    exact even row.cells (cells.subset (List.mem_map_of_mem member))

/-- A header of two names over a record of one cell. -/
theorem short_record_shifts :
    Api.Uploaded (Api.inspectCsv sampleDeps.toLowerCase
        ([["email", "city"], ["bob@gmail.com"]].map fun cells => cells.map Js.ofString))
      { sampleBatch with totalRows := 1 } ∧
    resultLines sampleJob ([["email", "city"], ["bob@gmail.com"]].map fun cells =>
          cells.map Js.ofString)
        (processRecords sampleDeps sampleJob sampleDb
          ([["email", "city"], ["bob@gmail.com"]].map fun cells => cells.map Js.ofString)) =
      ["email,city,normalized_email,verdict,score,reason_codes,suggestion\n",
        "bob@gmail.com,bob@gmail.com,unknown,50,MX_LOOKUP_UNAVAILABLE,\n"].map Js.ofString ∧
    ¬ ColumnsLineUp sampleJob (["email", "city"].map Js.ofString)
        [["bob@gmail.com"].map Js.ofString]
        (processRecords sampleDeps sampleJob sampleDb
          ([["email", "city"], ["bob@gmail.com"]].map fun cells => cells.map Js.ofString)) := by
  refine ⟨⟨0, true, by decide +kernel, rfl⟩, by decide +kernel, ?_⟩
  intro even
  rw [columnsLineUp_iff_rows _ _ _ rfl] at even
  revert even
  decide +kernel

theorem columns_line_up_iff_sample :
    ColumnsLineUp sampleJob (["email"].map Js.ofString) sampleRecords.tail
        (processRecords sampleDeps sampleJob sampleDb sampleRecords) ↔
      NoRagged (["email"].map Js.ofString) sampleRecords.tail :=
  columns_line_up_iff sampleDeps sampleJob sampleDb (["email"].map Js.ofString) sampleRecords.tail
    rfl (by decide) (by decide +kernel) (by decide +kernel)

end Tozalist.Worker
