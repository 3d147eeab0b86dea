/-
# Tozalist.Api.DataExport -- the second CSV writer

`toCsvLine` and `neutralizeFormula` of `apps/api/src/internal/data-export.ts`, which write
the tables of an organisation.  Cells may be numbers, flags or null there, and only texts
are neutralized.

On texts it writes the lines of the batch processor (`toCsvLine_text`), so both are read
back alike.
-/
import Tozalist.Worker.ResultFile

namespace Tozalist.Api

set_option autoImplicit false

/-- `string | number | boolean | null`; the numbers of the export are whole. -/
inductive ExportCell where
  | text (text : JsString)
  | number (n : Int)
  | flag (b : Bool)
  | null
  deriving DecidableEq, Repr

/-- `neutralizeFormula`. -/
def neutralizeFormula (text : JsString) : JsString :=
  match text with
  | [] => []
  | u :: rest =>
      if u ∈ Js.ofString "=+-@\t\r" then 0x27 :: u :: rest else u :: rest

/-- The text of a cell, before it is quoted. -/
def ExportCell.render : ExportCell → JsString
  | .text s => neutralizeFormula s
  | .number n => Js.ofString (toString n)
  | .flag b => Js.ofString (toString b)
  | .null => []

/-- One cell of `toCsvLine`. -/
def exportCell (cell : ExportCell) : JsString :=
  let text := cell.render
  if ∃ u ∈ text, u ∈ Js.ofString "\",\n\r" then
    0x22 :: text.flatMap (fun u => if u = 0x22 then [0x22, 0x22] else [u]) ++ [0x22]
  else text

/-- `toCsvLine`. -/
def toCsvLine (cells : List ExportCell) : JsString :=
  Js.join (cells.map exportCell) 0x2C ++ [0x0A]

/-- A table: its header line, and a line for each row of its pages. -/
def exportFile (header : List String) (rows : List (List ExportCell)) : JsString :=
  toCsvLine (header.map fun name => .text (Js.ofString name)) ++ rows.flatMap toCsvLine

/-- **On texts**, both writers write the same line. -/
theorem toCsvLine_text (cells : List JsString) :
    toCsvLine (cells.map .text) = Worker.toCsvLine cells := by
  have same : (cells.map ExportCell.text).map exportCell = cells.map Worker.csvCell := by
    rw [List.map_map]
    exact List.map_congr_left fun _ _ => rfl
  rw [toCsvLine, same, Worker.toCsvLine]

theorem toCsvLine_eq (cells : List ExportCell) :
    toCsvLine cells = Worker.rfc4180.line (cells.map ExportCell.render) := by
  have quoted : cells.map exportCell =
      (cells.map ExportCell.render).map Worker.rfc4180.cell := by
    rw [List.map_map]
    exact List.map_congr_left fun cell _ => Worker.quoted_eq cell.render
  rw [toCsvLine, Js.join, quoted]
  rfl

/-- **A table of the export** is read back: its header, then the texts of its rows. -/
theorem parse_exportFile {header : List String} (named : header ≠ [])
    {rows : List (List ExportCell)} (some_ : ∀ cells ∈ rows, cells ≠ []) :
    Worker.rfc4180.parse (exportFile header rows) =
      some ((header.map fun name => neutralizeFormula (Js.ofString name)) ::
        rows.map fun cells => cells.map ExportCell.render) := by
  have first : toCsvLine (header.map fun name => .text (Js.ofString name)) =
      Worker.rfc4180.line (header.map fun name => neutralizeFormula (Js.ofString name)) := by
    rw [toCsvLine_eq, List.map_map]
    rfl
  have rest : rows.flatMap toCsvLine =
      (rows.map fun cells => cells.map ExportCell.render).flatMap Worker.rfc4180.line := by
    rw [List.flatMap_map]
    exact congrArg (rows.flatMap ·) (funext toCsvLine_eq)
  rw [exportFile, first, rest, ← List.flatMap_cons]
  refine Worker.rfc4180.parse_lines (List.forall_mem_cons.2 ⟨?_, fun record member => ?_⟩)
  · exact fun empty => named (List.map_eq_nil_iff.1 empty)
  · obtain ⟨cells, listed, rfl⟩ := List.mem_map.1 member
    exact fun empty => some_ cells listed (List.map_eq_nil_iff.1 empty)

/-- **CSV output** is read back as the neutralized cells, none of which starts a formula. -/
theorem csv_faithful (cells : List JsString) (several : 2 ≤ cells.length) :
    Worker.rfc4180.parse (Worker.toCsvLine cells) =
        some [cells.map Worker.neutralizeFormula] ∧
      (∀ records, Worker.rfc4180.parse (Worker.toCsvLine cells) = some records →
        ∀ record ∈ records, ∀ field ∈ record, ¬ Worker.StartsFormula field) ∧
      (∀ cell, Worker.neutralizeFormula (Worker.neutralizeFormula cell) =
        Worker.neutralizeFormula cell) ∧
      ∀ texts : List JsString, toCsvLine (texts.map .text) = Worker.toCsvLine texts := by
  have some_ : cells ≠ [] := by
    rintro rfl
    exact absurd several (by decide)
  have parsed := Worker.parse_toCsvLines (List.forall_mem_singleton.2 some_)
  rw [List.flatMap_singleton, List.map_singleton] at parsed
  refine ⟨parsed, ?_, Worker.neutralizeFormula_idem, toCsvLine_text⟩
  intro records found record member field inside
  obtain rfl := Option.some.inj (found.symm.trans parsed)
  obtain rfl := List.mem_singleton.1 member
  obtain ⟨cell, -, rfl⟩ := List.mem_map.1 inside
  exact Worker.not_startsFormula_neutralizeFormula cell

/-- Formulas, quotes and line ends in one record. -/
theorem csv_faithful_formulas :
    Worker.rfc4180.parse
        (Worker.toCsvLine (["=1+1", "a\"b,c", "\r\n", ""].map Js.ofString)) =
      some [["'=1+1", "a\"b,c", "'\r\n", ""].map Js.ofString] :=
  (csv_faithful (["=1+1", "a\"b,c", "\r\n", ""].map Js.ofString) (by decide)).1.trans (by decide)

end Tozalist.Api
