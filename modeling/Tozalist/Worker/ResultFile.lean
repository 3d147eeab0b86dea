/-
# Tozalist.Worker.ResultFile -- what a reader of result.csv finds

`toCsvLine` and `neutralizeFormula` of the batch processor, as a writer of RFC 4180
records: `toCsvLine` writes the record of the neutralized cells, so a reader gets these
back, and no cell it gets starts a formula.
-/
import Tozalist.Theory.Csv
import Tozalist.Worker.BatchProcessor

namespace Tozalist.Worker

set_option autoImplicit false

open Theory.Csv (Dialect)

/-- RFC 4180 over UTF-16 code units. -/
def rfc4180 : Dialect UInt16 where
  separator := 0x2C
  quote := 0x22
  carriageReturn := 0x0D
  lineFeed := 0x0A
  distinct := by decide

/-- A spreadsheet takes a cell that starts so for a formula. -/
def StartsFormula (cell : JsString) : Prop :=
  ∃ u ∈ cell.head?, u ∈ Js.ofString "=+-@\t\r"

instance (cell : JsString) : Decidable (StartsFormula cell) :=
  match cell with
  | [] => isFalse fun ⟨_, starts, _⟩ => by cases starts
  | u :: _ =>
      decidable_of_iff (u ∈ Js.ofString "=+-@\t\r")
        ⟨fun listed => ⟨u, rfl, listed⟩, fun ⟨_, starts, listed⟩ => Option.some.inj starts ▸ listed⟩

theorem neutralizeFormula_eq (cell : JsString) :
    neutralizeFormula cell = if StartsFormula cell then 0x27 :: cell else cell := by
  cases cell with
  | nil => exact (if_neg fun ⟨_, starts, _⟩ => by cases starts).symm
  | cons u rest =>
      have starts : StartsFormula (u :: rest) ↔ u ∈ Js.ofString "=+-@\t\r" :=
        ⟨fun ⟨_, starts, listed⟩ => Option.some.inj starts ▸ listed,
          fun listed => ⟨u, rfl, listed⟩⟩
      rw [neutralizeFormula]
      simp only [starts]

/-- A neutralized cell is no formula. -/
theorem not_startsFormula_neutralizeFormula (cell : JsString) :
    ¬ StartsFormula (neutralizeFormula cell) := by
  rw [neutralizeFormula_eq]
  split
  · rintro ⟨u, starts, listed⟩
    obtain rfl : 0x27 = u := Option.some.inj starts
    revert listed
    decide
  · assumption

theorem neutralizeFormula_idem (cell : JsString) :
    neutralizeFormula (neutralizeFormula cell) = neutralizeFormula cell := by
  rw [neutralizeFormula_eq (neutralizeFormula cell),
    if_neg (not_startsFormula_neutralizeFormula cell)]

/-- A neutralized cell is empty only if the cell is. -/
theorem neutralizeFormula_eq_nil {cell : JsString} : neutralizeFormula cell = [] ↔ cell = [] := by
  rw [neutralizeFormula_eq]
  split
  · rename_i starts
    apply iff_of_false (List.cons_ne_nil _ _)
    intro empty
    obtain ⟨u, head, -⟩ := starts
    rw [empty] at head
    cases head
  · exact Iff.rfl

/-! ## Lines -/

/-- The quoting of both writers. -/
theorem quoted_eq (text : JsString) :
    (if ∃ u ∈ text, u ∈ Js.ofString "\",\n\r" then
      0x22 :: text.flatMap (fun u => if u = 0x22 then [0x22, 0x22] else [u]) ++ [0x22]
    else text) = rfc4180.cell text := by
  have special (u : UInt16) : u ∈ Js.ofString "\",\n\r" ↔ rfc4180.Special u := by
    have units : Js.ofString "\",\n\r" = [0x22, 0x2C, 0x0A, 0x0D] := by decide
    simp only [units, List.mem_cons, List.not_mem_nil, or_false]
    rfl
  rw [Dialect.cell]
  simp only [special]
  rfl

theorem csvCell_eq (cell : JsString) : csvCell cell = rfc4180.cell (neutralizeFormula cell) :=
  quoted_eq (neutralizeFormula cell)

/-- **`toCsvLine`** writes the record of the neutralized cells. -/
theorem toCsvLine_eq (cells : List JsString) :
    toCsvLine cells = rfc4180.line (cells.map neutralizeFormula) := by
  have cells_ : cells.map csvCell = (cells.map neutralizeFormula).map rfc4180.cell := by
    rw [List.map_map]
    exact List.map_congr_left fun cell _ => csvCell_eq cell
  rw [toCsvLine, Js.join, cells_]
  rfl

/-- Lines of cells are read back. -/
theorem parse_toCsvLines {lines : List (List JsString)} (some_ : ∀ cells ∈ lines, cells ≠ []) :
    rfc4180.parse (lines.flatMap toCsvLine) =
      some (lines.map fun cells => cells.map neutralizeFormula) := by
  have written : lines.flatMap toCsvLine =
      (lines.map fun cells => cells.map neutralizeFormula).flatMap rfc4180.line := by
    rw [List.flatMap_map]
    exact congrArg (lines.flatMap ·) (funext toCsvLine_eq)
  rw [written, rfc4180.parse_lines]
  intro record member
  obtain ⟨cells, listed, rfl⟩ := List.mem_map.1 member
  exact fun empty => some_ cells listed (List.map_eq_nil_iff.1 empty)

end Tozalist.Worker
