/-
# Tozalist.Theory.Csv -- delimited records, written and read back

Records of fields over any alphabet, in the format of RFC 4180: fields end at a separator,
records at a line feed or at a carriage return and a line feed, and a field between quotes
may contain all of these, a quote being written twice.

* `Dialect.parse` reads a text one character at a time and refuses a quote inside a bare
  field, anything after a closing quote, and a quoted field that does not end;
* `Dialect.line` writes one record, quoting the fields that need it;
* `Dialect.parse_lines` -- what was written is read back, record by record.
-/
import Mathlib.Data.List.Basic

namespace Tozalist.Theory.Csv

set_option autoImplicit false

universe u

/-- The characters with a meaning. -/
structure Dialect (α : Type u) where
  separator : α
  quote : α
  carriageReturn : α
  lineFeed : α
  distinct : [separator, quote, carriageReturn, lineFeed].Nodup

/-- Where a reader stands. -/
inductive Phase where
  /-- at the start of a field -/
  | opening
  /-- in a bare field -/
  | bare
  /-- between quotes -/
  | quoted
  /-- after a quote that closes the field, or starts a pair -/
  | closing
  /-- after a carriage return -/
  | carriage
  deriving DecidableEq, Repr

/-- What a reader has: its phase, the field, the record and the records before. -/
structure Reader (α : Type u) where
  phase : Phase
  field : List α
  record : List (List α)
  records : List (List (List α))
  deriving DecidableEq, Repr

variable {α : Type u}

/-- At the start of a record. -/
def Reader.between (records : List (List (List α))) : Reader α := ⟨.opening, [], [], records⟩

/-- The field is complete. -/
def Reader.endField (r : Reader α) : Reader α := ⟨.opening, [], r.record ++ [r.field], r.records⟩

/-- The record is complete. -/
def Reader.endRecord (r : Reader α) : Reader α :=
  Reader.between (r.records ++ [r.record ++ [r.field]])

/-- The field goes on. -/
def Reader.take (r : Reader α) (phase : Phase) (c : α) : Reader α :=
  { r with phase := phase, field := r.field ++ [c] }

namespace Dialect

theorem quote_ne_separator {d : Dialect α} : d.quote ≠ d.separator := fun same =>
  (List.nodup_cons.1 d.distinct).1 (same ▸ List.mem_cons_self)

theorem quote_ne_lineFeed {d : Dialect α} : d.quote ≠ d.lineFeed := fun same =>
  (List.nodup_cons.1 (List.nodup_cons.1 d.distinct).2).1
    (same ▸ List.mem_cons_of_mem _ List.mem_cons_self)

theorem lineFeed_ne_separator {d : Dialect α} : d.lineFeed ≠ d.separator := fun same =>
  (List.nodup_cons.1 d.distinct).1
    (same ▸ List.mem_cons_of_mem _ (List.mem_cons_of_mem _ List.mem_cons_self))

variable [DecidableEq α] (d : Dialect α)

/-! ## Reading -/

/-- After a field, or between its characters: a separator or the end of the record. -/
def delimit (r : Reader α) (c : α) : Option (Reader α) :=
  if c = d.separator then some r.endField
  else if c = d.lineFeed then some r.endRecord
  else if c = d.carriageReturn then some { r with phase := .carriage }
  else none

/-- One character. -/
def step (r : Reader α) (c : α) : Option (Reader α) :=
  match r.phase with
  | .opening =>
      if c = d.quote then some { r with phase := .quoted }
      else (d.delimit r c).or (some (r.take .bare c))
  | .bare => if c = d.quote then none else (d.delimit r c).or (some (r.take .bare c))
  | .quoted => some (if c = d.quote then { r with phase := .closing } else r.take .quoted c)
  | .closing => if c = d.quote then some (r.take .quoted c) else d.delimit r c
  | .carriage => if c = d.lineFeed then some r.endRecord else none

/-- A text. -/
def read (r : Reader α) (text : List α) : Option (Reader α) := text.foldlM d.step r

/-- The end of the text; the last record need not end its line. -/
def finish (r : Reader α) : Option (List (List (List α))) :=
  match r.phase with
  | .opening => some (if r.record = [] then r.records else r.endRecord.records)
  | .bare | .closing => some r.endRecord.records
  | .quoted | .carriage => none

/-- The records of a text. -/
def parse (text : List α) : Option (List (List (List α))) :=
  (d.read (Reader.between []) text).bind finish

@[simp] theorem read_nil (r : Reader α) : d.read r [] = some r := rfl

theorem read_cons (r : Reader α) (c : α) (text : List α) :
    d.read r (c :: text) = (d.step r c).bind fun r' => d.read r' text :=
  List.foldlM_cons

theorem read_append (r : Reader α) (text more : List α) :
    d.read r (text ++ more) = (d.read r text).bind fun r' => d.read r' more :=
  List.foldlM_append

/-! ## Writing -/

/-- The character cannot stand in a bare field. -/
def Special (c : α) : Prop :=
  c = d.quote ∨ c = d.separator ∨ c = d.lineFeed ∨ c = d.carriageReturn

instance (c : α) : Decidable (d.Special c) := inferInstanceAs (Decidable (_ ∨ _ ∨ _ ∨ _))

/-- Every quote twice. -/
def escape (text : List α) : List α :=
  text.flatMap fun c => if c = d.quote then [d.quote, d.quote] else [c]

/-- A field, between quotes if it needs them. -/
def cell (text : List α) : List α :=
  if ∃ c ∈ text, d.Special c then d.quote :: d.escape text ++ [d.quote] else text

/-- A record on a line of its own. -/
def line (cells : List (List α)) : List α :=
  [d.separator].intercalate (cells.map d.cell) ++ [d.lineFeed]

/-! ## A field read back -/

variable {d}

theorem delimit_of_not_special {c : α} (plain : ¬ d.Special c) (r : Reader α) :
    d.delimit r c = none := by
  simp only [Special, not_or] at plain
  rw [delimit, if_neg plain.2.1, if_neg plain.2.2.1, if_neg plain.2.2.2]

/-- A plain character is read as it is, at the start of a field or inside. -/
theorem step_plain {c : α} (plain : ¬ d.Special c) {r : Reader α}
    (phase : r.phase = .opening ∨ r.phase = .bare) : d.step r c = some (r.take .bare c) := by
  have quote : c ≠ d.quote := fun same => plain (.inl same)
  rcases phase with opening | bare
  · rw [step, opening]
    simp only [if_neg quote, delimit_of_not_special plain, Option.none_or]
  · rw [step, bare]
    simp only [if_neg quote, delimit_of_not_special plain, Option.none_or]

/-- **A bare field** is read as it stands. -/
theorem read_bare {text : List α} (plain : ∀ c ∈ text, ¬ d.Special c) {r : Reader α}
    (phase : r.phase = .opening ∨ r.phase = .bare) :
    d.read r text =
      some { r with phase := if text = [] then r.phase else .bare, field := r.field ++ text } := by
  induction text generalizing r with
  | nil => rw [read_nil, if_pos rfl, List.append_nil]
  | cons c text ih =>
      obtain ⟨here, rest⟩ := List.forall_mem_cons.1 plain
      rw [read_cons, step_plain here phase, Option.bind_some, ih rest (.inr rfl),
        if_neg (List.cons_ne_nil c text)]
      have bare : (if text = [] then (r.take .bare c).phase else Phase.bare) = .bare :=
        ite_self _
      rw [bare]
      simp only [Reader.take, List.append_assoc, List.singleton_append]

/-- Between quotes, an escaped text is read as the text. -/
theorem read_escape (text : List α) {r : Reader α} (phase : r.phase = .quoted) :
    d.read r (d.escape text) = some { r with field := r.field ++ text } := by
  induction text generalizing r with
  | nil => rw [escape, List.flatMap_nil, read_nil, List.append_nil]
  | cons c text ih =>
      have split_ : d.escape (c :: text) =
          (if c = d.quote then [d.quote, d.quote] else [c]) ++ d.escape text :=
        List.flatMap_cons
      have here : d.read r (if c = d.quote then [d.quote, d.quote] else [c]) =
          some (r.take .quoted c) := by
        by_cases same : c = d.quote
        · rw [if_pos same, read_cons, step, phase]
          simp only [if_true, Option.bind_some]
          rw [read_cons, step]
          simp only [if_true, Option.bind_some, read_nil, same]
          rfl
        · rw [if_neg same, read_cons, step, phase]
          simp only [if_neg same, Option.bind_some, read_nil]
      rw [split_, read_append, here, Option.bind_some, ih rfl]
      simp only [Reader.take, phase, List.append_assoc, List.singleton_append]

/-- Where a reader stands after a field that was written. -/
structure ReadField (r : Reader α) (text : List α) (r' : Reader α) : Prop where
  phase : r'.phase = .opening ∨ r'.phase = .bare ∨ r'.phase = .closing
  field : r'.field = text
  record : r'.record = r.record
  records : r'.records = r.records

/-- **A written field** is read back. -/
theorem read_cell (d : Dialect α) {r : Reader α} (phase : r.phase = .opening) (empty : r.field = [])
    (text : List α) : ∃ r', d.read r (d.cell text) = some r' ∧ ReadField r text r' := by
  rw [cell]
  split
  · refine ⟨{ r with phase := .closing, field := text }, ?_, .inr (.inr rfl), rfl, rfl, rfl⟩
    rw [List.cons_append, read_cons, step, phase]
    simp only [if_true, Option.bind_some]
    rw [read_append, read_escape text rfl, Option.bind_some, read_cons, step]
    simp only [if_true, Option.bind_some, read_nil, empty, List.nil_append]
  · rename_i plain
    refine ⟨_, read_bare (fun c member special => plain ⟨c, member, special⟩) (.inl phase), ?_,
      by rw [empty, List.nil_append], rfl, rfl⟩
    by_cases blank : text = []
    · exact .inl (by rw [if_pos blank, phase])
    · exact .inr (.inl (by rw [if_neg blank]))

theorem ReadField.step_separator {r r' : Reader α} {text : List α} (after : ReadField r text r') :
    d.step r' d.separator = some ⟨.opening, [], r.record ++ [text], r.records⟩ := by
  have ends : d.delimit r' d.separator = some r'.endField := by rw [delimit, if_pos rfl]
  have field : r'.endField = ⟨.opening, [], r.record ++ [text], r.records⟩ := by
    rw [Reader.endField, after.field, after.record, after.records]
  rcases after.phase with phase | phase | phase <;>
    rw [step, phase] <;>
    simp only [if_neg quote_ne_separator.symm, ends, field, Option.some_or]

theorem ReadField.step_lineFeed {r r' : Reader α} {text : List α} (after : ReadField r text r') :
    d.step r' d.lineFeed = some (Reader.between (r.records ++ [r.record ++ [text]])) := by
  have ends : d.delimit r' d.lineFeed = some r'.endRecord := by
    rw [delimit, if_neg lineFeed_ne_separator, if_pos rfl]
  have record : r'.endRecord = Reader.between (r.records ++ [r.record ++ [text]]) := by
    rw [Reader.endRecord, after.field, after.record, after.records]
  rcases after.phase with phase | phase | phase <;>
    rw [step, phase] <;>
    simp only [if_neg quote_ne_lineFeed.symm, ends, record, Option.some_or]

/-! ## Records read back -/

/-- The fields of a line, with fields of the record read before. -/
theorem read_cells (records : List (List (List α))) {cells : List (List α)} (some_ : cells ≠ [])
    (before : List (List α)) :
    d.read ⟨.opening, [], before, records⟩ (d.line cells) =
      some (Reader.between (records ++ [before ++ cells])) := by
  induction cells generalizing before with
  | nil => exact absurd rfl some_
  | cons text cells ih =>
      have start : (⟨.opening, [], before, records⟩ : Reader α).phase = .opening := rfl
      obtain ⟨r, found, after⟩ := d.read_cell start rfl text
      cases cells with
      | nil =>
          have shape : d.line [text] = d.cell text ++ [d.lineFeed] := by
            rw [line, List.map_singleton, List.intercalate_singleton]
          rw [shape, read_append, found, Option.bind_some, read_cons, after.step_lineFeed,
            Option.bind_some, read_nil]
      | cons next cells =>
          have shape : d.line (text :: next :: cells) =
              d.cell text ++ d.separator :: d.line (next :: cells) := by
            rw [line, line, List.map_cons, List.map_cons, List.intercalate_cons_cons,
              List.append_assoc, List.append_assoc]
            rfl
          rw [shape, read_append, found, Option.bind_some, read_cons, after.step_separator,
            Option.bind_some, ih (List.cons_ne_nil next cells)]
          simp only [List.append_assoc, List.singleton_append]

theorem read_lines (records : List (List (List α))) {written : List (List (List α))}
    (some_ : ∀ cells ∈ written, cells ≠ []) :
    d.read (Reader.between records) (written.flatMap d.line) =
      some (Reader.between (records ++ written)) := by
  induction written generalizing records with
  | nil => rw [List.flatMap_nil, read_nil, List.append_nil]
  | cons cells written ih =>
      obtain ⟨here, rest⟩ := List.forall_mem_cons.1 some_
      rw [List.flatMap_cons, read_append, Reader.between, read_cells records here [],
        Option.bind_some, ih _ rest, List.nil_append, List.append_assoc, List.singleton_append]

/-- **What was written is read back**, record by record. -/
theorem parse_lines (d : Dialect α) {written : List (List (List α))}
    (some_ : ∀ cells ∈ written, cells ≠ []) : d.parse (written.flatMap d.line) = some written := by
  rw [parse, read_lines [] some_, List.nil_append]
  rfl

end Dialect

end Tozalist.Theory.Csv
