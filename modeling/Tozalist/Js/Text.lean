/-
# Tozalist.Js.Text -- JavaScript strings

A JavaScript string is a sequence of 16-bit code units, lone surrogates included,
and `length`, indexing, `slice` and comparison all speak about units.  So a string
is the list of its units here, and every list is one.

Lower-casing is the one string operation whose result depends on the Unicode
tables.  Functions that lower-case take it as a parameter.
-/
import Mathlib.Algebra.Group.Nat.Defs
import Mathlib.Tactic.Common

namespace Tozalist

set_option autoImplicit false

/-- A string as its UTF-16 code units. -/
abbrev JsString : Type := List UInt16

namespace Js

/-- The units of one code point. -/
def unitsOf (c : Char) : JsString :=
  if c.toNat < 0x10000 then [UInt16.ofNat c.toNat]
  else
    let v := c.toNat - 0x10000
    [UInt16.ofNat (0xD800 + v / 0x400), UInt16.ofNat (0xDC00 + v % 0x400)]

/-- The units of a text, as a string literal of the source denotes them. -/
def ofString (s : String) : JsString :=
  s.toList.flatMap unitsOf

/-- The literals of a table have these characters. -/
inductive Spelled : List String → List (List Char) → Prop
  | nil : Spelled [] []
  | cons {names : List String} {table : List (List Char)} (chars : List Char) :
      Spelled names table → Spelled (String.ofList chars :: names) (chars :: table)

/-- A fact about a table of literals, by their characters. -/
theorem Spelled.forall_ofString {P : JsString → Prop} {names : List String}
    {table : List (List Char)} (spelled : Spelled names table)
    (all : ∀ chars ∈ table, P (chars.flatMap unitsOf)) : ∀ k ∈ names.map ofString, P k := by
  induction spelled with
  | nil => exact List.forall_mem_nil _
  | cons chars _ ih =>
      obtain ⟨head, tail⟩ := List.forall_mem_cons.1 all
      refine List.forall_mem_cons.2 ⟨?_, ih tail⟩
      rwa [ofString, String.toList_ofList]

/-- `WhiteSpace` and `LineTerminator`, the units `trim` removes. -/
def isSpace (u : UInt16) : Bool :=
  (9 ≤ u && u ≤ 13) || u == 0x20 || u == 0xA0 || u == 0x1680 || (0x2000 ≤ u && u ≤ 0x200A) ||
    u == 0x2028 || u == 0x2029 || u == 0x202F || u == 0x205F || u == 0x3000 || u == 0xFEFF

/-- `String.prototype.trim`. -/
def trim (s : JsString) : JsString :=
  ((s.dropWhile isSpace).reverse.dropWhile isSpace).reverse

/-- `lastIndexOf` of one unit; `none` is `-1`. -/
def lastIndexOf (s : JsString) (u : UInt16) : Option ℕ :=
  (s.reverse.findIdx? (· == u)).map fun i => s.length - 1 - i

/-- The last one has none of it after it. -/
theorem lastIndexOf_append_cons {a b : JsString} {u : UInt16} (last : u ∉ b) :
    lastIndexOf (a ++ u :: b) u = some a.length := by
  have before : (b.reverse.findIdx? fun v => v == u) = none := by
    rw [List.findIdx?_eq_none_iff]
    intro v member
    exact beq_false_of_ne fun is => last (is ▸ List.mem_reverse.1 member)
  rw [lastIndexOf, List.reverse_append, List.reverse_cons, List.append_assoc, List.findIdx?_append,
    before, Option.none_or, List.singleton_append, List.findIdx?_cons, if_pos (beq_self_eq_true u)]
  simp only [Option.map_some, List.length_append, List.length_cons, List.length_reverse]
  congr 1
  omega

/-- No white space at either end. -/
def Trimmed (s : JsString) : Prop :=
  (∀ u ∈ s.head?, isSpace u = false) ∧ ∀ u ∈ s.getLast?, isSpace u = false

theorem dropWhile_head (s : JsString) : ∀ u ∈ (s.dropWhile isSpace).head?, isSpace u = false := by
  have first := List.head?_dropWhile_not isSpace s
  intro u is
  rw [Option.mem_def.1 is] at first
  exact first

/-- **What trimming takes away** is white space at the two ends. -/
theorem trim_split (s : JsString) :
    ∃ before after, s = before ++ (trim s ++ after) ∧ (∀ u ∈ before, isSpace u = true) ∧
      ∀ u ∈ after, isSpace u = true := by
  have white : ∀ t : JsString, ∀ u ∈ t.takeWhile isSpace, isSpace u = true :=
    fun t => List.all_eq_true.1 List.all_takeWhile
  refine ⟨s.takeWhile isSpace, ((s.dropWhile isSpace).reverse.takeWhile isSpace).reverse, ?_,
    white s, fun u member => white _ u (List.mem_reverse.1 member)⟩
  rw [trim, ← List.reverse_append, List.takeWhile_append_dropWhile, List.reverse_reverse,
    List.takeWhile_append_dropWhile]

theorem trim_trimmed (s : JsString) : Trimmed (trim s) := by
  constructor
  · intro u first
    have rest : s.dropWhile isSpace =
        trim s ++ ((s.dropWhile isSpace).reverse.takeWhile isSpace).reverse := by
      rw [trim, ← List.reverse_append, List.takeWhile_append_dropWhile, List.reverse_reverse]
    apply dropWhile_head s u
    rw [rest]
    rw [List.head?_append, Option.mem_def.1 first]
    rfl
  · intro u last
    rw [trim, List.getLast?_reverse] at last
    exact dropWhile_head _ u last

theorem trim_eq_self {s : JsString} (trimmed : Trimmed s) : trim s = s := by
  have kept : ∀ t : JsString, (∀ u ∈ t.head?, isSpace u = false) → t.dropWhile isSpace = t := by
    intro t first
    cases t with
    | nil => rfl
    | cons u t => rw [List.dropWhile_cons, if_neg (by simp [first u rfl])]
  rw [trim, kept s trimmed.1, kept s.reverse (by rw [List.head?_reverse]; exact trimmed.2),
    List.reverse_reverse]

/-- `Array.prototype.join` with a separator of one unit. -/
def join (parts : List JsString) (sep : UInt16) : JsString := [sep].intercalate parts

/-- `String.prototype.split` at one unit. -/
def split (s : JsString) (sep : UInt16) : List JsString := s.splitOn sep

/-- Splitting undoes joining when no part has the separator. -/
theorem split_join {parts : List JsString} {sep : UInt16} (some_ : parts ≠ [])
    (free : ∀ part ∈ parts, sep ∉ part) : split (join parts sep) sep = parts :=
  List.splitOn_intercalate sep free some_

theorem join_singleton (part : JsString) (sep : UInt16) : join [part] sep = part := by
  simp [join, List.intercalate]

theorem join_cons_cons (part next : JsString) (parts : List JsString) (sep : UInt16) :
    join (part :: next :: parts) sep = part ++ sep :: join (next :: parts) sep := by
  simp [join, List.intercalate]

theorem join_append_singleton {parts : List JsString} (some_ : parts ≠ []) (last : JsString)
    (sep : UInt16) : join (parts ++ [last]) sep = join parts sep ++ sep :: last := by
  induction parts with
  | nil => exact absurd rfl some_
  | cons part parts ih =>
      cases parts with
      | nil =>
          rw [List.cons_append, List.nil_append, join_cons_cons, join_singleton, join_singleton]
      | cons next parts =>
          rw [List.cons_append, List.cons_append, join_cons_cons, join_cons_cons,
            ← List.cons_append, ih (List.cons_ne_nil next parts), List.append_assoc,
            List.cons_append]

theorem join_split (s : JsString) (sep : UInt16) : join (split s sep) sep = s :=
  List.intercalate_splitOn sep

/-- The units of a joined text are the separator and the parts'. -/
theorem forall_mem_join {P : UInt16 → Prop} {parts : List JsString} {sep : UInt16} (here : P sep)
    (each : ∀ part ∈ parts, ∀ u ∈ part, P u) : ∀ u ∈ join parts sep, P u := by
  induction parts with
  | nil => exact nofun
  | cons part parts ih =>
      obtain ⟨first, rest⟩ := List.forall_mem_cons.1 each
      cases parts with
      | nil =>
          rw [join_singleton]
          exact first
      | cons next parts =>
          intro u member
          rw [join_cons_cons, List.mem_append, List.mem_cons] at member
          rcases member with inside | rfl | inside
          · exact first u inside
          · exact here
          · exact ih rest u inside

theorem not_mem_join {parts : List JsString} {sep u : UInt16} (other : u ≠ sep)
    (free : ∀ part ∈ parts, u ∉ part) : u ∉ join parts sep := by
  intro member
  exact @forall_mem_join (· ≠ u) parts sep other.symm
    (fun part listed v inside is => free part listed (is ▸ inside)) u member rfl

theorem join_ne_nil {parts : List JsString} {sep : UInt16} (some_ : parts ≠ [])
    (nonempty : ∀ part ∈ parts, part ≠ []) : join parts sep ≠ [] := by
  cases parts with
  | nil => exact absurd rfl some_
  | cons part parts =>
      have here := nonempty part List.mem_cons_self
      cases parts with
      | nil =>
          rw [join_singleton]
          exact here
      | cons next parts => simp [join_cons_cons, here]

/-! ## Decimal texts -/

/-- `String(n)`. -/
def ofNat (n : ℕ) : JsString := ofString (toString n)

/-- A decimal digit. -/
def isDigit (u : UInt16) : Bool := 48 ≤ u && u ≤ 57

/-- `Number(s)` of decimal digits; other texts are not read here. -/
def toNat? (s : JsString) : Option ℕ :=
  if s.all isDigit then some (Nat.ofDigitChars 10 (s.map fun u => Char.ofNat u.toNat) 0) else none

theorem unitsOf_digit {c : Char} (digit : c.isDigit = true) :
    unitsOf c = [UInt16.ofNat c.toNat] ∧ isDigit (UInt16.ofNat c.toNat) = true ∧
      Char.ofNat (UInt16.ofNat c.toNat).toNat = c := by
  have bounds : 48 ≤ c.toNat ∧ c.toNat ≤ 57 := Char.isDigit_iff_toNat.1 digit
  have small : (UInt16.ofNat c.toNat).toNat = c.toNat := by
    rw [UInt16.toNat_ofNat', Nat.mod_eq_of_lt (by omega)]
  refine ⟨by rw [unitsOf, if_pos (by omega)], ?_, by rw [small, Char.ofNat_toNat]⟩
  simp only [isDigit, Bool.and_eq_true, decide_eq_true_eq, UInt16.le_iff_toNat_le, small]
  exact bounds

theorem ofDigits (digits : List Char) (all : ∀ c ∈ digits, c.isDigit = true) :
    (digits.flatMap unitsOf).all isDigit = true ∧
      (digits.flatMap unitsOf).map (fun u => Char.ofNat u.toNat) = digits := by
  induction digits with
  | nil => exact ⟨rfl, rfl⟩
  | cons c digits ih =>
      obtain ⟨unit, digit, back⟩ := unitsOf_digit (all c List.mem_cons_self)
      obtain ⟨allRest, backRest⟩ := ih fun d member => all d (List.mem_cons_of_mem c member)
      refine ⟨?_, ?_⟩
      · simp only [List.flatMap_cons, unit, List.singleton_append, List.all_cons, digit, allRest,
          Bool.and_self]
      · simp only [List.flatMap_cons, unit, List.singleton_append, List.map_cons, back, backRest]

theorem ofNat_all_isDigit (n : ℕ) : (ofNat n).all isDigit = true := by
  rw [ofNat, ofString, show (toString n).toList = Nat.toDigits 10 n from Nat.toList_repr]
  exact (ofDigits _ fun c member => Nat.isDigit_of_mem_toDigits (by decide) (by decide) member).1

/-- **A number survives its text.** -/
theorem toNat?_ofNat (n : ℕ) : toNat? (ofNat n) = some n := by
  rw [toNat?, if_pos (ofNat_all_isDigit n), ofNat, ofString,
    show (toString n).toList = Nat.toDigits 10 n from Nat.toList_repr,
    (ofDigits _ fun c member => Nat.isDigit_of_mem_toDigits (by decide) (by decide) member).2,
    Nat.ofDigitChars_ten_toDigits]

theorem length_ofNat_le {n k : ℕ} (small : n < 10 ^ k) (some_ : 0 < k) :
    (ofNat n).length ≤ k := by
  have digits : ∀ c ∈ Nat.toDigits 10 n, c.isDigit = true := fun c member =>
    Nat.isDigit_of_mem_toDigits (by decide) (by decide) member
  have units := congrArg List.length (ofDigits _ digits).2
  rw [List.length_map] at units
  rw [ofNat, ofString, show (toString n).toList = Nat.toDigits 10 n from Nat.toList_repr, units]
  exact (Nat.length_toDigits_le_iff (by decide) some_).2 small

/-- Zeros in front do not change a number. -/
theorem toNat?_zeros_append {s : JsString} {n : ℕ} (reads : toNat? s = some n) (k : ℕ) :
    toNat? (List.replicate k 48 ++ s) = some n := by
  rw [toNat?] at reads ⊢
  split at reads
  · rename_i digits
    have zeros : (List.replicate k (48 : UInt16)).all isDigit = true :=
      List.all_eq_true.2 fun u member => by rw [List.eq_of_mem_replicate member]; rfl
    rw [List.all_append, zeros, digits, Bool.and_self, if_pos rfl, List.map_append,
      List.map_replicate, Nat.ofDigitChars_append]
    show some (Nat.ofDigitChars 10 _ (Nat.ofDigitChars 10 (List.replicate k '0') 0)) = some n
    rw [Nat.ofDigitChars_replicate_zero, Nat.mul_zero]
    exact reads
  · cases reads

/-- A decimal text has no unit that is not a digit. -/
theorem not_mem_ofNat {u : UInt16} (other : isDigit u = false) (n : ℕ) : u ∉ ofNat n := by
  intro member
  have digit := List.all_eq_true.1 (ofNat_all_isDigit n) u member
  rw [other] at digit
  cases digit

end Js

end Tozalist
