/-
# Tozalist.Js.Date -- instants as texts

`Date.prototype.toISOString`, and `new Date(text)` on the texts it writes: a `Date` is its
milliseconds since the epoch, within the range of `TimeClip`.  Other spellings that
`Date.parse` knows are not read here.

`parseDate_toISOString` is the round trip.
-/
import Mathlib.Algebra.Group.Nat.Defs
import Tozalist.Theory.Calendar

namespace Tozalist.Js

set_option autoImplicit false

open Theory.Calendar

/-! ## Digits -/

/-- The last `width` decimal digits of a number. -/
def digits : ℕ → ℕ → List Char
  | 0, _ => []
  | width + 1, n => Nat.digitChar (n / 10 ^ width % 10) :: digits width n

/-- Read `width` decimal digits, after a number read before them. -/
def readDigits : ℕ → ℕ → List Char → Option (ℕ × List Char)
  | 0, n, cs => some (n, cs)
  | _ + 1, _, [] => none
  | width + 1, n, c :: cs =>
      if c.isDigit then readDigits width (n * 10 + (c.toNat - 48)) cs else none

theorem digitChar_spec : ∀ d : Fin 10, (Nat.digitChar d).isDigit = true ∧
    (Nat.digitChar d).toNat - 48 = d := by
  decide

theorem readDigits_digits (width n before : ℕ) (rest : List Char) :
    readDigits width before (digits width n ++ rest) =
      some (before * 10 ^ width + n % 10 ^ width, rest) := by
  induction width generalizing before with
  | zero => simp [digits, readDigits, Nat.mod_one]
  | succ width ih =>
      obtain ⟨digit, value⟩ := digitChar_spec ⟨n / 10 ^ width % 10, Nat.mod_lt _ (by decide)⟩
      simp only [digits, List.cons_append, readDigits, digit, value, if_true, ih]
      rw [Nat.add_mul, Nat.mul_assoc, ← Nat.pow_succ', Nat.add_assoc, Nat.mod_pow_succ,
        Nat.add_comm (n % 10 ^ width), Nat.mul_comm (n / 10 ^ width % 10)]

theorem isDigit_of_mem_digits {width n : ℕ} {c : Char} (member : c ∈ digits width n) :
    c.isDigit = true := by
  induction width with
  | zero => cases member
  | succ width ih =>
      rcases List.mem_cons.1 member with rfl | later
      · exact (digitChar_spec ⟨n / 10 ^ width % 10, Nat.mod_lt _ (by decide)⟩).1
      · exact ih later

/-! ## Instants -/

/-- A time value a `Date` can hold. -/
def TimeClip (t : Int) : Prop := -8640000000000000 ≤ t ∧ t ≤ 8640000000000000

instance (t : Int) : Decidable (TimeClip t) := inferInstanceAs (Decidable (_ ∧ _))

/-- Four digits of a year, or a sign and six. -/
def yearText (year : Int) : List Char :=
  if 0 ≤ year ∧ year ≤ 9999 then digits 4 year.toNat
  else (if year < 0 then '-' else '+') :: digits 6 year.natAbs

/-- Milliseconds of a day. -/
def dayMs : Int := 86400000

/-- `toISOString`; without a text it throws a `RangeError`. -/
def toISOString (t : Int) : Option String :=
  let date := dateOf (t / dayMs)
  let time := (t % dayMs).toNat
  if TimeClip t then
    some <| String.ofList <| yearText date.year ++
      '-' :: digits 2 date.month.toNat ++ '-' :: digits 2 date.day.toNat ++
      'T' :: digits 2 (time / 3600000) ++ ':' :: digits 2 (time / 60000 % 60) ++
      ':' :: digits 2 (time / 1000 % 60) ++ '.' :: digits 3 (time % 1000) ++ ['Z']
  else none

/-- The year of a text. -/
def readYear : List Char → Option (Int × List Char)
  | '+' :: cs => (readDigits 6 0 cs).map fun (n, rest) => ((n : Int), rest)
  | '-' :: cs =>
      match readDigits 6 0 cs with
      | none => none
      | some (n, rest) => if n = 0 then none else some (-(n : Int), rest)
  | cs => (readDigits 4 0 cs).map fun (n, rest) => ((n : Int), rest)

/-- A separator and the digits behind it. -/
def readField (separator : Char) (width : ℕ) : List Char → Option (ℕ × List Char)
  | c :: cs => if c = separator then readDigits width 0 cs else none
  | [] => none

/-- `new Date(text)` on `YYYY-MM-DDTHH:mm:ss.sssZ`; a day that its month does not have runs
over into the next. -/
def parseDate (text : String) : Option Int := do
  let (year, cs) ← readYear text.toList
  let (month, cs) ← readField '-' 2 cs
  let (day, cs) ← readField '-' 2 cs
  let (hour, cs) ← readField 'T' 2 cs
  let (minute, cs) ← readField ':' 2 cs
  let (second, cs) ← readField ':' 2 cs
  let (ms, cs) ← readField '.' 3 cs
  let time := ((hour * 60 + minute) * 60 + second) * 1000 + ms
  let t := dayOf ⟨year, month, day⟩ * dayMs + time
  if cs = ['Z'] ∧ 1 ≤ month ∧ month ≤ 12 ∧ 1 ≤ day ∧ day ≤ 31 ∧ time ≤ 86400000 ∧
      minute ≤ 59 ∧ second ≤ 59 ∧ TimeClip t then some t
  else none

/-! ## The round trip -/

theorem readField_digits (separator : Char) (width n : ℕ) (rest : List Char)
    (small : n < 10 ^ width) :
    readField separator width (separator :: (digits width n ++ rest)) = some (n, rest) := by
  rw [readField, if_pos rfl, readDigits_digits, Nat.zero_mul, Nat.zero_add,
    Nat.mod_eq_of_lt small]

/-- A text that starts with a digit has no sign. -/
theorem readYear_digits (n : ℕ) (rest : List Char) (small : n < 10000) :
    readYear (digits 4 n ++ rest) = some ((n : Int), rest) := by
  have read := readDigits_digits 4 n 0 rest
  rw [Nat.zero_mul, Nat.zero_add, show n % 10 ^ 4 = n from Nat.mod_eq_of_lt small] at read
  have first := (digitChar_spec ⟨n / 10 ^ 3 % 10, Nat.mod_lt _ (by decide)⟩).1
  rw [digits, List.cons_append] at read ⊢
  unfold readYear
  split
  · rename_i plus
    rw [(List.cons.inj plus).1] at first
    exact absurd first (by decide)
  · rename_i minus
    rw [(List.cons.inj minus).1] at first
    exact absurd first (by decide)
  · rw [read]
    rfl

theorem readYear_yearText (year : Int) (rest : List Char)
    (small : -1000000 < year ∧ year < 1000000) :
    readYear (yearText year ++ rest) = some (year, rest) := by
  unfold yearText
  have read := readDigits_digits 6 year.natAbs 0 rest
  rw [Nat.zero_mul, Nat.zero_add, Nat.mod_eq_of_lt (by omega)] at read
  split
  · rw [readYear_digits _ _ (by omega), Int.toNat_of_nonneg (by omega)]
  · split
    · simp only [List.cons_append, readYear, read]
      rw [if_neg (by omega), show -(year.natAbs : Int) = year by omega]
    · simp only [List.cons_append, readYear, read, Option.map_some]
      rw [show (year.natAbs : Int) = year by omega]

/-- The years of the dates a `Date` can hold. -/
theorem year_of_timeClip {t : Int} (clip : TimeClip t) :
    -1000000 < (dateOf (t / dayMs)).year ∧ (dateOf (t / dayMs)).year < 1000000 := by
  have range := dayOfYear_range (t / dayMs)
  have day := day_eq (t / dayMs)
  have within : -100000000 ≤ t / dayMs ∧ t / dayMs ≤ 100000000 := by
    unfold TimeClip dayMs at *
    omega
  have march : -999999 < marchYear (t / dayMs) ∧ marchYear (t / dayMs) < 999999 := by
    unfold daysBefore at day
    omega
  rw [dateOf_eq]
  simp only []
  split <;> omega

theorem dateOf_bounds (day : Int) : 1 ≤ (dateOf day).month ∧ (dateOf day).month ≤ 12 ∧
    1 ≤ (dateOf day).day ∧ (dateOf day).day ≤ 31 := by
  have range := dayOfYear_range day
  rw [dateOf_eq]
  simp only []
  split <;> omega

/-- **An instant survives its text.** -/
theorem parseDate_toISOString {t : Int} {text : String} (is : toISOString t = some text) :
    parseDate text = some t := by
  unfold toISOString at is
  simp only [Option.ite_none_right_eq_some, Option.some.injEq] at is
  obtain ⟨clip, rfl⟩ := is
  have year := year_of_timeClip clip
  obtain ⟨month, month', day, day'⟩ := dateOf_bounds (t / dayMs)
  have time : 0 ≤ t % dayMs ∧ t % dayMs < 86400000 := by
    unfold dayMs
    omega
  have split : t / dayMs * dayMs + t % dayMs = t := by
    rw [Int.mul_comm]
    exact Int.mul_ediv_add_emod t dayMs
  have whole : dayOf ⟨(dateOf (t / dayMs)).year, ((dateOf (t / dayMs)).month.toNat : Int),
      ((dateOf (t / dayMs)).day.toNat : Int)⟩ = t / dayMs := by
    rw [Int.toNat_of_nonneg (by omega), Int.toNat_of_nonneg (by omega)]
    exact dayOf_dateOf (t / dayMs)
  obtain ⟨ms, is⟩ : ∃ ms : ℕ, t % dayMs = ms := ⟨(t % dayMs).toNat, by omega⟩
  rw [is] at time split
  rw [is, Int.toNat_natCast]
  have clock : ((ms / 3600000 * 60 + ms / 60000 % 60) * 60 + ms / 1000 % 60) * 1000 + ms % 1000 =
      ms := by omega
  unfold parseDate
  simp only [String.toList_ofList, List.append_assoc, List.cons_append]
  rw [readYear_yearText _ _ year]
  simp only [Option.bind_eq_bind, Option.bind_some]
  rw [readField_digits _ _ _ _ (by omega), Option.bind_some,
    readField_digits _ _ _ _ (by omega), Option.bind_some,
    readField_digits _ _ _ _ (by omega), Option.bind_some,
    readField_digits _ _ _ _ (by omega), Option.bind_some,
    readField_digits _ _ _ _ (by omega), Option.bind_some,
    readField_digits _ _ _ _ (by omega), Option.bind_some]
  simp only [clock, whole, split]
  rw [if_pos ⟨trivial, by omega, by omega, by omega, by omega, by omega, by omega, by omega, clip⟩]

theorem toISOString_isSome {t : Int} (clip : TimeClip t) : ∃ text, toISOString t = some text :=
  ⟨_, if_pos clip⟩

theorem mem_yearText {year : Int} {c : Char} (member : c ∈ yearText year) :
    c.isDigit = true ∨ c ∈ ['+', '-'] := by
  unfold yearText at member
  split at member
  · exact .inl (isDigit_of_mem_digits member)
  · rcases List.mem_cons.1 member with rfl | later
    · split <;> simp
    · exact .inl (isDigit_of_mem_digits later)

/-- The characters of an instant's text. -/
theorem mem_toISOString {t : Int} {text : String} (is : toISOString t = some text) {c : Char}
    (member : c ∈ text.toList) : c.isDigit = true ∨ c ∈ ['+', '-', 'T', ':', '.', 'Z'] := by
  unfold toISOString at is
  simp only [Option.ite_none_right_eq_some, Option.some.injEq] at is
  obtain ⟨-, rfl⟩ := is
  simp only [String.toList_ofList, List.append_assoc, List.cons_append, List.mem_append,
    List.mem_cons] at member
  rcases member with inYear | rfl | digit | rfl | digit | rfl | digit | rfl | digit | rfl | digit |
    rfl | digit | rfl | empty
  · rcases mem_yearText inYear with digit | sign
    · exact .inl digit
    · simp only [List.mem_cons, List.not_mem_nil, or_false] at sign
      rcases sign with rfl | rfl <;> simp
  all_goals first
    | exact .inl (isDigit_of_mem_digits digit)
    | simp
  cases empty

end Tozalist.Js
