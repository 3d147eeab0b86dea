/-
# Tozalist.Theory.Json -- JSON texts

The grammar of RFC 8259 as a reader, and values with their texts.  What strings and numbers mean
differs from language to language, so a value is over any type of numbers and any type of
strings: the reader leaves a number as its text and a string as its pieces, and a language reads
these, and writes its own.

* `value_of_fuel` -- the reader is given fuel, and more of it would read the same;
* `parse_text` -- if the numbers and the strings of a language are read back from their texts, so
  are its values.
-/
import Mathlib.Data.List.Infix
import Mathlib.Tactic.Common

namespace Tozalist.Theory

set_option autoImplicit false

/-! ## Values -/

/-- A JSON value, over its numbers and its strings. -/
inductive Json (ν σ : Type) : Type where
  | null
  | bool (b : Bool)
  | number (n : ν)
  | string (s : σ)
  | array (items : List (Json ν σ))
  | object (members : List (σ × Json ν σ))

namespace Json

variable {ν ν' σ σ' : Type}

section Equality

variable [DecidableEq ν] [DecidableEq σ]

mutual

/-- Whether two values are the same. -/
def same : Json ν σ → Json ν σ → Bool
  | null, null => true
  | bool b, bool b' => b == b'
  | number n, number n' => n == n'
  | string s, string s' => s == s'
  | array items, array items' => sameItems items items'
  | object members, object members' => sameMembers members members'
  | _, _ => false

def sameItems : List (Json ν σ) → List (Json ν σ) → Bool
  | [], [] => true
  | item :: items, item' :: items' => same item item' && sameItems items items'
  | _, _ => false

def sameMembers : List (σ × Json ν σ) → List (σ × Json ν σ) → Bool
  | [], [] => true
  | (key, value) :: members, (key', value') :: members' =>
      key == key' && same value value' && sameMembers members members'
  | _, _ => false

end

mutual

theorem same_iff (v w : Json ν σ) : same v w = true ↔ v = w := by
  match v with
  | null | bool _ | number _ | string _ => cases w <;> simp [same]
  | array items =>
      cases w with
      | array items' => simpa [same] using sameItems_iff items items'
      | _ => simp [same]
  | object members =>
      cases w with
      | object members' => simpa [same] using sameMembers_iff members members'
      | _ => simp [same]

theorem sameItems_iff (xs ys : List (Json ν σ)) : sameItems xs ys = true ↔ xs = ys := by
  match xs with
  | [] => cases ys <;> simp [sameItems]
  | x :: xs =>
      cases ys with
      | nil => simp [sameItems]
      | cons y ys => simp [sameItems, same_iff x y, sameItems_iff xs ys]

theorem sameMembers_iff (xs ys : List (σ × Json ν σ)) : sameMembers xs ys = true ↔ xs = ys := by
  match xs with
  | [] => cases ys <;> simp [sameMembers]
  | (key, value) :: xs =>
      cases ys with
      | nil => simp [sameMembers]
      | cons y ys =>
          obtain ⟨key', value'⟩ := y
          simp [sameMembers, same_iff value value', sameMembers_iff xs ys]

end

instance decidableEq : DecidableEq (Json ν σ) := fun v w => decidable_of_iff _ (same_iff v w)

end Equality

mutual

/-- The numbers and the strings of a value, read. -/
def map (num : ν → ν') (str : σ → σ') : Json ν σ → Json ν' σ'
  | null => null
  | bool b => bool b
  | number n => number (num n)
  | string s => string (str s)
  | array items => array (mapItems num str items)
  | object members => object (mapMembers num str members)

def mapItems (num : ν → ν') (str : σ → σ') : List (Json ν σ) → List (Json ν' σ')
  | [] => []
  | item :: items => map num str item :: mapItems num str items

def mapMembers (num : ν → ν') (str : σ → σ') : List (σ × Json ν σ) → List (σ' × Json ν' σ')
  | [] => []
  | (key, value) :: members => (str key, map num str value) :: mapMembers num str members

end

mutual

/-- Reading twice is reading once. -/
theorem map_map {ν'' σ'' : Type} (num : ν → ν') (str : σ → σ') (num' : ν' → ν'') (str' : σ' → σ'')
    (v : Json ν σ) : map num' str' (map num str v) = map (num' ∘ num) (str' ∘ str) v := by
  match v with
  | null | bool b | number n | string s => rfl
  | array items => exact congrArg array (mapItems_mapItems num str num' str' items)
  | object members => exact congrArg object (mapMembers_mapMembers num str num' str' members)

theorem mapItems_mapItems {ν'' σ'' : Type} (num : ν → ν') (str : σ → σ') (num' : ν' → ν'')
    (str' : σ' → σ'') (items : List (Json ν σ)) :
    mapItems num' str' (mapItems num str items) = mapItems (num' ∘ num) (str' ∘ str) items := by
  match items with
  | [] => rfl
  | item :: items =>
      exact congrArg₂ List.cons (map_map num str num' str' item)
        (mapItems_mapItems num str num' str' items)

theorem mapMembers_mapMembers {ν'' σ'' : Type} (num : ν → ν') (str : σ → σ') (num' : ν' → ν'')
    (str' : σ' → σ'') (members : List (σ × Json ν σ)) :
    mapMembers num' str' (mapMembers num str members) =
      mapMembers (num' ∘ num) (str' ∘ str) members := by
  match members with
  | [] => rfl
  | (key, value) :: members =>
      exact congrArg₂ (fun v => List.cons (str' (str key), v)) (map_map num str num' str' value)
        (mapMembers_mapMembers num str num' str' members)

end

mutual

/-- The text of a value, without white space. -/
def text (num : ν → List Char) (str : σ → List Char) : Json ν σ → List Char
  | null => ['n', 'u', 'l', 'l']
  | bool true => ['t', 'r', 'u', 'e']
  | bool false => ['f', 'a', 'l', 's', 'e']
  | number n => num n
  | string s => str s
  | array [] => ['[', ']']
  | array (item :: items) => '[' :: (text num str item ++ itemsText num str items)
  | object [] => ['{', '}']
  | object ((key, value) :: members) =>
      '{' :: (str key ++ ':' :: (text num str value ++ membersText num str members))

/-- Further items, and the bracket that closes them. -/
def itemsText (num : ν → List Char) (str : σ → List Char) : List (Json ν σ) → List Char
  | [] => [']']
  | item :: items => ',' :: (text num str item ++ itemsText num str items)

/-- Further members, and the brace that closes them. -/
def membersText (num : ν → List Char) (str : σ → List Char) : List (σ × Json ν σ) → List Char
  | [] => ['}']
  | (key, value) :: members =>
      ',' :: (str key ++ ':' :: (text num str value ++ membersText num str members))

end

/-! ## Tokens -/

/-- What a string literal spells: a character, itself or by a short escape, or a UTF-16 unit by
its four digits. -/
inductive Piece where
  | char (c : Char)
  | unit (u : UInt16)
  deriving DecidableEq, Repr

def isSpace (c : Char) : Bool := c == ' ' || c == '\t' || c == '\n' || c == '\r'

/-- The text after its white space. -/
def skip (text : List Char) : List Char := text.dropWhile isSpace

/-- What follows the character, if it is the next. -/
def expect (c : Char) (text : List Char) : Option (List Char) :=
  match skip text with
  | [] => none
  | d :: rest => if d = c then some rest else none

def hexDigit (c : Char) : Option ℕ :=
  if c.isDigit then some (c.toNat - 48)
  else if 'a' ≤ c ∧ c ≤ 'f' then some (c.toNat - 87)
  else if 'A' ≤ c ∧ c ≤ 'F' then some (c.toNat - 55)
  else none

/-- The unit of four digits. -/
def hexUnit (a b c d : Char) : Option UInt16 := do
  let a ← hexDigit a
  let b ← hexDigit b
  let c ← hexDigit c
  let d ← hexDigit d
  return UInt16.ofNat (4096 * a + 256 * b + 16 * c + d)

/-- The character of a short escape. -/
def shortEscape (c : Char) : Option Char :=
  if c = '"' ∨ c = '\\' ∨ c = '/' then some c
  else if c = 'b' then some '\x08'
  else if c = 'f' then some '\x0c'
  else if c = 'n' then some '\n'
  else if c = 'r' then some '\r'
  else if c = 't' then some '\t'
  else none

/-- A piece in front of what is read further. -/
def Piece.before (p : Piece) (r : List Piece × List Char) : List Piece × List Char :=
  (p :: r.1, r.2)

/-- The pieces up to the closing quotation mark. -/
def pieces : List Char → Option (List Piece × List Char)
  | [] => none
  | c :: rest =>
      if c = '"' then some ([], rest)
      else if c = '\\' then
        match rest with
        | [] => none
        | e :: rest =>
            if e = 'u' then
              match rest with
              | a :: b :: c :: d :: rest =>
                  (hexUnit a b c d).bind fun u => (pieces rest).map (Piece.unit u).before
              | _ => none
            else (shortEscape e).bind fun e => (pieces rest).map (Piece.char e).before
      else if c.toNat < 32 then none
      else (pieces rest).map (Piece.char c).before

/-- The digits in front. -/
def digits (text : List Char) : List Char × List Char :=
  (text.takeWhile Char.isDigit, text.dropWhile Char.isDigit)

/-- The digits in front, of which there is one. -/
def someDigits (text : List Char) : Option (List Char × List Char) :=
  if (digits text).1 = [] then none else some (digits text)

/-- The digits in front; a zero stands alone. -/
def wholePart : List Char → Option (List Char × List Char)
  | [] => none
  | c :: rest => if c = '0' then some (['0'], rest) else someDigits (c :: rest)

/-- One of the characters in front. -/
def oneOf (chars : List Char) : List Char → List Char × List Char
  | [] => ([], [])
  | c :: rest => if c ∈ chars then ([c], rest) else ([], c :: rest)

def fraction (text : List Char) : Option (List Char × List Char) :=
  let (point, rest) := oneOf ['.'] text
  if point = [] then some ([], text)
  else (someDigits rest).map fun r => (point ++ r.1, r.2)

def exponent (text : List Char) : Option (List Char × List Char) :=
  let (mark, rest) := oneOf ['e', 'E'] text
  if mark = [] then some ([], text)
  else
    let (sign, rest) := oneOf ['+', '-'] rest
    (someDigits rest).map fun r => (mark ++ sign ++ r.1, r.2)

/-- The number in front, as its text. -/
def numeral (text : List Char) : Option (List Char × List Char) := do
  let (sign, rest) := oneOf ['-'] text
  let (whole, rest) ← wholePart rest
  let (fraction, rest) ← fraction rest
  let (exponent, rest) ← exponent rest
  return (sign ++ whole ++ fraction ++ exponent, rest)

/-! ## The reader -/

/-- What the reader gives. -/
abbrev Read : Type := Json (List Char) (List Piece)

/-- The word in front, for the value `v`. -/
def word (w : List Char) (v : Read) (text : List Char) : Option (Read × List Char) :=
  if w <+: text then some (v, text.drop w.length) else none

/-- The value in front, but for its first character, if that opens no array and no object. -/
def scalar (c : Char) (rest : List Char) : Option (Read × List Char) :=
  if c = '"' then (pieces rest).map fun r => (string r.1, r.2)
  else if c = 'n' then word ['u', 'l', 'l'] null rest
  else if c = 't' then word ['r', 'u', 'e'] (bool true) rest
  else if c = 'f' then word ['a', 'l', 's', 'e'] (bool false) rest
  else (numeral (c :: rest)).map fun r => (number r.1, r.2)

/-- What is between brackets: nothing, or `more`. -/
def enclosed (close : Char) (empty : Read) (rest : List Char) (more : Option (Read × List Char)) :
    Option (Read × List Char) :=
  match expect close rest with
  | some rest => some (empty, rest)
  | none => more

/-- The key of a member, and what follows its colon. -/
def memberKey (text : List Char) : Option (List Piece × List Char) :=
  (expect '"' text).bind fun rest => (pieces rest).bind fun r =>
    (expect ':' r.2).map fun rest => (r.1, rest)

/-- After an item comes a comma and more, or the end. -/
def further {α : Type} (close : Char) (item : α) (rest : List Char)
    (more : List Char → Option (List α × List Char)) : Option (List α × List Char) :=
  match expect ',' rest with
  | some rest => (more rest).map fun r => (item :: r.1, r.2)
  | none => (expect close rest).map fun rest => ([item], rest)

mutual

/-- The value in front, and what follows it. -/
def value : ℕ → List Char → Option (Read × List Char)
  | 0, _ => none
  | fuel + 1, text =>
      match skip text with
      | [] => none
      | c :: rest =>
          if c = '{' then
            enclosed '}' (object []) rest ((members fuel rest).map fun r => (object r.1, r.2))
          else if c = '[' then
            enclosed ']' (array []) rest ((items fuel rest).map fun r => (array r.1, r.2))
          else scalar c rest

def items : ℕ → List Char → Option (List Read × List Char)
  | 0, _ => none
  | fuel + 1, text => (value fuel text).bind fun r => further ']' r.1 r.2 (items fuel)

def members : ℕ → List Char → Option (List (List Piece × Read) × List Char)
  | 0, _ => none
  | fuel + 1, text => (memberKey text).bind fun key =>
      (value fuel key.2).bind fun r => further '}' (key.1, r.1) r.2 (members fuel)

end

/-- The value in front of a text; more fuel reads no more (`value_of_fuel`). -/
def first (text : List Char) : Option (Read × List Char) := value (2 * text.length + 1) text

/-- The value of a text. -/
def parse (text : List Char) : Option Read := do
  let (v, rest) ← first text
  if skip rest = [] then some v else none

/-! ## What is left to read -/

theorem skip_length (text : List Char) : (skip text).length ≤ text.length :=
  (List.dropWhile_suffix _).length_le

theorem skip_cons {c : Char} (visible : isSpace c = false) (rest : List Char) :
    skip (c :: rest) = c :: rest := by
  rw [skip, List.dropWhile_cons, if_neg (by rw [visible]; decide)]

theorem expect_cons {c : Char} (visible : isSpace c = false) (rest : List Char) :
    expect c (c :: rest) = some rest := by
  rw [expect, skip_cons visible]
  exact if_pos rfl

theorem expect_cons_ne {c d : Char} (visible : isSpace d = false) (other : d ≠ c)
    (rest : List Char) : expect c (d :: rest) = none := by
  rw [expect, skip_cons visible]
  exact if_neg other

theorem expect_length {c : Char} {text rest : List Char} (next : expect c text = some rest) :
    rest.length < text.length := by
  have shorter := skip_length text
  rw [expect] at next
  cases head : skip text with
  | nil =>
      rw [head] at next
      cases next
  | cons d more =>
      rw [head] at next shorter
      dsimp only at next
      split at next
      · obtain rfl := Option.some.inj next
        exact shorter
      · cases next

theorem pieces_length {text : List Char} :
    ∀ r ∈ pieces text, r.2.length < text.length := by
  have grown : ∀ {p : Piece} {rest : List Char} {n : ℕ}, rest.length < n →
      (∀ r ∈ pieces rest, r.2.length < rest.length) →
      ∀ r ∈ (pieces rest).map p.before, r.2.length < n := by
    intro p rest n longer ih r member
    obtain ⟨r', inside, rfl⟩ := Option.map_eq_some_iff.1 member
    exact (ih r' inside).trans longer
  fun_induction pieces text with
  | case1 | case3 | case5 | case7 => simp
  | case2 rest =>
      intro r member
      obtain rfl := Option.some.inj member
      exact Nat.lt_succ_self _
  | case4 a b c d rest _ ih =>
      intro r member
      obtain ⟨u, -, member⟩ := Option.mem_bind_iff.1 member
      exact grown (by simp only [List.length_cons]; omega) ih r member
  | case6 e rest _ _ ih =>
      intro r member
      obtain ⟨c, -, member⟩ := Option.mem_bind_iff.1 member
      exact grown (by simp only [List.length_cons]; omega) ih r member
  | case8 c rest _ _ _ ih => exact grown (Nat.lt_succ_self _) ih

theorem someDigits_length {text : List Char} :
    ∀ r ∈ someDigits text, r.2.length < text.length := by
  intro r member
  rw [someDigits] at member
  split at member
  · cases member
  · rename_i some_
    obtain rfl := Option.some.inj member
    have whole := congrArg List.length (List.takeWhile_append_dropWhile (p := Char.isDigit)
      (l := text))
    have long := List.length_pos_iff.2 some_
    rw [List.length_append] at whole
    dsimp only [digits] at long ⊢
    omega

theorem wholePart_length {text : List Char} :
    ∀ r ∈ wholePart text, r.2.length < text.length := by
  intro r member
  cases text with
  | nil => cases member
  | cons c rest =>
      rw [wholePart] at member
      split at member
      · obtain rfl := Option.some.inj member
        exact Nat.lt_succ_self _
      · exact someDigits_length r member

theorem oneOf_length (chars text : List Char) : (oneOf chars text).2.length ≤ text.length := by
  cases text with
  | nil => exact le_rfl
  | cons c rest =>
      rw [oneOf]
      split
      · exact Nat.le_succ _
      · exact le_rfl

theorem fraction_length {text : List Char} :
    ∀ r ∈ fraction text, r.2.length ≤ text.length := by
  intro r member
  rw [fraction] at member
  dsimp only at member
  split at member
  · obtain rfl := Option.some.inj member
    exact le_rfl
  · obtain ⟨r', inside, rfl⟩ := Option.map_eq_some_iff.1 member
    exact (someDigits_length r' inside).le.trans (oneOf_length _ _)

theorem exponent_length {text : List Char} :
    ∀ r ∈ exponent text, r.2.length ≤ text.length := by
  intro r member
  rw [exponent] at member
  dsimp only at member
  split at member
  · obtain rfl := Option.some.inj member
    exact le_rfl
  · obtain ⟨r', inside, rfl⟩ := Option.map_eq_some_iff.1 member
    exact (someDigits_length r' inside).le.trans ((oneOf_length _ _).trans (oneOf_length _ _))

theorem numeral_length {text : List Char} :
    ∀ r ∈ numeral text, r.2.length < text.length := by
  intro r member
  simp only [numeral, Option.bind_eq_bind, Option.mem_def, Option.bind_eq_some_iff] at member
  obtain ⟨w, whole, f, fraction, e, exponent, last⟩ := member
  obtain rfl := Option.some.inj last
  exact (exponent_length e exponent).trans_lt ((fraction_length f fraction).trans_lt
    ((wholePart_length w whole).trans_le (oneOf_length _ _)))

theorem word_length {w : List Char} {v : Read} {text : List Char} :
    ∀ r ∈ word w v text, r.2.length ≤ text.length := by
  intro r member
  rw [word] at member
  split at member
  · obtain rfl := Option.some.inj member
    exact (List.drop_suffix _ _).length_le
  · cases member

theorem scalar_length {c : Char} {rest : List Char} :
    ∀ r ∈ scalar c rest, r.2.length < rest.length + 1 := by
  intro r member
  have word : ∀ {w v}, r ∈ word w v rest → r.2.length < rest.length + 1 := fun inside =>
    Nat.lt_succ_of_le (word_length r inside)
  rw [scalar] at member
  split at member
  · obtain ⟨r', inside, rfl⟩ := Option.map_eq_some_iff.1 member
    exact (pieces_length r' inside).trans (Nat.lt_succ_self _)
  split at member
  · exact word member
  split at member
  · exact word member
  split at member
  · exact word member
  · obtain ⟨r', inside, rfl⟩ := Option.map_eq_some_iff.1 member
    exact numeral_length r' inside

theorem enclosed_length {close : Char} {empty : Read} {rest : List Char} {α : Type}
    {more : Option (α × List Char)} {wrap : α → Read}
    (shorter : ∀ r ∈ more, r.2.length < rest.length) :
    ∀ r ∈ enclosed close empty rest (more.map fun r => (wrap r.1, r.2)),
      r.2.length < rest.length + 1 := by
  intro r member
  rw [enclosed] at member
  split at member
  · rename_i rest' closes
    obtain rfl := Option.some.inj member
    exact (expect_length closes).trans (Nat.lt_succ_self _)
  · obtain ⟨r', inside, rfl⟩ := Option.map_eq_some_iff.1 member
    exact (shorter r' inside).trans (Nat.lt_succ_self _)

theorem memberKey_length {text : List Char} :
    ∀ r ∈ memberKey text, r.2.length < text.length := by
  intro r member
  obtain ⟨rest, quote, member⟩ := Option.bind_eq_some_iff.1 member
  obtain ⟨key, spelled, member⟩ := Option.bind_eq_some_iff.1 member
  obtain ⟨rest', colon, rfl⟩ := Option.map_eq_some_iff.1 member
  exact (expect_length colon).trans ((pieces_length key spelled).trans (expect_length quote))

theorem further_length {α : Type} {close : Char} {item : α} {rest : List Char}
    {more : List Char → Option (List α × List Char)}
    (shorter : ∀ text, ∀ r ∈ more text, r.2.length < text.length) :
    ∀ r ∈ further close item rest more, r.2.length < rest.length := by
  intro r member
  rw [further] at member
  split at member
  · rename_i rest' comma
    obtain ⟨r', inside, rfl⟩ := Option.map_eq_some_iff.1 member
    exact (shorter rest' r' inside).trans (expect_length comma)
  · obtain ⟨rest', closes, rfl⟩ := Option.map_eq_some_iff.1 member
    exact expect_length closes

/-- Reading takes something. -/
theorem value_length (fuel : ℕ) :
    (∀ text, ∀ r ∈ value fuel text, r.2.length < text.length) ∧
      (∀ text, ∀ r ∈ items fuel text, r.2.length < text.length) ∧
      ∀ text, ∀ r ∈ members fuel text, r.2.length < text.length := by
  induction fuel with
  | zero => simp [value, items, members]
  | succ fuel ih =>
      obtain ⟨values, itemss, memberss⟩ := ih
      refine ⟨?_, ?_, ?_⟩
      · intro text r member
        have shorter := skip_length text
        rw [value] at member
        cases head : skip text with
        | nil =>
            rw [head] at member
            cases member
        | cons c rest =>
            rw [head, List.length_cons] at shorter
            rw [head] at member
            dsimp only at member
            split at member
            · exact (enclosed_length (memberss rest) r member).trans_le shorter
            split at member
            · exact (enclosed_length (itemss rest) r member).trans_le shorter
            · exact (scalar_length r member).trans_le shorter
      · intro text r member
        obtain ⟨item, read, member⟩ := Option.bind_eq_some_iff.1 member
        exact (further_length itemss r member).trans (values text item read)
      · intro text r member
        obtain ⟨key, named, member⟩ := Option.bind_eq_some_iff.1 member
        obtain ⟨v, read, member⟩ := Option.bind_eq_some_iff.1 member
        exact (further_length memberss r member).trans
          ((values key.2 v read).trans (memberKey_length key named))

theorem further_congr {α : Type} {close : Char} {item : α} {rest : List Char}
    {more more' : List Char → Option (List α × List Char)}
    (same : ∀ text, text.length < rest.length → more text = more' text) :
    further close item rest more = further close item rest more' := by
  rw [further, further]
  cases comma : expect ',' rest with
  | none => rfl
  | some rest' =>
      dsimp only
      rw [same rest' (expect_length comma)]

/-- **More fuel reads no more.** -/
theorem value_of_fuel (n : ℕ) : ∀ m,
    (∀ text, 2 * text.length + 1 ≤ n → 2 * text.length + 1 ≤ m → value n text = value m text) ∧
      (∀ text, 2 * text.length + 2 ≤ n → 2 * text.length + 2 ≤ m → items n text = items m text) ∧
      ∀ text, 2 * text.length + 2 ≤ n → 2 * text.length + 2 ≤ m →
        members n text = members m text := by
  induction n with
  | zero => exact fun m => ⟨fun _ few => by omega, fun _ few => by omega, fun _ few => by omega⟩
  | succ n ih =>
      intro m
      cases m with
      | zero => exact ⟨fun _ _ few => by omega, fun _ _ few => by omega, fun _ _ few => by omega⟩
      | succ m =>
          obtain ⟨values, itemss, memberss⟩ := ih m
          obtain ⟨takes, -, -⟩ := value_length m
          refine ⟨?_, ?_, ?_⟩
          · intro text enough enough'
            have shorter := skip_length text
            rw [value, value]
            cases head : skip text with
            | nil => rfl
            | cons c rest =>
                rw [head, List.length_cons] at shorter
                dsimp only
                rw [itemss rest (by omega) (by omega), memberss rest (by omega) (by omega)]
          · intro text enough enough'
            rw [items, items, values text (by omega) (by omega)]
            refine Option.bind_congr fun r read => further_congr fun rest less => ?_
            have less' := takes text r read
            exact itemss rest (by omega) (by omega)
          · intro text enough enough'
            rw [members, members]
            refine Option.bind_congr fun key named => ?_
            have shorter := memberKey_length key named
            rw [values key.2 (by omega) (by omega)]
            refine Option.bind_congr fun r read => further_congr fun rest less => ?_
            have less' := takes key.2 r read
            exact memberss rest (by omega) (by omega)

/-- The text reads as the value and leaves `rest`, however long the reader goes on. -/
def Reads (text : List Char) (v : Read) (rest : List Char) : Prop :=
  ∀ fuel, 2 * text.length + 1 ≤ fuel → value fuel text = some (v, rest)

theorem reads_iff {text : List Char} {v : Read} {rest : List Char} :
    Reads text v rest ↔ first text = some (v, rest) :=
  ⟨fun reads => reads _ le_rfl,
    fun read fuel enough => ((value_of_fuel fuel _).1 text enough le_rfl).trans read⟩

/-! ## Texts are read back -/

/-- No number goes on with this. -/
def Ends (rest : List Char) : Prop :=
  ∀ c ∈ rest.head?, c.isDigit = false ∧ c ≠ '.' ∧ c ≠ 'e' ∧ c ≠ 'E'

theorem ends_nil : Ends [] := fun _ none_ => by cases none_

theorem ends_cons {c : Char} {rest : List Char}
    (ends : c.isDigit = false ∧ c ≠ '.' ∧ c ≠ 'e' ∧ c ≠ 'E') : Ends (c :: rest) := by
  intro d head
  obtain rfl := Option.some.inj head
  exact ends

/-- The text of a number: it begins with a digit, or with the sign, and is read as it is. -/
structure IsNumeral (text : List Char) : Prop where
  begins : ∃ c rest, text = c :: rest ∧ (c = '-' ∨ c.isDigit = true)
  reads : ∀ rest, Ends rest → numeral (text ++ rest) = some (text, rest)

/-- The text of the pieces, between quotation marks. -/
def Writes (text : List Char) (ps : List Piece) : Prop :=
  ∀ rest, pieces (text ++ '"' :: rest) = some (ps, rest)

/-- A string is between quotation marks, and spells its pieces. -/
def IsQuoted (text : List Char) (ps : List Piece) : Prop :=
  ∃ body, text = '"' :: (body ++ ['"']) ∧ Writes body ps

theorem writes_nil : Writes [] [] := by
  intro rest
  rw [List.nil_append, pieces.eq_def]
  exact if_pos rfl

theorem Writes.char {text : List Char} {ps : List Piece} (writes : Writes text ps) {c : Char}
    (quote : c ≠ '"') (escape : c ≠ '\\') (visible : 32 ≤ c.toNat) :
    Writes (c :: text) (.char c :: ps) := by
  intro rest
  rw [List.cons_append, pieces.eq_def]
  dsimp only
  rw [if_neg quote, if_neg escape, if_neg (Nat.not_lt.2 visible), writes]
  rfl

theorem Writes.escape {text : List Char} {ps : List Piece} (writes : Writes text ps) {e c : Char}
    (short : shortEscape e = some c) : Writes ('\\' :: e :: text) (.char c :: ps) := by
  intro rest
  have other : e ≠ 'u' := by
    rintro rfl
    cases short
  rw [List.cons_append, List.cons_append, pieces.eq_def]
  dsimp only
  rw [if_neg (by decide), if_pos rfl, if_neg other, short, writes]
  rfl

theorem Writes.unit {text : List Char} {ps : List Piece} (writes : Writes text ps) {a b c d : Char}
    {u : UInt16} (digits : hexUnit a b c d = some u) :
    Writes ('\\' :: 'u' :: a :: b :: c :: d :: text) (.unit u :: ps) := by
  intro rest
  simp only [List.cons_append]
  rw [pieces.eq_def]
  dsimp only
  rw [if_neg (by decide), if_pos rfl, if_pos rfl, digits, writes]
  rfl

theorem digits_append {text rest : List Char} (all : ∀ c ∈ text, c.isDigit = true)
    (ends : ∀ c ∈ rest.head?, c.isDigit = false) : digits (text ++ rest) = (text, rest) := by
  have none_ : rest.takeWhile Char.isDigit = [] ∧ rest.dropWhile Char.isDigit = rest := by
    cases rest with
    | nil => exact ⟨rfl, rfl⟩
    | cons c rest =>
        have other := ends c rfl
        exact ⟨by rw [List.takeWhile_cons, if_neg (by rw [other]; decide)],
          by rw [List.dropWhile_cons, if_neg (by rw [other]; decide)]⟩
  rw [digits, List.takeWhile_append_of_pos all, List.dropWhile_append_of_pos all, none_.1, none_.2,
    List.append_nil]

theorem oneOf_of_ends {chars rest : List Char} (ends : ∀ c ∈ rest.head?, c ∉ chars) :
    oneOf chars rest = ([], rest) := by
  cases rest with
  | nil => rfl
  | cons c rest => rw [oneOf, if_neg (ends c rfl)]

/-- A decimal text begins with a zero only if it is nothing else. -/
theorem toDigits_head (n : ℕ) :
    ∃ c rest, Nat.toDigits 10 n = c :: rest ∧ (c = '0' → rest = []) := by
  induction n using Nat.strong_induction_on with
  | _ n ih =>
      by_cases small : n < 10
      · exact ⟨_, [], Nat.toDigits_of_lt_base small, fun _ => rfl⟩
      · obtain ⟨c, rest, is, zero⟩ := ih (n / 10) (by omega)
        refine ⟨c, rest ++ [Nat.digitChar (n % 10)], ?_, ?_⟩
        · rw [Nat.toDigits_of_base_le (by decide) (by omega), is]
          rfl
        · rintro rfl
          -- the leading digit of a number that is not zero
          obtain rfl := zero rfl
          have value := Nat.ofDigitChars_ten_toDigits (n := n / 10)
          rw [is] at value
          exact absurd value (by simp [Nat.ofDigitChars]; omega)

/-- A decimal number is read back. -/
theorem isNumeral_toDigits (n : ℕ) : IsNumeral (Nat.toDigits 10 n) := by
  have all : ∀ c ∈ Nat.toDigits 10 n, c.isDigit = true := fun c member =>
    Nat.isDigit_of_mem_toDigits (by decide) (by decide) member
  obtain ⟨c, text, is, zero⟩ := toDigits_head n
  rw [is] at all ⊢
  have digit := all c List.mem_cons_self
  refine ⟨⟨c, text, rfl, .inr digit⟩, ?_⟩
  intro rest ends
  have sign : oneOf ['-'] (c :: text ++ rest) = ([], c :: text ++ rest) := by
    apply oneOf_of_ends
    intro d head
    obtain rfl := Option.some.inj head
    rw [List.mem_singleton]
    rintro rfl
    exact absurd digit (by decide)
  have whole : wholePart (c :: text ++ rest) = some (c :: text, rest) := by
    rw [List.cons_append, wholePart]
    split
    · rename_i isZero
      rw [isZero, zero isZero]
      rfl
    · rw [someDigits, ← List.cons_append, digits_append all fun d head => (ends d head).1]
      exact if_neg (by simp)
  have point : oneOf ['.'] rest = ([], rest) :=
    oneOf_of_ends fun d head => by simpa using (ends d head).2.1
  have mark : oneOf ['e', 'E'] rest = ([], rest) :=
    oneOf_of_ends fun d head => by simpa using (ends d head).2.2
  simp only [numeral, sign, whole, fraction, point, exponent, mark, Option.bind_eq_bind,
    Option.bind_some, if_true, List.nil_append, List.append_nil]
  rfl

section Texts

variable {num : ν → List Char} {str : σ → List Char} {spelled : σ → List Piece}

theorem value_of_scalar {c : Char} {rest : List Char} {fuel : ℕ} (enough : 1 ≤ fuel)
    (visible : isSpace c = false) (brace : c ≠ '{') (bracket : c ≠ '[') :
    value fuel (c :: rest) = scalar c rest := by
  obtain ⟨fuel, rfl⟩ := Nat.exists_eq_add_of_le' enough
  rw [value, skip_cons visible]
  dsimp only
  rw [if_neg brace, if_neg bracket]

theorem word_append (w : List Char) (v : Read) (rest : List Char) :
    word w v (w ++ rest) = some (v, rest) := by
  rw [word, if_pos (List.prefix_append _ _), List.drop_left]

/-- A number or a string, or a word. -/
theorem scalar_number (text rest : List Char) (isNumeral : IsNumeral text) (ends : Ends rest)
    {fuel : ℕ} (enough : 1 ≤ fuel) :
    value fuel (text ++ rest) = some (number text, rest) := by
  obtain ⟨⟨c, more, is, begins⟩, reads⟩ := isNumeral
  have reads := reads rest ends
  rw [is] at reads ⊢
  have other : ∀ d : Char, (d == '-') = false → d.isDigit = false → c ≠ d := by
    rintro d sign digit rfl
    rcases begins with rfl | isDigit
    · cases sign
    · rw [digit] at isDigit
      cases isDigit
  have visible : isSpace c = false := by
    simp [isSpace, other]
  rw [List.cons_append, value_of_scalar enough visible (other _ rfl rfl) (other _ rfl rfl), scalar,
    if_neg (other _ rfl rfl), if_neg (other _ rfl rfl), if_neg (other _ rfl rfl),
    if_neg (other _ rfl rfl), ← List.cons_append, reads]
  rfl

theorem scalar_string {text rest : List Char} {ps : List Piece} (isQuoted : IsQuoted text ps)
    {fuel : ℕ} (enough : 1 ≤ fuel) : value fuel (text ++ rest) = some (string ps, rest) := by
  obtain ⟨body, rfl, writes⟩ := isQuoted
  rw [List.cons_append, value_of_scalar enough rfl (by decide) (by decide), scalar, if_pos rfl,
    List.append_assoc, List.singleton_append, writes]
  rfl

theorem further_close {α : Type} {close : Char} {item : α} {rest : List Char}
    {more : List Char → Option (List α × List Char)} (visible : isSpace close = false)
    (other : close ≠ ',') : further close item (close :: rest) more = some ([item], rest) := by
  rw [further, expect_cons_ne visible other, expect_cons visible]
  rfl

theorem further_comma {α : Type} {close : Char} {item : α} {rest : List Char}
    {more : List Char → Option (List α × List Char)} :
    further close item (',' :: rest) more = (more rest).map fun r => (item :: r.1, r.2) := by
  rw [further, expect_cons rfl]

theorem memberKey_text {text : List Char} {ps : List Piece} (isQuoted : IsQuoted text ps)
    (rest : List Char) : memberKey (text ++ ':' :: rest) = some (ps, rest) := by
  obtain ⟨body, rfl, writes⟩ := isQuoted
  rw [List.cons_append, List.append_assoc, List.singleton_append, memberKey, expect_cons rfl,
    Option.bind_some, writes, Option.bind_some, expect_cons rfl]
  rfl

/-- A value does not begin as an array ends. -/
theorem text_opens (numbers : ∀ n, IsNumeral (num n)) (strings : ∀ s, IsQuoted (str s) (spelled s))
    (v : Json ν σ) (rest : List Char) :
    expect ']' (text num str v ++ rest) = none := by
  cases v with
  | null => exact expect_cons_ne rfl (by decide) _
  | bool b => cases b <;> exact expect_cons_ne rfl (by decide) _
  | number n =>
      obtain ⟨⟨c, more, is, begins⟩, -⟩ := numbers n
      rw [text, is]
      rcases begins with rfl | digit
      · exact expect_cons_ne rfl (by decide) _
      · refine expect_cons_ne ?_ ?_ _
        · by_contra space
          simp only [isSpace, Bool.not_eq_false, Bool.or_eq_true, beq_iff_eq] at space
          rcases space with ((rfl | rfl) | rfl) | rfl <;> cases digit
        · rintro rfl
          cases digit
  | string s =>
      obtain ⟨body, is, -⟩ := strings s
      rw [text, is]
      exact expect_cons_ne rfl (by decide) _
  | array items => cases items <;> exact expect_cons_ne rfl (by decide) _
  | object members =>
      rcases members with _ | ⟨⟨key, v⟩, more⟩ <;> exact expect_cons_ne rfl (by decide) _

mutual

/-- **A value is read back**, whatever follows it that no number goes on with. -/
theorem value_text (numbers : ∀ n, IsNumeral (num n)) (strings : ∀ s, IsQuoted (str s) (spelled s))
    (v : Json ν σ) {fuel : ℕ} {rest : List Char}
    (enough : 2 * (text num str v).length + 1 ≤ fuel) (ends : Ends rest) :
    value fuel (text num str v ++ rest) = some (map num spelled v, rest) := by
  match v with
  | null =>
      rw [text, List.cons_append, value_of_scalar (by omega) rfl (by decide) (by decide), scalar,
        if_neg (by decide), if_pos rfl]
      exact word_append ['u', 'l', 'l'] _ _
  | bool false =>
      rw [text, List.cons_append, value_of_scalar (by omega) rfl (by decide) (by decide), scalar,
        if_neg (by decide), if_neg (by decide), if_neg (by decide), if_pos rfl]
      exact word_append ['a', 'l', 's', 'e'] _ _
  | bool true =>
      rw [text, List.cons_append, value_of_scalar (by omega) rfl (by decide) (by decide), scalar,
        if_neg (by decide), if_neg (by decide), if_pos rfl]
      exact word_append ['r', 'u', 'e'] _ _
  | number n => exact scalar_number _ _ (numbers n) ends (by omega)
  | string s => exact scalar_string (strings s) (by omega)
  | array [] =>
      obtain ⟨fuel, rfl⟩ := Nat.exists_eq_add_of_le' (show 1 ≤ fuel by omega)
      rfl
  | array (item :: more) =>
      rw [text, List.length_cons] at enough
      obtain ⟨fuel, rfl⟩ := Nat.exists_eq_add_of_le' (show 1 ≤ fuel by omega)
      rw [text, List.cons_append, value, skip_cons rfl]
      dsimp only
      rw [if_neg (by decide), if_pos rfl, items_text numbers strings item more (by omega), enclosed,
        List.append_assoc, text_opens numbers strings]
      rfl
  | object [] =>
      obtain ⟨fuel, rfl⟩ := Nat.exists_eq_add_of_le' (show 1 ≤ fuel by omega)
      rfl
  | object ((key, v) :: more) =>
      rw [text, List.length_cons] at enough
      obtain ⟨fuel, rfl⟩ := Nat.exists_eq_add_of_le' (show 1 ≤ fuel by omega)
      obtain ⟨body, is, -⟩ := strings key
      rw [text, List.cons_append, value, skip_cons rfl]
      dsimp only
      rw [if_pos rfl, members_text numbers strings key v more (by omega), enclosed, is,
        List.cons_append, List.cons_append, expect_cons_ne rfl (by decide)]
      rfl

theorem items_text (numbers : ∀ n, IsNumeral (num n)) (strings : ∀ s, IsQuoted (str s) (spelled s))
    (item : Json ν σ) (more : List (Json ν σ)) {fuel : ℕ} {rest : List Char}
    (enough : 2 * (text num str item ++ itemsText num str more).length ≤ fuel) :
    items fuel (text num str item ++ itemsText num str more ++ rest) =
      some (map num spelled item :: mapItems num spelled more, rest) := by
  match more with
  | [] =>
      rw [itemsText, List.length_append, List.length_singleton] at enough
      obtain ⟨fuel, rfl⟩ := Nat.exists_eq_add_of_le' (show 1 ≤ fuel by omega)
      rw [itemsText, List.append_assoc, List.singleton_append, items,
        value_text numbers strings item (by omega) (ends_cons (by decide)), Option.bind_some,
        further_close rfl (by decide)]
      rfl
  | next :: more =>
      rw [itemsText, List.length_append, List.length_cons] at enough
      obtain ⟨fuel, rfl⟩ := Nat.exists_eq_add_of_le' (show 1 ≤ fuel by omega)
      rw [itemsText, List.append_assoc, List.cons_append, items,
        value_text numbers strings item (by omega) (ends_cons (by decide)), Option.bind_some,
        further_comma, items_text numbers strings next more (by omega)]
      rfl

theorem members_text (numbers : ∀ n, IsNumeral (num n))
    (strings : ∀ s, IsQuoted (str s) (spelled s)) (key : σ) (v : Json ν σ) (more : List (σ × Json ν σ)) {fuel : ℕ}
    {rest : List Char}
    (enough : 2 * (str key ++ ':' :: (text num str v ++ membersText num str more)).length ≤ fuel) :
    members fuel (str key ++ ':' :: (text num str v ++ membersText num str more) ++ rest) =
      some ((spelled key, map num spelled v) :: mapMembers num spelled more, rest) := by
  rw [List.length_append, List.length_cons, List.length_append] at enough
  obtain ⟨fuel, rfl⟩ := Nat.exists_eq_add_of_le' (show 1 ≤ fuel by omega)
  rw [List.append_assoc, List.cons_append, List.append_assoc, members,
    memberKey_text (strings key), Option.bind_some]
  match more with
  | [] =>
      rw [membersText, List.length_singleton] at enough
      rw [membersText, List.singleton_append,
        value_text numbers strings v (by omega) (ends_cons (by decide)), Option.bind_some,
        further_close rfl (by decide)]
      rfl
  | (key', v') :: more =>
      rw [membersText, List.length_cons] at enough
      rw [membersText, List.cons_append,
        value_text numbers strings v (by omega) (ends_cons (by decide)), Option.bind_some,
        further_comma, members_text numbers strings key' v' more (by omega)]
      rfl

end

variable (numbers : ∀ n, IsNumeral (num n)) (strings : ∀ s, IsQuoted (str s) (spelled s))

include numbers strings

/-- **The text of a value is read back.** -/
theorem parse_text (v : Json ν σ) : parse (text num str v) = some (map num spelled v) := by
  have read : value (2 * (text num str v).length + 1) (text num str v ++ []) =
      some (map num spelled v, []) := value_text numbers strings v le_rfl ends_nil
  rw [List.append_nil] at read
  rw [parse, first, read]
  rfl

/-- The text of a value, with something behind it that no number goes on with. -/
theorem first_text (v : Json ν σ) {rest : List Char} (ends : Ends rest) :
    first (text num str v ++ rest) = some (map num spelled v, rest) := by
  apply value_text numbers strings v _ ends
  rw [List.length_append]
  omega

end Texts

end Json
end Tozalist.Theory
