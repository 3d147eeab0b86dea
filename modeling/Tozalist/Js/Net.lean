/-
# Tozalist.Js.Net -- address literals and `net.isIP`

The texts that `isIP` of `node:net` accepts: an IPv4 literal is four decimal bytes without
leading zeros, an IPv6 literal eight groups of one to four hexadecimal digits, where `::`
may stand for one or more groups of zeros, the last two groups may be written as an
IPv4 literal, and a zone index may follow behind `%`.

`Ipv6Form` is a literal without zone, taken apart; `isIPv6Address_iff` says that `isIP` accepts
exactly the texts of forms.
-/
import Mathlib.Algebra.Group.Nat.Defs
import Tozalist.Js.Text
import Tozalist.Theory.InternetAddress
import Mathlib.Data.List.Chain

namespace Tozalist.Js

set_option autoImplicit false

open Theory.InternetAddress

def colon : UInt16 := 0x3A

def dot : UInt16 := 0x2E

def percent : UInt16 := 0x25

/-! ## Pieces of a literal -/

/-- A hexadecimal digit, in either case. -/
def isHexDigit (u : UInt16) : Bool := isDigit u || (97 ≤ u && u ≤ 102) || (65 ≤ u && u ≤ 70)

/-- `toLowerCase` of one unit.  No letter beyond ASCII has a lower case that an address is
spelled with. -/
def lowerUnit (u : UInt16) : UInt16 := if 65 ≤ u ∧ u ≤ 90 then u + 32 else u

/-- `toLowerCase`, as far as addresses go. -/
def toLowerCase (s : JsString) : JsString := s.map lowerUnit

def hexValue (u : UInt16) : ℕ :=
  if isDigit u then u.toNat - 48 else if 97 ≤ u then u.toNat - 87 else u.toNat - 55

/-- `parseInt(s, 16)` of hexadecimal digits. -/
def parseHex (s : JsString) : ℕ := s.foldl (fun n u => n * 16 + hexValue u) 0

/-- One to four hexadecimal digits. -/
def isGroup (s : JsString) : Bool := 1 ≤ s.length && s.length ≤ 4 && s.all isHexDigit

/-- A byte in decimal, without leading zeros. -/
def isOctet (s : JsString) : Bool :=
  match toNat? s with
  | some n => n ≤ 255 && s == ofNat n
  | none => false

/-- `isIP(s) === 4`. -/
def isIPv4 (s : JsString) : Bool :=
  match split s dot with
  | [a, b, c, d] => isOctet a && isOctet b && isOctet c && isOctet d
  | _ => false

/-- The literal of an IPv4 address. -/
def quadText (q : Ipv4) : JsString :=
  join [ofNat q.a, ofNat q.b, ofNat q.c, ofNat q.d] dot

/-- How many groups parts stand for, the last of which may be an IPv4 literal. -/
def countParts : List JsString → Option ℕ
  | [] => some 0
  | [last] => if isGroup last then some 1 else if isIPv4 last then some 2 else none
  | part :: rest => if isGroup part then (countParts rest).map (· + 1) else none

/-- `s.split('::')`. -/
def splitDouble : JsString → List JsString
  | [] => [[]]
  | [u] => [[u]]
  | u :: v :: rest =>
      if u = colon ∧ v = colon then [] :: splitDouble rest
      else
        match splitDouble (v :: rest) with
        | [] => [[u]]
        | piece :: pieces => (u :: piece) :: pieces

/-- The parts of one side of a `::`; an empty side has none. -/
def sideParts (side : JsString) : List JsString := if side = [] then [] else split side colon

/-- An IPv6 literal without a zone. -/
def isIPv6Address (s : JsString) : Bool :=
  match splitDouble s with
  | [whole] => countParts (split whole colon) = some 8
  | [left, right] =>
      (sideParts left).all isGroup &&
        (match countParts (sideParts right) with
          | some n => (sideParts left).length + n ≤ 7
          | none => false)
  | _ => false

/-- A unit of a zone index. -/
def isZoneUnit (u : UInt16) : Bool :=
  isDigit u || (97 ≤ u && u ≤ 122) || (65 ≤ u && u ≤ 90) || u == 0x2D || u == dot || u == colon

/-- `isIP(s) === 6`. -/
def isIPv6 (s : JsString) : Bool :=
  isIPv6Address (s.takeWhile (· ≠ percent)) &&
    (match s.dropWhile (· ≠ percent) with
      | [] => true
      | _ :: zone => zone ≠ [] && zone.all isZoneUnit)

/-- `isIP`. -/
def isIP (s : JsString) : ℕ := if isIPv4 s then 4 else if isIPv6 s then 6 else 0

/-! ## Decimal bytes -/

theorem isOctet_iff {s : JsString} : isOctet s = true ↔ ∃ n : Fin 256, s = ofNat n := by
  unfold isOctet
  constructor
  · intro octet
    cases read : toNat? s with
    | none => simp [read] at octet
    | some n =>
        simp only [read, Bool.and_eq_true, decide_eq_true_eq, beq_iff_eq] at octet
        exact ⟨⟨n, by omega⟩, octet.2⟩
  · rintro ⟨n, rfl⟩
    simp only [toNat?_ofNat, Bool.and_eq_true, decide_eq_true_eq, beq_iff_eq, and_true]
    omega

theorem dot_not_mem_ofNat (n : ℕ) : dot ∉ ofNat n := not_mem_ofNat (by decide) n

theorem colon_not_mem_ofNat (n : ℕ) : colon ∉ ofNat n := not_mem_ofNat (by decide) n

theorem split_quadText (q : Ipv4) :
    split (quadText q) dot = [ofNat q.a, ofNat q.b, ofNat q.c, ofNat q.d] := by
  apply split_join (by simp)
  intro part member
  simp only [List.mem_cons, List.not_mem_nil, or_false] at member
  rcases member with rfl | rfl | rfl | rfl <;> exact dot_not_mem_ofNat _

/-- **An IPv4 literal is the text of an address.** -/
theorem isIPv4_iff {s : JsString} : isIPv4 s = true ↔ ∃ q, s = quadText q := by
  constructor
  · intro literal
    have joined := join_split s dot
    unfold isIPv4 at literal
    split at literal
    · rename_i a b c d parts
      simp only [Bool.and_eq_true, isOctet_iff] at literal
      obtain ⟨⟨⟨⟨a, rfl⟩, ⟨b, rfl⟩⟩, ⟨c, rfl⟩⟩, ⟨d, rfl⟩⟩ := literal
      rw [parts] at joined
      exact ⟨⟨a, b, c, d⟩, joined.symm⟩
    · cases literal
  · rintro ⟨q, rfl⟩
    unfold isIPv4
    simp only [split_quadText, Bool.and_eq_true, isOctet_iff]
    exact ⟨⟨⟨⟨q.a, rfl⟩, ⟨q.b, rfl⟩⟩, ⟨q.c, rfl⟩⟩, ⟨q.d, rfl⟩⟩

/-! ## Sides of a literal -/

/-- A part of an IPv6 literal: not empty, and without a colon. -/
def Plain (part : JsString) : Prop := part ≠ [] ∧ colon ∉ part

theorem plain_of_isGroup {part : JsString} (group : isGroup part = true) : Plain part := by
  simp only [isGroup, Bool.and_eq_true, decide_eq_true_eq] at group
  constructor
  · intro empty
    rw [empty] at group
    exact absurd group.1.1 (by decide)
  · intro member
    exact absurd (List.all_eq_true.1 group.2 colon member) (by decide)

theorem plain_quadText (q : Ipv4) : Plain (quadText q) := by
  constructor
  · intro empty
    have parts := split_quadText q
    rw [empty] at parts
    exact absurd (congrArg List.length parts) (by simp [split])
  · apply not_mem_join (by decide)
    intro part inside
    simp only [List.mem_cons, List.not_mem_nil, or_false] at inside
    rcases inside with rfl | rfl | rfl | rfl <;> exact colon_not_mem_ofNat _

/-- The literal of the last 32 bits, as a part. -/
def quadParts : Option Ipv4 → List JsString
  | none => []
  | some q => [quadText q]

/-- The groups of the last 32 bits. -/
def quadGroups : Option Ipv4 → List ℕ
  | none => []
  | some q => [q.high, q.low]

theorem countParts_group {part : JsString} (group : isGroup part = true) (rest : List JsString) :
    countParts (part :: rest) = (countParts rest).map (· + 1) := by
  cases rest with
  | nil => simp [countParts, group]
  | cons next rest => simp [countParts, group]

theorem countParts_other {part : JsString} {rest : List JsString} {n : ℕ}
    (other : isGroup part ≠ true) (counted : countParts (part :: rest) = some n) :
    rest = [] ∧ isIPv4 part = true ∧ n = 2 := by
  cases rest with
  | nil =>
      simp only [countParts, if_neg other] at counted
      split at counted
      · rename_i literal
        exact ⟨rfl, literal, (Option.some.inj counted).symm⟩
      · cases counted
  | cons next rest =>
      simp only [countParts, if_neg other] at counted
      cases counted

/-- The point of an IPv4 literal is no hexadecimal digit. -/
theorem not_isGroup_quadText (q : Ipv4) : isGroup (quadText q) ≠ true := by
  intro group
  have digits := (List.all_eq_true.1 (Bool.and_eq_true_iff.1 group).2) dot
  have inside : dot ∈ quadText q := by
    rw [quadText, join_cons_cons]
    simp
  exact absurd (digits inside) (by decide)

theorem countParts_append {gs : List JsString} (groups : ∀ g ∈ gs, isGroup g = true)
    (quad : Option Ipv4) :
    countParts (gs ++ quadParts quad) = some (gs.length + (quadGroups quad).length) := by
  induction gs with
  | nil =>
      cases quad with
      | none => rfl
      | some q =>
          have literal := isIPv4_iff.2 ⟨q, rfl⟩
          simp [quadParts, countParts, not_isGroup_quadText, literal, quadGroups]
  | cons g gs ih =>
      obtain ⟨here, rest⟩ := List.forall_mem_cons.1 groups
      rw [List.cons_append, countParts_group here, ih rest, Option.map_some, List.length_cons]
      congr 1
      omega

/-- **Parts that count** are groups, and perhaps an IPv4 literal behind them. -/
theorem eq_append_of_countParts {parts : List JsString} {n : ℕ}
    (counted : countParts parts = some n) :
    ∃ gs quad, parts = gs ++ quadParts quad ∧ (∀ g ∈ gs, isGroup g = true) ∧
      n = gs.length + (quadGroups quad).length := by
  induction parts generalizing n with
  | nil => exact ⟨[], none, rfl, nofun, (Option.some.inj counted).symm⟩
  | cons part rest ih =>
      by_cases group : isGroup part = true
      · rw [countParts_group group] at counted
        obtain ⟨m, before, rfl⟩ := Option.map_eq_some_iff.1 counted
        obtain ⟨gs, quad, rfl, groups, rfl⟩ := ih before
        refine ⟨part :: gs, quad, rfl, List.forall_mem_cons.2 ⟨group, groups⟩, ?_⟩
        rw [List.length_cons]
        omega
      · obtain ⟨rfl, literal, rfl⟩ := countParts_other group counted
        obtain ⟨q, rfl⟩ := isIPv4_iff.1 literal
        exact ⟨[], some q, rfl, nofun, rfl⟩

/-! ## Cutting at `::` -/

theorem splitDouble_ne_nil (s : JsString) : splitDouble s ≠ [] := by
  induction s using splitDouble.induct with
  | case1 => simp [splitDouble]
  | case2 u => simp [splitDouble]
  | case3 u v rest both ih => simp [splitDouble, both]
  | case4 u v rest both none_ ih => simp [splitDouble, both, none_]
  | case5 u v rest both piece pieces is ih => simp [splitDouble, both, is]

/-- A unit that is not followed by another colon goes to the first piece. -/
theorem splitDouble_cons {u v : UInt16} {rest : JsString} (single : ¬ (u = colon ∧ v = colon)) :
    splitDouble (u :: v :: rest) =
      (splitDouble (v :: rest)).modifyHead (u :: ·) := by
  rw [splitDouble, if_neg single]
  cases pieces : splitDouble (v :: rest) with
  | nil => exact absurd pieces (splitDouble_ne_nil _)
  | cons piece pieces => rfl

/-- Without `::`: no two colons in a row. -/
def Single (s : JsString) : Prop := s.IsChain fun u v => ¬ (u = colon ∧ v = colon)

theorem splitDouble_of_single {s : JsString} (single : Single s) : splitDouble s = [s] := by
  induction s with
  | nil => rfl
  | cons u s ih =>
      cases s with
      | nil => rfl
      | cons v rest =>
          obtain ⟨here, later⟩ := List.isChain_cons_cons.1 single
          rw [splitDouble_cons here, ih later]
          rfl

/-- The first `::` of a text. -/
theorem splitDouble_append {left : JsString} (single : Single left)
    (last : left.getLast? ≠ some colon) (right : JsString) :
    splitDouble (left ++ colon :: colon :: right) = left :: splitDouble right := by
  induction left with
  | nil => simp [splitDouble]
  | cons u left ih =>
      cases left with
      | nil =>
          have other : ¬ (u = colon ∧ colon = colon) := fun both => last (by simp [both.1])
          rw [List.cons_append, List.nil_append, splitDouble_cons other]
          simp [splitDouble]
      | cons v rest =>
          obtain ⟨here, later⟩ := List.isChain_cons_cons.1 single
          have tail := ih later (by simpa using last)
          rw [List.cons_append, List.cons_append, splitDouble_cons here, ← List.cons_append, tail]
          rfl

/-- The pieces make up the text. -/
theorem intercalate_splitDouble (s : JsString) : [colon, colon].intercalate (splitDouble s) = s := by
  induction s using splitDouble.induct with
  | case1 => rfl
  | case2 u => rfl
  | case3 u v rest both ih =>
      obtain ⟨rfl, rfl⟩ := both
      obtain ⟨piece, pieces, is⟩ := List.exists_cons_of_ne_nil (splitDouble_ne_nil rest)
      rw [splitDouble, if_pos ⟨rfl, rfl⟩]
      rw [is] at ih ⊢
      rw [List.intercalate_cons_cons, ih]
      rfl
  | case4 u v rest both none_ ih => exact absurd none_ (splitDouble_ne_nil _)
  | case5 u v rest both piece pieces is ih =>
      rw [splitDouble_cons both]
      rw [is] at ih ⊢
      rw [← ih]
      cases pieces with
      | nil => simp [List.intercalate]
      | cons next pieces => simp [List.intercalate_cons_cons]

/-! ## Forms -/

/-- An IPv6 literal without a zone: the groups before `::` (or all of them), the groups
behind it, and the last 32 bits when they are written as an IPv4 literal. -/
structure Ipv6Form where
  left : List JsString
  right : Option (List JsString)
  quad : Option Ipv4
  leftGroups : ∀ g ∈ left, isGroup g = true
  rightGroups : ∀ r ∈ right, ∀ g ∈ r, isGroup g = true
  size : (right = none → left.length + (quadGroups quad).length = 8) ∧
    ∀ r ∈ right, left.length + r.length + (quadGroups quad).length ≤ 7

namespace Ipv6Form

/-- The literal. -/
def text (form : Ipv6Form) : JsString :=
  match form.right with
  | none => join (form.left ++ quadParts form.quad) colon
  | some r => join form.left colon ++ colon :: colon :: join (r ++ quadParts form.quad) colon

/-- The groups it stands for. -/
def values (form : Ipv6Form) : List ℕ :=
  match form.right with
  | none => form.left.map parseHex ++ quadGroups form.quad
  | some r => form.left.map parseHex ++
      List.replicate (8 - form.left.length - r.length - (quadGroups form.quad).length) 0 ++
        r.map parseHex ++ quadGroups form.quad

theorem text_whole {form : Ipv6Form} (behind : form.right = none) :
    form.text = join (form.left ++ quadParts form.quad) colon := by
  rw [text, behind]

theorem text_double {form : Ipv6Form} {r : List JsString} (behind : form.right = some r) :
    form.text =
      join form.left colon ++ colon :: colon :: join (r ++ quadParts form.quad) colon := by
  rw [text, behind]

theorem values_whole {form : Ipv6Form} (behind : form.right = none) :
    form.values = form.left.map parseHex ++ quadGroups form.quad := by
  rw [values, behind]

theorem values_double {form : Ipv6Form} {r : List JsString} (behind : form.right = some r) :
    form.values = form.left.map parseHex ++
      List.replicate (8 - form.left.length - r.length - (quadGroups form.quad).length) 0 ++
        r.map parseHex ++ quadGroups form.quad := by
  rw [values, behind]

/-- The address it stands for. -/
def address (form : Ipv6Form) : Ipv6 := Ipv6.ofGroups form.values

/-- `::` is followed by the IPv4 literal. -/
def Glued (form : Ipv6Form) : Prop := form.right = some [] ∧ form.quad ≠ none

instance (form : Ipv6Form) : Decidable form.Glued := inferInstanceAs (Decidable (_ ∧ _))

end Ipv6Form

theorem hexValue_lt {u : UInt16} (digit : isHexDigit u = true) : hexValue u < 16 := by
  simp only [isHexDigit, isDigit, Bool.or_eq_true, Bool.and_eq_true, decide_eq_true_eq,
    UInt16.le_iff_toNat_le] at digit
  simp only [hexValue, isDigit, Bool.and_eq_true, decide_eq_true_eq, UInt16.le_iff_toNat_le]
  have forty8 : (48 : UInt16).toNat = 48 := rfl
  have fifty7 : (57 : UInt16).toNat = 57 := rfl
  have a : (97 : UInt16).toNat = 97 := rfl
  have f : (102 : UInt16).toNat = 102 := rfl
  have upperA : (65 : UInt16).toNat = 65 := rfl
  have upperF : (70 : UInt16).toNat = 70 := rfl
  split
  · omega
  · split <;> omega

theorem foldl_hexValue_lt {s : JsString} (digits : ∀ u ∈ s, isHexDigit u = true) (n : ℕ) :
    s.foldl (fun n u => n * 16 + hexValue u) n < (n + 1) * 16 ^ s.length := by
  induction s generalizing n with
  | nil => simp
  | cons u s ih =>
      obtain ⟨here, rest⟩ := List.forall_mem_cons.1 digits
      have value := hexValue_lt here
      calc (u :: s).foldl (fun n u => n * 16 + hexValue u) n
          < (n * 16 + hexValue u + 1) * 16 ^ s.length := ih rest _
        _ ≤ ((n + 1) * 16) * 16 ^ s.length := Nat.mul_le_mul_right _ (by omega)
        _ = (n + 1) * 16 ^ (u :: s).length := by rw [List.length_cons, Nat.pow_succ', Nat.mul_assoc]

/-- Groups are below 2^16. -/
theorem parseHex_lt {s : JsString} (group : isGroup s = true) : parseHex s < 65536 := by
  simp only [isGroup, Bool.and_eq_true, decide_eq_true_eq, List.all_eq_true] at group
  have bound := foldl_hexValue_lt group.2 0
  have power : 16 ^ s.length ≤ 16 ^ 4 := Nat.pow_le_pow_right (by decide) group.1.2
  unfold parseHex
  omega

theorem quadGroups_lt {quad : Option Ipv4} {g : ℕ} (member : g ∈ quadGroups quad) : g < 65536 := by
  cases quad with
  | none => cases member
  | some q =>
      simp only [quadGroups, List.mem_cons, List.not_mem_nil, or_false, Ipv4.high, Ipv4.low] at member
      omega

/-- **A form stands for its eight groups.** -/
theorem Ipv6Form.groups_address (form : Ipv6Form) : form.address.groups = form.values := by
  apply Ipv6.groups_ofGroups
  · unfold values
    have size := form.size
    cases behind : form.right with
    | none =>
        have eight := size.1 behind
        simp only [List.length_append, List.length_map]
        exact eight
    | some r =>
        have seven := size.2 r behind
        simp only [List.length_append, List.length_map, List.length_replicate]
        omega
  · intro g member
    have groups : ∀ gs : List JsString, (∀ s ∈ gs, isGroup s = true) → g ∈ gs.map parseHex →
        g < 65536 := by
      intro gs all inside
      obtain ⟨s, listed, rfl⟩ := List.mem_map.1 inside
      exact parseHex_lt (all s listed)
    unfold values at member
    cases behind : form.right with
    | none =>
        simp only [behind, List.mem_append] at member
        rcases member with inside | inside
        · exact groups _ form.leftGroups inside
        · exact quadGroups_lt inside
    | some r =>
        simp only [behind, List.mem_append] at member
        rcases member with ((inside | zero) | inside) | inside
        · exact groups _ form.leftGroups inside
        · rw [List.eq_of_mem_replicate zero]
          decide
        · exact groups _ (form.rightGroups r behind) inside
        · exact quadGroups_lt inside

/-! ## Forms and `isIP` -/

theorem single_of_free {s : JsString} (free : colon ∉ s) : Single s := by
  induction s with
  | nil => exact List.IsChain.nil
  | cons u s ih =>
      cases s with
      | nil => exact List.isChain_singleton u
      | cons v rest =>
          refine List.isChain_cons_cons.2 ⟨fun both => free ?_, ih fun member => free ?_⟩
          · rw [← both.1]
            exact List.mem_cons_self
          · exact List.mem_cons_of_mem u member

/-- Joined plain parts have no `::`, and neither begin nor end with a colon. -/
theorem single_join {parts : List JsString} (plain : ∀ part ∈ parts, Plain part) :
    Single (join parts colon) ∧ (join parts colon).getLast? ≠ some colon ∧
      (join parts colon).head? ≠ some colon := by
  induction parts with
  | nil => exact ⟨List.IsChain.nil, nofun, nofun⟩
  | cons part parts ih =>
      obtain ⟨here, rest⟩ := List.forall_mem_cons.1 plain
      obtain ⟨single, last, head⟩ := ih rest
      have first : part.head? ≠ some colon := fun is => here.2 (List.mem_of_mem_head? is)
      cases parts with
      | nil =>
          rw [join_singleton]
          exact ⟨single_of_free here.2, fun is => here.2 (List.mem_of_getLast? is), first⟩
      | cons next parts =>
          have filled := @join_ne_nil (next :: parts) colon (List.cons_ne_nil next parts)
            fun part member => (rest part member).1
          rw [join_cons_cons]
          refine ⟨List.isChain_append.2 ⟨single_of_free here.2, ?_, ?_⟩, ?_, ?_⟩
          · obtain ⟨u, units, is⟩ := List.exists_cons_of_ne_nil filled
            rw [is] at single head ⊢
            exact List.isChain_cons_cons.2 ⟨fun both => head (by rw [both.2]; rfl), single⟩
          · intro u isLast v _ both
            exact here.2 (both.1 ▸ List.mem_of_getLast? isLast)
          · rw [List.getLast?_append_cons, List.getLast?_cons_of_ne_nil filled]
            exact last
          · rw [List.head?_append_of_ne_nil _ here.1]
            exact first

theorem plain_parts {gs : List JsString} (groups : ∀ g ∈ gs, isGroup g = true)
    (quad : Option Ipv4) : ∀ part ∈ gs ++ quadParts quad, Plain part := by
  intro part member
  rcases List.mem_append.1 member with inside | inside
  · exact plain_of_isGroup (groups part inside)
  · cases quad with
    | none => cases inside
    | some q =>
        obtain rfl := List.mem_singleton.1 inside
        exact plain_quadText q

/-- A side of plain parts is split into them. -/
theorem sideParts_join {parts : List JsString} (plain : ∀ part ∈ parts, Plain part) :
    sideParts (join parts colon) = parts := by
  by_cases none_ : parts = []
  · rw [none_]
    rfl
  · rw [sideParts, if_neg (join_ne_nil none_ fun part member => (plain part member).1)]
    exact split_join none_ fun part member => (plain part member).2

namespace Ipv6Form

theorem splitDouble_text (form : Ipv6Form) :
    splitDouble form.text =
      match form.right with
      | none => [join (form.left ++ quadParts form.quad) colon]
      | some r => [join form.left colon, join (r ++ quadParts form.quad) colon] := by
  have left := single_join fun g member => plain_of_isGroup (form.leftGroups g member)
  unfold text
  cases behind : form.right with
  | none => exact splitDouble_of_single (single_join (plain_parts form.leftGroups form.quad)).1
  | some r =>
      have right := single_join (plain_parts (form.rightGroups r behind) form.quad)
      simp only []
      rw [splitDouble_append left.1 left.2.1, splitDouble_of_single right.1]

/-- **`isIP` accepts a form.** -/
theorem isIPv6Address_text (form : Ipv6Form) : isIPv6Address form.text = true := by
  have size := form.size
  unfold isIPv6Address
  rw [splitDouble_text]
  cases behind : form.right with
  | none =>
      have eight := size.1 behind
      have plain := plain_parts form.leftGroups form.quad
      have some_ : form.left ++ quadParts form.quad ≠ [] := by
        intro empty
        obtain ⟨noLeft, noQuad⟩ := List.append_eq_nil_iff.1 empty
        rw [noLeft] at eight
        cases quad : form.quad with
        | none => rw [quad] at eight; cases eight
        | some q => rw [quad] at noQuad; cases noQuad
      simp only [split_join some_ fun part member => (plain part member).2,
        countParts_append form.leftGroups, eight, decide_true]
  | some r =>
      have seven := size.2 r behind
      have plainLeft : ∀ part ∈ form.left, Plain part := fun g member =>
        plain_of_isGroup (form.leftGroups g member)
      simp only [sideParts_join plainLeft, sideParts_join (plain_parts (form.rightGroups r behind) _),
        countParts_append (form.rightGroups r behind), Bool.and_eq_true, List.all_eq_true,
        decide_eq_true_eq]
      exact ⟨form.leftGroups, by omega⟩

/-- **What `isIP` accepts without a zone is the text of a form.** -/
theorem exists_of_isIPv6Address {s : JsString} (accepted : isIPv6Address s = true) :
    ∃ form : Ipv6Form, form.text = s := by
  have whole_ := intercalate_splitDouble s
  unfold isIPv6Address at accepted
  split at accepted
  · rename_i whole pieces
    rw [pieces, List.intercalate_singleton] at whole_
    obtain ⟨gs, quad, parts, groups, eight⟩ :=
      eq_append_of_countParts (of_decide_eq_true accepted)
    refine ⟨⟨gs, none, quad, groups, nofun, fun _ => eight.symm, nofun⟩, ?_⟩
    rw [text, ← parts, join_split, whole_]
  · rename_i left right pieces
    rw [pieces] at whole_
    simp only [Bool.and_eq_true, List.all_eq_true] at accepted
    obtain ⟨groups, fits⟩ := accepted
    split at fits
    · rename_i n counted
      obtain ⟨gs, quad, parts, rightGroups, rfl⟩ := eq_append_of_countParts counted
      have side : ∀ side : JsString, join (sideParts side) colon = side := by
        intro side
        unfold sideParts
        split
        · rename_i empty
          rw [empty]
          rfl
        · exact join_split side colon
      refine ⟨⟨sideParts left, some gs, quad, groups, ?_, nofun, ?_⟩, ?_⟩
      · rintro _ ⟨⟩
        exact rightGroups
      · rintro _ ⟨⟩
        have seven := of_decide_eq_true fits
        omega
      · simp only [text, ← parts, side]
        rw [← whole_]
        simp [List.intercalate]
    · cases fits
  · cases accepted

end Ipv6Form

/-- **`isIP` accepts exactly the texts of forms**, as far as no zone is given. -/
theorem isIPv6Address_iff {s : JsString} :
    isIPv6Address s = true ↔ ∃ form : Ipv6Form, form.text = s := by
  constructor
  · exact Ipv6Form.exists_of_isIPv6Address
  · rintro ⟨form, rfl⟩
    exact form.isIPv6Address_text

/-! ## The units of a form -/

/-- What a literal is spelled with. -/
def Spells (u : UInt16) : Prop := isHexDigit u = true ∨ u = colon ∨ u = dot

theorem spells_of_isGroup {part : JsString} (group : isGroup part = true) :
    ∀ u ∈ part, Spells u := by
  simp only [isGroup, Bool.and_eq_true, List.all_eq_true] at group
  exact fun u member => .inl (group.2 u member)

theorem spells_ofNat (n : ℕ) : ∀ u ∈ ofNat n, Spells u := by
  intro u member
  have digit := List.all_eq_true.1 (ofNat_all_isDigit n) u member
  exact .inl (by simp [isHexDigit, digit])

theorem spells_quadText (q : Ipv4) : ∀ u ∈ quadText q, Spells u := by
  refine forall_mem_join (.inr (.inr rfl)) fun part inside => ?_
  simp only [List.mem_cons, List.not_mem_nil, or_false] at inside
  rcases inside with rfl | rfl | rfl | rfl <;> exact spells_ofNat _

theorem spells_parts {gs : List JsString} (groups : ∀ g ∈ gs, isGroup g = true)
    (quad : Option Ipv4) : ∀ u ∈ join (gs ++ quadParts quad) colon, Spells u := by
  refine forall_mem_join (.inr (.inl rfl)) fun part member => ?_
  rcases List.mem_append.1 member with inside | inside
  · exact spells_of_isGroup (groups part inside)
  · cases quad with
    | none => cases inside
    | some q =>
        obtain rfl := List.mem_singleton.1 inside
        exact spells_quadText q

theorem spells_groups {gs : List JsString} (groups : ∀ g ∈ gs, isGroup g = true) :
    ∀ u ∈ join gs colon, Spells u := by
  have spells := spells_parts groups none
  rwa [quadParts, List.append_nil] at spells

theorem last_groups {gs : List JsString} (groups : ∀ g ∈ gs, isGroup g = true) :
    (join gs colon).getLast? ≠ some colon :=
  (single_join fun g member => plain_of_isGroup (groups g member)).2.1

namespace Ipv6Form

theorem spells_text (form : Ipv6Form) : ∀ u ∈ form.text, Spells u := by
  unfold text
  cases behind : form.right with
  | none => exact spells_parts form.leftGroups form.quad
  | some r =>
      intro u member
      simp only [List.mem_append, List.mem_cons] at member
      rcases member with inside | rfl | rfl | inside
      · exact spells_groups form.leftGroups u inside
      · exact .inr (.inl rfl)
      · exact .inr (.inl rfl)
      · exact spells_parts (form.rightGroups r behind) form.quad u inside

/-- A form has a colon. -/
theorem colon_mem_text (form : Ipv6Form) : colon ∈ form.text := by
  unfold text
  cases behind : form.right with
  | some r => simp
  | none =>
      have eight := form.size.1 behind
      cases first : form.left with
      | nil => cases quad : form.quad <;> simp [first, quad, quadGroups] at eight
      | cons g gs =>
          cases gs with
          | nil =>
              cases quad : form.quad <;> simp [first, quad, quadGroups] at eight
          | cons next gs =>
              simp only [List.cons_append, join_cons_cons]
              simp

end Ipv6Form

theorem hexDigit_bounds {u : UInt16} (digit : isHexDigit u = true) :
    (48 ≤ u.toNat ∧ u.toNat ≤ 57) ∨ (97 ≤ u.toNat ∧ u.toNat ≤ 102) ∨
      (65 ≤ u.toNat ∧ u.toNat ≤ 70) := by
  simp only [isHexDigit, isDigit, Bool.or_eq_true, Bool.and_eq_true, decide_eq_true_eq,
    UInt16.le_iff_toNat_le] at digit
  rcases digit with (digit | lower) | upper
  · exact .inl digit
  · exact .inr (.inl lower)
  · exact .inr (.inr upper)

end Tozalist.Js
