/-
# Tozalist.Shared.Ssrf -- which addresses a webhook may reach

`packages/shared/src/ssrf.ts`: `isPrivateAddress` with its IPv6 expander
`canonicalizeIpv6`, and `checkWebhookHost`.

The expander cuts a dotted tail off together with the colon before it.  Where that colon
is the second one of `::`, the `::` is gone, too few groups are left and the text counts as
private; every other literal is expanded to its groups (`canonicalizeIpv6_text`).

* `ListedV4`, `ListedV6` -- the ranges the test names;
* `isPrivateAddress_text` -- which literals it refuses;
* `spelling_iff` -- when two spellings of one address are told alike.
-/
import Tozalist.Js.Net
import Mathlib.Data.List.TakeWhile

namespace Tozalist.Shared

set_option autoImplicit false

open Js
open Theory.InternetAddress

/-! ## Expanding -/

/-- `\d+` -/
def isDigits (s : JsString) : Bool := s ≠ [] && s.all isDigit

/-- `.` matches no line terminator. -/
def isLineTerminator (u : UInt16) : Bool := u == 0x0A || u == 0x0D || u == 0x2028 || u == 0x2029

/-- `/^(.*):(\d+\.\d+\.\d+\.\d+)$/`.  The second group has no colon, so the colon is the last
one of the text. -/
def dottedTail (s : JsString) : Option (JsString × JsString) :=
  let tail := (s.reverse.takeWhile (· ≠ colon)).reverse
  match s.reverse.dropWhile (· ≠ colon) with
  | [] => none
  | _ :: head =>
      if head.all (fun u => !isLineTerminator u) then
        match split tail dot with
        | [a, b, c, d] =>
            if isDigits a && isDigits b && isDigits c && isDigits d then some (head.reverse, tail)
            else none
        | _ => none
      else none

/-- `/^[0-9a-f]{1,4}$/` -/
def isLowerGroup (s : JsString) : Bool :=
  1 ≤ s.length && s.length ≤ 4 && s.all fun u => isDigit u || (97 ≤ u && u ≤ 102)

/-- `expand`. -/
def expand (side : JsString) : Option (List ℕ) :=
  if side = [] then some []
  else (split side colon).mapM fun part => if isLowerGroup part then some (parseHex part) else none

/-- `groups`: those of a head, filled up at its `::`, and those of the dotted tail. -/
def gather (head : JsString) (tailGroups : List ℕ) : Option (List ℕ) :=
  match splitDouble head with
  | [_] => (expand head).map (· ++ tailGroups)
  | [l, r] =>
      match expand l, expand r with
      | some left, some right =>
          if 8 < tailGroups.length + left.length + right.length then none
          else
            some (left ++ List.replicate (8 - tailGroups.length - left.length - right.length) 0 ++
              right ++ tailGroups)
      | _, _ => none
  | _ => none

/-- `groups.length === 8 ? groups : null` -/
def assemble (head : JsString) (tailGroups : List ℕ) : Option (List ℕ) :=
  (gather head tailGroups).filter (·.length = 8)

/-- `head.endsWith(':') && !head.endsWith('::')`, and then `head.slice(0, -1)`. -/
def dropColon (head : JsString) : JsString :=
  if [colon].isSuffixOf head && !([colon, colon].isSuffixOf head) then head.dropLast else head

/-- `canonicalizeIpv6`. -/
def canonicalizeIpv6 (ip : JsString) : Option (List ℕ) :=
  if percent ∈ ip then none
  else
    match dottedTail ip with
    | none => assemble ip []
    | some (head, quad) =>
        match (split quad dot).map toNat? with
        | [some a, some b, some c, some d] =>
            if a ≤ 255 ∧ b ≤ 255 ∧ c ≤ 255 ∧ d ≤ 255 then
              assemble (dropColon head) [a <<< 8 ||| b, c <<< 8 ||| d]
            else none
        | _ => none

/-! ## Classifying -/

/-- `isPrivateIpv4`.  A part that is not decimal digits is not read as a number here. -/
def isPrivateIpv4 (ip : JsString) : Bool :=
  match (split ip dot).map toNat? with
  | [some a, some b, some c, some d] =>
      if 255 < a ∨ 255 < b ∨ 255 < c ∨ 255 < d then true
      else
        a = 10 || (a = 172 && b ≥ 16 && b ≤ 31) || (a = 192 && b = 168) || a = 127 ||
          (a = 169 && b = 254) || a = 0
  | _ => true

/-- `isPrivateIpv6Canonical`. -/
def isPrivateIpv6Canonical (groups : List ℕ) : Bool :=
  match groups with
  | [g0, g1, g2, g3, g4, g5, g6, g7] =>
      if g0 = 0 ∧ g1 = 0 ∧ g2 = 0 ∧ g3 = 0 ∧ g4 = 0 ∧ g5 = 0 ∧ g6 = 0 ∧ g7 = 1 then true
      else if g0 = 0 ∧ g1 = 0 ∧ g2 = 0 ∧ g3 = 0 ∧ g4 = 0 ∧ g5 = 0xffff then
        isPrivateIpv4 (join [ofNat (g6 >>> 8), ofNat (g6 &&& 0xff), ofNat (g7 >>> 8),
          ofNat (g7 &&& 0xff)] dot)
      else g0 &&& 0xfe00 = 0xfc00 || g0 &&& 0xffc0 = 0xfe80
  | _ => false

/-- `isPrivateAddress`. -/
def isPrivateAddress (ip : JsString) : Bool :=
  let normalized := toLowerCase (trim ip)
  if isIP normalized = 4 then isPrivateIpv4 normalized
  else if isIP normalized = 6 then
    match canonicalizeIpv6 normalized with
    | none => true
    | some groups => isPrivateIpv6Canonical groups
  else true

/-! ## Checking a host -/

/-- The reasons of an `SsrfCheck`. -/
inductive SsrfReason where
  | unresolvable
  | privateAddress
  deriving DecidableEq, Repr

/-- `SsrfCheck`. -/
inductive SsrfCheck where
  | ok (addresses : List JsString)
  | refused (reason : SsrfReason)
  deriving DecidableEq, Repr

/-- `checkWebhookHost`; `answer` is what the resolver returns, and `none` is its throwing. -/
def checkWebhookHost (hostname : JsString) (answer : Option (List JsString)) : SsrfCheck :=
  if isIP hostname ≠ 0 then
    if isPrivateAddress hostname then .refused .privateAddress else .ok [hostname]
  else
    match answer with
    | none => .refused .unresolvable
    | some addresses =>
        if addresses.length = 0 then .refused .unresolvable
        else if addresses.any isPrivateAddress then .refused .privateAddress
        else .ok addresses

/-! ## Lower-casing a form -/

theorem lowerUnit_hexDigit {u : UInt16} (digit : isHexDigit u = true) :
    (isDigit (lowerUnit u) || (97 ≤ lowerUnit u && lowerUnit u ≤ 102)) = true ∧
      hexValue (lowerUnit u) = hexValue u := by
  have bounds := hexDigit_bounds digit
  have forty8 : (48 : UInt16).toNat = 48 := rfl
  have fifty7 : (57 : UInt16).toNat = 57 := rfl
  have a : (97 : UInt16).toNat = 97 := rfl
  have f : (102 : UInt16).toNat = 102 := rfl
  have upperA : (65 : UInt16).toNat = 65 := rfl
  have upperZ : (90 : UInt16).toNat = 90 := rfl
  have shift : (32 : UInt16).toNat = 32 := rfl
  have moved : u.toNat ≤ 90 → (u + 32).toNat = u.toNat + 32 := by
    intro small
    rw [UInt16.toNat_add, shift, Nat.mod_eq_of_lt (by omega)]
  simp only [lowerUnit, hexValue, isDigit, Bool.or_eq_true, Bool.and_eq_true, decide_eq_true_eq,
    UInt16.le_iff_toNat_le]
  split
  · rename_i upper
    have value := moved (by omega)
    refine ⟨by omega, ?_⟩
    rw [if_neg (by omega), if_pos (by omega), if_neg (by omega), if_neg (by omega)]
    omega
  · constructor
    · omega
    · rfl

theorem isLowerGroup_toLowerCase {g : JsString} (group : isGroup g = true) :
    isLowerGroup (toLowerCase g) = true := by
  simp only [isGroup, Bool.and_eq_true, decide_eq_true_eq, List.all_eq_true] at group
  simp only [isLowerGroup, toLowerCase, List.length_map, Bool.and_eq_true, decide_eq_true_eq,
    List.all_eq_true, List.mem_map]
  refine ⟨group.1, ?_⟩
  rintro _ ⟨u, member, rfl⟩
  exact (lowerUnit_hexDigit (group.2 u member)).1

theorem parseHex_toLowerCase {g : JsString} (group : isGroup g = true) :
    parseHex (toLowerCase g) = parseHex g := by
  simp only [isGroup, Bool.and_eq_true, List.all_eq_true] at group
  unfold parseHex toLowerCase
  rw [List.foldl_map]
  apply List.foldl_ext
  intro n u member
  rw [(lowerUnit_hexDigit (group.2 u member)).2]

theorem isGroup_of_isLowerGroup {g : JsString} (group : isLowerGroup g = true) :
    isGroup g = true := by
  simp only [isLowerGroup, Bool.and_eq_true, decide_eq_true_eq, List.all_eq_true] at group
  simp only [isGroup, Bool.and_eq_true, decide_eq_true_eq, List.all_eq_true]
  refine ⟨group.1, ?_⟩
  intro u member
  have lower := group.2 u member
  simp only [isHexDigit, Bool.or_eq_true] at lower ⊢
  exact .inl lower

theorem toLowerCase_join (parts : List JsString) :
    toLowerCase (join parts colon) = join (parts.map toLowerCase) colon := by
  induction parts with
  | nil => rfl
  | cons part parts ih =>
      cases parts with
      | nil => rw [List.map_singleton, join_singleton, join_singleton]
      | cons next parts =>
          rw [List.map_cons, List.map_cons, join_cons_cons, join_cons_cons]
          rw [List.map_cons] at ih
          rw [← ih]
          simp [toLowerCase, lowerUnit, colon]

/-- Digits and points have no case. -/
theorem toLowerCase_quadText (q : Ipv4) : toLowerCase (quadText q) = quadText q := by
  have same : ∀ u ∈ quadText q, lowerUnit u = u := by
    refine forall_mem_join (by decide) fun part inside u member => ?_
    have digit : isDigit u = true := by
      simp only [List.mem_cons, List.not_mem_nil, or_false] at inside
      rcases inside with rfl | rfl | rfl | rfl <;>
        exact List.all_eq_true.1 (ofNat_all_isDigit _) u member
    simp only [isDigit, Bool.and_eq_true, decide_eq_true_eq, UInt16.le_iff_toNat_le] at digit
    rw [lowerUnit, if_neg]
    rw [UInt16.le_iff_toNat_le]
    have fifty7 : (57 : UInt16).toNat = 57 := rfl
    have upperA : (65 : UInt16).toNat = 65 := rfl
    omega
  unfold toLowerCase
  rw [List.map_congr_left same, List.map_id']

/-- A form in lower case. -/
def Small (form : Ipv6Form) : Prop :=
  (∀ g ∈ form.left, isLowerGroup g = true) ∧
    ∀ r ∈ form.right, ∀ g ∈ r, isLowerGroup g = true

theorem isLowerGroup_map {gs : List JsString} (groups : ∀ g ∈ gs, isGroup g = true) :
    ∀ g ∈ gs.map toLowerCase, isLowerGroup g = true := by
  intro g member
  obtain ⟨s, listed, rfl⟩ := List.mem_map.1 member
  exact isLowerGroup_toLowerCase (groups s listed)

theorem map_parseHex_toLowerCase {gs : List JsString} (groups : ∀ g ∈ gs, isGroup g = true) :
    (gs.map toLowerCase).map parseHex = gs.map parseHex := by
  rw [List.map_map]
  exact List.map_congr_left fun g member => parseHex_toLowerCase (groups g member)

theorem rightGroups_lower (form : Ipv6Form) :
    ∀ r ∈ form.right.map (·.map toLowerCase), ∀ g ∈ r, isLowerGroup g = true := by
  intro r member
  obtain ⟨r, behind, rfl⟩ := Option.map_eq_some_iff.1 member
  exact isLowerGroup_map (form.rightGroups r behind)

theorem size_lower (form : Ipv6Form) :
    (form.right.map (·.map toLowerCase) = none →
      (form.left.map toLowerCase).length + (quadGroups form.quad).length = 8) ∧
    ∀ r ∈ form.right.map (·.map toLowerCase),
      (form.left.map toLowerCase).length + r.length + (quadGroups form.quad).length ≤ 7 := by
  constructor
  · intro whole
    rw [List.length_map]
    exact form.size.1 (Option.map_eq_none_iff.1 whole)
  · intro r member
    obtain ⟨r, behind, rfl⟩ := Option.map_eq_some_iff.1 member
    rw [List.length_map, List.length_map]
    exact form.size.2 r behind

/-- The form in lower case. -/
def lower (form : Ipv6Form) : Ipv6Form where
  left := form.left.map toLowerCase
  right := form.right.map (·.map toLowerCase)
  quad := form.quad
  leftGroups := fun g member => isGroup_of_isLowerGroup (isLowerGroup_map form.leftGroups g member)
  rightGroups := fun r behind g member =>
    isGroup_of_isLowerGroup (rightGroups_lower form r behind g member)
  size := size_lower form

theorem small_lower (form : Ipv6Form) : Small (lower form) :=
  ⟨isLowerGroup_map form.leftGroups, rightGroups_lower form⟩

theorem lower_left (form : Ipv6Form) : (lower form).left = form.left.map toLowerCase := rfl

theorem lower_right (form : Ipv6Form) :
    (lower form).right = form.right.map (·.map toLowerCase) := rfl

theorem lower_quad (form : Ipv6Form) : (lower form).quad = form.quad := rfl

theorem quadParts_lower (quad : Option Ipv4) :
    (quadParts quad).map toLowerCase = quadParts quad := by
  cases quad with
  | none => rfl
  | some q => rw [quadParts, List.map_singleton, toLowerCase_quadText]

theorem toLowerCase_text (form : Ipv6Form) : toLowerCase form.text = (lower form).text := by
  unfold Ipv6Form.text
  rw [lower_left, lower_right, lower_quad]
  cases form.right with
  | none => simp only [Option.map_none, toLowerCase_join, List.map_append, quadParts_lower]
  | some r =>
      simp only [Option.map_some]
      rw [← quadParts_lower form.quad, ← List.map_append, ← toLowerCase_join, ← toLowerCase_join,
        quadParts_lower]
      simp [toLowerCase, lowerUnit, colon]

theorem values_lower (form : Ipv6Form) : (lower form).values = form.values := by
  unfold Ipv6Form.values
  rw [lower_left, lower_right, lower_quad]
  cases behind : form.right with
  | none => simp only [Option.map_none, map_parseHex_toLowerCase form.leftGroups]
  | some r =>
      simp only [Option.map_some, map_parseHex_toLowerCase form.leftGroups,
        map_parseHex_toLowerCase (form.rightGroups r behind), List.length_map]

theorem glued_lower (form : Ipv6Form) : (lower form).Glued ↔ form.Glued := by
  unfold Ipv6Form.Glued
  rw [lower_right, lower_quad]
  cases form.right <;> simp

/-! ## Expanding a form -/

/-- The tail behind the last colon. -/
theorem dottedTail_append (head : JsString) {tail : JsString} (free : colon ∉ tail) :
    dottedTail (head ++ colon :: tail) =
      if head.all (fun u => !isLineTerminator u) then
        match split tail dot with
        | [a, b, c, d] =>
            if isDigits a && isDigits b && isDigits c && isDigits d then some (head, tail) else none
        | _ => none
      else none := by
  have others : ∀ u ∈ tail.reverse, (u ≠ colon) := fun u member is =>
    free (is ▸ List.mem_reverse.1 member)
  have pos : ∀ u ∈ tail.reverse, (decide (u ≠ colon)) = true := fun u member =>
    decide_eq_true (others u member)
  have reversed : (head ++ colon :: tail).reverse = tail.reverse ++ colon :: head.reverse := by simp
  unfold dottedTail
  rw [reversed, List.takeWhile_append_of_pos pos, List.dropWhile_append_of_pos pos,
    List.takeWhile_cons_of_neg (by decide), List.dropWhile_cons_of_neg (by decide)]
  simp only [List.append_nil, List.reverse_reverse, List.all_reverse]

/-- Without a point there is no dotted tail. -/
theorem dottedTail_of_free {s : JsString} (free : dot ∉ s) : dottedTail s = none := by
  have none_ : split (s.reverse.takeWhile (· ≠ colon)).reverse dot =
      [(s.reverse.takeWhile (· ≠ colon)).reverse] := by
    refine (congrArg (split · dot) (join_singleton _ dot)).symm.trans
      (split_join (List.cons_ne_nil _ _) fun part member inside => free ?_)
    obtain rfl := List.mem_singleton.1 member
    exact List.mem_reverse.1 (List.takeWhile_subset _ (List.mem_reverse.1 inside))
  unfold dottedTail
  simp only [none_]
  split
  · rfl
  · split <;> rfl

theorem expand_eq (side : JsString) :
    expand side =
      (sideParts side).mapM fun part => if isLowerGroup part then some (parseHex part) else none := by
  unfold expand sideParts
  split <;> rfl

theorem expand_join {gs : List JsString} (groups : ∀ g ∈ gs, isLowerGroup g = true) :
    expand (join gs colon) = some (gs.map parseHex) := by
  rw [expand_eq, sideParts_join fun g member =>
    plain_of_isGroup (isGroup_of_isLowerGroup (groups g member))]
  induction gs with
  | nil => rfl
  | cons g gs ih =>
      obtain ⟨here, rest⟩ := List.forall_mem_cons.1 groups
      rw [List.mapM_cons, if_pos here, ih rest]
      rfl

/-- A head without `::`. -/
theorem assemble_flat {gs : List JsString} (groups : ∀ g ∈ gs, isLowerGroup g = true)
    (tailGroups : List ℕ) :
    assemble (join gs colon) tailGroups =
      if gs.length + tailGroups.length = 8 then some (gs.map parseHex ++ tailGroups) else none := by
  have single := single_join fun g member =>
    plain_of_isGroup (isGroup_of_isLowerGroup (groups g member))
  unfold assemble gather
  rw [splitDouble_of_single single.1]
  simp only [expand_join groups, Option.map_some]
  rw [Option.filter_some]
  simp only [List.length_append, List.length_map, decide_eq_true_eq]

/-- A head with `::`. -/
theorem assemble_double {gs r : List JsString} (groups : ∀ g ∈ gs, isLowerGroup g = true)
    (behind : ∀ g ∈ r, isLowerGroup g = true) {tailGroups : List ℕ}
    (fits : gs.length + r.length + tailGroups.length ≤ 8) :
    assemble (join gs colon ++ colon :: colon :: join r colon) tailGroups =
      some (gs.map parseHex ++ List.replicate (8 - gs.length - r.length - tailGroups.length) 0 ++
        r.map parseHex ++ tailGroups) := by
  have left := single_join fun g member =>
    plain_of_isGroup (isGroup_of_isLowerGroup (groups g member))
  have right := single_join fun g member =>
    plain_of_isGroup (isGroup_of_isLowerGroup (behind g member))
  have zeros : 8 - tailGroups.length - gs.length - r.length =
      8 - gs.length - r.length - tailGroups.length := by omega
  unfold assemble gather
  rw [splitDouble_append left.1 left.2.1, splitDouble_of_single right.1]
  simp only [expand_join groups, expand_join behind, List.length_map]
  rw [if_neg (by omega), zeros, Option.filter_some, if_pos]
  simp only [List.length_append, List.length_map, List.length_replicate, decide_eq_true_eq]
  omega

/-! ## The dotted tail of a form -/

theorem isDigits_ofNat (n : ℕ) : isDigits (ofNat n) = true := by
  have digits := ofNat_all_isDigit n
  have some_ : ofNat n ≠ [] := by
    intro empty
    have read := toNat?_ofNat n
    rw [empty] at read
    obtain rfl : 0 = n := Option.some.inj read
    exact absurd empty (by decide)
  simp [isDigits, digits, some_]

/-- What spells a literal is no line terminator, no space and no percent sign. -/
theorem not_lineTerminator_of_spells {u : UInt16} (spells : Spells u) :
    isLineTerminator u = false ∧ isSpace u = false ∧ u ≠ percent := by
  rcases spells with digit | rfl | rfl
  · have bounds := hexDigit_bounds digit
    have other : ∀ v : UInt16, v.toNat < 48 ∨ 102 < v.toNat → u ≠ v := by
      rintro v outside rfl
      omega
    simp only [isLineTerminator, isSpace, Bool.or_eq_false_iff, Bool.and_eq_false_iff,
      beq_eq_false_iff_ne, decide_eq_false_iff_not, UInt16.le_iff_toNat_le]
    have thirteen : (13 : UInt16).toNat = 13 := rfl
    have quads : (0x2000 : UInt16).toNat = 8192 := rfl
    refine ⟨⟨⟨⟨?_, ?_⟩, ?_⟩, ?_⟩, ⟨⟨⟨⟨⟨⟨⟨⟨⟨⟨?_, ?_⟩, ?_⟩, ?_⟩, ?_⟩, ?_⟩, ?_⟩, ?_⟩, ?_⟩, ?_⟩, ?_⟩, ?_⟩
    all_goals first
      | exact other _ (by decide)
      | omega
  · decide
  · decide

/-- A text that ends with an IPv4 literal. -/
theorem canonicalizeIpv6_dotted {head : JsString} (spells : ∀ u ∈ head, Spells u) (q : Ipv4) :
    canonicalizeIpv6 (head ++ colon :: quadText q) =
      assemble (dropColon head) [q.high, q.low] := by
  have noZone : percent ∉ head ++ colon :: quadText q := by
    intro member
    rcases List.mem_append.1 member with inside | inside
    · exact (not_lineTerminator_of_spells (spells _ inside)).2.2 rfl
    · rcases List.mem_cons.1 inside with is | inside
      · exact absurd is (by decide)
      · exact (not_lineTerminator_of_spells (spells_quadText q _ inside)).2.2 rfl
  have tail : dottedTail (head ++ colon :: quadText q) = some (head, quadText q) := by
    rw [dottedTail_append head (plain_quadText q).2, if_pos, split_quadText]
    · simp only [isDigits_ofNat, Bool.and_self, if_true]
    · exact List.all_eq_true.2 fun u member => by
        rw [(not_lineTerminator_of_spells (spells u member)).1]
        rfl
  have shift : ∀ a b : Fin 256, a.val <<< 8 ||| b.val = a.val * 256 + b.val := by
    intro a b
    rw [← Nat.shiftLeft_add_eq_or_of_lt b.isLt, Nat.shiftLeft_eq]
  unfold canonicalizeIpv6
  rw [if_neg noZone, tail]
  simp only [split_quadText, List.map_cons, List.map_nil, toNat?_ofNat, shift]
  rw [if_pos (by omega), Ipv4.high, Ipv4.low]

/-- A text without a point. -/
theorem canonicalizeIpv6_plain {s : JsString} (spells : ∀ u ∈ s, Spells u) (free : dot ∉ s) :
    canonicalizeIpv6 s = assemble s [] := by
  have noZone : percent ∉ s := fun member =>
    (not_lineTerminator_of_spells (spells _ member)).2.2 rfl
  unfold canonicalizeIpv6
  rw [if_neg noZone, dottedTail_of_free free]

theorem dropColon_of_last {head : JsString} (last : head.getLast? ≠ some colon) :
    dropColon head = head := by
  have no : [colon].isSuffixOf head = false := by
    rw [Bool.eq_false_iff]
    intro ends_
    obtain ⟨front, rfl⟩ := List.isSuffixOf_iff_suffix.1 ends_
    exact last (by simp)
  simp [dropColon, no]

/-- The colon before a dotted tail behind `::`. -/
theorem dropColon_append {head : JsString} (last : head.getLast? ≠ some colon) :
    dropColon (head ++ [colon]) = head := by
  have one : [colon].isSuffixOf (head ++ [colon]) = true :=
    List.isSuffixOf_iff_suffix.2 ⟨head, rfl⟩
  have two : [colon, colon].isSuffixOf (head ++ [colon]) = false := by
    rw [Bool.eq_false_iff]
    intro ends_
    obtain ⟨front, same⟩ := List.isSuffixOf_iff_suffix.1 ends_
    have cut : (front ++ [colon]) ++ [colon] = head ++ [colon] := by rw [← same]; simp
    obtain rfl := List.append_cancel_right cut
    exact last (by simp)
  simp [dropColon, one, two]

theorem dot_not_mem_join {gs : List JsString} (groups : ∀ g ∈ gs, isGroup g = true) :
    dot ∉ join gs colon := by
  apply not_mem_join (by decide)
  intro g member inside
  have digits := groups g member
  simp only [isGroup, Bool.and_eq_true, List.all_eq_true] at digits
  exact absurd (digits.2 dot inside) (by decide)

/-- Groups only, without `::`. -/
theorem canonicalizeIpv6_whole {form : Ipv6Form} (small : Small form) (behind : form.right = none)
    (tail : form.quad = none) : canonicalizeIpv6 form.text = some form.values := by
  have eight := form.size.1 behind
  have spells := form.spells_text
  rw [Ipv6Form.text_whole behind, tail, quadParts, List.append_nil] at spells ⊢
  rw [tail, quadGroups] at eight
  rw [canonicalizeIpv6_plain spells (dot_not_mem_join form.leftGroups), assemble_flat small.1,
    if_pos eight, Ipv6Form.values_whole behind, tail, quadGroups]

/-- Groups only, with `::`. -/
theorem canonicalizeIpv6_double {form : Ipv6Form} (small : Small form) {r : List JsString}
    (behind : form.right = some r) (tail : form.quad = none) :
    canonicalizeIpv6 form.text = some form.values := by
  have seven := form.size.2 r behind
  have spells := form.spells_text
  rw [Ipv6Form.text_double behind, tail, quadParts, List.append_nil] at spells ⊢
  rw [tail, quadGroups, List.length_nil] at seven
  have free : dot ∉ join form.left colon ++ colon :: colon :: join r colon := by
    intro member
    simp only [List.mem_append, List.mem_cons] at member
    rcases member with inside | is | is | inside
    · exact dot_not_mem_join form.leftGroups inside
    · exact absurd is (by decide)
    · exact absurd is (by decide)
    · exact dot_not_mem_join (form.rightGroups r behind) inside
  rw [canonicalizeIpv6_plain spells free,
    assemble_double small.1 (small.2 r behind) (by rw [List.length_nil]; omega),
    Ipv6Form.values_double behind, tail, quadGroups]

/-- Six groups and a dotted tail. -/
theorem canonicalizeIpv6_wholeQuad {form : Ipv6Form} (small : Small form)
    (behind : form.right = none) {q : Ipv4} (tail : form.quad = some q) :
    canonicalizeIpv6 form.text = some form.values := by
  have eight := form.size.1 behind
  rw [tail, quadGroups] at eight
  have some_ : form.left ≠ [] := by
    intro empty
    rw [empty] at eight
    cases eight
  rw [Ipv6Form.text_whole behind, tail, quadParts, join_append_singleton some_,
    canonicalizeIpv6_dotted (spells_groups form.leftGroups),
    dropColon_of_last (last_groups form.leftGroups), assemble_flat small.1, if_pos eight,
    Ipv6Form.values_whole behind, tail, quadGroups]

/-- A dotted tail glued to `::`: the expander takes the second colon off with the tail, and
at most seven groups are left. -/
theorem canonicalizeIpv6_glued {form : Ipv6Form} (small : Small form) (glued : form.Glued) :
    canonicalizeIpv6 form.text = none := by
  obtain ⟨behind, quad⟩ := glued
  obtain ⟨q, tail⟩ := Option.ne_none_iff_exists'.1 quad
  have seven := form.size.2 [] behind
  rw [tail, quadGroups] at seven
  simp only [List.length_cons, List.length_nil] at seven
  have cut : form.text = (join form.left colon ++ [colon]) ++ colon :: quadText q := by
    rw [Ipv6Form.text_double behind, tail, quadParts, List.nil_append, join_singleton]
    simp
  have spells : ∀ u ∈ join form.left colon ++ [colon], Spells u := by
    intro u member
    rcases List.mem_append.1 member with inside | inside
    · exact spells_groups form.leftGroups u inside
    · exact .inr (.inl (List.mem_singleton.1 inside))
  rw [cut, canonicalizeIpv6_dotted spells, dropColon_append (last_groups form.leftGroups),
    assemble_flat small.1, if_neg]
  simp only [List.length_cons, List.length_nil]
  omega

/-- A dotted tail behind a group behind `::`. -/
theorem canonicalizeIpv6_doubleQuad {form : Ipv6Form} (small : Small form) {r : List JsString}
    (behind : form.right = some r) (some_ : r ≠ []) {q : Ipv4} (tail : form.quad = some q) :
    canonicalizeIpv6 form.text = some form.values := by
  have seven := form.size.2 r behind
  rw [tail, quadGroups] at seven
  simp only [List.length_cons, List.length_nil] at seven
  have groups := form.rightGroups r behind
  have filled : join r colon ≠ [] :=
    join_ne_nil some_ fun g member => (plain_of_isGroup (groups g member)).1
  have cut : form.text =
      (join form.left colon ++ colon :: colon :: join r colon) ++ colon :: quadText q := by
    rw [Ipv6Form.text_double behind, tail, quadParts, join_append_singleton some_]
    simp
  have spells : ∀ u ∈ join form.left colon ++ colon :: colon :: join r colon, Spells u := by
    intro u member
    simp only [List.mem_append, List.mem_cons] at member
    rcases member with inside | rfl | rfl | inside
    · exact spells_groups form.leftGroups u inside
    · exact .inr (.inl rfl)
    · exact .inr (.inl rfl)
    · exact spells_groups groups u inside
  have last : (join form.left colon ++ colon :: colon :: join r colon).getLast? ≠ some colon := by
    rw [List.getLast?_append_cons, List.getLast?_cons_cons, List.getLast?_cons_of_ne_nil filled]
    exact last_groups groups
  rw [cut, canonicalizeIpv6_dotted spells, dropColon_of_last last,
    assemble_double small.1 (small.2 r behind), Ipv6Form.values_double behind, tail, quadGroups]
  simp only [List.length_cons, List.length_nil]
  omega

/-- **The expander on a form**: the groups it stands for, unless `::` is glued to the dotted
tail. -/
theorem canonicalizeIpv6_text {form : Ipv6Form} (small : Small form) :
    canonicalizeIpv6 form.text = if form.Glued then none else some form.values := by
  split
  · rename_i glued
    exact canonicalizeIpv6_glued small glued
  · rename_i apart
    cases tail : form.quad with
    | none =>
        cases behind : form.right with
        | none => exact canonicalizeIpv6_whole small behind tail
        | some r => exact canonicalizeIpv6_double small behind tail
    | some q =>
        cases behind : form.right with
        | none => exact canonicalizeIpv6_wholeQuad small behind tail
        | some r =>
            refine canonicalizeIpv6_doubleQuad small behind (fun empty => apart ?_) tail
            exact ⟨empty ▸ behind, by simp [tail]⟩

/-! ## The ranges the test names -/

/-- The ranges of `isPrivateIpv4`. -/
def ListedV4 (q : Ipv4) : Prop := q.Private ∨ q.Loopback ∨ q.LinkLocal ∨ q.a.val = 0

/-- The ranges of `isPrivateIpv6Canonical`. -/
def ListedV6 (x : Ipv6) : Prop :=
  x.Loopback ∨ (x.Mapped ∧ ListedV4 x.embedded) ∨ x.UniqueLocal ∨ x.LinkLocal

instance (q : Ipv4) : Decidable (ListedV4 q) := inferInstanceAs (Decidable (_ ∨ _))

instance (x : Ipv6) : Decidable (ListedV6 x) := inferInstanceAs (Decidable (_ ∨ _))

theorem isPrivateIpv4_quadText (q : Ipv4) : isPrivateIpv4 (quadText q) = true ↔ ListedV4 q := by
  unfold isPrivateIpv4
  simp only [split_quadText, List.map_cons, List.map_nil, toNat?_ofNat]
  rw [if_neg (by omega)]
  simp only [Bool.or_eq_true, Bool.and_eq_true, decide_eq_true_eq, ListedV4, Ipv4.Private,
    Ipv4.Loopback, Ipv4.LinkLocal]
  omega

/-- A mask of leading bits. -/
theorem and_shiftLeft (g m k : ℕ) : g &&& (m <<< k) = ((g >>> k) &&& m) <<< k := by
  apply Nat.eq_of_testBit_eq
  intro i
  simp only [Nat.testBit_and, Nat.testBit_shiftLeft, Nat.testBit_shiftRight]
  by_cases above : k ≤ i
  · rw [Nat.add_sub_cancel' above]
    simp [above]
  · simp [above]

/-- fc00::/7 -/
theorem uniqueLocal_iff (g : Fin 65536) : g.val &&& 0xfe00 = 0xfc00 ↔ g.val / 512 = 126 := by
  have mask : 0xfe00 = (2 ^ 7 - 1) <<< 9 := by decide
  rw [mask, and_shiftLeft, Nat.and_two_pow_sub_one_eq_mod, Nat.shiftLeft_eq, Nat.shiftRight_eq_div_pow]
  omega

/-- fe80::/10 -/
theorem linkLocal_iff (g : Fin 65536) : g.val &&& 0xffc0 = 0xfe80 ↔ g.val / 64 = 1018 := by
  have mask : 0xffc0 = (2 ^ 10 - 1) <<< 6 := by decide
  rw [mask, and_shiftLeft, Nat.and_two_pow_sub_one_eq_mod, Nat.shiftLeft_eq, Nat.shiftRight_eq_div_pow]
  omega

/-- The dotted text the test builds of the last two groups. -/
theorem quadText_embedded (x : Ipv6) :
    join [ofNat (x.g6.val >>> 8), ofNat (x.g6.val &&& 0xff), ofNat (x.g7.val >>> 8),
      ofNat (x.g7.val &&& 0xff)] dot = quadText x.embedded := by
  have high : ∀ g : Fin 65536, g.val >>> 8 = (Fin.ofNat 256 (g.val / 256)).val := by
    intro g
    rw [Nat.shiftRight_eq_div_pow, Fin.val_ofNat]
    omega
  have low : ∀ g : Fin 65536, g.val &&& 0xff = (Fin.ofNat 256 g.val).val := fun g =>
    Nat.and_two_pow_sub_one_eq_mod g.val 8
  rw [quadText, high, high, low, low]
  rfl

/-- **The test of an expanded address** names the listed ranges. -/
theorem isPrivateIpv6Canonical_groups (x : Ipv6) :
    isPrivateIpv6Canonical x.groups = true ↔ ListedV6 x := by
  unfold isPrivateIpv6Canonical
  simp only [Ipv6.groups, quadText_embedded]
  have loopback : x.Loopback ↔ x.g0.val = 0 ∧ x.g1.val = 0 ∧ x.g2.val = 0 ∧ x.g3.val = 0 ∧
      x.g4.val = 0 ∧ x.g5.val = 0 ∧ x.g6.val = 0 ∧ x.g7.val = 1 := by
    simp [Ipv6.Loopback, Ipv6.groups]
  have mapped : x.Mapped ↔ x.g0.val = 0 ∧ x.g1.val = 0 ∧ x.g2.val = 0 ∧ x.g3.val = 0 ∧
      x.g4.val = 0 ∧ x.g5.val = 65535 := by
    simp [Ipv6.Mapped, Ipv6.Begins, Ipv6.groups]
  have unique := uniqueLocal_iff x.g0
  have link := linkLocal_iff x.g0
  split
  · rename_i is
    exact iff_of_true rfl (.inl (loopback.2 is))
  · rename_i other
    split
    · rename_i is
      have notUnique : ¬ x.UniqueLocal := by
        unfold Ipv6.UniqueLocal
        omega
      have notLink : ¬ x.LinkLocal := by
        unfold Ipv6.LinkLocal
        omega
      rw [isPrivateIpv4_quadText]
      constructor
      · exact fun listed => .inr (.inl ⟨mapped.2 is, listed⟩)
      · rintro (loop | ⟨-, listed⟩ | unique | link)
        · exact absurd (loopback.1 loop) other
        · exact listed
        · exact absurd unique notUnique
        · exact absurd link notLink
    · rename_i notMapped
      rw [ListedV6, loopback, mapped]
      simp only [other, notMapped, false_and, false_or, Bool.or_eq_true, decide_eq_true_eq, unique,
        link]
      rfl

/-! ## Spelling -/

theorem trim_of_free {s : JsString} (free : ∀ u ∈ s, isSpace u = false) : trim s = s := by
  have front : s.dropWhile isSpace = s := by
    cases s with
    | nil => rfl
    | cons u s => exact List.dropWhile_cons_of_neg (by simp [free u List.mem_cons_self])
  have back : s.reverse.dropWhile isSpace = s.reverse := by
    cases reversed : s.reverse with
    | nil => rfl
    | cons u rest =>
        have inside : u ∈ s := List.mem_reverse.1 (reversed ▸ List.mem_cons_self)
        exact List.dropWhile_cons_of_neg (by simp [free u inside])
  rw [trim, front, back, List.reverse_reverse]

theorem isIP_text (form : Ipv6Form) : isIP form.text = 6 := by
  have notV4 : isIPv4 form.text ≠ true := by
    intro literal
    obtain ⟨q, is⟩ := isIPv4_iff.1 literal
    exact (plain_quadText q).2 (is ▸ form.colon_mem_text)
  have noZone : ∀ u ∈ form.text, decide (u ≠ percent) = true := fun u member =>
    decide_eq_true (not_lineTerminator_of_spells (form.spells_text u member)).2.2
  have v6 : isIPv6 form.text = true := by
    unfold isIPv6
    rw [List.takeWhile_eq_self_iff.2 noZone, List.dropWhile_eq_nil_iff.2 noZone,
      form.isIPv6Address_text]
    rfl
  rw [isIP, if_neg notV4, if_pos v6]

theorem lowerUnit_lowerUnit (u : UInt16) : lowerUnit (lowerUnit u) = lowerUnit u := by
  have upperA : (65 : UInt16).toNat = 65 := rfl
  have upperZ : (90 : UInt16).toNat = 90 := rfl
  have shift : (32 : UInt16).toNat = 32 := rfl
  unfold lowerUnit
  split
  · rename_i upper
    rw [UInt16.le_iff_toNat_le, UInt16.le_iff_toNat_le] at upper
    rw [if_neg]
    rw [UInt16.le_iff_toNat_le, UInt16.le_iff_toNat_le, UInt16.toNat_add, shift]
    omega
  · rfl

theorem toLowerCase_toLowerCase (s : JsString) : toLowerCase (toLowerCase s) = toLowerCase s := by
  unfold toLowerCase
  rw [List.map_map]
  exact List.map_congr_left fun u _ => lowerUnit_lowerUnit u

/-- **The test of a literal**, blanks around it and the case of its letters aside. -/
theorem isPrivateAddress_spelled {t : JsString} {form : Ipv6Form}
    (spelled : toLowerCase (trim t) = form.text) :
    isPrivateAddress t = true ↔ form.Glued ∨ ListedV6 form.address := by
  have small : form.text = (lower form).text := by
    rw [← spelled, ← toLowerCase_toLowerCase, spelled, toLowerCase_text]
  unfold isPrivateAddress
  simp only [spelled]
  rw [isIP_text, if_neg (by decide), if_pos rfl, small, canonicalizeIpv6_text (small_lower form),
    values_lower]
  by_cases glued : form.Glued
  · rw [if_pos ((glued_lower form).2 glued)]
    exact iff_of_true rfl (.inl glued)
  · rw [if_neg fun is => glued ((glued_lower form).1 is)]
    simp only [glued, false_or]
    rw [← form.groups_address]
    exact isPrivateIpv6Canonical_groups form.address

theorem isPrivateAddress_text (form : Ipv6Form) :
    isPrivateAddress form.text = true ↔ form.Glued ∨ ListedV6 form.address := by
  have unspaced : trim form.text = form.text := trim_of_free fun u member =>
    (not_lineTerminator_of_spells (form.spells_text u member)).2.1
  have spelled : toLowerCase (trim form.text) = (lower form).text := by
    rw [unspaced, toLowerCase_text]
  have address : (lower form).address = form.address := congrArg Ipv6.ofGroups (values_lower form)
  rw [isPrivateAddress_spelled spelled, glued_lower, address]

/-- `canonicalizeIpv6` in the test's use of it. -/
theorem canonicalizeIpv6_toLowerCase (form : Ipv6Form) :
    canonicalizeIpv6 (toLowerCase form.text) =
      if form.Glued then none else some form.address.groups := by
  rw [toLowerCase_text, canonicalizeIpv6_text (small_lower form), values_lower,
    form.groups_address]
  exact if_congr (glued_lower form) rfl rfl

/-- **Two spellings of one address** are told alike and both expanded exactly when neither has
`::` glued to a dotted tail; they are told alike also when both have, and when the address is
listed. -/
theorem spelling_iff {form other : Ipv6Form} (same : form.address = other.address) :
    ((isPrivateAddress form.text = isPrivateAddress other.text ∧
        canonicalizeIpv6 (toLowerCase form.text) = some form.address.groups ∧
        canonicalizeIpv6 (toLowerCase other.text) = some form.address.groups) ↔
      ¬ form.Glued ∧ ¬ other.Glued) ∧
    (isPrivateAddress form.text = isPrivateAddress other.text ↔
      (form.Glued ↔ other.Glued) ∨ ListedV6 form.address) := by
  have told : isPrivateAddress form.text = isPrivateAddress other.text ↔
      (form.Glued ↔ other.Glued) ∨ ListedV6 form.address := by
    rw [Bool.eq_iff_iff, isPrivateAddress_text, isPrivateAddress_text, ← same]
    tauto
  have expanded : ∀ x : Ipv6Form, canonicalizeIpv6 (toLowerCase x.text) = some x.address.groups ↔
      ¬ x.Glued := by
    intro x
    rw [canonicalizeIpv6_toLowerCase]
    split
    · rename_i glued
      exact iff_of_false nofun (fun apart => apart glued)
    · rename_i apart
      exact iff_of_true rfl apart
  refine ⟨?_, told⟩
  rw [told, expanded form, same, expanded other]
  tauto

theorem spelling_iff_loopback :
    isPrivateAddress (ofString "::1") = isPrivateAddress (ofString "0:0:0:0:0:0:0:01") ∧
      canonicalizeIpv6 (toLowerCase (ofString "::1")) = some [0, 0, 0, 0, 0, 0, 0, 1] ∧
      canonicalizeIpv6 (toLowerCase (ofString "0:0:0:0:0:0:0:01")) =
        some [0, 0, 0, 0, 0, 0, 0, 1] :=
  (@spelling_iff ⟨[], some [ofString "1"], none, nofun, by decide, by decide⟩
    ⟨List.replicate 7 (ofString "0") ++ [ofString "01"], none, none, by decide, nofun, by decide⟩
    (by decide)).1.2 ⟨by decide, by decide⟩

/-- 64:ff9b::8.8.8.8 is refused, 64:ff9b::808:808 is not. -/
theorem spelling_differs :
    ¬ ∀ form other : Ipv6Form, form.address = other.address →
      isPrivateAddress form.text = isPrivateAddress other.text := by
  intro alike
  have same := alike
    ⟨[ofString "64", ofString "ff9b"], some [], some ⟨8, 8, 8, 8⟩, by decide, by decide, by decide⟩
    ⟨[ofString "64", ofString "ff9b"], some [ofString "808", ofString "808"], none, by decide,
      by decide, by decide⟩ (by decide)
  rw [Bool.eq_iff_iff, isPrivateAddress_text, isPrivateAddress_text] at same
  exact absurd (same.1 (.inl (by decide))) (by decide)

end Tozalist.Shared
