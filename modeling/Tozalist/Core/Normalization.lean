/-
# Tozalist.Core.Normalization -- what a normalized address is

`normalizeEmail` trims, takes off one wrapper, trims again, and lower-cases behind the last `@`.
`Unwrapped` says what remains before the last step, as a relation that does not name the steps;
`normalizeEmail_spec` says what the address and the record of the changes are in its terms.

Of `toLowerCase` it is used that it makes no `@` and no white space at the end of a text
(`LowersDomains`).
-/
import Tozalist.Core.NormalizeEmail
import Tozalist.Js.Net

namespace Tozalist.Core

set_option autoImplicit false

/-! ## What remains of an input -/

/-- What remains after trimming and removing at most one matching wrapper. -/
inductive Unwrapped (input : JsString) : JsString → Prop
  | bare (none_ : ∀ w ∈ wrappers, ∀ body, Js.trim input ≠ w.opening :: (body ++ [w.closing])) :
      Unwrapped input (Js.trim input)
  | wrapped {w : Wrapper} {body : JsString} (member : w ∈ wrappers)
      (around : Js.trim input = w.opening :: (body ++ [w.closing])) :
      Unwrapped input (Js.trim body)

theorem Wrapper.around_iff (w : Wrapper) (value : JsString) :
    w.Around value ↔ ∃ body, value = w.opening :: (body ++ [w.closing]) := by
  constructor
  · rintro ⟨two, first, last⟩
    cases value with
    | nil => cases first
    | cons u rest =>
        obtain rfl : u = w.opening := Option.some.inj first
        rcases List.eq_nil_or_concat rest with rfl | ⟨body, v, rfl⟩
        · exact absurd two (by simp)
        · rw [List.concat_eq_append] at last ⊢
          rw [← List.cons_append, List.getLast?_append] at last
          obtain rfl : v = w.closing := Option.some.inj last
          exact ⟨body, rfl⟩
  · rintro ⟨body, rfl⟩
    refine ⟨by simp, rfl, ?_⟩
    rw [← List.cons_append, List.getLast?_append]
    rfl

/-- The wrappers begin in different ways. -/
theorem wrapper_eq {w w' : Wrapper} (member : w ∈ wrappers) (member' : w' ∈ wrappers)
    (same : w.opening = w'.opening) : w = w' := by
  have all : ∀ w ∈ wrappers, ∀ w' ∈ wrappers, w.opening = w'.opening → w = w' := by decide
  exact all w member w' member' same

theorem tail_dropLast_wrapped (o c : UInt16) (body : JsString) :
    (o :: (body ++ [c])).tail.dropLast = body := by
  rw [List.tail_cons, List.dropLast_concat]

theorem stripWrapper_none {before : JsString × List EmailChange}
    (search : wrappers.find? (fun w => w.Around before.1) = none) :
    stripWrapper before = before := by
  unfold stripWrapper
  rw [search]

theorem stripWrapper_some {before : JsString × List EmailChange} {w : Wrapper}
    (search : wrappers.find? (fun w => w.Around before.1) = some w) :
    (stripWrapper before).1 = Js.trim before.1.tail.dropLast := by
  unfold stripWrapper
  rw [search]
  rfl

/-- **What the code takes off.** -/
theorem unwrapped_iff (input other : JsString) :
    Unwrapped input other ↔
      other = (stripWrapper (recordChange (input, []) (Js.trim input) .trimmedWhitespace)).1 := by
  have found : ∀ w, wrappers.find? (fun w => w.Around (Js.trim input)) = some w →
      w ∈ wrappers ∧ ∃ body, Js.trim input = w.opening :: (body ++ [w.closing]) := by
    intro w is
    have around := List.find?_some is
    exact ⟨List.mem_of_find?_eq_some is, (w.around_iff _).1 (of_decide_eq_true around)⟩
  cases search : wrappers.find? fun w => w.Around (Js.trim input) with
  | none =>
      have bare : ∀ w ∈ wrappers, ∀ body, Js.trim input ≠ w.opening :: (body ++ [w.closing]) := by
        intro w member body is
        exact List.find?_eq_none.1 search w member (decide_eq_true ((w.around_iff _).2 ⟨body, is⟩))
      rw [stripWrapper_none search]
      constructor
      · rintro (_ | ⟨member, around⟩)
        · rfl
        · exact absurd around (bare _ member _)
      · rintro rfl
        exact .bare bare
  | some w =>
      obtain ⟨member, body, is⟩ := found w search
      rw [stripWrapper_some search]
      dsimp only [recordChange]
      rw [is, tail_dropLast_wrapped]
      constructor
      · rintro (none_ | @⟨w', body', member', around⟩)
        · exact absurd is (none_ w member body)
        · rw [is] at around
          obtain rfl := wrapper_eq member member' (List.cons.inj around).1
          rw [(List.append_inj' (List.cons.inj around).2 rfl).1]
      · rintro rfl
        exact .wrapped member is

/-! ## The record of the changes -/

theorem recordOnce_nodup {changes : List EmailChange} (nodup : changes.Nodup)
    (change : EmailChange) : (recordOnce changes change).Nodup := by
  unfold recordOnce
  split
  · exact nodup
  · rename_i new
    exact List.nodup_append.2 ⟨nodup, List.pairwise_singleton _ change, fun c member d is => by
      obtain rfl := List.mem_singleton.1 is
      rintro rfl
      exact new member⟩

theorem recordOnce_ne_nil (changes : List EmailChange) (change : EmailChange) :
    recordOnce changes change ≠ [] := by
  unfold recordOnce
  split
  · rename_i member
    exact List.ne_nil_of_mem member
  · exact List.append_ne_nil_of_right_ne_nil _ (List.cons_ne_nil _ _)

theorem recordChange_nodup {before : JsString × List EmailChange} (nodup : before.2.Nodup)
    (value : JsString) (change : EmailChange) : (recordChange before value change).2.Nodup := by
  unfold recordChange
  dsimp only
  split
  · exact recordOnce_nodup nodup change
  · exact nodup

/-- Nothing is recorded exactly when nothing changes. -/
theorem recordChange_nil_iff (before : JsString × List EmailChange) (value : JsString)
    (change : EmailChange) :
    (recordChange before value change).2 = [] ↔ before.2 = [] ∧ value = before.1 := by
  unfold recordChange
  dsimp only
  split
  · rename_i changed
    exact iff_of_false (recordOnce_ne_nil _ _) fun both => changed both.2
  · rename_i same
    exact (and_iff_left (not_not.1 same)).symm

theorem stripWrapper_nodup {before : JsString × List EmailChange} (nodup : before.2.Nodup) :
    (stripWrapper before).2.Nodup := by
  unfold stripWrapper
  split
  · exact nodup
  · exact recordChange_nodup (recordOnce_nodup nodup _) _ _

/-- A wrapper that is taken off is recorded. -/
theorem stripWrapper_nil_iff (before : JsString × List EmailChange) :
    (stripWrapper before).2 = [] ↔
      before.2 = [] ∧ wrappers.find? (fun w => w.Around before.1) = none := by
  unfold stripWrapper
  split
  · rename_i none_
    rw [and_iff_left none_]
  · rename_i w found
    rw [recordChange_nil_iff, found]
    exact iff_of_false (fun both => recordOnce_ne_nil _ _ both.1) nofun

/-! ## Behind the last `@` -/

/-- What `toLowerCase` does not do: make an `@`, or white space at the end. -/
structure LowersDomains (toLowerCase : JsString → JsString) : Prop where
  at_free : ∀ s, (0x40 : UInt16) ∉ s → (0x40 : UInt16) ∉ toLowerCase s
  solid : ∀ s, (∀ u ∈ s.getLast?, Js.isSpace u = false) →
    ∀ u ∈ (toLowerCase s).getLast?, Js.isSpace u = false

section Domain

variable {toLowerCase : JsString → JsString}

/-- A text without an `@`, or one that is cut at its last. -/
theorem cut_at (s : JsString) :
    ((0x40 : UInt16) ∉ s) ∨ ∃ local_ domain, s = local_ ++ 0x40 :: domain ∧ (0x40 : UInt16) ∉ domain := by
  by_cases member : (0x40 : UInt16) ∈ s
  · obtain ⟨front, back, cut, free⟩ := List.eq_append_cons_of_mem (List.mem_reverse.2 member)
    refine .inr ⟨back.reverse, front.reverse, ?_, fun inside => free (List.mem_reverse.1 inside)⟩
    rw [← List.reverse_reverse s, cut, List.reverse_append, List.reverse_cons, List.append_assoc]
    rfl
  · exact .inl member

theorem lowercaseDomain_free {s : JsString} (free : (0x40 : UInt16) ∉ s) :
    lowercaseDomain toLowerCase s = s := by
  have none_ : Js.lastIndexOf s 0x40 = none := by
    rw [Js.lastIndexOf, Option.map_eq_none_iff, List.findIdx?_eq_none_iff]
    intro u member
    exact beq_false_of_ne fun is => free (is ▸ List.mem_reverse.1 member)
  rw [lowercaseDomain, none_]

theorem lowercaseDomain_cut (local_ : JsString) {domain : JsString}
    (free : (0x40 : UInt16) ∉ domain) :
    lowercaseDomain toLowerCase (local_ ++ 0x40 :: domain) =
      local_ ++ 0x40 :: toLowerCase domain := by
  rw [lowercaseDomain, Js.lastIndexOf_append_cons free]
  dsimp only
  rw [List.take_left, List.drop_append, List.drop_eq_nil_of_le (by omega), List.nil_append,
    Nat.add_sub_cancel_left]
  rfl

/-- The last `@` cuts a text in one way. -/
theorem cut_unique {a b a' b' : JsString} (free : (0x40 : UInt16) ∉ b)
    (free' : (0x40 : UInt16) ∉ b') (same : a ++ 0x40 :: b = a' ++ 0x40 :: b') :
    a.length = a'.length := by
  have first := Js.lastIndexOf_append_cons (a := a) free
  rw [same, Js.lastIndexOf_append_cons free'] at first
  exact (Option.some.inj first).symm

/-- Lower-casing keeps a trimmed text trimmed. -/
theorem lowercaseDomain_trimmed (lowers : LowersDomains toLowerCase) {s : JsString}
    (trimmed : Js.Trimmed s) : Js.Trimmed (lowercaseDomain toLowerCase s) := by
  rcases cut_at s with free | ⟨local_, domain, rfl, free⟩
  · rwa [lowercaseDomain_free free]
  rw [lowercaseDomain_cut local_ free]
  obtain ⟨first, last⟩ := trimmed
  constructor
  · intro u is
    cases local_ with
    | nil => exact first u is
    | cons v local_ => exact first u is
  · have solid : ∀ u ∈ domain.getLast?, Js.isSpace u = false := by
      intro u is
      apply last u
      rw [List.getLast?_append, List.getLast?_cons, Option.mem_def.1 is]
      rfl
    intro u is
    rw [List.getLast?_append, List.getLast?_cons] at is
    cases lower : (toLowerCase domain).getLast? with
    | none =>
        rw [lower] at is
        obtain rfl : (0x40 : UInt16) = u := Option.some.inj is
        rfl
    | some v =>
        rw [lower] at is
        obtain rfl : v = u := Option.some.inj is
        exact lowers.solid domain solid v lower

end Domain

/-! ## The address -/

section Address

variable {toLowerCase : JsString → JsString}

theorem unwrapped_trimmed {input inner : JsString} (unwrapped : Unwrapped input inner) :
    Js.Trimmed inner := by
  cases unwrapped with
  | bare _ => exact Js.trim_trimmed input
  | @wrapped w body _ _ => exact Js.trim_trimmed body

/-- **What was wrapped has changed**, even where lower-casing makes texts longer: the last `@`
is not where it was. -/
theorem wrapped_ne {input body : JsString} {w : Wrapper} (lowers : LowersDomains toLowerCase)
    (member : w ∈ wrappers) (around : input = w.opening :: (body ++ [w.closing])) :
    lowercaseDomain toLowerCase (Js.trim body) ≠ input := by
  obtain ⟨before, after, split_, -, white⟩ := Js.trim_split body
  intro same
  rcases cut_at (Js.trim body) with free | ⟨local_, domain, cut, free⟩
  · rw [lowercaseDomain_free free, around, split_] at same
    have lengths := congrArg List.length same
    simp only [List.length_cons, List.length_append] at lengths
    rw [← split_] at lengths
    omega
  · have closing : ∀ w ∈ wrappers, (0x40 : UInt16) ∉ [w.closing] := by decide
    have afterFree : (0x40 : UInt16) ∉ after := fun inside => Bool.noConfusion (white _ inside)
    have behind : (0x40 : UInt16) ∉ domain ++ (after ++ [w.closing]) := by
      simp only [List.mem_append, not_or]
      exact ⟨free, afterFree, closing w member⟩
    have regroup : w.opening :: (before ++ (local_ ++ 0x40 :: domain ++ after) ++ [w.closing]) =
        (w.opening :: (before ++ local_)) ++ 0x40 :: (domain ++ (after ++ [w.closing])) := by
      simp
    rw [cut, lowercaseDomain_cut local_ free, around, split_, cut, regroup] at same
    have lengths := cut_unique (lowers.at_free domain free) behind same
    simp only [List.length_cons, List.length_append] at lengths
    omega

/-- The value and the changes before the domain is lower-cased. -/
def strippedInput (input : JsString) : JsString × List EmailChange :=
  stripWrapper (recordChange (input, []) (Js.trim input) .trimmedWhitespace)

/-- An empty text has no domain, so lower-casing can be thought of in any case. -/
theorem normalizeEmail_eq (toLowerCase : JsString → JsString) (input : JsString) :
    normalizeEmail toLowerCase input =
      ⟨if (strippedInput input).1 = [] then none
        else some (lowercaseDomain toLowerCase (strippedInput input).1),
        (recordChange (strippedInput input)
          (lowercaseDomain toLowerCase (strippedInput input).1) .lowercasedDomain).2⟩ := by
  unfold normalizeEmail
  show (if (strippedInput input).1 = [] then (⟨none, (strippedInput input).2⟩ : NormalizedEmail)
    else _) = _
  by_cases empty : (strippedInput input).1 = []
  · have same : lowercaseDomain toLowerCase [] = [] := rfl
    rw [if_pos empty, if_pos empty, recordChange, empty, same, if_neg (not_not.2 rfl)]
  · rw [if_neg empty, if_neg empty]
    rfl

/-- The address, or the empty text, is what remains with its domain lower-cased. -/
theorem normalizeEmail_getD (toLowerCase : JsString → JsString) (input : JsString) :
    (normalizeEmail toLowerCase input).normalized.getD [] =
      lowercaseDomain toLowerCase (strippedInput input).1 := by
  rw [normalizeEmail_eq]
  dsimp only
  split
  · rename_i empty
    rw [empty]
    rfl
  · rfl

/-- **An input that stays as it is** was trimmed, and not wrapped. -/
theorem unchanged_input (lowers : LowersDomains toLowerCase) {input inner : JsString}
    (unwrapped : Unwrapped input inner) (same : lowercaseDomain toLowerCase inner = input) :
    Js.trim input = input ∧ wrappers.find? (fun w => w.Around input) = none := by
  have trimmed : Js.trim input = input := by
    have kept := lowercaseDomain_trimmed lowers (unwrapped_trimmed unwrapped)
    rw [same] at kept
    exact Js.trim_eq_self kept
  refine ⟨trimmed, List.find?_eq_none.2 fun w member around => ?_⟩
  obtain ⟨body, is⟩ := (w.around_iff input).1 (of_decide_eq_true around)
  cases unwrapped with
  | bare none_ => exact none_ w member body (trimmed.trans is)
  | wrapped member' around' => exact wrapped_ne lowers member' (trimmed.symm.trans around') same

/-- **A normalized address.**  What remains of the input is one text; there is no address exactly
when it is empty; else the address is trimmed, and is that text with what follows its last `@`
lower-cased.  The changes are recorded once, and there are none exactly when the address is the
input. -/
theorem normalizeEmail_spec (toLowerCase : JsString → JsString)
    (lowers : LowersDomains toLowerCase) (input : JsString) :
    ∃ inner, (∀ other, Unwrapped input other ↔ other = inner) ∧
      ((normalizeEmail toLowerCase input).normalized = none ↔ inner = []) ∧
      (∀ out, (normalizeEmail toLowerCase input).normalized = some out →
        Js.Trimmed out ∧
        ((0x40 : UInt16) ∉ inner → out = inner) ∧
        ∀ local_ domain, inner = local_ ++ 0x40 :: domain → (0x40 : UInt16) ∉ domain →
          out = local_ ++ 0x40 :: toLowerCase domain ∧
            (0x40 : UInt16) ∉ toLowerCase domain) ∧
      (normalizeEmail toLowerCase input).changes.Nodup ∧
      ((normalizeEmail toLowerCase input).changes = [] ↔
        (normalizeEmail toLowerCase input).normalized.getD [] = input) := by
  have unwrapped := unwrapped_iff input
  have here : Unwrapped input (strippedInput input).1 := (unwrapped _).2 rfl
  refine ⟨(strippedInput input).1, unwrapped, ?_, ?_, ?_, ?_⟩
  · rw [normalizeEmail_eq]
    dsimp only
    split
    · rename_i empty
      exact iff_of_true rfl empty
    · rename_i some_
      exact iff_of_false nofun some_
  · intro out is
    have lowered := normalizeEmail_getD toLowerCase input
    rw [is, Option.getD_some] at lowered
    rw [lowered]
    refine ⟨lowercaseDomain_trimmed lowers (unwrapped_trimmed here), lowercaseDomain_free, ?_⟩
    intro local_ domain cut free
    rw [cut, lowercaseDomain_cut local_ free]
    exact ⟨rfl, lowers.at_free domain free⟩
  · rw [normalizeEmail_eq]
    exact recordChange_nodup (stripWrapper_nodup (recordChange_nodup List.nodup_nil _ _)) _ _
  · rw [normalizeEmail_getD, normalizeEmail_eq]
    dsimp only
    rw [recordChange_nil_iff, strippedInput, stripWrapper_nil_iff, recordChange_nil_iff]
    constructor
    · rintro ⟨⟨⟨-, trimmed⟩, bare⟩, lowered⟩
      rw [lowered, stripWrapper, bare]
      exact trimmed
    · intro same
      obtain ⟨trimmed, bare⟩ := unchanged_input lowers here same
      have kept : (recordChange (input, []) (Js.trim input) .trimmedWhitespace).1 = input := trimmed
      refine ⟨⟨⟨rfl, trimmed⟩, by rw [kept]; exact bare⟩, ?_⟩
      rw [same, stripWrapper, kept, bare]
      exact trimmed.symm

end Address

/-! ### A pasted address -/

theorem toLowerCase_lowersDomains : LowersDomains Js.toLowerCase where
  at_free := by
    intro s free inside
    obtain ⟨u, member, is⟩ := List.mem_map.1 inside
    unfold Js.lowerUnit at is
    split at is
    · rename_i letter
      have bounds : 65 ≤ u.toNat ∧ u.toNat ≤ 90 := by
        simpa [UInt16.le_iff_toNat_le] using letter
      have value := congrArg UInt16.toNat is
      rw [UInt16.toNat_add] at value
      change (u.toNat + 32) % 65536 = 64 at value
      omega
    · exact free (is ▸ member)
  solid := by
    intro s solid u last
    rw [Js.toLowerCase, List.getLast?_map] at last
    obtain ⟨v, is, rfl⟩ := Option.map_eq_some_iff.1 (Option.mem_def.1 last)
    unfold Js.lowerUnit
    split
    · rename_i letter
      have bounds : 65 ≤ v.toNat ∧ v.toNat ≤ 90 := by
        simpa [UInt16.le_iff_toNat_le] using letter
      have lower : ∀ n : Fin 26, Js.isSpace (UInt16.ofNat (65 + n) + 32) = false := by decide
      have here := lower ⟨v.toNat - 65, by omega⟩
      rwa [show 65 + (v.toNat - 65) = v.toNat by omega, UInt16.ofNat_toNat] at here
    · exact solid v is

theorem normalizeEmail_spec_pasted :
    (normalizeEmail Js.toLowerCase (Js.ofString " <Ann@Example.ORG> ")).changes.Nodup ∧
      ((normalizeEmail Js.toLowerCase (Js.ofString " <Ann@Example.ORG> ")).changes = [] ↔
        (normalizeEmail Js.toLowerCase (Js.ofString " <Ann@Example.ORG> ")).normalized.getD [] =
          Js.ofString " <Ann@Example.ORG> ") :=
  (normalizeEmail_spec Js.toLowerCase toLowerCase_lowersDomains
    (Js.ofString " <Ann@Example.ORG> ")).choose_spec.2.2.2

end Tozalist.Core
