/-
# Tozalist.Worker.WebhookTarget -- the address a webhook is sent to

The delivery attempt of `apps/worker/src/webhooks/processor.ts` checks the endpoint's host and
pins the connection to the first address that passed; `fetchWebhookTransport` resolves every
name to that address.

* `Denotes` -- the address a text spells;
* `Overlooked` -- the internal addresses the check has no range for;
* `isPrivateAddress_iff` -- which texts the check refuses;
* `target_iff` -- internal addresses are refused exactly when no checked text spells an
  overlooked one, or some checked text is refused for itself.
-/
import Tozalist.Shared.Ssrf

namespace Tozalist.Worker

set_option autoImplicit false

open Js
open Theory.InternetAddress
open Shared (isPrivateAddress checkWebhookHost canonicalizeIpv6 ListedV4 ListedV6)

/-! ## From the check to the connection -/

/-- `ssrf.addresses[0]` of a check that passed; `none` is `finishAttempt('ssrf_blocked')`. -/
def connectToAddress : Shared.SsrfCheck → Option JsString
  | .ok addresses => addresses[0]?
  | .refused _ => none

/-- What `fetchWebhookTransport` resolves every name to; `none` is a `network_error` before any
connection. -/
def pinnedLookup (address : JsString) : Option (JsString × ℕ) :=
  let family := isIP address
  if family = 0 then none else some (address, family)

/-- The texts `checkWebhookHost` looks at. -/
def checkedAddresses (hostname : JsString) (answer : Option (List JsString)) : List JsString :=
  if isIP hostname ≠ 0 then [hostname] else answer.getD []

theorem checkWebhookHost_eq (hostname : JsString) (answer : Option (List JsString)) :
    checkWebhookHost hostname answer =
      if checkedAddresses hostname answer = [] then .refused .unresolvable
      else if (checkedAddresses hostname answer).any isPrivateAddress then .refused .privateAddress
      else .ok (checkedAddresses hostname answer) := by
  unfold checkWebhookHost checkedAddresses
  by_cases literal : isIP hostname ≠ 0
  · rw [if_pos literal, if_pos literal, if_neg (List.cons_ne_nil _ _), List.any_cons, List.any_nil,
      Bool.or_false]
  · rw [if_neg literal, if_neg literal]
    cases answer with
    | none => rfl
    | some addresses => simp only [Option.getD_some, List.length_eq_zero_iff]

/-! ## What a text spells -/

/-- `t` spells an address, blanks around it and the case of its letters aside. -/
def Denotes (t : JsString) : Address → Prop
  | .v4 q => toLowerCase (trim t) = quadText q
  | .v6 x => ∃ form : Ipv6Form, toLowerCase (trim t) = form.text ∧ form.address = x

/-- `t` spells an IPv6 address with `::` directly before a dotted quad. -/
def SpellsGlued (t : JsString) : Prop :=
  ∃ form : Ipv6Form, toLowerCase (trim t) = form.text ∧ form.Glued

/-- The addresses the check has a range for. -/
def Listed : Address → Prop
  | .v4 q => ListedV4 q
  | .v6 x => ListedV6 x

/-- Internal IPv4 addresses without a range in `isPrivateIpv4`: 224.0.0.0/4 and 240.0.0.0/4. -/
def OverlookedV4 (q : Ipv4) : Prop := q.Multicast ∨ q.Reserved

/-- The internal addresses the check has no range for: of IPv6 `::`, ff00::/8, the reserved
blocks, the mapped ones of an overlooked IPv4 address, and the IPv4-compatible and NAT64 ones of
any internal one. -/
def Overlooked : Address → Prop
  | .v4 q => OverlookedV4 q
  | .v6 x =>
      x.Unspecified ∨ x.Multicast ∨ x.Reserved ∨ (x.Mapped ∧ OverlookedV4 x.embedded) ∨
        ((x.Compatible ∨ x.Nat64) ∧ x.embedded.Internal)

/-- The check refuses a text that spells no address, or a listed one, or spells any with
`::` directly before a dotted quad. -/
def RefusedText (t : JsString) : Prop :=
  (∀ a, ¬ Denotes t a) ∨ (∃ a, Denotes t a ∧ Listed a) ∨ SpellsGlued t

/-! ## The ranges -/

theorem internalV4_cases {q : Ipv4} (internal : q.Internal) : ListedV4 q ∨ OverlookedV4 q := by
  rcases internal with unspecified | loopback | private_ | link | multicast | reserved
  · exact .inl (.inr (.inr (.inr unspecified.1)))
  · exact .inl (.inr (.inl loopback))
  · exact .inl (.inl private_)
  · exact .inl (.inr (.inr (.inl link)))
  · exact .inr (.inl multicast)
  · exact .inr (.inr reserved)

/-- **The ranges together** are all internal addresses. -/
theorem internal_cases {a : Address} (internal : a.Internal) : Listed a ∨ Overlooked a := by
  cases a with
  | v4 q => exact internalV4_cases internal
  | v6 x =>
      rcases internal with unspecified | loopback | unique | link | multicast | reserved |
        ⟨prefix_, embedded⟩
      · exact .inr (.inl unspecified)
      · exact .inl (.inl loopback)
      · exact .inl (.inr (.inr (.inl unique)))
      · exact .inl (.inr (.inr (.inr link)))
      · exact .inr (.inr (.inl multicast))
      · exact .inr (.inr (.inr (.inl reserved)))
      · rcases prefix_ with mapped | other
        · rcases internalV4_cases embedded with listed | overlooked
          · exact .inl (.inr (.inl ⟨mapped, listed⟩))
          · exact .inr (.inr (.inr (.inr (.inl ⟨mapped, overlooked⟩))))
        · exact .inr (.inr (.inr (.inr (.inr ⟨other, embedded⟩))))

theorem internalV4_of_overlooked {q : Ipv4} (overlooked : OverlookedV4 q) : q.Internal := by
  rcases overlooked with multicast | reserved
  · exact .inr (.inr (.inr (.inr (.inl multicast))))
  · exact .inr (.inr (.inr (.inr (.inr reserved))))

theorem internal_of_overlooked {a : Address} (overlooked : Overlooked a) : a.Internal := by
  cases a with
  | v4 q => exact internalV4_of_overlooked overlooked
  | v6 x =>
      have embeds : (x.Mapped ∨ x.Compatible ∨ x.Nat64) ∧ x.embedded.Internal → x.Internal :=
        fun both => .inr (.inr (.inr (.inr (.inr (.inr both)))))
      rcases overlooked with unspecified | multicast | reserved | ⟨mapped, inner⟩ | ⟨other, inner⟩
      · exact .inl unspecified
      · exact .inr (.inr (.inr (.inr (.inl multicast))))
      · exact .inr (.inr (.inr (.inr (.inr (.inl reserved)))))
      · exact embeds ⟨.inl mapped, internalV4_of_overlooked inner⟩
      · exact embeds ⟨.inr other, inner⟩

/-! ## What the check refuses -/

theorem isPrivateAddress_of_v4 {t : JsString} {q : Ipv4} (spelled : Denotes t (.v4 q)) :
    isPrivateAddress t = true ↔ ListedV4 q := by
  have literal : isIPv4 (quadText q) = true := isIPv4_iff.2 ⟨q, rfl⟩
  have four : isIP (quadText q) = 4 := if_pos literal
  unfold isPrivateAddress
  rw [show toLowerCase (trim t) = quadText q from spelled]
  simp only [four, if_true]
  exact Shared.isPrivateIpv4_quadText q

/-- A literal with a zone is refused. -/
theorem isPrivateAddress_of_zone {t : JsString} (six : isIP (toLowerCase (trim t)) = 6)
    (zone : percent ∈ toLowerCase (trim t)) : isPrivateAddress t = true := by
  have none_ : canonicalizeIpv6 (toLowerCase (trim t)) = none := if_pos zone
  unfold isPrivateAddress
  simp only [six, none_]
  rfl

/-- A text that `isIP` takes for an IPv6 literal spells an address or has a zone. -/
theorem denotes_of_isIPv6 {t : JsString} (six : isIPv6 (toLowerCase (trim t)) = true)
    (noZone : percent ∉ toLowerCase (trim t)) : ∃ x, Denotes t (.v6 x) := by
  have whole : (toLowerCase (trim t)).takeWhile (· ≠ percent) = toLowerCase (trim t) :=
    List.takeWhile_eq_self_iff.2 fun u member => decide_eq_true fun is => noZone (is ▸ member)
  rw [isIPv6, Bool.and_eq_true, whole] at six
  obtain ⟨form, text⟩ := Ipv6Form.exists_of_isIPv6Address six.1
  exact ⟨form.address, form, text.symm, rfl⟩

/-- **The texts the check refuses.** -/
theorem isPrivateAddress_iff (t : JsString) : isPrivateAddress t = true ↔ RefusedText t := by
  constructor
  · intro refused
    by_cases spelled : ∃ a, Denotes t a
    · obtain ⟨a, denotes⟩ := spelled
      cases a with
      | v4 q => exact .inr (.inl ⟨.v4 q, denotes, (isPrivateAddress_of_v4 denotes).1 refused⟩)
      | v6 x =>
          obtain ⟨form, text, rfl⟩ := id denotes
          rcases (Shared.isPrivateAddress_spelled text).1 refused with glued | listed
          · exact .inr (.inr ⟨form, text, glued⟩)
          · exact .inr (.inl ⟨.v6 form.address, denotes, listed⟩)
    · exact .inl fun a denotes => spelled ⟨a, denotes⟩
  · rintro (nothing | ⟨a, denotes, listed⟩ | ⟨form, text, glued⟩)
    · by_cases four : isIPv4 (toLowerCase (trim t)) = true
      · obtain ⟨q, is⟩ := isIPv4_iff.1 four
        exact absurd is (nothing (.v4 q))
      · by_cases six : isIPv6 (toLowerCase (trim t)) = true
        · have family : isIP (toLowerCase (trim t)) = 6 := by rw [isIP, if_neg four, if_pos six]
          apply isPrivateAddress_of_zone family
          by_contra noZone
          obtain ⟨x, denotes⟩ := denotes_of_isIPv6 six noZone
          exact nothing _ denotes
        · unfold isPrivateAddress
          simp only [isIP, if_neg four, if_neg six]
          rfl
    · cases a with
      | v4 q => exact (isPrivateAddress_of_v4 denotes).2 listed
      | v6 x =>
          obtain ⟨form, text, rfl⟩ := denotes
          exact (Shared.isPrivateAddress_spelled text).2 (.inr listed)
    · exact (Shared.isPrivateAddress_spelled text).2 (.inl glued)

/-! ## The target -/

/-- A host with an internal address among those looked at is refused, and where the check
passes the transport gets one of the texts looked at, and resolves every name to it. -/
def Guarded (hostname : JsString) (answer : Option (List JsString)) : Prop :=
  ((∃ t ∈ checkedAddresses hostname answer, ∃ a, Denotes t a ∧ a.Internal) →
    ∃ reason, checkWebhookHost hostname answer = .refused reason) ∧
  ∀ addresses, checkWebhookHost hostname answer = .ok addresses →
    ∃ t ∈ checkedAddresses hostname answer,
      connectToAddress (checkWebhookHost hostname answer) = some t ∧
        ∀ reached family, pinnedLookup t = some (reached, family) → reached = t

/-- The first of the checked texts is handed on. -/
theorem connectToAddress_mem {hostname : JsString} {answer : Option (List JsString)}
    {addresses : List JsString} (passed : checkWebhookHost hostname answer = .ok addresses) :
    ∃ t ∈ checkedAddresses hostname answer,
      connectToAddress (checkWebhookHost hostname answer) = some t := by
  rw [checkWebhookHost_eq] at passed ⊢
  split at passed
  · cases passed
  · rename_i some_
    split at passed
    · cases passed
    · rename_i public_
      rw [if_neg some_, if_neg public_]
      obtain ⟨t, rest, is⟩ := List.exists_cons_of_ne_nil some_
      rw [is]
      exact ⟨t, List.mem_cons_self, rfl⟩

theorem pinnedLookup_eq {address reached : JsString} {family : ℕ}
    (looked : pinnedLookup address = some (reached, family)) : reached = address := by
  unfold pinnedLookup at looked
  simp only [] at looked
  split at looked
  · cases looked
  · exact (Prod.mk.inj (Option.some.inj looked)).1.symm

theorem refused_iff {hostname : JsString} {answer : Option (List JsString)}
    (some_ : checkedAddresses hostname answer ≠ []) :
    (∃ reason, checkWebhookHost hostname answer = .refused reason) ↔
      ∃ t ∈ checkedAddresses hostname answer, RefusedText t := by
  rw [checkWebhookHost_eq, if_neg some_]
  simp only [List.any_eq_true, ← isPrivateAddress_iff]
  split
  · rename_i listed
    exact iff_of_true ⟨_, rfl⟩ listed
  · rename_i public_
    exact iff_of_false (fun ⟨_, is⟩ => nomatch is) public_

/-- **Internal addresses are refused** exactly when no checked text spells an overlooked one, or
some checked text is refused for itself. -/
theorem target_iff (hostname : JsString) (answer : Option (List JsString)) :
    Guarded hostname answer ↔
      (∀ t ∈ checkedAddresses hostname answer, ∀ a, Denotes t a → ¬ Overlooked a) ∨
        ∃ t ∈ checkedAddresses hostname answer, RefusedText t := by
  constructor
  · rintro ⟨refuses, -⟩
    by_cases overlooked :
        ∃ t ∈ checkedAddresses hostname answer, ∃ a, Denotes t a ∧ Overlooked a
    · obtain ⟨t, member, a, denotes, over_⟩ := overlooked
      refine .inr ((refused_iff (List.ne_nil_of_mem member)).1 (refuses ?_))
      exact ⟨t, member, a, denotes, internal_of_overlooked over_⟩
    · exact .inl fun t member a denotes over_ => overlooked ⟨t, member, a, denotes, over_⟩
  · intro condition
    refine ⟨?_, ?_⟩
    · rintro ⟨t, member, a, denotes, internal⟩
      apply (refused_iff (List.ne_nil_of_mem member)).2
      rcases condition with none_ | refused
      · rcases internal_cases internal with listed | over_
        · exact ⟨t, member, .inr (.inl ⟨a, denotes, listed⟩)⟩
        · exact absurd over_ (none_ t member a denotes)
      · exact refused
    · intro addresses passed
      obtain ⟨t, member, handed⟩ := connectToAddress_mem passed
      exact ⟨t, member, handed, fun _ _ looked => pinnedLookup_eq looked⟩

/-- A reserved address is among those that are let through. -/
example : Overlooked (.v6 ⟨0x4000, 0, 0, 0, 0, 0, 0, 1⟩) :=
  .inr (.inr (.inl (by decide)))

/-- A host that resolves to 64:ff9b::a00:1, the NAT64 form of 10.0.0.1, is let through. -/
theorem nat64_passes : ¬ ∀ hostname answer, Guarded hostname answer := by
  intro guarded
  obtain ⟨form, spelled, apart, open_, internal⟩ : ∃ form : Ipv6Form,
      form.text = ofString "64:ff9b::a00:1" ∧ ¬ form.Glued ∧ ¬ ListedV6 form.address ∧
        form.address.Internal :=
    ⟨⟨[ofString "64", ofString "ff9b"], some [ofString "a00", ofString "1"], none, by decide,
      by decide, by decide⟩, by decide, by decide, by decide, by decide⟩
  have name : checkedAddresses (ofString "hooks.example") (some [form.text]) = [form.text] :=
    if_neg (by decide)
  obtain ⟨refuses, -⟩ := guarded (ofString "hooks.example") (some [form.text])
  rw [refused_iff (by rw [name]; exact List.cons_ne_nil _ _), name] at refuses
  obtain ⟨t, member, refused⟩ := refuses ⟨form.text, List.mem_cons_self, .v6 form.address,
    ⟨form, by rw [spelled]; decide, rfl⟩, internal⟩
  obtain rfl := List.mem_singleton.1 member
  rw [← isPrivateAddress_iff, Shared.isPrivateAddress_text] at refused
  rcases refused with glued | listed
  · exact apart glued
  · exact open_ listed

end Tozalist.Worker
