/-
# Tozalist.Core.Suggestion -- what may be suggested

A suggestion should be a known provider other than the domain itself, should never be made for
a known provider or for a domain that is not to be corrected, and should stand when it is looked
at again.

`STATIC_TYPO_MAP` is an object, and looking a domain up in it also finds what it inherits:
`suggestions_known_iff` is the law, with the two domains it fails for.
-/
import Tozalist.Core.DomainTypo
import Tozalist.Js.Net

namespace Tozalist.Core

set_option autoImplicit false

/-! ## Names that are their own normal form -/

/-- The domains that are never corrected. -/
def uncorrected : List JsString := knownProviderDomains ++ neverCorrect.map Js.ofString

/-- The units of a name that case and white space leave alone. -/
def plainUnit (u : UInt16) : Bool := u < 128 && !Js.isSpace u

theorem uncorrected_text {k : JsString} (listed : k ∈ uncorrected) : isDomainText k = true := by
  rcases List.mem_append.1 listed with known | never
  · exact knownProviderDomains_text k known
  · exact neverCorrect_text k never

/-- A unit of a domain is plain and not an upper-case letter. -/
theorem domainUnit_bounds {u : UInt16} (unit : domainUnit u = true) :
    plainUnit u = true ∧ Js.lowerUnit u = u := by
  have bounds : u.toNat = 45 ∨ u.toNat = 46 ∨ (48 ≤ u.toNat ∧ u.toNat ≤ 57) ∨
      (97 ≤ u.toNat ∧ u.toNat ≤ 122) := by
    simp only [domainUnit, Bool.or_eq_true, Bool.and_eq_true, decide_eq_true_eq, beq_iff_eq,
      UInt16.le_iff_toNat_le, UInt16.reduceToNat, ← UInt16.toNat_inj] at unit
    omega
  constructor
  · simp only [plainUnit, Js.isSpace, Bool.not_or, Bool.not_and, Bool.and_eq_true, Bool.or_eq_true,
      Bool.not_eq_eq_eq_not, Bool.not_true, decide_eq_true_eq, decide_eq_false_iff_not,
      beq_eq_false_iff_ne, ne_eq, UInt16.lt_iff_toNat_lt, UInt16.le_iff_toNat_le,
      UInt16.reduceToNat, ← UInt16.toNat_inj]
    omega
  · apply if_neg
    simp only [UInt16.le_iff_toNat_le, UInt16.reduceToNat]
    omega

theorem uncorrected_plain : ∀ k ∈ uncorrected,
    k ≠ [] ∧ k.all plainUnit = true ∧ k.getLast? ≠ some 0x2E ∧ Js.toLowerCase k = k := by
  intro k listed
  have text := uncorrected_text listed
  have units : ∀ u ∈ k, domainUnit u = true := fun u => domainUnit_of_isDomainText text
  simp only [isDomainText, Bool.and_eq_true, bne_iff_ne, List.contains_iff_mem] at text
  refine ⟨List.ne_nil_of_mem text.1.2, ?_, text.2, ?_⟩
  · exact List.all_eq_true.2 fun u member => (domainUnit_bounds (units u member)).1
  · have same := List.map_congr_left fun u member => (domainUnit_bounds (units u member)).2
    exact same.trans (List.map_id' k)

/-- A unit whose lower case is plain is plain. -/
theorem plainUnit_of_lower {u : UInt16} (plain : plainUnit (Js.lowerUnit u) = true) :
    plainUnit u = true := by
  unfold Js.lowerUnit at plain
  split at plain
  · rename_i upper
    have bounds : 65 ≤ u.toNat ∧ u.toNat ≤ 90 := by
      simpa [UInt16.le_iff_toNat_le] using upper
    have letters : ∀ n : Fin 26, plainUnit (UInt16.ofNat (65 + n)) = true := by decide
    have here := letters ⟨u.toNat - 65, by omega⟩
    rwa [show 65 + (u.toNat - 65) = u.toNat by omega, UInt16.ofNat_toNat] at here
  · exact plain

/-! ## What a suggestion should be -/

section Law

variable {toLowerCase : JsString → JsString}

/-- `toLowerCase` of an ASCII text lowers its letters. -/
def LowersAscii (toLowerCase : JsString → JsString) : Prop :=
  ∀ s : JsString, (∀ u ∈ s, u < 128) → toLowerCase s = Js.toLowerCase s

/-- **A name in any letter case** is normalized to the name. -/
theorem normalizeDomain_uncorrected (lowers : LowersAscii toLowerCase) {domain : JsString}
    (listed : Js.toLowerCase domain ∈ uncorrected) :
    normalizeDomain toLowerCase domain = Js.toLowerCase domain := by
  obtain ⟨-, plain, undotted, -⟩ := uncorrected_plain _ listed
  have units : ∀ u ∈ domain, plainUnit u = true := by
    intro u member
    exact plainUnit_of_lower (List.all_eq_true.1 plain _ (List.mem_map_of_mem member))
  have solid : ∀ u ∈ domain, Js.isSpace u = false := by
    intro u member
    have here := units u member
    simp only [plainUnit, Bool.and_eq_true, Bool.not_eq_true'] at here
    exact here.2
  have trimmed : Js.Trimmed domain :=
    ⟨fun u first => solid u (List.mem_of_head? first),
      fun u last => solid u (List.mem_of_getLast? last)⟩
  have ascii : ∀ u ∈ domain, u < 128 := by
    intro u member
    have here := units u member
    simp only [plainUnit, Bool.and_eq_true, decide_eq_true_eq] at here
    exact here.1
  rw [normalizeDomain, Js.trim_eq_self trimmed, lowers domain ascii]
  exact if_neg undotted

/-- **What is never corrected.** -/
theorem detectTypo_uncorrected (lowers : LowersAscii toLowerCase) {domain : JsString}
    (listed : Js.toLowerCase domain ∈ uncorrected) : detectTypo toLowerCase domain = none := by
  unfold detectTypo
  rw [normalizeDomain_uncorrected lowers listed]
  dsimp only
  split
  · rfl
  · split
    · rfl
    · rename_i unknown
      rcases List.mem_append.1 listed with known | never
      · exact absurd known unknown
      · rw [if_pos never]

variable (toLowerCase)

/-- A suggestion for a domain is a known provider, another one, and stands; and a domain that is
not to be corrected, in whatever case, is not. -/
def SuggestsWell (domain : JsString) : Prop :=
  (∀ s, detectTypo toLowerCase domain = some s →
    s ∈ knownProviderDomains ∧ s ≠ normalizeDomain toLowerCase domain ∧
      detectTypo toLowerCase s = none) ∧
  (Js.toLowerCase domain ∈ knownProviderDomains ++ neverCorrect.map Js.ofString →
    detectTypo toLowerCase domain = none)

/-- The normal form names a property that every object has. -/
def NamesInherited (domain : JsString) : Prop :=
  normalizeDomain toLowerCase domain ∈ inheritedProperties.map fun entry => Js.ofString entry.1

variable {toLowerCase}

/-- What an inherited property gives is no provider. -/
theorem detectTypo_inherited {domain : JsString} (inherited : NamesInherited toLowerCase domain) :
    ∃ s, detectTypo toLowerCase domain = some s ∧ s ∉ knownProviderDomains := by
  -- neither name has a dot, so it is in no table that is looked at before
  have looked : ∀ name ∈ inheritedProperties.map fun entry => Js.ofString entry.1,
      name ≠ [] ∧ (0x2E : UInt16) ∉ name ∧
        ∃ s ∈ inheritedProperties.map fun entry => Js.ofString entry.2,
          property (staticTypoMap ++ inheritedProperties) name = some s := by decide +kernel
  -- and what the object inherits reads as a text with a space
  have spaced : ∀ s ∈ inheritedProperties.map fun entry => Js.ofString entry.2,
      (0x20 : UInt16) ∈ s := by decide +kernel
  obtain ⟨some_, undotted, s, text, mapped⟩ := looked _ inherited
  have unlisted : normalizeDomain toLowerCase domain ∉ uncorrected :=
    fun listed => undotted (dotted_of_isDomainText (uncorrected_text listed))
  have unknown := fun known => unlisted (List.mem_append_left _ known)
  have correctable := fun never => unlisted (List.mem_append_right _ never)
  refine ⟨s, ?_, ?_⟩
  · unfold detectTypo
    dsimp only
    rw [if_neg some_, if_neg unknown, if_neg correctable, mapped]
  · intro known
    have listed := domainUnit_of_isDomainText (knownProviderDomains_text s known) (spaced s text)
    exact absurd listed (by decide)

/-- A suggestion that is not inherited is a known provider, and not the domain itself. -/
theorem detectTypo_known {domain s : JsString} (own : ¬ NamesInherited toLowerCase domain)
    (found : detectTypo toLowerCase domain = some s) :
    s ∈ knownProviderDomains ∧ s ≠ normalizeDomain toLowerCase domain := by
  unfold detectTypo at found
  dsimp only at found
  split at found
  · cases found
  split at found
  · cases found
  rename_i unknown
  split at found
  · cases found
  -- what is left is no known domain, and whatever is suggested is one
  have other : s ∈ knownProviderDomains → s ≠ normalizeDomain toLowerCase domain :=
    fun known same => unknown (same ▸ known)
  have known : s ∈ knownProviderDomains := by
    split at found
    · rename_i mapped has
      obtain rfl := Option.some.inj found
      obtain ⟨entry, member, key, rfl⟩ := property_mem has
      rcases List.mem_append.1 member with static | inherited
      · exact staticTypoMap_known entry static
      · exact absurd (List.mem_map.2 ⟨entry, inherited, key⟩) own
    · split at found
      · rename_i repaired
        obtain rfl := Option.some.inj found
        exact repairTld_mem repaired
      · exact closestKnownDomain_mem found
  exact ⟨known, other known⟩

/-- **Suggestions are known providers, and are never made for what is not to be corrected,
except for the two names that an object inherits.** -/
theorem suggestions_known_iff (toLowerCase : JsString → JsString)
    (lowers : LowersAscii toLowerCase) (domain : JsString) :
    SuggestsWell toLowerCase domain ↔ ¬ NamesInherited toLowerCase domain := by
  constructor
  · intro well inherited
    obtain ⟨s, found, foreign⟩ := detectTypo_inherited inherited
    exact foreign (well.1 s found).1
  · intro own
    refine ⟨?_, detectTypo_uncorrected lowers⟩
    intro s found
    obtain ⟨known, other⟩ := detectTypo_known own found
    refine ⟨known, other, detectTypo_uncorrected lowers ?_⟩
    have listed : s ∈ uncorrected := List.mem_append_left _ known
    rwa [(uncorrected_plain s listed).2.2.2]

end Law

theorem toLowerCase_lowersAscii : LowersAscii Js.toLowerCase := fun _ _ => rfl

/-- A misspelling that the map corrects. -/
theorem suggestions_known_iff_misspelled :
    SuggestsWell Js.toLowerCase (Js.ofString "GMIAL.com") :=
  (suggestions_known_iff Js.toLowerCase toLowerCase_lowersAscii (Js.ofString "GMIAL.com")).2
    (by unfold NamesInherited; decide +kernel)

/-- **The domain `constructor` is "corrected" to a function.** -/
theorem constructor_is_corrected :
    (∃ s, detectTypo Js.toLowerCase (Js.ofString "constructor") = some s ∧
      s ∉ knownProviderDomains) ∧ ¬ SuggestsWell Js.toLowerCase (Js.ofString "constructor") := by
  have corrected : ∃ s, detectTypo Js.toLowerCase (Js.ofString "constructor") = some s ∧
      s ∉ knownProviderDomains :=
    detectTypo_inherited (by unfold NamesInherited; decide +kernel)
  obtain ⟨s, found, foreign⟩ := corrected
  exact ⟨⟨s, found, foreign⟩, fun well => foreign (well.1 s found).1⟩

end Tozalist.Core
