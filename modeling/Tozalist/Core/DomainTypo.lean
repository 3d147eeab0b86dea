/-
# Tozalist.Core.DomainTypo -- the provider a domain was probably meant to be

`packages/core/src/domain-typo.ts`.  A domain is compared with the known providers: an
explicit map of misspellings, a repair of the last label, then a Levenshtein distance
with a cut-off.

`STATIC_TYPO_MAP` is an object literal, so a lookup in it also finds what objects
inherit.  A lower-cased domain can name two inherited properties, `constructor` and
`__proto__`; what `detectTypo` then returns is no string, and stands here as the text
JavaScript gives it.
-/
import Tozalist.Js.Text

namespace Tozalist.Core

set_option autoImplicit false

/-! ## The tables -/

/-- `KNOWN_PROVIDER_DOMAINS`, in the order that breaks ties. -/
def knownProviderNames : List String :=
  [
    -- The original core list stays first and in order: it is the tie-breaker.
    "gmail.com", "yahoo.com", "hotmail.com", "outlook.com", "icloud.com", "proton.me",
    "protonmail.com", "mail.ru", "yandex.ru", "yandex.com", "inbox.ru", "list.ru", "bk.ru",
    "rambler.ru", "umail.uz", "exat.uz",
    -- Global consumer providers.
    "googlemail.com", "live.com", "msn.com", "me.com", "mac.com", "aol.com", "pm.me", "mail.com",
    "gmx.com", "gmx.net", "gmx.de", "gmx.at", "gmx.ch", "web.de", "zoho.com", "zohomail.com",
    "fastmail.com", "fastmail.fm", "tutanota.com", "tuta.com", "tuta.io", "hey.com",
    "hushmail.com", "mailfence.com", "posteo.de", "ymail.com", "rocketmail.com",
    -- Microsoft and Yahoo regional variants (widely used ones only).
    "outlook.de", "outlook.fr", "outlook.es", "outlook.it", "outlook.jp", "outlook.kr",
    "outlook.in", "outlook.ie", "outlook.be", "outlook.at", "outlook.dk", "outlook.pt",
    "outlook.cz", "outlook.hu", "outlook.sa", "outlook.com.br", "outlook.com.au",
    "outlook.com.tr", "outlook.com.ar", "outlook.co.id", "outlook.co.il", "outlook.co.nz",
    "outlook.co.th", "hotmail.co.uk", "hotmail.fr", "hotmail.de", "hotmail.it", "hotmail.es",
    "hotmail.nl", "hotmail.be", "hotmail.ca", "hotmail.se", "hotmail.dk", "hotmail.no",
    "hotmail.fi", "hotmail.ch", "hotmail.gr", "hotmail.pt", "hotmail.cz", "hotmail.hu",
    "hotmail.sk", "hotmail.ie", "hotmail.sg", "hotmail.my", "hotmail.ph", "hotmail.cl",
    "hotmail.com.br", "hotmail.com.ar", "hotmail.com.au", "hotmail.com.mx", "hotmail.com.tr",
    "hotmail.com.hk", "hotmail.com.tw", "hotmail.co.jp", "hotmail.co.nz", "hotmail.co.th",
    "hotmail.co.il", "hotmail.co.za", "hotmail.co.kr", "live.co.uk", "live.fr", "live.de",
    "live.it", "live.nl", "live.be", "live.se", "live.dk", "live.no", "live.fi", "live.ca",
    "live.ie", "live.at", "live.ch", "live.jp", "live.cl", "live.in", "live.ru", "live.com.au",
    "live.com.mx", "live.com.ar", "live.com.pt", "live.com.sg", "live.com.my", "live.co.za",
    "live.co.kr", "yahoo.co.uk", "yahoo.fr", "yahoo.de", "yahoo.it", "yahoo.es", "yahoo.ca",
    "yahoo.ie", "yahoo.se", "yahoo.dk", "yahoo.no", "yahoo.fi", "yahoo.nl", "yahoo.be",
    "yahoo.gr", "yahoo.pl", "yahoo.ro", "yahoo.cz", "yahoo.hu", "yahoo.pt", "yahoo.ae",
    "yahoo.cn", "yahoo.in", "yahoo.cl", "yahoo.com.br", "yahoo.com.ar", "yahoo.com.mx",
    "yahoo.com.au", "yahoo.com.sg", "yahoo.com.my", "yahoo.com.ph", "yahoo.com.vn",
    "yahoo.com.hk", "yahoo.com.tw", "yahoo.com.tr", "yahoo.com.cn", "yahoo.com.pe",
    "yahoo.com.co", "yahoo.com.ve", "yahoo.co.jp", "yahoo.co.in", "yahoo.co.id", "yahoo.co.kr",
    "yahoo.co.nz", "yahoo.co.za", "yahoo.co.th", "yahoo.co.il",
    -- Europe.
    "t-online.de", "freenet.de", "arcor.de", "orange.fr", "wanadoo.fr", "free.fr", "laposte.net",
    "sfr.fr", "bbox.fr", "neuf.fr", "libero.it", "virgilio.it", "tiscali.it", "alice.it",
    "tin.it", "fastwebnet.it", "seznam.cz", "centrum.cz", "email.cz", "post.cz", "volny.cz",
    "wp.pl", "o2.pl", "onet.pl", "onet.eu", "interia.pl", "op.pl", "vp.pl", "tlen.pl",
    "gazeta.pl", "poczta.fm", "azet.sk", "centrum.sk", "zoznam.sk", "freemail.hu", "citromail.hu",
    "indamail.hu", "abv.bg", "mail.bg", "dir.bg", "telenet.be", "skynet.be", "ziggo.nl",
    "kpnmail.nl", "planet.nl", "home.nl", "xs4all.nl", "telia.com", "telia.se", "comhem.se",
    "online.no", "bluewin.ch", "sunrise.ch", "a1.net", "chello.at", "aon.at", "sapo.pt",
    "terra.com", "terra.es", "telefonica.net", "btinternet.com", "btopenworld.com", "sky.com",
    "virginmedia.com", "blueyonder.co.uk", "ntlworld.com", "talktalk.net", "tiscali.co.uk",
    "eircom.net", "mail.ee", "hot.ee", "inbox.lv", "apollo.lv", "inbox.lt",
    -- North America, Australia, New Zealand.
    "comcast.net", "verizon.net", "att.net", "sbcglobal.net", "bellsouth.net", "cox.net",
    "charter.net", "earthlink.net", "optonline.net", "roadrunner.com", "rr.com", "frontier.com",
    "windstream.net", "centurylink.net", "juno.com", "netzero.net", "shaw.ca", "rogers.com",
    "sympatico.ca", "bell.net", "telus.net", "videotron.ca", "bigpond.com", "bigpond.net.au",
    "optusnet.com.au", "iinet.net.au", "tpg.com.au", "xtra.co.nz",
    -- Asia and Latin America.
    "qq.com", "163.com", "126.com", "sina.com", "sina.cn", "sohu.com", "foxmail.com",
    "aliyun.com", "yeah.net", "139.com", "naver.com", "daum.net", "hanmail.net", "nate.com",
    "kakao.com", "rediffmail.com", "sify.com", "uol.com.br", "bol.com.br", "terra.com.br",
    "ig.com.br", "globo.com",
    -- CIS and Uzbekistan.
    "internet.ru", "ya.ru", "yandex.kz", "yandex.by", "yandex.ua", "narod.ru", "lenta.ru",
    "autorambler.ru", "myrambler.ru", "ro.ru", "r0.ru", "ukr.net", "i.ua", "ua.fm", "meta.ua",
    "bigmir.net", "email.ua", "tut.by", "mail.kz", "sarkor.uz"]

def knownProviderDomains : List JsString := knownProviderNames.map Js.ofString

/-- `STATIC_TYPO_MAP`. -/
def staticTypoMap : List (String × String) :=
  [("gmai.com", "gmail.com"), ("gmial.com", "gmail.com"), ("gmal.com", "gmail.com"),
    ("gamil.com", "gmail.com"), ("gmail.co", "gmail.com"), ("yaho.com", "yahoo.com"),
    ("yahooo.com", "yahoo.com"), ("hotnail.com", "hotmail.com"), ("hotmial.com", "hotmail.com"),
    ("outlok.com", "outlook.com"), ("outloook.com", "outlook.com"), ("iclod.com", "icloud.com"),
    ("icoud.com", "icloud.com"), ("protonmial.com", "protonmail.com"), ("mail.rut", "mail.ru"),
    ("meil.ru", "mail.ru"), ("yandex.con", "yandex.com"), ("yandx.ru", "yandex.ru"),
    ("ramler.ru", "rambler.ru"), ("umail.zu", "umail.uz"), ("exat.zu", "exat.uz")]

/-- The properties of every object that a lower-cased text can name, as texts. -/
def inheritedProperties : List (String × String) :=
  [("constructor", "function Object() \x7b [native code] \x7d"), ("__proto__", "[object Object]")]

/-- `NEVER_CORRECT`. -/
def neverCorrect : List String :=
  ["vk.ru", "vk.com", "ok.ru", "bk.com", "protonmail.ch", "yandex.net",
    "outlook.office.com", "office365.com"]

/-- `TLD_TYPO_MAP`. -/
def tldTypoMap : List (String × String) :=
  [("cmo", "com"), ("con", "com"), ("ocm", "com"), ("comm", "com"), ("vom", "com"),
    ("xom", "com"), ("rut", "ru"), ("ruu", "ru"), ("zu", "uz"), ("uzz", "uz")]

/-- Lower-case letters, digits, `-` and `.`. -/
def domainUnit (u : UInt16) : Bool :=
  (0x61 ≤ u && u ≤ 0x7A) || (0x30 ≤ u && u ≤ 0x39) || u == 0x2D || u == 0x2E

/-- A text of such units, with a dot that is not the last of them. -/
def isDomainText (s : JsString) : Bool :=
  s.all domainUnit && s.contains 0x2E && s.getLast? != some 0x2E

theorem knownProviderDomains_text : ∀ k ∈ knownProviderDomains, isDomainText k = true := by
  unfold knownProviderDomains knownProviderNames
  dsimp only
  apply Js.Spelled.forall_ofString
  · repeat' constructor
  · decide +kernel

theorem neverCorrect_text : ∀ k ∈ neverCorrect.map Js.ofString, isDomainText k = true := by
  unfold neverCorrect
  apply Js.Spelled.forall_ofString
  · repeat' constructor
  · decide +kernel

theorem domainUnit_of_isDomainText {s : JsString} {u : UInt16} (text : isDomainText s = true)
    (member : u ∈ s) : domainUnit u = true := by
  simp only [isDomainText, Bool.and_eq_true] at text
  exact List.all_eq_true.1 text.1.1 u member

theorem dotted_of_isDomainText {s : JsString} (text : isDomainText s = true) :
    (0x2E : UInt16) ∈ s := by
  simp only [isDomainText, Bool.and_eq_true] at text
  exact List.contains_iff_mem.1 text.1.2

/-- A property of an object literal. -/
def property (table : List (String × String)) (key : JsString) : Option JsString :=
  (table.find? fun entry => Js.ofString entry.1 = key).map fun entry => Js.ofString entry.2

/-! ## Edit distance -/

/-- One row of the distance table, `j` from 1: `previous` is the row above from the column
before on, `left` the value just computed. -/
def levenshteinRow (unit : UInt16) : JsString → List ℕ → ℕ → List ℕ
  | v :: b, above :: rest, left =>
      let substitution := above + if unit = v then 0 else 1
      let insertion := left + 1
      let deletion := rest.headD 0 + 1
      let value := min substitution (min insertion deletion)
      value :: levenshteinRow unit b rest value
  | _, _, _ => []

/-- The rows of the distance table from row `i` on, up to the cut-off. -/
def levenshteinRows (b : JsString) (limit : ℕ) : JsString → ℕ → List ℕ → ℕ
  | [], _, previous => previous.getLastD (limit + 1)
  | u :: a, i, previous =>
      let current := i :: levenshteinRow u b previous i
      if limit < current.foldl min i then limit + 1
      else levenshteinRows b limit a (i + 1) current

/-- `levenshtein`: the distance, or something above `limit`. -/
def levenshtein (a b : JsString) (limit : ℕ) : ℕ :=
  if a = b then 0
  else if limit < max (a.length - b.length) (b.length - a.length) then limit + 1
  else levenshteinRows b limit a 1 (List.range (b.length + 1))

/-! ## Detection -/

/-- `normalizeDomain`. -/
def normalizeDomain (toLowerCase : JsString → JsString) (domain : JsString) : JsString :=
  let value := toLowerCase (Js.trim domain)
  if value.getLast? = some 0x2E then value.dropLast else value

/-- `repairTld`.  An inherited property repairs nothing: no known domain ends in its text. -/
def repairTld (domain : JsString) : Option JsString :=
  match Js.lastIndexOf domain 0x2E with
  | none => none
  | some 0 => none
  | some lastDot =>
      match property tldTypoMap (domain.drop (lastDot + 1)) with
      | none => none
      | some fixedTld =>
          let candidate := domain.take lastDot ++ 0x2E :: fixedTld
          if candidate ∈ knownProviderDomains then some candidate else none

def minLengthForDistanceMatch : ℕ := 8

def minLengthForTwoEdits : ℕ := 10

/-- The loop of `closestKnownDomain`: strictly less keeps the earliest entry on ties. -/
def closer (domain : JsString) (maxDistance : ℕ) (best : Option JsString × ℕ)
    (known : JsString) : Option JsString × ℕ :=
  let distance := levenshtein domain known maxDistance
  if distance < best.2 then (some known, distance) else best

/-- `closestKnownDomain`. -/
def closestKnownDomain (domain : JsString) : Option JsString :=
  if domain.length < minLengthForDistanceMatch then none
  else
    let maxDistance := if domain.length < minLengthForTwoEdits then 1 else 2
    let best := knownProviderDomains.foldl (closer domain maxDistance) (none, maxDistance + 1)
    if best.2 ≤ maxDistance then best.1 else none

/-- `detectTypo`. -/
def detectTypo (toLowerCase : JsString → JsString) (domain : JsString) : Option JsString :=
  let normalized := normalizeDomain toLowerCase domain
  if normalized = [] then none
  else if normalized ∈ knownProviderDomains then none
  else if normalized ∈ neverCorrect.map Js.ofString then none
  else match property (staticTypoMap ++ inheritedProperties) normalized with
    | some mapped => some mapped
    | none =>
        match repairTld normalized with
        | some tldRepaired => some tldRepaired
        | none => closestKnownDomain normalized

/-! ## Where suggestions come from -/

theorem property_mem {table : List (String × String)} {key value : JsString}
    (found : property table key = some value) :
    ∃ entry ∈ table, Js.ofString entry.1 = key ∧ Js.ofString entry.2 = value := by
  obtain ⟨entry, has, rfl⟩ := Option.map_eq_some_iff.1 found
  exact ⟨entry, List.mem_of_find?_eq_some has, by simpa using List.find?_some has, rfl⟩

theorem repairTld_mem {domain suggestion : JsString} (found : repairTld domain = some suggestion) :
    suggestion ∈ knownProviderDomains := by
  unfold repairTld at found
  split at found <;> [cases found; cases found; skip]
  split at found <;> [cases found; skip]
  simp only at found
  split at found
  · rename_i known
    obtain rfl := Option.some.inj found
    exact known
  · cases found

/-- The best of a search is one of the domains searched. -/
theorem foldl_closer_mem (domain : JsString) (maxDistance : ℕ) (domains : List JsString)
    (best : Option JsString × ℕ) {s : JsString}
    (found : (domains.foldl (closer domain maxDistance) best).1 = some s) :
    s ∈ domains ∨ best.1 = some s := by
  induction domains generalizing best with
  | nil => exact .inr found
  | cons known domains ih =>
      rcases ih _ found with later | before
      · exact .inl (List.mem_cons_of_mem known later)
      · simp only [closer] at before
        split at before
        · obtain rfl := Option.some.inj before
          exact .inl List.mem_cons_self
        · exact .inr before

theorem closestKnownDomain_mem {domain suggestion : JsString}
    (found : closestKnownDomain domain = some suggestion) :
    suggestion ∈ knownProviderDomains := by
  unfold closestKnownDomain at found
  split at found
  · cases found
  · obtain ⟨-, best⟩ := Option.ite_none_right_eq_some.1 found
    rcases foldl_closer_mem domain _ knownProviderDomains _ best with member | none_
    · exact member
    · cases none_

/-- Every explicit correction is a known provider. -/
theorem staticTypoMap_known :
    ∀ entry ∈ staticTypoMap, Js.ofString entry.2 ∈ knownProviderDomains := by
  have named : ∀ entry ∈ staticTypoMap, entry.2 ∈ knownProviderNames := by decide +kernel
  exact fun entry member => List.mem_map_of_mem (named entry member)

/-- **A suggestion** is a known provider, or what the map inherits. -/
theorem detectTypo_mem {toLowerCase : JsString → JsString} {domain suggestion : JsString}
    (found : detectTypo toLowerCase domain = some suggestion) :
    suggestion ∈ knownProviderDomains ∨
      suggestion ∈ inheritedProperties.map fun entry => Js.ofString entry.2 := by
  unfold detectTypo at found
  simp only at found
  split at found <;> [cases found; skip]
  split at found <;> [cases found; skip]
  split at found <;> [cases found; skip]
  split at found
  · rename_i mapped has
    obtain rfl := Option.some.inj found
    obtain ⟨entry, member, -, rfl⟩ := property_mem has
    rcases List.mem_append.1 member with static | inherited
    · exact .inl (staticTypoMap_known entry static)
    · exact .inr (List.mem_map.2 ⟨entry, inherited, rfl⟩)
  · split at found
    · rename_i repaired
      obtain rfl := Option.some.inj found
      exact .inl (repairTld_mem repaired)
    · exact .inl (closestKnownDomain_mem found)

/-- A suggestion has no NUL. -/
theorem detectTypo_nul_free {toLowerCase : JsString → JsString} {domain suggestion : JsString}
    (found : detectTypo toLowerCase domain = some suggestion) : (0 : UInt16) ∉ suggestion := by
  have inherited : ∀ d ∈ inheritedProperties.map fun entry => Js.ofString entry.2,
      (0 : UInt16) ∉ d := by decide +kernel
  rcases detectTypo_mem found with member | member
  · intro nul
    have listed := domainUnit_of_isDomainText (knownProviderDomains_text suggestion member) nul
    exact absurd listed (by decide)
  · exact inherited suggestion member

end Tozalist.Core
