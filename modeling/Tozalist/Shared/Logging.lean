/-
# Tozalist.Shared.Logging -- what the log redactor lets through

A logged value is a graph: objects, arrays and errors refer to each other, shared references and
cycles included.  `redactLogValue` walks it with the set of the objects it has seen, and gives a
tree.  Below a depth of twelve there is only the censor token, but the depth starts anew at every
error, so what ends the walk is that it opens no object twice.

* `opened` -- the objects that are opened, as a plain depth-first search;
* `redacts` -- the walk always ends, opens those, and gives a tree in which a secret key has the
  censor token; its texts and keys are free of addresses exactly when the objects' are;
* `redactLogValueAt_blanked` -- no value under a secret key has any influence.

Keys and the names of errors are not scrubbed, and a scrubbed text may still have an address
(`LogText.Chained`); these are the three ways for an address into the log.
-/
import Mathlib.Data.Fintype.Card
import Mathlib.Data.Finset.Card
import Mathlib.Data.Fintype.Basic
import Tozalist.Shared.LogText

namespace Tozalist.Shared.Logging

open Tozalist.Theory Tozalist.Theory.Regex LogText

set_option autoImplicit false

/-! ## Values -/

/-- A value that is logged; what is neither a text nor an object is some `ν`. -/
inductive LogValue (ν : Type) (n : ℕ) where
  | text (s : JsString)
  | plain (v : ν)
  | ref (r : Fin n)

/-- `Object.entries`: the keys are distinct. -/
structure Entries (ν : Type) (n : ℕ) where
  list : List (JsString × LogValue ν n)
  distinct : (list.map Prod.fst).Nodup

structure LogError (ν : Type) (n : ℕ) where
  name : JsString
  message : JsString
  stack : Option JsString
  cause : Option (LogValue ν n)
  entries : Entries ν n

inductive LogObject (ν : Type) (n : ℕ) where
  | record (entries : Entries ν n)
  | array (items : List (LogValue ν n))
  | error (error : LogError ν n)
  | date (time : ν)

/-- The objects that a log value can come to. -/
abbrev Heap (ν : Type) (n : ℕ) : Type := Fin n → LogObject ν n

/-- What is given to the log.  The key `__proto__` stands for the prototype of a record. -/
inductive Redacted (ν : Type) where
  | text (s : JsString)
  | plain (v : ν)
  | date (time : ν)
  | list (items : List (Redacted ν))
  | record (entries : List (JsString × Redacted ν))

variable {ν : Type} {n : ℕ}

def Redacted.isObject : Redacted ν → Bool
  | .text _ => false
  | .plain _ => false
  | _ => true

/-! ## Keys -/

/-- The alternatives of `SECRET_KEY_PATTERN`. -/
def secretKeyWords : List JsString :=
  ["password", "passwd", "authorization", "cookie", "apikey", "secret", "token", "mfa",
    "credential", "privatekey"].map Js.ofString

/-- `[a-zA-Z]` -/
def isLetter (u : UInt16) : Bool := (65 ≤ u && u ≤ 90) || (97 ≤ u && u ≤ 122)

/-- `isSecretKey` -/
def isSecretKey (key : JsString) : Bool :=
  let normalized := (key.filter isLetter).map LogText.lower
  if !(secretKeyWords.any fun word => decide (word <:+: normalized)) then false
  else if normalized.length > 2 && (Js.ofString "id").isSuffixOf normalized then false
  else true

def protoKey : JsString := Js.ofString "__proto__"

/-- Whether `out[key] = value` makes an entry: a prototype can only be an object. -/
def Assignable (e : JsString × Redacted ν) : Prop := e.1 = protoKey → e.2.isObject = true

instance : DecidablePred (Assignable (ν := ν)) := fun e =>
  inferInstanceAs (Decidable (e.1 = protoKey → e.2.isObject = true))

/-- `out[key] = value` -/
def assign (out : List (JsString × Redacted ν)) (e : JsString × Redacted ν) :
    List (JsString × Redacted ν) :=
  if ¬ Assignable e then out
  else if out.any fun old => old.1 == e.1 then out.map fun old => if old.1 = e.1 then e else old
  else out ++ [e]

/-! ## The walk -/

/-- A step of the walk, with the set of the objects seen (`track`). -/
abbrev Walk (n : ℕ) (α : Type) : Type := StateT (Finset (Fin n)) Option α

/-- `track.add(value)` -/
def add (r : Fin n) : Walk n Unit := modify (insert r)

/-- `MAX_DEPTH` -/
def maxDepth : ℕ := 12

/-- The loop over the entries of an object, with the result in `out`. -/
def redactEntries (walk : LogValue ν n → Walk n (Redacted ν)) :
    List (JsString × LogValue ν n) → List (JsString × Redacted ν) →
      Walk n (List (JsString × Redacted ν))
  | [], out => pure out
  | (key, value) :: entries, out => do
      let redacted ← if isSecretKey key then pure (.text censor) else walk value
      redactEntries walk entries (assign out (key, redacted))

/-- The properties of an error that `redactError` does not take from its entries. -/
def handledKeys : List JsString := ["stack", "message", "cause"].map Js.ofString

/-- `redactError`; `walk` is `redactLogValue` at depth 0. -/
def redactError (sha256 : Digest) (walk : LogValue ν n → Walk n (Redacted ν)) (r : Fin n)
    (error : LogError ν n) : Walk n (Redacted ν) := do
  add r
  let out : List (JsString × Redacted ν) :=
    [ (Js.ofString "type", .text error.name),
      (Js.ofString "message", .text (redactSecretsInText sha256 error.message)),
      (Js.ofString "stack", .text ((error.stack.map (redactSecretsInText sha256)).getD [])) ]
  let out ← match error.cause with
    | none => pure out
    | some cause => do
        let redacted ← walk cause
        pure (assign out (Js.ofString "cause", redacted))
  let out ← redactEntries walk (error.entries.list.filter fun e => !handledKeys.contains e.1) out
  pure (.record out)

/-- `redactLogValue` at a depth; the fuel is for the objects not seen yet. -/
def redactLogValueAt (sha256 : Digest) (heap : Heap ν n) :
    ℕ → ℕ → LogValue ν n → Walk n (Redacted ν)
  | _, _, .text s => pure (.text (redactSecretsInText sha256 s))
  | _, _, .plain v => pure (.plain v)
  | 0, _, .ref _ => failure
  | fuel + 1, depth, .ref r => do
      if maxDepth ≤ depth then return .text censor
      if r ∈ (← get) then return .text censor
      add r
      match heap r with
      | .error error => redactError sha256 (redactLogValueAt sha256 heap fuel 0) r error
      | .date time => return .date time
      | .array items =>
          return .list (← items.mapM (redactLogValueAt sha256 heap fuel (depth + 1)))
      | .record entries =>
          return .record
            (← redactEntries (redactLogValueAt sha256 heap fuel (depth + 1)) entries.list [])

/-- `redactLogValue(value)` -/
def redactLogValue (sha256 : Digest) (heap : Heap ν n) (value : LogValue ν n) :
    Option (Redacted ν) :=
  (redactLogValueAt sha256 heap (n + 1) 0 value).run' ∅

/-- `redactError(error)`, of the object `r`. -/
def redactErrorAlone (sha256 : Digest) (heap : Heap ν n) (r : Fin n) (error : LogError ν n) :
    Option (Redacted ν) :=
  (redactError sha256 (redactLogValueAt sha256 heap n 0) r error).run' ∅

/-- An argument of a log call, as the method gets it: redacted, or as it was. -/
inductive Argument (ν : Type) (n : ℕ) where
  | redacted (out : Redacted ν)
  | same (value : LogValue ν n)

/-- What `logMethod` makes of an argument. -/
def hooked (sha256 : Digest) (heap : Heap ν n) : LogValue ν n → Option (Argument ν n)
  | .text s => some (.redacted (.text (redactSecretsInText sha256 s)))
  | .ref r =>
      match heap r with
      | .error error =>
          (redactErrorAlone sha256 heap r error).map fun out =>
            .redacted (.record [(Js.ofString "err", out)])
      | _ => some (.same (.ref r))
  | value => some (.same value)

/-- The `logMethod` hook: what the method is applied to. -/
def logMethod (sha256 : Digest) (heap : Heap ν n) (args : List (LogValue ν n)) :
    Option (List (Argument ν n)) :=
  args.mapM (hooked sha256 heap)

/-! ## Ends of a step -/

section Ends

variable {α β : Type} {seen : Finset (Fin n)}

/-- From `seen` the step comes to an end, with a result and a set for which `Q` holds. -/
def Ends (m : Walk n α) (seen : Finset (Fin n)) (Q : α → Finset (Fin n) → Prop) : Prop :=
  ∃ a seen', m.run seen = some (a, seen') ∧ Q a seen'

variable {Q : β → Finset (Fin n) → Prop} {R : α → Finset (Fin n) → Prop}

theorem ends_pure {b : β} (holds : Q b seen) : Ends (pure b : Walk n β) seen Q :=
  ⟨b, seen, rfl, holds⟩

theorem ends_bind {m : Walk n α} {f : α → Walk n β} (first : Ends m seen R)
    (next : ∀ a seen', R a seen' → Ends (f a) seen' Q) : Ends (m >>= f) seen Q := by
  obtain ⟨a, seen', ran, holds⟩ := first
  obtain ⟨b, seen'', ran', holds'⟩ := next a seen' holds
  refine ⟨b, seen'', ?_, holds'⟩
  rw [StateT.run_bind, ran]
  exact ran'

theorem Ends.mono {m : Walk n α} {R' : α → Finset (Fin n) → Prop} (ends : Ends m seen R)
    (weaker : ∀ a seen', R a seen' → R' a seen') : Ends m seen R' := by
  obtain ⟨a, seen', ran, holds⟩ := ends
  exact ⟨a, seen', ran, weaker a seen' holds⟩

theorem ends_get {f : Finset (Fin n) → Walk n β} (next : Ends (f seen) seen Q) :
    Ends (get >>= f) seen Q :=
  next

theorem ends_add {r : Fin n} {f : Unit → Walk n β} (next : Ends (f ()) (insert r seen) Q) :
    Ends (add r >>= f) seen Q :=
  next

end Ends

/-! ## Trees -/

/-- `Inside v out`: `v` is a part of `out`. -/
inductive Inside : Redacted ν → Redacted ν → Prop
  | self (v : Redacted ν) : Inside v v
  | item {v x : Redacted ν} {items : List (Redacted ν)} :
      x ∈ items → Inside v x → Inside v (.list items)
  | entry {v : Redacted ν} {e : JsString × Redacted ν} {entries : List (JsString × Redacted ν)} :
      e ∈ entries → Inside v e.2 → Inside v (.record entries)

/-- Every part of the tree is so. -/
def Throughout (P : Redacted ν → Prop) (out : Redacted ν) : Prop := ∀ v, Inside v out → P v

theorem throughout_list {P : Redacted ν → Prop} {items : List (Redacted ν)} :
    Throughout P (.list items) ↔ P (.list items) ∧ ∀ x ∈ items, Throughout P x := by
  constructor
  · exact fun all => ⟨all _ (.self _), fun x member v inside => all v (.item member inside)⟩
  · rintro ⟨here, below⟩ v inside
    cases inside with
    | self => exact here
    | item member inside => exact below _ member v inside

theorem throughout_record {P : Redacted ν → Prop} {entries : List (JsString × Redacted ν)} :
    Throughout P (.record entries) ↔ P (.record entries) ∧ ∀ e ∈ entries, Throughout P e.2 := by
  constructor
  · exact fun all => ⟨all _ (.self _), fun e member v inside => all v (.entry member inside)⟩
  · rintro ⟨here, below⟩ v inside
    cases inside with
    | self => exact here
    | entry member inside => exact below _ member v inside

theorem throughout_leaf {P : Redacted ν → Prop} {out : Redacted ν}
    (leaf : ∀ v, Inside v out → v = out) : Throughout P out ↔ P out :=
  ⟨fun all => all out (.self out), fun here v inside => leaf v inside ▸ here⟩

theorem leaf_text {s : JsString} {v : Redacted ν} (inside : Inside v (.text s)) : v = .text s := by
  cases inside
  rfl

theorem leaf_plain {w : ν} {v : Redacted ν} (inside : Inside v (.plain w)) : v = .plain w := by
  cases inside
  rfl

theorem leaf_date {time : ν} {v : Redacted ν} (inside : Inside v (.date time)) :
    v = .date time := by
  cases inside
  rfl

/-- No part of the text matches the address pattern. -/
def AddressFree (s : JsString) : Prop := ¬ Occurs (Matches emailPattern) s

/-- A text and the keys of a record have no address. -/
def FreeHere : Redacted ν → Prop
  | .text s => AddressFree s
  | .record entries => ∀ e ∈ entries, AddressFree e.1
  | _ => True

/-- **No address** in any text or key. -/
def Clean (out : Redacted ν) : Prop := Throughout FreeHere out

/-- Under a secret key of a record there is the censor token. -/
def CensoredHere : Redacted ν → Prop
  | .record entries => ∀ e ∈ entries, isSecretKey e.1 = true → e.2 = .text censor
  | _ => True

/-- **No secret**: at any depth, a secret key has the censor token. -/
def SecretsCensored (out : Redacted ν) : Prop := Throughout CensoredHere out

theorem clean_text {s : JsString} : Clean (.text s : Redacted ν) ↔ AddressFree s :=
  throughout_leaf fun _ => leaf_text

theorem clean_list {items : List (Redacted ν)} :
    Clean (.list items) ↔ ∀ x ∈ items, Clean x :=
  throughout_list.trans (and_iff_right trivial)

theorem clean_record {entries : List (JsString × Redacted ν)} :
    Clean (.record entries) ↔ ∀ e ∈ entries, AddressFree e.1 ∧ Clean e.2 :=
  throughout_record.trans
    ⟨fun both e member => ⟨both.1 e member, both.2 e member⟩,
      fun all => ⟨fun e member => (all e member).1, fun e member => (all e member).2⟩⟩

theorem secretsCensored_list {items : List (Redacted ν)} :
    SecretsCensored (.list items) ↔ ∀ x ∈ items, SecretsCensored x :=
  throughout_list.trans (and_iff_right trivial)

theorem secretsCensored_record {entries : List (JsString × Redacted ν)} :
    SecretsCensored (.record entries) ↔
      ∀ e ∈ entries, (isSecretKey e.1 = true → e.2 = .text censor) ∧ SecretsCensored e.2 :=
  throughout_record.trans
    ⟨fun both e member => ⟨both.1 e member, both.2 e member⟩,
      fun all => ⟨fun e member => (all e member).1, fun e member => (all e member).2⟩⟩

theorem secretsCensored_text (s : JsString) : SecretsCensored (.text s : Redacted ν) :=
  (throughout_leaf fun _ => leaf_text).2 trivial

theorem secretsCensored_plain (v : ν) : SecretsCensored (.plain v) :=
  (throughout_leaf fun _ => leaf_plain).2 trivial

theorem secretsCensored_date (time : ν) : SecretsCensored (.date time) :=
  (throughout_leaf fun _ => leaf_date).2 trivial

theorem clean_plain (v : ν) : Clean (.plain v) := (throughout_leaf fun _ => leaf_plain).2 trivial

theorem clean_date (time : ν) : Clean (.date time) :=
  (throughout_leaf fun _ => leaf_date).2 trivial

/-- A text without an `@` has no address. -/
theorem addressFree_of_sign {s : JsString} (none_ : (64 : UInt16) ∉ s) : AddressFree s := by
  rintro ⟨a, m, b, rfl, word⟩
  exact none_ (List.mem_append_left _ (List.mem_append_right _ (address_sign (matches_email.1 word))))

theorem clean_censor : Clean (.text censor : Redacted ν) :=
  clean_text.2 (addressFree_of_sign (by decide))

/-! ## What is opened -/

/-- The text that a value is. -/
def LogValue.texts : LogValue ν n → List JsString
  | .text s => [s]
  | _ => []

/-- The texts under keys that are not secret, and are given to the log. -/
def entryTexts (entries : List (JsString × LogValue ν n)) : List JsString :=
  (entries.filter fun e => !isSecretKey e.1 && e.1 != protoKey).flatMap fun e => e.2.texts

/-- The properties that `redactError` takes from the entries. -/
def LogError.own (error : LogError ν n) : List (JsString × LogValue ν n) :=
  error.entries.list.filter fun e => !handledKeys.contains e.1

/-- The values an object is walked into for, each with its depth. -/
def LogObject.children (depth : ℕ) : LogObject ν n → List (LogValue ν n × ℕ)
  | .record entries =>
      (entries.list.filter fun e => !isSecretKey e.1).map fun e => (e.2, depth + 1)
  | .array items => items.map fun item => (item, depth + 1)
  | .error e =>
      (e.cause.toList ++ (e.own.filter fun o => !isSecretKey o.1).map Prod.snd).map
        fun value => (value, 0)
  | .date _ => []

/-- **The objects opened** from a value on: depth-first, none twice, none at the depth cap or
below.  The depth starts anew in an error. -/
def opened (heap : Heap ν n) : ℕ → Finset (Fin n) → LogValue ν n × ℕ → Finset (Fin n)
  | fuel + 1, seen, (.ref r, depth) =>
      if maxDepth ≤ depth ∨ r ∈ seen then seen
      else ((heap r).children depth).foldl (opened heap fuel) (insert r seen)
  | _, seen, _ => seen

local instance lawfulBEq_text : LawfulBEq JsString := inferInstance

/-- What an object gives to the log as it is: its keys, and the name of an error unless it has a
property `type`. -/
def LogObject.names : LogObject ν n → List JsString
  | .record entries => entries.list.map Prod.fst
  | .error e =>
      (if Js.ofString "type" ∈ e.own.map Prod.fst then [] else [e.name]) ++
        e.own.map Prod.fst
  | _ => []

/-- What an object gives to the log as text, scrubbed. -/
def LogObject.texts : LogObject ν n → List JsString
  | .record entries => entryTexts entries.list
  | .array items => items.flatMap LogValue.texts
  | .error e =>
      e.message :: e.stack.toList ++
        (e.cause.toList.flatMap LogValue.texts ++ entryTexts e.own)
  | .date _ => []

/-- The log gets no address from the object itself. -/
def CleanObject (sha256 : Digest) (object : LogObject ν n) : Prop :=
  (∀ name ∈ object.names, AddressFree name) ∧
    ∀ s ∈ object.texts, AddressFree (redactSecretsInText sha256 s)

/-- The text that a value is leaves no address. -/
def CleanValue (sha256 : Digest) (value : LogValue ν n) : Prop :=
  ∀ s ∈ value.texts, AddressFree (redactSecretsInText sha256 s)

/-- A part of the walk: from the objects `seen` to `seen'`.  What it gives is clean exactly when
the value here is (`here`) and the objects opened are. -/
structure Outcome (sha256 : Digest) (heap : Heap ν n) (seen seen' : Finset (Fin n))
    (here clean censored : Prop) : Prop where
  subset : seen ⊆ seen'
  censored : censored
  clean : clean ↔ here ∧ ∀ r ∈ seen', r ∉ seen → CleanObject sha256 (heap r)

variable {sha256 : Digest} {heap : Heap ν n} {seen seen' seen'' : Finset (Fin n)}

theorem outcome_stay {here clean censored : Prop} (hidden : censored) (is : clean ↔ here) :
    Outcome sha256 heap seen seen here clean censored :=
  ⟨subset_rfl, hidden, is.trans (and_iff_left fun _ old new => absurd old new).symm⟩

/-- One part after another. -/
theorem Outcome.trans {here clean censored here' clean' censored' : Prop}
    (first : Outcome sha256 heap seen seen' here clean censored)
    (second : Outcome sha256 heap seen' seen'' here' clean' censored') :
    Outcome sha256 heap seen seen'' (here ∧ here') (clean ∧ clean') (censored ∧ censored') := by
  refine ⟨first.subset.trans second.subset, ⟨first.censored, second.censored⟩, ?_⟩
  rw [first.clean, second.clean]
  constructor
  · rintro ⟨⟨here, old⟩, here', new⟩
    refine ⟨⟨here, here'⟩, ?_⟩
    intro r member fresh
    by_cases middle : r ∈ seen'
    · exact old r middle fresh
    · exact new r member middle
  · rintro ⟨⟨here, here'⟩, all⟩
    exact ⟨⟨here, fun r member fresh => all r (second.subset member) fresh⟩, here',
      fun r member fresh => all r member fun old => fresh (first.subset old)⟩

theorem Outcome.congr {here clean censored here' clean' censored' : Prop}
    (outcome : Outcome sha256 heap seen seen' here clean censored) (same : here' ↔ here)
    (same' : clean' ↔ clean) (hidden : censored → censored') :
    Outcome sha256 heap seen seen' here' clean' censored' :=
  ⟨outcome.subset, hidden outcome.censored, by rw [same', same, outcome.clean]⟩

/-- An object is opened: what it gives is clean exactly when it is and the objects opened since. -/
theorem Outcome.object {r : Fin n} {here clean censored : Prop} (fresh : r ∉ seen)
    (outcome : Outcome sha256 heap (insert r seen) seen' here clean censored)
    (is : here ↔ CleanObject sha256 (heap r)) :
    Outcome sha256 heap seen seen' True clean censored := by
  have inside : r ∈ seen' := outcome.subset (Finset.mem_insert_self r seen)
  refine ⟨(Finset.subset_insert r seen).trans outcome.subset, outcome.censored, ?_⟩
  rw [outcome.clean, is, true_and]
  constructor
  · rintro ⟨object, others⟩ q member new
    by_cases same : q = r
    · exact same ▸ object
    · exact others q member fun old => (Finset.mem_insert.1 old).elim same new
  · exact fun all => ⟨all r inside fresh, fun q member new =>
      all q member fun old => new (Finset.mem_insert_of_mem old)⟩

/-- A loop of parts, over a list. -/
theorem ends_mapM {β α : Type} {f : β → Walk n α} {step : Finset (Fin n) → β → Finset (Fin n)}
    {here : β → Prop} {clean censored : α → Prop} {link : β → α → Prop} {budget : ℕ}
    (each : ∀ b seen, seenᶜ.card < budget → Ends (f b) seen fun a seen' =>
      seen' = step seen b ∧ Outcome sha256 heap seen seen' (here b) (clean a) (censored a) ∧
        link b a) (bs : List β) : ∀ seen : Finset (Fin n), seenᶜ.card < budget →
    Ends (bs.mapM f) seen fun as seen' => seen' = bs.foldl step seen ∧
      Outcome sha256 heap seen seen' (∀ b ∈ bs, here b) (∀ a ∈ as, clean a)
        (∀ a ∈ as, censored a) ∧ List.Forall₂ link bs as := by
  induction bs with
  | nil =>
      intro seen _
      exact ends_pure ⟨rfl, outcome_stay nofun (by simp), .nil⟩
  | cons b bs ih =>
      intro seen enough
      rw [List.mapM_cons]
      apply ends_bind (each b seen enough)
      intro a seen₁
      rintro ⟨is, first, linked⟩
      have enough' : seen₁ᶜ.card < budget :=
        (Finset.card_le_card (Finset.compl_subset_compl.2 first.subset)).trans_lt enough
      apply ends_bind (ih seen₁ enough')
      intro as seen₂
      rintro ⟨is', rest, linked'⟩
      refine ends_pure ⟨by rw [is', is, List.foldl_cons], ?_, .cons linked linked'⟩
      exact (first.trans rest).congr List.forall_mem_cons List.forall_mem_cons
        List.forall_mem_cons.2

/-! ## Entries -/

theorem mem_assign {out : List (JsString × Redacted ν)} {a e : JsString × Redacted ν} :
    e ∈ assign out a ↔ (e ∈ out ∧ (Assignable a → e.1 ≠ a.1)) ∨ (Assignable a ∧ e = a) := by
  rw [assign]
  split
  · rename_i not_
    exact ⟨fun old => .inl ⟨old, fun is => absurd is not_⟩,
      fun either => either.elim And.left fun new => absurd new.1 not_⟩
  · rename_i not_
    have is : Assignable a := not_not.1 not_
    split
    · rename_i there
      obtain ⟨old, listed, same⟩ := List.any_eq_true.1 there
      rw [List.mem_map]
      constructor
      · rintro ⟨x, member, rfl⟩
        split
        · exact .inr ⟨is, rfl⟩
        · rename_i other
          exact .inl ⟨member, fun _ => other⟩
      · rintro (⟨member, other⟩ | ⟨_, rfl⟩)
        · exact ⟨e, member, if_neg (other is)⟩
        · exact ⟨old, listed, if_pos (eq_of_beq same)⟩
    · rename_i absent
      rw [List.mem_append, List.mem_singleton]
      constructor
      · rintro (member | rfl)
        · refine .inl ⟨member, fun _ same => absent (List.any_eq_true.2 ⟨e, member, ?_⟩)⟩
          rw [same, beq_self_eq_true]
        · exact .inr ⟨is, rfl⟩
      · rintro (⟨member, _⟩ | ⟨_, rfl⟩)
        · exact .inl member
        · exact .inr rfl

/-- **What a record has** after assignments under distinct keys: what was assigned, and what was
there under other keys. -/
theorem mem_foldl_assign {as : List (JsString × Redacted ν)} :
    ∀ {out : List (JsString × Redacted ν)} {e : JsString × Redacted ν},
      (as.map Prod.fst).Nodup →
      (e ∈ as.foldl assign out ↔
        (e ∈ out ∧ ∀ a ∈ as, Assignable a → e.1 ≠ a.1) ∨ (e ∈ as ∧ Assignable e)) := by
  induction as with
  | nil => simp
  | cons a as ih =>
      intro out e distinct
      rw [List.map_cons, List.nodup_cons] at distinct
      obtain ⟨new, distinct⟩ := distinct
      have apart : ∀ b ∈ as, b.1 ≠ a.1 := by
        intro b member same
        exact new (List.mem_map.2 ⟨b, member, same⟩)
      rw [List.foldl_cons, ih distinct, mem_assign, List.forall_mem_cons, List.mem_cons]
      constructor
      · rintro (⟨⟨old, other⟩ | ⟨is, rfl⟩, others⟩ | ⟨member, is⟩)
        · exact .inl ⟨old, other, others⟩
        · exact .inr ⟨.inl rfl, is⟩
        · exact .inr ⟨.inr member, is⟩
      · rintro (⟨old, other, others⟩ | ⟨rfl | member, is⟩)
        · exact .inl ⟨.inl ⟨old, other⟩, others⟩
        · exact .inl ⟨.inr ⟨is, rfl⟩, fun b member _ same => apart b member same.symm⟩
        · exact .inr ⟨member, is⟩

/-- One round of the loop over the entries. -/
def redactEntry (walk : LogValue ν n → Walk n (Redacted ν)) (e : JsString × LogValue ν n) :
    Walk n (JsString × Redacted ν) := do
  let redacted ← if isSecretKey e.1 then pure (.text censor) else walk e.2
  pure (e.1, redacted)

theorem redactEntries_eq (walk : LogValue ν n → Walk n (Redacted ν))
    (entries : List (JsString × LogValue ν n)) : ∀ out : List (JsString × Redacted ν),
      redactEntries walk entries out =
        entries.mapM (redactEntry walk) >>= fun as => pure (as.foldl assign out) := by
  induction entries with
  | nil => exact fun out => rfl
  | cons e entries ih =>
      intro out
      rw [redactEntries, List.mapM_cons, redactEntry]
      by_cases secret : isSecretKey e.1 = true
      · simp only [if_pos secret, ih, bind_assoc, pure_bind, List.foldl_cons]
      · simp only [if_neg secret, ih, bind_assoc, pure_bind, List.foldl_cons]

/-- The key has no address, nor has the text under it, unless it is censored or lost. -/
def EntryHere (sha256 : Digest) (e : JsString × LogValue ν n) : Prop :=
  AddressFree e.1 ∧ (isSecretKey e.1 = false → e.1 ≠ protoKey → CleanValue sha256 e.2)

def EntryClean (a : JsString × Redacted ν) : Prop :=
  Assignable a → AddressFree a.1 ∧ Clean a.2

def EntryCensored (a : JsString × Redacted ν) : Prop :=
  (isSecretKey a.1 = true → a.2 = .text censor) ∧ SecretsCensored a.2

theorem entriesHere_iff {entries : List (JsString × LogValue ν n)} :
    (∀ e ∈ entries, EntryHere sha256 e) ↔
      (∀ key ∈ entries.map Prod.fst, AddressFree key) ∧
        ∀ s ∈ entryTexts entries, AddressFree (redactSecretsInText sha256 s) := by
  constructor
  · intro all
    constructor
    · intro key listed
      obtain ⟨e, member, rfl⟩ := List.mem_map.1 listed
      exact (all e member).1
    · intro s listed
      obtain ⟨e, member, inside⟩ := List.mem_flatMap.1 listed
      obtain ⟨member, shown⟩ := List.mem_filter.1 member
      rw [Bool.and_eq_true, Bool.not_eq_true', bne_iff_ne] at shown
      exact (all e member).2 shown.1 shown.2 s inside
  · rintro ⟨keys, texts⟩ e member
    refine ⟨keys e.1 (List.mem_map_of_mem member), fun open_ other s inside => texts s ?_⟩
    refine List.mem_flatMap.2 ⟨e, List.mem_filter.2 ⟨member, ?_⟩, inside⟩
    rw [Bool.and_eq_true, Bool.not_eq_true', bne_iff_ne]
    exact ⟨open_, other⟩

/-- What the walk of a value comes to. -/
structure Redacts (sha256 : Digest) (heap : Heap ν n) (value : LogValue ν n)
    (seen seen' : Finset (Fin n)) (out : Redacted ν) : Prop where
  outcome : Outcome sha256 heap seen seen' (CleanValue sha256 value) (Clean out)
    (SecretsCensored out)
  /-- Nothing was opened for a text or another plain value. -/
  leaf : out.isObject = false → seen' = seen
  object : out.isObject = true → value.texts = []

theorem protoKey_free : AddressFree protoKey := addressFree_of_sign (by decide)

/-- The objects opened through the entries. -/
def stepEntry (step : Finset (Fin n) → LogValue ν n → Finset (Fin n)) (seen : Finset (Fin n))
    (e : JsString × LogValue ν n) : Finset (Fin n) :=
  if isSecretKey e.1 then seen else step seen e.2

section Entries

variable {walk : LogValue ν n → Walk n (Redacted ν)} {budget : ℕ}
  {step : Finset (Fin n) → LogValue ν n → Finset (Fin n)}
  (walks : ∀ value seen, seenᶜ.card < budget → Ends (walk value) seen fun out seen' =>
    seen' = step seen value ∧ Redacts sha256 heap value seen seen' out)
include walks

theorem ends_redactEntry (e : JsString × LogValue ν n) (seen : Finset (Fin n))
    (enough : seenᶜ.card < budget) : Ends (redactEntry walk e) seen fun a seen' =>
      seen' = stepEntry step seen e ∧
        Outcome sha256 heap seen seen' (EntryHere sha256 e) (EntryClean a) (EntryCensored a) ∧
        e.1 = a.1 := by
  obtain ⟨key, value⟩ := e
  rw [redactEntry]
  by_cases secret : isSecretKey key = true
  · rw [if_pos secret, pure_bind]
    refine ends_pure ⟨(if_pos secret).symm, outcome_stay ⟨fun _ => rfl, secretsCensored_text _⟩ ?_,
      rfl⟩
    have other : key ≠ protoKey := by
      rintro rfl
      exact absurd secret (by decide)
    constructor
    · exact fun clean => ⟨(clean fun is => absurd is other).1, fun open_ => by simp [secret] at open_⟩
    · exact fun here _ => ⟨here.1, clean_censor⟩
  · rw [if_neg secret]
    apply ends_bind (walks value seen enough)
    intro out seen'
    rintro ⟨is, redacts⟩
    refine ends_pure ⟨is.trans (if_neg secret).symm, ?_, rfl⟩
    by_cases proto : key = protoKey
    · subst proto
      cases object : out.isObject with
      | true =>
          refine redacts.outcome.congr ?_ ?_ fun hidden => ⟨fun is => absurd is secret, hidden⟩
          · have none_ : CleanValue sha256 value := by
              rw [CleanValue, redacts.object object]
              exact nofun
            exact ⟨fun _ => none_, fun _ => ⟨protoKey_free, fun _ other => absurd rfl other⟩⟩
          · exact ⟨fun clean => (clean fun _ => object).2, fun clean _ => ⟨protoKey_free, clean⟩⟩
      | false =>
          obtain rfl := redacts.leaf object
          apply outcome_stay ⟨fun is => absurd is secret, redacts.outcome.censored⟩
          refine ⟨fun _ => ⟨protoKey_free, fun _ other => absurd rfl other⟩, ?_⟩
          intro _ is
          have not_ : out.isObject = true := is rfl
          rw [object] at not_
          cases not_
    · have keyed : Outcome sha256 heap seen seen (AddressFree key) (AddressFree key) True :=
        outcome_stay trivial Iff.rfl
      refine (keyed.trans redacts.outcome).congr ?_ ?_
        fun hidden => ⟨fun is => absurd is secret, hidden.2⟩
      · exact ⟨fun here => ⟨here.1, here.2 (by simpa using secret) proto⟩,
          fun both => ⟨both.1, fun _ _ => both.2⟩⟩
      · exact ⟨fun clean => clean fun is => absurd is proto, fun both _ => both⟩

/-- **The loop over the entries**: the assignments it makes. -/
theorem ends_redactEntries {α : Type} {entries : List (JsString × LogValue ν n)}
    {out : List (JsString × Redacted ν)} {f : List (JsString × Redacted ν) → Walk n α}
    {Q : α → Finset (Fin n) → Prop} (seen : Finset (Fin n)) (enough : seenᶜ.card < budget)
    (next : ∀ (as : List (JsString × Redacted ν)) seen', seen' = entries.foldl (stepEntry step) seen →
      Outcome sha256 heap seen seen' (∀ e ∈ entries, EntryHere sha256 e) (∀ a ∈ as, EntryClean a)
        (∀ a ∈ as, EntryCensored a) →
      as.map Prod.fst = entries.map Prod.fst → Ends (f (as.foldl assign out)) seen' Q) :
    Ends (redactEntries walk entries out >>= f) seen Q := by
  rw [redactEntries_eq, bind_assoc]
  apply ends_bind (ends_mapM (ends_redactEntry walks) entries seen enough)
  intro as seen'
  rintro ⟨is, outcome, linked⟩
  rw [pure_bind]
  apply next as seen' is outcome
  clear outcome is next
  induction linked with
  | nil => rfl
  | cons same _ ih => rw [List.map_cons, List.map_cons, same, ih]

end Entries

theorem foldl_stepEntry {step : Finset (Fin n) → LogValue ν n → Finset (Fin n)}
    (entries : List (JsString × LogValue ν n)) (seen : Finset (Fin n)) :
    entries.foldl (stepEntry step) seen =
      ((entries.filter fun e => !isSecretKey e.1).map Prod.snd).foldl step seen := by
  rw [List.foldl_map, List.foldl_filter]
  congr 1
  funext seen e
  rw [stepEntry]
  cases isSecretKey e.1 <;> rfl

/-! ## Objects -/

/-- A record of assignments under distinct keys. -/
theorem clean_assigned {as : List (JsString × Redacted ν)} (distinct : (as.map Prod.fst).Nodup) :
    Clean (.record (as.foldl assign [])) ↔ ∀ a ∈ as, EntryClean a := by
  rw [clean_record]
  constructor
  · exact fun all a member is => all a ((mem_foldl_assign distinct).2 (.inr ⟨member, is⟩))
  · intro all a member
    rcases (mem_foldl_assign distinct).1 member with ⟨old, _⟩ | ⟨member, is⟩
    · cases old
    · exact all a member is

theorem censored_assigned {as out : List (JsString × Redacted ν)}
    (distinct : (as.map Prod.fst).Nodup) (before : ∀ a ∈ out, EntryCensored a)
    (all : ∀ a ∈ as, EntryCensored a) : SecretsCensored (.record (as.foldl assign out)) := by
  apply secretsCensored_record.2
  intro a member
  rcases (mem_foldl_assign distinct).1 member with ⟨old, _⟩ | ⟨member, _⟩
  · exact before a old
  · exact all a member

/-- The keys that the redactor gives itself are not secret, and have no address. -/
theorem ownKeys_plain : ∀ key ∈ ["type", "message", "stack", "cause", "err"].map Js.ofString,
    isSecretKey key = false ∧ (64 : UInt16) ∉ key := by
  decide

theorem entryCensored_text {key : JsString} (s : JsString)
    (listed : key ∈ ["type", "message", "stack", "cause", "err"].map Js.ofString) :
    EntryCensored (key, (.text s : Redacted ν)) := by
  refine ⟨?_, secretsCensored_text s⟩
  intro secret
  rw [(ownKeys_plain key listed).1] at secret
  cases secret

theorem ownKey_free (key : JsString)
    (listed : key ∈ ["type", "message", "stack", "cause", "err"].map Js.ofString) :
    AddressFree key :=
  addressFree_of_sign (ownKeys_plain key listed).2

/-- What `redactError` starts with. -/
def errorStart (sha256 : Digest) (error : LogError ν n) : List (JsString × Redacted ν) :=
  [ (Js.ofString "type", .text error.name),
    (Js.ofString "message", .text (redactSecretsInText sha256 error.message)),
    (Js.ofString "stack", .text ((error.stack.map (redactSecretsInText sha256)).getD [])) ]

theorem errorStart_censored (sha256 : Digest) (error : LogError ν n) :
    ∀ a ∈ errorStart sha256 error, EntryCensored a := by
  simp only [errorStart, List.forall_mem_cons]
  exact ⟨entryCensored_text _ (by decide), entryCensored_text _ (by decide),
    entryCensored_text _ (by decide), nofun⟩

/-- What the error itself has for the log, apart from what is assigned. -/
def ErrorHere (sha256 : Digest) (error : LogError ν n) (assigned : List JsString) : Prop :=
  (Js.ofString "type" ∉ assigned → AddressFree error.name) ∧
    AddressFree (redactSecretsInText sha256 error.message) ∧
      ∀ s ∈ error.stack.toList, AddressFree (redactSecretsInText sha256 s)

theorem stack_free {stack : Option JsString} :
    AddressFree ((stack.map (redactSecretsInText sha256)).getD []) ↔
      ∀ s ∈ stack.toList, AddressFree (redactSecretsInText sha256 s) := by
  cases stack with
  | none => exact ⟨fun _ => nofun, fun _ => addressFree_of_sign nofun⟩
  | some s => simp

theorem clean_error {error : LogError ν n} {as : List (JsString × Redacted ν)}
    (distinct : (as.map Prod.fst).Nodup) (message : Js.ofString "message" ∉ as.map Prod.fst)
    (stack : Js.ofString "stack" ∉ as.map Prod.fst) :
    Clean (.record (as.foldl assign (errorStart sha256 error))) ↔
      ErrorHere sha256 error (as.map Prod.fst) ∧ ∀ a ∈ as, EntryClean a := by
  have kept : ∀ e : JsString × Redacted ν, e ∈ errorStart sha256 error →
      e.1 ∉ as.map Prod.fst → e ∈ as.foldl assign (errorStart sha256 error) := by
    intro e member new
    refine (mem_foldl_assign distinct).2 (.inl ⟨member, fun a listed _ same => new ?_⟩)
    exact List.mem_map.2 ⟨a, listed, same.symm⟩
  rw [clean_record]
  constructor
  · intro all
    refine ⟨⟨?_, ?_, ?_⟩, fun a member is =>
      all a ((mem_foldl_assign distinct).2 (.inr ⟨member, is⟩))⟩
    · intro new
      exact clean_text.1 (all _ (kept (Js.ofString "type", .text error.name)
        (by simp [errorStart]) new)).2
    · exact clean_text.1 (all _ (kept (Js.ofString "message", .text _)
        (by simp [errorStart]) message)).2
    · exact stack_free.1 (clean_text.1 (all _ (kept (Js.ofString "stack", .text _)
        (by simp [errorStart]) stack)).2)
  · rintro ⟨⟨type, text, trace⟩, each⟩ e member
    rcases (mem_foldl_assign distinct).1 member with ⟨old, other⟩ | ⟨member, is⟩
    · simp only [errorStart, List.mem_cons, List.not_mem_nil, or_false] at old
      rcases old with rfl | rfl | rfl
      · refine ⟨ownKey_free (Js.ofString "type") (by decide), clean_text.2 (type fun listed => ?_)⟩
        obtain ⟨a, inside, same⟩ := List.mem_map.1 listed
        refine other a inside (fun proto => ?_) same.symm
        rw [same] at proto
        exact absurd proto (by decide)
      · exact ⟨ownKey_free (Js.ofString "message") (by decide), clean_text.2 text⟩
      · exact ⟨ownKey_free (Js.ofString "stack") (by decide), clean_text.2 (stack_free.2 trace)⟩
    · exact each e member is

/-! ## The whole walk -/

theorem own_sublist (error : LogError ν n) : error.own.Sublist error.entries.list :=
  List.filter_sublist

theorem own_distinct (error : LogError ν n) : (error.own.map Prod.fst).Nodup :=
  error.entries.distinct.sublist ((own_sublist error).map Prod.fst)

theorem not_own {error : LogError ν n} {key : JsString} (handled : key ∈ handledKeys) :
    key ∉ error.own.map Prod.fst := by
  intro listed
  obtain ⟨e, member, rfl⟩ := List.mem_map.1 listed
  have open_ := (List.mem_filter.1 member).2
  rw [Bool.not_eq_true', List.contains_iff_mem.2 handled] at open_
  cases open_

/-- What the values of an error itself must be for a clean log. -/
theorem cleanObject_error {error : LogError ν n} {keys : List JsString}
    (is : keys = [Js.ofString "cause"] ++ error.own.map Prod.fst ∨ keys = error.own.map Prod.fst) :
    CleanObject sha256 (.error error) ↔ ErrorHere sha256 error keys ∧
      (∀ value ∈ error.cause.toList, CleanValue sha256 value) ∧
        ∀ e ∈ error.own, EntryHere sha256 e := by
  have typed : Js.ofString "type" ∈ keys ↔ Js.ofString "type" ∈ error.own.map Prod.fst := by
    rcases is with rfl | rfl
    · rw [List.mem_append]
      exact or_iff_right (by decide)
    · rfl
  rw [entriesHere_iff, ErrorHere, typed]
  simp only [CleanObject, LogObject.names, LogObject.texts, List.forall_mem_append,
    List.forall_mem_cons, List.cons_append, CleanValue, List.mem_flatMap]
  constructor
  · rintro ⟨⟨name, keys⟩, text, trace, cause, others⟩
    refine ⟨⟨?_, text, trace⟩, fun value member s inside => cause s ⟨value, member, inside⟩,
      keys, others⟩
    intro new
    exact name _ (by rw [if_neg new]; exact List.mem_singleton_self _)
  · rintro ⟨⟨name, text, trace⟩, cause, keys, others⟩
    refine ⟨⟨?_, keys⟩, text, trace,
      fun s ⟨value, member, inside⟩ => cause value member s inside, others⟩
    intro key member
    split at member
    · cases member
    · rename_i new
      obtain rfl := List.mem_singleton.1 member
      exact name new

/-- The end of an error: everything is assigned. -/
theorem error_outcome {r : Fin n} {error : LogError ν n} {as : List (JsString × Redacted ν)}
    (is : heap r = .error error) (fresh : r ∉ seen)
    (keys : as.map Prod.fst = [Js.ofString "cause"] ++ error.own.map Prod.fst ∨
      as.map Prod.fst = error.own.map Prod.fst)
    (outcome : Outcome sha256 heap (insert r seen) seen'
      ((∀ value ∈ error.cause.toList, CleanValue sha256 value) ∧
        ∀ e ∈ error.own, EntryHere sha256 e)
      (∀ a ∈ as, EntryClean a) (∀ a ∈ as, EntryCensored a)) :
    Outcome sha256 heap seen seen' True
      (Clean (.record (as.foldl assign (errorStart sha256 error))))
      (SecretsCensored (.record (as.foldl assign (errorStart sha256 error)))) := by
  have cause : Js.ofString "cause" ∉ error.own.map Prod.fst := not_own (by decide)
  have message : Js.ofString "message" ∉ error.own.map Prod.fst := not_own (by decide)
  have stack : Js.ofString "stack" ∉ error.own.map Prod.fst := not_own (by decide)
  have distinct : (as.map Prod.fst).Nodup := by
    rcases keys with is | is <;> rw [is]
    · exact List.nodup_cons.2 ⟨cause, own_distinct error⟩
    · exact own_distinct error
  have message' : Js.ofString "message" ∉ as.map Prod.fst := by
    rcases keys with is | is <;> rw [is]
    · exact List.not_mem_cons_of_ne_of_not_mem (by decide) message
    · exact message
  have stack' : Js.ofString "stack" ∉ as.map Prod.fst := by
    rcases keys with is | is <;> rw [is]
    · exact List.not_mem_cons_of_ne_of_not_mem (by decide) stack
    · exact stack
  have whole : Outcome sha256 heap (insert r seen) seen'
      (ErrorHere sha256 error (as.map Prod.fst) ∧
        (∀ value ∈ error.cause.toList, CleanValue sha256 value) ∧
          ∀ e ∈ error.own, EntryHere sha256 e)
      (ErrorHere sha256 error (as.map Prod.fst) ∧ ∀ a ∈ as, EntryClean a)
      (True ∧ ∀ a ∈ as, EntryCensored a) :=
    (outcome_stay trivial Iff.rfl).trans outcome
  refine Outcome.object fresh (whole.congr Iff.rfl (clean_error distinct message' stack') ?_) ?_
  · exact fun all => censored_assigned distinct (errorStart_censored sha256 error) all.2
  · rw [is]
    exact (cleanObject_error keys).symm

/-- An error, walked from its place on: `redactError` assigns the cause and then the entries. -/
theorem ends_redactError {walk : LogValue ν n → Walk n (Redacted ν)} {budget : ℕ}
    {step : Finset (Fin n) → LogValue ν n → Finset (Fin n)} {r : Fin n} {error : LogError ν n}
    {start : Finset (Fin n)}
    (walks : ∀ value seen, seenᶜ.card < budget → Ends (walk value) seen fun out seen' =>
      seen' = step seen value ∧ Redacts sha256 heap value seen seen' out)
    (is : heap r = .error error) (fresh : r ∉ seen) (same : insert r start = insert r seen)
    (enough : (insert r seen)ᶜ.card < budget) :
    Ends (redactError sha256 walk r error) start fun out seen' =>
      out.isObject = true ∧ seen' = (error.cause.toList ++
        (error.own.filter fun e => !isSecretKey e.1).map Prod.snd).foldl step (insert r seen) ∧
      Outcome sha256 heap seen seen' True (Clean out) (SecretsCensored out) := by
  rw [redactError]
  apply ends_add
  rw [same]
  cases caused : error.cause with
  | none =>
      dsimp only
      rw [pure_bind]
      refine ends_redactEntries walks _ enough fun as seen' opened_ outcome keys => ends_pure ?_
      rw [foldl_stepEntry] at opened_
      refine ⟨rfl, opened_, error_outcome is fresh (.inr keys) (outcome.congr ?_ Iff.rfl id)⟩
      rw [caused]
      exact and_iff_right nofun
  | some cause =>
      dsimp only
      apply ends_bind (walks cause _ enough)
      intro out seen₁
      rintro ⟨opened₁, redacts⟩
      rw [pure_bind]
      have enough' : seen₁ᶜ.card < budget :=
        (Finset.card_le_card (Finset.compl_subset_compl.2 redacts.outcome.subset)).trans_lt enough
      refine ends_redactEntries walks _ enough' fun as seen' opened_ outcome keys => ends_pure ?_
      rw [foldl_stepEntry, opened₁] at opened_
      refine ⟨rfl, opened_, ?_⟩
      refine @error_outcome ν n sha256 heap seen seen' r error
        ((Js.ofString "cause", out) :: as) is fresh (.inl (by rw [List.map_cons, keys]; rfl)) ?_
      refine (redacts.outcome.trans outcome).congr ?_ ?_ ?_
      · rw [caused]
        exact and_congr_left' List.forall_mem_singleton
      · rw [List.forall_mem_cons]
        refine and_congr_left fun _ => ⟨fun clean => (clean fun proto => ?_).2,
          fun clean _ => ⟨ownKey_free (Js.ofString "cause") (by decide), clean⟩⟩
        exact absurd (show Js.ofString "cause" = protoKey from proto) (by decide)
      · rw [List.forall_mem_cons]
        refine fun both => ⟨⟨fun secret => ?_, both.1⟩, both.2⟩
        rw [(ownKeys_plain (Js.ofString "cause") (by decide)).1] at secret
        cases secret

/-- A value that is no text has no address. -/
theorem cleanValue_of_texts {value : LogValue ν n} (none_ : value.texts = []) :
    CleanValue sha256 value := by
  intro s member
  rw [none_] at member
  cases member

theorem cleanValue_ref (r : Fin n) : CleanValue sha256 (.ref r : LogValue ν n) :=
  cleanValue_of_texts rfl

theorem cleanObject_record {entries : Entries ν n} :
    CleanObject sha256 (.record entries) ↔ ∀ e ∈ entries.list, EntryHere sha256 e :=
  entriesHere_iff.symm

theorem cleanObject_array {items : List (LogValue ν n)} :
    CleanObject sha256 (.array items) ↔ ∀ item ∈ items, CleanValue sha256 item := by
  simp only [CleanObject, LogObject.names, LogObject.texts, List.mem_flatMap, CleanValue]
  constructor
  · exact fun both item member s inside => both.2 s ⟨item, member, inside⟩
  · exact fun all => ⟨nofun, fun s ⟨item, member, inside⟩ => all item member s inside⟩

theorem redacts_text (s : JsString) :
    Redacts sha256 heap (.text s : LogValue ν n) seen seen
      (.text (redactSecretsInText sha256 s)) := by
  refine ⟨outcome_stay (secretsCensored_text _) ?_, fun _ => rfl, ?_⟩
  · rw [clean_text, CleanValue, LogValue.texts, List.forall_mem_singleton]
  · intro object
    rw [Redacted.isObject] at object
    cases object

theorem redacts_plain (v : ν) :
    Redacts sha256 heap (.plain v : LogValue ν n) seen seen (.plain v) :=
  ⟨outcome_stay (secretsCensored_plain v) (iff_of_true (clean_plain v) (cleanValue_of_texts rfl)),
    fun _ => rfl, fun _ => rfl⟩

/-- What an object gives that was not opened: the censor token. -/
theorem redacts_censor (r : Fin n) :
    Redacts sha256 heap (.ref r) seen seen (.text censor) :=
  ⟨outcome_stay (secretsCensored_text censor) (iff_of_true clean_censor (cleanValue_ref r)),
    fun _ => rfl, fun _ => rfl⟩

/-- An object that was opened. -/
theorem redacts_object {r : Fin n} {out : Redacted ν} (object : out.isObject = true)
    (outcome : Outcome sha256 heap seen seen' True (Clean out) (SecretsCensored out)) :
    Redacts sha256 heap (.ref r) seen seen' out :=
  ⟨outcome.congr (iff_of_true (cleanValue_ref r) trivial) Iff.rfl id,
    fun not_ => absurd object (by simp [not_]), fun _ => rfl⟩

/-- **The walk** always ends, with the objects opened in a depth-first search; its result is clean
exactly when these objects and the value are, and has no secret. -/
theorem redacts (sha256 : Digest) (heap : Heap ν n) (fuel : ℕ) :
    ∀ (depth : ℕ) (value : LogValue ν n) (seen : Finset (Fin n)), seenᶜ.card < fuel →
      Ends (redactLogValueAt sha256 heap fuel depth value) seen fun out seen' =>
        seen' = opened heap fuel seen (value, depth) ∧
          Redacts sha256 heap value seen seen' out := by
  induction fuel with
  | zero => exact fun _ _ _ enough => absurd enough (Nat.not_lt_zero _)
  | succ fuel ih =>
      intro depth value seen enough
      cases value with
      | text s =>
          rw [redactLogValueAt]
          exact ends_pure ⟨rfl, redacts_text s⟩
      | plain v =>
          rw [redactLogValueAt]
          exact ends_pure ⟨rfl, redacts_plain v⟩
      | ref r =>
          rw [redactLogValueAt, opened]
          by_cases deep : maxDepth ≤ depth
          · rw [if_pos deep, if_pos (.inl deep)]
            exact ends_pure ⟨rfl, redacts_censor r⟩
          · rw [if_neg deep]
            apply ends_get
            by_cases old : r ∈ seen
            · rw [if_pos old, if_pos (.inr old)]
              exact ends_pure ⟨rfl, redacts_censor r⟩
            · have shut : ¬ (maxDepth ≤ depth ∨ r ∈ seen) := not_or.2 ⟨deep, old⟩
              have enough' : (insert r seen)ᶜ.card < fuel := by
                rw [Finset.compl_insert]
                exact (Finset.card_erase_lt_of_mem (Finset.mem_compl.2 old)).trans_le
                  (Nat.le_of_lt_succ enough)
              rw [if_neg old, if_neg shut]
              apply ends_add
              cases object : heap r with
              | error error =>
                  dsimp only
                  refine (ends_redactError (ih 0) object old (Finset.insert_idem r seen) enough').mono
                    fun out seen' => ?_
                  rintro ⟨is, opened_, outcome⟩
                  refine ⟨?_, redacts_object is outcome⟩
                  rw [opened_, LogObject.children, List.foldl_map]
              | date time =>
                  dsimp only
                  refine ends_pure ⟨rfl, redacts_object rfl ?_⟩
                  refine Outcome.object old (outcome_stay (secretsCensored_date time)
                    (iff_of_true (clean_date time) ?_)) Iff.rfl
                  rw [object]
                  exact ⟨nofun, nofun⟩
              | array items =>
                  dsimp only
                  refine ends_bind (ends_mapM (fun value seen enough => (ih (depth + 1) value seen
                    enough).mono fun out seen' both =>
                      (⟨both.1, both.2.outcome, trivial⟩ : _ ∧ _ ∧ True)) items _ enough')
                    fun outs seen' => ?_
                  rintro ⟨opened_, outcome, _⟩
                  refine ends_pure ⟨?_, redacts_object rfl (Outcome.object old (outcome.congr
                    Iff.rfl clean_list secretsCensored_list.2) ?_)⟩
                  · rw [opened_, LogObject.children, List.foldl_map]
                  · rw [object, cleanObject_array]
              | record entries =>
                  dsimp only
                  refine ends_redactEntries (ih (depth + 1)) _ enough' fun as seen' opened_ outcome
                    keys => ?_
                  have distinct : (as.map Prod.fst).Nodup := keys ▸ entries.distinct
                  refine ends_pure ⟨?_, redacts_object rfl (Outcome.object old (outcome.congr
                    Iff.rfl (clean_assigned distinct)
                    (censored_assigned distinct (fun _ none_ => absurd none_ List.not_mem_nil)))
                    ?_)⟩
                  · rw [opened_, foldl_stepEntry, LogObject.children, List.foldl_map, List.foldl_map]
                  · rw [object, cleanObject_record]

/-! ## Values under secret keys -/

/-- What is under a secret key is replaced. -/
def blankEntry (e : JsString × LogValue ν n) : JsString × LogValue ν n :=
  (e.1, if isSecretKey e.1 then .text censor else e.2)

theorem keys_blanked (entries : List (JsString × LogValue ν n)) :
    (entries.map blankEntry).map Prod.fst = entries.map Prod.fst := by
  rw [List.map_map]
  rfl

theorem blanked_distinct (entries : Entries ν n) :
    ((entries.list.map blankEntry).map Prod.fst).Nodup := by
  rw [keys_blanked]
  exact entries.distinct

def Entries.blanked (entries : Entries ν n) : Entries ν n :=
  ⟨entries.list.map blankEntry, blanked_distinct entries⟩

def LogObject.blanked : LogObject ν n → LogObject ν n
  | .record entries => .record entries.blanked
  | .error e => .error { e with entries := e.entries.blanked }
  | other => other

/-- The same objects, without what is under secret keys. -/
def blanked (heap : Heap ν n) : Heap ν n := fun r => (heap r).blanked

theorem redactEntries_blanked (walk : LogValue ν n → Walk n (Redacted ν))
    (entries : List (JsString × LogValue ν n)) : ∀ out,
      redactEntries walk (entries.map blankEntry) out = redactEntries walk entries out := by
  induction entries with
  | nil => exact fun out => rfl
  | cons e entries ih =>
      intro out
      rw [List.map_cons, blankEntry, redactEntries, redactEntries]
      cases isSecretKey e.1 <;> simp only [ih, Bool.false_eq_true, if_false, if_true]

theorem redactError_blanked (sha256 : Digest) (walk : LogValue ν n → Walk n (Redacted ν))
    (r : Fin n) (error : LogError ν n) :
    redactError sha256 walk r { error with entries := error.entries.blanked } =
      redactError sha256 walk r error := by
  have own : error.entries.blanked.list.filter (fun e => !handledKeys.contains e.1) =
      (error.entries.list.filter fun e => !handledKeys.contains e.1).map blankEntry := by
    rw [Entries.blanked, List.filter_map]
    rfl
  rw [redactError, redactError]
  simp only [own, redactEntries_blanked]

/-- **No influence**: the walk is the same whatever is under secret keys. -/
theorem redactLogValueAt_blanked (sha256 : Digest) (heap : Heap ν n) (fuel : ℕ) :
    redactLogValueAt sha256 (blanked heap) fuel = redactLogValueAt sha256 heap fuel := by
  induction fuel with
  | zero =>
      funext depth value
      cases value <;> simp only [redactLogValueAt]
  | succ fuel ih =>
      funext depth value
      cases value with
      | text s => simp only [redactLogValueAt]
      | plain v => simp only [redactLogValueAt]
      | ref r =>
          rw [redactLogValueAt, redactLogValueAt, ih]
          cases object : heap r with
          | error error =>
              simp only [blanked, object, LogObject.blanked, redactError_blanked]
          | date time => simp only [blanked, object, LogObject.blanked]
          | array items => simp only [blanked, object, LogObject.blanked]
          | record entries =>
              simp only [blanked, object, LogObject.blanked, Entries.blanked,
                redactEntries_blanked]

/-! ## What is logged -/

/-- No text that is logged is one of these, and no key or name of an error that is logged has an
address. -/
structure Spared (P : JsString → Prop) (heap : Heap ν n) (value : LogValue ν n) : Prop where
  here : ∀ s ∈ value.texts, ¬ P s
  names : ∀ r ∈ opened heap (n + 1) ∅ (value, 0), ∀ name ∈ (heap r).names, AddressFree name
  texts : ∀ r ∈ opened heap (n + 1) ∅ (value, 0), ∀ s ∈ (heap r).texts, ¬ P s

/-- The passes after the first find nothing to censor. -/
def Bare (sha256 : Digest) (s : JsString) : Prop :=
  redactSecretsInText sha256 s = redactEmailsInText sha256 s

/-- **Safe for the log**: there is no secret; there is no address when no text that is logged has
addresses that share a middle, and no key or error name has one.  Where the later passes do not
happen to censor what the first has left, there is none only then. -/
structure Safe (sha256 : Digest) (heap : Heap ν n) (value : LogValue ν n) (out : Redacted ν) :
    Prop where
  censored : SecretsCensored out
  clean : Spared Chained heap value → Clean out
  spared : Clean out → Spared (fun s => Chained s ∧ Bare sha256 s) heap value

theorem occurs_matches {s : JsString} : Occurs (Matches emailPattern) s ↔ Occurs Address s := by
  simp only [Occurs, matches_email]

theorem addressFree_of_not_chained {s : JsString} (not_ : ¬ Chained s) :
    AddressFree (redactSecretsInText sha256 s) :=
  fun occurs => not_ (occurs_redactSecretsInText sha256 (occurs_matches.1 occurs))

theorem not_chained_of_addressFree {s : JsString}
    (free : AddressFree (redactSecretsInText sha256 s)) : ¬ (Chained s ∧ Bare sha256 s) := by
  rintro ⟨chained, bare⟩
  rw [AddressFree, bare, occurs_matches, occurs_redactEmailsInText] at free
  exact free chained

/-- What was walked from the start on is safe. -/
theorem safe_of_outcome {value : LogValue ν n} {out : Redacted ν}
    (outcome : Outcome sha256 heap ∅ (opened heap (n + 1) ∅ (value, 0))
      (CleanValue sha256 value) (Clean out) (SecretsCensored out)) :
    Safe sha256 heap value out := by
  refine ⟨outcome.censored, ?_, ?_⟩
  · intro spared
    refine outcome.clean.2 ⟨fun s member => addressFree_of_not_chained (spared.here s member),
      fun r member _ => ⟨spared.names r member, fun s inside => ?_⟩⟩
    exact addressFree_of_not_chained (spared.texts r member s inside)
  · intro clean
    obtain ⟨here, objects⟩ := outcome.clean.1 clean
    refine ⟨fun s member => not_chained_of_addressFree (here s member), ?_, ?_⟩
    · intro r member
      exact (objects r member (Finset.notMem_empty r)).1
    · intro r member s inside
      exact not_chained_of_addressFree ((objects r member (Finset.notMem_empty r)).2 s inside)

theorem card_compl_empty_lt : (∅ᶜ : Finset (Fin n)).card < n + 1 := by
  rw [Finset.compl_empty, Finset.card_univ, Fintype.card_fin]
  exact Nat.lt_succ_self n

theorem card_compl_singleton_lt (r : Fin n) : (insert r (∅ : Finset (Fin n)))ᶜ.card < n := by
  rw [Finset.compl_insert]
  apply (Finset.card_erase_lt_of_mem (Finset.mem_compl.2 (Finset.notMem_empty r))).trans_le
  exact Nat.le_of_lt_succ card_compl_empty_lt

theorem run'_of_ends {α : Type} {m : Walk n α} {Q : α → Finset (Fin n) → Prop}
    (ends : Ends m seen Q) : ∃ a seen', m.run' seen = some a ∧ Q a seen' := by
  obtain ⟨a, seen', ran, holds⟩ := ends
  refine ⟨a, seen', ?_, holds⟩
  show (m.run seen).map Prod.fst = some a
  rw [ran]
  rfl

theorem redactLogValue_safe (sha256 : Digest) (heap : Heap ν n) (value : LogValue ν n) :
    ∃ out, redactLogValue sha256 heap value = some out ∧ Safe sha256 heap value out := by
  obtain ⟨out, seen', ran, rfl, walked⟩ :=
    run'_of_ends (redacts sha256 heap (n + 1) 0 value ∅ card_compl_empty_lt)
  exact ⟨out, ran, safe_of_outcome walked.outcome⟩

theorem redactErrorAlone_safe (sha256 : Digest) {heap : Heap ν n} {r : Fin n}
    {error : LogError ν n} (is : heap r = .error error) :
    ∃ out, redactErrorAlone sha256 heap r error = some out ∧ Safe sha256 heap (.ref r) out := by
  obtain ⟨out, seen', ran, _, opened_, outcome⟩ :=
    run'_of_ends (ends_redactError (redacts sha256 heap n 0) is (Finset.notMem_empty r) rfl
      (card_compl_singleton_lt r))
  have whole : seen' = opened heap (n + 1) ∅ (.ref r, 0) := by
    rw [opened, if_neg (not_or.2 ⟨by decide, Finset.notMem_empty r⟩), opened_, is,
      LogObject.children, List.foldl_map]
  subst whole
  exact ⟨out, ran, safe_of_outcome (outcome.congr (iff_of_true (cleanValue_ref r) trivial)
    Iff.rfl id)⟩

theorem safe_err {value : LogValue ν n} {out : Redacted ν} (safe : Safe sha256 heap value out) :
    Safe sha256 heap value (.record [(Js.ofString "err", out)]) := by
  have same : Clean (.record [(Js.ofString "err", out)]) ↔ Clean out := by
    rw [clean_record, List.forall_mem_singleton]
    exact and_iff_right (ownKey_free (Js.ofString "err") (by decide))
  refine ⟨?_, fun spared => same.2 (safe.clean spared), fun clean => safe.spared (same.1 clean)⟩
  rw [secretsCensored_record, List.forall_mem_singleton]
  refine ⟨?_, safe.censored⟩
  intro secret
  rw [(ownKeys_plain (Js.ofString "err") (by decide)).1] at secret
  cases secret

/-- An argument that the hook replaces: a text or an error. -/
def Intercepted (heap : Heap ν n) : LogValue ν n → Prop
  | .text _ => True
  | .plain _ => False
  | .ref r => ∃ error, heap r = .error error

theorem hooked_safe (sha256 : Digest) {heap : Heap ν n} {value : LogValue ν n}
    (intercepted : Intercepted heap value) :
    ∃ out, hooked sha256 heap value = some (.redacted out) ∧ Safe sha256 heap value out := by
  cases value with
  | text s =>
      obtain ⟨out, ran, safe⟩ := redactLogValue_safe sha256 heap (.text s)
      cases ran
      exact ⟨_, rfl, safe⟩
  | plain v => exact intercepted.elim
  | ref r =>
      obtain ⟨error, is⟩ := intercepted
      obtain ⟨out, ran, safe⟩ := redactErrorAlone_safe sha256 is
      refine ⟨_, ?_, safe_err safe⟩
      simp only [hooked, is, ran, Option.map_some]

theorem redactLogValue_blanked (sha256 : Digest) (heap : Heap ν n) (value : LogValue ν n) :
    redactLogValue sha256 (blanked heap) value = redactLogValue sha256 heap value := by
  rw [redactLogValue, redactLogValue, redactLogValueAt_blanked]

theorem hooked_blanked (sha256 : Digest) (heap : Heap ν n) :
    hooked sha256 (blanked heap) = hooked sha256 heap := by
  funext value
  cases value with
  | text s => rfl
  | plain v => rfl
  | ref r =>
      cases is : heap r <;>
        simp only [hooked, blanked, is, LogObject.blanked, redactErrorAlone,
          redactLogValueAt_blanked, redactError_blanked]

/-- The hook always answers. -/
theorem hooked_some (sha256 : Digest) (heap : Heap ν n) (value : LogValue ν n) :
    ∃ argument, hooked sha256 heap value = some argument := by
  by_cases intercepted : Intercepted heap value
  · obtain ⟨out, ran, _⟩ := hooked_safe sha256 intercepted
    exact ⟨_, ran⟩
  · cases value with
    | text s => exact absurd trivial intercepted
    | plain v => exact ⟨_, rfl⟩
    | ref r =>
        refine ⟨.same (.ref r), ?_⟩
        cases is : heap r with
        | error error => exact absurd ⟨error, is⟩ intercepted
        | _ => simp only [hooked, is]

theorem logMethod_cons (sha256 : Digest) (heap : Heap ν n) (value : LogValue ν n)
    (args : List (LogValue ν n)) {argument : Argument ν n}
    (here : hooked sha256 heap value = some argument) :
    ∃ rest, logMethod sha256 heap (value :: args) = some (argument :: rest) := by
  have all : ∃ rest, args.mapM (hooked sha256 heap) = some rest := by
    induction args with
    | nil => exact ⟨[], rfl⟩
    | cons next args ih =>
        obtain ⟨first, ran⟩ := hooked_some sha256 heap next
        obtain ⟨rest, ran'⟩ := ih
        refine ⟨first :: rest, ?_⟩
        rw [List.mapM_cons, ran, ran']
        rfl
  obtain ⟨rest, ran⟩ := all
  refine ⟨rest, ?_⟩
  rw [logMethod, List.mapM_cons, here, ran]
  rfl

/-- **What the log gets.**  The redactor and the hook always answer; no secret is in the answer, nor
has one any influence on it; and addresses are in it only through texts in which addresses share a
middle, keys, and names of errors. -/
theorem log_redacted (sha256 : Digest) (heap : Heap ν n) :
    (∀ value, ∃ out, redactLogValue sha256 heap value = some out ∧
      redactLogValue sha256 (blanked heap) value = some out ∧ Safe sha256 heap value out) ∧
    ∀ value args, Intercepted heap value → ∃ out rest,
      logMethod sha256 heap (value :: args) = some (.redacted out :: rest) ∧
      logMethod sha256 (blanked heap) (value :: args) = some (.redacted out :: rest) ∧
      Safe sha256 heap value out := by
  constructor
  · intro value
    obtain ⟨out, ran, safe⟩ := redactLogValue_safe sha256 heap value
    exact ⟨out, ran, (redactLogValue_blanked sha256 heap value).trans ran, safe⟩
  · intro value args intercepted
    obtain ⟨out, ran, safe⟩ := hooked_safe sha256 intercepted
    obtain ⟨rest, logged⟩ := logMethod_cons sha256 heap value args ran
    refine ⟨out, rest, logged, ?_, safe⟩
    rw [logMethod, hooked_blanked]
    exact logged

/-! ### A log call -/

/-- SHA-256 of `a`, for every text. -/
def hexOfA : JsString :=
  Js.ofString "ca978112ca1bbdcafac231b39a23dc4da786eff8147c4e72b9807785afee48bb"

theorem length_hexOfA : hexOfA.length = 64 := by decide +kernel

theorem hexOfA_digits : ∀ u ∈ hexOfA, (48 ≤ u && u ≤ 57) || (97 ≤ u && u ≤ 102) :=
  List.all_eq_true.1 (by decide +kernel)

/-- A digest that is right for the local part `a`. -/
def digestOfA : Digest := ⟨fun _ => hexOfA, fun _ => length_hexOfA, fun _ => hexOfA_digits⟩

def sampleEntries : Entries ℕ 2 :=
  ⟨[(Js.ofString "note", .text (Js.ofString "mail a@b.co")),
    (Js.ofString "password", .text (Js.ofString "hunter2")),
    (Js.ofString "err", .ref 1)], by decide⟩

/-- A record with an address, a secret and an error. -/
def sampleHeap : Heap ℕ 2
  | 0 => .record sampleEntries
  | 1 => .error ⟨Js.ofString "Error", Js.ofString "no mailbox a@b.co", none, some (.ref 0),
      ⟨[], List.nodup_nil⟩⟩

/-- What is logged of the record and of the error itself. -/
theorem log_redacted_sample :
    (∃ out, redactLogValue digestOfA sampleHeap (.ref 0) = some out ∧ Clean out ∧
      SecretsCensored out) ∧
    ∃ out rest, logMethod digestOfA sampleHeap [.ref 1] = some (.redacted out :: rest) ∧
      Clean out ∧ SecretsCensored out := by
  have names : ∀ q : Fin 2, ∀ name ∈ (sampleHeap q).names, (64 : UInt16) ∉ name := by decide
  have texts : ∀ q : Fin 2, ∀ s ∈ (sampleHeap q).texts, s.count (64 : UInt16) < 2 := by decide
  have spared : ∀ r : Fin 2, Spared Chained sampleHeap (.ref r) := by
    intro r
    refine ⟨nofun, fun q _ name member => addressFree_of_sign (names q name member), ?_⟩
    intro q _ s member chained
    exact absurd (two_signs chained) (Nat.not_le.2 (texts q s member))
  obtain ⟨walk, hook⟩ := log_redacted digestOfA sampleHeap
  obtain ⟨out, ran, _, safe⟩ := walk (.ref 0)
  obtain ⟨out', rest, ran', _, safe'⟩ := hook (.ref 1) [] ⟨_, rfl⟩
  exact ⟨⟨out, ran, safe.clean (spared 0), safe.censored⟩,
    out', rest, ran', safe'.clean (spared 1), safe'.censored⟩

theorem not_clean_text {s : JsString} (occurs : Occurs (Matches emailPattern) s) :
    ¬ Clean (.text s : Redacted ν) :=
  fun clean => clean_text.1 clean occurs

/-- `a@b.co@b.co` is logged as `b.co#ca978112ca@b.co`. -/
theorem chained_logged :
    redactSecretsInText digestOfA (Js.ofString "a@b.co@b.co") =
      Js.ofString "b.co#ca978112ca@b.co" := by
  decide +kernel

/-- A record with an address for a key, and an error with an address for a name. -/
def namedHeap : Heap ℕ 2
  | 0 => .record ⟨[(Js.ofString "a@b.co", .plain 1)], List.nodup_singleton _⟩
  | 1 => .error ⟨Js.ofString "a@b.co", [], none, none, ⟨[], List.nodup_nil⟩⟩

theorem address_sample {l : JsString} (local_ : Local l) :
    Address (l ++ 64 :: Js.ofString "b.co") := by
  refine ⟨l, Js.ofString "b.co", rfl, local_, Js.ofString "b", [Js.ofString ".co"], rfl,
    ⟨98, [], rfl, rfl, nofun⟩, List.cons_ne_nil _ _, ?_⟩
  rw [List.forall_mem_singleton]
  exact ⟨Js.ofString "co", rfl, 99, [111], rfl, rfl, List.all_eq_true.1 rfl⟩

theorem occurs_sample : Occurs (Matches emailPattern) (Js.ofString "a@b.co") :=
  ⟨[], Js.ofString "a@b.co", [], rfl,
    matches_email.2 (address_sample ⟨97, [], rfl, rfl, nofun⟩)⟩

/-- **Addresses that are logged**: the hash of a censored address begins another; and neither a key
nor the name of an error is scrubbed. -/
theorem addresses_logged :
    (∃ out, redactLogValue digestOfA sampleHeap (.text (Js.ofString "a@b.co@b.co")) = some out ∧
      ¬ Clean out) ∧
    (∃ out, redactLogValue digestOfA namedHeap (.ref 0) = some out ∧ ¬ Clean out) ∧
    ∃ out rest, logMethod digestOfA namedHeap [.ref 1] = some (.redacted out :: rest) ∧
      ¬ Clean out := by
  refine ⟨⟨.text (redactSecretsInText digestOfA (Js.ofString "a@b.co@b.co")), rfl,
      not_clean_text ?_⟩,
    ⟨.record [(Js.ofString "a@b.co", .plain 1)], rfl, ?_⟩,
    ⟨.record [(Js.ofString "err", .record [(Js.ofString "type", .text (Js.ofString "a@b.co")),
        (Js.ofString "message", .text (redactSecretsInText digestOfA [])),
        (Js.ofString "stack", .text [])])], [], rfl, ?_⟩⟩
  · have hash : Local (Js.ofString "ca978112ca") := local_of_alnum (by decide)
      (List.all_eq_true.1 rfl)
    rw [chained_logged]
    exact ⟨Js.ofString "b.co#", Js.ofString "ca978112ca@b.co", [], rfl,
      matches_email.2 (address_sample hash)⟩
  · intro clean
    exact (clean_record.1 clean _ (List.mem_singleton_self _)).1 occurs_sample
  · intro clean
    have inner := (clean_record.1 clean _ (List.mem_singleton_self _)).2
    exact clean_text.1 (clean_record.1 inner _ List.mem_cons_self).2 occurs_sample

end Tozalist.Shared.Logging
