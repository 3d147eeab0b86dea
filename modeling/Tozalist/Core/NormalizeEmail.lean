/-
# Tozalist.Core.NormalizeEmail -- an address as it is looked up and sent

`packages/core/src/normalize-email.ts`: white space and one matching wrapper go, the
part after the last `@` is lower-cased, and everything that was done is recorded once,
in the order it was done.
-/
import Tozalist.Js.Text

namespace Tozalist.Core

set_option autoImplicit false

/-- `EmailChange`. -/
inductive EmailChange where
  | trimmedWhitespace
  | strippedAngleBrackets
  | strippedDoubleQuotes
  | strippedSingleQuotes
  | lowercasedDomain
  deriving DecidableEq, Repr

/-- `NormalizedEmail`. -/
structure NormalizedEmail where
  /-- `none` when nothing remains -/
  normalized : Option JsString
  changes : List EmailChange
  deriving DecidableEq, Repr

/-- An outer wrapper; the ends are one unit each. -/
structure Wrapper where
  opening : UInt16
  closing : UInt16
  change : EmailChange
  deriving DecidableEq, Repr

/-- `WRAPPERS`. -/
def wrappers : List Wrapper :=
  [⟨0x3C, 0x3E, .strippedAngleBrackets⟩, ⟨0x22, 0x22, .strippedDoubleQuotes⟩,
    ⟨0x27, 0x27, .strippedSingleQuotes⟩]

/-- `recordOnce`. -/
def recordOnce (changes : List EmailChange) (change : EmailChange) : List EmailChange :=
  if change ∈ changes then changes else changes ++ [change]

/-- The value and the changes so far, after a step that gives `value`. -/
def recordChange (before : JsString × List EmailChange) (value : JsString)
    (change : EmailChange) : JsString × List EmailChange :=
  (value, if value ≠ before.1 then recordOnce before.2 change else before.2)

/-- The wrapper is around the value. -/
def Wrapper.Around (wrapper : Wrapper) (value : JsString) : Prop :=
  2 ≤ value.length ∧ value.head? = some wrapper.opening ∧
    value.getLast? = some wrapper.closing

instance (wrapper : Wrapper) (value : JsString) : Decidable (wrapper.Around value) :=
  inferInstanceAs (Decidable (_ ∧ _ ∧ _))

/-- Strip at most one wrapper, and what is white inside. -/
def stripWrapper (before : JsString × List EmailChange) : JsString × List EmailChange :=
  match wrappers.find? fun wrapper => wrapper.Around before.1 with
  | none => before
  | some wrapper =>
      let inner := before.1.tail.dropLast
      recordChange (inner, recordOnce before.2 wrapper.change) (Js.trim inner) .trimmedWhitespace

/-- Lower-case what follows the last `@`. -/
def lowercaseDomain (toLowerCase : JsString → JsString) (value : JsString) : JsString :=
  match Js.lastIndexOf value 0x40 with
  | none => value
  | some at_ => value.take at_ ++ 0x40 :: toLowerCase (value.drop (at_ + 1))

/-- `normalizeEmail`. -/
def normalizeEmail (toLowerCase : JsString → JsString) (input : JsString) : NormalizedEmail :=
  let stripped := stripWrapper (recordChange (input, []) (Js.trim input) .trimmedWhitespace)
  if stripped.1 = [] then ⟨none, stripped.2⟩
  else
    let lowered := recordChange stripped (lowercaseDomain toLowerCase stripped.1) .lowercasedDomain
    ⟨some lowered.1, lowered.2⟩

end Tozalist.Core
