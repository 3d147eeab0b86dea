/-
# Tozalist.Worker.RowResult -- the result of a row, and the one text it is kept as

`RowResult`, `encodeResult` and `decodeResult` of `apps/worker/src/batch/processor.ts`, and
the results the processor stores.  The map of a running batch keeps a result as a text
whose four parts stand between NULs.  A part with a NUL in it, or a reason code with a bar,
would not come back; `RowResult.Plain` says that a result has neither, and every stored
result is plain (`Outcome.result_plain`): reason codes are constants, a suggestion that was
computed is a known domain, and one that was stored went through PostgreSQL.
-/
import Tozalist.Core.DomainTypo
import Tozalist.Db.Schema

namespace Tozalist.Worker

set_option autoImplicit false

open Core (EngineResponse ReasonCode Verdict)
open Db (EmailCheck)

/-! ## The codec -/

/-- `RowResult`. -/
structure RowResult where
  verdict : Verdict
  score : ℕ
  reasonCodes : List JsString
  suggestion : JsString
  deriving DecidableEq, Repr

/-- A verdict as it is written. -/
def verdictText : Verdict → String
  | .valid => "valid"
  | .invalid => "invalid"
  | .risky => "risky"
  | .unknown => "unknown"

/-- The verdict a text stands for. -/
def verdictOf? (text : JsString) : Option Verdict :=
  [.valid, .invalid, .risky, .unknown].find? fun verdict => Js.ofString (verdictText verdict) = text

theorem verdictOf?_verdictText (verdict : Verdict) :
    verdictOf? (Js.ofString (verdictText verdict)) = some verdict := by
  cases verdict <;> decide

/-- `SEP`. -/
def sep : UInt16 := 0

/-- `'|'`, between reason codes. -/
def bar : UInt16 := 0x7C

/-- `encodeResult`. -/
def encodeResult (result : RowResult) : JsString :=
  Js.join [Js.ofString (verdictText result.verdict), Js.ofNat result.score,
    Js.join result.reasonCodes bar, result.suggestion] sep

/-- `codes === '' || codes === undefined ? [] : codes.split('|')`. -/
def splitCodes : Option JsString → List JsString
  | none => []
  | some [] => []
  | some codes => Js.split codes bar

/-- `decodeResult`; `none` where the casts of the source would not hold. -/
def decodeResult (encoded : JsString) : Option RowResult :=
  let parts := Js.split encoded sep
  do
    let verdict ← verdictOf? (parts[0]?.getD (Js.ofString "unknown"))
    let score ← Js.toNat? (parts[1]?.getD (Js.ofString "0"))
    return {
      verdict := verdict
      score := score
      reasonCodes := splitCodes parts[2]?
      suggestion := parts[3]?.getD [] }

/-- A text that can stand among reason codes. -/
structure PlainCode (code : JsString) : Prop where
  nonempty : code ≠ []
  sep : sep ∉ code
  bar : bar ∉ code

/-- The parts of the result leave the separators alone. -/
structure RowResult.Plain (result : RowResult) : Prop where
  codes : ∀ code ∈ result.reasonCodes, PlainCode code
  suggestion : sep ∉ result.suggestion

theorem splitCodes_join {codes : List JsString} (plain : ∀ code ∈ codes, PlainCode code) :
    splitCodes (some (Js.join codes bar)) = codes := by
  by_cases none_ : codes = []
  · rw [none_]
    rfl
  · have filled : Js.join codes bar ≠ [] :=
      Js.join_ne_nil none_ fun code member => (plain code member).nonempty
    obtain ⟨unit, rest, eq⟩ := List.exists_cons_of_ne_nil filled
    rw [eq, splitCodes, ← eq]
    · exact Js.split_join none_ fun code member => (plain code member).bar
    · simp

/-- **A plain result comes back** from its text. -/
theorem decodeResult_encodeResult {result : RowResult} (plain : result.Plain) :
    decodeResult (encodeResult result) = some result := by
  have parts : Js.split (encodeResult result) sep =
      [Js.ofString (verdictText result.verdict), Js.ofNat result.score,
        Js.join result.reasonCodes bar, result.suggestion] := by
    apply Js.split_join (List.cons_ne_nil _ _)
    simp only [List.forall_mem_cons]
    refine ⟨?_, Js.not_mem_ofNat (by decide) _, ?_, plain.suggestion, List.forall_mem_nil _⟩
    · cases result.verdict <;> decide
    · exact Js.not_mem_join (by decide) fun code member => (plain.codes code member).sep
  simp only [decodeResult, parts, List.getElem?_cons_zero, List.getElem?_cons_succ,
    Option.getD_some, verdictOf?_verdictText, Js.toNat?_ofNat, Option.bind_eq_bind,
    Option.bind_some, splitCodes_join plain.codes]
  rfl

/-! ## What the processor stores -/

/-- `MALFORMED`. -/
def malformed : RowResult :=
  { verdict := .invalid
    score := 0
    reasonCodes := [Js.ofString ReasonCode.syntaxInvalid.text]
    suggestion := [] }

/-- The result of an address the engine could not assess. -/
def unassessed : RowResult :=
  { verdict := .unknown
    score := 50
    reasonCodes := [Js.ofString ReasonCode.mxLookupUnavailable.text]
    suggestion := [] }

/-- The result of a cached check. -/
def cachedResult (cached : EmailCheck) : RowResult :=
  { verdict := cached.verdict
    score := (cached.checksJson.map (·.score)).getD 0
    reasonCodes := cached.reasonCodes.map fun code => Js.ofString code.text
    suggestion := (cached.checksJson.bind (·.typo)).getD [] }

/-- The typo signal of an engine response. -/
def typoOf (toLowerCase : JsString → JsString) (engine : EngineResponse) : Option JsString :=
  Core.detectTypo toLowerCase (Js.ofString engine.syntax_.domain)

/-- The aggregate of a response of the offline pass. -/
def aggregated (toLowerCase : JsString → JsString) (engine : EngineResponse) :
    Core.AggregateResult :=
  Core.aggregate { engine := engine, typo := typoOf toLowerCase engine, operationalReason := none }

/-- The result of a fresh check. -/
def checkedResult (toLowerCase : JsString → JsString) (engine : EngineResponse) : RowResult :=
  { verdict := (aggregated toLowerCase engine).verdict
    score := (aggregated toLowerCase engine).score
    reasonCodes := (aggregated toLowerCase engine).reasonCodes.map fun code => Js.ofString code.text
    suggestion := (typoOf toLowerCase engine).getD [] }

theorem plainCode_text (code : ReasonCode) : PlainCode (Js.ofString code.text) := by
  cases code <;> exact ⟨by decide, by decide, by decide⟩

theorem plainCode_texts (codes : List ReasonCode) :
    ∀ text ∈ codes.map (fun code => Js.ofString code.text), PlainCode text := by
  intro text member
  obtain ⟨code, -, rfl⟩ := List.mem_map.1 member
  exact plainCode_text code

/-- How an address was resolved. -/
inductive Outcome where
  | cached (check : EmailCheck)
  | unassessed
  | checked (response : EngineResponse)
  deriving DecidableEq

/-- The result that is stored for it. -/
def Outcome.result (toLowerCase : JsString → JsString) : Outcome → RowResult
  | .cached check => cachedResult check
  | .unassessed => Worker.unassessed
  | .checked response => checkedResult toLowerCase response

/-- **Every stored result is plain.** -/
theorem Outcome.result_plain (toLowerCase : JsString → JsString) (outcome : Outcome) :
    (outcome.result toLowerCase).Plain := by
  cases outcome with
  | cached check =>
      refine ⟨plainCode_texts _, ?_⟩
      cases snapshot : check.checksJson with
      | none => simp [result, cachedResult, snapshot]
      | some stored =>
          cases typo : stored.typo with
          | none => simp [result, cachedResult, snapshot, typo]
          | some text =>
              have stores : (0 : UInt16) ∉ text := check.storable stored snapshot text typo
              simpa [result, cachedResult, snapshot, typo, sep] using stores
  | unassessed => exact ⟨plainCode_texts [.mxLookupUnavailable], List.not_mem_nil⟩
  | checked response =>
      refine ⟨plainCode_texts _, ?_⟩
      cases typo : typoOf toLowerCase response with
      | none => simp [result, checkedResult, typo]
      | some text =>
          have free := Core.detectTypo_nul_free typo
          simpa [result, checkedResult, typo, sep] using free

/-- What is stored is read back. -/
theorem Outcome.decode (toLowerCase : JsString → JsString) (outcome : Outcome) :
    decodeResult (encodeResult (outcome.result toLowerCase)) = some (outcome.result toLowerCase) :=
  decodeResult_encodeResult (outcome.result_plain toLowerCase)

end Tozalist.Worker
