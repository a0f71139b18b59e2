import Mathlib
import AlulaKeeper.Lib.Text

/-!
# Classified failures

The errors of the RPC client are opaque; `stellar/errors.rs` reads their rendered text.

* `extractContractCode`, `classifyStr`, and the predicates of the call sites.
* `contract_code_round_trip`: a code the contract raised is read back from any text it is rendered in, and
  decides what the call sites make of the failure.
-/

namespace AlulaKeeper

open Text

/-! ## The texts -/

/-- `msg.contains(pattern)`. -/
def textContains (msg : List Char) (pattern : String) : Bool := pattern.toList <:+: msg

/-- `str::to_lowercase`, as far as the patterns can tell: only ASCII letters become letters of theirs. -/
def toLowercase (msg : List Char) : List Char := msg.map Char.toLower

/-- `SorobanRpcError`. -/
inductive SorobanRpcError where
  | contract (code : ℕ)
  | badSequence
  | noSimulationResults
  | terminalCursor
  | txFailedOnChain
  | submissionTimeout
  | unexpectedStatus
  | other
  deriving DecidableEq, Repr

/-- `EXPECTED_LIQUIDATION_FAILURE_NAMES`. -/
def expectedLiquidationFailureNames : List String :=
  ["ObligationIsHealthy", "ObligationDoesNotExist", "InvalidLiquidationInputs", "BorrowPoolDoesNotExist",
    "CollateralPoolDoesNotExist", "LiquidationExcessiveDemandedCollateral", "LiquidationLeavesDust"]

/-- `LIQUIDATION_LEAVES_DUST_CODE`. -/
def liquidationLeavesDustCode : ℕ := 606

/-- `KNOWN_LIQUIDATION_FAILURE_CODES`. -/
def knownLiquidationFailureCodes : List ℕ := [105, 106, 200, 600, 601, 605, liquidationLeavesDustCode]

/-- `OBLIGATION_DOES_NOT_EXIST_CODE`. -/
def obligationDoesNotExistCode : ℕ := 200

/-- `MARKER`. -/
def contractMarker : String := "Error(Contract, #"

/-- How an empty simulation is reported. -/
def noResultsText : String := "simulation returned no results"

/-! ## The classification -/

/-- `extract_contract_code`: the digits after the first marker, if they make up a `u32`. -/
def extractContractCode (msg : List Char) : Option ℕ :=
  (afterFirst contractMarker.toList msg).bind (leadingNumber (2 ^ 32))

/-- `SorobanRpcError::classify_str`; `classify` does it on the rendered error. -/
def classifyStr (msg : List Char) : SorobanRpcError :=
  let lower := toLowercase msg
  if textContains lower noResultsText then .noSimulationResults
  else
    match extractContractCode msg with
    | some code => .contract code
    | none =>
      if textContains lower "tx_bad_seq" || textContains lower "bad_seq" || textContains lower "bad seq" then
        .badSequence
      else if textContains lower "cursor not found" || textContains lower "invalid cursor" ||
          textContains lower "invalid argument" ||
          (textContains lower "ledger" && textContains lower "too old") then .terminalCursor
      else if textContains lower "transaction submission timeout" then .submissionTimeout
      else if textContains lower "expected transaction status" then .unexpectedStatus
      else if textContains lower "transaction failed" ||
          textContains lower "transaction submission failed" then .txFailedOnChain
      else .other

/-- `is_expected_liquidation_failure`. -/
def isExpectedLiquidationFailure (err : List Char) : Bool :=
  (match classifyStr err with
    | .contract code => knownLiquidationFailureCodes.contains code
    | _ => false) ||
  expectedLiquidationFailureNames.any (textContains err)

/-- `contract_error_code`. -/
def contractErrorCode (err : List Char) : Option ℕ := extractContractCode err

/-- `is_obligation_does_not_exist`. -/
def isObligationDoesNotExist (err : List Char) : Bool :=
  match classifyStr err with
  | .contract code => code == obligationDoesNotExistCode
  | _ => textContains err "ObligationDoesNotExist"

/-- `is_bad_seq_error`. -/
def isBadSeqError (err : List Char) : Bool := classifyStr err = .badSequence

/-- `is_no_simulation_results_error`. -/
def isNoSimulationResultsError (err : List Char) : Bool := classifyStr err = .noSimulationResults

/-- `is_terminal_cursor_error`. -/
def isTerminalCursorError (err : List Char) : Bool := classifyStr err = .terminalCursor

/-! ## A code in its context -/

section RoundTrip

variable {context rest : List Char} {n : ℕ}

/-- The text of a contract error: `Error(Contract, #N)`. -/
def contractErrorText (n : ℕ) : List Char := contractMarker.toList ++ Nat.toDigits 10 n ++ [')']

/-- A text with a first contract error. -/
def renderedError (context : List Char) (n : ℕ) (rest : List Char) : List Char :=
  context ++ (contractErrorText n ++ rest)

theorem extractContractCode_rendered (rest : List Char) (n : ℕ) (h : textContains context contractMarker = false) :
    extractContractCode (renderedError context n rest) = if n < 2 ^ 32 then some n else none := by
  have hmarker : contractMarker.toList = 'E' :: "rror(Contract, #".toList := by decide +kernel
  have hnot : ¬ 'E' :: "rror(Contract, #".toList <:+: context := by
    rw [← hmarker]
    simpa [textContains] using h
  have hfirst : afterFirst contractMarker.toList (renderedError context n rest) =
      some (Nat.toDigits 10 n ++ (')' :: rest)) := by
    rw [renderedError, contractErrorText, hmarker]
    simp only [List.append_assoc]
    have hsplit := afterFirst_append (Nat.toDigits 10 n ++ ([')'] ++ rest))
      (show 'E' ∉ "rror(Contract, #".toList by decide +kernel) hnot
    simpa using hsplit
  rw [extractContractCode, hfirst, Option.bind_some]
  refine leadingNumber_toDigits _ n ?_
  rintro c hc
  obtain rfl := Option.some.inj hc
  decide

/-- **A contract's code survives its rendering.** Whatever text stands around the first `Error(Contract, #N)`,
`N` is read back if it is a `u32`. A text that tells of an empty simulation is classified as that; any other by
`N`: never as a bad sequence number or a dead cursor, as a gone obligation for code 200 only, and as an expected
refusal for the known codes, or by a name in the text. -/
theorem contract_code_round_trip (context rest : List Char) (n : ℕ)
    (h : textContains context contractMarker = false) :
    contractErrorCode (renderedError context n rest) = (if n < 2 ^ 32 then some n else none) ∧
      (textContains (toLowercase (renderedError context n rest)) noResultsText = true →
        classifyStr (renderedError context n rest) = .noSimulationResults) ∧
      (n < 2 ^ 32 →
        textContains (toLowercase (renderedError context n rest)) noResultsText = false →
        classifyStr (renderedError context n rest) = .contract n ∧
          isBadSeqError (renderedError context n rest) = false ∧
          isTerminalCursorError (renderedError context n rest) = false ∧
          isNoSimulationResultsError (renderedError context n rest) = false ∧
          (isObligationDoesNotExist (renderedError context n rest) = true ↔ n = 200) ∧
          (isExpectedLiquidationFailure (renderedError context n rest) = true ↔
            n ∈ knownLiquidationFailureCodes ∨
              ∃ name ∈ expectedLiquidationFailureNames,
                textContains (renderedError context n rest) name = true)) := by
  have hcode := extractContractCode_rendered rest n h
  refine ⟨hcode, fun hresults => by simp [classifyStr, hresults], fun hn hresults => ?_⟩
  have hclass : classifyStr (renderedError context n rest) = .contract n := by
    rw [if_pos hn] at hcode
    simp only [classifyStr, hresults, hcode, Bool.false_eq_true, if_false]
  refine ⟨hclass, ?_, ?_, ?_, ?_, ?_⟩
  · simp [isBadSeqError, hclass]
  · simp [isTerminalCursorError, hclass]
  · simp [isNoSimulationResultsError, hclass]
  · simp [isObligationDoesNotExist, hclass, obligationDoesNotExistCode]
  · simp [isExpectedLiquidationFailure, hclass]

/-- The failure of the source's own test: an obligation that is gone. -/
def goneText : List Char :=
  renderedError "simulation failed for get_user_obligation: HostError: ".toList 200 []

theorem contract_code_round_trip_gone :
    goneText = "simulation failed for get_user_obligation: HostError: Error(Contract, #200)".toList ∧
      contractErrorCode goneText = some 200 ∧ classifyStr goneText = .contract 200 ∧
      isBadSeqError goneText = false ∧ isTerminalCursorError goneText = false ∧
      isNoSimulationResultsError goneText = false ∧ isObligationDoesNotExist goneText = true ∧
      isExpectedLiquidationFailure goneText = true := by
  obtain ⟨hcode, -, hclass⟩ := contract_code_round_trip
    "simulation failed for get_user_obligation: HostError: ".toList [] 200 (by decide +kernel)
  obtain ⟨hcontract, hseq, hcursor, hresults, hgone, hexpected⟩ := hclass (by decide) (by decide +kernel)
  rw [if_pos (by decide)] at hcode
  exact ⟨by decide +kernel, hcode, hcontract, hseq, hcursor, hresults, hgone.mpr rfl,
    hexpected.mpr (.inl (by decide))⟩

end RoundTrip

/-! ## Empty simulations -/

/-- `empty_simulation_error`. -/
def emptySimulationError : Option (List Char) → List Char
  | some detail => noResultsText.toList ++ ([':', ' '] ++ detail)
  | none => noResultsText.toList

theorem starts_with_noResultsText (simError : Option (List Char)) :
    noResultsText.toList <+: emptySimulationError simError := by
  cases simError with
  | none => exact List.prefix_refl _
  | some detail => exact List.prefix_append _ _

theorem contains_emptySimulationError (simError : Option (List Char)) :
    textContains (toLowercase (emptySimulationError simError)) noResultsText = true := by
  have hlower : toLowercase noResultsText.toList = noResultsText.toList := by decide +kernel
  have hprefix : toLowercase noResultsText.toList <+: toLowercase (emptySimulationError simError) :=
    (starts_with_noResultsText simError).map Char.toLower
  rw [hlower] at hprefix
  exact decide_eq_true hprefix.isInfix

/-- An empty simulation is one, whatever diagnostic it carries. -/
theorem isNoSimulationResultsError_emptySimulationError (simError : Option (List Char)) :
    isNoSimulationResultsError (emptySimulationError simError) = true := by
  simp [isNoSimulationResultsError, classifyStr, contains_emptySimulationError]

/-- It keeps the diagnostic's code. -/
theorem contractErrorCode_emptySimulationError (simError : Option (List Char)) :
    contractErrorCode (emptySimulationError simError) = simError.bind contractErrorCode := by
  have hmarker : contractMarker.toList = 'E' :: "rror(Contract, #".toList := by decide +kernel
  have hletter : 'E' ∉ noResultsText.toList := by decide +kernel
  cases simError with
  | none =>
    have hnone := afterFirst_append_of_not_mem "rror(Contract, #".toList [] hletter
    rw [List.append_nil, ← hmarker] at hnone
    show (afterFirst contractMarker.toList noResultsText.toList).bind (leadingNumber (2 ^ 32)) = none
    rw [hnone, hmarker, afterFirst, if_neg (by simp), Option.bind_none]
  | some detail =>
    have hdetail : 'E' ∉ noResultsText.toList ++ [':', ' '] := by
      simp [hletter]
    have hskip := afterFirst_append_of_not_mem "rror(Contract, #".toList detail hdetail
    rw [List.append_assoc, ← hmarker] at hskip
    show (afterFirst contractMarker.toList (noResultsText.toList ++ ([':', ' '] ++ detail))).bind _ = _
    rw [hskip]
    rfl

end AlulaKeeper
