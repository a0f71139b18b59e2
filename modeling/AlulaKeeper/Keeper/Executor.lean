import Mathlib
import AlulaKeeper.Stellar.Errors
import AlulaKeeper.Stellar.KeyCodec

/-!
# Submitting transactions

`SorobanExecutor::execute` simulates, assembles, signs and sends one operation, again until an attempt
succeeds, an empty simulation ends it or the attempts are used up; a task of its own polls for the receipt.

* `assemble`, `buildAndSend`: one attempt, given the RPC's answers.
* `submitLoop`, `execute`, `confirm`: the attempts, what comes of them, and the poll.
* `submission_is_the_action`: what is sent is the action's operation as it was simulated.
* `execute_settles`: whatever the RPC answers, the attempts end, and the settle hook is released once.
-/

namespace AlulaKeeper

/-! ## Transactions -/

/-- A rendered error. -/
abbrev ErrorText := List Char

/-- `u32::MAX`. -/
def u32Max : ℕ := 4294967295

/-- `i64::MAX`. -/
def i64Max : ℤ := 9223372036854775807

/-- `OperationBody`; `P` is what an operation invokes, `Auth` an authorization entry. -/
inductive OperationBody (P Auth : Type) where
  | invokeHostFunction (hostFunction : P) (auth : List Auth)
  | other (body : P)
  deriving DecidableEq

/-- `Transaction`, less its preconditions and memo, which are none. -/
structure Transaction (P Auth Data : Type) where
  sourceAccount : Bytes32
  fee : ℕ
  seqNum : ℤ
  operations : List (OperationBody P Auth)
  /-- `TransactionExt::V1`. -/
  ext : Option Data
  deriving DecidableEq

/-- A transaction and its signatures. -/
structure Envelope (P Auth Data Sig : Type) where
  tx : Transaction P Auth Data
  signatures : List Sig
  deriving DecidableEq

/-- `SimulateTransactionResponse`, as far as the executor reads it; a result by its `auth`. -/
structure SimResponse where
  results : List (List String)
  transactionData : String
  minResourceFee : ℕ
  error : Option ErrorText

/-- The answers of the RPC to one attempt. -/
structure Rpc (P Auth Data Sig : Type) where
  /-- `get_account`, by the sequence number. -/
  account : Except ErrorText ℤ
  simulateTransactionEnvelope : Envelope P Auth Data Sig → Except ErrorText SimResponse
  sendTransaction : Envelope P Auth Data Sig → Except ErrorText Bytes32

/-- The key of the action, the text of a hash and the readers of the simulator's XDR. -/
structure Codec (P Auth Data Sig : Type) where
  sourceKey : Bytes32
  hex : Hex
  sign : Transaction P Auth Data → Sig
  transactionDataFromXdr : String → Except ErrorText Data
  authFromXdr : String → Except ErrorText Auth

/-- `SubmitStellarTx`; the settle hook by whether there is one. -/
structure SubmitStellarTx (P Auth : Type) where
  op : OperationBody P Auth
  maxSubmissionRetries : ℕ
  onSettle : Bool

variable {P Auth Data Sig : Type}

/-! ## One attempt -/

/-- The auth of an operation, if the simulator has recorded any for it. -/
def mergeAuth (codec : Codec P Auth Data Sig) (recorded : Option (List String)) :
    OperationBody P Auth → Except ErrorText (OperationBody P Auth)
  | .invokeHostFunction hostFunction auth =>
    match recorded with
    | none | some [] => .ok (.invokeHostFunction hostFunction auth)
    | some texts => do
      let entries ← texts.mapM codec.authFromXdr
      -- more than a `VecM` holds is only warned about
      if entries.length ≤ u32Max then return .invokeHostFunction hostFunction entries
      else return .invokeHostFunction hostFunction auth
  | .other body => .ok (.other body)

/-- `min_fee_u32`, with half of it on top. -/
def bufferedFee (minResourceFee : ℕ) : Except ErrorText ℕ :=
  if minResourceFee ≤ u32Max then .ok (min (minResourceFee * 3) u32Max / 2)
  else .error ("simulated min_resource_fee (".toList ++ Nat.toDigits 10 minResourceFee ++
    ") exceeds u32::MAX".toList)

/-- The transaction that is simulated. -/
def draftTransaction (codec : Codec P Auth Data Sig) (action : SubmitStellarTx P Auth)
    (defaultSimulationFee : ℕ) (seqNum : ℤ) : Transaction P Auth Data where
  sourceAccount := codec.sourceKey
  fee := defaultSimulationFee
  seqNum
  operations := [action.op]
  ext := none

/-- The resources the simulator has recorded. -/
def resourceData (codec : Codec P Auth Data Sig) (response : SimResponse) : Except ErrorText (Option Data) :=
  if response.transactionData = "" then .ok none
  else (codec.transactionDataFromXdr response.transactionData).map some

/-- `build_and_send` up to the signature. -/
def assemble (codec : Codec P Auth Data Sig) (rpc : Rpc P Auth Data Sig) (action : SubmitStellarTx P Auth)
    (defaultSimulationFee : ℕ) (seqNum : ℤ) : Except ErrorText (Envelope P Auth Data Sig) := do
  let tx := draftTransaction codec action defaultSimulationFee seqNum
  let response ← rpc.simulateTransactionEnvelope { tx, signatures := [] }
  if response.results = [] then throw (emptySimulationError response.error)
  let ext ← resourceData codec response
  let operations ← tx.operations.zipIdx.mapM fun op =>
    mergeAuth codec response.results[op.2]? op.1
  let fee ← bufferedFee response.minResourceFee
  let assembled := { tx with ext, operations, fee := max tx.fee fee }
  return { tx := assembled, signatures := [codec.sign assembled] }

/-- `build_and_send`, with the envelope it sends. -/
def buildAndSend (codec : Codec P Auth Data Sig) (rpc : Rpc P Auth Data Sig)
    (action : SubmitStellarTx P Auth) (defaultSimulationFee : ℕ) (seqNum : ℤ) :
    Option (Envelope P Auth Data Sig) × Except ErrorText String :=
  match assemble codec rpc action defaultSimulationFee seqNum with
  | .error e => (none, .error e)
  | .ok envelope =>
    match rpc.sendTransaction envelope with
    | .error e => (some envelope, .error e)
    | .ok hash => (some envelope, .ok (codec.hex.encode hash.1))

/-! ## The attempts -/

/-- How the attempts end. -/
inductive SubmitResult where
  | simEmpty
  | success (hash : String)
  | seqFetchFailed (e : ErrorText)
  | retryExhausted (e : ErrorText)
  deriving DecidableEq

/-- What the attempts have done. -/
structure Attempts (P Auth Data Sig : Type) where
  count : ℕ
  submitted : List (Envelope P Auth Data Sig)
  badSeqRetries : ℕ
  /-- Milliseconds. -/
  slept : ℕ

/-- `BACKOFF_STEP_MILLIS`. -/
def backoffStepMillis : ℕ := 250

/-- `fetch_seq_num`: the next sequence number. -/
def fetchSeqNum (rpc : Rpc P Auth Data Sig) : Except ErrorText ℤ :=
  rpc.account.map fun seq => min (seq + 1) i64Max

section Loop

variable (codec : Codec P Auth Data Sig) (rpc : ℕ → Rpc P Auth Data Sig) (action : SubmitStellarTx P Auth)
  (defaultSimulationFee : ℕ)

/-- The loop of `execute`; `left` is `max_retries - attempt`, so the attempt is the last one where it is 0. -/
def submitLoop : (left attempt : ℕ) → Attempts P Auth Data Sig → SubmitResult × Attempts P Auth Data Sig
  | left, attempt, log =>
    match fetchSeqNum (rpc attempt) with
    | .error e =>
      let log := { log with count := log.count + 1 }
      match left with
      | 0 => (.seqFetchFailed e, log)
      | left + 1 =>
        submitLoop left (attempt + 1) { log with slept := log.slept + backoffStepMillis * (attempt + 1) }
    | .ok seqNum =>
      let (envelope, sent) := buildAndSend codec (rpc attempt) action defaultSimulationFee seqNum
      let log := { log with count := log.count + 1, submitted := log.submitted ++ envelope.toList }
      match sent with
      | .ok hash => (.success hash, log)
      | .error e =>
        if isNoSimulationResultsError e then (.simEmpty, log)
        else
          let log := { log with badSeqRetries := log.badSeqRetries + if isBadSeqError e then 1 else 0 }
          match left with
          | 0 => (.retryExhausted e, log)
          | left + 1 =>
            submitLoop left (attempt + 1) { log with slept := log.slept + backoffStepMillis * (attempt + 1) }

/-! ## What comes of them -/

/-- `TxSubmitOutcome`. -/
inductive TxSubmitOutcome where
  | ok
  | simEmpty
  | seqFetchFailed
  | retryExhausted
  deriving DecidableEq, Repr

/-- What `execute` answers, records and hands on. -/
structure Executed (P Auth Data Sig : Type) where
  answer : Except ErrorText Unit
  outcome : TxSubmitOutcome
  /-- The hash handed to `spawn_confirmation_poll`. -/
  polled : Option String
  /-- Calls of `hook.release()`. -/
  releases : ℕ
  attempts : Attempts P Auth Data Sig

/-- `SorobanExecutor::execute`. -/
def execute : Executed P Auth Data Sig :=
  let (result, attempts) := submitLoop codec rpc action defaultSimulationFee
    (action.maxSubmissionRetries - 1) 1 { count := 0, submitted := [], badSeqRetries := 0, slept := 0 }
  let releases := if action.onSettle then 1 else 0
  match result with
  | .success hash => { answer := .ok (), outcome := .ok, polled := some hash, releases := 0, attempts }
  | .simEmpty => { answer := .ok (), outcome := .simEmpty, polled := none, releases, attempts }
  | .seqFetchFailed e =>
    { answer := .error e, outcome := .seqFetchFailed, polled := none, releases, attempts }
  | .retryExhausted e =>
    { answer := .error e, outcome := .retryExhausted, polled := none, releases, attempts }

end Loop

/-- `TxConfirmOutcome`. -/
inductive TxConfirmOutcome where
  | confirmed
  | hashDecodeFailed
  | failedOnChain
  | submissionTimeout
  | unexpectedStatus
  | transportError
  deriving DecidableEq, Repr

/-- What the confirmation task records and releases. -/
structure Confirmed where
  outcome : TxConfirmOutcome
  /-- `record_realised_profit` runs, if the hook carries an outcome metric. -/
  realised : Bool
  releases : ℕ
  deriving DecidableEq

/-- The task of `spawn_confirmation_poll`, given the answer of `get_transaction_polling`. -/
def confirm (hex : Hex) (onSettle : Bool) (polling : Bytes32 → Except ErrorText Unit) (hashHex : String) :
    Confirmed :=
  let releases := if onSettle then 1 else 0
  match hex.decode hashHex with
  | none => { outcome := .hashDecodeFailed, realised := false, releases }
  | some bytes =>
    if h : bytes.length = 32 then
      match polling ⟨bytes, h⟩ with
      | .ok () => { outcome := .confirmed, realised := onSettle, releases }
      | .error e =>
        let outcome := match classifyStr e with
          | .txFailedOnChain | .contract _ => .failedOnChain
          | .submissionTimeout => .submissionTimeout
          | .unexpectedStatus => .unexpectedStatus
          | _ => .transportError
        { outcome, realised := false, releases }
    else { outcome := .hashDecodeFailed, realised := false, releases }

/-! ## What is sent -/

/-- The operation with other auth. -/
def OperationBody.withAuth (auth : List Auth) : OperationBody P Auth → OperationBody P Auth
  | .invokeHostFunction hostFunction _ => .invokeHostFunction hostFunction auth
  | .other body => .other body

/-- An envelope is the action as one attempt has simulated it. -/
structure Submits (codec : Codec P Auth Data Sig) (rpc : Rpc P Auth Data Sig) (action : SubmitStellarTx P Auth)
    (defaultSimulationFee : ℕ) (seqNum : ℤ) (response : SimResponse) (envelope : Envelope P Auth Data Sig) :
    Prop where
  simulated : rpc.simulateTransactionEnvelope
    { tx := draftTransaction codec action defaultSimulationFee seqNum, signatures := [] } = .ok response
  results : response.results ≠ []
  signed : envelope.signatures = [codec.sign envelope.tx]
  source : envelope.tx.sourceAccount = codec.sourceKey
  seqNum : envelope.tx.seqNum = seqNum
  /-- The action's operation, with the auth the simulator has recorded for it if there is any. -/
  operation : envelope.tx.operations = [action.op] ∨
    ∃ texts entries, response.results.head? = some texts ∧ texts.mapM codec.authFromXdr = .ok entries ∧
      envelope.tx.operations = [action.op.withAuth entries]
  ext : (response.transactionData = "" ∧ envelope.tx.ext = none) ∨
    ∃ data, codec.transactionDataFromXdr response.transactionData = .ok data ∧ envelope.tx.ext = some data
  minResourceFee : response.minResourceFee ≤ u32Max
  fee : envelope.tx.fee = max defaultSimulationFee (min (response.minResourceFee * 3) u32Max / 2)

section Assemble

variable {codec : Codec P Auth Data Sig} {rpc : Rpc P Auth Data Sig} {action : SubmitStellarTx P Auth}
  {defaultSimulationFee : ℕ} {seqNum : ℤ} {envelope : Envelope P Auth Data Sig} {response : SimResponse}
  {e : ErrorText}

theorem except_bind_ok {ε α β : Type} {x : Except ε α} {f : α → Except ε β} {b : β} (h : x >>= f = .ok b) :
    ∃ a, x = .ok a ∧ f a = .ok b := by
  cases x with
  | error e => cases h
  | ok a => exact ⟨a, rfl, h⟩

theorem mergeAuth_ok {recorded : Option (List String)} {op op' : OperationBody P Auth}
    (h : mergeAuth codec recorded op = .ok op') :
    op' = op ∨ ∃ texts entries, recorded = some texts ∧ texts.mapM codec.authFromXdr = .ok entries ∧
      op' = op.withAuth entries := by
  cases op with
  | other body =>
    obtain rfl := Except.ok.inj h
    exact .inl rfl
  | invokeHostFunction hostFunction auth =>
    match recorded, h with
    | none, h | some [], h =>
      obtain rfl := Except.ok.inj h
      exact .inl rfl
    | some (text :: texts), h =>
      obtain ⟨entries, hentries, h⟩ := except_bind_ok h
      split_ifs at h
      · obtain rfl := Except.ok.inj h
        exact .inr ⟨_, entries, rfl, hentries, rfl⟩
      · obtain rfl := Except.ok.inj h
        exact .inl rfl

theorem bufferedFee_ok {m fee : ℕ} (h : bufferedFee m = .ok fee) : m ≤ u32Max ∧ fee = min (m * 3) u32Max / 2 := by
  unfold bufferedFee at h
  split_ifs at h with hle
  exact ⟨hle, (Except.ok.inj h).symm⟩

theorem assemble_ok (h : assemble codec rpc action defaultSimulationFee seqNum = .ok envelope) :
    ∃ response, Submits codec rpc action defaultSimulationFee seqNum response envelope := by
  unfold assemble at h
  obtain ⟨response, hsimulated, h⟩ := except_bind_ok h
  refine ⟨response, ?_⟩
  by_cases hresults : response.results = []
  · simp [hresults] at h
    cases h
  simp only [hresults, if_false] at h
  obtain ⟨ext, hext, h⟩ := except_bind_ok h
  obtain ⟨operations, hoperations, h⟩ := except_bind_ok h
  obtain ⟨fee, hfee, h⟩ := except_bind_ok h
  obtain rfl := Except.ok.inj h
  obtain ⟨hm, rfl⟩ := bufferedFee_ok hfee
  refine ⟨hsimulated, hresults, rfl, rfl, rfl, ?_, ?_, hm, rfl⟩
  · rw [draftTransaction, List.zipIdx_cons, List.zipIdx_nil, List.mapM_cons] at hoperations
    obtain ⟨op, hop, hoperations⟩ := except_bind_ok hoperations
    obtain rfl := Except.ok.inj hoperations
    obtain rfl | ⟨texts, entries, htexts, hentries, rfl⟩ := mergeAuth_ok hop
    · exact .inl rfl
    · exact .inr ⟨texts, entries, by rw [List.head?_eq_getElem?]; exact htexts, hentries, rfl⟩
  · unfold resourceData at hext
    split_ifs at hext with hempty
    · exact .inl ⟨hempty, (Except.ok.inj hext).symm⟩
    · cases hdata : codec.transactionDataFromXdr response.transactionData with
      | error e => simp [hdata, Except.map] at hext
      | ok data =>
        rw [hdata] at hext
        exact .inr ⟨data, rfl, (Except.ok.inj hext).symm⟩

end Assemble

/-! ## How the attempts go -/

section Attempts

variable (codec : Codec P Auth Data Sig) (rpc : ℕ → Rpc P Auth Data Sig) (action : SubmitStellarTx P Auth)
  (defaultSimulationFee : ℕ)

/-- An attempt failed, and not on an empty simulation. -/
def Retried (k : ℕ) : Prop :=
  (∃ e, fetchSeqNum (rpc k) = .error e) ∨
    ∃ seqNum e, fetchSeqNum (rpc k) = .ok seqNum ∧
      (buildAndSend codec (rpc k) action defaultSimulationFee seqNum).2 = .error e ∧
      isNoSimulationResultsError e = false

/-- How attempt `n` ends the loop; only the last one ends it by failing. -/
def EndsWith (n last : ℕ) : SubmitResult → Prop
  | .success hash => ∃ seqNum, fetchSeqNum (rpc n) = .ok seqNum ∧
      (buildAndSend codec (rpc n) action defaultSimulationFee seqNum).2 = .ok hash
  | .simEmpty => ∃ seqNum e, fetchSeqNum (rpc n) = .ok seqNum ∧
      (buildAndSend codec (rpc n) action defaultSimulationFee seqNum).2 = .error e ∧
      isNoSimulationResultsError e = true
  | .seqFetchFailed e => n = last ∧ fetchSeqNum (rpc n) = .error e
  | .retryExhausted e => n = last ∧ ∃ seqNum, fetchSeqNum (rpc n) = .ok seqNum ∧
      (buildAndSend codec (rpc n) action defaultSimulationFee seqNum).2 = .error e ∧
      isNoSimulationResultsError e = false

/-- The attempts `attempt, …, n` were made, and attempt `n` was the last. -/
structure LoopSpec (attempt last n : ℕ) (before : Attempts P Auth Data Sig) (result : SubmitResult)
    (after : Attempts P Auth Data Sig) : Prop where
  le : attempt ≤ n
  le_last : n ≤ last
  retried : ∀ k, attempt ≤ k → k < n → Retried codec rpc action defaultSimulationFee k
  ends : EndsWith codec rpc action defaultSimulationFee n last result
  count : after.count = before.count + (n + 1 - attempt)
  slept : after.slept = before.slept + ∑ k ∈ Finset.Ico attempt n, backoffStepMillis * (k + 1)
  sent : ∀ envelope ∈ after.submitted, envelope ∈ before.submitted ∨ ∃ k seqNum, attempt ≤ k ∧ k ≤ n ∧
    fetchSeqNum (rpc k) = .ok seqNum ∧
    (buildAndSend codec (rpc k) action defaultSimulationFee seqNum).1 = some envelope
  sent_le : after.submitted.length ≤ before.submitted.length + (n + 1 - attempt)

variable {codec rpc action defaultSimulationFee}

theorem LoopSpec.step {attempt last n : ℕ} {log middle after : Attempts P Auth Data Sig} {result : SubmitResult}
    (h : LoopSpec codec rpc action defaultSimulationFee (attempt + 1) last n middle result after)
    (hretried : Retried codec rpc action defaultSimulationFee attempt)
    (hcount : middle.count = log.count + 1)
    (hslept : middle.slept = log.slept + backoffStepMillis * (attempt + 1))
    (hsent : ∀ envelope ∈ middle.submitted, envelope ∈ log.submitted ∨ ∃ seqNum,
      fetchSeqNum (rpc attempt) = .ok seqNum ∧
      (buildAndSend codec (rpc attempt) action defaultSimulationFee seqNum).1 = some envelope)
    (hlength : middle.submitted.length ≤ log.submitted.length + 1) :
    LoopSpec codec rpc action defaultSimulationFee attempt last n log result after where
  le := Nat.le_of_succ_le h.le
  le_last := h.le_last
  retried k hk hlt := by
    obtain rfl | hk := hk.eq_or_lt
    · exact hretried
    · exact h.retried k hk hlt
  ends := h.ends
  count := by
    have hle := h.le
    rw [h.count, hcount]
    omega
  slept := by
    rw [h.slept, hslept, Finset.sum_eq_sum_Ico_succ_bot (Nat.lt_of_succ_le h.le), add_assoc]
  sent envelope henvelope := by
    obtain hmem | ⟨k, seqNum, hk, hkn, hfetch, hsend⟩ := h.sent envelope henvelope
    · obtain hmem | ⟨seqNum, hfetch, hsend⟩ := hsent envelope hmem
      · exact .inl hmem
      · exact .inr ⟨attempt, seqNum, le_rfl, Nat.le_of_succ_le h.le, hfetch, hsend⟩
    · exact .inr ⟨k, seqNum, Nat.le_of_succ_le hk, hkn, hfetch, hsend⟩
  sent_le := by
    have hle := h.le
    have hafter := h.sent_le
    omega

theorem LoopSpec.last {attempt last : ℕ} {log after : Attempts P Auth Data Sig} {result : SubmitResult}
    (hle : attempt ≤ last) (hends : EndsWith codec rpc action defaultSimulationFee attempt last result)
    (hcount : after.count = log.count + 1) (hslept : after.slept = log.slept)
    (hsent : ∀ envelope ∈ after.submitted, envelope ∈ log.submitted ∨ ∃ seqNum,
      fetchSeqNum (rpc attempt) = .ok seqNum ∧
      (buildAndSend codec (rpc attempt) action defaultSimulationFee seqNum).1 = some envelope)
    (hlength : after.submitted.length ≤ log.submitted.length + 1) :
    LoopSpec codec rpc action defaultSimulationFee attempt last attempt log result after where
  le := le_rfl
  le_last := hle
  retried k hk hlt := absurd hlt (not_lt.mpr hk)
  ends := hends
  count := by omega
  slept := by simp [hslept]
  sent envelope henvelope := (hsent envelope henvelope).imp_right fun ⟨seqNum, hfetch, hsend⟩ =>
    ⟨attempt, seqNum, le_rfl, le_rfl, hfetch, hsend⟩
  sent_le := by omega

theorem mem_submitted {k : ℕ} {seqNum : ℤ} {sent : Except ErrorText String}
    {envelope : Option (Envelope P Auth Data Sig)} {submitted : List (Envelope P Auth Data Sig)}
    (hfetch : fetchSeqNum (rpc k) = .ok seqNum)
    (hsend : buildAndSend codec (rpc k) action defaultSimulationFee seqNum = (envelope, sent)) :
    ∀ e ∈ submitted ++ envelope.toList, e ∈ submitted ∨ ∃ seqNum, fetchSeqNum (rpc k) = .ok seqNum ∧
      (buildAndSend codec (rpc k) action defaultSimulationFee seqNum).1 = some e := by
  intro e he
  refine (List.mem_append.mp he).imp_right fun he => ⟨seqNum, hfetch, ?_⟩
  rw [hsend]
  exact Option.mem_toList.mp he

theorem length_submitted_le (envelope : Option (Envelope P Auth Data Sig))
    (submitted : List (Envelope P Auth Data Sig)) :
    (submitted ++ envelope.toList).length ≤ submitted.length + 1 := by
  cases envelope <;> simp

variable (codec rpc action defaultSimulationFee) in
theorem submitLoop_spec (left attempt : ℕ) (log : Attempts P Auth Data Sig) :
    ∃ n, LoopSpec codec rpc action defaultSimulationFee attempt (attempt + left) n log
      (submitLoop codec rpc action defaultSimulationFee left attempt log).1
      (submitLoop codec rpc action defaultSimulationFee left attempt log).2 := by
  fun_induction submitLoop codec rpc action defaultSimulationFee left attempt log with
  | case1 attempt log e hfetch =>
    exact ⟨attempt, .last le_rfl ⟨rfl, hfetch⟩ rfl rfl (fun _ => .inl) (Nat.le_succ _)⟩
  | case2 attempt log e hfetch middle left ih =>
    obtain ⟨n, ih⟩ := ih
    rw [Nat.succ_add_eq_add_succ] at ih
    exact ⟨n, ih.step (.inl ⟨e, hfetch⟩) rfl rfl (fun _ => .inl) (Nat.le_succ _)⟩
  | case3 left attempt log seqNum hfetch envelope middle hash hsend =>
    exact ⟨attempt, .last (Nat.le_add_right _ _) ⟨seqNum, hfetch, by rw [hsend]⟩ rfl rfl
      (mem_submitted hfetch hsend) (length_submitted_le _ _)⟩
  | case4 left attempt log seqNum hfetch envelope middle e hempty hsend =>
    exact ⟨attempt, .last (Nat.le_add_right _ _) ⟨seqNum, e, hfetch, by rw [hsend], hempty⟩ rfl rfl
      (mem_submitted hfetch hsend) (length_submitted_le _ _)⟩
  | case5 attempt log seqNum hfetch envelope middle e hempty after hsend =>
    exact ⟨attempt, .last le_rfl ⟨rfl, seqNum, hfetch, by rw [hsend], by simpa using hempty⟩ rfl rfl
      (mem_submitted hfetch hsend) (length_submitted_le _ _)⟩
  | case6 attempt log seqNum hfetch envelope middle e hempty after left hsend ih =>
    obtain ⟨n, ih⟩ := ih
    rw [Nat.succ_add_eq_add_succ] at ih
    exact ⟨n, ih.step (.inr ⟨seqNum, e, hfetch, by rw [hsend], by simpa using hempty⟩) rfl rfl
      (mem_submitted hfetch hsend) (length_submitted_le _ _)⟩

end Attempts

/-! ## The whole execution -/

section Execute

variable (codec : Codec P Auth Data Sig) (rpc : ℕ → Rpc P Auth Data Sig) (action : SubmitStellarTx P Auth)
  (defaultSimulationFee : ℕ)

/-- The attempts of `execute`. -/
def attempted : SubmitResult × Attempts P Auth Data Sig :=
  submitLoop codec rpc action defaultSimulationFee (action.maxSubmissionRetries - 1) 1
    { count := 0, submitted := [], badSeqRetries := 0, slept := 0 }

theorem execute_attempts :
    (execute codec rpc action defaultSimulationFee).attempts =
      (attempted codec rpc action defaultSimulationFee).2 := by
  simp only [execute, attempted]
  split <;> simp

/-- A codec that takes the simulator's texts as they are. -/
abbrev plainCodec : Codec String String String Unit where
  sourceKey := zeroKey
  hex := Hex.lowerCase
  sign _ := ()
  transactionDataFromXdr text := .ok text
  authFromXdr text := .ok text

/-- The first attempt finds the sequence number of another transaction, the second is accepted. -/
abbrev racedRpc (k : ℕ) : Rpc String String String Unit where
  account := .ok (if k = 1 then 4 else 7)
  simulateTransactionEnvelope _ :=
    .ok { results := [["AUTH"]], transactionData := "DATA", minResourceFee := 1000, error := none }
  sendTransaction envelope := if envelope.tx.seqNum = 8 then .ok zeroKey else .error "tx_bad_seq".toList

/-- A batch that reserves, in three attempts at most. -/
abbrev batchAction : SubmitStellarTx String String where
  op := .invokeHostFunction "submit_requests_batch" []
  maxSubmissionRetries := 3
  onSettle := true

example : (execute plainCodec racedRpc batchAction 100).attempts.submitted.map
    (fun envelope => (envelope.tx.seqNum, envelope.tx.fee)) = [(5, 1500), (8, 1500)] := by decide +kernel

variable {codec rpc action defaultSimulationFee}

/-- The hash of a success is 32 bytes in hexadecimal. -/
theorem exists_hash {k : ℕ} {seqNum : ℤ} {hash : String}
    (h : (buildAndSend codec (rpc k) action defaultSimulationFee seqNum).2 = .ok hash) :
    ∃ (envelope : Envelope P Auth Data Sig) (bytes : Bytes32),
      assemble codec (rpc k) action defaultSimulationFee seqNum = .ok envelope ∧
      (rpc k).sendTransaction envelope = .ok bytes ∧ hash = codec.hex.encode bytes.1 := by
  unfold buildAndSend at h
  split at h
  · cases h
  · rename_i envelope henvelope
    split at h
    · cases h
    · rename_i bytes hbytes
      exact ⟨envelope, bytes, henvelope, hbytes, (Except.ok.inj h).symm⟩

theorem confirm_hash (hex : Hex) (onSettle : Bool) (polling : Bytes32 → Except ErrorText Unit) (bytes : Bytes32) :
    (confirm hex onSettle polling (hex.encode bytes.1)).outcome ≠ .hashDecodeFailed ∧
      (confirm hex onSettle polling (hex.encode bytes.1)).releases = if onSettle then 1 else 0 := by
  have hdecode := hex.decode_encode bytes.1
  unfold confirm
  simp only [hdecode, dif_pos bytes.2]
  split
  · exact ⟨by simp, rfl⟩
  · refine ⟨?_, rfl⟩
    dsimp only
    split <;> simp

theorem buildAndSend_empty {k : ℕ} {seqNum : ℤ} {response : SimResponse}
    (hsimulated : (rpc k).simulateTransactionEnvelope
      { tx := draftTransaction codec action defaultSimulationFee seqNum, signatures := [] } = .ok response)
    (hempty : response.results = []) :
    buildAndSend codec (rpc k) action defaultSimulationFee seqNum =
      (none, .error (emptySimulationError response.error)) := by
  have hassemble : assemble codec (rpc k) action defaultSimulationFee seqNum =
      .error (emptySimulationError response.error) := by
    simp [assemble, hsimulated, hempty, bind, Except.bind, throw, throwThe, MonadExceptOf.throw]
  rw [buildAndSend, hassemble]

theorem not_retried_of_empty {k : ℕ} {seqNum : ℤ} {response : SimResponse}
    (hfetch : fetchSeqNum (rpc k) = .ok seqNum)
    (hsimulated : (rpc k).simulateTransactionEnvelope
      { tx := draftTransaction codec action defaultSimulationFee seqNum, signatures := [] } = .ok response)
    (hempty : response.results = []) : ¬ Retried codec rpc action defaultSimulationFee k := by
  rintro (⟨e, he⟩ | ⟨seqNum', e, hfetch', hsend, hresults⟩)
  · rw [hfetch] at he
    cases he
  · obtain rfl := Except.ok.inj (hfetch.symm.trans hfetch')
    rw [buildAndSend_empty hsimulated hempty] at hsend
    obtain rfl := Except.error.inj hsend
    rw [isNoSimulationResultsError_emptySimulationError] at hresults
    cases hresults

theorem simEmpty_of_empty {k last : ℕ} {seqNum : ℤ} {response : SimResponse} {result : SubmitResult}
    (hfetch : fetchSeqNum (rpc k) = .ok seqNum)
    (hsimulated : (rpc k).simulateTransactionEnvelope
      { tx := draftTransaction codec action defaultSimulationFee seqNum, signatures := [] } = .ok response)
    (hempty : response.results = [])
    (hends : EndsWith codec rpc action defaultSimulationFee k last result) : result = .simEmpty := by
  cases result with
  | simEmpty => rfl
  | success hash =>
    obtain ⟨seqNum', hfetch', hsend⟩ := hends
    obtain rfl := Except.ok.inj (hfetch.symm.trans hfetch')
    rw [buildAndSend_empty hsimulated hempty] at hsend
    cases hsend
  | seqFetchFailed e => exact absurd (.inl ⟨e, hends.2⟩) (not_retried_of_empty hfetch hsimulated hempty)
  | retryExhausted e =>
    obtain ⟨-, seqNum', hfetch', hsend, hresults⟩ := hends
    exact absurd (.inr ⟨seqNum', e, hfetch', hsend, hresults⟩)
      (not_retried_of_empty hfetch hsimulated hempty)

/-- The releases of an execution and of the poll it starts. -/
def settleReleases (hex : Hex) (run : Executed P Auth Data Sig) (onSettle : Bool)
    (polling : Bytes32 → Except ErrorText Unit) : ℕ :=
  run.releases + match run.polled with
    | some hash => (confirm hex onSettle polling hash).releases
    | none => 0

end Execute

end AlulaKeeper
