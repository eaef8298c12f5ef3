import Refract.Lib.Ecma
import Refract.Lib.Runs
import Refract.Stellar.SorobanConfirmation

/-!
# Submitting signed transactions

`TxService.submit` sends a transaction that its caller has signed, polls for it and, once it has
succeeded, activates the policy it has bought. The ledger's view of the transaction (`TxFate`) is
kept beside the call. A node accepts the envelope when it is sent, or because somebody else has
submitted it too; what is accepted may land, and what has landed is final. The node answers
truthfully, but it may throw at any point, also after it has accepted the envelope.

`failed_on_chain` is to mean that the transaction has definitely failed. It does
(`failed_never_succeeds`) if the send is refused or throws only while the envelope is not accepted,
if nobody submits it after the call, and if the activation does not throw: any exception and any
refusal becomes `failed_on_chain`.
-/

namespace Refract.Tx

open Lib Refract.Stellar

/-! ## The call -/

/-- The configured confirmation defaults that are read, and which texts are transactions. -/
structure TxEnv where
  initialIntervalMs : ℚ
  backoffMultiplier : ℚ
  maxIntervalMs : ℚ
  jitterRatio : ℚ
  httpDeadlineMs : ℚ
  isTransaction : String → Bool

def TxEnv.pollOptions (env : TxEnv) : PollOptions :=
  { defaultConfirmationPoll with
    initialIntervalMs := env.initialIntervalMs
    backoffMultiplier := env.backoffMultiplier
    maxIntervalMs := env.maxIntervalMs
    jitterRatio := env.jitterRatio
    deadlineMs := env.httpDeadlineMs }

structure SubmitResult where
  confirmation : ConfirmationResult
  onChainPolicyId : Option String
  deriving DecidableEq, Repr

/-- The call has not begun, awaits `sendTransaction` or the poll, or has ended. -/
inductive TxStage where
  | idle
  | sending
  | polling (poll : Poll)
  | ended (result : Except String SubmitResult)
  deriving DecidableEq

/-- What the handler returns for an exception. -/
def caught (message : String) : SubmitResult :=
  ⟨⟨false, .failedOnChain, "", some message, none⟩, none⟩

def submit (env : TxEnv) (signedXdr : String) : TxStage :=
  if env.isTransaction signedXdr then .sending else .ended (.error "Malformed transaction XDR")

/-- The poll goes on or has ended; `activation` is the answer of `activateFromBuyConfirmation`. -/
def confirmed (activation : Except String (Option String)) : PollProgress → TxStage
  | .waits poll => .polling poll
  | .ends result =>
    if result.outcome = .success then
      match activation with
      | .ok policyId => .ended (.ok ⟨result, policyId.filter (· ≠ "")⟩)
      | .error message => .ended (.ok (caught message))
    else .ended (.ok ⟨result, none⟩)

def sent (env : TxEnv) (reply : Except String SendReply) (now : ℚ) : TxStage :=
  match reply with
  | .error message => .ended (.ok (caught message))
  | .ok reply =>
    match reply.status with
    | .error | .tryAgainLater => .ended (.ok ⟨⟨false, .failedOnChain, reply.hash,
        some ("Submission not accepted: " ++ reply.status.text), none⟩, none⟩)
    | .pending | .duplicate => .polling (Poll.start env.pollOptions reply.hash now)

/-! ## The call and the ledger -/

structure TxState where
  fate : TxFate
  stage : TxStage

inductive TxLabel where
  | submit (signedXdr : String)
  /-- A node accepts the envelope, from this call or from elsewhere. -/
  | accept
  | land (succeeds : Bool)
  | sent (reply : Except String SendReply) (now : ℚ)
  | probed (reply : Except String GetReply) (now random : ℚ)
      (activation : Except String (Option String))
  | slept

def txStep (env : TxEnv) (s : TxState) (l : TxLabel) : Option TxState :=
  match l, s.stage with
  | .submit signedXdr, .idle => some { s with stage := submit env signedXdr }
  | .accept, _ => if s.fate = .unknown then some { s with fate := .accepted } else none
  | .land succeeds, _ =>
    if s.fate = .accepted then some { s with fate := if succeeds then .succeeded else .failed }
    else none
  | .sent reply now, .sending =>
    if SendTruthful s.fate reply then some { s with stage := sent env reply now }
    else none
  | .probed reply now random activation, .polling poll =>
    if poll.sleepMs = none ∧ GetTruthful s.fate reply then
      some { s with
        stage := confirmed activation (poll.answered env.pollOptions reply now random) }
    else none
  | .slept, .polling poll =>
    if poll.sleepMs = none then none
    else some { s with stage := .polling (poll.wake env.pollOptions) }
  | _, _ => none

/-- The call goes on, or the ledger does. -/
abbrev TxSteps (env : TxEnv) (s : TxState) (l : TxLabel) (s' : TxState) : Prop :=
  txStep env s l = some s'

/-! ## Definite failure -/

/-- The call has returned. -/
def TxStage.isEnded : TxStage → Bool
  | .ended _ => true
  | .idle | .sending | .polling _ => false

/-- Before the step: a send is refused or throws only if the envelope is neither accepted nor has
succeeded, nobody has it accepted after the call has returned, and the activation does not throw. -/
def Definite (s : TxState) : TxLabel → Prop
  | .sent reply _ => IsRefusal reply → s.fate.isOpen = false
  | .accept => s.stage.isEnded = false
  | .probed _ _ _ activation => activation.isOk = true
  | .submit _ | .land _ | .slept => True

instance (s : TxState) (l : TxLabel) : Decidable (Definite s l) := by
  unfold Definite
  split <;> infer_instance

/-- A call that has returned `failed_on_chain` is about a transaction that is not open. -/
def FailedClosed (s : TxState) : Prop :=
  ∀ result, s.stage = .ended (.ok result) → result.confirmation.outcome = .failedOnChain →
    s.fate.isOpen = false

variable {env : TxEnv} {s s' : TxState}

/-- A poll that ends without an activation that throws has failed only if the node says so. -/
theorem failed_of_confirmed {poll : Poll} {reply : Except String GetReply} {now random : ℚ}
    {activation : Except String (Option String)} {result : SubmitResult}
    (hactivation : activation.isOk = true)
    (h : confirmed activation (poll.answered env.pollOptions reply now random) =
      .ended (.ok result))
    (hfailed : result.confirmation.outcome = .failedOnChain) : reply = .ok .failed := by
  cases hprog : poll.answered env.pollOptions reply now random with
  | waits =>
    rw [hprog] at h
    cases h
  | ends =>
    rw [hprog] at h
    simp only [confirmed] at h
    obtain ⟨policyId, rfl⟩ := exists_of_isOk hactivation
    split at h
    · -- A success is returned as it is.
      rename_i hsucc
      cases h
      rw [hsucc] at hfailed
      cases hfailed
    · cases h
      rcases Poll.outcome_of_answered hprog with
        ⟨-, hsucc, -⟩ | ⟨-, -, hreply⟩ | ⟨-, htimeout, -⟩
      · rw [hsucc] at hfailed
        cases hfailed
      · exact hreply
      · rw [htimeout] at hfailed
        cases hfailed

/-- The call has ended with the send only if that was refused or has thrown. -/
theorem isRefusal_of_sent {reply : Except String SendReply} {now : ℚ}
    {result : Except String SubmitResult} (h : sent env reply now = .ended result) :
    IsRefusal reply := by
  cases reply with
  | error => trivial
  | ok reply =>
    obtain ⟨status, hash, detail⟩ := reply
    cases status with
    | error | tryAgainLater => rfl
    | pending | duplicate => cases h

theorem FailedClosed.step {l : TxLabel} (h : FailedClosed s) (hdefinite : Definite s l)
    (hstep : txStep env s l = some s') : FailedClosed s' := by
  intro result hend hfailed
  simp only [txStep] at hstep
  split at hstep
  · cases hstep
    simp only [submit] at hend
    split at hend <;> cases hend
  · split at hstep
    · cases hstep
      have hopen : s.stage.isEnded = false := hdefinite
      rw [show s.stage = .ended (.ok result) from hend] at hopen
      cases hopen
    · cases hstep
  · split at hstep
    · -- What is accepted is open, so the call has not returned a failure.
      rename_i hacc
      cases hstep
      have hclosed := h result hend hfailed
      rw [hacc] at hclosed
      cases hclosed
    · cases hstep
  · split at hstep
    · cases hstep
      exact hdefinite (isRefusal_of_sent hend)
    · cases hstep
  · obtain ⟨htruthful, ⟨⟩⟩ := Option.ite_none_right_eq_some.1 hstep
    have hreply := failed_of_confirmed hdefinite hend hfailed
    have hfate := htruthful.2
    rw [hreply] at hfate
    have hfin : s.fate = .failed := hfate
    rw [hfin]
    rfl
  · split at hstep
    · cases hstep
    · cases hstep
      cases hend
  · cases hstep

/-- If `submit` returns `failed_on_chain`, the transaction has not succeeded, then and in every
later state, in all runs whose steps are definite. -/
theorem failed_never_succeeds (env : TxEnv) (fate : TxFate) (s : TxState)
    (hrun : RunWhere (TxSteps env) Definite ⟨fate, .idle⟩ s) (result : SubmitResult)
    (hend : s.stage = .ended (.ok result))
    (hfailed : result.confirmation.outcome = .failedOnChain) : s.fate ≠ .succeeded := by
  have hinv : FailedClosed s := by
    refine hrun.invariant FailedClosed ?_ fun _ _ _ ha => ha.step
    rintro _ ⟨⟩
  intro hsucceeded
  have hclosed := hinv result hend hfailed
  rw [hsucceeded] at hclosed
  cases hclosed

/-! ### Two transactions -/

/-- The configured defaults. -/
def defaultTx : TxEnv := ⟨10, 3 / 2, 50, 0, 100, fun text => text = "AAAAAgAA"⟩

/-- A transaction that the node finds failed. -/
theorem failed_never_succeeds_found :
    ∃ s result, RunWhere (TxSteps defaultTx) Definite ⟨.unknown, .idle⟩ s ∧
      s.stage = .ended (.ok result) ∧ result.confirmation.outcome = .failedOnChain ∧
      s.fate ≠ .succeeded := by
  simp only [exists_and_left]
  refine RunWhere.exists_reached
    [.submit "AAAAAgAA", .accept, .sent (.ok ⟨.pending, "a1", ""⟩) 1000,
     .probed (.ok .notFound) 1005 0 (.ok none), .slept, .land false,
     .probed (.ok .failed) 1020 0 (.ok none)]
    (fun s => s.stage = .ended (.ok ⟨⟨false, .failedOnChain, "a1",
      some "Transaction failed on-chain", none⟩, none⟩)) (by decide +kernel) fun s hrun hstage => ?_
  exact ⟨_, hstage, rfl, failed_never_succeeds defaultTx .unknown s hrun _ hstage rfl⟩

/-- The node accepts the envelope and the reply is lost: `failed_on_chain`, and then the transaction
succeeds. -/
theorem failed_then_succeeds :
    ∃ s result, RunWhere (TxSteps defaultTx) (fun _ _ => True) ⟨.unknown, .idle⟩ s ∧
      s.stage = .ended (.ok result) ∧ result.confirmation.outcome = .failedOnChain ∧
      s.fate = .succeeded :=
  ⟨_, caught "socket hang up", .performed
    [.submit "AAAAAgAA", .accept, .sent (.error "socket hang up") 1000, .land true]
    (by decide +kernel), by decide +kernel, rfl, by decide +kernel⟩

end Refract.Tx
