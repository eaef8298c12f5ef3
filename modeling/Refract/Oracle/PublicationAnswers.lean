import Refract.Oracle.OraclePublisher

/-!
# How a publication goes on and ends

A publication stays about the same value, and its transaction is on the way once it awaits the send
(`Publication.Continues`). It ends as confirmed only if the node has found the transaction. If it
ends unconfirmed after the send and the answer was in time (`InTime`), then the node has found the
transaction failed (`Publication.answer_meets`).
-/

namespace Refract.Oracle

open Lib Refract.Stellar

/-! ## Answers in time -/

/-- The deadline of the poll that a publication awaits. -/
def Publication.pollDeadline (p : Publication) : Option ℚ :=
  match p.stage with
  | .confirm poll => some poll.deadlineAt
  | .account | .prepare | .send => none

/-- The answer does not make a publication give up: the send is not refused, the transaction is
found before the deadline of the feed, or asked for again before that of the poll. -/
def InTime (config : OraclePublisherConfig) (p : Publication) (clock : Clock) :
    PublicationAnswer → Prop
  | .sent reply => ¬IsRefusal reply ∧ 0 < config.settlementDeadlineMs ∧
      ∀ deadline ∈ p.deadlineAt, clock 0 < deadline ∧ clock 1 < deadline
  | .probed (.ok (.success _)) _ => ∀ deadline ∈ p.deadlineAt, clock 1 < deadline
  | .probed _ _ => ∀ deadline ∈ p.pollDeadline, clock 0 < deadline
  | .deadline => False
  | .account _ | .prepared _ | .slept => True

instance (config : OraclePublisherConfig) (p : Publication) (clock : Clock)
    (answer : PublicationAnswer) : Decidable (InTime config p clock answer) := by
  rcases answer with _ | _ | _ | ⟨_ | (_ | _ | _), _⟩ | _ | _ <;> dsimp only [InTime] <;>
    infer_instance

/-! ## Going on and ending -/

/-- What holds of a publication that goes on, or of the record of one that ends. -/
def PublicationProgress.Meets (goesOn : Publication → Prop) (stops : OraclePublishRecord → Prop) :
    PublicationProgress → Prop
  | .waits p => goesOn p
  | .ends record => stops record

theorem PublicationProgress.Meets.mono {progress : PublicationProgress}
    {goesOn : Publication → Prop} {stops stops' : OraclePublishRecord → Prop}
    (h : progress.Meets goesOn stops)
    (hstops : ∀ record, stops record → stops' record) : progress.Meets goesOn stops' := by
  cases progress with
  | waits => exact h
  | ends record => exact hstops record h

namespace Publication

variable {config : OraclePublisherConfig} {p p' : Publication} {clock : Clock}

/-- The transaction has been handed to a node. -/
def isSent (p : Publication) : Bool :=
  match p.stage with
  | .account | .prepare => false
  | .send | .confirm _ => true

/-- What a publication is about. -/
def subject (p : Publication) : String × Int := (p.coverageType, p.scaled)

theorem subject_eq_iff : p.subject = p'.subject ↔
    p.coverageType = p'.coverageType ∧ p.scaled = p'.scaled :=
  Prod.ext_iff

/-- A publication goes on as another one: that is about the same value, and a send follows a
preparation. -/
structure Continues (p p' : Publication) : Prop where
  subject : p'.subject = p.subject
  stage : (p.isSent = false ∧ p'.stage = .send) ∨ (p'.stage ≠ .send ∧ p'.isSent = p.isSent)

variable {goesOn : Publication → Prop} {stops : OraclePublishRecord → Prop} {what : String}
  {now : ℚ} {stage : PublicationStage}

theorem within_meets (hnext : goesOn { p with stage })
    (hlate : ∀ record, record.confirmed = false → ∀ deadline ∈ p.deadlineAt, deadline ≤ now →
      stops record) : (p.within what now stage).Meets goesOn stops := by
  simp only [within]
  split
  · rename_i hpass
    obtain ⟨deadline, hdl, hleft⟩ := (Option.any_eq_true _ _).1 hpass
    exact hlate _ rfl deadline hdl (sub_nonpos.1 (of_decide_eq_true hleft))
  · exact hnext

theorem begin_meets (hstage : p.stage = .account) :
    (p.begin clock).Meets (· = p) (·.confirmed = false) := by
  simp only [begin]
  split
  · rfl
  · exact within_meets (by rw [← hstage]) fun _ hrcd _ _ _ => hrcd

variable {reply : Except String Unit}

theorem accountAnswered_meets (hstage : p.stage = .account) :
    (p.accountAnswered reply clock).Meets p.Continues (·.confirmed = false) := by
  cases reply with
  | error => rfl
  | ok =>
    simp only [accountAnswered]
    split
    · rfl
    split
    · rfl
    · refine within_meets ⟨rfl, .inr ⟨nofun, ?_⟩⟩ fun _ hrcd _ _ _ => hrcd
      simp [isSent, hstage]

theorem prepareAnswered_meets (hstage : p.stage = .prepare) :
    (p.prepareAnswered reply clock).Meets p.Continues (·.confirmed = false) := by
  cases reply with
  | error => rfl
  | ok =>
    simp only [prepareAnswered]
    split
    · rfl
    · refine within_meets ⟨rfl, .inl ⟨?_, rfl⟩⟩ fun _ hrcd _ _ _ => hrcd
      simp [isSent, hstage]

variable {poll : Poll}

theorem continues_confirm (hsent : p.isSent = true) :
    p.Continues { p with stage := .confirm poll } :=
  ⟨rfl, .inr ⟨nofun, hsent.symm⟩⟩

/-- A publication ends with the send only if that is refused or too late. -/
theorem sendAnswered_meets {reply : Except String SendReply} (hstage : p.stage = .send) :
    (p.sendAnswered config reply clock).Meets p.Continues fun record =>
      record.confirmed = false ∧ ¬InTime config p clock (.sent reply) := by
  cases reply with
  | error => exact ⟨rfl, fun hin => hin.1 trivial⟩
  | ok =>
    simp only [sendAnswered]
    split
    iterate 2
      rename_i hstat
      exact ⟨rfl, fun hin => hin.1 (by simp [IsRefusal, hstat, SendStatus.accepts])⟩
    all_goals
      split
      · -- No time is left for the confirmation.
        rename_i hbudget
        refine ⟨rfl, fun hin => ?_⟩
        obtain ⟨-, hpos, hbef⟩ := hin
        cases hdl : p.deadlineAt with
        | none =>
          rw [hdl] at hbudget
          exact absurd hbudget (not_le.2 hpos)
        | some deadline =>
          rw [hdl] at hbudget
          refine absurd hbudget (not_le.2 (lt_min hpos (sub_pos.2 ?_)))
          exact (hbef deadline hdl).1
      · refine within_meets (continues_confirm (by simp [isSent, hstage])) ?_
        intro record hrcd deadline hdl hlate
        exact ⟨hrcd, fun hin => absurd hlate (not_le.2 (hin.2.2 deadline hdl).2)⟩

/-- A poll ends a publication as confirmed only if the transaction is found, and as unconfirmed only
if it has failed or it is too late. -/
theorem probeAnswered_meets {reply : Except String GetReply} {random : ℚ}
    (hstage : p.stage = .confirm poll) :
    (p.probeAnswered config poll reply random clock).Meets p.Continues fun record =>
      (record.confirmed = true ∧ ∃ value, reply = .ok (.success value)) ∨
      (record.confirmed = false ∧
        (InTime config p clock (.probed reply random) → reply = .ok .failed)) := by
  simp only [probeAnswered]
  split
  · exact continues_confirm (by simp [isSent, hstage])
  rename_i result hresult
  simp only [PublicationProgress.Meets, confirmation]
  rcases Poll.outcome_of_answered hresult with
    ⟨hconf, -, value, rfl⟩ | ⟨hconf, -, rfl⟩ | ⟨hconf, -, hlate, hreply⟩
  · split
    · -- It is found, but after the deadline of the feed.
      rename_i hexp
      refine .inr ⟨rfl, fun hin => ?_⟩
      obtain ⟨deadline, hdl, hpass⟩ := (Option.any_eq_true _ _).1 hexp
      have hnow := sub_nonneg.1 (of_decide_eq_true hpass)
      exact absurd hnow (not_le.2 (hin deadline hdl))
    · exact .inl ⟨hconf, value, rfl⟩
  · refine .inr ⟨?_, fun _ => rfl⟩
    split
    · rfl
    · exact hconf
  · refine .inr ⟨?_, fun hin => ?_⟩
    · split
      · rfl
      · exact hconf
    · have hpoll : poll.deadlineAt ∈ p.pollDeadline := by
        simp [pollDeadline, hstage]
      rcases hreply with rfl | ⟨message, rfl⟩ <;>
        exact absurd hlate (not_le.2 (hin poll.deadlineAt hpoll))

variable {answer : PublicationAnswer} {progress : PublicationProgress}

/-- A publication that ends has found its transaction, or it is unconfirmed. In the latter case a
transaction that was sent has been found failed, if the answer was in time. -/
theorem answer_meets (h : p.answer config answer clock = some progress) :
    progress.Meets p.Continues fun record =>
      (record.confirmed = true ∧ p.isSent = true ∧
        ∃ value random, answer = .probed (.ok (.success value)) random) ∨
      (record.confirmed = false ∧ (p.isSent = true → InTime config p clock answer →
        ∃ random, answer = .probed (.ok .failed) random)) := by
  simp only [Publication.answer] at h
  split at h
  · rename_i reply hstage
    cases h
    refine (accountAnswered_meets hstage).mono fun _ hrcd => .inr ⟨hrcd, ?_⟩
    simp [isSent, hstage]
  · rename_i reply hstage
    cases h
    refine (prepareAnswered_meets hstage).mono fun _ hrcd => .inr ⟨hrcd, ?_⟩
    simp [isSent, hstage]
  · rename_i reply hstage
    cases h
    refine (sendAnswered_meets hstage).mono fun _ hrcd => .inr ⟨hrcd.1, fun _ hin => ?_⟩
    exact absurd hin hrcd.2
  · rename_i poll reply random hstage
    split at h
    · cases h
      refine (probeAnswered_meets hstage).mono fun _ hrcd => ?_
      rcases hrcd with ⟨hconf, value, rfl⟩ | ⟨hconf, hreply⟩
      · exact .inl ⟨hconf, by simp [isSent, hstage], value, random, rfl⟩
      · refine .inr ⟨hconf, fun _ hin => ⟨random, ?_⟩⟩
        rw [hreply hin]
    · cases h
  · rename_i hstage
    split at h
    · cases h
    · cases h
      exact continues_confirm (by simp [isSent, hstage])
  · -- The timer of the deadline is never in time.
    split at h
    · cases h
      refine .inr ⟨?_, fun _ hin => hin.elim⟩
      simp only [timedOut]
      split <;> rfl
    · cases h
  · cases h

end Publication

end Refract.Oracle
