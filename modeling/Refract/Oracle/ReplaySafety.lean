import Refract.Oracle.SubmissionVerifier

/-!
# Replay freedom

A nonce is remembered until its submission is too old to be verified. But a request looks at the
age when it verifies and at the nonce when it records, and these are two moments. A signed
submission is written at most once when every request records before the submission expires
(`submissions_recorded_once`); a replay that is verified in time and recorded after the expiry is
written again.
-/

namespace Refract.Oracle

open Lib List SubmissionRow

/-- What identifies a signed submission. -/
def SubmissionRow.signedKey (r : SubmissionRow) : String × String × Int × ℚ :=
  (r.providerId, r.nonce, r.observedAt, r.value)

/-- Before the step: a verified submission is recorded before it expires. -/
def RecordedInTime (s : SubmissionState) : SubmissionLabel → Prop
  | .record request now => ∀ v ∈ s.verified[request]?, now ≤ v.observedAt + submissionMaxAgeMs
  | .verify .. => True

instance (s : SubmissionState) (l : SubmissionLabel) : Decidable (RecordedInTime s l) := by
  unfold RecordedInTime
  split <;> infer_instance

variable {env : SubmissionEnv} {s s' : SubmissionState}

/-- The nonce of a row is taken until the row has expired. -/
def NonceHeld (db : SubmissionDb) (now : ℚ) (r : SubmissionRow) : Prop :=
  r.observedAt + submissionMaxAgeMs < now ∨
    ⟨r.providerId, r.nonce, r.observedAt + submissionMaxAgeMs⟩ ∈ db.nonces

structure ReplayInv (db : SubmissionDb) (now : ℚ) : Prop where
  unique : UniqueKey signedKey db.submissions
  held : ∀ r ∈ db.submissions, NonceHeld db now r

variable {db : SubmissionDb} {now : ℚ} {r : SubmissionRow}

theorem NonceHeld.mono {later : ℚ} (h : NonceHeld db now r) (hle : now ≤ later) :
    NonceHeld db later r :=
  h.imp_left fun hexp => hexp.trans_le hle

/-- Deleting the expired nonces releases those of expired rows only. -/
theorem NonceHeld.delete (h : NonceHeld db now r) {submissions : List SubmissionRow}
    {added : List NonceRow} : NonceHeld ⟨db.unexpired now ++ added, submissions⟩ now r := by
  rcases h with hexp | hmem
  · exact .inl hexp
  rcases lt_or_ge (r.observedAt + submissionMaxAgeMs) now with hexp | hfresh
  · exact .inl hexp
  · refine .inr (mem_append_left _ (mem_filter.2 ⟨hmem, ?_⟩))
    exact decide_eq_true hfresh

/-- A row that is not expired keeps its nonce from being claimed. -/
theorem NonceHeld.claimed (h : NonceHeld db now r)
    (hfresh : now ≤ r.observedAt + submissionMaxAgeMs) :
    (db.unexpired now).any (fun n => n.providerId = r.providerId ∧ n.nonce = r.nonce) = true := by
  rcases h with hexp | hmem
  · exact absurd hfresh (not_le.2 hexp)
  · refine any_eq_true.2 ⟨_, mem_filter.2 ⟨hmem, decide_eq_true hfresh⟩, ?_⟩
    exact decide_eq_true ⟨rfl, rfl⟩

theorem ReplayInv.record {v : VerifiedSubmission} (h : ReplayInv db now)
    (hintime : now ≤ v.observedAt + submissionMaxAgeMs) :
    ReplayInv (recordIfNonceUnused db v now).1 now := by
  rw [recordIfNonceUnused]
  split
  · exact h
  rename_i hfree
  refine ⟨h.unique.insert ?_, ?_⟩
  · -- A row of the same submission would hold the nonce.
    intro r hr hkey
    simp only [signedKey, VerifiedSubmission.row, Prod.mk.injEq] at hkey
    obtain ⟨hprov, hnonce, hobserved, -⟩ := hkey
    rw [← hobserved] at hintime
    have hclaimed := (h.held r hr).claimed hintime
    rw [hprov, hnonce] at hclaimed
    exact hfree hclaimed
  · exact forall_mem_snoc.2
      ⟨fun r hold => (h.held r hold).delete, .inr (mem_append_right _ (mem_singleton.2 rfl))⟩

theorem ReplayInv.later {later : ℚ} (h : ReplayInv db now) (hle : now ≤ later) :
    ReplayInv db later :=
  ⟨h.unique, fun r hr => (h.held r hr).mono hle⟩

theorem ReplayInv.step {l : SubmissionLabel} (h : ReplayInv s.db s.now)
    (hintime : RecordedInTime s l) (hstep : submissionStep env s l = some s') :
    ReplayInv s'.db s'.now := by
  simp only [submissionStep] at hstep
  split at hstep
  · rename_i hclock
    cases l with
    | verify =>
      simp only at hstep
      split at hstep
      all_goals
        cases hstep
        exact h.later hclock
    | record =>
      obtain ⟨v, hv, rfl⟩ := Option.map_eq_some_iff.1 hstep
      exact (h.later hclock).record (hintime v hv)
  · cases hstep

/-- No signed submission is written twice, in every interleaving of requests that record before
the submission expires. -/
theorem submissions_recorded_once (env : SubmissionEnv) (now : ℚ) (s : SubmissionState)
    (hrun : RunWhere (SubmissionSteps env) RecordedInTime (.start now) s) :
    UniqueKey signedKey s.db.submissions := by
  have hinv : ReplayInv s.db s.now := by
    refine hrun.invariant (fun s => ReplayInv s.db s.now) ?_ ?_
    · exact ⟨nodup_nil, fun _ hr => absurd hr not_mem_nil⟩
    · exact fun _ _ _ ha => ha.step
  exact hinv.unique

/-! ### One provider -/

/-- A reading of the delay of a flight, observed at noon. -/
def delayBody : Json :=
  .object [("provider_id", .string "acme"), ("coverage_type", .string "FlightDelay"),
    ("value", .string "42.5"), ("unit", .string "minutes"),
    ("observed_at", .string "2026-10-19T12:00:00Z"), ("nonce", .string "AAAAAAAAAAAAAAAA"),
    ("signature", .string "c2ln")]

/-- The time of `delayBody`. -/
def delayTime : Int := 1792411200000

/-- A provider of flight delays whose signature `c2ln` verifies. -/
def acmeEnv : SubmissionEnv where
  providers := OrdMap.empty.set "acme" ⟨"acme", "key", [.flightDelay]⟩
  issues _ := "body Invalid input"
  verifies _ _ signature := decide (signature = "c2ln")
  dateParse text := if text = "2026-10-19T12:00:00Z" then some delayTime else none

/-- The submission and its replay are verified, and recorded in time: the replay is refused. -/
theorem submissions_recorded_once_replay :
    ∃ s, RunWhere (SubmissionSteps acmeEnv) RecordedInTime (.start delayTime) s ∧
      s.verified = [] ∧ s.db.submissions.length = 1 ∧
      UniqueKey signedKey s.db.submissions :=
  ⟨_, .performed
    [.verify delayBody (delayTime + 10), .verify delayBody (delayTime + 20),
     .record 0 (delayTime + 30), .record 0 (delayTime + 300000)] (by decide +kernel),
    by decide +kernel, by decide +kernel,
    submissions_recorded_once acmeEnv _ _ (.performed _ _)⟩

/-- The replay is recorded one millisecond after the expiry: the submission is written twice. -/
theorem submission_recorded_twice :
    ∃ s, RunWhere (SubmissionSteps acmeEnv) (fun _ _ => True) (.start delayTime) s ∧
      ¬UniqueKey signedKey s.db.submissions :=
  ⟨_, .performed
    [.verify delayBody (delayTime + 10), .verify delayBody (delayTime + 20),
     .record 0 (delayTime + 30), .record 0 (delayTime + 300001)] (by decide +kernel),
    by decide +kernel⟩

end Refract.Oracle
