import Refract.Consensus.HoldEvents

/-!
# What the operations on holds append

For each operation of the hold service, one theorem says what it appends to the ledger: if every
event that it may append satisfies `Q` when it is appended, then the ledger grows by events that
satisfy `Q`. Audit events are taken to satisfy `Q` always (`haudit`), so each theorem is left with
the decision and the hold events of its operation and the guards they stand behind.
-/

namespace Refract.Consensus

open Lib List

/-! ## Lookups -/

variable {events : List EvidenceEvent} {hold : ClaimHold}

theorem mem_listHolds {status : Option HoldStatus} : hold ∈ listHolds events status ↔
      (∃ k, (foldHolds events).get? k = some hold) ∧
        (status = none ∨ status = some hold.status) := by
  unfold listHolds
  rw [mem_sortBy, mem_filter, OrdMap.mem_values_iff, decide_eq_true_eq]

variable {policyId : String}

theorem activeHoldFor_some (h : activeHoldFor events policyId = some hold) :
    (∃ k, (foldHolds events).get? k = some hold) ∧ hold.policyId = policyId ∧
      hold.status.isTerminal = false := by
  have hmem := mem_of_getLast? h
  rw [mem_filter, mem_listHolds] at hmem
  simpa [and_assoc] using hmem

variable {k : String}

/-- A search of the holds that finds none has passed every hold. -/
theorem not_of_getLast? {p : ClaimHold → Bool}
    (h : ((listHolds events none).filter p).getLast? = none)
    (hget : (foldHolds events).get? k = some hold) : ¬p hold = true :=
  filter_eq_nil_iff.1 (getLast?_eq_none_iff.1 h) hold (mem_listHolds.2 ⟨⟨k, hget⟩, .inl rfl⟩)

theorem activeHoldFor_none (h : activeHoldFor events policyId = none)
    (hget : (foldHolds events).get? k = some hold) (hpol : hold.policyId = policyId) :
    hold.status.isTerminal = true := by
  simpa [hpol] using not_of_getLast? h hget

theorem deniedHoldFor_none (h : deniedHoldFor events policyId = none)
    (hget : (foldHolds events).get? k = some hold) (hpol : hold.policyId = policyId) :
    hold.status ≠ .denied := by
  simpa [hpol] using not_of_getLast? h hget

/-- A policy without an open and without a denied hold has settled holds only. -/
theorem settled_of_free (hact : activeHoldFor events policyId = none)
    (hdenied : deniedHoldFor events policyId = none) (hget : (foldHolds events).get? k = some hold)
    (hpol : hold.policyId = policyId) : hold.status = .settled := by
  have hterm := activeHoldFor_none hact hget hpol
  have hne := deniedHoldFor_none hdenied hget hpol
  cases hs : hold.status with
  | settled => rfl
  | denied => exact absurd hs hne
  | payoutHeld | released | escalated | approved =>
    rw [hs] at hterm
    cases hterm

/-! ## Appending -/

variable {env : HoldEnv} {s : EvidenceState}

/-- The ledger after a decision with a new id. -/
theorem isRecorded_appendEvent {a : DecideAnswer}
    (hnew : decisionById s.events a.decision.decisionId = none) :
    IsRecorded (s.appendEvent env ⟨.decision a.decision, a.recordedAt⟩).events a.decision :=
  ⟨_, decisionById_append_self hnew _ _, rfl⟩

/-- An event about no hold leaves the holds as they are. -/
theorem foldHolds_appendEvent (s : EvidenceState) {event : NewEvidenceEvent}
    (hnone : event.body.holdId? = none) :
    foldHolds (s.appendEvent env event).events = foldHolds s.events :=
  (foldHolds_append _ _).trans (foldStep_of_holdId? hnone _)

/-- An assessment reads the clock and changes nothing else. -/
theorem assess_eq (s : EvidenceState) (d : DecisionEvent) :
    assess env s d = (s.tick, (assess env s d).2) := rfl

section Operations

variable {Q : List EvidenceEvent → EventBody → Prop}

theorem appends_event (s : EvidenceState) (event : NewEvidenceEvent)
    (h : Q s.events event.body) : Appends Q s.events (s.appendEvent env event).events :=
  .single ⟨stamp s.ledger.log (env.clock s.ticks) event, rfl, h⟩

variable (haudit : ∀ events e, Q events (.audit e))

include haudit

/-- A hold event and the audit event that goes with it. -/
theorem appends_audited (s : EvidenceState) {body : EventBody} (action actor reason : String)
    (h : Q s.events body) :
    Appends Q s.events ((s.append env body).audit env action actor reason).events :=
  (appends_event s ⟨body, none⟩ h).trans (appends_event _ _ (haudit _ _))

/-! ### The gate -/

omit haudit in
/-- The circumstances in which the gate places a hold. -/
structure PlacedBy (env : HoldEnv) (s : EvidenceState) (candidate : HoldCandidate)
    (decision : DecisionEvent) (p : HoldPlacedEvent) : Prop where
  active : activeHoldFor s.events candidate.policyId = none
  denied : deniedHoldFor s.events candidate.policyId = none
  outcome : decision.outcome = .decision
  triggered : decision.triggered = true
  holdId : p.holdId = holdIdFor env.sha candidate.policyId decision.decisionId
  policyId : p.policyId = candidate.policyId
  decisionId : p.decisionId = decision.decisionId

theorem gateDecision_appends (s : EvidenceState) (candidate : HoldCandidate)
    (decision : DecisionEvent)
    (hplaced : ∀ p : HoldPlacedEvent, decision.outcome = .decision → decision.triggered = true →
      p.holdId = holdIdFor env.sha candidate.policyId decision.decisionId →
      p.policyId = candidate.policyId → p.decisionId = decision.decisionId →
        Q s.events (.holdPlaced p)) :
    Appends Q s.events (gateDecision env s candidate decision).1.events := by
  unfold gateDecision
  split
  · exact .refl
  rename_i hout
  split
  · exact .refl
  rename_i htrig
  have hplace : ∀ gaps, Appends Q s.events (place env s.tick candidate decision gaps).events := by
    intro gaps
    exact appends_audited haudit s.tick.tick _ _ _
      (hplaced _ (not_not.1 hout) (eq_true_of_ne_false htrig) rfl rfl rfl)
  rw [assess_eq]
  rcases (assess env s decision).2 with _ | (_ | _)
  · exact .refl
  · exact .refl
  · dsimp only
    split <;> exact hplace _

/-- The gate appends the decision it asks for, and places a hold if the policy has neither an open
nor a denied one. -/
theorem gate_appends {candidate : HoldCandidate} {governed : Bool}
    {answer : Except JsError DecideAnswer}
    (hdec : ∀ a, answer = .ok a → Q s.events (.decision a.decision))
    (hplaced : ∀ a p, answer = .ok a → PlacedBy env s candidate a.decision p →
      Q (s.appendEvent env ⟨.decision a.decision, a.recordedAt⟩).events (.holdPlaced p)) :
    Appends Q s.events (gate env s candidate governed answer).1.events := by
  unfold gate
  split
  · split <;> exact .refl
  rename_i hact
  split
  · exact .refl
  rename_i hdenied
  split
  · exact .refl
  cases answer with
  | error => exact .refl
  | ok a =>
    refine Relation.ReflTransGen.trans
      (appends_event s ⟨.decision a.decision, a.recordedAt⟩ (hdec a rfl))
      (gateDecision_appends haudit _ candidate a.decision ?_)
    intro p hout htrig hholdId hpolicyId hdecisionId
    exact hplaced a p rfl
      ⟨hact, hdenied, hout, htrig, hholdId, hpolicyId, hdecisionId⟩

/-! ### Re-evaluation -/

omit haudit in
/-- The events a re-evaluation may append about a hold. -/
inductive LooksAt (holdId : String) : EventBody → Prop
  | reevaluated (decisionId : String) (gaps : List EvidenceGap) :
      LooksAt holdId (.holdReevaluated ⟨holdId, decisionId, gaps⟩)
  | released (decisionId reason : String) :
      LooksAt holdId (.holdReleased ⟨holdId, decisionId, reason⟩)
  | escalated (escalation : HoldEscalationReason) (reason : String) :
      LooksAt holdId (.holdEscalated ⟨holdId, escalation, reason⟩)

theorem tryCandidates_appends (hold : ClaimHold) (decisions : List DecisionEvent)
    (s : EvidenceState) (best : Option (List EvidenceGap × String))
    (hlook : ∀ body, LooksAt hold.holdId body → Q s.events body) :
    Appends Q s.events (tryCandidates env hold s decisions best).1.events := by
  induction decisions generalizing s best with
  | nil =>
    unfold tryCandidates keepHeld
    dsimp only
    split
    · exact .refl
    · exact appends_event s _ (hlook _ (.reevaluated _ _))
  | cons _ _ ih =>
    rw [tryCandidates, assess_eq]
    rcases (assess env s _).2 with _ | (_ | _)
    · exact .refl
    · exact appends_audited haudit s.tick _ _ _ (hlook _ (.released _ _))
    · exact ih s.tick _ hlook

theorem reevaluateFresh_appends (s : EvidenceState) (hold : ClaimHold) (fresh : DecisionEvent)
    (hlook : ∀ body, LooksAt hold.holdId body → Q s.events body) :
    Appends Q s.events (reevaluateFresh env s hold fresh).1.events := by
  unfold reevaluateFresh
  split
  · exact appends_audited haudit s _ _ _ (hlook _ (.escalated _ _))
  · exact tryCandidates_appends haudit hold _ s none hlook

/-- Re-evaluating a hold appends the decision it asks for and then one event about the hold at
most. -/
theorem reevaluate_appends
    {freshByFeed : OrdMap String DecisionEvent} {answer : Except JsError DecideAnswer}
    (hdec : ∀ a, answer = .ok a → Q s.events (.decision a.decision))
    (hlook : ∀ events body, foldHolds events = foldHolds s.events → LooksAt hold.holdId body →
      Q events body) : Appends Q s.events (reevaluate env s hold freshByFeed answer).1.events := by
  unfold reevaluate
  dsimp only
  split
  · exact appends_audited haudit s.tick _ _ _ (hlook _ _ rfl (.escalated _ _))
  split
  · exact appends_audited haudit s.tick _ _ _ (hlook _ _ rfl (.escalated _ _))
  split
  · exact reevaluateFresh_appends haudit s.tick hold _ (hlook _ · rfl)
  cases answer with
  | error => exact .refl
  | ok a =>
    refine Relation.ReflTransGen.trans
      (appends_event s.tick ⟨.decision a.decision, a.recordedAt⟩ (hdec a rfl))
      (reevaluateFresh_appends haudit _ hold a.decision ?_)
    intro body hbody
    exact hlook _ body (foldHolds_appendEvent s.tick rfl) hbody

omit haudit in
/-- The decisions `reevaluateAll` remembers are recorded. -/
theorem reevaluate_fresh (s : EvidenceState) (hold : ClaimHold)
    (freshByFeed : OrdMap String DecisionEvent) (answer : Except JsError DecideAnswer)
    (hnew : ∀ a, answer = .ok a → decisionById s.events a.decision.decisionId = none) :
    ∀ feedId d, (reevaluate env s hold freshByFeed answer).2.1.get? feedId = some d →
      freshByFeed.get? feedId = some d ∨
        IsRecorded (reevaluate env s hold freshByFeed answer).1.events d := by
  intro feedId d
  unfold reevaluate
  dsimp only
  split
  · exact .inl
  split
  · exact .inl
  split
  · exact .inl
  cases answer with
  | error => exact .inl
  | ok a =>
    intro hget
    rcases OrdMap.get?_set_eq_some_iff.1 hget with ⟨-, rfl⟩ | ⟨-, hold'⟩
    · exact .inr ((isRecorded_appendEvent (s := s.tick) (hnew a rfl)).extend
        (reevaluateFresh_appends (Q := fun _ _ => True) (fun _ _ => trivial) _ hold
          a.decision (fun _ _ => trivial)))
    · exact .inl hold'

/-! ### Dispositions and settlements -/

theorem dispose_appends {holdId : String} {disposition : HoldDisposition}
    {actor note : String} {extendMs : Option ℚ}
    (hdisposed : ∀ hold deadline, (foldHolds s.events).get? holdId = some hold →
      hold.status = .escalated ∨ hold.status = .payoutHeld →
        Q s.events (.holdDisposed ⟨holdId, disposition, actor, note, deadline⟩)) :
    Appends Q s.events (dispose env s holdId disposition actor note extendMs).1.events := by
  unfold dispose
  split
  · exact .refl
  split
  · exact .refl
  rename_i hold hget
  split
  · exact .refl
  rename_i hstat
  split
  · exact .refl
  have hopen : hold.status = .escalated ∨ hold.status = .payoutHeld := by
    by_contra hnone
    exact hstat (not_or.1 hnone)
  -- Whether the clock is read for a new deadline or not, the same event is appended.
  have happ : ∀ (t : EvidenceState) (deadline : Option ℚ), t.events = s.events →
      Appends Q s.events ((t.append env (.holdDisposed
        ⟨holdId, disposition, actor, note, deadline⟩)).audit env
          ("claim_hold." ++ disposition.text) actor note).events := by
    intro t deadline ht
    have hQ := hdisposed hold deadline hget hopen
    rw [← ht] at hQ ⊢
    exact appends_audited haudit t _ _ _ hQ
  dsimp only
  split <;> exact happ _ _ (by split <;> rfl)

theorem markSettled_appends {holdId : String}
    (hsettled : ∀ hold, (foldHolds s.events).get? holdId = some hold → hold.status ≠ .settled →
      Q s.events (.holdSettled ⟨holdId⟩)) :
    Appends Q s.events (markSettled env s holdId).1.events := by
  unfold markSettled
  split
  · exact .refl
  rename_i hold hget
  split
  · exact .refl
  · rename_i hne
    exact appends_audited haudit s _ _ _ (hsettled hold hget hne)

end Operations

end Refract.Consensus
