import Refract.Consensus.HoldOperations

/-!
# The life of a hold

Under the assumptions of `HoldAssumptions` every operation of the hold service appends allowed
events only (`gate_grows`, `reevaluate_grows`, `dispose_grows`, `markSettled_grows`). What a step of
the service does is said once, in `HoldEffect`, and `hold_lifecycle` collects what follows for every
run.
-/

namespace Refract.Consensus

open Lib List Option

/-! ## The operations append allowed events -/

variable {env : HoldEnv} {touched : String → Prop}

theorem allowedOn_of_holdId? {events : List EvidenceEvent} {body : EventBody}
    (hnone : body.holdId? = none) : AllowedOn touched events body := by
  refine ⟨.other body hnone, ?_⟩
  intro holdId hid
  rw [hnone] at hid
  cases hid

theorem gate_grows (s : EvidenceState) (candidate : HoldCandidate) (governed : Bool)
    (answer : Except JsError DecideAnswer) (hnew : ∀ a, answer = .ok a → (foldHolds s.events).get?
      (holdIdFor env.sha candidate.policyId a.decision.decisionId) = none) :
    Grows (fun _ => True) s.events (gate env s candidate governed answer).1.events := by
  refine gate_appends (fun _ _ => allowedOn_of_holdId? rfl)
    (fun _ _ => allowedOn_of_holdId? rfl) ?_
  rintro a p rfl hp
  -- The decision leaves the holds as they are, so the guards still hold after it.
  have hsame : foldHolds (s.appendEvent env ⟨.decision a.decision, a.recordedAt⟩).events =
      foldHolds s.events := foldHolds_appendEvent s rfl
  refine ⟨.placed p ?_ ?_, fun _ _ => trivial⟩
  · rw [hsame, hp.holdId]
    exact hnew a rfl
  · intro k hold hget hpol
    rw [hsame] at hget
    exact settled_of_free hp.active hp.denied hget (hpol.trans hp.policyId)

/-- The fold has a held claim under the id. -/
def IsHeld (events : List EvidenceEvent) (holdId : String) : Prop :=
  ∃ hold, (foldHolds events).get? holdId = some hold ∧ hold.status = .payoutHeld

theorem reevaluate_grows (s : EvidenceState) (hold : ClaimHold)
    (freshByFeed : OrdMap String DecisionEvent) (answer : Except JsError DecideAnswer)
    (hheld : IsHeld s.events hold.holdId) :
    Grows (· = hold.holdId) s.events (reevaluate env s hold freshByFeed answer).1.events := by
  obtain ⟨current, hget, hstat⟩ := hheld
  refine reevaluate_appends (fun _ _ => allowedOn_of_holdId? rfl)
    (fun _ _ => allowedOn_of_holdId? rfl) ?_
  intro events body hsame hbody
  rw [← hsame] at hget
  cases hbody with
  | reevaluated =>
    exact ⟨.reevaluated _ current hget hstat, fun _ hid => (some.inj hid).symm⟩
  | released =>
    exact ⟨.released _ current hget hstat, fun _ hid => (some.inj hid).symm⟩
  | escalated =>
    exact ⟨.escalated _ current hget hstat, fun _ hid => (some.inj hid).symm⟩

theorem dispose_grows (s : EvidenceState) (holdId : String) (disposition : HoldDisposition)
    (actor note : String) (extendMs : Option ℚ) :
    Grows (fun _ => True) s.events
      (dispose env s holdId disposition actor note extendMs).1.events := by
  refine dispose_appends (fun _ _ => allowedOn_of_holdId? rfl) ?_
  intro hold deadline hget hopen
  exact ⟨.disposed _ hold hget hopen, fun _ _ => trivial⟩

/-- The fold has a hold with the id that a settlement may be waiting for. -/
def IsGranted (events : List EvidenceEvent) (holdId : String) : Prop :=
  ∃ hold, (foldHolds events).get? holdId = some hold ∧ hold.status.isGranted = true

theorem markSettled_grows (s : EvidenceState) (holdId : String)
    (hgranted : IsGranted s.events holdId) :
    Grows (fun _ => True) s.events (markSettled env s holdId).1.events := by
  obtain ⟨hold, hget, hstat⟩ := hgranted
  refine markSettled_appends (fun _ _ => allowedOn_of_holdId? rfl) ?_
  intro hold' hget' hne
  rw [hget] at hget'
  cases hget'
  refine ⟨.settled _ hold hget ?_, fun _ _ => trivial⟩
  cases hs : hold.status with
  | released => exact .inl rfl
  | approved => exact .inr rfl
  | settled => exact absurd hs hne
  | payoutHeld | escalated | denied =>
    rw [hs] at hstat
    cases hstat

/-! ## Runs -/

/-- What is assumed of the hash and of the callers: a new hold gets an id that no hold has, and
`markSettled` is called with an id that the gate has let proceed. -/
def HoldAssumptions (env : HoldEnv) (s : HoldState) : HoldLabel → Prop
  | .gate candidate _ (.ok a) => (foldHolds s.store.events).get?
      (holdIdFor env.sha candidate.policyId a.decision.decisionId) = none
  | .markSettled holdId => holdId ∈ s.granted
  | _ => True

instance (env : HoldEnv) (s : HoldState) (l : HoldLabel) : Decidable (HoldAssumptions env s l) := by
  unfold HoldAssumptions
  split <;> infer_instance

/-- What holds in every state of a run. -/
structure HoldInv (s : HoldState) : Prop where
  holds : HoldsInv (foldHolds s.store.events)
  legal : LegalHistory s.store.events
  granted : ∀ holdId ∈ s.granted, IsGranted s.store.events holdId
  /-- The holds `reevaluateAll` has still to look at are as they were when it listed them. -/
  distinct : ∀ sweep ∈ s.sweep, (sweep.remaining.map (·.holdId)).Nodup
  pending : ∀ sweep ∈ s.sweep, ∀ hold ∈ sweep.remaining,
    (foldHolds s.store.events).get? hold.holdId = some hold ∧ hold.status = .payoutHeld

theorem holdInv_start : HoldInv .start := by
  have hemp : ∀ k hold, (foldHolds []).get? k = some hold → False := by
    intro k hold h
    cases h
  refine ⟨⟨?_, ?_⟩, PrecededBy.nil _, ?_, ?_, ?_⟩
  · intro k hold h
    exact (hemp k hold h).elim
  · intro k _ hold _ h
    exact (hemp k hold h).elim
  all_goals rintro sweep ⟨⟩

variable {events : List EvidenceEvent} {holdId : String}

theorem IsGranted.grows {events' : List EvidenceEvent} (h : IsGranted events holdId)
    (hgrows : Grows touched events events') :
    IsGranted events' holdId := by
  obtain ⟨hold, hget, hstat⟩ := h
  obtain ⟨hold', hget', -, hstat'⟩ :=
    hgrows.status HoldStatus.isGranted_of_mayBecome ⟨hold, hget, rfl, hstat⟩
  exact ⟨hold', hget', hstat'⟩

variable {candidate : HoldCandidate} {governed : Bool} {answer : Except JsError DecideAnswer}

/-- The gate proceeds with a hold id only for the open hold of the policy, released or approved. -/
theorem gate_proceed {s : EvidenceState} (hinv : HoldsInv (foldHolds s.events))
    (h : (gate env s candidate governed answer).2 = .proceed (some holdId)) :
    ∃ hold, (foldHolds s.events).get? holdId = some hold ∧ hold.policyId = candidate.policyId ∧
      (hold.status = .released ∨ hold.status = .approved) := by
  unfold gate at h
  split at h
  · rename_i hold hact
    obtain ⟨⟨k, hget⟩, hpol, -⟩ := activeHoldFor_some hact
    split at h
    · rename_i hstat
      cases h
      rw [← hinv.keyed k hold hget] at hget
      exact ⟨hold, hget, hpol, hstat⟩
    · cases h
  -- Without an open hold the gate never names one when it proceeds.
  split at h
  · cases h
  split at h
  · cases h
  split at h
  · cases h
  unfold gateDecision at h
  split at h
  · cases h
  split at h
  · cases h
  split at h
  · cases h
  · cases h
  · dsimp only at h
    split at h <;> cases h

theorem isGranted_of_gate {s : EvidenceState} {granted : List String}
    (hinv : HoldsInv (foldHolds s.events)) :
    ∀ holdId ∈ grant granted (gate env s candidate governed answer).2,
      holdId ∈ granted ∨ IsGranted s.events holdId := by
  intro holdId hmem
  unfold grant at hmem
  split at hmem
  · rename_i named hproceed
    rcases mem_snoc.1 hmem with hold | rfl
    · exact .inl hold
    obtain ⟨hold, hget, -, hstat⟩ := gate_proceed hinv hproceed
    refine .inr ⟨hold, hget, ?_⟩
    rcases hstat with hs | hs <;> rw [hs] <;> rfl
  · exact .inl hmem

/-- `reevaluateAll` lists each held claim once. -/
theorem listHolds_nodup (hinv : HoldsInv (foldHolds events)) (status : Option HoldStatus) :
    ((listHolds events status).map (·.holdId)).Nodup := by
  unfold listHolds
  rw [(sortBy_perm.map _).nodup_iff]
  exact (OrdMap.nodup_map_values hinv.keyed).sublist (filter_sublist.map _)

theorem Sweep.count_spec (sweep : Sweep) (rest : List ClaimHold)
    (freshByFeed : OrdMap String DecisionEvent) (outcome : Except JsError ReevaluateOutcome) :
    (sweep.count rest freshByFeed outcome).remaining = rest ∧
      (sweep.count rest freshByFeed outcome).freshByFeed = freshByFeed := by
  unfold Sweep.count
  split <;> exact ⟨rfl, rfl⟩

/-! ### What a step does -/

/-- The effect of a step: an operation between two sweeps, the start of a sweep, the re-evaluation
of one hold, or the end of a sweep. -/
inductive HoldEffect (s s' : HoldState) : Prop
  | idle (hsweep : s'.sweep = none)
      (hgrows : Grows (fun _ => True) s.store.events s'.store.events)
      (hgranted : ∀ holdId ∈ s'.granted, holdId ∈ s.granted ∨ IsGranted s.store.events holdId)
  | listed (hstore : s'.store = s.store) (hgranted : s'.granted = s.granted)
      (hsweep : s'.sweep =
        some ⟨listHolds s.store.events (some .payoutHeld), OrdMap.empty, 0, 0, 0⟩)
  | looked (sweep next : Sweep) (hold : ClaimHold) (hsweep : s.sweep = some sweep)
      (hremaining : sweep.remaining = hold :: next.remaining) (hnext : s'.sweep = some next)
      (hgrows : Grows (· = hold.holdId) s.store.events s'.store.events)
      (hgranted : s'.granted = s.granted)
  | ended (hstore : s'.store = s.store) (hgranted : s'.granted = s.granted)
      (hsweep : s'.sweep = none)

theorem holdId?_of_isForeign {body : EventBody} (h : body.isForeign = true) :
    body.holdId? = none := by
  cases body <;> first | rfl | cases h

variable {s s' : HoldState} {l : HoldLabel}

theorem holdEffect_of_idleStep (h : HoldInv s) (hsweep : s.sweep = none)
    (hassumed : HoldAssumptions env s l) (hstep : idleStep env s l = some s') :
    HoldEffect s s' := by
  cases l with
  | gate =>
    cases hstep
    refine .idle hsweep (gate_grows _ _ _ _ ?_) (isGranted_of_gate h.holds)
    rintro a rfl
    exact hassumed
  | startSweep =>
    cases hstep
    exact .listed rfl rfl rfl
  | sweepNext => cases hstep
  | dispose =>
    cases hstep
    exact .idle hsweep (dispose_grows _ _ _ _ _ _) (fun _ => .inl)
  | markSettled holdId =>
    cases hstep
    exact .idle hsweep (markSettled_grows _ _ (h.granted holdId hassumed)) (fun _ => .inl)
  | record =>
    simp only [idleStep, ite_none_right_eq_some, some.injEq] at hstep
    obtain ⟨hforeign, rfl⟩ := hstep
    exact .idle hsweep
      (appends_event _ _ (allowedOn_of_holdId? (holdId?_of_isForeign hforeign)))
      (fun _ => .inl)
  | setPayloads =>
    cases hstep
    exact .idle hsweep .refl (fun _ => .inl)

theorem holdEffect_of_sweepStep {sweep : Sweep} (h : HoldInv s) (hsweep : s.sweep = some sweep)
    (answer : Except JsError DecideAnswer) : HoldEffect s (sweepStep env s sweep answer) := by
  unfold sweepStep
  split
  · exact .ended rfl rfl rfl
  rename_i hold rest hrem
  have hheld : IsHeld s.store.events hold.holdId := by
    refine ⟨hold, h.pending sweep hsweep hold ?_⟩
    rw [hrem]
    exact mem_cons_self
  refine .looked sweep _ hold hsweep ?_ rfl (reevaluate_grows _ _ _ _ hheld) rfl
  rw [(Sweep.count_spec _ _ _ _).1]
  exact hrem

theorem holdEffect_of_step (h : HoldInv s) (hassumed : HoldAssumptions env s l)
    (hstep : HoldSteps env s l s') : HoldEffect s s' := by
  unfold HoldSteps holdStep at hstep
  split at hstep
  · rename_i hsweep
    exact holdEffect_of_idleStep h hsweep hassumed hstep
  rename_i sweep hsweep
  split at hstep
  · cases hstep
    exact holdEffect_of_sweepStep h hsweep _
  · cases hstep

/-- Every step appends allowed events only. -/
theorem HoldEffect.grows (h : HoldEffect s s') :
    Grows (fun _ => True) s.store.events s'.store.events := by
  cases h with
  | idle _ hgrows => exact hgrows
  | listed hstore hgranted hsweep | ended hstore hgranted hsweep =>
    rw [hstore]
  | looked _ _ _ _ _ _ hgrows =>
    exact Extends.mono hgrows fun _ _ h => ⟨h.1, fun _ _ => trivial⟩

theorem HoldEffect.granted (h : HoldEffect s s') :
    ∀ holdId ∈ s'.granted, holdId ∈ s.granted ∨ IsGranted s.store.events holdId := by
  cases h with
  | idle _ _ hgranted => exact hgranted
  | listed hstore hgranted hsweep | ended hstore hgranted hsweep
  | looked _ _ _ _ _ _ _ hgranted =>
    rw [hgranted]
    exact fun _ => .inl

theorem HoldEffect.distinct (heff : HoldEffect s s') (h : HoldInv s) :
    ∀ sweep ∈ s'.sweep, (sweep.remaining.map (·.holdId)).Nodup := by
  cases heff with
  | idle hsweep hgrows hgranted | ended hstore hgranted hsweep =>
    rw [hsweep]
    rintro sweep ⟨⟩
  | listed _ _ hsweep =>
    rw [hsweep]
    rintro sweep ⟨⟩
    exact listHolds_nodup h.holds _
  | looked sweep _ _ hsweep hrem hnext =>
    rw [hnext]
    rintro sweep' ⟨⟩
    have hnd := h.distinct sweep hsweep
    rw [hrem] at hnd
    exact (nodup_cons.1 hnd).2

theorem HoldEffect.pending (heff : HoldEffect s s') (h : HoldInv s) :
    ∀ sweep ∈ s'.sweep, ∀ hold ∈ sweep.remaining,
      (foldHolds s'.store.events).get? hold.holdId = some hold ∧ hold.status = .payoutHeld := by
  cases heff with
  | idle hsweep hgrows hgranted | ended hstore hgranted hsweep =>
    rw [hsweep]
    rintro sweep ⟨⟩
  | listed hstore _ hsweep =>
    rw [hsweep, hstore]
    rintro sweep ⟨⟩ hold hmem
    obtain ⟨⟨k, hget⟩, hstat⟩ := mem_listHolds.1 hmem
    rw [← h.holds.keyed k hold hget] at hget
    rcases hstat with hnone | hstat
    · cases hnone
    · exact ⟨hget, (some.inj hstat).symm⟩
  | looked sweep _ _ hsweep hrem hnext hgrows =>
    -- The other holds of the list have other ids, so this re-evaluation leaves them alone.
    rw [hnext]
    rintro sweep' ⟨⟩ other hmem
    have hpend := h.pending sweep hsweep
    have hnd := h.distinct sweep hsweep
    rw [hrem] at hpend hnd
    obtain ⟨hoth, hstat⟩ := hpend other (mem_cons_of_mem _ hmem)
    refine ⟨hgrows.untouched ?_ hoth, hstat⟩
    intro heq
    exact (nodup_cons.1 hnd).1 (mem_map.2 ⟨other, hmem, heq⟩)

theorem HoldInv.effect (h : HoldInv s) (heff : HoldEffect s s') : HoldInv s' where
  holds := Grows.holdsInv heff.grows h.holds
  legal := heff.grows.legalHistory h.legal
  granted := by
    intro holdId hmem
    rcases heff.granted holdId hmem with hold | hnew
    · exact (h.granted holdId hold).grows heff.grows
    · exact hnew.grows heff.grows
  distinct := heff.distinct h
  pending := heff.pending h

theorem holdInv_step (h : HoldInv s) (hassumed : HoldAssumptions env s l)
    (hstep : HoldSteps env s l s') : HoldInv s' :=
  h.effect (holdEffect_of_step h hassumed hstep)

/-- The runs of the service that meet the assumptions. -/
abbrev HoldRun (env : HoldEnv) : HoldState → HoldState → Prop :=
  RunWhere (HoldSteps env) (HoldAssumptions env)

/-! ### Denials -/

/-- A policy with a denied hold. -/
def IsDenied (events : List EvidenceEvent) (policyId : String) : Prop :=
  ∃ k hold, (foldHolds events).get? k = some hold ∧ hold.policyId = policyId ∧
    hold.status = .denied

/-- A denial is for ever. -/
theorem isDenied_run {t : HoldState} {policyId : String} (hs : HoldInv s)
    (hdenied : IsDenied s.store.events policyId) (hrun : HoldRun env s t) :
    HoldInv t ∧ IsDenied t.store.events policyId := by
  refine hrun.invariant (fun t => HoldInv t ∧ IsDenied t.store.events policyId) ⟨hs, hdenied⟩ ?_
  rintro a l b ⟨ha, k, hold, hget, hpol, hstat⟩ hassumed hstep
  have heff := holdEffect_of_step ha hassumed hstep
  refine ⟨ha.effect heff, k, heff.grows.status (P := (· = .denied)) ?_
    ⟨hold, hget, hpol, hstat⟩⟩
  rintro _ b rfl hopen _
  cases hopen

/-- Beside a denied hold a policy has no open one, so the gate blocks and names the denied one. -/
theorem gate_of_isDenied {s : EvidenceState} (hinv : HoldsInv (foldHolds s.events))
    (hdenied : IsDenied s.events candidate.policyId) (governed : Bool)
    (answer : Except JsError DecideAnswer) :
    ∃ reason holdId, (gate env s candidate governed answer).2 = .block reason holdId := by
  obtain ⟨k, hold, hget, hpol, hstat⟩ := hdenied
  have hact : activeHoldFor s.events candidate.policyId = none := by
    by_contra hsome
    obtain ⟨other, hoth⟩ := ne_none_iff_exists'.1 hsome
    obtain ⟨⟨k', hget'⟩, hpol', hopen⟩ := activeHoldFor_some hoth
    have hkey := hinv.single k k' hold other hget hget' (hpol.trans hpol'.symm)
      (by rw [hstat]; decide) hopen
    rw [← hkey, hget] at hget'
    cases hget'
    rw [hstat] at hopen
    cases hopen
  unfold gate
  rw [hact]
  dsimp only
  split
  · exact ⟨_, _, rfl⟩
  · rename_i hnone
    exact absurd hstat (deniedHoldFor_none hnone hget hpol)

/-- In every state of every run: a policy has at most one hold that is neither settled nor denied;
the status of a hold has moved along the edges of the state diagram only; the gate proceeds with a
hold id only when that hold of the policy is released or approved; and once a hold of a policy is
denied the gate blocks the policy in every later state. -/
theorem hold_lifecycle {env : HoldEnv} {s : HoldState} (hrun : HoldRun env .start s) :
    (∀ k k' hold hold', (foldHolds s.store.events).get? k = some hold →
      (foldHolds s.store.events).get? k' = some hold' → hold.policyId = hold'.policyId →
      hold.status.isTerminal = false → hold'.status.isTerminal = false → k = k') ∧
    LegalHistory s.store.events ∧
    (∀ candidate governed answer holdId,
      (gate env s.store candidate governed answer).2 = .proceed (some holdId) →
        ∃ hold, (foldHolds s.store.events).get? holdId = some hold ∧
          hold.policyId = candidate.policyId ∧
          (hold.status = .released ∨ hold.status = .approved)) ∧
    (∀ k hold t candidate governed answer, (foldHolds s.store.events).get? k = some hold →
      hold.status = .denied → HoldRun env s t → candidate.policyId = hold.policyId →
        ∃ reason holdId,
          (gate env t.store candidate governed answer).2 = .block reason holdId) := by
  have hinv : HoldInv s := hrun.invariant HoldInv holdInv_start fun _ _ _ => holdInv_step
  refine ⟨?_, hinv.legal, ?_, ?_⟩
  · intro k k' hold hold' hget hget' hpolicy hopen hopen'
    exact hinv.holds.single k k' hold hold' hget hget' hpolicy (ne_settled_of_isTerminal hopen)
      hopen'
  · intro candidate governed answer holdId hproceed
    exact gate_proceed hinv.holds hproceed
  · intro k hold t candidate governed answer hget hstatus hlater hpolicy
    obtain ⟨ht, hdenied⟩ := isDenied_run hinv ⟨k, hold, hget, hpolicy.symm, hstatus⟩ hlater
    exact gate_of_isDenied ht.holds hdenied governed answer

/-! ### A run with a denied and a settled hold -/

/-- A host whose clock reads 0, 1, 2, ... and whose digests are the texts themselves. -/
def plainHoldEnv : HoldEnv := ⟨plainHost, id, fun n => n, 1000⟩

/-- A triggered decision on one reading that is not in the ledger. -/
def unreadDecision (decisionId : String) : DecideAnswer where
  decision :=
    { decisionId, feedId := "StablecoinDepeg", atTime := 0, ledgerSeq := none
      outcome := .decision, value := some 0, triggered := true, reason := "depeg"
      policyVersion := none
      contributing := [⟨"r1", "s1", 0, 1, none⟩] }
  recordedAt := none

def depegCandidate (policyId : String) : HoldCandidate :=
  ⟨policyId, "alice", "StablecoinDepeg", .finite 1000⟩

/-- The payout of `p1` is held and denied; the payout of `p2` is held, approved and settled. -/
def deniedAndSettled : List HoldLabel :=
  [.gate (depegCandidate "p1") true (.ok (unreadDecision "d1")),
   .dispose "hold_p1:d1" .deny "op" "no" none,
   .gate (depegCandidate "p2") true (.ok (unreadDecision "d2")),
   .dispose "hold_p2:d2" .approvePayout "op" "yes" none,
   .gate (depegCandidate "p2") true (.ok (unreadDecision "d3")),
   .markSettled "hold_p2:d2"]

theorem hold_lifecycle_denied : ∃ s, HoldRun plainHoldEnv .start s ∧
    statusOf s.store.events "hold_p1:d1" = some .denied ∧
    statusOf s.store.events "hold_p2:d2" = some .settled ∧ LegalHistory s.store.events ∧
    ∃ reason holdId, (gate plainHoldEnv s.store (depegCandidate "p1") true
      (.ok (unreadDecision "d4"))).2 = .block reason holdId := by
  have hrun : HoldRun plainHoldEnv .start _ :=
    .performed deniedAndSettled (by decide +kernel)
  obtain ⟨-, hlegal, -, hblocks⟩ := hold_lifecycle hrun
  exact ⟨_, hrun, by decide +kernel, by decide +kernel, hlegal,
    hblocks "hold_p1:d1" _ _ _ true _ (some_get (by decide +kernel)).symm
      (by decide +kernel) .refl (by decide +kernel)⟩

end Refract.Consensus
