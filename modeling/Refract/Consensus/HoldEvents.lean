import Refract.Consensus.ClaimHold
import Refract.Lib.Traces

/-!
# Hold events and the state diagram

What may be appended to the ledger about a hold depends on what the ledger says about it
(`Allowed`). An allowed event does nothing to the holds, adds one, or moves one along an edge of the
state diagram (`FoldEffect`). What follows for a ledger that grows by allowed events is derived from
that: a policy has one open hold at most (`Grows.holdsInv`) and statuses follow the diagram
(`Grows.legalHistory`).

Whether or not the events are allowed, every hold stands on a triggered decision if every hold was
placed on one (`decided_of_appends`).
-/

namespace Refract.Consensus

open Lib OrdMap

/-! ## The state diagram -/

/-- The edges of the state diagram. -/
def HoldStatus.mayBecome : HoldStatus → HoldStatus → Bool
  | .payoutHeld, .released | .payoutHeld, .escalated | .payoutHeld, .approved
  | .payoutHeld, .denied | .payoutHeld, .payoutHeld => true
  | .escalated, .approved | .escalated, .denied | .escalated, .payoutHeld => true
  | .released, .settled | .approved, .settled => true
  | _, _ => false

/-- The status of a hold after some events. -/
def statusOf (events : List EvidenceEvent) (holdId : String) : Option HoldStatus :=
  ((foldHolds events).get? holdId).map (·.status)

/-- Every event leaves the status of every hold as it is, or moves it along an edge. -/
def LegalHistory (events : List EvidenceEvent) : Prop :=
  PrecededBy (fun e before => ∀ holdId a, statusOf before holdId = some a →
    ∃ b, statusOf (before ++ [e]) holdId = some b ∧ (b = a ∨ a.mayBecome b = true)) events

/-- A hold that a settlement may be waiting for, or has confirmed. -/
def HoldStatus.isGranted : HoldStatus → Bool
  | .released | .approved | .settled => true
  | _ => false

theorem HoldStatus.isGranted_of_mayBecome (a b : HoldStatus) : a.isGranted = true →
    a.isTerminal = false → a.mayBecome b = true → b.isGranted = true := by
  cases a <;> cases b <;> decide

/-! ## Allowed events -/

/-- The hold an event is about. -/
def EventBody.holdId? : EventBody → Option String
  | .holdPlaced e => some e.holdId
  | .holdReevaluated e => some e.holdId
  | .holdReleased e => some e.holdId
  | .holdEscalated e => some e.holdId
  | .holdDisposed e => some e.holdId
  | .holdSettled e => some e.holdId
  | _ => none

/-- The events that may be appended to a ledger. -/
inductive Allowed (events : List EvidenceEvent) : EventBody → Prop
  | other (body : EventBody) (h : body.holdId? = none) : Allowed events body
  | placed (e : HoldPlacedEvent) (hnew : (foldHolds events).get? e.holdId = none)
      (hfree : ∀ k hold, (foldHolds events).get? k = some hold → hold.policyId = e.policyId →
        hold.status = .settled) : Allowed events (.holdPlaced e)
  | reevaluated (e : HoldReevaluatedEvent) (hold : ClaimHold)
      (hget : (foldHolds events).get? e.holdId = some hold) (hheld : hold.status = .payoutHeld) :
      Allowed events (.holdReevaluated e)
  | released (e : HoldReleasedEvent) (hold : ClaimHold)
      (hget : (foldHolds events).get? e.holdId = some hold) (hheld : hold.status = .payoutHeld) :
      Allowed events (.holdReleased e)
  | escalated (e : HoldEscalatedEvent) (hold : ClaimHold)
      (hget : (foldHolds events).get? e.holdId = some hold) (hheld : hold.status = .payoutHeld) :
      Allowed events (.holdEscalated e)
  | disposed (e : HoldDisposedEvent) (hold : ClaimHold)
      (hget : (foldHolds events).get? e.holdId = some hold)
      (hopen : hold.status = .escalated ∨ hold.status = .payoutHeld) :
      Allowed events (.holdDisposed e)
  | settled (e : HoldSettledEvent) (hold : ClaimHold)
      (hget : (foldHolds events).get? e.holdId = some hold)
      (hgranted : hold.status = .released ∨ hold.status = .approved) :
      Allowed events (.holdSettled e)

theorem foldHolds_append (events : List EvidenceEvent) (e : EvidenceEvent) :
    foldHolds (events ++ [e]) = foldStep (foldHolds events) e := by
  simp [foldHolds]

theorem get?_patch (holds : OrdMap String ClaimHold) (holdId k : String)
    (f : ClaimHold → ClaimHold) :
    (patch holds holdId f).get? k = if k = holdId then (holds.get? k).map f else holds.get? k := by
  unfold patch
  cases hget : holds.get? holdId with
  | none => by_cases h : k = holdId <;> simp [h, hget]
  | some =>
    rw [get?_set]
    by_cases h : k = holdId <;> simp [h, hget]

variable {holds : OrdMap String ClaimHold}

theorem patch_of_get? {holdId : String} {hold : ClaimHold} (hget : holds.get? holdId = some hold)
    (f : ClaimHold → ClaimHold) :
    patch holds holdId f = holds.set holdId (f hold) := by
  unfold patch
  rw [hget]

variable {e : EvidenceEvent}

theorem foldStep_of_holdId? (h : e.data.holdId? = none) (holds : OrdMap String ClaimHold) :
    foldStep holds e = holds := by
  unfold foldStep
  split
  all_goals first | rfl | (rename_i heq; rw [heq] at h; cases h)

/-- A disposition sets the status and keeps what identifies the hold. -/
theorem disposedHold_spec (e : HoldDisposedEvent) (recordedAt : ℚ) (hold : ClaimHold) :
    (disposedHold e recordedAt hold).status = e.disposition.status ∧
      (disposedHold e recordedAt hold).holdId = hold.holdId ∧
      (disposedHold e recordedAt hold).policyId = hold.policyId ∧
      (disposedHold e recordedAt hold).decisionId = hold.decisionId := by
  unfold disposedHold
  split
  · split <;> exact ⟨rfl, rfl, rfl, rfl⟩
  · exact ⟨rfl, rfl, rfl, rfl⟩

/-- What one allowed event does: nothing, a new hold, or a legal move of an open hold that keeps the
hold's identity. -/
inductive FoldEffect (events : List EvidenceEvent) (e : EvidenceEvent) :
    OrdMap String ClaimHold → Prop
  | none (h : e.data.holdId? = none) : FoldEffect events e (foldHolds events)
  | placed (hold : ClaimHold) (hid : e.data.holdId? = some hold.holdId)
      (hstatus : hold.status = .payoutHeld) (hnew : (foldHolds events).get? hold.holdId = none)
      (hfree : ∀ k other, (foldHolds events).get? k = some other →
        other.policyId = hold.policyId → other.status = .settled) :
      FoldEffect events e ((foldHolds events).set hold.holdId hold)
  | moved (holdId : String) (hold : ClaimHold) (f : ClaimHold → ClaimHold)
      (hid : e.data.holdId? = some holdId) (hget : (foldHolds events).get? holdId = some hold)
      (hopen : hold.status.isTerminal = false)
      (hmove : hold.status.mayBecome (f hold).status = true)
      (hkept : (f hold).holdId = hold.holdId ∧ (f hold).policyId = hold.policyId) :
      FoldEffect events e (patch (foldHolds events) holdId f)

variable {events : List EvidenceEvent}

theorem foldEffect_of_allowed (h : Allowed events e.data) :
    FoldEffect events e (foldHolds (events ++ [e])) := by
  rw [foldHolds_append]
  obtain ⟨seq, recordedAt, body⟩ := e
  cases h with
  | other _ hnone =>
    rw [foldStep_of_holdId? hnone]
    exact .none hnone
  | placed e hnew hfree => exact .placed (placedHold e recordedAt) rfl rfl hnew hfree
  | reevaluated e hold hget hheld | released e hold hget hheld | escalated e hold hget hheld =>
    refine .moved e.holdId hold _ rfl hget ?_ ?_ ⟨rfl, rfl⟩
    · rw [hheld]
      rfl
    · simp [hheld, HoldStatus.mayBecome]
  | disposed e hold hget hopen =>
    obtain ⟨hstat, hid, hpol, -⟩ := disposedHold_spec e recordedAt hold
    refine .moved e.holdId hold _ rfl hget ?_ ?_ ⟨hid, hpol⟩
    · rcases hopen with hs | hs <;> rw [hs] <;> rfl
    · rw [hstat]
      rcases hopen with hs | hs <;> rw [hs] <;> cases e.disposition <;> rfl
  | settled e hold hget hgranted =>
    refine .moved e.holdId hold _ rfl hget ?_ ?_ ⟨rfl, rfl⟩
    · rcases hgranted with hs | hs <;> rw [hs] <;> rfl
    · rcases hgranted with hs | hs <;> simp [hs, HoldStatus.mayBecome]

/-! ## What allowed events keep -/

/-- The holds as the fold of a legal ledger. -/
structure HoldsInv (holds : OrdMap String ClaimHold) : Prop where
  keyed : ∀ k hold, holds.get? k = some hold → hold.holdId = k
  /-- Beside an open hold, the other holds of its policy are settled. -/
  single : ∀ k k' hold hold', holds.get? k = some hold → holds.get? k' = some hold' →
    hold.policyId = hold'.policyId → hold.status ≠ .settled →
      hold'.status.isTerminal = false → k = k'

theorem ne_settled_of_isTerminal {status : HoldStatus} (h : status.isTerminal = false) :
    status ≠ .settled := by
  rintro rfl
  cases h

/-- Writing a hold beside which the other holds of its policy are settled. -/
theorem HoldsInv.set (h : HoldsInv holds) {hold : ClaimHold}
    (hfree : ∀ k other, k ≠ hold.holdId → holds.get? k = some other →
      other.policyId = hold.policyId → other.status = .settled) :
    HoldsInv (holds.set hold.holdId hold) := by
  refine ⟨?_, ?_⟩
  · exact forall_get?_set h.keyed rfl
  · -- An open hold beside the written one contradicts `hfree`.
    intro k k' a b ha hb hpol hna hnb
    rcases get?_set_eq_some_iff.1 ha with ⟨rfl, rfl⟩ | ⟨hk, ha'⟩ <;>
      rcases get?_set_eq_some_iff.1 hb with ⟨rfl, rfl⟩ | ⟨hk', hb'⟩
    · rfl
    · exact absurd (hfree k' b hk' hb' hpol.symm) (ne_settled_of_isTerminal hnb)
    · exact absurd (hfree k a hk ha' hpol) hna
    · exact h.single k k' a b ha' hb' hpol hna hnb

variable {holds' : OrdMap String ClaimHold}

theorem HoldsInv.effect (h : HoldsInv (foldHolds events)) (heff : FoldEffect events e holds') :
    HoldsInv holds' := by
  cases heff with
  | none => exact h
  | placed hold _ _ _ hfree => exact h.set fun k other _ => hfree k other
  | moved holdId hold f _ hget hopen _ hkept =>
    have hid : (f hold).holdId = holdId := hkept.1.trans (h.keyed holdId hold hget)
    rw [patch_of_get? hget]
    subst hid
    refine h.set ?_
    intro k other hk hoth hpol
    by_contra hne
    exact hk (h.single k _ other hold hoth hget (hpol.trans hkept.2) hne hopen)

variable {k : String} {hold : ClaimHold}

/-- An allowed event leaves a hold or moves it along an edge. -/
theorem FoldEffect.legal (heff : FoldEffect events e holds')
    (hget : (foldHolds events).get? k = some hold) :
    ∃ hold', holds'.get? k = some hold' ∧ hold'.policyId = hold.policyId ∧
      (hold' = hold ∨ hold.status.isTerminal = false ∧
        hold.status.mayBecome hold'.status = true ∧ e.data.holdId? = some k) := by
  cases heff with
  | none => exact ⟨hold, hget, rfl, .inl rfl⟩
  | placed new _ _ hnew =>
    have hne : k ≠ new.holdId := by
      rintro rfl
      rw [hnew] at hget
      cases hget
    exact ⟨hold, by rw [get?_set_of_ne hne]; exact hget, rfl, .inl rfl⟩
  | moved holdId _ f hid hold' hopen hmove hkept =>
    by_cases hk : k = holdId
    · subst hk
      rw [hget] at hold'
      cases hold'
      refine ⟨f hold, ?_, hkept.2, .inr ⟨hopen, hmove, hid⟩⟩
      rw [get?_patch, if_pos rfl, hget]
      rfl
    · refine ⟨hold, ?_, rfl, .inl rfl⟩
      rw [get?_patch, if_neg hk]
      exact hget

/-! ## Growing a ledger by allowed events -/

/-- The ledger grows by events whose bodies satisfy `Q` when they are appended. -/
abbrev Appends (Q : List EvidenceEvent → EventBody → Prop) :
    List EvidenceEvent → List EvidenceEvent → Prop :=
  Extends fun events e => Q events e.data

/-- Allowed, and about a hold of `touched` if it is about one. -/
def AllowedOn (touched : String → Prop) (events : List EvidenceEvent) (body : EventBody) : Prop :=
  Allowed events body ∧ ∀ holdId, body.holdId? = some holdId → touched holdId

/-- The events grow by allowed events about holds of `touched`. -/
abbrev Grows (touched : String → Prop) : List EvidenceEvent → List EvidenceEvent → Prop :=
  Appends (AllowedOn touched)

variable {touched : String → Prop} {events' : List EvidenceEvent}

namespace Grows

variable (h : Grows touched events events')

include h

theorem holdsInv (hinv : HoldsInv (foldHolds events)) : HoldsInv (foldHolds events') := by
  refine Extends.invariant (fun es => HoldsInv (foldHolds es)) h hinv ?_
  intro es e hes hallow
  exact hes.effect (foldEffect_of_allowed hallow.1)

theorem legalHistory (hlegal : LegalHistory events) : LegalHistory events' := by
  refine Extends.invariant LegalHistory h hlegal ?_
  intro es e hes hallow
  refine PrecededBy.snoc hes e ?_
  intro holdId a ha
  obtain ⟨hold, hget, rfl⟩ := Option.map_eq_some_iff.1 ha
  obtain ⟨hold', hget', -, hmove⟩ := (foldEffect_of_allowed hallow.1).legal hget
  refine ⟨hold'.status, ?_, ?_⟩
  · unfold statusOf
    rw [hget']
    rfl
  · rcases hmove with rfl | ⟨-, hmove, -⟩
    · exact .inl rfl
    · exact .inr hmove

/-- A hold whose status no edge leaves, but for edges that stay in `P`, stays in `P`. -/
theorem status {policyId : String}
    {P : HoldStatus → Prop} (hP : ∀ a b, P a → a.isTerminal = false → a.mayBecome b = true → P b)
    (hstart : ∃ hold, (foldHolds events).get? k = some hold ∧ hold.policyId = policyId ∧
      P hold.status) :
    ∃ hold, (foldHolds events').get? k = some hold ∧ hold.policyId = policyId ∧
      P hold.status := by
  refine Extends.invariant (fun es => ∃ hold, (foldHolds es).get? k = some hold ∧
    hold.policyId = policyId ∧ P hold.status) h hstart ?_
  rintro es e ⟨hold, hget, hpol, hstat⟩ hallow
  obtain ⟨hold', hget', hpol', hmove⟩ := (foldEffect_of_allowed hallow.1).legal hget
  refine ⟨hold', hget', hpol'.trans hpol, ?_⟩
  rcases hmove with rfl | ⟨hopen, hmove, -⟩
  · exact hstat
  · exact hP _ _ hstat hopen hmove

/-- Holds that are not touched stay as they are. -/
theorem untouched (hk : ¬touched k)
    (hget : (foldHolds events).get? k = some hold) : (foldHolds events').get? k = some hold := by
  refine Extends.invariant (fun es => (foldHolds es).get? k = some hold) h hget ?_
  intro es e hes hallow
  obtain ⟨hold', hget', -, hmove⟩ := (foldEffect_of_allowed hallow.1).legal hes
  rw [hget']
  rcases hmove with rfl | ⟨-, -, hid⟩
  · rfl
  · exact absurd (hallow.2 k hid) hk

end Grows

/-! ## The decisions behind holds -/

/-- The first decision recorded under the id says that the payout is due. -/
def IsTriggered (events : List EvidenceEvent) (decisionId : String) : Prop :=
  ∃ e, decisionById events decisionId = some e ∧ e.data.outcome = .decision ∧
    e.data.triggered = true

theorem IsTriggered.append {decisionId : String} (h : IsTriggered events decisionId)
    (added : List EvidenceEvent) : IsTriggered (events ++ added) decisionId := by
  obtain ⟨e, hfound, hverd⟩ := h
  exact ⟨e, decisionById_append hfound added, hverd⟩

/-- The decision is the first one recorded under its id. -/
def IsRecorded (events : List EvidenceEvent) (d : DecisionEvent) : Prop :=
  ∃ e, decisionById events d.decisionId = some e ∧ e.data = d

variable {d : DecisionEvent}

theorem IsRecorded.append (h : IsRecorded events d) (added : List EvidenceEvent) :
    IsRecorded (events ++ added) d := by
  obtain ⟨e, hfound, heq⟩ := h
  exact ⟨e, decisionById_append hfound added, heq⟩

theorem IsRecorded.extend {Q : List EvidenceEvent → EvidenceEvent → Prop} (h : IsRecorded events d)
    (hgrown : Extends Q events events') : IsRecorded events' d := by
  obtain ⟨added, rfl⟩ := hgrown.exists_append
  exact h.append added

/-- A hold is placed on a triggered decision; other events are free. -/
def Grounded (events : List EvidenceEvent) (body : EventBody) : Prop :=
  ∀ p, body = .holdPlaced p → IsTriggered events p.decisionId

/-- Every hold stands on a triggered decision. -/
def Decided (events : List EvidenceEvent) : Prop :=
  ∀ k hold, (foldHolds events).get? k = some hold → IsTriggered events hold.decisionId

/-- A hold after one event has the decision of a hold before it, or is placed by the event. -/
theorem decisionId_of_foldStep (h : (foldStep holds e).get? k = some hold) :
    (∃ old, holds.get? k = some old ∧ hold.decisionId = old.decisionId) ∨
      ∃ p, e.data = .holdPlaced p ∧ hold.decisionId = p.decisionId := by
  have hpatch : ∀ {holdId : String} {f : ClaimHold → ClaimHold},
      (patch holds holdId f).get? k = some hold → (∀ old, (f old).decisionId = old.decisionId) →
        ∃ old, holds.get? k = some old ∧ hold.decisionId = old.decisionId := by
    intro holdId f hget hf
    rw [get?_patch] at hget
    split at hget
    · obtain ⟨old, hold', rfl⟩ := Option.map_eq_some_iff.1 hget
      exact ⟨old, hold', hf old⟩
    · exact ⟨hold, hget, rfl⟩
  unfold foldStep at h
  split at h
  · rename_i p hp
    rcases get?_set_eq_some_iff.1 h with ⟨-, rfl⟩ | ⟨-, hold'⟩
    · exact .inr ⟨p, hp, rfl⟩
    · exact .inl ⟨hold, hold', rfl⟩
  case h_5 => exact .inl (hpatch h fun old => (disposedHold_spec _ _ old).2.2.2)
  case h_7 => exact .inl ⟨hold, h, rfl⟩
  all_goals exact .inl (hpatch h fun _ => rfl)

theorem decided_of_appends (h : Appends Grounded events events') (hdecided : Decided events) :
    Decided events' := by
  refine Extends.invariant Decided h hdecided ?_
  intro es e hes hgrounded k hold hget
  rw [foldHolds_append] at hget
  rcases decisionId_of_foldStep hget with ⟨old, hold', hid⟩ | ⟨p, hp, hid⟩
  · rw [hid]
    exact (hes k old hold').append [e]
  · rw [hid]
    exact (hgrounded p hp).append [e]

end Refract.Consensus
