import Refract.Consensus.OffboardingService
import Refract.Consensus.ClaimHoldRelease

/-!
# Purges and open holds

A purge list holds no payload that an open hold refers to when the list is made. The list is then
worked off across awaits, and nothing looks at the holds again. As long as no gate call in between
records a decision on a payload that is still on a list, no payload is purged while an open hold
refers to it (`purged_unreferenced`); a hold placed while the credential of the source is being
deleted loses its evidence (`purged_under_open_hold`).
-/

namespace Refract.Consensus

open Lib List

/-! ## References from open holds -/

/-- A reading behind the original or the current decision of an open hold refers to the payload. -/
def ReferencedByOpenHold (events : List EvidenceEvent) (hash : String) : Prop :=
  ∃ k hold, (foldHolds events).get? k = some hold ∧ hold.status.isTerminal = false ∧
    ∃ id, (id = hold.decisionId ∨ id = hold.currentDecisionId) ∧
      ∃ d, decisionById events id = some d ∧
        ∃ c ∈ d.data.contributing, payloadOf events c.readingId = some hash

variable {events : List EvidenceEvent} {hash : String}

theorem truthy_eq_some {s : Option String} : truthy s = some hash ↔ s = some hash ∧ hash ≠ "" := by
  rw [truthy, Option.filter_eq_some_iff, decide_eq_true_eq]

/-- The plan keeps the payloads open holds refer to, but for an empty hash. -/
theorem mem_disputedHashes :
    hash ∈ disputedHashes events ↔ ReferencedByOpenHold events hash ∧ hash ≠ "" := by
  have hread : ∀ hold c, c ∈ disputedReadings events hold ↔
      ∃ id, (id = hold.decisionId ∨ id = hold.currentDecisionId) ∧
        ∃ d, decisionById events id = some d ∧ c ∈ d.data.contributing := by
    intro hold c
    unfold disputedReadings
    rw [mem_flatMap]
    simp only [mem_eraseDups, mem_cons, not_mem_nil, or_false]
    refine exists_congr fun id => and_congr_right fun _ => ?_
    cases decisionById events id <;> simp
  unfold disputedHashes openHolds
  simp only [mem_flatMap, mem_filterMap, mem_filter, OrdMap.mem_values_iff, truthy_eq_some,
    hread, Bool.not_eq_true', ReferencedByOpenHold]
  constructor
  · rintro ⟨hold, ⟨⟨k, hget⟩, hopen⟩, c, ⟨id, hid, d, hd, hc⟩, hpl, hne⟩
    exact ⟨⟨k, hold, hget, hopen, id, hid, d, hd, c, hc, hpl⟩, hne⟩
  · rintro ⟨⟨k, hold, hget, hopen, id, hid, d, hd, c, hc, hpl⟩, hne⟩
    exact ⟨hold, ⟨⟨k, hget⟩, hopen⟩, c, ⟨id, hid, d, hd, hc⟩, hpl, hne⟩

/-! ### Events and references -/

def EventBody.isReading : EventBody → Bool
  | .reading _ => true
  | _ => false

def EventBody.isDecision : EventBody → Bool
  | .decision _ => true
  | _ => false

variable {e : EvidenceEvent}

theorem payloadOf_append (h : e.data.isReading = false) (readingId : String) :
    payloadOf (events ++ [e]) readingId = payloadOf events readingId := by
  unfold payloadOf readingHashes
  rw [foldl_append, foldl_cons, foldl_nil]
  split
  · rename_i heq
    rw [heq] at h
    cases h
  · rfl

theorem decisionById_append_of_isDecision (h : e.data.isDecision = false) (id : String) :
    decisionById (events ++ [e]) id = decisionById events id := by
  unfold decisionById
  have hnone : decisionEvent? id e = none := by
    unfold decisionEvent?
    split
    · rename_i heq
      rw [heq] at h
      cases h
    · rfl
  rw [findSome?_append, findSome?_cons, hnone]
  cases events.findSome? (decisionEvent? id) <;> rfl

/-- Events that leave the holds, their decisions and the readings behind these as they are. -/
def EventBody.isNeutral (body : EventBody) : Prop :=
  body.holdId? = none ∧ body.isReading = false ∧ body.isDecision = false

theorem referencedByOpenHold_append (h : e.data.isNeutral) (hash : String) :
    ReferencedByOpenHold (events ++ [e]) hash ↔ ReferencedByOpenHold events hash := by
  obtain ⟨hhold, hreading, hdec⟩ := h
  unfold ReferencedByOpenHold
  simp only [foldHolds_append, foldStep_of_holdId? hhold, payloadOf_append hreading,
    decisionById_append_of_isDecision hdec]

variable {seq : Nat} {recordedAt : ℚ} {d : DecisionEvent}

/-- A decision on other payloads makes no reference to the payload. -/
theorem unreferenced_append_decision (h : ¬ReferencedByOpenHold events hash)
    (hoth : ∀ c ∈ d.contributing, payloadOf events c.readingId ≠ some hash) :
    ¬ReferencedByOpenHold (events ++ [⟨seq, recordedAt, .decision d⟩]) hash := by
  rintro ⟨k, hold, hget, hopen, id, hid, found, hfound, c, hc, hpl⟩
  rw [foldHolds_append, foldStep_of_holdId? rfl] at hget
  rw [payloadOf_append rfl] at hpl
  unfold decisionById at hfound
  rw [findSome?_append, Option.or_eq_some_iff] at hfound
  rcases hfound with hold' | ⟨-, hnew⟩
  · exact h ⟨k, hold, hget, hopen, id, hid, found, hold', c, hc, hpl⟩
  simp only [findSome?_cons, decisionEvent?] at hnew
  split at hnew
  · rename_i heq
    split at heq
    · cases heq
      cases hnew
      exact hoth c hc hpl
    · cases heq
  · cases hnew

/-- A hold on a recorded decision on other payloads makes no reference to the payload. -/
theorem unreferenced_append_placed {p : HoldPlacedEvent} (h : ¬ReferencedByOpenHold events hash)
    (hrec : IsRecorded events d) (hid : p.decisionId = d.decisionId)
    (hoth : ∀ c ∈ d.contributing, payloadOf events c.readingId ≠ some hash) :
    ¬ReferencedByOpenHold (events ++ [⟨seq, recordedAt, .holdPlaced p⟩]) hash := by
  rintro ⟨k, hold, hget, hopen, id, hids, found, hfound, c, hc, hpl⟩
  rw [payloadOf_append rfl] at hpl
  rw [decisionById_append_of_isDecision rfl] at hfound
  rw [foldHolds_append] at hget
  rcases OrdMap.get?_set_eq_some_iff.1 hget with ⟨-, rfl⟩ | ⟨-, hold'⟩
  · have hsame : id = d.decisionId := by
      rcases hids with rfl | rfl <;> exact hid
    obtain ⟨e, he, rfl⟩ := hrec
    rw [hsame, he] at hfound
    cases hfound
    exact hoth c hc hpl
  · exact h ⟨k, hold, hold', hopen, id, hids, found, hfound, c, hc, hpl⟩

/-! ## Segments -/

/-- A purge of a payload no open hold refers to at that moment; other events are free. -/
def Unreferenced (events : List EvidenceEvent) (body : EventBody) : Prop :=
  ∀ p, body = .payloadPurged p → ¬ReferencedByOpenHold events p.hash

/-- What the segments of offboarding and sweep calls append. -/
def CleanPurge (events : List EvidenceEvent) (body : EventBody) : Prop :=
  body.isNeutral ∧ Unreferenced events body

/-- The payloads a call has still to purge. -/
def Suspended.pending : Suspended → List String
  | .revoking run _ => run.plan.purge.map (·.hash)
  | .purging _ _ hash _ rest _ _ => hash :: rest
  | .purged _ _ => []

/-- No payload that a call has still to purge is kept by an open hold, and a body that it has
deleted has a proper hash. -/
structure Suspended.Sound (events : List EvidenceEvent) (call : Suspended) : Prop where
  pending : ∀ hash ∈ call.pending, hash ∉ disputedHashes events
  deleted : ∀ offboardingId sourceId hash rest n caller,
    call = .purging offboardingId sourceId hash (.ok ()) rest n caller → hash ≠ ""

/-- What a segment does: it appends clean events, and a call it suspends is sound. -/
structure CleanSegment (events : List EvidenceEvent) (out : EvidenceState × SegmentEnd) :
    Prop where
  grown : Appends CleanPurge events out.1.events
  sound : ∀ call, out.2 = .suspended call → call.Sound out.1.events

variable {events' : List EvidenceEvent}

theorem disputedHashes_of_appends (h : Appends CleanPurge events events') (hash : String) :
    hash ∈ disputedHashes events' ↔ hash ∈ disputedHashes events := by
  refine Extends.invariant (fun es => hash ∈ disputedHashes es ↔ hash ∈ disputedHashes events) h
    Iff.rfl ?_
  intro es e ih hclean
  rw [← ih, mem_disputedHashes, mem_disputedHashes, referencedByOpenHold_append hclean.1]

variable {call : Suspended}

theorem Suspended.Sound.appends (h : call.Sound events)
    (hgrown : Appends CleanPurge events events') : call.Sound events' where
  pending := by
    intro hash hmem
    rw [disputedHashes_of_appends hgrown]
    exact h.pending hash hmem
  deleted := h.deleted

variable {out : EvidenceState × SegmentEnd} {env : HoldEnv} {s : EvidenceState}

theorem cleanSegment_finished {result : CallResult} (h : Appends CleanPurge events s.events) :
    CleanSegment events (s, .finished result) :=
  ⟨h, by rintro call ⟨⟩⟩

theorem CleanSegment.trans (h : Appends CleanPurge events events')
    (hout : CleanSegment events' out) : CleanSegment events out :=
  ⟨h.trans hout.grown, hout.sound⟩

/-- Of the neutral events only purges can do harm. -/
theorem unreferenced_of_ne {body : EventBody} (h : ∀ p, body ≠ .payloadPurged p) :
    Unreferenced events body :=
  fun p hp => absurd hp (h p)

theorem appends_clean (s : EvidenceState) (event : NewEvidenceEvent)
    (hneutral : event.body.isNeutral) (hpurge : ∀ p, event.body ≠ .payloadPurged p) :
    Appends CleanPurge s.events (s.appendEvent env event).events :=
  appends_event s event ⟨hneutral, unreferenced_of_ne hpurge⟩

theorem appends_audit (s : EvidenceState) (action actor reason : String) :
    Appends CleanPurge s.events (s.audit env action actor reason).events :=
  appends_clean s _ ⟨rfl, rfl, rfl⟩ (by rintro p ⟨⟩)

theorem resumeOrStart_clean (s : EvidenceState) (sourceId : String) (plan : OffboardingPlan)
    (opts : OffboardingOptions) :
    Appends CleanPurge s.events (resumeOrStart env s sourceId plan opts).1.events := by
  unfold resumeOrStart
  split
  · exact .refl
  · exact (appends_clean s.tick _ ⟨rfl, rfl, rfl⟩ (by rintro p ⟨⟩)).trans (appends_audit _ _ _ _)

theorem retireSource_clean (s : EvidenceState) (sourceId : String) :
    Appends CleanPurge s.events (retireSource env s sourceId).events := by
  unfold retireSource
  split
  · exact .refl
  · exact appends_clean s.tick _ ⟨rfl, rfl, rfl⟩ (by rintro p ⟨⟩)

theorem deleteBody_events (s : EvidenceState) (hash : String) (failure : Option JsError) :
    (deleteBody s hash failure).1.events = s.events := by
  unfold deleteBody
  split <;> rfl

theorem deleteBody_ok {failure : Option JsError} (h : (deleteBody s hash failure).2 = .ok ()) :
    hash ≠ "" := by
  rintro rfl
  unfold deleteBody PayloadStore.delete at h
  simp [assertHash] at h

theorem purgeNext_clean (s : EvidenceState) (offboardingId sourceId : String)
    (failure : Option JsError) (n : Nat) (caller : PurgeCaller) (hashes : List String)
    (h : ∀ hash ∈ hashes, hash ∉ disputedHashes s.events) :
    CleanSegment s.events (purgeNext s offboardingId sourceId failure n caller hashes) := by
  cases hashes with
  | nil =>
    refine ⟨.refl, ?_⟩
    rintro call ⟨⟩
    exact ⟨by rintro hash ⟨⟩, by rintro _ _ _ _ _ _ ⟨⟩⟩
  | cons hash rest =>
    have hevs := deleteBody_events s hash failure
    refine ⟨?_, ?_⟩
    · show Appends CleanPurge s.events (deleteBody s hash failure).1.events
      rw [hevs]
    · rintro call ⟨⟩
      refine ⟨?_, ?_⟩
      · show ∀ h' ∈ hash :: rest, h' ∉ disputedHashes (deleteBody s hash failure).1.events
        rw [hevs]
        exact h
      · intro _ _ hash' _ _ _ hcall
        simp only [Suspended.purging.injEq] at hcall
        obtain ⟨-, -, rfl, houtcome, -⟩ := hcall
        exact deleteBody_ok houtcome

theorem completeRun_clean (s : EvidenceState) (run : OffboardingRun) (purged : Nat) :
    CleanSegment s.events (completeRun env s run purged) := by
  unfold completeRun planNow
  split
  · rename_i heq
    obtain ⟨rfl, -⟩ := Prod.mk.inj heq
    exact cleanSegment_finished .refl
  · rename_i heq
    obtain ⟨rfl, -⟩ := Prod.mk.inj heq
    exact cleanSegment_finished
      ((appends_clean s.tick _ ⟨rfl, rfl, rfl⟩ (by rintro p ⟨⟩)).trans (appends_audit _ _ _ _))

variable {plan : OffboardingPlan}

/-- The payloads of a plan made now are not disputed now. -/
theorem plan_pending {sourceId : String} {now : ℚ}
    (h : planOffboarding env.host s.events sourceId now = .ok plan) :
    ∀ hash ∈ plan.purge.map (·.hash), hash ∉ disputedHashes s.events :=
  forall_mem_map.2 (purge_undisputed h)

theorem sweepSources_clean (failure : Option JsError) (total : Nat) (sources : List String)
    (s : EvidenceState) : CleanSegment s.events (sweepSources env failure total s sources) := by
  induction sources generalizing s with
  | nil => exact cleanSegment_finished .refl
  | cons _ _ ih =>
    unfold sweepSources planNow
    split
    · rename_i heq
      obtain ⟨rfl, -⟩ := Prod.mk.inj heq
      exact ih s.tick
    rename_i heq
    obtain ⟨rfl, hplan⟩ := Prod.mk.inj heq
    split
    · exact ih s.tick
    split
    · exact ih s.tick
    · exact purgeNext_clean s.tick _ _ _ _ _ _ (plan_pending hplan)

theorem executePlan_clean (sourceId : String) (opts : OffboardingOptions) (failure : Option JsError)
    (h : ∀ hash ∈ plan.purge.map (·.hash), hash ∉ disputedHashes s.events) :
    CleanSegment s.events (executePlan env s sourceId opts plan failure) := by
  -- Starting the run and retiring the source come first; neither touches a hold.
  have hstarted : Appends CleanPurge s.events (resumeOrStart env s sourceId plan opts).1.events :=
    resumeOrStart_clean s sourceId plan opts
  unfold executePlan
  generalize resumeOrStart env s sourceId plan opts = out at hstarted ⊢
  obtain ⟨t, offboardingId⟩ := out
  dsimp only at hstarted ⊢
  have hret : Appends CleanPurge s.events
      (if plan.alreadyRetired = true then t else retireSource env t sourceId).events := by
    split
    · exact hstarted
    · exact hstarted.trans (retireSource_clean t sourceId)
  have hpend : ∀ hash ∈ plan.purge.map (·.hash), hash ∉ disputedHashes
      (if plan.alreadyRetired = true then t else retireSource env t sourceId).events := by
    intro hash hmem
    rw [disputedHashes_of_appends hret]
    exact h hash hmem
  split
  · refine ⟨hret, ?_⟩
    rintro call ⟨⟩
    exact ⟨hpend, by rintro _ _ _ _ _ _ ⟨⟩⟩
  · exact CleanSegment.trans hret (purgeNext_clean _ _ _ _ _ _ _ hpend)

theorem offboard_clean (s : EvidenceState) (sourceId : String) (opts : OffboardingOptions)
    (failure : Option JsError) : CleanSegment s.events (offboard env s sourceId opts failure) := by
  unfold offboard planNow
  split
  · rename_i heq
    obtain ⟨rfl, -⟩ := Prod.mk.inj heq
    exact cleanSegment_finished .refl
  rename_i heq
  obtain ⟨rfl, hplan⟩ := Prod.mk.inj heq
  split
  · exact cleanSegment_finished .refl
  split
  · exact cleanSegment_finished .refl
  · exact executePlan_clean (s := s.tick) sourceId opts failure (plan_pending hplan)

theorem purgeReturned_clean (s : EvidenceState) (n : Nat) (caller : PurgeCaller)
    (failure : Option JsError) : CleanSegment s.events (purgeReturned env s n caller failure) := by
  cases caller with
  | offboard run => exact completeRun_clean s run n
  | sweep sources total => exact sweepSources_clean failure (total + n) sources s

/-- The segment after an await appends a purge only for a body whose deletion was sound. -/
theorem resumeCall_clean (h : call.Sound s.events) (revocation failure : Option JsError) :
    CleanSegment s.events (resumeCall env s revocation failure call) := by
  cases call with
  | revoking run credentialRef =>
    cases revocation with
    | some => exact cleanSegment_finished (appends_audit _ _ _ _)
    | none =>
      have hgrown : Appends CleanPurge s.events (s.append env
          (.credentialRevoked ⟨run.offboardingId, run.sourceId, credentialRef⟩)).events :=
        appends_clean s _ ⟨rfl, rfl, rfl⟩ (by rintro p ⟨⟩)
      refine CleanSegment.trans hgrown (purgeNext_clean _ _ _ _ _ _ _ ?_)
      exact (h.appends hgrown).pending
  | purging offboardingId sourceId hash outcome rest n caller =>
    cases outcome with
    | error e =>
      have hgrown : Appends CleanPurge s.events
          (stepFailed env s offboardingId ("purge " ++ hash) e).1.events :=
        appends_audit _ _ _ _
      cases caller with
      | offboard => exact cleanSegment_finished hgrown
      | sweep =>
        refine ⟨hgrown, ?_⟩
        rintro call ⟨⟩
        exact ⟨by rintro hash ⟨⟩, by rintro _ _ _ _ _ _ ⟨⟩⟩
    | ok =>
      have hne : hash ≠ "" := h.deleted offboardingId sourceId hash rest n caller rfl
      have hfree : ¬ReferencedByOpenHold s.events hash := by
        intro href
        exact h.pending hash mem_cons_self (mem_disputedHashes.2 ⟨href, hne⟩)
      have hgrown : Appends CleanPurge s.events (s.append env (.payloadPurged ⟨hash, sourceId,
          offboardingId, "beyond licence retention after offboarding"⟩)).events := by
        refine appends_event s _ ⟨⟨rfl, rfl, rfl⟩, ?_⟩
        rintro p ⟨⟩
        exact hfree
      refine CleanSegment.trans hgrown (purgeNext_clean _ _ _ _ _ _ _ ?_)
      intro hash' hmem
      exact (h.appends hgrown).pending hash' (mem_cons_of_mem _ hmem)
  | purged n caller => exact purgeReturned_clean s n caller failure

/-! ## The gate -/

/-- What the gate may append: the decision it asks for, a hold on that decision, audit events. -/
inductive GateEvent (env : HoldEnv) (s : EvidenceState) (answer : Except JsError DecideAnswer) :
    List EvidenceEvent → EventBody → Prop
  | audit (events : List EvidenceEvent) (e : AuditEvent) : GateEvent env s answer events (.audit e)
  | decision (a : DecideAnswer) (ha : answer = .ok a) :
      GateEvent env s answer s.events (.decision a.decision)
  | placed (a : DecideAnswer) (p : HoldPlacedEvent) (ha : answer = .ok a)
      (hid : p.decisionId = a.decision.decisionId) :
      GateEvent env s answer (s.appendEvent env ⟨.decision a.decision, a.recordedAt⟩).events
        (.holdPlaced p)

variable {candidate : HoldCandidate} {governed : Bool} {answer : Except JsError DecideAnswer}

theorem gate_events : Appends (GateEvent env s answer) s.events
    (gate env s candidate governed answer).1.events := by
  refine gate_appends .audit .decision ?_
  intro a p ha hplaced
  exact .placed a p ha hplaced.decisionId

/-- A gate call whose decision rests on other payloads makes no reference to the payload. -/
theorem gate_unreferenced (h : ¬ReferencedByOpenHold s.events hash)
    (hnew : ∀ a, answer = .ok a → decisionById s.events a.decision.decisionId = none)
    (hoth : ∀ a, answer = .ok a → ∀ c ∈ a.decision.contributing,
      payloadOf s.events c.readingId ≠ some hash) :
    ¬ReferencedByOpenHold (gate env s candidate governed answer).1.events hash := by
  refine Extends.invariant (fun es => ¬ReferencedByOpenHold es hash) gate_events h ?_
  rintro es ⟨seq, recordedAt, body⟩ hes hevent
  cases hevent with
  | audit =>
    rw [referencedByOpenHold_append ⟨rfl, rfl, rfl⟩]
    exact hes
  | decision a ha => exact unreferenced_append_decision hes (hoth a ha)
  | placed a _ ha hid =>
    refine unreferenced_append_placed hes (isRecorded_appendEvent (hnew a ha)) hid ?_
    intro c hc
    rw [show payloadOf (s.appendEvent env ⟨.decision a.decision, a.recordedAt⟩).events
      c.readingId = payloadOf s.events c.readingId from payloadOf_append rfl _]
    exact hoth a ha c hc

/-! ## Runs -/

/-- No gate call disturbs a purge: it records a decision under a new id, on payloads that no call
has still to purge. -/
def Undisturbed (s : OffboardingState) : OffboardingLabel → Prop
  | .gate _ _ (.ok a) => decisionById s.store.events a.decision.decisionId = none ∧
      ∀ call ∈ s.running, ∀ hash ∈ call.pending, ∀ c ∈ a.decision.contributing,
        payloadOf s.store.events c.readingId ≠ some hash
  | _ => True

instance (s : OffboardingState) (l : OffboardingLabel) : Decidable (Undisturbed s l) := by
  unfold Undisturbed
  split <;> infer_instance

/-- What holds in every state of a run from the events `start`. -/
structure PurgeInv (start : List EvidenceEvent) (s : OffboardingState) : Prop where
  grown : Appends Unreferenced start s.store.events
  sound : ∀ call ∈ s.running, call.Sound s.store.events

variable {start : List EvidenceEvent} {s : OffboardingState}

theorem purgeInv_afterSegment {running : List Suspended}
    (h : PurgeInv start s) (hrunn : ∀ call ∈ running, call ∈ s.running)
    (hout : CleanSegment s.store.events out) : PurgeInv start (afterSegment s running out) := by
  have hgrown : Appends Unreferenced start out.1.events :=
    h.grown.trans (Extends.mono hout.grown fun _ _ hclean => hclean.2)
  have hsound : ∀ call ∈ running, call.Sound out.1.events := by
    intro call hmem
    exact (h.sound call (hrunn call hmem)).appends hout.grown
  obtain ⟨store, ending⟩ := out
  cases ending with
  | finished => exact ⟨hgrown, hsound⟩
  | suspended call =>
    refine ⟨hgrown, ?_⟩
    exact forall_mem_snoc.2 ⟨hsound, hout.sound call rfl⟩

theorem purgeInv_gate (h : PurgeInv start s)
    (hund : Undisturbed s (.gate candidate governed answer)) :
    PurgeInv start { s with store := (gate env s.store candidate governed answer).1 } := by
  refine ⟨h.grown.trans (Extends.mono gate_events ?_), ?_⟩
  · -- The gate appends no purge.
    intro es e hevent p hp
    rw [hp] at hevent
    cases hevent
  · intro call hmem
    refine ⟨?_, (h.sound call hmem).deleted⟩
    intro hash hhash hdisputed
    obtain ⟨href, hne⟩ := mem_disputedHashes.1 hdisputed
    refine gate_unreferenced ?_ ?_ ?_ href
    · intro hbef
      exact (h.sound call hmem).pending hash hhash (mem_disputedHashes.2 ⟨hbef, hne⟩)
    · rintro a rfl
      exact hund.1
    · rintro a rfl c hc
      exact hund.2 call hmem hash hhash c hc

theorem purgeInv_step {s' : OffboardingState} {l : OffboardingLabel} (h : PurgeInv start s)
    (hund : Undisturbed s l) (hstep : OffboardingSteps env s l s') : PurgeInv start s' := by
  unfold OffboardingSteps at hstep
  cases l with
  | offboard =>
    cases hstep
    exact purgeInv_afterSegment h (fun _ => id) (offboard_clean _ _ _ _)
  | sweepRetention =>
    cases hstep
    exact purgeInv_afterSegment h (fun _ => id) (sweepSources_clean _ _ _ _)
  | resume _ revocation failure =>
    simp only [offboardingStep] at hstep
    split at hstep
    · cases hstep
    rename_i call hcall
    cases hstep
    refine purgeInv_afterSegment h (fun _ => mem_of_mem_eraseIdx) ?_
    exact resumeCall_clean (h.sound call (mem_of_getElem? hcall)) revocation failure
  | gate =>
    cases hstep
    exact purgeInv_gate h hund

/-- In every run of offboarding and sweep calls, however interleaved and whatever deletions fail,
with gate calls that record no decision on a payload still to be purged: whenever a purge is
recorded, no reading behind the original or the current decision of an open hold refers to the
payload at that moment. -/
theorem purged_unreferenced {env : HoldEnv} {s t : OffboardingState} (hidle : s.running = [])
    (hrun : RunWhere (OffboardingSteps env) Undisturbed s t) {mid post : List EvidenceEvent}
    {e : EvidenceEvent} {p : PayloadPurgedEvent}
    (hevents : t.store.events = s.store.events ++ mid ++ e :: post)
    (hdata : e.data = .payloadPurged p) : ¬ReferencedByOpenHold (s.store.events ++ mid) p.hash := by
  have hstart : PurgeInv s.store.events s := by
    refine ⟨.refl, ?_⟩
    rw [hidle]
    rintro call ⟨⟩
  have hinv : PurgeInv s.store.events t :=
    hrun.invariant (PurgeInv s.store.events) hstart fun _ _ _ => purgeInv_step
  exact Extends.event hinv.grown hevents p hdata

/-! ## A source of two feeds -/

/-- A source with a reading on the feed `eth`, and a later version on the feed `btc`. -/
def twoFeedLedger : EvidenceLedger :=
  EvidenceLedger.empty.appendAll
    [(0, ⟨.quorumPolicy { ethPolicy with expectedSources := 2 }, none⟩),
     (0, ⟨.sourceVersion { ethSource with retentionDays := 0, credentialRef := some "key" }, none⟩),
     (0, ⟨.sourceVersion { ethSource with
       feedId := "btc", version := 2, retentionDays := 0, credentialRef := some "key" }, none⟩),
     (0, ⟨.payloadStored ⟨ethPayloadHash, "s1", 10⟩, none⟩),
     (0, ⟨.reading { ethReading with observedAt := 1, payloadHash := some ethPayloadHash }, none⟩)]

def twoFeedStart : OffboardingState := ⟨⟨twoFeedLedger, ⟨[ethPayloadHash]⟩, 0⟩, [], []⟩

/-- The source is offboarded and its credential is being deleted. -/
def offboardS1 : OffboardingLabel := .offboard "s1" ⟨"ops", "contract ended", false, false⟩ none

/-- The purge recorded when the deletion of the body has been awaited. -/
def purgedBody (seq : Nat) (recordedAt : ℚ) : EvidenceEvent where
  seq
  recordedAt
  data := .payloadPurged
    ⟨ethPayloadHash, "s1", "ob_s1:4:5", "beyond licence retention after offboarding"⟩

theorem purged_unreferenced_offboarding :
    ∃ s t, RunWhere (OffboardingSteps plainHoldEnv) Undisturbed twoFeedStart s ∧
      RunWhere (OffboardingSteps plainHoldEnv) Undisturbed twoFeedStart t ∧
      t.store.events = s.store.events ++ [purgedBody 10 9] ∧
      ¬ReferencedByOpenHold s.store.events ethPayloadHash := by
  have hrun : RunWhere (OffboardingSteps plainHoldEnv) Undisturbed twoFeedStart _ :=
    .performed [offboardS1, .resume 0 none none, .resume 0 none none] (by decide +kernel)
  refine ⟨_, _, .performed [offboardS1, .resume 0 none none] (by decide +kernel), hrun,
    by decide +kernel, ?_⟩
  generalize hevents : EvidenceState.events _ = events
  have hbefore : events = twoFeedStart.store.events ++ events.drop 5 := by
    rw [← hevents]
    decide +kernel
  rw [hbefore]
  refine @purged_unreferenced plainHoldEnv twoFeedStart _ rfl hrun _ [] (purgedBody 10 9) _ ?_ rfl
  rw [← hevents]
  decide +kernel

/-- A gate call whose decision is the engine's, under a new id. -/
def DecidedByEngine (env : HoldEnv) (s : OffboardingState) : OffboardingLabel → Prop
  | .gate candidate _ (.ok a) => decisionById s.store.events a.decision.decisionId = none ∧
      .ok a = engineAnswer env s.store candidate.feedId a.decision.decisionId
  | _ => True

instance (env : HoldEnv) (s : OffboardingState) (l : OffboardingLabel) :
    Decidable (DecidedByEngine env s l) := by
  unfold DecidedByEngine
  split <;> infer_instance

/-- While the credential of the source is being deleted, a payout on the other feed is held on its
reading; then the payload of the reading is purged. -/
theorem purged_under_open_hold :
    ∃ s t e p, RunWhere (OffboardingSteps plainHoldEnv) (DecidedByEngine plainHoldEnv)
        twoFeedStart s ∧
      OffboardingSteps plainHoldEnv s (.resume 0 none none) t ∧
      t.store.events = s.store.events ++ [e] ∧ e.data = .payloadPurged p ∧
      ReferencedByOpenHold s.store.events p.hash :=
  ⟨_, _, purgedBody 13 12, _, .performed
    [offboardS1, .gate ethCandidate true (.ok ⟨ethDecision "d1" 8, some 8⟩), .resume 0 none none]
    (by decide +kernel), (Option.some_get (by decide +kernel)).symm, by decide +kernel, rfl,
    (mem_disputedHashes.1 (by decide +kernel)).1⟩

end Refract.Consensus
