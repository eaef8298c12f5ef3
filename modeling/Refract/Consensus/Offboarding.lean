import Refract.Consensus.HoldEvents

/-!
# The offboarding plan

`planOffboarding` of `offboarding.ts`: what offboarding a source would do, computed from the ledger
alone. Each payload of the source is purged, retained with a reason, or left out (`planPayload`).
A payload that a decision behind an open hold refers to is not purged (`purge_undisputed`), as far
as the ledger goes that the plan was computed from.
-/

namespace Refract.Consensus

open Lib

def dayMs : ℚ := 86400000

/-! ## The plan -/

inductive CredentialAction where
  | revoke
  | alreadyRevoked

structure CredentialPlan where
  credentialRef : String
  action : CredentialAction

structure QuorumImpact where
  policyVersion : Option ℚ
  minSources : Option ℚ
  remainingEligibleSources : Nat
  dropsBelowQuorum : Bool

structure OpenDispute where
  holdId : String
  policyId : String
  status : HoldStatus

structure PurgeItem where
  hash : String
  storedAt : String
  deriving DecidableEq, Repr

structure RetainItem where
  hash : String
  storedAt : String
  reason : RetainReason
  purgeAfter : Option String
  deriving DecidableEq, Repr

/-- Evidence that stays in the ledger no matter what is purged. -/
structure PreservedCounts where
  readings : Nat
  decisions : Nat
  payloadHashes : Nat

structure OffboardingPlan where
  sourceId : String
  providerId : String
  feedId : String
  generatedAt : String
  alreadyRetired : Bool
  retireAsVersion : Option ℚ
  credential : Option CredentialPlan
  quorum : QuorumImpact
  openDisputes : List OpenDispute
  purge : List PurgeItem
  retain : List RetainItem
  alreadyPurged : Nat
  preserved : PreservedCounts

/-! ## What the plan reads from the ledger -/

/-- Strings as conditions: absent and empty are false. -/
def truthy (s : Option String) : Option String := s.filter (· ≠ "")

section Lookups

variable (events : List EvidenceEvent)

/-- The last non-retired version recorded for a source, whose licence terms apply. -/
def licensedVersion (sourceId : String) : Option SourceVersionEvent :=
  events.reverse.findSome? fun e => match e.data with
    | .sourceVersion v => if v.sourceId = sourceId ∧ v.status ≠ .retired then some v else none
    | _ => none

/-- The payload hash of every reading; of two readings under one id the later counts. -/
def readingHashes : OrdMap String (Option String) :=
  events.foldl (fun m e => match e.data with
    | .reading r => m.set r.readingId r.payloadHash
    | _ => m) OrdMap.empty

/-- The payload of a reading. -/
def payloadOf (readingId : String) : Option String := ((readingHashes events).get? readingId).join

/-- Holds that are neither settled nor denied. -/
def openHolds : List ClaimHold := (foldHolds events).values.filter fun h => !h.status.isTerminal

/-- The readings behind the original and the current decision of a hold. -/
def disputedReadings (hold : ClaimHold) : List ContributingReading :=
  [hold.decisionId, hold.currentDecisionId].eraseDups.flatMap fun id =>
    ((decisionById events id).map (·.data.contributing)).getD []

/-- The payloads that open holds keep. -/
def disputedHashes : List String :=
  (openHolds events).flatMap fun hold =>
    (disputedReadings events hold).filterMap fun c => truthy (payloadOf events c.readingId)

def openDisputes (sourceId : String) : List OpenDispute :=
  ((openHolds events).filter fun hold =>
    (disputedReadings events hold).any fun c => c.sourceId = sourceId).map fun hold =>
      ⟨hold.holdId, hold.policyId, hold.status⟩

/-- The status of the last version recorded for each source. -/
def lastStatus : OrdMap String SourceStatus :=
  events.foldl (fun m e => match e.data with
    | .sourceVersion v => m.set v.sourceId v.status
    | _ => m) OrdMap.empty

/-- Payloads referenced by other sources that are not retired. -/
def sharedHashes (sourceId : String) : List String :=
  events.filterMap fun e => match e.data with
    | .reading r =>
      if r.sourceId ≠ sourceId ∧ (lastStatus events).get? r.sourceId ≠ some .retired then
        truthy r.payloadHash
      else none
    | _ => none

def purgedHashes : List String :=
  events.filterMap fun e => match e.data with
    | .payloadPurged p => some p.hash
    | _ => none

/-- When each payload was first stored. -/
def storedTimes : OrdMap String ℚ :=
  events.foldl (fun m e => match e.data with
    | .payloadStored p => if m.contains p.hash then m else m.set p.hash e.recordedAt
    | _ => m) OrdMap.empty

/-- Every payload the readings of a source reference or the source has stored. -/
def sourceHashes (sourceId : String) : List String :=
  ((events.filterMap fun e => match e.data with
      | .reading r => if r.sourceId = sourceId then truthy r.payloadHash else none
      | _ => none) ++
    (events.filterMap fun e => match e.data with
      | .payloadStored p => if p.sourceId = sourceId then some p.hash else none
      | _ => none)).eraseDups

def isRevoked (sourceId : String) (credentialRef : Option String) : Bool :=
  events.any fun e => match e.data with
    | .credentialRevoked c => c.sourceId = sourceId ∧ some c.credentialRef = credentialRef
    | _ => false

def preservedCounts (sourceId : String) : PreservedCounts where
  readings := (events.filter fun e => match e.data with
    | .reading r => r.sourceId = sourceId
    | _ => false).length
  decisions := (events.filter fun e => match e.data with
    | .decision d => d.contributing.any fun c => c.sourceId = sourceId
    | _ => false).length
  payloadHashes := (sourceHashes events sourceId).length

end Lookups

/-! ## Payloads -/

/-- What becomes of one payload. -/
inductive PayloadFate where
  | alreadyPurged
  | neverStored
  | retain (item : RetainItem)
  | purge (item : PurgeItem)
  deriving DecidableEq, Repr

/-- The body of the loop over the payloads. The rules are tried in this order: an open dispute,
another source that is not retired, the licence retention. -/
def planPayload (events : List EvidenceEvent) (sourceId : String) (retentionDays now : ℚ)
    (hash : String) : Except JsError PayloadFate :=
  if hash ∈ purgedHashes events then .ok .alreadyPurged
  else match (storedTimes events).get? hash with
  | none => .ok .neverStored
  | some storedAt => do
      let iso ← toISOString storedAt
      let purgeAfter := storedAt + retentionDays * dayMs
      if hash ∈ disputedHashes events then
        return .retain ⟨hash, iso, .openDispute, none⟩
      else if hash ∈ sharedHashes events sourceId then
        return .retain ⟨hash, iso, .sharedWithActiveSource, none⟩
      else if now < purgeAfter then
        let purgeAfterIso ← toISOString purgeAfter
        return .retain ⟨hash, iso, .withinLicenseRetention, some purgeAfterIso⟩
      else
        return .purge ⟨hash, iso⟩

def PayloadFate.purgeItem? : PayloadFate → Option PurgeItem
  | .purge item => some item
  | _ => none

def PayloadFate.retainItem? : PayloadFate → Option RetainItem
  | .retain item => some item
  | _ => none

/-! ## Quorum -/

/-- Sources of the feed that would be left. -/
def remainingEligible (host : Host) (events : List EvidenceEvent) (feedId sourceId : String)
    (now : ℚ) : Nat :=
  ((sourcesAt host events feedId now).filter fun s =>
    s.sourceId ≠ sourceId ∧ (s.status = .active ∨ s.status = .warmup) ∧ 0 < s.weight).length

def quorumImpact (host : Host) (events : List EvidenceEvent) (feedId sourceId : String)
    (alreadyRetired : Bool) (now : ℚ) : QuorumImpact :=
  let policy := policyAt events feedId now
  let remaining := remainingEligible host events feedId sourceId now
  { policyVersion := policy.map (·.data.version)
    minSources := policy.map (·.data.minSources)
    remainingEligibleSources := remaining
    dropsBelowQuorum := !alreadyRetired &&
      policy.any fun p => decide ((remaining : ℚ) < p.data.minSources) }

/-- `planOffboarding`. -/
def planOffboarding (host : Host) (events : List EvidenceEvent) (sourceId : String) (now : ℚ) :
    Except JsError OffboardingPlan :=
  match sourceVersionAt events sourceId none with
  | none => .error (.error ("unknown source " ++ sourceId))
  | some current => do
      let alreadyRetired := decide (current.data.status = .retired)
      let licensed := (licensedVersion events sourceId).getD current.data
      let fates ← collect ((sortBy compareUnits (sourceHashes events sourceId)).map
        (planPayload events sourceId licensed.retentionDays now))
      let generatedAt ← toISOString now
      return {
        sourceId
        providerId := current.data.providerId
        feedId := current.data.feedId
        generatedAt
        alreadyRetired
        retireAsVersion :=
          if alreadyRetired then none else some (latestSourceVersionNumber events sourceId + 1)
        credential := (truthy licensed.credentialRef).map fun ref =>
          ⟨ref, if isRevoked events sourceId licensed.credentialRef then .alreadyRevoked
            else .revoke⟩
        quorum := quorumImpact host events current.data.feedId sourceId alreadyRetired now
        openDisputes := openDisputes events sourceId
        purge := fates.filterMap (·.purgeItem?)
        retain := fates.filterMap (·.retainItem?)
        alreadyPurged := (fates.filter (· = .alreadyPurged)).length
        preserved := preservedCounts events sourceId }

/-! ## Purged payloads are not disputed -/

theorem planPayload_purge {events : List EvidenceEvent} {sourceId hash : String}
    {retentionDays now : ℚ} {item : PurgeItem}
    (h : planPayload events sourceId retentionDays now hash = .ok (.purge item)) :
    item.hash = hash ∧ hash ∉ disputedHashes events := by
  unfold planPayload at h
  split at h
  · cases h
  split at h
  · cases h
  obtain ⟨iso, -, h⟩ := exceptBind_eq_ok h
  dsimp only at h
  split at h
  · cases h
  rename_i hdisputed
  split at h
  · cases h
  split at h
  · obtain ⟨purgeAfterIso, -, h⟩ := exceptBind_eq_ok h
    cases h
  · cases h
    exact ⟨rfl, hdisputed⟩

/-- No payload on the purge list is kept by an open hold of the ledger the plan was made from. -/
theorem purge_undisputed {host : Host} {events : List EvidenceEvent} {sourceId : String} {now : ℚ}
    {plan : OffboardingPlan} (h : planOffboarding host events sourceId now = .ok plan) :
    ∀ item ∈ plan.purge, item.hash ∉ disputedHashes events := by
  unfold planOffboarding at h
  split at h
  · cases h
  obtain ⟨fates, hfates, h⟩ := exceptBind_eq_ok h
  obtain ⟨generatedAt, -, h⟩ := exceptBind_eq_ok h
  cases h
  intro item hitem
  obtain ⟨fate, hfate, hpurge⟩ := List.mem_filterMap.1 hitem
  obtain ⟨hash, -, hplanned⟩ := List.mem_map.1 (mem_of_collect hfates hfate)
  cases fate with
  | purge =>
    cases hpurge
    obtain ⟨hhash, hdisputed⟩ := planPayload_purge hplanned
    rw [hhash]
    exact hdisputed
  | alreadyPurged | neverStored | retain item' => cases hpurge

end Refract.Consensus
