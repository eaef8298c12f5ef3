import Refract.Consensus.LedgerView

/-!
# Evidence completeness

`assessEvidenceCompleteness` of `evidence-completeness.ts`: the gaps of a triggered decision that
keep it from being paid. It throws when a contributing reading names a payload hash that the payload
store does not accept as a file name. `assess_complete` says what an assessment without gaps has
established about the decision; a signature that has failed is not among the gaps.
-/

namespace Refract.Consensus

open Lib List

/-! ## The payload store -/

/-- The bodies a payload store holds, by hash. -/
structure PayloadStore where
  held : List String

/-- A lower-case hexadecimal digit. -/
def isHexDigit (c : Char) : Bool := ('0' ≤ c && c ≤ '9') || ('a' ≤ c && c ≤ 'f')

/-- Hashes double as file names. -/
def assertHash (hash : String) : Except JsError Unit :=
  if hash.toList.length = 64 ∧ hash.toList.all isHexDigit then .ok ()
  else .error (.error ("Invalid payload hash \"" ++ hash ++ "\""))

namespace PayloadStore

/-- `PayloadStore.has`. -/
def has (store : PayloadStore) (hash : String) : Except JsError Bool :=
  match assertHash hash with
  | .error e => .error e
  | .ok () => .ok (decide (hash ∈ store.held))

/-- `PayloadStore.delete`; deleting an absent body is a no-op. -/
def delete (store : PayloadStore) (hash : String) : Except JsError PayloadStore :=
  match assertHash hash with
  | .error e => .error e
  | .ok () => .ok ⟨store.held.filter fun h => h ≠ hash⟩

end PayloadStore

/-! ## Gaps -/

section Gaps

variable (host : Host) (events : List EvidenceEvent) (decision : DecisionEvent)

/-- The number of sources the policy in force at the decision expects. -/
def expectedSources : ℚ :=
  match policyAt events decision.feedId decision.atTime with
  | some policy => policy.data.expectedSources
  | none => 0

/-- Contributors that are not suspected mirrors of another. -/
def independentCount : Nat :=
  (decision.contributing.filter fun c => c.independent ≠ some false).length

/-- Fewer independent contributors than the policy expects. -/
def sourceGaps : List EvidenceGap :=
  let independent := independentCount decision
  let mirrored := decision.contributing.length - independent
  let version := match policyAt events decision.feedId decision.atTime with
    | some policy => host.numberToString policy.data.version
    | none => "undefined"
  if (independent : ℚ) < expectedSources events decision then
    [{ type := .insufficientSources
       detail := toString independent ++ " independent source(s) contributed" ++
         (if mirrored = 0 then "" else " (+" ++ toString mirrored ++ " suspected mirror)") ++
         "; policy v" ++ version ++ " expects " ++
         host.numberToString (expectedSources events decision)
       readingId := none
       sourceId := none }]
  else []

/-- The status a contributor had when the decision was made. -/
def statusAtDecision (sourceId : String) : Option SourceStatus :=
  ((sourcesAt host events decision.feedId decision.atTime).foldl
    (fun m s => m.set s.sourceId s.status) OrdMap.empty).get? sourceId

def warmupGaps (c : ContributingReading) : List EvidenceGap :=
  if statusAtDecision host events decision c.sourceId = some .warmup then
    [{ type := .sourceInWarmup
       detail := "source " ++ c.sourceId ++ " was in warm-up when the decision was made"
       readingId := some c.readingId
       sourceId := some c.sourceId }]
  else []

/-- The raw payload of a reading was not captured, or its body is not in the store. -/
def payloadMissing (payloads : PayloadStore) (reading : Option ReadingState) :
    Except JsError Bool :=
  match reading.bind (·.payloadHash) with
  | none => .ok true
  | some hash => (payloads.has hash).map (!·)

/-- The gaps of one contributor's reading. -/
def readingGaps (now : ℚ) (payloads : PayloadStore) (c : ContributingReading) :
    Except JsError (List EvidenceGap) :=
  let reading := readingById events c.readingId now
  (payloadMissing payloads reading).map fun missing =>
    (if missing then
      [{ type := .missingRawPayload
         detail := "raw payload for reading " ++ c.readingId ++ " (source " ++ c.sourceId ++
           ") is not in the evidence store"
         readingId := some c.readingId
         sourceId := some c.sourceId }]
    else []) ++
    (if reading.map (·.signature) = some .pending then
      [{ type := .signaturePending
         detail := "signature for reading " ++ c.readingId ++ " (source " ++ c.sourceId ++
           ") is still pending verification"
         readingId := some c.readingId
         sourceId := some c.sourceId }]
    else [])

/-- `assessEvidenceCompleteness`: an empty list means that the evidence is complete. -/
def assessEvidenceCompleteness (now : ℚ) (payloads : PayloadStore) :
    Except JsError (List EvidenceGap) :=
  let contributors := sortBy (fun a b => host.localeCompare a.readingId b.readingId)
    decision.contributing
  (collect (contributors.map (readingGaps events now payloads))).map fun gaps =>
    sourceGaps host events decision ++ contributors.flatMap (warmupGaps host events decision) ++
      gaps.flatten

end Gaps

/-- `describeGaps`. -/
def describeGaps (gaps : List EvidenceGap) : String :=
  if gaps = [] then "evidence complete"
  else "held for incomplete evidence (" ++
    String.intercalate ", " (gaps.map (·.type.text)).eraseDups ++ "): " ++
    String.intercalate "; " (gaps.map (·.detail))

/-! ## What an assessment without gaps establishes -/

/-- The evidence of a contributor, as far as the assessment looks at it. -/
def ContributorComplete (events : List EvidenceEvent) (now : ℚ) (payloads : PayloadStore)
    (c : ContributingReading) : Prop :=
  ∃ reading hash, readingById events c.readingId now = some reading ∧
    reading.payloadHash = some hash ∧ hash ∈ payloads.held ∧ reading.signature ≠ .pending

variable {payloads : PayloadStore}

theorem mem_of_has {hash : String} (h : payloads.has hash = .ok true) : hash ∈ payloads.held := by
  unfold PayloadStore.has at h
  split at h
  · cases h
  · simpa using h

theorem contributorComplete_of_readingGaps {events : List EvidenceEvent} {now : ℚ}
    {c : ContributingReading} (h : readingGaps events now payloads c = .ok []) :
    ContributorComplete events now payloads c := by
  obtain ⟨missing, hmissing, hgaps⟩ := exceptMap_eq_ok h
  simp only [append_eq_nil_iff, ite_eq_right_iff, cons_ne_nil, imp_false,
    Bool.not_eq_true] at hgaps
  obtain ⟨rfl, hpend⟩ := hgaps
  unfold payloadMissing at hmissing
  split at hmissing
  · cases hmissing
  rename_i hash hhash
  obtain ⟨reading, hreading, hhash⟩ := Option.bind_eq_some_iff.1 hhash
  obtain ⟨held, hhas, hheld⟩ := exceptMap_eq_ok hmissing
  rw [Bool.not_eq_false'] at hheld
  rw [hheld] at hhas
  refine ⟨reading, hash, hreading, hhash, mem_of_has hhas, ?_⟩
  intro hsig
  exact hpend (by rw [hreading, Option.map_some, hsig])

/-- An assessment without gaps: enough independent contributors, none of them in warm-up when the
decision was made, and for each a payload in the store and a signature that is not pending. -/
theorem assess_complete {host : Host} {events : List EvidenceEvent} {decision : DecisionEvent}
    {now : ℚ} (h : assessEvidenceCompleteness host events decision now payloads = .ok []) :
    expectedSources events decision ≤ independentCount decision ∧ ∀ c ∈ decision.contributing,
        statusAtDecision host events decision c.sourceId ≠ some .warmup ∧
          ContributorComplete events now payloads c := by
  obtain ⟨perReading, hcoll, hnone⟩ := exceptMap_eq_ok h
  simp only [append_eq_nil_iff, flatten_eq_nil_iff, flatMap_eq_nil_iff, mem_sortBy] at hnone
  obtain ⟨⟨hsrcs, hwarmup⟩, hgaps⟩ := hnone
  refine ⟨?_, fun c hc => ⟨?_, ?_⟩⟩
  · by_contra hfew
    simp [sourceGaps, not_le.1 hfew] at hsrcs
  · intro hstat
    have := hwarmup c hc
    simp [warmupGaps, hstat] at this
  · obtain ⟨own, hown, hmem⟩ := exists_of_collect hcoll (mem_map_of_mem (mem_sortBy.2 hc))
    rw [hgaps own hmem] at hown
    exact contributorComplete_of_readingGaps hown

end Refract.Consensus
