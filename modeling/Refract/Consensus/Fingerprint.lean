import Refract.Consensus.LedgerView

/-!
# Mirrored sources

`analysePair` of `fingerprint.ts` aligns the readings of two sources on a feed at every lag of a
range, and reports the lag with the largest match ratio, rounded to four decimals. Whether the pair
is flagged is a matter of three limits at the reported lag (`Flags`), so a lag that reaches all
three is lost when a lag that does not has a larger ratio (`mirror_missed`). `mirror_found` says
that the pair is flagged exactly if a lag that reaches them is preferred to all that do not.
-/

namespace Refract.Consensus

open Lib List

/-- The settings that the comparison of two series reads. -/
structure MirrorDetectionConfig where
  bucketMs : ℚ
  bucketMs_pos : 0 < bucketMs
  relativeTolerance : ℚ
  maxLagBuckets : Nat
  minInformativeSamples : Nat
  minMatchRatio : ℚ
  minDistinctValues : Nat

/-- Rounding to 12 significant digits, and the hash of a feed, a canonical value and a bucket. -/
structure FingerprintHost where
  canonicalValue : ℚ → ℚ
  fingerprint : String → ℚ → Int → String

structure MatchedSample where
  bucket : Int
  readingA : String
  readingB : String
  valueA : ℚ
  valueB : ℚ

structure PairAnalysis where
  feedId : String
  sourceA : String
  sourceB : String
  lagBuckets : Int
  informativeSamples : Nat
  matchCount : Nat
  exactMatches : Nat
  matchRatio : ℚ
  distinctMatchedValues : Nat
  mirrored : Bool
  evidence : List MatchedSample

/-! ## Series -/

structure BucketPoint where
  value : ℚ
  readingId : String
  fingerprint : String
  observedAt : ℚ
  seq : Nat

def bucketOf (cfg : MirrorDetectionConfig) (observedAt : ℚ) : Int := ⌊observedAt / cfg.bucketMs⌋

variable (host : FingerprintHost) (cfg : MirrorDetectionConfig) (feedId : String)

def fingerprintReading (value observedAt : ℚ) : String :=
  host.fingerprint feedId (host.canonicalValue value) (bucketOf cfg observedAt)

/-- The last value of a source in every bucket. -/
def series (readings : List ReadingState) : OrdMap Int BucketPoint :=
  readings.foldl (fun byBucket r =>
    let point : BucketPoint := ⟨host.canonicalValue r.value, r.readingId,
      fingerprintReading host cfg feedId r.value r.observedAt, r.observedAt, r.seq⟩
    match byBucket.get? (bucketOf cfg r.observedAt) with
    | none => byBucket.set (bucketOf cfg r.observedAt) point
    | some prev =>
      if prev.observedAt < r.observedAt ∨ r.observedAt = prev.observedAt ∧ prev.seq < r.seq then
        byBucket.set (bucketOf cfg r.observedAt) point
      else byBucket) OrdMap.empty

def near (a b tol : ℚ) : Bool := |a - b| ≤ tol * max |a| |b|

/-! ## One lag -/

/-- What the loop over the buckets has counted; `prev` are the last values of both series. -/
structure LagScan where
  informative : Nat
  matchCount : Nat
  distinct : List ℚ
  evidence : List MatchedSample
  prev : Option (ℚ × ℚ)

def LagScan.start : LagScan := ⟨0, 0, [], [], none⟩

/-- One bucket in which both series have a value. -/
def LagScan.compare (scan : LagScan) (bucket : Int) (pa pb : BucketPoint) : LagScan :=
  let moved := scan.prev.any fun prev =>
    !near pa.value prev.1 cfg.relativeTolerance || !near pb.value prev.2 cfg.relativeTolerance
  if !moved then { scan with prev := some (pa.value, pb.value) }
  else if near pa.value pb.value cfg.relativeTolerance then
    { informative := scan.informative + 1
      matchCount := scan.matchCount + 1
      distinct := scan.distinct.insert pa.value
      evidence := if scan.evidence.length < 10 then
          scan.evidence ++ [⟨bucket, pa.readingId, pb.readingId, pa.value, pb.value⟩]
        else scan.evidence
      prev := some (pa.value, pb.value) }
  else { scan with informative := scan.informative + 1, prev := some (pa.value, pb.value) }

variable (a b : OrdMap Int BucketPoint)

/-- The buckets of the first series, in order. -/
def bucketsOf : List Int := sortBy compare a.keys

/-- The loop over the buckets, with the second series shifted by `lag`. -/
def scanLag (lag : Int) : LagScan :=
  (bucketsOf a).foldl (fun scan bucket =>
    match a.get? bucket, b.get? (bucket + lag) with
    | some pa, some pb => scan.compare cfg bucket pa pb
    | _, _ => scan) .start

def LagScan.ratio (scan : LagScan) : ℚ :=
  if scan.informative = 0 then 0 else scan.matchCount / scan.informative

/-- `Math.round(ratio * 1e4) / 1e4`. -/
def LagScan.rounded (scan : LagScan) : ℚ := mathRound (scan.ratio * 10000) / 10000

/-- The three limits that a flagged pair reaches. -/
def LagScan.Flags (scan : LagScan) : Prop :=
  cfg.minInformativeSamples ≤ scan.informative ∧ cfg.minMatchRatio ≤ scan.ratio ∧
    cfg.minDistinctValues ≤ scan.distinct.length

instance (scan : LagScan) : Decidable (scan.Flags cfg) := inferInstanceAs (Decidable (_ ∧ _))

/-! ## The best lag -/

variable (sourceA sourceB : String)

def candidateAt (lag : Int) : PairAnalysis :=
  let scan := scanLag cfg a b lag
  { feedId, sourceA, sourceB, lagBuckets := lag
    informativeSamples := scan.informative
    matchCount := scan.matchCount
    exactMatches := ((bucketsOf a).filter fun k =>
      (b.get? k).map (·.fingerprint) = (a.get? k).map (·.fingerprint)).length
    matchRatio := scan.rounded
    distinctMatchedValues := scan.distinct.length
    mirrored := scan.Flags cfg
    evidence := scan.evidence }

/-- The larger ratio, and of equal ones the smaller lag. -/
def better (best : Option PairAnalysis) (candidate : PairAnalysis) : Option PairAnalysis :=
  match best with
  | none => some candidate
  | some best =>
    if best.matchRatio < candidate.matchRatio ∨ candidate.matchRatio = best.matchRatio ∧
        |candidate.lagBuckets| < |best.lagBuckets| then some candidate
    else some best

/-- The lags from `-maxLagBuckets` to `maxLagBuckets`. -/
def lags : List Int :=
  (range (2 * cfg.maxLagBuckets + 1)).map fun k : Nat => (k : Int) - cfg.maxLagBuckets

/-- The comparison of two lists of readings at a lag. -/
def alignedAt (readingsA readingsB : List ReadingState) (lag : Int) : LagScan :=
  scanLag cfg (series host cfg feedId readingsA) (series host cfg feedId readingsB) lag

/-- Compares two sources on the same feed. -/
def analysePair (readingsA readingsB : List ReadingState) : Option PairAnalysis :=
  let a := series host cfg feedId readingsA
  let b := series host cfg feedId readingsB
  (lags cfg).foldl (fun best lag => better best (candidateAt cfg feedId a b sourceA sourceB lag))
    none

/-! ## What is reported -/

variable {cfg}

theorem mem_lags {lag : Int} : lag ∈ lags cfg ↔ |lag| ≤ cfg.maxLagBuckets := by
  rw [lags, mem_map, abs_le]
  constructor
  · rintro ⟨k, hk, rfl⟩
    have hlt := mem_range.1 hk
    omega
  · intro h
    exact ⟨(lag + cfg.maxLagBuckets).toNat, mem_range.2 (by omega), by omega⟩

theorem lags_sorted (cfg : MirrorDetectionConfig) : (lags cfg).Pairwise (· < ·) := by
  refine pairwise_map.2 (pairwise_lt_range.imp ?_)
  intro j k hlt
  omega

/-- The loop prefers the lag `x` to `y`: it has the larger ratio; or the ratios are equal, and `x`
is closer to 0, or as close and comes first. -/
def Preferred (ratio : Int → ℚ) (x y : Int) : Prop :=
  ratio y < ratio x ∨ ratio x = ratio y ∧ (|x| < |y| ∨ |x| = |y| ∧ x < y)

theorem Preferred.trans {ratio : Int → ℚ} {x y z : Int} (hxy : Preferred ratio x y)
    (hyz : Preferred ratio y z) : Preferred ratio x z := by
  grind [Preferred]

/-- The report is the candidate of the lag that is preferred to all others. -/
theorem foldl_better {c : Int → PairAnalysis} (hc : ∀ lag, (c lag).lagBuckets = lag)
    {lags : List Int} (hsorted : lags.Pairwise (· < ·)) (hne : lags ≠ []) :
    ∃ lag ∈ lags, lags.foldl (fun best lag => better best (c lag)) none = some (c lag) ∧
      ∀ other ∈ lags, other ≠ lag → Preferred (fun lag => (c lag).matchRatio) lag other := by
  -- The loop goes from left to right, so the induction takes the last lag off.
  induction lags using reverseRecOn with
  | nil => exact absurd rfl hne
  | append_singleton lags last ih =>
    simp only [foldl_append, foldl_cons, foldl_nil, forall_mem_snoc]
    rcases eq_or_ne lags [] with rfl | hlags
    · exact ⟨last, by simp, rfl, by simp, by simp⟩
    obtain ⟨hsorted, hlast⟩ := pairwise_snoc.1 hsorted
    obtain ⟨lag, hlag, hbest, hmax⟩ := ih hsorted hlags
    have hlt := hlast lag hlag
    rw [hbest, better, hc, hc]
    split
    · rename_i hbetter
      have hpreferred : Preferred (fun lag => (c lag).matchRatio) last lag := by
        grind [Preferred]
      refine ⟨last, by simp, rfl, fun other hother _ => ?_, by simp⟩
      rcases eq_or_ne other lag with rfl | hother'
      · exact hpreferred
      · exact hpreferred.trans (hmax other hother hother')
    · refine ⟨lag, mem_append_left _ hlag, rfl, hmax, fun _ => ?_⟩
      grind [Preferred]

/-- A pair is flagged exactly if a lag reaches the three limits and is preferred to every lag that
does not. -/
theorem mirror_found (readingsA readingsB : List ReadingState) :
    let aligned := alignedAt host cfg feedId readingsA readingsB
    (∃ report, analysePair host cfg feedId sourceA sourceB readingsA readingsB = some report ∧
      report.mirrored = true) ↔
      ∃ lag : Int, |lag| ≤ cfg.maxLagBuckets ∧ (aligned lag).Flags cfg ∧
        ∀ other : Int, |other| ≤ cfg.maxLagBuckets → ¬(aligned other).Flags cfg →
          Preferred (fun lag => (aligned lag).rounded) lag other := by
  intro aligned
  obtain ⟨best, hbest, hreport, hmax⟩ := foldl_better
    (c := candidateAt cfg feedId (series host cfg feedId readingsA)
      (series host cfg feedId readingsB) sourceA sourceB)
    (fun _ => rfl) (lags_sorted cfg) (ne_nil_of_mem (mem_lags.2 (by simp : |(0 : Int)| ≤ _)))
  constructor
  · rintro ⟨report, hfound, hmirrored⟩
    cases hreport.symm.trans hfound
    have hflags : (aligned best).Flags cfg := of_decide_eq_true hmirrored
    refine ⟨best, mem_lags.1 hbest, hflags, fun other hother hnot => ?_⟩
    exact hmax other (mem_lags.2 hother) fun h => hnot (h ▸ hflags)
  · rintro ⟨lag, hlag, hflags, hothers⟩
    refine ⟨_, hreport, decide_eq_true ?_⟩
    by_contra hnot
    have hne : lag ≠ best := fun h => hnot (h ▸ hflags)
    have hcycle := (hothers best (mem_lags.1 hbest) hnot).trans (hmax lag (mem_lags.2 hlag) hne)
    grind [Preferred]

/-- Buckets of one millisecond; two matching samples of two values, half of the informative ones. -/
def twoSamples : MirrorDetectionConfig := ⟨1, one_pos, 1 / 1000, 1, 2, 1 / 2, 2⟩

def plainFingerprints : FingerprintHost := ⟨id, fun feedId _ _ => feedId⟩

/-- Readings of the values at the times. -/
def sampled (points : List (ℚ × ℚ)) : List ReadingState :=
  points.map fun p => ⟨"reading", "usdc", "source", p.2, p.1, none, none, .verified, 0⟩

/-- Two of three informative buckets match, but with a lag of one bucket the only one does; so that
lag is reported, and the pair is not flagged. -/
theorem mirror_missed :
    (alignedAt plainFingerprints twoSamples "usdc" (sampled [(0, 1), (2, 2), (4, 3), (6, 4)])
        (sampled [(0, 1), (2, 2), (3, 9), (4, 3), (5, 3), (6, 8)]) 0).Flags twoSamples ∧
      (analysePair plainFingerprints twoSamples "usdc" "a" "b"
        (sampled [(0, 1), (2, 2), (4, 3), (6, 4)])
        (sampled [(0, 1), (2, 2), (3, 9), (4, 3), (5, 3), (6, 8)])).map
          (fun report => (report.lagBuckets, report.mirrored)) = some (1, false) := by
  decide +kernel

end Refract.Consensus
