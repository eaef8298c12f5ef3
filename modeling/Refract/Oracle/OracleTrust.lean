import Refract.Lib.OrdMap

/-!
# Trust in feeds

`OracleTrustService` keeps a status per feed: whether its source is healthy, and whether the last
observation is confirmed on chain. A feed may publish while its observation is fresh.
-/

namespace Refract.Oracle

open Lib

structure FeedConfiguration where
  latencyBudgetMs : ℚ
  requiredQuorum : Nat

/-- `ORACLE_FEEDS` -/
def oracleFeeds : List (String × FeedConfiguration) :=
  [("coingecko-usdc", ⟨30000, 1⟩), ("coingecko-stellar", ⟨30000, 1⟩),
   ("defillama-aave", ⟨45000, 1⟩), ("nexus-liquidations", ⟨10000, 1⟩),
   ("aviationstack", ⟨10000, 1⟩)]

structure FeedTrustStatus where
  feedId : String
  healthy : Bool
  confirmed : Bool
  quorumRequired : Nat
  quorumAvailable : Nat
  observedAt : Option ℚ
  confirmedAt : Option ℚ
  reason : Option String

/-- The observation is at most `budget` old. -/
def FeedTrustStatus.isFresh (status : FeedTrustStatus) (budget now : ℚ) : Bool :=
  status.observedAt.any fun observedAt => now - observedAt ≤ budget

abbrev FeedStatuses := OrdMap String FeedTrustStatus

namespace FeedStatuses

variable (statuses : FeedStatuses)

def recordObservation (feedId : String) (healthy : Bool) (reason : Option String) (observedAt : ℚ) :
    Except String FeedStatuses :=
  match oracleFeeds.lookup feedId with
  | none => .error ("No oracle feed configuration exists for " ++ feedId)
  | some configuration => .ok (statuses.set feedId
      { feedId
        healthy
        confirmed := false
        quorumRequired := configuration.requiredQuorum
        quorumAvailable := if healthy then 1 else 0
        observedAt := some observedAt
        confirmedAt := none
        reason := if healthy then none
          else some (reason.getD "source is unreachable or payload was rejected") })

def recordPublication (feedId : String) (confirmed : Bool) (reason : Option String) (now : ℚ) :
    FeedStatuses :=
  match statuses.get? feedId with
  | none => statuses
  | some current => statuses.set feedId
      { current with
        confirmed
        confirmedAt := if confirmed then some now else none
        reason := if confirmed then none
          else some (reason.getD "on-chain publication is not confirmed") }

def feedStatus (feedId : String) : FeedTrustStatus :=
  (statuses.get? feedId).getD
    { feedId
      healthy := false
      confirmed := false
      quorumRequired := ((oracleFeeds.lookup feedId).map (·.requiredQuorum)).getD 1
      quorumAvailable := 0
      observedAt := none
      confirmedAt := none
      reason := some "no accepted observation or on-chain confirmation" }

def canPublish (feedId : String) (now : ℚ) : Bool :=
  let status := statuses.feedStatus feedId
  (oracleFeeds.lookup feedId).any fun configuration =>
    status.healthy && status.quorumRequired ≤ status.quorumAvailable &&
      status.isFresh configuration.latencyBudgetMs now

end FeedStatuses

end Refract.Oracle
