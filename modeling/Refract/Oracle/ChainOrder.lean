import Refract.Lib.Traces
import Refract.Oracle.PublisherRuns

/-!
# The order of decisions on chain

The transactions that were sent, the ones of them that never land, and the trace of what happened
(`ChainSound`). A decision lands only when every earlier decision of its feed has landed or was
dead-lettered (`LandsNext`). Each way in which transactions or the trace change has one lemma: a
decision is enqueued or dead-lettered, a transaction is sent, lands, or is known never to land.
-/

namespace Refract.Oracle

open Lib List

/-! ## Transactions -/

/-- A transaction with this hash was sent with the decision. -/
def Sends (txs : List SentTx) (txHash : String) (id : Nat) : Prop :=
  ∃ tx ∈ txs, tx.hash = txHash ∧ id ∈ tx.ids

/-- The transaction has landed. -/
def OnChain (txs : List SentTx) (txHash : String) : Prop :=
  ∃ tx ∈ txs, tx.hash = txHash ∧ tx.landed = true

instance (txs : List SentTx) (txHash : String) : Decidable (OnChain txs txHash) :=
  inferInstanceAs (Decidable (∃ tx ∈ txs, tx.hash = txHash ∧ tx.landed = true))

/-- The transaction has landed with the decision, or can land. -/
def CanLand (txs : List SentTx) (dead : List String) (txHash : String) (id : Nat) : Prop :=
  Sends txs txHash id ∧ txHash ∉ dead

/-- The decision has landed or was dead-lettered. -/
def Resolved (trace : List PublishEvent) (id : Nat) : Prop :=
  .landed id ∈ trace ∨ .failed id ∈ trace

/-- A decision that lands was enqueued before; later decisions of its feed have not landed, and the
earlier ones have, or were dead-lettered. -/
def LandsNext : PublishEvent → List PublishEvent → Prop
  | .landed id, before => ∃ feed, .enqueued id feed ∈ before ∧
      ∀ e, .enqueued e feed ∈ before → (.landed e ∈ before → e < id) ∧ (e < id → Resolved before e)
  | .enqueued _ _, _ | .failed _, _ => True

/-- What holds of the transactions and the trace. -/
structure ChainSound (txs : List SentTx) (dead : List String) (trace : List PublishEvent) :
    Prop where
  hashes : UniqueKey (·.hash) txs
  named : ∀ tx ∈ txs, tx.hash ≠ ""
  sorted : ∀ tx ∈ txs, tx.ids.Pairwise (· < ·)
  alive : ∀ h, OnChain txs h → h ∉ dead
  apart : ∀ h h' id, CanLand txs dead h id → CanLand txs dead h' id → h = h'
  known : ∀ h id, Sends txs h id → ∃ feed, .enqueued id feed ∈ trace
  landed : ∀ id, .landed id ∈ trace ↔ ∃ h, Sends txs h id ∧ OnChain txs h
  failed : ∀ id, .failed id ∈ trace → ∀ h, ¬CanLand txs dead h id
  ahead : ∀ h id feed e, CanLand txs dead h id → .enqueued id feed ∈ trace →
    .enqueued e feed ∈ trace → e < id → Resolved trace e ∨ Sends txs h e
  order : PrecededBy LandsNext trace

variable {txs : List SentTx} {dead : List String} {trace added : List PublishEvent} {tx : SentTx}
  {id e : Nat} {ids : List Nat} {feed hash txHash : String}

theorem ChainSound.start : ChainSound [] [] [] := by
  constructor
  case order => exact PrecededBy.nil _
  all_goals simp [UniqueKey, OnChain, CanLand, Sends]

theorem Resolved.append (h : Resolved trace id) : Resolved (trace ++ added) id :=
  h.imp (mem_append_left _) (mem_append_left _)

/-- Events of another kind are old. -/
theorem mem_of_mem_append_map {f : Nat → PublishEvent} {x : PublishEvent}
    (h : x ∈ trace ++ ids.map f) (hx : ∀ id, x ≠ f id) : x ∈ trace := by
  refine (mem_append.1 h).resolve_right fun hnew => ?_
  obtain ⟨id, -, heq⟩ := mem_map.1 hnew
  exact hx id heq.symm

/-- In an increasing list, what is smaller than an entry stands before it. -/
theorem mem_pre_of_lt {pre post : List Nat} (h : ids.Pairwise (· < ·))
    (heq : ids = pre ++ id :: post) (he : e ∈ ids) (hlt : e < id) : e ∈ pre := by
  rw [heq] at h he
  rcases mem_append.1 he with he | he
  · exact he
  obtain ⟨-, htail, -⟩ := pairwise_append.1 h
  rcases mem_cons.1 he with rfl | he
  · exact absurd hlt (lt_irrefl _)
  · exact absurd ((pairwise_cons.1 htail).1 e he) hlt.not_gt

theorem sends_landTx : Sends (landTx txHash txs) hash id ↔ Sends txs hash id :=
  exists_mem_updateWhere fun _ _ _ => Iff.rfl

theorem onChain_landTx (htx : tx ∈ txs) :
    OnChain (landTx tx.hash txs) hash ↔ OnChain txs hash ∨ hash = tx.hash := by
  constructor
  · rintro ⟨tx', htx', hhash, hland⟩
    obtain ⟨sent, hsent, ⟨heq, rfl⟩ | ⟨-, rfl⟩⟩ := mem_updateWhere.1 htx'
    · exact .inr (hhash.symm.trans (of_decide_eq_true heq))
    · exact .inl ⟨tx', hsent, hhash, hland⟩
  · rintro (⟨sent, hsent, hhash, hland⟩ | rfl)
    · by_cases heq : sent.hash = tx.hash
      · exact ⟨_, mem_updateWhere.2 ⟨sent, hsent, .inl ⟨decide_eq_true heq, rfl⟩⟩, hhash, rfl⟩
      · exact ⟨sent, mem_updateWhere.2 ⟨sent, hsent, .inr ⟨decide_eq_false heq, rfl⟩⟩, hhash,
          hland⟩
    · exact ⟨_, mem_updateWhere.2 ⟨tx, htx, .inl ⟨decide_eq_true rfl, rfl⟩⟩, rfl, rfl⟩

namespace ChainSound

variable (h : ChainSound txs dead trace)

include h

/-- What a transaction sends, by its hash. -/
theorem sends_iff (htx : tx ∈ txs) : Sends txs tx.hash id ↔ id ∈ tx.ids := by
  constructor
  · rintro ⟨tx', htx', hhash, hid⟩
    rw [← h.hashes.eq htx' htx hhash]
    exact hid
  · exact fun hid => ⟨tx, htx, rfl, hid⟩

theorem onChain_iff (htx : tx ∈ txs) : OnChain txs tx.hash ↔ tx.landed = true := by
  constructor
  · rintro ⟨tx', htx', hhash, hland⟩
    rw [← h.hashes.eq htx' htx hhash]
    exact hland
  · exact fun hland => ⟨tx, htx, rfl, hland⟩

theorem known_append (hsends : Sends txs hash id) : ∃ feed, .enqueued id feed ∈ trace ++ added :=
  (h.known hash id hsends).imp fun _ => mem_append_left _

/-- A new decision has the greatest id. -/
theorem enqueue (hfresh : ∀ e f, .enqueued e f ∈ trace → e < id) :
    ChainSound txs dead (trace ++ [PublishEvent.enqueued id feed]) := by
  refine { h with
    known := fun _ _ => h.known_append, landed := ?_, failed := ?_, ahead := ?_, order := ?_ }
  · intro e
    rw [mem_snoc, ← h.landed]
    exact or_iff_left nofun
  · intro e he
    exact h.failed e ((mem_snoc.1 he).resolve_right nofun)
  · intro hash e f d hcan he hd hlt
    -- A decision that was sent is not the new one, so neither is an earlier one.
    obtain ⟨f', hf'⟩ := h.known hash e hcan.1
    have heOld := hfresh e f' hf'
    have hold : ∀ x, x < id → ∀ y, .enqueued x y ∈ trace ++ [PublishEvent.enqueued id feed] →
        .enqueued x y ∈ trace := by
      intro x hx y hy
      refine (mem_snoc.1 hy).resolve_right ?_
      rintro ⟨rfl, rfl⟩
      exact lt_irrefl _ hx
    exact (h.ahead hash e f d hcan (hold e heOld f he) (hold d (hlt.trans heOld) f hd)
      hlt).imp_left Resolved.append
  · exact h.order.snoc _ trivial

/-- Dead-lettered decisions cannot land. -/
theorem fail (hids : ∀ id ∈ ids, ∀ hash, ¬CanLand txs dead hash id) :
    ChainSound txs dead (trace ++ ids.map .failed) := by
  refine { h with
    known := fun _ _ => h.known_append, landed := ?_, failed := ?_, ahead := ?_, order := ?_ }
  · intro e
    rw [← h.landed]
    exact ⟨fun hin => mem_of_mem_append_map hin fun _ => nofun, mem_append_left _⟩
  · intro e he
    rcases mem_append.1 he with he | hnew
    · exact h.failed e he
    · obtain ⟨id, hid, heq⟩ := mem_map.1 hnew
      cases heq
      exact hids e hid
  · intro hash e f d hcan he hd hlt
    have he := mem_of_mem_append_map he fun _ => nofun
    have hd := mem_of_mem_append_map hd fun _ => nofun
    exact (h.ahead hash e f d hcan he hd hlt).imp_left Resolved.append
  · refine h.order.append _ ?_
    intro new y post heq
    obtain ⟨id, -, rfl⟩ := mem_map.1 (heq ▸ mem_append_right _ mem_cons_self)
    trivial

/-- A transaction that has not landed is known never to land. -/
theorem die (hnot : ¬OnChain txs txHash) : ChainSound txs (txHash :: dead) trace := by
  have hcan : ∀ {hash id}, CanLand txs (txHash :: dead) hash id → CanLand txs dead hash id :=
    fun h => ⟨h.1, fun hin => h.2 (mem_cons_of_mem _ hin)⟩
  refine { h with alive := ?_, apart := ?_, failed := ?_, ahead := ?_ }
  · intro hash hchain hin
    rcases mem_cons.1 hin with rfl | hin
    · exact hnot hchain
    · exact h.alive hash hchain hin
  · exact fun hash hash' id h₁ h₂ => h.apart hash hash' id (hcan h₁) (hcan h₂)
  · exact fun id hid hash h₁ => h.failed id hid hash (hcan h₁)
  · exact fun hash id feed e h₁ => h.ahead hash id feed e (hcan h₁)

/-- A transaction is sent with decisions that cannot land otherwise, and with every earlier decision
that has not landed and was not dead-lettered. -/
theorem send
    (hne : txHash ≠ "") (hfresh : ∀ tx ∈ txs, tx.hash ≠ txHash) (hsort : ids.Pairwise (· < ·))
    (hknown : ∀ id ∈ ids, ∃ feed, .enqueued id feed ∈ trace)
    (hclean : ∀ id ∈ ids, ∀ hash, ¬CanLand txs dead hash id)
    (hopen : ∀ id ∈ ids, .failed id ∉ trace)
    (hfst : ∀ id ∈ ids, ∀ feed e, .enqueued id feed ∈ trace → .enqueued e feed ∈ trace → e < id →
      Resolved trace e ∨ e ∈ ids) : ChainSound (txs ++ [⟨txHash, ids, false⟩]) dead trace := by
  have hsends : ∀ hash id, Sends (txs ++ [⟨txHash, ids, false⟩]) hash id ↔
      Sends txs hash id ∨ hash = txHash ∧ id ∈ ids := by
    intro hash id
    simp only [Sends, mem_append, mem_singleton, or_and_right, exists_or, exists_eq_left, eq_comm]
  have hchain : ∀ hash, OnChain (txs ++ [⟨txHash, ids, false⟩]) hash ↔ OnChain txs hash := by
    intro hash
    simp only [OnChain, mem_append, mem_singleton, or_and_right, exists_or, exists_eq_left]
    exact or_iff_left fun hnew => nomatch hnew.2
  -- A decision of the new transaction can land with nothing else.
  have hcan : ∀ hash id, CanLand (txs ++ [⟨txHash, ids, false⟩]) dead hash id →
      CanLand txs dead hash id ∧ id ∉ ids ∨ hash = txHash ∧ id ∈ ids := by
    rintro hash id ⟨hs, hdead⟩
    by_cases hid : id ∈ ids
    · refine .inr ⟨?_, hid⟩
      exact ((hsends hash id).1 hs).elim (fun hold => absurd ⟨hold, hdead⟩ (hclean id hid hash))
        And.left
    · refine .inl ⟨⟨?_, hdead⟩, hid⟩
      exact ((hsends hash id).1 hs).resolve_right fun hnew => hid hnew.2
  refine
    { hashes := h.hashes.insert hfresh, named := ?_, sorted := ?_, alive := ?_, apart := ?_,
      known := ?_, landed := ?_, failed := ?_, ahead := ?_, order := h.order }
  · exact forall_mem_snoc.2 ⟨h.named, hne⟩
  · exact forall_mem_snoc.2 ⟨h.sorted, hsort⟩
  · exact fun hash hon => h.alive hash ((hchain hash).1 hon)
  · intro hash hash' id h₁ h₂
    rcases hcan hash id h₁ with ⟨h₁, hid⟩ | ⟨rfl, hid⟩
    · rcases hcan hash' id h₂ with ⟨h₂, -⟩ | ⟨-, hid'⟩
      · exact h.apart hash hash' id h₁ h₂
      · exact absurd hid' hid
    · rcases hcan hash' id h₂ with ⟨-, hid'⟩ | ⟨rfl, -⟩
      · exact absurd hid hid'
      · rfl
  · intro hash id hs
    exact ((hsends hash id).1 hs).elim (h.known hash id) fun hnew => hknown id hnew.2
  · intro id
    rw [h.landed]
    constructor
    · rintro ⟨hash, hs, hon⟩
      exact ⟨hash, (hsends hash id).2 (.inl hs), (hchain hash).2 hon⟩
    · rintro ⟨hash, hs, hon⟩
      obtain ⟨tx, htx, hhash, hland⟩ := (hchain hash).1 hon
      rcases (hsends hash id).1 hs with hs | ⟨hnew, -⟩
      · exact ⟨hash, hs, tx, htx, hhash, hland⟩
      · exact absurd (hhash.trans hnew) (hfresh tx htx)
  · intro id hid hash h₁
    rcases hcan hash id h₁ with ⟨h₁, -⟩ | ⟨-, hmem⟩
    · exact h.failed id hid hash h₁
    · exact hopen id hmem hid
  · intro hash id feed e h₁ hid he hlt
    rcases hcan hash id h₁ with ⟨h₁, -⟩ | ⟨rfl, hmem⟩
    · exact (h.ahead hash id feed e h₁ hid he hlt).imp_right fun hs => (hsends hash e).2 (.inl hs)
    · exact (hfst id hmem feed e hid he hlt).imp_right fun hs => (hsends hash e).2 (.inr ⟨rfl, hs⟩)

/-- A transaction that can land has not landed with a later decision, and not before. -/
theorem landed_lt (htx : tx ∈ txs) (hland : tx.landed = false) (hdead : tx.hash ∉ dead)
    (hid : id ∈ tx.ids) (hfeed : .enqueued id feed ∈ trace) (hfeed' : .enqueued e feed ∈ trace)
    (he : .landed e ∈ trace) : e < id := by
  have hcan : CanLand txs dead tx.hash id := ⟨(h.sends_iff htx).2 hid, hdead⟩
  -- Whatever has landed with this decision would be this transaction.
  have hnot : ∀ hash, Sends txs hash id → OnChain txs hash → False := by
    intro hash hsends hon
    rw [← h.apart _ _ _ hcan ⟨hsends, h.alive hash hon⟩, h.onChain_iff htx, hland] at hon
    cases hon
  obtain ⟨hash, hsends, hon⟩ := (h.landed e).1 he
  rcases lt_trichotomy e id with hlt | rfl | hgt
  · exact hlt
  · exact (hnot hash hsends hon).elim
  · rcases h.ahead hash e feed id ⟨hsends, h.alive hash hon⟩ hfeed' hfeed hgt with
      (hin | hin) | hsame
    · obtain ⟨hash', hsends', hon'⟩ := (h.landed id).1 hin
      exact (hnot hash' hsends' hon').elim
    · exact absurd hcan (h.failed id hin _)
    · exact (hnot hash hsame hon).elim

/-- A transaction lands with all of its decisions, in order. -/
theorem land (htx : tx ∈ txs) (hland : tx.landed = false) (hdead : tx.hash ∉ dead) :
    ChainSound (landTx tx.hash txs) dead (trace ++ tx.ids.map .landed) := by
  have hcan : ∀ {hash id}, CanLand (landTx tx.hash txs) dead hash id → CanLand txs dead hash id :=
    fun hc => ⟨sends_landTx.1 hc.1, hc.2⟩
  refine
    { hashes := h.hashes.updateWhere fun _ _ _ => rfl,
      named := forall_mem_updateWhere h.named fun _ _ _ hne => hne,
      sorted := forall_mem_updateWhere h.sorted fun _ _ _ hsorted => hsorted, alive := ?_,
      apart := fun hash hash' id h₁ h₂ => h.apart hash hash' id (hcan h₁) (hcan h₂),
      known := fun _ _ hsends => h.known_append (sends_landTx.1 hsends), landed := ?_,
      failed := ?_, ahead := ?_, order := ?_ }
  · intro hash hon
    rcases (onChain_landTx htx).1 hon with hon | rfl
    · exact h.alive hash hon
    · exact hdead
  · intro id
    rw [mem_append, h.landed]
    constructor
    · rintro (⟨hash, hsends, hon⟩ | hnew)
      · exact ⟨hash, sends_landTx.2 hsends, (onChain_landTx htx).2 (.inl hon)⟩
      · obtain ⟨id', hid', heq⟩ := mem_map.1 hnew
        cases heq
        exact ⟨tx.hash, sends_landTx.2 ((h.sends_iff htx).2 hid'),
          (onChain_landTx htx).2 (.inr rfl)⟩
    · rintro ⟨hash, hsends, hon⟩
      have hsends := sends_landTx.1 hsends
      rcases (onChain_landTx htx).1 hon with hon | rfl
      · exact .inl ⟨hash, hsends, hon⟩
      · exact .inr (mem_map_of_mem ((h.sends_iff htx).1 hsends))
  · intro id hid hash hc
    exact h.failed id (mem_of_mem_append_map hid fun _ => nofun) hash (hcan hc)
  · intro hash id feed e hc hid he hlt
    have hid := mem_of_mem_append_map hid fun _ => nofun
    have he := mem_of_mem_append_map he fun _ => nofun
    exact (h.ahead hash id feed e (hcan hc) hid he hlt).imp Resolved.append sends_landTx.2
  · -- The decisions of the transaction land one after another.
    refine h.order.append _ ?_
    intro new y post heq
    obtain ⟨pre, rest, hids, rfl, hrest⟩ := map_eq_append_iff.1 heq
    obtain ⟨id, tail, rfl, rfl, -⟩ := map_eq_cons_iff.1 hrest
    have hid : id ∈ tx.ids := by
      rw [hids]
      exact mem_append_right _ mem_cons_self
    obtain ⟨feed, hfeed⟩ := h.known tx.hash id ((h.sends_iff htx).2 hid)
    have hsort := h.sorted tx htx
    refine ⟨feed, mem_append_left _ hfeed, ?_⟩
    intro e he
    have he := mem_of_mem_append_map he fun _ => nofun
    constructor
    · intro hin
      rcases mem_append.1 hin with hin | hin
      · exact h.landed_lt htx hland hdead hid hfeed he hin
      obtain ⟨e', he', heq⟩ := mem_map.1 hin
      cases heq
      rw [hids] at hsort
      exact (pairwise_append.1 hsort).2.2 e he' id mem_cons_self
    · intro hlt
      rcases h.ahead tx.hash id feed e ⟨(h.sends_iff htx).2 hid, hdead⟩ hfeed he hlt with
        hres | hsame
      · exact hres.append
      · have hpre := mem_pre_of_lt hsort hids ((h.sends_iff htx).1 hsame) hlt
        exact .inl (mem_append_right _ (mem_map_of_mem hpre))

end ChainSound

end Refract.Oracle
