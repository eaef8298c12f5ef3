import Refract.Claim.ReevaluationService

/-!
# Which items of a run are attempted

`ReevaluationService.apply` from its checks to its end, for calls that do not overlap: it takes the
unfinished items in order, and one that failed before is taken again before a later one that has
never been tried. So a call has as many places for new items as it may take beyond those that stand
as failed when it begins, and a run is attempted as a whole exactly if its calls have a place for
every item (`every_item_attempted`). With `maxItems` failures at the front the rest of the run is
never attempted (`later_item_never_attempted`).
-/

namespace Refract.Claim

open Lib List

namespace ReevaluationService

/-! ## Calls of `apply` -/

/-- How `executor.settle` ends; what it throws has a message. -/
inductive SettleResult where
  | settled (txHash : Option String)
  | unconfirmed (error : Option String)
  | threw (message : String)

/-- An executor may answer by all it was asked before. -/
abbrev SettlementExecutor := List ReevaluationItem → ReevaluationItem → SettleResult

/-- The ledger, a run, and what the executor was asked so far. -/
structure ApplyState where
  ledger : AdjudicationLedger
  run : ReevaluationRun
  asked : List ReevaluationItem

section Apply

variable (executor : SettlementExecutor) (maxItems : Int)

def ApplyState.setItem (s : ApplyState) (item : ReevaluationItem) (state : ItemState) :
    ApplyState :=
  { s with run := { s.run with itemStatus := s.run.itemStatus.set item.recordId state } }

/-- `applyItem` with the answer of the executor. -/
def attemptItem (s : ApplyState) (item : ReevaluationItem) : ApplyState :=
  let state := (s.run.itemStatus.get? item.recordId).getD ⟨.pending, none, none⟩
  match applyItem s.ledger item state with
  | .finished state => s.setItem item state
  | .settle =>
    let s' := { s with asked := s.asked ++ [item] }
    match executor s.asked item with
    | .settled txHash =>
      { s' with ledger := s.ledger.markPaid item.policyId }.setItem item ⟨.done, txHash, none⟩
    | .unconfirmed error =>
      s'.setItem item ⟨.failed, state.txHash, some (error.getD "settlement did not confirm")⟩
    | .threw message => s'.setItem item ⟨.failed, state.txHash, some message⟩

/-- The loop of `apply`. -/
def applyLoop : Nat → List ReevaluationItem → ApplyState → ApplyState
  | _, [], s => s
  | processed, item :: rest, s =>
    if itemStatusOf s.run item ≠ .pending ∧ itemStatusOf s.run item ≠ .failed then
      applyLoop processed rest s
    -- An item that failed before counts like a new one.
    else if maxItems ≤ processed then s
    else applyLoop (processed + 1) rest (attemptItem executor s item)

/-- A call of `apply`. -/
def apply (s : ApplyState) (actor : String) (now : ℚ) : Except JsError ApplyState := do
  canApply s.run maxItems
  let s := applyLoop executor maxItems 0 s.run.plan.items s
  return { s with run := finishApply s.run now actor }

/-- Calls one after another, with the actor and the time of each. -/
def applyAll (s : ApplyState) (calls : List (String × ℚ)) : Except JsError ApplyState :=
  calls.foldlM (fun s call => apply executor maxItems s call.1 call.2) s

/-- How many items stand as failed. -/
def failedCount (run : ReevaluationRun) : Nat :=
  run.plan.items.countP fun i => itemStatusOf run i = .failed

/-- The places that calls one after another have for new items: a call first spends one on every
item that stands as failed when it begins. -/
def newPlaces : ApplyState → List (String × ℚ) → Nat
  | _, [] => 0
  | s, call :: calls =>
    (maxItems - failedCount s.run).toNat +
      match apply executor maxItems s call.1 call.2 with
      | .ok s' => newPlaces s' calls
      | .error _ => 0

end Apply

/-- No item is still as it was planned. -/
def AllAttempted (run : ReevaluationRun) : Prop :=
  ∀ item ∈ run.plan.items, itemStatusOf run item ≠ .pending

instance (run : ReevaluationRun) : Decidable (AllAttempted run) :=
  inferInstanceAs (Decidable (∀ item ∈ run.plan.items, _))

/-! ## What one item does -/

variable {executor : SettlementExecutor} {maxItems : Int} {s : ApplyState}

theorem itemStatusOf_setItem (s : ApplyState) (item other : ReevaluationItem) (state : ItemState) :
    itemStatusOf (s.setItem item state).run other =
      if other.recordId = item.recordId then state.status else itemStatusOf s.run other := by
  simp only [itemStatusOf, ApplyState.setItem, OrdMap.get?_set]
  split <;> rfl

/-- An attempt writes one item, which is no longer pending. -/
theorem attemptItem_spec (executor : SettlementExecutor) (s : ApplyState)
    (item : ReevaluationItem) :
    ∃ state ledger asked,
      attemptItem executor s item = ({ s with ledger, asked } : ApplyState).setItem item state ∧
        state.status ≠ .pending := by
  simp only [attemptItem]
  split
  · rename_i state hitem
    refine ⟨state, s.ledger, s.asked, rfl, ?_⟩
    simp only [applyItem] at hitem
    split at hitem
    · cases hitem
      simp
    · cases hitem
      simp
    · split at hitem
      · cases hitem
        simp
      · cases hitem
    · cases hitem
      simp
  · split
    all_goals exact ⟨_, _, _, rfl, by simp⟩

/-- From `s` to `s'` a run has the same plan, and only the given items may have another status. -/
structure ChangesOnly (items : List ReevaluationItem) (s s' : ApplyState) : Prop where
  plan : s'.run.plan = s.run.plan
  others : ∀ other, other.recordId ∉ items.map (·.recordId) →
    itemStatusOf s'.run other = itemStatusOf s.run other

variable {s' s'' : ApplyState} {items tried fresh : List ReevaluationItem} {item : ReevaluationItem}

namespace ChangesOnly

theorem refl : ChangesOnly items s s := ⟨rfl, fun _ _ => rfl⟩

theorem cons (h : ChangesOnly [item] s s') (h' : ChangesOnly items s' s'') :
    ChangesOnly (item :: items) s s'' := by
  refine ⟨h'.plan.trans h.plan, fun other hother => ?_⟩
  rw [map_cons, mem_cons, not_or] at hother
  exact (h'.others other hother.2).trans (h.others other (by simpa using hother.1))

/-- An item apart from the others, by its record, keeps its status. -/
theorem apart (h : ChangesOnly items s s') (hapart : ∀ i ∈ items, item.recordId ≠ i.recordId) :
    itemStatusOf s'.run item = itemStatusOf s.run item := by
  apply h.others
  rw [mem_map]
  rintro ⟨i, hi, hid⟩
  exact hapart i hi hid.symm

end ChangesOnly

theorem attemptItem_changes (executor : SettlementExecutor) (s : ApplyState)
    (item : ReevaluationItem) : ChangesOnly [item] s (attemptItem executor s item) ∧
      itemStatusOf (attemptItem executor s item).run item ≠ .pending := by
  obtain ⟨state, ledger, asked, heq, hpend⟩ := attemptItem_spec executor s item
  rw [heq]
  refine ⟨⟨rfl, fun other hother => ?_⟩, ?_⟩
  · rw [itemStatusOf_setItem, if_neg (by simpa using hother)]
  · rw [itemStatusOf_setItem, if_pos rfl]
    exact hpend

/-! ## What one call does -/

/-- Items of different records. -/
def Distinct (items : List ReevaluationItem) : Prop :=
  items.Pairwise fun i j => i.recordId ≠ j.recordId

/-- A call that has no place left ends at the next pending item. -/
theorem applyLoop_full {processed : Nat} (hfull : maxItems ≤ processed)
    (hfresh : ∀ item ∈ fresh, itemStatusOf s.run item = .pending) :
    applyLoop executor maxItems processed fresh s = s := by
  cases fresh with
  | nil => rfl
  | cons item _ =>
    rw [applyLoop, if_neg (by simp [hfresh item mem_cons_self]), if_pos hfull]

/-- Of pending items the loop attempts as many as it has places left, from the first on. -/
theorem applyLoop_fresh (executor : SettlementExecutor) (maxItems : Int) (processed : Nat)
    (hdistinct : Distinct fresh)
    (hfresh : ∀ item ∈ fresh, itemStatusOf s.run item = .pending) :
    let attempted := fresh.take (maxItems - processed).toNat
    let s' := applyLoop executor maxItems processed fresh s
    ChangesOnly attempted s s' ∧ ∀ item ∈ attempted, itemStatusOf s'.run item ≠ .pending := by
  induction fresh generalizing s processed with
  | nil => exact ⟨by simpa using .refl, by simp⟩
  | cons item rest ih =>
    obtain ⟨hapart, hrest⟩ := pairwise_cons.1 hdistinct
    by_cases hfull : maxItems ≤ processed
    · rw [applyLoop_full hfull hfresh, Int.toNat_of_nonpos (by omega)]
      exact ⟨.refl, by simp⟩
    obtain ⟨hone, hitem⟩ := attemptItem_changes executor s item
    obtain ⟨hothers, hall⟩ := ih (s := attemptItem executor s item) (processed + 1) hrest
      fun i hi => (hone.apart (by simpa using (hapart i hi).symm)).trans
        (hfresh i (mem_cons_of_mem _ hi))
    have hplaces : (maxItems - processed).toNat = (maxItems - (processed + 1 : ℕ)).toNat + 1 := by
      omega
    rw [applyLoop, if_neg (by simp [hfresh item mem_cons_self]), if_neg hfull, hplaces,
      take_succ_cons]
    refine ⟨hone.cons hothers, forall_mem_cons.2 ⟨?_, hall⟩⟩
    rw [hothers.apart fun i hi => hapart i (mem_of_mem_take hi)]
    exact hitem

/-- Before it comes to a pending item, the loop has spent one place on each item that had failed. -/
theorem applyLoop_tried (executor : SettlementExecutor) (maxItems : Int) (processed : Nat)
    (hdistinct : Distinct (tried ++ fresh))
    (htried : ∀ item ∈ tried, itemStatusOf s.run item ≠ .pending)
    (hfresh : ∀ item ∈ fresh, itemStatusOf s.run item = .pending) :
    ∃ s', ChangesOnly tried s s' ∧ (∀ item ∈ tried, itemStatusOf s'.run item ≠ .pending) ∧
      applyLoop executor maxItems processed (tried ++ fresh) s =
        applyLoop executor maxItems
          (processed + tried.countP fun i => itemStatusOf s.run i = .failed) fresh s' := by
  induction tried generalizing s processed with
  | nil => exact ⟨s, .refl, by simp, by simp⟩
  | cons item rest ih =>
    obtain ⟨hapart, hrest⟩ := pairwise_cons.1 hdistinct
    obtain ⟨hitem, htried'⟩ := forall_mem_cons.1 htried
    rw [cons_append, applyLoop]
    by_cases hfailed : itemStatusOf s.run item = .failed
    · rw [if_neg (by simp [hfailed]), countP_cons_of_pos (by simpa using hfailed)]
      by_cases hfull : maxItems ≤ processed
      · refine ⟨s, .refl, htried, ?_⟩
        rw [if_pos hfull, applyLoop_full (by push_cast; omega) hfresh]
      -- The attempt leaves the other items as they are, those that had failed among them.
      obtain ⟨hone, hattempted⟩ := attemptItem_changes executor s item
      have hkept : ∀ i ∈ rest ++ fresh,
          itemStatusOf (attemptItem executor s item).run i = itemStatusOf s.run i :=
        fun i hi => hone.apart (by simpa using (hapart i hi).symm)
      obtain ⟨s', hothers, hall, hloop⟩ := ih (s := attemptItem executor s item) (processed + 1)
        hrest (fun i hi => by rw [hkept i (mem_append_left _ hi)]; exact htried' i hi)
        (fun i hi => by rw [hkept i (mem_append_right _ hi)]; exact hfresh i hi)
      refine ⟨s', hone.cons hothers, forall_mem_cons.2 ⟨?_, hall⟩, ?_⟩
      · rw [hothers.apart fun i hi => hapart i (mem_append_left _ hi)]
        exact hattempted
      · have hcount : (rest.countP fun i => itemStatusOf (attemptItem executor s item).run i =
            .failed) = rest.countP fun i => itemStatusOf s.run i = .failed :=
          countP_congr fun i hi => by rw [hkept i (mem_append_left _ hi)]
        rw [if_neg hfull, hloop, hcount, Nat.add_right_comm, Nat.add_assoc]
    · rw [if_pos ⟨hitem, hfailed⟩, countP_cons_of_neg (by simpa using hfailed)]
      obtain ⟨s', hothers, hall, hloop⟩ := ih processed hrest htried' hfresh
      refine ⟨s', ChangesOnly.refl.cons hothers, forall_mem_cons.2 ⟨?_, hall⟩, hloop⟩
      rw [hothers.apart fun i hi => hapart i (mem_append_left _ hi)]
      exact hitem

/-- A run between two calls: those of its items that were attempted, and after them the others. -/
structure Parted (s : ApplyState) (tried fresh : List ReevaluationItem) : Prop where
  items : s.run.plan.items = tried ++ fresh
  distinct : Distinct (tried ++ fresh)
  tried : ∀ item ∈ tried, itemStatusOf s.run item ≠ .pending
  fresh : ∀ item ∈ fresh, itemStatusOf s.run item = .pending
  status : s.run.status ≠ .applying

namespace Parted

variable (h : Parted s tried fresh)

include h

theorem failedCount_eq :
    failedCount s.run = tried.countP fun i => itemStatusOf s.run i = .failed := by
  have hfresh : (fresh.countP fun i => itemStatusOf s.run i = .failed) = 0 := by
    rw [countP_eq_zero]
    intro item hitem
    simp [h.fresh item hitem]
  rw [failedCount, h.items, countP_append, hfresh, Nat.add_zero]

theorem allAttempted_iff : AllAttempted s.run ↔ fresh = [] := by
  constructor
  · intro hall
    rw [eq_nil_iff_forall_not_mem]
    intro item hitem
    exact hall item (h.items ▸ mem_append_right _ hitem) (h.fresh item hitem)
  · rintro rfl item hitem
    rw [h.items, append_nil] at hitem
    exact h.tried item hitem

/-- A call returns, and has attempted as many new items as it had places for. -/
theorem call (executor : SettlementExecutor) (hmax : 1 ≤ maxItems) (actor : String) (now : ℚ) :
    ∃ s', apply executor maxItems s actor now = .ok s' ∧ s'.run.plan = s.run.plan ∧
      Parted s' (tried ++ fresh.take (maxItems - failedCount s.run).toNat)
        (fresh.drop (maxItems - failedCount s.run).toNat) := by
  obtain ⟨-, hback, hapart⟩ := pairwise_append.1 h.distinct
  -- The loop goes over the items that had failed, and with the places left over the pending ones.
  obtain ⟨s₁, hfirst, htried, hloop⟩ :=
    applyLoop_tried executor maxItems 0 h.distinct h.tried h.fresh
  rw [← h.items, ← h.failedCount_eq, Nat.zero_add] at hloop
  have hfresh : ∀ item ∈ fresh, itemStatusOf s₁.run item = .pending := fun item hitem =>
    (hfirst.apart fun i hi => (hapart i hi item hitem).symm).trans (h.fresh item hitem)
  obtain ⟨hsecond, hnew⟩ := applyLoop_fresh executor maxItems (failedCount s.run) hback hfresh
  rw [← hloop] at hsecond hnew
  refine ⟨{ applyLoop executor maxItems 0 s.run.plan.items s with
    run := finishApply (applyLoop executor maxItems 0 s.run.plan.items s).run now actor },
    ?_, ?_, ?_⟩
  · rw [apply, canApply, if_neg h.status, if_neg (by omega)]
    rfl
  · exact hsecond.plan.trans hfirst.plan
  generalize (maxItems - failedCount s.run).toNat = places at hsecond hnew ⊢
  have hparts : (tried ++ fresh.take places) ++ fresh.drop places = tried ++ fresh := by
    rw [append_assoc, take_append_drop]
  refine ⟨?_, hparts ▸ h.distinct, ?_, ?_, ?_⟩
  · rw [hparts, ← h.items]
    exact congrArg _ (hsecond.plan.trans hfirst.plan)
  · intro item hitem
    rcases mem_append.1 hitem with hitem | hitem
    · intro hpend
      apply htried item hitem
      rw [← hpend]
      exact (hsecond.apart fun i hi => hapart item hitem i (mem_of_mem_take hi)).symm
    · exact hnew item hitem
  · intro item hitem
    have hlater : ∀ i ∈ fresh.take places, item.recordId ≠ i.recordId := fun i hi => by
      rw [← take_append_drop places fresh] at hback
      exact ((pairwise_append.1 hback).2.2 i hi item hitem).symm
    exact (hsecond.apart hlater).trans (hfresh item (mem_of_mem_drop hitem))
  · simp only [finishApply]
    split <;> simp

/-- The calls all return, and have attempted as many new items as they had places for. -/
theorem calls (executor : SettlementExecutor) (hmax : 1 ≤ maxItems) (calls : List (String × ℚ)) :
    ∃ s', applyAll executor maxItems s calls = .ok s' ∧ s'.run.plan = s.run.plan ∧
      ∃ tried', Parted s' tried' (fresh.drop (newPlaces executor maxItems s calls)) := by
  induction calls generalizing s tried fresh with
  | nil => exact ⟨s, rfl, rfl, tried, h⟩
  | cons call _ ih =>
    obtain ⟨s₁, hcall, hplan₁, h₁⟩ := h.call executor hmax call.1 call.2
    obtain ⟨s₂, hcalls, hplan₂, tried', h₂⟩ := ih h₁
    rw [drop_drop] at h₂
    refine ⟨s₂, ?_, hplan₂.trans hplan₁, tried', ?_⟩
    · rw [applyAll, foldlM_cons, hcall]
      exact hcalls
    · rw [newPlaces, hcall]
      exact h₂

end Parted

theorem itemStatusOf_newRun (plan : ReevaluationPlan) (now : ℚ) (item : ReevaluationItem) :
    itemStatusOf (newRun plan now) item = .pending := by
  suffices h : ∀ state ∈ (newRun plan now).itemStatus.get? item.recordId, state.status = .pending by
    simp only [itemStatusOf]
    cases hget : (newRun plan now).itemStatus.get? item.recordId with
    | none => rfl
    | some state => exact h state hget
  simp only [newRun]
  -- Every entry the loop writes is pending.
  generalize hstart : (OrdMap.empty : OrdMap String ItemState) = start
  have hemp : ∀ state ∈ start.get? item.recordId, state.status = .pending := by
    simp [← hstart]
  clear hstart
  induction plan.items generalizing start with
  | nil => exact hemp
  | cons _ _ ih =>
    apply ih
    intro state hst
    rw [OrdMap.get?_set] at hst
    split at hst
    · cases hst
      rfl
    · exact hemp state hst

/-! ## Every item in turn -/

/-- Calls on a planned run attempt all of its items exactly if they have a place for each. -/
theorem every_item_attempted (executor : SettlementExecutor) (plan : ReevaluationPlan)
    (created : ℚ) (ledger : AdjudicationLedger) (maxItems : Int) (calls : List (String × ℚ))
    (hmax : 1 ≤ maxItems) (hdistinct : (plan.items.map (·.recordId)).Nodup) :
    ∃ s, applyAll executor maxItems ⟨ledger, newRun plan created, []⟩ calls = .ok s ∧
      s.run.plan = plan ∧
      (AllAttempted s.run ↔
        plan.items.length ≤
          newPlaces executor maxItems ⟨ledger, newRun plan created, []⟩ calls) := by
  have hstart : Parted ⟨ledger, newRun plan created, []⟩ [] plan.items :=
    ⟨rfl, pairwise_map.1 hdistinct, by simp, fun item _ => itemStatusOf_newRun plan created item,
      by simp [newRun]⟩
  obtain ⟨s, hrun, hplan, tried, hend⟩ := hstart.calls executor hmax calls
  refine ⟨s, hrun, hplan, ?_⟩
  rw [hend.allAttempted_iff, drop_eq_nil_iff]

/-- A held payout that the run is to settle. -/
def heldItem (recordId policyId : String) : ReevaluationItem where
  recordId
  policyId
  holder := "GA"
  coverageType := 0
  before := .held
  trustStateAtDecision := .degraded
  after := .triggered
  action := .settle
  changed := true
  payoutDelta := 100
  evidence := ⟨0, 10, 3, [.quorum], 12, 10, some 5, "confirmed"⟩

/-- A run over two held policies. -/
def heldPlan : ReevaluationPlan where
  runId := "run"
  feedId := "feed"
  degradedSince := 0
  restoredAt := 10
  items := [heldItem "a" "p1", heldItem "b" "p2"]
  summary := ⟨2, 2, fun action => if action = .settle then 2 else 0, 200⟩

/-- Settling one record always fails. -/
def failsOn (recordId : String) : SettlementExecutor := fun _ item =>
  if item.recordId = recordId then .threw "rpc timeout" else .settled (some "tx")

/-- A failure behind every other item takes no place from them. -/
theorem every_item_attempted_heldPlan :
    ∃ s, applyAll (failsOn "b") 1 ⟨.empty, newRun heldPlan 10, []⟩ [("ops", 20), ("ops", 30)] =
      .ok s ∧ AllAttempted s.run := by
  obtain ⟨s, hrun, -, hall⟩ := every_item_attempted (failsOn "b") heldPlan 10 .empty 1
    [("ops", 20), ("ops", 30)] (by decide) (by decide)
  exact ⟨s, hrun, hall.2 (by decide +kernel)⟩

/-- With one item a call, the item that fails is taken by both calls. -/
theorem later_item_never_attempted :
    ¬∀ (executor : SettlementExecutor) (plan : ReevaluationPlan) (created : ℚ)
      (ledger : AdjudicationLedger) (maxItems : Int) (calls : List (String × ℚ)),
      1 ≤ maxItems → calls.length = plan.items.length →
      ∃ s, applyAll executor maxItems ⟨ledger, newRun plan created, []⟩ calls = .ok s ∧
        AllAttempted s.run := by
  intro h
  obtain ⟨s, hrun, hall⟩ := h (failsOn "a") heldPlan 10 .empty 1 [("ops", 20), ("ops", 30)]
    (by decide) rfl
  cases hrun.symm.trans (eq_ok_get (by decide +kernel))
  exact absurd hall (by decide +kernel)

end ReevaluationService

end Refract.Claim
