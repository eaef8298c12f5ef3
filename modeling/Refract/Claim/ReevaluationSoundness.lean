import Refract.Lib.Tables
import Refract.Claim.ReevaluationPlanner
import Refract.Lib.Sorting

/-!
# Re-evaluation plans are deterministic and pay once

`planReevaluation` sorts the records and the readings, then goes through the records once and marks
a policy paid when it plans a settlement. With distinct record ids, and a string order that tells
different strings apart, the order of the input does not matter (`sound_plan`, first part). The pass
over the records (`planItems_spec`) gives the rest: one item for each record, at most one settlement
for a policy, none for a policy that is paid already, and a net payout that is the coverage of the
settlements minus what the flagged overpayments had paid.
-/

namespace Refract.Claim

open Lib List

/-! ## The order of the input -/

variable {input : ReevaluationPlanInput} {records : List AdjudicationRecord}

section Order

variable {host : Host}

/-- The order records are planned in. -/
def planOrder (host : Host) (a b : AdjudicationRecord) : Ordering :=
  (compare a.decidedAt b.decidedAt).then (host.localeCompare a.id b.id)

/-- The order readings are replayed in. -/
def replayOrder (host : Host) (a b : TrustedReading) : Ordering :=
  ((compare a.observedAt b.observedAt).then (compare a.value b.value)).then
    (host.localeCompare a.provenance.text b.provenance.text)

instance [Std.TransCmp host.localeCompare] : Std.TransCmp (planOrder host) := by
  unfold planOrder
  infer_instance

instance [Std.TransCmp host.localeCompare] : Std.TransCmp (replayOrder host) := by
  unfold replayOrder
  infer_instance

/-- What `planReevaluation` does with the sorted records and readings. -/
def planSorted (host : Host) (sha : String → String) (pow2 : ℚ → ℚ)
    (input : ReevaluationPlanInput) (records : List AdjudicationRecord)
    (readings : List TrustedReading) : Except JsError ReevaluationPlan := do
  let items ← planItems pow2 input readings records (input.alreadyPaidPolicies ++
    (records.filter fun r => r.outcome = .settled).map (·.policyId))
  .ok { runId := "reeval_" ++ takeChars 24 (sha (runText host input records readings))
        feedId := input.feedId
        degradedSince := input.degradedSince
        restoredAt := input.restoredAt
        items
        summary := summarisePlan items }

theorem planReevaluation_eq (sha : String → String) (pow2 : ℚ → ℚ) (input : ReevaluationPlanInput) :
    planReevaluation host sha pow2 input = planSorted host sha pow2 input
      (sortBy (planOrder host) input.records)
      (sortBy (replayOrder host) input.trustedReadings) := rfl

/-- After sorting, the records and readings of the input are not read again. -/
theorem planSorted_of_input (sha : String → String) (pow2 : ℚ → ℚ) (input : ReevaluationPlanInput)
    (rs records : List AdjudicationRecord) (readings trustedReadings : List TrustedReading) :
    planSorted host sha pow2 { input with records := rs, trustedReadings } records readings =
      planSorted host sha pow2 input records readings := by
  have hitems : ∀ paid, planItems pow2 { input with records := rs, trustedReadings } readings
      records paid = planItems pow2 input readings records paid := by
    induction records with
    | nil => exact fun _ => rfl
    | cons _ _ ih =>
      intro paid
      simp only [planItems, ih]
      rfl
  simp only [planSorted, hitems]
  rfl

theorem provenance_text_injective {p q : Provenance} (h : p.text = q.text) : p = q := by
  cases p <;> cases q <;> first | rfl | (revert h; decide)

variable [Std.LawfulEqCmp host.localeCompare]

theorem id_eq_of_planOrder {a b : AdjudicationRecord} (h : planOrder host a b = .eq) :
    a.id = b.id :=
  Std.LawfulEqCmp.eq_of_compare (Ordering.then_eq_eq.1 h).2

theorem eq_of_replayOrder {a b : TrustedReading} (h : replayOrder host a b = .eq) : a = b := by
  obtain ⟨hnumbers, htext⟩ := Ordering.then_eq_eq.1 h
  obtain ⟨htime, hvalue⟩ := Ordering.then_eq_eq.1 hnumbers
  have hprov := provenance_text_injective (Std.LawfulEqCmp.eq_of_compare htext)
  cases a
  cases b
  simp only [TrustedReading.mk.injEq]
  exact ⟨compare_eq_iff_eq.1 htime, compare_eq_iff_eq.1 hvalue, hprov⟩

variable [Std.TransCmp host.localeCompare]

theorem planReevaluation_perm {sha : String → String} {pow2 : ℚ → ℚ}
    (hids : (input.records.map (·.id)).Nodup) {readings : List TrustedReading}
    (hrecords : records.Perm input.records) (hread : readings.Perm input.trustedReadings) :
    planReevaluation host sha pow2 { input with records, trustedReadings := readings } =
      planReevaluation host sha pow2 input := by
  have hsortedRecords : sortBy (planOrder host) input.records =
      sortBy (planOrder host) records := by
    apply sortBy_eq_of_perm hrecords.symm
    intro a ha b hb hcmp
    exact inj_on_of_nodup_map hids ha hb (id_eq_of_planOrder hcmp)
  have hsortedReadings : sortBy (replayOrder host) input.trustedReadings =
      sortBy (replayOrder host) readings := by
    apply sortBy_eq_of_perm hread.symm
    intro a _ b _ hcmp
    exact eq_of_replayOrder hcmp
  rw [planReevaluation_eq, planReevaluation_eq, planSorted_of_input, hsortedRecords,
    hsortedReadings]

end Order

/-! ## One pass over the records -/

/-- The item is what the planner makes of the record: the record's data, the action and the payout
it stands for. -/
structure IsItemOf (rec : AdjudicationRecord) (item : ReevaluationItem) : Prop where
  recordId : item.recordId = rec.id
  policyId : item.policyId = rec.policyId
  payoutDelta : item.payoutDelta =
    match item.action with
    | .settle => rec.coverageAmount
    | .flagOverpayment => -rec.paid
    | _ => 0

variable {rec : AdjudicationRecord} {item : ReevaluationItem} {items : List ReevaluationItem}
  {pow2 : ℚ → ℚ} {readings : List TrustedReading}

theorem decideAction_payoutDelta (rec : AdjudicationRecord) (after : CorrectedOutcome)
    (paid : List String) :
    (decideAction rec after paid).2 =
      match (decideAction rec after paid).1 with
      | .settle => rec.coverageAmount
      | .flagOverpayment => -rec.paid
      | _ => 0 := by
  simp only [decideAction]
  cases after with
  | insufficientData => rfl
  | triggered =>
    cases rec.outcome with
    | settled => rfl
    | held | skipped => dsimp only; split <;> rfl
  | notTriggered =>
    cases rec.outcome with
    | settled => exact Int.zero_sub _
    | held | skipped => rfl

variable {paid : List String}

theorem decideAction_settle {after : CorrectedOutcome}
    (h : (decideAction rec after paid).1 = .settle) : rec.policyId ∉ paid := by
  simp only [decideAction] at h
  split at h <;> (try split at h) <;> first | assumption | cases h

theorem planItem_ok (h : planItem pow2 input readings paid rec = .ok item) :
    IsItemOf rec item ∧ (item.action = .settle → rec.policyId ∉ paid) := by
  obtain ⟨⟨after, reason, confirmedAt⟩, -, h⟩ := exceptBind_eq_ok h
  cases h
  exact ⟨⟨rfl, rfl, decideAction_payoutDelta rec after paid⟩, decideAction_settle⟩

/-- The policies the items settle. -/
def settledPolicies (items : List ReevaluationItem) : List String :=
  (items.filter fun i => i.action = .settle).map (·.policyId)

/-- The pass makes one item for each record; it settles no policy twice, and none paid before. -/
theorem planItems_spec (h : planItems pow2 input readings records paid = .ok items) :
    List.Forall₂ IsItemOf records items ∧ (settledPolicies items).Nodup ∧
      ∀ p ∈ settledPolicies items, p ∉ paid := by
  induction records generalizing paid items with
  | nil =>
    cases h
    exact ⟨.nil, nodup_nil, fun p hp => nomatch hp⟩
  | cons rec rest ih =>
    obtain ⟨item, hitem, h⟩ := exceptBind_eq_ok h
    obtain ⟨items', hitems, h⟩ := exceptBind_eq_ok h
    cases h
    obtain ⟨hof, hsettle⟩ := planItem_ok hitem
    obtain ⟨hforall, hnd, hfresh⟩ := ih hitems
    refine ⟨.cons hof hforall, ?_⟩
    by_cases haction : item.action = .settle
    · -- The policy is paid for the rest of the pass.
      rw [if_pos haction] at hfresh
      have hcons : settledPolicies (item :: items') = rec.policyId :: settledPolicies items' := by
        simp only [settledPolicies, filter_cons, haction, decide_true, if_true,
          map_cons, hof.policyId]
      rw [hcons, nodup_cons, forall_mem_cons]
      refine ⟨⟨?_, hnd⟩, hsettle haction, ?_⟩
      · intro hmem
        exact hfresh _ hmem (by simp)
      · intro p hp hpaid
        exact hfresh p hp (mem_append_left _ hpaid)
    · rw [if_neg haction] at hfresh
      have hcons : settledPolicies (item :: items') = settledPolicies items' := by
        simp only [settledPolicies, filter_cons, haction, decide_false]
        rfl
      rw [hcons]
      exact ⟨hnd, hfresh⟩

/-! ## Sound plans -/

/-- The record an item is about. -/
def recordOf (records : List AdjudicationRecord) (item : ReevaluationItem) :
    Option AdjudicationRecord :=
  records.find? fun r => r.id = item.recordId

/-- What a plan guarantees about the records it was made from. -/
structure SoundPlan (input : ReevaluationPlanInput) (plan : ReevaluationPlan) : Prop where
  oneItemEach : (plan.items.map fun i => (i.recordId, i.policyId)).Perm
    (input.records.map fun r => (r.id, r.policyId))
  settlesOnce : (settledPolicies plan.items).Nodup
  settlesUnpaid : ∀ p ∈ settledPolicies plan.items,
    p ∉ input.alreadyPaidPolicies ∧ ∀ rec ∈ input.records, rec.policyId = p → rec.outcome ≠ .settled
  netPayoutDelta : plan.summary.netPayoutDelta =
    ((plan.items.filter fun i => i.action = .settle).map fun i =>
      ((recordOf input.records i).map (·.coverageAmount)).getD 0).sum -
    ((plan.items.filter fun i => i.action = .flagOverpayment).map fun i =>
      ((recordOf input.records i).map (·.paid)).getD 0).sum

variable {host : Host} {sha : String → String}

theorem recordOf_eq (hids : (records.map (·.id)).Nodup) (hrec : rec ∈ records)
    (hitem : item.recordId = rec.id) : recordOf records item = some rec := by
  rw [recordOf, hitem]
  exact UniqueKey.findByKey_eq hids hrec

/-- A total of signed changes, split by the action. -/
theorem sum_payoutDelta {coverage paid : ReevaluationItem → Int} (h : ∀ i ∈ items, i.payoutDelta =
      match i.action with
      | .settle => coverage i
      | .flagOverpayment => -paid i
      | _ => 0) :
    (items.map (·.payoutDelta)).sum =
      ((items.filter fun i => i.action = .settle).map coverage).sum -
        ((items.filter fun i => i.action = .flagOverpayment).map paid).sum := by
  induction items with
  | nil => rfl
  | cons i _ ih =>
    have hi := h i mem_cons_self
    have hrest := ih fun j hj => h j (mem_cons_of_mem _ hj)
    simp only [map_cons, sum_cons, hrest, hi, filter_cons]
    cases i.action with
    | settle | flagOverpayment => simp; omega
    | release | noChange | superseded | manualReview => simp

theorem exists_record (h : List.Forall₂ IsItemOf records items) (hitem : item ∈ items) :
    ∃ rec ∈ records, IsItemOf rec item := by
  induction h with
  | nil => cases hitem
  | cons hof _ ih =>
    rcases mem_cons.1 hitem with rfl | hitem
    · exact ⟨_, mem_cons_self, hof⟩
    · exact exists_mem_cons_of_exists (ih hitem)

theorem map_items (h : List.Forall₂ IsItemOf records items) :
    items.map (fun i => (i.recordId, i.policyId)) = records.map fun r => (r.id, r.policyId) := by
  induction h with
  | nil => rfl
  | cons hof _ ih => rw [map_cons, map_cons, ih, hof.recordId, hof.policyId]

theorem soundPlan_of_ok (hids : (input.records.map (·.id)).Nodup) {plan : ReevaluationPlan}
    (h : planReevaluation host sha pow2 input = .ok plan) : SoundPlan input plan := by
  rw [planReevaluation_eq] at h
  have hperm := @sortBy_perm _ (planOrder host) input.records
  obtain ⟨items, hitems, hplan⟩ := exceptBind_eq_ok h
  cases hplan
  obtain ⟨hforall, hnd, hfresh⟩ := planItems_spec hitems
  refine ⟨?_, hnd, ?_, ?_⟩
  · rw [map_items hforall]
    exact hperm.map _
  · intro p hp
    have hnot := hfresh p hp
    rw [mem_append, not_or] at hnot
    refine ⟨hnot.1, ?_⟩
    intro rec hrec hpol hsettled
    refine hnot.2 (mem_map.2 ⟨rec, mem_filter.2 ⟨hperm.mem_iff.2 hrec, ?_⟩, hpol⟩)
    exact decide_eq_true hsettled
  · apply sum_payoutDelta
    intro item hitem
    obtain ⟨rec, hrec, hof⟩ := exists_record hforall hitem
    rw [recordOf_eq hids (hperm.mem_iff.1 hrec) hof.recordId]
    exact hof.payoutDelta

/-! ## When a plan is returned -/

variable {config : TriggerStabilityConfig ℚ} {rec : AdjudicationRecord}

/-- The confirmation times of a replay can be printed. -/
structure Printable (rec : AdjudicationRecord)
    (acc : OrdMap String (TriggerKeyState ℚ) × Option ℚ) : Prop where
  state : ∀ t, (stateOf acc.1 rec.id).confirmedAt = some t → |t| ≤ maxTimeValue
  found : ∀ t, acc.2 = some t → |t| ≤ maxTimeValue

theorem replayReading_returns (hval : validateTriggerConfig config = .ok ())
    {acc : OrdMap String (TriggerKeyState ℚ) × Option ℚ} (hacc : Printable rec acc)
    {r : TrustedReading} (hr : |r.observedAt| ≤ maxTimeValue) :
    ∃ acc', replayReading pow2 config rec acc r = .ok acc' ∧ Printable rec acc' := by
  obtain ⟨e, heval⟩ := @evaluate_returns ℚ _ _ pow2 config hval acc.1 rec.id
    ⟨r.value, rec.threshold, rec.direction, r.observedAt⟩
  have hspec := evaluate_ok heval
  have hst : ∀ t, (stateOf e.states rec.id).confirmedAt = some t → |t| ≤ maxTimeValue := by
    intro t ht
    rw [hspec.state] at ht
    rcases confirmedAt_observe ht with rfl | hold
    · exact hr
    · exact hacc.state t hold
  simp only [replayReading, heval, exceptOk_bind]
  refine ⟨_, rfl, hst, ?_⟩
  intro t ht
  split at ht
  · rw [hspec.confirmedAt] at ht
    split at ht
    · exact hst t ht
    · cases ht
  · exact hacc.found t ht

theorem foldlM_replayReading_returns (hval : validateTriggerConfig config = .ok ())
    {window : List TrustedReading} (hwin : ∀ r ∈ window, |r.observedAt| ≤ maxTimeValue)
    {acc : OrdMap String (TriggerKeyState ℚ) × Option ℚ} (hacc : Printable rec acc) :
    ∃ acc', window.foldlM (replayReading pow2 config rec) acc = .ok acc' ∧ Printable rec acc' := by
  induction window generalizing acc with
  | nil => exact ⟨acc, rfl, hacc⟩
  | cons r _ ih =>
    obtain ⟨next, hnext, hprint⟩ :=
      @replayReading_returns pow2 config rec hval acc hacc r (hwin r mem_cons_self)
    rw [foldlM_cons, hnext]
    exact ih (fun r' hr' => hwin r' (mem_cons_of_mem _ hr')) hprint

theorem correctedOutcome_returns (hval : validateTriggerConfig config = .ok ())
    {window : List TrustedReading} (hwin : ∀ r ∈ window, |r.observedAt| ≤ maxTimeValue) :
    ∃ outcome, correctedOutcome pow2 config rec window = .ok outcome := by
  simp only [correctedOutcome, replayWindow]
  split
  · exact ⟨_, rfl⟩
  obtain ⟨⟨states, found⟩, hreplay, hprint⟩ :=
    @foldlM_replayReading_returns pow2 config rec hval window hwin (OrdMap.empty, none)
      ⟨(fun t ht => nomatch ht), (fun t ht => nomatch ht)⟩
  rw [hreplay]
  cases found with
  | none => exact ⟨_, rfl⟩
  | some confirmedAt =>
    obtain ⟨iso, hiso⟩ := toISOString_of_abs_le (hprint.found confirmedAt rfl)
    refine ⟨(.triggered, "trigger confirmed on trusted data at " ++ iso, some confirmedAt), ?_⟩
    change (toISOString confirmedAt >>= _) = _
    rw [hiso]
    rfl

theorem planItems_returns {input : ReevaluationPlanInput} {readings : List TrustedReading}
    (hread : ∀ r ∈ readings, |r.observedAt| ≤ maxTimeValue) {records : List AdjudicationRecord}
    (hval : ∀ rec ∈ records,
      validateTriggerConfig (input.triggerConfigFor rec.coverageType) = .ok ())
    (paid : List String) : ∃ items, planItems pow2 input readings records paid = .ok items := by
  induction records generalizing paid with
  | nil => exact ⟨[], rfl⟩
  | cons rec _ ih =>
    obtain ⟨outcome, hout⟩ := @correctedOutcome_returns pow2 _ rec (hval rec mem_cons_self)
      (readings.filter fun r => rec.decidedAt - input.lookbackMs ≤ r.observedAt ∧
        r.observedAt ≤ min (input.restoredAt + input.confirmWindowMs) rec.expiresAt)
      fun r hr => hread r (mem_filter.1 hr).1
    obtain ⟨item, hitem⟩ : ∃ item, planItem pow2 input readings paid rec = .ok item := by
      simp only [planItem, hout, exceptOk_bind]
      exact ⟨_, rfl⟩
    obtain ⟨items, hitems⟩ := ih (fun r hr => hval r (mem_cons_of_mem _ hr))
      (if item.action = .settle then paid ++ [rec.policyId] else paid)
    exact ⟨item :: items, by simp only [planItems, hitem, exceptOk_bind, hitems]⟩

/-- With valid trigger configurations and readings a `Date` can hold, there is a plan. -/
theorem planReevaluation_returns (hval : ∀ rec ∈ input.records,
      validateTriggerConfig (input.triggerConfigFor rec.coverageType) = .ok ())
    (htimes : ∀ r ∈ input.trustedReadings, |r.observedAt| ≤ maxTimeValue) :
    ∃ plan, planReevaluation host sha pow2 input = .ok plan := by
  rw [planReevaluation_eq]
  obtain ⟨items, hitems⟩ := @planItems_returns pow2 input
    (sortBy (replayOrder host) input.trustedReadings)
    (fun r hr => htimes r (mem_sortBy.1 hr))
    (sortBy (planOrder host) input.records)
    (fun r hr => hval r (mem_sortBy.1 hr))
    (input.alreadyPaidPolicies ++ ((sortBy (planOrder host) input.records).filter
      fun r => r.outcome = .settled).map (·.policyId))
  simp only [planSorted, hitems, exceptOk_bind]
  exact ⟨_, rfl⟩

/-- With distinct record ids the order of records and readings does not matter, and every plan pays
a policy at most once and accounts for every record. -/
theorem sound_plan {host : Host} [Std.TransCmp host.localeCompare]
    [Std.LawfulEqCmp host.localeCompare] (sha : String → String) (pow2 : ℚ → ℚ)
    (input : ReevaluationPlanInput) (hids : (input.records.map (·.id)).Nodup) :
    (∀ records trustedReadings, records.Perm input.records →
      trustedReadings.Perm input.trustedReadings →
      planReevaluation host sha pow2 { input with records, trustedReadings } =
        planReevaluation host sha pow2 input) ∧
    (∀ plan, planReevaluation host sha pow2 input = .ok plan → SoundPlan input plan) ∧
    ((∀ rec ∈ input.records,
        validateTriggerConfig (input.triggerConfigFor rec.coverageType) = .ok ()) →
      (∀ r ∈ input.trustedReadings, |r.observedAt| ≤ maxTimeValue) →
      ∃ plan, planReevaluation host sha pow2 input = .ok plan) := by
  refine ⟨?_, ?_, ?_⟩
  · intro records trustedReadings hrecords hreadings
    exact planReevaluation_perm hids hrecords hreadings
  · intro plan hplan
    exact soundPlan_of_ok hids hplan
  · intro hvalid htimes
    exact planReevaluation_returns hvalid htimes

/-- A record of a policy on a feed that was not trusted. -/
def usdcRecord (id policyId : String) (outcome : AdjudicationOutcome) (decidedAt threshold : ℚ)
    (coverageAmount paid : Int) : AdjudicationRecord :=
  ⟨id, policyId, "holder", 0, "usdc-usd", outcome, .disputed, decidedAt, 1, threshold, .below,
    coverageAmount, paid, 2000000, none, none⟩

/-- Two held claims of one policy, and a claim that should not have been paid. -/
def usdcInput : ReevaluationPlanInput where
  feedId := "usdc-usd"
  degradedSince := 0
  restoredAt := 1000000
  records := [usdcRecord "r2" "p1" .held 600000 (95 / 100) 500 0,
    usdcRecord "r1" "p1" .held 500000 (95 / 100) 500 0,
    usdcRecord "r3" "p2" .settled 550000 (50 / 100) 300 300]
  trustedReadings := [⟨900000, 90 / 100, .quorum⟩, ⟨500000, 91 / 100, .operatorBackfill⟩]
  triggerConfigFor _ := defaultTriggerConfig (some 0) ⟨none, none⟩
  alreadyPaidPolicies := []
  lookbackMs := 300000
  confirmWindowMs := 300000

theorem sound_plan_usdcInput :
    ∃ plan, planReevaluation plainHost id (fun _ => 1) usdcInput = .ok plan ∧
      SoundPlan usdcInput plan ∧
      plan.items.map (fun i => (i.recordId, i.action)) =
        [("r1", .settle), ("r3", .flagOverpayment), ("r2", .superseded)] ∧
      plan.summary.netPayoutDelta = 200 := by
  obtain ⟨-, hsound, -⟩ := @sound_plan plainHost _ _ id (fun _ => 1) usdcInput (by decide +kernel)
  exact ⟨_, eq_ok_get (by decide +kernel), hsound _ (eq_ok_get _), by decide +kernel,
    by decide +kernel⟩

end Refract.Claim
