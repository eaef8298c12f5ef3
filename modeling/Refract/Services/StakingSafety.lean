import Refract.Lib.Waterfall
import Refract.Services.Staking

/-!
# Stake is conserved

In every run of the staking operations the stake an operator ever bonded is bonded, unbonding,
withdrawn or slashed (`StakeConserved`), no amount is negative, and there is one proposal for a
reason and its evidence. `staking_safe` adds what single calls do: a withdrawal releases nothing
while a proposal is open, and an execution takes the smaller of the proposal's amount and the stake
at risk, from the bond first and then from the lots in request order (`drain`).

The invariant has two sides that the operations touch one at a time: the stake (`StakeSide`) and the
proposals (`ProposalSide`).
-/

namespace Refract.Services

open Lib List OrdMap StakingEvent

/-! ## Totals -/

/-- The stake an operator has bonded now. -/
def bondedOf (db : StakingDb) (operatorId : String) : Int :=
  ((db.bonds.get? operatorId).map (·.bondedAmount)).getD 0

/-- What an operator has in unbonding lots. -/
def unbondingTotal (db : StakingDb) (operatorId : String) : Int :=
  sumWhere (·.isUnbondingOf operatorId) (·.amount) db.requests

/-- The lot of an operator has been withdrawn. -/
def UnbondRequest.isWithdrawnOf (operatorId : String) (r : UnbondRequest) : Bool :=
  decide (r.operatorId = operatorId ∧ r.status = .withdrawn)

/-- What an operator has withdrawn. -/
def withdrawnTotal (db : StakingDb) (operatorId : String) : Int :=
  sumWhere (·.isWithdrawnOf operatorId) (·.amount) db.requests

/-- What an event adds to the stake an operator ever bonded. -/
def StakingEvent.bondedBy (operatorId : String) : StakingEvent → Int
  | .bonded id amount => if id = operatorId then amount else 0
  | .slashed .. => 0

/-- What an event takes from an operator by a slash. -/
def StakingEvent.slashedFrom (operatorId : String) : StakingEvent → Int
  | .slashed id _ amount => if id = operatorId then amount else 0
  | .bonded .. => 0

/-- The stake an operator ever bonded. -/
def everBonded (trace : List StakingEvent) (operatorId : String) : Int :=
  (trace.map (·.bondedBy operatorId)).sum

/-- What executed slashes took from an operator. -/
def slashedTotal (trace : List StakingEvent) (operatorId : String) : Int :=
  (trace.map (·.slashedFrom operatorId)).sum

/-! ## The property -/

/-- What holds of the stake and the proposals at any time. -/
structure StakeConserved (s : StakingState) : Prop where
  bonded_nonneg : ∀ operatorId, 0 ≤ bondedOf s.db operatorId
  lot_nonneg : ∀ r ∈ s.db.requests, 0 ≤ r.amount
  withdrawn_nonneg : ∀ operatorId, 0 ≤ withdrawnTotal s.db operatorId
  conserved : ∀ operatorId, bondedOf s.db operatorId + unbondingTotal s.db operatorId +
    withdrawnTotal s.db operatorId + slashedTotal s.trace operatorId =
      everBonded s.trace operatorId
  oneProposal : UniqueKey (fun p => (p.reason, p.evidenceIds)) s.db.proposals

/-- What the execution of a proposal does to the stake of its operator. -/
structure SlashTaken (s s' : StakingState) (proposal : SlashingProposal)
    (lots : List UnbondRequest) (slash : Int) : Prop where
  amount : slash = min proposal.amount
    (bondedOf s.db proposal.operatorId + unbondingTotal s.db proposal.operatorId)
  recorded : s'.trace = s.trace ++ [.slashed proposal.operatorId proposal.id slash]
  bond : bondedOf s'.db proposal.operatorId = bondedOf s.db proposal.operatorId -
    min (bondedOf s.db proposal.operatorId) slash
  ordered : s.db.SelectsLots proposal.operatorId lots
  fromLots : List.Forall₂ (fun lot take => ∃ lot' ∈ s'.db.requests, lot'.id = lot.id ∧
      lot'.amount = lot.amount - take) lots
    (drain (slash - min (bondedOf s.db proposal.operatorId) slash) (lots.map (·.amount)))
  others : (∀ operatorId, operatorId ≠ proposal.operatorId →
      s'.db.bonds.get? operatorId = s.db.bonds.get? operatorId) ∧
    ∀ r ∈ s.db.requests, r ∉ lots → r ∈ s'.db.requests
  executed : ∀ p ∈ s'.db.proposals, p.id = proposal.id → p.status = .executed

/-- What a call may do in a state. -/
def SafeCall (s : StakingState) (s' : StakingState) : StakingCall → Prop
  | .withdraw operatorId _ =>
    (∃ p ∈ s.db.proposals, p.operatorId = operatorId ∧ p.status.isOpen = true) → s' = s
  | .executeProposal proposalId txHash lots =>
    (s' = s ∧ ∀ p ∈ s.db.proposals, p.id = proposalId → p.status = .approved →
      isBlank txHash = true) ∨
    ∃ proposal ∈ s.db.proposals, proposal.id = proposalId ∧ proposal.status = .approved ∧
      ∃ slash, SlashTaken s s' proposal lots slash
  | _ => True

/-! ## Amounts -/

theorem le_foldl_digits (digits : List Char) (n : Nat) :
    n ≤ digits.foldl (fun n c => 10 * n + (c.toNat - '0'.toNat)) n := by
  induction digits generalizing n with
  | nil => exact le_refl n
  | cons c _ ih =>
    have hstep : n ≤ 10 * n + (c.toNat - '0'.toNat) := by omega
    exact hstep.trans (ih _)

variable {value : JsValue} {amount : Int}

theorem parseAmount_pos {field : String} (h : parseAmount value field = .ok amount) :
    0 < amount := by
  simp only [parseAmount] at h
  split at h
  · rename_i first rest _
    split at h
    · rename_i hdigits
      cases h
      have hfst : 1 ≤ first.toNat - '0'.toNat := by
        have hdigit := hdigits.1
        have hne := hdigits.2.1
        simp only [Char.isDigit, Bool.and_eq_true, decide_eq_true_eq] at hdigit
        have hval : first.toNat ≠ '0'.toNat := fun heq => hne (Char.toNat_inj.1 heq)
        have hge : '0'.toNat ≤ first.toNat := hdigit.1
        omega
      have hvalue := le_foldl_digits rest (10 * 0 + (first.toNat - '0'.toNat))
      have hpos : 0 < digitsValue (first :: rest) := by
        rw [digitsValue, foldl_cons]
        omega
      exact_mod_cast hpos
    · cases h
  · cases h

/-! ## Taking a slash from the lots -/

variable {lots requests : List UnbondRequest} {taken : OrdMap String Int} {operatorId : String}

/-- The loop over the lots takes what `drain` takes, and notes it where it is positive. -/
theorem takeFromLots_spec (hids : UniqueKey (·.id) lots) (hamts : ∀ lot ∈ lots, 0 ≤ lot.amount)
    {remaining : Int} (hrem : 0 ≤ remaining) (hfresh : ∀ lot ∈ lots, taken.get? lot.id = none) :
    (takeFromLots remaining lots taken).1 =
        remaining - (drain remaining (lots.map (·.amount))).sum ∧
      List.Forall₂ (fun lot take => (takeFromLots remaining lots taken).2.get? lot.id =
        if 0 < take then some take else none) lots (drain remaining (lots.map (·.amount))) ∧
      ∀ id, id ∉ lots.map (·.id) →
        (takeFromLots remaining lots taken).2.get? id = taken.get? id := by
  induction lots generalizing remaining taken with
  | nil => exact ⟨(sub_zero _).symm, .nil, fun _ _ => rfl⟩
  | cons lot rest ih =>
    rw [UniqueKey, map_cons, nodup_cons] at hids
    simp only [takeFromLots]
    split
    · rename_i hzero
      subst hzero
      rw [drain_zero (forall_mem_map.2 hamts), map_map]
      refine ⟨by simp [Function.comp_def], ?_, fun _ _ => rfl⟩
      rw [forall₂_map_right_iff]
      refine forall₂_same.2 ?_
      intro l hl
      exact hfresh l hl
    have hle : min lot.amount remaining ≤ remaining := min_le_right _ _
    have hne : ∀ l ∈ rest, l.id ≠ lot.id :=
      fun l hl heq => hids.1 (mem_map.2 ⟨l, hl, heq⟩)
    have hfresh' : ∀ l ∈ rest, (if 0 < min lot.amount remaining then
        taken.set lot.id (min lot.amount remaining) else taken).get? l.id = none := by
      intro l hl
      split
      · rw [get?_set_of_ne (hne l hl)]
        exact hfresh l (mem_cons_of_mem _ hl)
      · exact hfresh l (mem_cons_of_mem _ hl)
    obtain ⟨hremain, htakes, hoth⟩ := ih hids.2
      (fun l hl => hamts l (mem_cons_of_mem _ hl)) (sub_nonneg.2 hle) hfresh'
    refine ⟨?_, .cons ?_ htakes, ?_⟩
    · rw [hremain, map_cons, drain, sum_cons, sub_sub]
    · rw [hoth lot.id hids.1]
      split
      · exact get?_set_self
      · exact hfresh lot mem_cons_self
    · intro id hid
      rw [map_cons, mem_cons, not_or] at hid
      rw [hoth id hid.2]
      split
      · exact get?_set_of_ne hid.1
      · rfl

/-- What the map notes for a lot. -/
def takenFrom (taken : OrdMap String Int) (id : String) : Int := (taken.get? id).getD 0

/-- A lot after the slash. -/
def slashedLot (taken : OrdMap String Int) (r : UnbondRequest) : UnbondRequest :=
  match taken.get? r.id with
  | none => r
  | some take =>
    { r with
      amount := r.amount - take
      status := if r.amount - take = 0 then .slashed else r.status }

theorem slashedLot_amount (taken : OrdMap String Int) (r : UnbondRequest) :
    (slashedLot taken r).amount = r.amount - takenFrom taken r.id := by
  simp only [slashedLot, takenFrom]
  cases taken.get? r.id with
  | none => exact (sub_zero _).symm
  | some => rfl

theorem slashedLot_id {r : UnbondRequest} : (slashedLot taken r).id = r.id := by
  simp only [slashedLot]
  split <;> rfl

/-- A lot is updated from the row it was read from. -/
theorem slashLot_eq {lot : UnbondRequest} (hrow : ∀ r ∈ requests, r.id = lot.id → r = lot) :
    slashLot taken requests lot =
      requests.map fun r => if r.id = lot.id then slashedLot taken r else r := by
  rw [slashLot]
  split
  · rename_i hnone
    refine (map_id _).symm.trans (map_congr_left ?_)
    intro r _
    split
    · rename_i hid
      simp only [slashedLot, hid, hnone, id]
    · rfl
  · rename_i take htake
    refine map_congr_left ?_
    intro r hr
    by_cases hid : r.id = lot.id
    · cases hrow r hr hid
      simp only [slashedLot, htake, decide_true, if_true]
    · simp [hid]

theorem foldl_slashLot (hids : UniqueKey (·.id) requests) (hlots : UniqueKey (·.id) lots)
    (hmem : ∀ lot ∈ lots, lot ∈ requests) :
    lots.foldl (slashLot taken) requests =
      requests.map fun r => if r.id ∈ lots.map (·.id) then slashedLot taken r else r := by
  -- The updates come in order, so the induction takes the last lot off.
  induction lots using List.reverseRecOn with
  | nil => simp
  | append_singleton lots lot ih =>
    rw [UniqueKey, map_append, nodup_append] at hlots
    have hnew : ∀ r : UnbondRequest, r.id = lot.id → r.id ∉ lots.map (·.id) :=
      fun r hid hin => hlots.2.2 lot.id (hid ▸ hin) lot.id (by simp) rfl
    rw [foldl_append, ih hlots.1 fun l hl => hmem l (mem_append_left _ hl), foldl_cons, foldl_nil,
      slashLot_eq, map_map]
    · refine map_congr_left ?_
      intro r _
      by_cases hid : r.id = lot.id
      · simp only [Function.comp_apply, if_neg (hnew r hid), if_pos hid]
        simp [hid]
      by_cases hin : r.id ∈ lots.map (·.id)
      · simp only [Function.comp_apply, if_pos hin, slashedLot_id, if_neg hid]
        simp [mem_map.1 hin]
      · simp only [Function.comp_apply, if_neg hin, if_neg hid]
        simp [mem_append, hin, hid]
    · -- The row of the lot has not been touched before.
      intro r' hr' hid
      obtain ⟨r, hr, rfl⟩ := mem_map.1 hr'
      split at hid
      · rename_i hin
        exact absurd hin (hnew r (slashedLot_id.symm.trans hid))
      · rename_i hin
        rw [if_neg hin]
        exact hids.eq hr (hmem lot (by simp)) hid

/-- A slash of the unbonding lots of an operator, as the execution of a proposal computes it. -/
structure LotsSlashed (requests lots : List UnbondRequest) (operatorId : String)
    (taken : OrdMap String Int) (takes : List Int) : Prop where
  selected : lots.Perm (requests.filter (·.isUnbondingOf operatorId))
  noted : List.Forall₂ (fun lot take => taken.get? lot.id = if 0 < take then some take else none)
    lots takes
  bounds : List.Forall₂ (fun take pot => 0 ≤ take ∧ take ≤ pot) takes (lots.map (·.amount))
  only : ∀ id, id ∉ lots.map (·.id) → taken.get? id = none

namespace LotsSlashed

variable {takes : List Int} (h : LotsSlashed requests lots operatorId taken takes)

include h

theorem mem {lot : UnbondRequest} (hlot : lot ∈ lots) :
    lot ∈ requests ∧ lot.isUnbondingOf operatorId = true :=
  mem_filter.1 (h.selected.mem_iff.1 hlot)

/-- The map notes what was taken from each lot. -/
theorem takenFrom_eq : (lots.map fun lot => takenFrom taken lot.id) = takes := by
  have hnoted := h.noted
  have hbnd := forall₂_map_right_iff.1 h.bounds
  clear h
  induction hnoted with
  | nil => rfl
  | cons hget _ ih =>
    cases hbnd with
    | cons hhead htail =>
      rw [map_cons, ih htail, takenFrom, hget]
      congr 1
      split
      · rfl
      · rename_i hpos
        exact le_antisymm hhead.1 (not_lt.1 hpos)

variable (hids : UniqueKey (·.id) requests)

include hids

theorem uniqueKey : UniqueKey (·.id) lots := hids.of_perm_filter h.selected

/-- A row the map notes something for is an unbonding lot of the operator. -/
theorem of_noted {r : UnbondRequest} (hr : r ∈ requests) {take : Int}
    (htake : taken.get? r.id = some take) : r ∈ lots ∧ take ≤ r.amount := by
  have hmem : r ∈ lots := by
    by_contra hnot
    refine absurd htake ?_
    rw [h.only r.id]
    · exact fun h => nomatch h
    · intro hid
      obtain ⟨lot, hlot, heq⟩ := mem_map.1 hid
      exact hnot (hids.eq (h.mem hlot).1 hr heq ▸ hlot)
  have hbounds := h.bounds
  rw [← h.takenFrom_eq, forall₂_map_left_iff, forall₂_map_right_iff, forall₂_same] at hbounds
  have hle := (hbounds r hmem).2
  rw [takenFrom, htake] at hle
  exact ⟨hmem, hle⟩

/-- The unbonding stake falls by what was taken, and only that of the operator. -/
theorem unbonding (other : String) :
    sumWhere (·.isUnbondingOf other) (·.amount) requests =
      sumWhere (·.isUnbondingOf other) (·.amount) (requests.map (slashedLot taken)) +
        if other = operatorId then takes.sum else 0 := by
  have hrow : ∀ r ∈ requests, (if r.isUnbondingOf other then r.amount else 0) =
      (if (slashedLot taken r).isUnbondingOf other then (slashedLot taken r).amount else 0) +
        if r.isUnbondingOf operatorId = true ∧ other = operatorId then takenFrom taken r.id
        else 0 := by
    intro r hr
    cases htake : taken.get? r.id with
    | none => simp [slashedLot, takenFrom, htake]
    | some take =>
      have hunb := of_decide_eq_true (h.mem (h.of_noted hids hr htake).1).2
      simp only [slashedLot, htake, takenFrom, Option.getD_some, UnbondRequest.isUnbondingOf,
        hunb.1, hunb.2, and_true, true_and, decide_true]
      by_cases hoth : other = operatorId
      · subst hoth
        by_cases hzero : r.amount - take = 0
        · simp [sub_eq_zero.1 hzero]
        · simp [hzero]
      · simp [hoth, Ne.symm hoth]
  have hnoted : (requests.map fun r =>
      if r.isUnbondingOf operatorId = true ∧ other = operatorId then takenFrom taken r.id
        else 0).sum =
      if other = operatorId then takes.sum else 0 := by
    by_cases hoth : other = operatorId
    · simp only [hoth, and_true, if_true]
      rw [← h.takenFrom_eq, (h.selected.map fun lot => takenFrom taken lot.id).sum_eq]
      exact sumWhere_eq.symm
    · simp [hoth]
  rw [sumWhere_eq, map_congr_left hrow, sum_map_add, hnoted, sumWhere_eq, map_map]
  rfl

theorem withdrawn (other : String) :
    sumWhere (·.isWithdrawnOf other) (·.amount) (requests.map (slashedLot taken)) =
      sumWhere (·.isWithdrawnOf other) (·.amount) requests := by
  apply sumWhere_congr
  intro r hr
  cases htake : taken.get? r.id with
  | none => simp only [slashedLot, htake]
  | some =>
    have hstat := (of_decide_eq_true (h.mem (h.of_noted hids hr htake).1).2).2
    have hslashed : (slashedLot taken r).status ≠ .withdrawn := by
      simp only [slashedLot, htake]
      split
      · simp
      · rw [hstat]
        simp
    simp [UnbondRequest.isWithdrawnOf, hslashed, hstat]

theorem nonneg (hamts : ∀ r ∈ requests, 0 ≤ r.amount) :
    ∀ r ∈ requests.map (slashedLot taken), 0 ≤ r.amount := by
  intro r' hr'
  obtain ⟨r, hr, rfl⟩ := mem_map.1 hr'
  rw [slashedLot_amount, sub_nonneg, takenFrom]
  cases htake : taken.get? r.id with
  | none => exact hamts r hr
  | some => exact (h.of_noted hids hr htake).2

/-- All updates together. -/
theorem foldl : lots.foldl (slashLot taken) requests = requests.map (slashedLot taken) := by
  rw [foldl_slashLot hids (h.uniqueKey hids) fun lot hlot => (h.mem hlot).1]
  refine map_congr_left ?_
  intro r _
  split
  · rfl
  · rename_i hid
    simp only [slashedLot, h.only r.id hid]

end LotsSlashed

/-- The two sources of a slash cover it. -/
theorem allocateSlash_eq {bonded : Int} (hids : UniqueKey (·.id) lots)
    (hamts : ∀ lot ∈ lots, 0 ≤ lot.amount) (hcov : amount ≤ bonded + (lots.map (·.amount)).sum) :
    (drain (amount - min bonded amount) (lots.map (·.amount))).sum = amount - min bonded amount ∧
      allocateSlash bonded lots amount = .ok (min bonded amount,
        (takeFromLots (amount - min bonded amount) lots empty).2) := by
  have hpots : ∀ pot ∈ lots.map (·.amount), 0 ≤ pot := forall_mem_map.2 hamts
  have hrest : 0 ≤ amount - min bonded amount := sub_nonneg.2 (min_le_right _ _)
  have hfits : amount - min bonded amount ≤ (lots.map (·.amount)).sum := by
    have hsum : 0 ≤ (lots.map (·.amount)).sum := sum_nonneg hpots
    omega
  have hdrain : (drain (amount - min bonded amount) (lots.map (·.amount))).sum =
      amount - min bonded amount := by
    rw [sum_drain hrest hpots, min_eq_left hfits]
  have hrem := (takeFromLots_spec hids hamts hrest (fun lot _ => get?_empty)).1
  refine ⟨hdrain, ?_⟩
  simp only [allocateSlash]
  rw [if_pos (by rw [hrem, hdrain, sub_self])]

theorem lotsSlashed_takeFromLots (hids : UniqueKey (·.id) requests)
    (hamts : ∀ r ∈ requests, 0 ≤ r.amount)
    (hsel : lots.Perm (requests.filter (·.isUnbondingOf operatorId))) {rest : Int}
    (hrest : 0 ≤ rest) :
    LotsSlashed requests lots operatorId (takeFromLots rest lots empty).2
      (drain rest (lots.map (·.amount))) := by
  have hmem : ∀ lot ∈ lots, lot ∈ requests :=
    fun lot hlot => (mem_filter.1 (hsel.mem_iff.1 hlot)).1
  have hlots : UniqueKey (·.id) lots := hids.of_perm_filter hsel
  obtain ⟨_, hnoted, honly⟩ := takeFromLots_spec hlots (fun lot h => hamts lot (hmem lot h)) hrest
    (fun lot _ => get?_empty)
  refine ⟨hsel, hnoted, drain_bounds hrest ?_, honly⟩
  exact forall_mem_map.2 fun lot hlot => hamts lot (hmem lot hlot)

/-! ## The invariant -/

/-- The stake of every operator adds up. -/
structure StakeSide (db : StakingDb) (trace : List StakingEvent) : Prop where
  bonded : ∀ operatorId, 0 ≤ bondedOf db operatorId
  amounts : ∀ r ∈ db.requests, 0 ≤ r.amount
  requestIds : UniqueKey (·.id) db.requests
  conserved : ∀ operatorId, bondedOf db operatorId + unbondingTotal db operatorId +
    withdrawnTotal db operatorId + slashedTotal trace operatorId = everBonded trace operatorId

/-- Proposals have their own evidence, and a bond to slash. -/
structure ProposalSide (db : StakingDb) : Prop where
  ids : UniqueKey (·.id) db.proposals
  evidence : UniqueKey (·.evidenceKey) db.proposals
  keys : ∀ p ∈ db.proposals, p.evidenceKey = evidenceKey ⟨p.reason, p.evidenceIds⟩
  bonds : ∀ p ∈ db.proposals, (db.bonds.get? p.operatorId).isSome = true

/-- Two versions of a proposal about the same finding. -/
structure SameFinding (p' p : SlashingProposal) : Prop where
  id : p'.id = p.id
  operatorId : p'.operatorId = p.operatorId
  reason : p'.reason = p.reason
  evidenceIds : p'.evidenceIds = p.evidenceIds
  evidenceKey : p'.evidenceKey = p.evidenceKey

variable {db : StakingDb} {trace : List StakingEvent} {policy : StakingPolicy}
  {bonds : OrdMap String Bond}

theorem ProposalSide.of_bonds (h : ProposalSide db) (requests : List UnbondRequest)
    (hbonds : ∀ id, (db.bonds.get? id).isSome = true → (bonds.get? id).isSome = true) :
    ProposalSide ⟨bonds, requests, db.proposals⟩ :=
  { h with bonds := fun p hp => hbonds _ (h.bonds p hp) }

variable {allowed : SlashingProposal → Bool} {change : SlashingProposal → SlashingProposal}

/-- A change of status leaves the findings alone. -/
theorem ProposalSide.updateWhere (h : ProposalSide db) (hsame : ∀ p, SameFinding (change p) p) :
    ProposalSide { db with proposals := updateWhere allowed change db.proposals } := by
  refine ⟨h.ids.updateWhere fun p _ _ => (hsame p).id,
    h.evidence.updateWhere fun p _ _ => (hsame p).evidenceKey,
    forall_mem_updateWhere h.keys fun p _ _ hkey => ?_,
    forall_mem_updateWhere h.bonds fun p _ _ hbond => ?_⟩
  · rw [(hsame p).evidenceKey, (hsame p).reason, (hsame p).evidenceIds]
    exact hkey
  · rw [(hsame p).operatorId]
    exact hbond

variable {id : String}

theorem isSome_get?_set (bond : Bond) (h : (bonds.get? id).isSome = true) :
    ((bonds.set operatorId bond).get? id).isSome = true := by
  rw [get?_set]
  split
  · rfl
  · exact h

theorem bondedOf_set {proposals : List SlashingProposal} {bond : Bond} {other : String} :
    bondedOf ⟨db.bonds.set operatorId bond, requests, proposals⟩ other =
      if other = operatorId then bond.bondedAmount else bondedOf db other := by
  simp only [bondedOf, get?_set]
  split <;> rfl

theorem bondedOf_of_get? {bond : Bond} (h : db.bonds.get? operatorId = some bond) :
    bondedOf db operatorId = bond.bondedAmount := by
  simp only [bondedOf, h, Option.map_some, Option.getD_some]

/-! ### Bonding -/

variable {now : ℚ} {db' : StakingDb}

theorem recordBond_ok (h : recordBond db operatorId value now = .ok (db', amount)) :
    0 < amount ∧ ∃ bond : Bond, bond.bondedAmount = bondedOf db operatorId + amount ∧
      db' = { db with bonds := db.bonds.set operatorId bond } := by
  obtain ⟨parsed, hparse, hrest⟩ := exceptBind_eq_ok h
  cases hrest
  refine ⟨parseAmount_pos hparse, _, ?_, rfl⟩
  cases hbond : db.bonds.get? operatorId with
  | none | some => simp [bondedOf, hbond]

theorem StakeSide.recordBond (h : StakeSide db trace)
    (hcall : recordBond db operatorId value now = .ok (db', amount)) :
    StakeSide db' (trace ++ [StakingEvent.bonded operatorId amount]) := by
  obtain ⟨hpos, bond, hamt, rfl⟩ := recordBond_ok hcall
  have hbonded : ∀ other, bondedOf { db with bonds := db.bonds.set operatorId bond } other =
      bondedOf db other + if operatorId = other then amount else 0 := by
    intro other
    rw [bondedOf_set, hamt]
    by_cases hoth : other = operatorId
    · rw [if_pos hoth, if_pos hoth.symm, hoth]
    · rw [if_neg hoth, if_neg (Ne.symm hoth), add_zero]
  refine ⟨?_, h.amounts, h.requestIds, ?_⟩
  · intro other
    have hoth := h.bonded other
    rw [hbonded other]
    split <;> omega
  · intro other
    have hcons := h.conserved other
    rw [hbonded other]
    simp only [everBonded, slashedTotal, map_append, sum_append, map_singleton,
      sum_singleton, bondedBy, slashedFrom, add_zero] at hcons ⊢
    simp only [unbondingTotal, withdrawnTotal] at hcons ⊢
    omega

/-! ### Unbonding -/

variable {request : UnbondRequest}

theorem lockBond_eq_ok {bond : Bond} (h : lockBond db operatorId = .ok bond) :
    db.bonds.get? operatorId = some bond := by
  rw [lockBond] at h
  split at h
  · rename_i found hfound
    cases h
    exact hfound
  · cases h

theorem requestUnbond_ok
    (h : requestUnbond policy db operatorId value now id = .ok (db', request)) :
    ∃ bond, db.bonds.get? operatorId = some bond ∧ 0 < request.amount ∧
      request.amount ≤ bond.bondedAmount ∧ request.id = id ∧
      request.operatorId = operatorId ∧ request.status = .unbonding ∧
      db' = { db with
        bonds := db.bonds.set operatorId
          { bond with bondedAmount := bond.bondedAmount - request.amount }
        requests := db.requests ++ [request] } := by
  obtain ⟨amount, hparse, h⟩ := exceptBind_eq_ok h
  obtain ⟨bond, hlock, h⟩ := exceptBind_eq_ok h
  split at h
  · cases h
  rename_i hfits
  cases h
  exact ⟨bond, lockBond_eq_ok hlock, parseAmount_pos hparse, not_lt.1 hfits, rfl, rfl, rfl, rfl⟩

theorem StakeSide.requestUnbond (h : StakeSide db trace) (hfresh : ∀ r ∈ db.requests, r.id ≠ id)
    (hcall : requestUnbond policy db operatorId value now id = .ok (db', request)) :
    StakeSide db' trace := by
  obtain ⟨bond, hbond, hpos, hfits, hid, hoper, hstat, rfl⟩ := requestUnbond_ok hcall
  have hsum : ∀ other, sumWhere (·.isUnbondingOf other) (·.amount) [request] =
      if operatorId = other then request.amount else 0 := by
    intro other
    simp only [sumWhere_eq, map_singleton, sum_singleton, UnbondRequest.isUnbondingOf,
      hoper, hstat, and_true, decide_eq_true_eq]
  have hwithdrawn : ∀ other, sumWhere (·.isWithdrawnOf other) (·.amount) [request] = 0 := by
    simp [sumWhere_eq, UnbondRequest.isWithdrawnOf, hstat]
  have hbonded := bondedOf_of_get? hbond
  refine ⟨?_, ?_, ?_, ?_⟩
  · intro other
    have hoth := h.bonded other
    rw [bondedOf_set]
    split
    · exact sub_nonneg.2 hfits
    · exact hoth
  · exact forall_mem_snoc.2 ⟨h.amounts, hpos.le⟩
  · exact h.requestIds.insert fun r hr => by rw [hid]; exact hfresh r hr
  · intro other
    have hcons := h.conserved other
    rw [bondedOf_set]
    simp only [unbondingTotal, withdrawnTotal, sumWhere_append, hsum, hwithdrawn, add_zero]
      at hcons ⊢
    by_cases hoth : other = operatorId
    · subst hoth
      simp only [if_true]
      omega
    · simp only [hoth, Ne.symm hoth, if_false, add_zero]
      exact hcons

/-! ### Withdrawing -/

variable {released : Int}

theorem withdraw_ok (h : withdraw db operatorId now = .ok (db', released)) :
    (∀ p ∈ db.proposals, p.operatorId = operatorId → p.status.isOpen = false) ∧
      ∃ requests, requests = updateWhere (·.isReleased operatorId now)
          (fun r => { r with status := .withdrawn, withdrawnAt := some now }) db.requests ∧
        db' = { db with requests } := by
  obtain ⟨_, _, h⟩ := exceptBind_eq_ok h
  split at h
  · cases h
  rename_i hopen
  cases h
  refine ⟨?_, _, rfl, rfl⟩
  intro p hp hoper
  by_contra hne
  refine hopen (any_eq_true.2 ⟨p, hp, ?_⟩)
  rw [decide_eq_true hoper, Bool.true_and]
  exact eq_true_of_ne_false hne

theorem StakeSide.withdraw (h : StakeSide db trace)
    (hcall : withdraw db operatorId now = .ok (db', released)) : StakeSide db' trace := by
  obtain ⟨_, requests, hreqs, rfl⟩ := withdraw_ok hcall
  -- A released lot leaves the unbonding total and enters the withdrawn one.
  have hmov : ∀ other, unbondingTotal { db with requests } other +
      withdrawnTotal { db with requests } other =
      unbondingTotal db other + withdrawnTotal db other := by
    intro other
    simp only [unbondingTotal, withdrawnTotal, hreqs, sumWhere_eq, updateWhere, map_map,
      ← sum_map_add]
    refine congrArg List.sum (map_congr_left ?_)
    intro r _
    simp only [Function.comp_apply]
    split
    · rename_i hrel
      have hunb := of_decide_eq_true (Bool.and_eq_true_iff.1 hrel).1
      simp [UnbondRequest.isUnbondingOf, UnbondRequest.isWithdrawnOf, hunb.2]
    · rfl
  refine ⟨h.bonded, ?_, hreqs ▸ h.requestIds.updateWhere fun _ _ _ => rfl, ?_⟩
  · rw [hreqs]
    exact forall_mem_updateWhere h.amounts fun _ _ _ hamount => hamount
  · intro other
    have hcons := h.conserved other
    have htotals := hmov other
    simp only [bondedOf] at hcons ⊢
    omega

/-! ### Proposing -/

theorem ProposalSide.createProposal {finding : SlashableFinding}
    {proposal : Option SlashingProposal} (h : ProposalSide db)
    (hfresh : ∀ p ∈ db.proposals, p.id ≠ id)
    (hcall : createProposal policy db operatorId finding now id = .ok (db', proposal)) :
    ProposalSide db' ∧ db'.bonds = db.bonds ∧ db'.requests = db.requests := by
  simp only [Services.createProposal] at hcall
  split at hcall
  · cases hcall
    exact ⟨h, rfl, rfl⟩
  rename_i bond hbond
  split at hcall
  · cases hcall
    exact ⟨h, rfl, rfl⟩
  rename_i hnone
  split at hcall
  · cases hcall
    exact ⟨h, rfl, rfl⟩
  cases hcall
  have hnew : ∀ p ∈ db.proposals, p.evidenceKey ≠ evidenceKey finding := by
    intro p hp heq
    exact find?_eq_none.1 hnone p hp (decide_eq_true heq)
  refine ⟨⟨h.ids.insert hfresh, h.evidence.insert hnew, ?_, ?_⟩, rfl, rfl⟩
  · exact forall_mem_snoc.2 ⟨h.keys, rfl⟩
  · refine forall_mem_snoc.2 ⟨h.bonds, ?_⟩
    simp only [hbond, Option.isSome_some]

variable {proposalId : String}

theorem moveProposal_ok {p : SlashingProposal}
    (h : moveProposal db proposalId allowed change = .ok (db', p)) :
    db' = { db with
      proposals := updateWhere (fun p => decide (p.id = proposalId) && allowed p) change
        db.proposals } := by
  simp only [moveProposal] at h
  split at h <;> cases h
  rfl

theorem StakeSide.of_eq (h : StakeSide db trace) (hbonds : db'.bonds = db.bonds)
    (hreqs : db'.requests = db.requests) : StakeSide db' trace := by
  obtain ⟨bonds, requests, proposals⟩ := db'
  cases hbonds
  cases hreqs
  exact { h with }

theorem sides_moveProposal (hstake : StakeSide db trace) (hprop : ProposalSide db)
    (hsame : ∀ p, SameFinding (change p) p) :
    StakeSide (commit db (moveProposal db proposalId allowed change)) trace ∧
      ProposalSide (commit db (moveProposal db proposalId allowed change)) := by
  rcases hcall : moveProposal db proposalId allowed change with e | ⟨db', p⟩
  · exact ⟨hstake, hprop⟩
  · rw [commit, moveProposal_ok hcall]
    exact ⟨hstake.of_eq rfl rfl, hprop.updateWhere hsame⟩

/-! ### Executing -/

/-- What the execution of a proposal leaves behind. -/
def executedDb (db : StakingDb) (proposal : SlashingProposal) (txHash : String)
    (lots : List UnbondRequest) (bond : Bond) (slash : Int) : StakingDb where
  bonds := db.bonds.set proposal.operatorId
    { bond with bondedAmount := bond.bondedAmount - min bond.bondedAmount slash }
  requests := db.requests.map
    (slashedLot (takeFromLots (slash - min bond.bondedAmount slash) lots empty).2)
  proposals := updateWhere (fun p => decide (p.id = proposal.id))
    (fun p => { p with status := .executed, executionTxHash := some txHash }) db.proposals

/-- An approved proposal, its bond row and the lots it may reach, when it is executed. -/
structure Executable (db : StakingDb) (proposal : SlashingProposal) (lots : List UnbondRequest)
    (bond : Bond) (slash : Int) : Prop where
  mem : proposal ∈ db.proposals
  approved : proposal.status = .approved
  row : db.bonds.get? proposal.operatorId = some bond
  selected : lots.Perm (db.requests.filter (·.isUnbondingOf proposal.operatorId))
  slash : slash = min proposal.amount (bond.bondedAmount + (lots.map (·.amount)).sum)

variable {txHash : String} {proposal : SlashingProposal} {lots : List UnbondRequest} {bond : Bond}
  {slash : Int}

namespace Executable

variable (h : Executable db proposal lots bond slash) (hstake : StakeSide db trace)

include h

theorem sum_lots : (lots.map (·.amount)).sum = unbondingTotal db proposal.operatorId :=
  (h.selected.map UnbondRequest.amount).sum_eq

include hstake

theorem lotsSlashed :
    LotsSlashed db.requests lots proposal.operatorId
      (takeFromLots (slash - min bond.bondedAmount slash) lots empty).2
      (drain (slash - min bond.bondedAmount slash) (lots.map (·.amount))) :=
  lotsSlashed_takeFromLots hstake.requestIds hstake.amounts h.selected
    (sub_nonneg.2 (min_le_right _ _))

/-- The lots give what the bond does not. -/
theorem allocated :
    (drain (slash - min bond.bondedAmount slash) (lots.map (·.amount))).sum =
        slash - min bond.bondedAmount slash ∧
      allocateSlash bond.bondedAmount lots slash = .ok (min bond.bondedAmount slash,
        (takeFromLots (slash - min bond.bondedAmount slash) lots empty).2) := by
  have hlots := h.lotsSlashed hstake
  apply allocateSlash_eq (hlots.uniqueKey hstake.requestIds)
  · intro lot hlot
    exact hstake.amounts lot (hlots.mem hlot).1
  · exact h.slash.trans_le (min_le_right _ _)

theorem eq (hprop : ProposalSide db) (hhash : isBlank txHash = false) :
    executeProposal db proposal.id txHash lots = .ok (executedDb db proposal txHash lots bond slash,
        { proposal with status := .executed, executionTxHash := some txHash }, slash) := by
  have hfind : db.proposals.find? (fun p => decide (p.id = proposal.id)) = some proposal :=
    hprop.ids.findByKey_eq h.mem
  simp only [executeProposal, hhash, hfind, h.approved, lockBond, h.row, exceptOk_bind, ← h.slash,
    (h.allocated hstake).2, (h.lotsSlashed hstake).foldl hstake.requestIds]
  rfl

theorem stakeSide (txHash : String) : StakeSide (executedDb db proposal txHash lots bond slash)
      (trace ++ [slashed proposal.operatorId proposal.id slash]) := by
  have hlots := h.lotsSlashed hstake
  have hbonded := bondedOf_of_get? h.row
  refine ⟨?_, hlots.nonneg hstake.requestIds hstake.amounts, ?_, ?_⟩
  · intro other
    have hoth := hstake.bonded other
    rw [executedDb, bondedOf_set]
    split
    · exact sub_nonneg.2 (min_le_left _ _)
    · exact hoth
  · simp only [executedDb, UniqueKey, map_map, Function.comp_def, slashedLot_id]
    exact hstake.requestIds
  · intro other
    have hcons := hstake.conserved other
    have hunb := hlots.unbonding hstake.requestIds other
    have hwithdrawn := hlots.withdrawn hstake.requestIds other
    rw [executedDb, bondedOf_set]
    rw [(h.allocated hstake).1] at hunb
    simp only [everBonded, slashedTotal, map_append, sum_append, map_singleton,
      sum_singleton, bondedBy, slashedFrom, add_zero,
      unbondingTotal, withdrawnTotal] at hcons ⊢
    rw [hunb] at hcons
    rw [hwithdrawn]
    by_cases hoth : other = proposal.operatorId
    · subst hoth
      simp only [if_true] at hcons ⊢
      omega
    · simp only [hoth, Ne.symm hoth, if_false, add_zero] at hcons ⊢
      exact hcons

end Executable

theorem Executable.proposalSide (h : ProposalSide db) (txHash : String) :
    ProposalSide (executedDb db proposal txHash lots bond slash) := by
  have hmov : ProposalSide { db with
      proposals := updateWhere (fun p => decide (p.id = proposal.id))
        (fun p => { p with status := .executed, executionTxHash := some txHash })
        db.proposals } := h.updateWhere fun _ => ⟨rfl, rfl, rfl, rfl, rfl⟩
  exact hmov.of_bonds _ fun _ => isSome_get?_set _

theorem Executable.slashTaken {s : StakingState} (h : Executable s.db proposal lots bond slash)
    (hstake : StakeSide s.db s.trace) (txHash : String)
    (hord : s.db.SelectsLots proposal.operatorId lots) :
    SlashTaken s ⟨executedDb s.db proposal txHash lots bond slash,
      s.trace ++ [slashed proposal.operatorId proposal.id slash]⟩ proposal lots slash := by
  have hlots := h.lotsSlashed hstake
  have hbonded := bondedOf_of_get? h.row
  refine ⟨?_, rfl, ?_, hord, ?_, ⟨?_, ?_⟩, ?_⟩
  · rw [hbonded, ← h.sum_lots]
    exact h.slash
  · rw [executedDb, bondedOf_set, if_pos rfl, hbonded]
  · rw [hbonded, ← hlots.takenFrom_eq, forall₂_map_right_iff]
    refine forall₂_same.2 ?_
    intro lot hlot
    exact ⟨_, mem_map_of_mem (hlots.mem hlot).1, slashedLot_id, slashedLot_amount _ lot⟩
  · intro other hoth
    exact get?_set_of_ne hoth
  · intro r hr hnot
    -- Nothing is noted for a row that is not one of the lots.
    refine mem_map.2 ⟨r, hr, ?_⟩
    cases htake : get? (takeFromLots (slash - min bond.bondedAmount slash) lots
        empty).2 r.id with
    | none => simp only [slashedLot, htake]
    | some => exact absurd (hlots.of_noted hstake.requestIds hr htake).1 hnot
  · intro p' hp' hid
    obtain ⟨p, _, ⟨_, rfl⟩ | ⟨hne, rfl⟩⟩ := mem_updateWhere.1 hp'
    · rfl
    · exact absurd hid (of_decide_eq_false hne)

/-- Outside its preconditions an execution is refused. -/
theorem executeProposal_refused {proposalId txHash : String}
    (h : ∀ p ∈ db.proposals, p.id = proposalId → p.status = .approved → isBlank txHash = true) :
    ∃ e, executeProposal db proposalId txHash lots = .error e := by
  simp only [executeProposal]
  split
  · exact ⟨_, rfl⟩
  rename_i hhash
  split
  · exact ⟨_, rfl⟩
  rename_i proposal hfound
  split
  · exact ⟨_, rfl⟩
  rename_i hstat
  obtain ⟨hmem, hid⟩ := findByKey_some hfound
  exact absurd (h proposal hmem hid (not_not.1 hstat)) hhash

/-! ## Runs -/

variable {s s' : StakingState}

/-- An allowed execution is refused, or it is that of an approved proposal. -/
theorem execute_cases (hstake : StakeSide s.db s.trace) (hprop : ProposalSide s.db)
    (hallows : s.db.Allows (.executeProposal proposalId txHash lots)) :
    (s.perform policy (.executeProposal proposalId txHash lots) = s ∧
      ∀ p ∈ s.db.proposals, p.id = proposalId → p.status = .approved → isBlank txHash = true) ∨
    ∃ proposal bond slash, proposal.id = proposalId ∧ Executable s.db proposal lots bond slash ∧
      s.perform policy (.executeProposal proposalId txHash lots) =
        ⟨executedDb s.db proposal txHash lots bond slash,
          s.trace ++ [slashed proposal.operatorId proposal.id slash]⟩ := by
  by_cases href : ∀ p ∈ s.db.proposals, p.id = proposalId → p.status = .approved →
      isBlank txHash = true
  · obtain ⟨e, he⟩ := @executeProposal_refused s.db lots _ _ href
    refine .inl ⟨?_, href⟩
    simp only [StakingState.perform, he]
  push Not at href
  obtain ⟨proposal, hmem, rfl, happroved, hhash⟩ := href
  obtain ⟨bond, hbond⟩ := Option.isSome_iff_exists.1 (hprop.bonds proposal hmem)
  have hexec : Executable s.db proposal lots bond
      (min proposal.amount (bond.bondedAmount + (lots.map (·.amount)).sum)) :=
    ⟨hmem, happroved, hbond, (hallows proposal hmem rfl).1, rfl⟩
  refine .inr ⟨proposal, bond, _, rfl, hexec, ?_⟩
  have hresult := hexec.eq hstake hprop (eq_false_of_ne_true hhash)
  simp only [StakingState.perform, hresult]

theorem sides_step (hstake : StakeSide s.db s.trace) (hprop : ProposalSide s.db)
    {call : StakingCall} (hstep : stakingStep policy s call = some s') :
    StakeSide s'.db s'.trace ∧ ProposalSide s'.db := by
  obtain ⟨hallows, ⟨⟩⟩ := Option.ite_none_right_eq_some.1 hstep
  cases call with
  | recordBond =>
    simp only [StakingState.perform]
    split
    · rename_i db' bonded hcall
      refine ⟨hstake.recordBond hcall, ?_⟩
      obtain ⟨_, bond, _, rfl⟩ := recordBond_ok hcall
      exact hprop.of_bonds _ fun _ => isSome_get?_set bond
    · exact ⟨hstake, hprop⟩
  | requestUnbond operatorId amount now id =>
    simp only [StakingState.perform]
    rcases hcall : requestUnbond policy s.db operatorId amount now id with e | ⟨db', request⟩
    · exact ⟨hstake, hprop⟩
    refine ⟨hstake.requestUnbond hallows hcall, ?_⟩
    obtain ⟨bond, _, _, _, _, _, _, rfl⟩ := requestUnbond_ok hcall
    exact hprop.of_bonds _ fun _ => isSome_get?_set _
  | withdraw operatorId now =>
    simp only [StakingState.perform]
    rcases hcall : withdraw s.db operatorId now with e | ⟨db', released⟩
    · exact ⟨hstake, hprop⟩
    refine ⟨hstake.withdraw hcall, ?_⟩
    obtain ⟨_, _, _, rfl⟩ := withdraw_ok hcall
    exact hprop.of_bonds _ fun _ => id
  | createProposal operatorId finding now id =>
    simp only [StakingState.perform]
    rcases hcall : createProposal policy s.db operatorId finding now id with e | ⟨db', proposal⟩
    · exact ⟨hstake, hprop⟩
    · obtain ⟨hside, hbonds, hreqs⟩ := hprop.createProposal hallows hcall
      exact ⟨hstake.of_eq hbonds hreqs, hside⟩
  | approveProposal | rejectProposal | appealProposal =>
    exact sides_moveProposal hstake hprop fun _ => ⟨rfl, rfl, rfl, rfl, rfl⟩
  | executeProposal _ txHash =>
    rcases execute_cases hstake hprop hallows with ⟨heq, _⟩ | ⟨proposal, bond, slash, _, hexec, heq⟩
    · rw [heq]
      exact ⟨hstake, hprop⟩
    · rw [heq]
      exact ⟨hexec.stakeSide hstake txHash, Executable.proposalSide hprop txHash⟩

/-- In every run of the service, stake is conserved and every next call is safe. -/
theorem staking_safe (policy : StakingPolicy) {s : StakingState}
    (hrun : RunWhere (fun a call b => stakingStep policy a call = some b) (fun _ _ => True)
      .start s) :
    StakeConserved s ∧
      ∀ call s', stakingStep policy s call = some s' → SafeCall s s' call := by
  have hsides : StakeSide s.db s.trace ∧ ProposalSide s.db := by
    refine hrun.invariant (fun s => StakeSide s.db s.trace ∧ ProposalSide s.db) ?_ ?_
    · exact ⟨⟨fun _ => le_refl 0, (fun _ h => nomatch h), nodup_nil, fun _ => rfl⟩,
        nodup_nil, nodup_nil, (fun _ h => nomatch h), fun _ h => nomatch h⟩
    · intro a call b hinv _ hstep
      exact sides_step hinv.1 hinv.2 hstep
  obtain ⟨hstake, hproposals⟩ := hsides
  refine ⟨⟨hstake.bonded, hstake.amounts, ?_, hstake.conserved, ?_⟩, ?_⟩
  · intro operatorId
    apply sum_nonneg
    exact forall_mem_map.2 fun r hr => hstake.amounts r (mem_of_mem_filter hr)
  · -- Proposals of one finding would share their key.
    exact hproposals.evidence.of_determines (fun finding => evidenceKey ⟨finding.1, finding.2⟩)
      hproposals.keys
  · intro call s' hstep
    obtain ⟨hallows, ⟨⟩⟩ := Option.ite_none_right_eq_some.1 hstep
    cases call with
    | withdraw operatorId now =>
      rintro ⟨p, hp, hoperator, hopen⟩
      simp only [StakingState.perform]
      rcases hcall : withdraw s.db operatorId now with e | ⟨db', released⟩
      · rfl
      · rw [(withdraw_ok hcall).1 p hp hoperator] at hopen
        cases hopen
    | executeProposal _ txHash =>
      rcases execute_cases hstake hproposals hallows with
        hrefused | ⟨proposal, bond, slash, hid, hexec, heq⟩
      · exact .inl hrefused
      refine .inr ⟨proposal, hexec.mem, hid, hexec.approved, slash, ?_⟩
      rw [heq]
      exact hexec.slashTaken hstake txHash (hallows proposal hexec.mem hid)
    | _ => trivial

/-! ## One operator, slashed while unbonding -/

/-- The evidence of one reading. -/
def oneReading : SlashableFinding := ⟨.equivocation, ["r1"]⟩

/-- The lot of an unbonding request. -/
def lotOf (id : String) (amount : Int) (requestedAt : ℚ) : UnbondRequest where
  id
  operatorId := "op"
  amount
  status := .unbonding
  requestedAt
  availableAt := requestedAt + 14 * 86400
  withdrawnAt := none

/-- Bonds 100 and asks for 60 and 30 of it back; a quarter is slashed, which the bond does not
cover. -/
def slashedWhileUnbonding : List StakingCall :=
  [.recordBond "op" (.string "100") 0, .requestUnbond "op" (.string "60") 1 "a",
    .requestUnbond "op" (.string "30") 2 "b", .createProposal "op" oneReading 3 "p",
    .approveProposal "p" "admin" 4, .withdraw "op" 2000000,
    .executeProposal "p" "tx" [lotOf "a" 60 1, lotOf "b" 30 2]]

/-- The bond gives 10 of the 25, the older lot the rest. -/
theorem staking_safe_slashedWhileUnbonding :
    ∃ s, perform (stakingStep defaultStakingPolicy) (fun _ _ => True) .start
        slashedWhileUnbonding = some s ∧
      StakeConserved s ∧ bondedOf s.db "op" = 0 ∧ unbondingTotal s.db "op" = 75 ∧
      withdrawnTotal s.db "op" = 0 ∧ slashedTotal s.trace "op" = 25 :=
  ⟨_, (Option.some_get (by decide +kernel)).symm,
    (staking_safe defaultStakingPolicy (.performed _ _)).1, by decide +kernel,
    by decide +kernel, by decide +kernel, by decide +kernel⟩

end Refract.Services
