import Refract.Lib.Runs

/-!
# The evidence store

`EvidenceStore` queues readings and inserts them one after another, in a drain that all its callers
share; `recordDecision` awaits the drain and then its own insert. What is between two `await`s runs
at once. A reading whose insert fails is logged and dropped, so a decision can be stored without a
reading that it names (`readings_missing`). As long as no insert of a reading fails, a decision that
is stored finds all readings in the table that had been recorded when it was made
(`readings_present`).

A row of `oracle_evidence` holds columns that are computed from the queued reading alone, which
stands for them here. What else a decision stores, and `attachSettlement`, which changes neither
`oracle_evidence` nor the queue, are left out.
-/

namespace Refract.Oracle.EvidenceStore

open Lib List

def maxQueueDepth : Nat := 1000

structure QueuedReading (Input : Type) where
  id : String
  input : Input

/-- A call of `recordDecision` with its readings, and the ids that `recordReading` had returned when
it was made. -/
structure DecisionCall where
  readingIds : List String
  recorded : List String

/-- The queue and whether it is being drained; the rows of `oracle_evidence`; the ids returned so
far; the decisions that await the drain, that await their insert, and that have resolved. -/
structure Store (Input : Type) where
  queue : List (QueuedReading Input)
  draining : Bool
  evidence : List (QueuedReading Input)
  recorded : List String
  awaiting : List DecisionCall
  inserting : List DecisionCall
  resolved : List DecisionCall

variable {Input : Type}

def Store.start : Store Input := ⟨[], false, [], [], [], [], []⟩

inductive StoreStep (Input : Type) where
  /-- `id` is the one that `randomUUID` returns. -/
  | recordReading (id : String) (input : Input)
  /-- The drain's insert of the first queued reading is answered. -/
  | readingInserted (ok : Bool)
  | recordDecision (readingIds : List String)
  /-- The insert of a decision is answered; on an error the call rejects. -/
  | decisionInserted (index : Nat) (ok : Bool)

def storeStep (s : Store Input) : StoreStep Input → Option (Store Input)
  | .recordReading id input =>
    -- a full queue drops the reading, and `null` is returned
    if maxQueueDepth ≤ s.queue.length then some s
    else some { s with
      queue := s.queue ++ [⟨id, input⟩], recorded := s.recorded ++ [id], draining := true }
  | .readingInserted ok =>
    match s.draining, s.queue with
    | true, row :: rest =>
      let s := { s with queue := rest, evidence := if ok then s.evidence ++ [row] else s.evidence }
      if rest.isEmpty then
        some { s with draining := false, awaiting := [], inserting := s.inserting ++ s.awaiting }
      else some s
    | _, _ => none
  | .recordDecision readingIds =>
    let call : DecisionCall := ⟨readingIds, s.recorded⟩
    if s.draining then some { s with awaiting := s.awaiting ++ [call] }
    else some { s with inserting := s.inserting ++ [call] }
  | .decisionInserted index ok =>
    s.inserting[index]?.map fun call =>
      { s with
        inserting := s.inserting.eraseIdx index
        resolved := if ok then s.resolved ++ [call] else s.resolved }

/-- No insert of a reading fails. -/
def NoneLost : StoreStep Input → Prop
  | .readingInserted ok => ok = true
  | _ => True

instance (l : StoreStep Input) : Decidable (NoneLost l) := by
  unfold NoneLost
  split <;> infer_instance

abbrev StoreRun (P : StoreStep Input → Prop) : Store Input → Store Input → Prop :=
  RunWhere (fun a l b => storeStep a l = some b) fun _ l => P l

/-- The readings that had been recorded before the decision are in the table. -/
def Store.Holds (s : Store Input) (call : DecisionCall) : Prop :=
  ∀ id ∈ call.recorded, id ∈ s.evidence.map (·.id)

/-- A recorded reading is queued or in the table. A decision that does not wait for the drain finds
its readings there; one that does has only recorded ones. -/
structure StoreInv (s : Store Input) : Prop where
  draining : s.draining = false → s.queue = []
  recorded : ∀ id ∈ s.recorded, id ∈ s.evidence.map (·.id) ∨ id ∈ s.queue.map (·.id)
  awaiting : ∀ call ∈ s.awaiting, call.recorded ⊆ s.recorded
  inserting : ∀ call ∈ s.inserting, s.Holds call
  resolved : ∀ call ∈ s.resolved, s.Holds call

theorem StoreInv.step {s s' : Store Input} {l : StoreStep Input} (h : StoreInv s) (hl : NoneLost l)
    (hstep : storeStep s l = some s') : StoreInv s' := by
  obtain ⟨hdrain, hrec, hawait, hins, hres⟩ := h
  cases l with
  | recordReading id input =>
    simp only [storeStep] at hstep
    split at hstep
    · cases hstep
      exact ⟨hdrain, hrec, hawait, hins, hres⟩
    · cases hstep
      refine ⟨by simp, ?_, ?_, hins, hres⟩
      · grind
      · exact fun call hcall id hid => mem_append_left _ (hawait call hcall hid)
  | readingInserted ok =>
    cases hl
    simp only [storeStep] at hstep
    split at hstep
    · rename_i row rest _ hqueue
      -- The table grows by the reading that leaves the queue.
      have hmono : ∀ call, s.Holds call → ∀ id ∈ call.recorded,
          id ∈ (s.evidence ++ [row]).map (·.id) := by
        grind [Store.Holds]
      have hall : ∀ id ∈ s.recorded,
          id ∈ (s.evidence ++ [row]).map (·.id) ∨ id ∈ rest.map (·.id) := by
        grind
      split at hstep <;> cases hstep
      · refine ⟨by grind, hall, by simp, ?_, fun call hcall => hmono call (hres call hcall)⟩
        rename_i hempty
        grind [Store.Holds]
      · exact ⟨by grind, hall, hawait, fun call hcall => hmono call (hins call hcall),
          fun call hcall => hmono call (hres call hcall)⟩
    · cases hstep
  | recordDecision =>
    simp only [storeStep] at hstep
    split at hstep <;> cases hstep
    · exact ⟨hdrain, hrec, forall_mem_snoc.2 ⟨hawait, Subset.refl _⟩, hins, hres⟩
    · refine ⟨hdrain, hrec, hawait, forall_mem_snoc.2 ⟨hins, ?_⟩, hres⟩
      grind [Store.Holds]
  | decisionInserted index ok =>
    obtain ⟨call, hcall, rfl⟩ := Option.map_eq_some_iff.1 hstep
    refine ⟨hdrain, hrec, hawait, fun c hc => hins c (mem_of_mem_eraseIdx hc), ?_⟩
    have hfound := hins call (mem_of_getElem? hcall)
    cases ok with
    | true => exact forall_mem_snoc.2 ⟨hres, hfound⟩
    | false => exact hres

/-- Where no insert of a reading fails, a resolved decision finds in `oracle_evidence` every reading
it names that had been recorded before it. -/
theorem readings_present {Input : Type} {s : Store Input} (hrun : StoreRun NoneLost .start s) :
    ∀ call ∈ s.resolved, ∀ id ∈ call.readingIds, id ∈ call.recorded →
      id ∈ s.evidence.map (·.id) := by
  intro call hcall id _ hid
  have hinv : StoreInv s := by
    refine hrun.invariant StoreInv ?_ fun _ _ _ ha => ha.step
    constructor <;> simp [Store.start]
  exact hinv.resolved call hcall id hid

theorem readings_present_one :
    ∃ s : Store Unit, StoreRun NoneLost .start s ∧ s.resolved.map (·.readingIds) = [["r1"]] ∧
      ∀ call ∈ s.resolved, ∀ id ∈ call.readingIds, id ∈ call.recorded →
        id ∈ s.evidence.map (·.id) :=
  ⟨_, .performed [.recordReading "r1" (), .recordDecision ["r1"], .readingInserted true,
    .decisionInserted 0 true] (by decide +kernel), by decide +kernel,
    readings_present (.performed _ _)⟩

/-- The insert of the reading fails, and the decision is stored without it. -/
theorem readings_missing :
    ∃ s : Store Unit, StoreRun (fun _ => True) .start s ∧
      ∃ call ∈ s.resolved, ∃ id ∈ call.readingIds, id ∈ call.recorded ∧
        id ∉ s.evidence.map (·.id) := by
  refine ⟨_, .performed [.recordReading "r1" (), .recordDecision ["r1"], .readingInserted false,
    .decisionInserted 0 true] (by decide +kernel), by decide +kernel⟩

end Refract.Oracle.EvidenceStore
