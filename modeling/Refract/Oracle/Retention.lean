import Refract.Lib.OrdMap
import Refract.Lib.Runs

/-!
# Dropping old partitions

`OracleRetentionService.pruneOldPartitions` drops the partitions of `oracle_events` that are older
than the retention window. For each it asks whether there is a verified archive and no open dispute
pin, and drops it in a second statement, so what other processes write in between goes unseen
(`dropped_while_pinned`). A drop is guarded as long as no partition is pinned or loses its verified
archive after it has passed the gate and before it is dropped (`drops_guarded`).

The month of a partition and the cutoff are local dates; `partDate` is the date of a name.
-/

namespace Refract.Oracle.Retention

open Lib List

inductive ArchiveStatus where
  | written
  | verified
  deriving DecidableEq

structure PartitionPin where
  id : Nat
  partitionName : String
  releasedAt : Option ℚ

structure RetentionDb where
  partitions : List String
  archives : OrdMap String ArchiveStatus
  pins : List PartitionPin

/-- The gate's `archived`. -/
def RetentionDb.archived (db : RetentionDb) (name : String) : Bool :=
  db.archives.get? name = some .verified

/-- The gate's `pinned`. -/
def RetentionDb.pinned (db : RetentionDb) (name : String) : Bool :=
  db.pins.any fun pin => pin.partitionName = name ∧ pin.releasedAt = none

/-- A call of `pruneOldPartitions`: the old partitions it has not come to, and the one whose drop it
awaits. -/
structure PruneCall where
  rows : List String
  dropping : Option String

/-- `dropped` holds each dropped partition with the tables at that instant. -/
structure RetentionState where
  db : RetentionDb
  calls : List PruneCall
  dropped : List (String × RetentionDb)

inductive RetentionLabel where
  /-- The partitions are listed. -/
  | prune (cutoff : ℚ)
  | gate (call : Nat)
  | drop (call : Nat)
  /-- The statement that a call awaits throws. -/
  | fail (call : Nat)
  | insertPin (id : Nat) (partitionName : String)
  | releasePin (id : Nat) (now : ℚ)
  /-- An archive is added, verified or invalidated. -/
  | setArchive (partitionName : String) (status : ArchiveStatus)

def retentionStep (partDate : String → ℚ) (s : RetentionState) :
    RetentionLabel → Option RetentionState
  | .prune cutoff =>
    let rows := s.db.partitions.filter fun name => partDate name < cutoff
    some { s with calls := s.calls ++ [⟨rows, none⟩] }
  | .gate i =>
    match s.calls[i]? with
    | some ⟨name :: rows, none⟩ =>
      let gated := s.db.archived name && !s.db.pinned name
      some { s with calls := s.calls.set i ⟨rows, if gated then some name else none⟩ }
    | _ => none
  | .drop i =>
    match s.calls[i]? with
    | some ⟨rows, some name⟩ =>
      some
        { db := { s.db with partitions := s.db.partitions.filter (· ≠ name) }
          calls := s.calls.set i ⟨rows, none⟩
          -- `DROP TABLE IF EXISTS`
          dropped := if name ∈ s.db.partitions then s.dropped ++ [(name, s.db)] else s.dropped }
    | _ => none
  | .fail i => some { s with calls := s.calls.eraseIdx i }
  | .insertPin id name => some { s with db.pins := s.db.pins ++ [⟨id, name, none⟩] }
  | .releasePin id now =>
    some { s with db.pins := s.db.pins.map fun pin =>
      if pin.id = id then { pin with releasedAt := some now } else pin }
  | .setArchive name status => some { s with db.archives := s.db.archives.set name status }

/-- The partition may be dropped. -/
def RetentionDb.Guarded (db : RetentionDb) (name : String) : Prop :=
  db.archived name = true ∧ db.pinned name = false

/-- The partition has passed a gate and is not dropped yet. -/
def Gated (calls : List PruneCall) (name : String) : Prop :=
  ∃ call ∈ calls, call.dropping = some name

/-- A gated partition is not pinned and keeps its verified archive. -/
def Undisturbed (s : RetentionState) : RetentionLabel → Prop
  | .insertPin _ name | .setArchive name .written => ¬Gated s.calls name
  | _ => True

instance (s : RetentionState) (l : RetentionLabel) : Decidable (Undisturbed s l) := by
  unfold Undisturbed Gated
  split <;> infer_instance

/-- What is gated stays guarded until it is dropped. -/
structure RetentionInv (s : RetentionState) : Prop where
  gated : ∀ name, Gated s.calls name → s.db.Guarded name
  dropped : ∀ entry ∈ s.dropped, entry.2.Guarded entry.1

variable {partDate : String → ℚ} {s s' : RetentionState}

/-- Statements of other processes. -/
theorem RetentionInv.write (h : RetentionInv s) {db : RetentionDb}
    (hkeeps : ∀ name, Gated s.calls name → s.db.Guarded name → db.Guarded name) :
    RetentionInv { s with db } :=
  ⟨fun name hname => hkeeps name hname (h.gated name hname), h.dropped⟩

theorem gated_of_set {calls : List PruneCall} {i : Nat} {call : PruneCall} {name : String}
    (h : Gated (calls.set i call) name) : Gated calls name ∨ call.dropping = some name := by
  obtain ⟨other, hother, hname⟩ := h
  rcases mem_or_eq_of_mem_set hother with hold | rfl
  · exact .inl ⟨other, hold, hname⟩
  · exact .inr hname

theorem RetentionInv.step {l : RetentionLabel} (h : RetentionInv s) (hl : Undisturbed s l)
    (hstep : retentionStep partDate s l = some s') : RetentionInv s' := by
  cases l with
  | prune cutoff =>
    cases hstep
    refine ⟨?_, h.dropped⟩
    rintro name ⟨call, hcall, hname⟩
    rcases mem_snoc.1 hcall with hold | rfl
    · exact h.gated name ⟨call, hold, hname⟩
    · cases hname
  | gate i =>
    simp only [retentionStep] at hstep
    split at hstep
    · cases hstep
      refine ⟨fun name hname => ?_, h.dropped⟩
      rcases gated_of_set hname with hold | hnew
      · exact h.gated name hold
      · grind [RetentionDb.Guarded]
    · cases hstep
  | drop i =>
    simp only [retentionStep] at hstep
    split at hstep
    · rename_i rows name hcall
      cases hstep
      have hguarded := h.gated name ⟨_, mem_of_getElem? hcall, rfl⟩
      constructor
      · intro other hother
        exact h.gated other ((gated_of_set hother).resolve_right fun hnone => by cases hnone)
      · dsimp only
        split
        · exact forall_mem_snoc.2 ⟨h.dropped, hguarded⟩
        · exact h.dropped
    · cases hstep
  | fail i =>
    cases hstep
    refine ⟨?_, h.dropped⟩
    rintro name ⟨call, hcall, hname⟩
    exact h.gated name ⟨call, mem_of_mem_eraseIdx hcall, hname⟩
  | insertPin id name =>
    cases hstep
    refine h.write fun other hgated hother => ⟨hother.1, ?_⟩
    have hne : name ≠ other := fun heq => hl (heq ▸ hgated)
    simpa [RetentionDb.pinned, hne] using hother.2
  | releasePin id now =>
    cases hstep
    refine h.write fun name _ hname => ⟨hname.1, ?_⟩
    have hpinned := hname.2
    simp only [RetentionDb.pinned, any_map, any_eq_false] at hpinned ⊢
    grind
  | setArchive name status =>
    cases hstep
    refine h.write fun other hgated hother => ⟨?_, hother.2⟩
    have harchived := hother.1
    simp only [RetentionDb.archived, OrdMap.get?_set] at harchived ⊢
    cases status with
    | written => grind [Undisturbed]
    | verified => grind

/-- Where no gated partition is pinned or loses its verified archive, a partition has a verified
archive and no open pin at the instant it is dropped. -/
theorem drops_guarded {partDate : String → ℚ} {db : RetentionDb} {s : RetentionState}
    (hrun : RunWhere (fun a l b => retentionStep partDate a l = some b) Undisturbed ⟨db, [], []⟩
      s) : ∀ entry ∈ s.dropped, entry.2.Guarded entry.1 :=
  (hrun.invariant RetentionInv ⟨by simp [Gated], by simp⟩ fun _ _ _ ha => ha.step).dropped

/-- One partition with a verified archive. -/
def archivedMonth : RetentionDb :=
  ⟨["oracle_events_2025_01"], OrdMap.empty.set "oracle_events_2025_01" .verified, []⟩

theorem drops_guarded_archivedMonth : ∃ s, RunWhere
    (fun a l b => retentionStep (fun _ => 0) a l = some b) Undisturbed ⟨archivedMonth, [], []⟩ s ∧
      s.dropped.map (·.1) = ["oracle_events_2025_01"] ∧
      ∀ entry ∈ s.dropped, entry.2.Guarded entry.1 :=
  ⟨_, .performed [.prune 1, .gate 0, .drop 0] (by decide +kernel), by decide +kernel,
    drops_guarded (.performed _ _)⟩

/-- A pin comes between the gate and the drop. -/
theorem dropped_while_pinned : ∃ s, RunWhere
    (fun a l b => retentionStep (fun _ => 0) a l = some b) (fun _ _ => True)
      ⟨archivedMonth, [], []⟩ s ∧ ∃ entry ∈ s.dropped, ¬entry.2.Guarded entry.1 :=
  ⟨_, .performed [.prune 1, .gate 0, .insertPin 1 "oracle_events_2025_01", .drop 0]
    (by decide +kernel), by unfold RetentionDb.Guarded; decide +kernel⟩

end Refract.Oracle.Retention
