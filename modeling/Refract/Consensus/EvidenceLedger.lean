import Refract.Lib.Runs
import Refract.Consensus.EvidenceTypes

/-!
# The append-only evidence ledger

`EvidenceLedger.append` and its clock handling. A ledger is a log together with the two facts its
only write operation maintains: positions count from one (`numbered`), and every event is recorded
at least one millisecond after the event before it (`increasing`), whatever the clock returns and
whatever `recordedAt` the caller supplies. So the events recorded at or before a time `t` form a
prefix of the log (`filter_recordedAt_append`).

Each operation takes the clock reading its call makes; the file the log is mirrored to is not
modelled.
-/

namespace Refract.Consensus

open Lib List

/-- `recordedAt` of the last event; `none` stands for minus infinity. -/
def lastRecordedAt (log : List EvidenceEvent) : Option ℚ := log.getLast?.map (·.recordedAt)

/-- The later of `t` and one millisecond past the last event. -/
def afterLast (log : List EvidenceEvent) (t : ℚ) : ℚ :=
  match lastRecordedAt log with
  | none => t
  | some r => max t (r + 1)

/-- The stamped form of an event appended to `log` when the clock reads `clock`. -/
def stamp (log : List EvidenceEvent) (clock : ℚ) (event : NewEvidenceEvent) : EvidenceEvent where
  seq := log.length + 1
  recordedAt := afterLast log (event.recordedAt.getD clock)
  data := event.body

variable {e : EvidenceEvent}

theorem recordedAt_add_one_le_afterLast {log : List EvidenceEvent}
    (h : log.Pairwise fun a b => a.recordedAt + 1 ≤ b.recordedAt) (t : ℚ)
    (he : e ∈ log) : e.recordedAt + 1 ≤ afterLast log t := by
  rcases eq_nil_or_concat log with rfl | ⟨init, last, rfl⟩
  · simp at he
  rw [concat_eq_append] at h he ⊢
  have hlast : afterLast (init ++ [last]) t = max t (last.recordedAt + 1) := by
    simp [afterLast, lastRecordedAt]
  rw [hlast]
  rcases mem_snoc.1 he with hinit | rfl
  · have hstep := (pairwise_snoc.1 h).2 e hinit
    have := le_max_right t (last.recordedAt + 1)
    linarith
  · exact le_max_right _ _

/-- A log as `append` builds it. -/
structure EvidenceLedger where
  log : List EvidenceEvent
  increasing : log.Pairwise fun a b => a.recordedAt + 1 ≤ b.recordedAt
  numbered : log.map (·.seq) = List.range' 1 log.length

namespace EvidenceLedger

/-- The ledger before the first event. -/
def empty : EvidenceLedger := ⟨[], List.Pairwise.nil, rfl⟩

variable (ledger : EvidenceLedger)

/-- Snapshot of all events, oldest first. -/
def events : List EvidenceEvent := ledger.log

/-- Ledger time: the wall clock, but never behind the last recorded event. -/
def now (clock : ℚ) : ℚ :=
  match lastRecordedAt ledger.log with
  | none => clock
  | some r => max clock r

/-- The timestamp the next append will receive. -/
def reserveTimestamp (clock : ℚ) : ℚ := afterLast ledger.log clock

/-- Appends an event. -/
def append (clock : ℚ) (event : NewEvidenceEvent) : EvidenceLedger where
  log := ledger.log ++ [stamp ledger.log clock event]
  increasing := by
    refine pairwise_snoc.2 ⟨ledger.increasing, fun a ha => ?_⟩
    exact recordedAt_add_one_le_afterLast ledger.increasing _ ha
  numbered := by
    rw [map_append, ledger.numbered, length_append, length_singleton,
      range'_concat]
    simp [stamp, Nat.add_comm]

/-- Appends in order, each with the clock reading of its call. -/
def appendAll (ledger : EvidenceLedger) : List (ℚ × NewEvidenceEvent) → EvidenceLedger
  | [] => ledger
  | (clock, event) :: rest => appendAll (ledger.append clock event) rest

@[simp] theorem append_log (clock : ℚ) (event : NewEvidenceEvent) :
    (ledger.append clock event).log = ledger.log ++ [stamp ledger.log clock event] := rfl

/-- No event is recorded after the ledger's time. -/
theorem recordedAt_le_now (clock : ℚ) (he : e ∈ ledger.log) : e.recordedAt ≤ ledger.now clock := by
  rcases eq_nil_or_concat ledger.log with hnil | ⟨init, last, hlog⟩
  · rw [hnil] at he
    simp at he
  rw [concat_eq_append] at hlog
  have hnow : ledger.now clock = max clock last.recordedAt := by
    simp [now, lastRecordedAt, hlog]
  rw [hnow]
  rw [hlog] at he
  rcases mem_snoc.1 he with hinit | rfl
  · have hinc := ledger.increasing
    rw [hlog] at hinc
    have hstep := (pairwise_snoc.1 hinc).2 e hinit
    have := le_max_right clock last.recordedAt
    linarith
  · exact le_max_right _ _

/-- Every event of the ledger precedes the reserved timestamp. -/
theorem recordedAt_lt_reserveTimestamp (clock : ℚ) (he : e ∈ ledger.log) :
    e.recordedAt < ledger.reserveTimestamp clock := by
  have := recordedAt_add_one_le_afterLast ledger.increasing clock he
  unfold reserveTimestamp
  linarith

/-- An append that asks for the reserved timestamp receives it. -/
theorem stamp_reserved (clock clock' : ℚ) (body : EventBody) :
    stamp ledger.log clock' ⟨body, some (ledger.reserveTimestamp clock)⟩ =
      ⟨ledger.log.length + 1, ledger.reserveTimestamp clock, body⟩ := by
  simp only [stamp, Option.getD_some, reserveTimestamp, afterLast]
  cases lastRecordedAt ledger.log with
  | none => rfl
  | some => simp

theorem seq_le_length (he : e ∈ ledger.log) : e.seq ≤ ledger.log.length := by
  have hseq : e.seq ∈ ledger.log.map (·.seq) := mem_map_of_mem he
  rw [ledger.numbered, mem_range'_1] at hseq
  omega

/-- Later appends extend the log by their events, all recorded after every event already there. -/
theorem appendAll_log (calls : List (ℚ × NewEvidenceEvent)) :
    ∃ added : List EvidenceEvent, (ledger.appendAll calls).log = ledger.log ++ added ∧
      added.map (·.data) = calls.map (·.2.body) ∧
      ∀ a ∈ ledger.log, ∀ b ∈ added, a.recordedAt < b.recordedAt := by
  induction calls generalizing ledger with
  | nil => exact ⟨[], by simp [appendAll], rfl, by simp⟩
  | cons call _ ih =>
    obtain ⟨clock, event⟩ := call
    obtain ⟨added, hlog, hdata, hlt⟩ := ih (ledger.append clock event)
    refine ⟨stamp ledger.log clock event :: added, ?_, ?_, ?_⟩
    · rw [appendAll, hlog, append_log]
      simp
    · rw [map_cons, map_cons, hdata]
      rfl
    · intro a ha b hb
      rcases mem_cons.1 hb with rfl | hadd
      · have := recordedAt_add_one_le_afterLast ledger.increasing (event.recordedAt.getD clock) ha
        show a.recordedAt < afterLast ledger.log _
        linarith
      · exact hlt a (by rw [append_log]; exact mem_append_left _ ha) b hadd

/-- The events recorded at or before the last recording time of a prefix are the prefix. -/
theorem filter_recordedAt_append {pre added : List EvidenceEvent} {t : ℚ}
    (hpre : ∀ a ∈ pre, a.recordedAt ≤ t) (hadd : ∀ b ∈ added, t < b.recordedAt) :
    (pre ++ added).filter (fun e => e.recordedAt ≤ t) = pre := by
  rw [filter_append, filter_eq_self.2 fun a ha => by simpa using hpre a ha,
    filter_eq_nil_iff.2 fun b hb => by simpa using hadd b hb, append_nil]

/-- The events recorded at or before a reserved timestamp are the log up to the event that was
appended with it, whatever has been appended since. -/
theorem known_at_reserved (clock clock' : ℚ) (body : EventBody)
    (later : List (ℚ × NewEvidenceEvent)) :
    (((ledger.append clock' ⟨body, some (ledger.reserveTimestamp clock)⟩).appendAll
        later).log.filter fun e => e.recordedAt ≤ ledger.reserveTimestamp clock) =
      ledger.log ++ [⟨ledger.log.length + 1, ledger.reserveTimestamp clock, body⟩] := by
  obtain ⟨added, hlog, -, hadd⟩ :=
    (ledger.append clock' ⟨body, some (ledger.reserveTimestamp clock)⟩).appendAll_log later
  rw [append_log, stamp_reserved] at hlog hadd
  rw [hlog]
  apply filter_recordedAt_append
  · exact forall_mem_snoc.2
      ⟨fun a ha => (ledger.recordedAt_lt_reserveTimestamp clock ha).le, le_rfl⟩
  · exact hadd _ (mem_snoc.2 (.inr rfl))

end EvidenceLedger

end Refract.Consensus
