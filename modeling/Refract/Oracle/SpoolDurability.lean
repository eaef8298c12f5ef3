import Refract.Lib.Runs
import Refract.Lib.Traces
import Refract.Oracle.EvidenceSpool

/-!
# What the spool recovers

A resolved `append` is in the spool file as whole lines, and no crash takes it out again: `ack`
writes its number before it drops records, and the file is replaced at once. So the next `open`
returns it, in the order of the numbers (`unacked_records_recovered`), as long as each `append`
begins on a line of its own and writes all its bytes (`CleanAppends`). A write that fails without a
crash leaves the beginning of a line in the file, and `append` goes on behind it: its first record
is then part of a line that no `open` can read, although it was resolved
(`resolved_append_lost_behind_torn_line`).
-/

namespace Refract.Oracle.Evidence

open Lib List SpoolEvent

variable {R : Type}

/-! ## What has to be recovered -/

/-- The records that an event makes durable. -/
def SpoolEvent.records : SpoolEvent R → List R
  | .appended records => records
  | .acked _ | .recovered _ => []

/-- The number that an event acks. -/
def SpoolEvent.ackedSeq : SpoolEvent R → Option Nat
  | .acked seq => some seq
  | .appended _ | .recovered _ => none

/-- The records of the appends that resolved. -/
def appendedIn (history : List (SpoolEvent R)) : List R := history.flatMap SpoolEvent.records

/-- The last number that was acked durably. -/
def lastAcked (history : List (SpoolEvent R)) : Nat :=
  (history.filterMap SpoolEvent.ackedSeq).getLast?.getD 0

/-- All records that were appended and not acked are there, in the order of their numbers and each
number once. -/
structure Recovers (c : SpoolCodec R) (history : List (SpoolEvent R))
    (recovery : SpoolRecovery R) : Prop where
  kept : ∀ r ∈ appendedIn history, lastAcked history < c.seq r → r ∈ recovery.pending
  ordered : recovery.pending.Pairwise fun a b => c.seq a < c.seq b

/-- An `open` that resolves returns what has to be recovered. -/
def RecoversAll (c : SpoolCodec R) : SpoolEvent R → List (SpoolEvent R) → Prop
  | .recovered recovery, before => Recovers c before recovery
  | .appended _, _ | .acked _, _ => True

/-- The records of the file and the new ones have different numbers. -/
def Fresh (c : SpoolCodec R) (text : List UInt8) (records : List R) : Prop :=
  ((c.read text ++ records).map c.seq).Nodup

instance (c : SpoolCodec R) (text : List UInt8) (records : List R) :
    Decidable (Fresh c text records) :=
  inferInstanceAs (Decidable ((c.read text ++ records).map c.seq).Nodup)

/-- Before the step: an `append` begins at the end of a line of the file that `open` will read, with
numbers that the file does not have, its write resolves with all bytes, and an `ack` does not take
back an earlier one. -/
def CleanAppends (c : SpoolCodec R) (s : SpoolState R) : SpoolLabel R → Prop
  | .append records =>
    s.handle ≠ .detached ∧ c.AtLineEnd s.text ∧ Fresh c s.text records
  | .ack seq _ => s.readAcked ≤ seq
  | .wrote written =>
    match s.phase with
    | .writing records => (c.joined records).length ≤ written
    | _ => True
  | .open _ | .close | .done | .fail _ | .crash _ => True

instance (c : SpoolCodec R) (s : SpoolState R) (l : SpoolLabel R) :
    Decidable (CleanAppends c s l) := by
  unfold CleanAppends
  repeat' split
  all_goals infer_instance

/-! ## The file -/

/-- The file has what has to be recovered. -/
structure Keeps (c : SpoolCodec R) (history : List (SpoolEvent R)) (text : List UInt8) : Prop where
  kept : ∀ r ∈ appendedIn history, lastAcked history < c.seq r → r ∈ c.read text
  unique : ((c.read text).map c.seq).Nodup

variable {records : List R} {seq : Nat} {c : SpoolCodec R} {history : List (SpoolEvent R)}
  {text : List UInt8}

/-- Whatever part of a write reaches the file, the records before it stay. -/
theorem Keeps.torn (h : Keeps c history text) (hend : c.AtLineEnd text)
    (hfresh : Fresh c text records) (written : Nat) :
    Keeps c history (text ++ (c.joined records).take written) := by
  obtain ⟨whole, hwhole, hread⟩ := c.read_append_prefix hend (List.take_prefix written _)
  refine ⟨fun r hr hunacked => ?_, ?_⟩
  · rw [hread]
    exact mem_append_left _ (h.kept r hr hunacked)
  · rw [hread]
    exact hfresh.sublist (((List.Sublist.refl _).append hwhole.sublist).map _)

theorem Keeps.written (h : Keeps c history text) (hend : c.AtLineEnd text)
    (hfresh : Fresh c text records) : Keeps c history (text ++ c.joined records) := by
  rw [← take_length (l := c.joined records)]
  exact h.torn hend hfresh _

theorem read_fileOf (records : List R) : c.read (c.fileOf records) = records := by
  simp only [SpoolCodec.fileOf]
  split
  · rename_i hemp
    rw [List.isEmpty_iff.1 hemp]
    exact c.read_nil
  · exact c.read_joined records

/-- The records above the acked number are enough. -/
theorem Keeps.compacted (h : Keeps c history text) (hseq : lastAcked history = seq) :
    Keeps c history (c.fileOf ((c.read text).filter fun r => seq < c.seq r)) := by
  refine ⟨fun r hr hunacked => ?_, ?_⟩
  · rw [read_fileOf]
    exact mem_filter.2 ⟨h.kept r hr hunacked, decide_eq_true (hseq ▸ hunacked)⟩
  · rw [read_fileOf]
    exact h.unique.sublist (filter_sublist.map _)

theorem Keeps.recovers (h : Keeps c history text) {acked : Nat}
    (hacked : acked ≤ lastAcked history) : Recovers c history (c.recover acked text) := by
  refine ⟨fun r hr hunacked => ?_, ?_⟩
  · refine mem_sortBy.2 (mem_filter.2 ⟨h.kept r hr hunacked, ?_⟩)
    exact decide_eq_true (hacked.trans_lt hunacked)
  · -- The list is sorted, and no number comes twice in it.
    have hsort : (c.recover acked text).pending.Pairwise
        (MayPrecede fun a b => compare (c.seq a) (c.seq b)) := sortBy_pairwise _
    have huniq : ((c.recover acked text).pending.map c.seq).Nodup :=
      (sortBy_perm.map c.seq).nodup_iff.2 (h.unique.sublist (filter_sublist.map _))
    refine (hsort.and (pairwise_map.1 huniq)).imp ?_
    rintro a b ⟨hle, hne⟩
    have hle' : c.seq a ≤ c.seq b := Nat.isLE_compare.1 hle
    omega

/-- The file after `open` has rewritten it. -/
theorem Recovers.keeps {recovery : SpoolRecovery R} (h : Recovers c history recovery) :
    Keeps c history (c.fileOf recovery.pending) := by
  refine ⟨fun r hr hunacked => ?_, ?_⟩
  · rw [read_fileOf]
    exact h.kept r hr hunacked
  · rw [read_fileOf]
    exact pairwise_map.2 (h.ordered.imp fun hlt => hlt.ne)

/-! ## The history -/

theorem lastAcked_snoc (history : List (SpoolEvent R)) (e : SpoolEvent R) :
    lastAcked (history ++ [e]) = e.ackedSeq.getD (lastAcked history) := by
  cases e <;> simp [lastAcked, ackedSeq, filterMap_append]

theorem appendedIn_snoc (history : List (SpoolEvent R)) (e : SpoolEvent R) :
    appendedIn (history ++ [e]) = appendedIn history ++ e.records := by
  simp [appendedIn]

/-- What happens leaves less to recover, or adds what the file has. -/
theorem Keeps.snoc (h : Keeps c history text) {e : SpoolEvent R}
    (hacked : ∀ seq ∈ e.ackedSeq, lastAcked history ≤ seq)
    (hrecords : ∀ r ∈ e.records, r ∈ c.read text) : Keeps c (history ++ [e]) text := by
  refine ⟨fun r hr hunacked => ?_, h.unique⟩
  rw [appendedIn_snoc] at hr
  rw [lastAcked_snoc] at hunacked
  rcases mem_append.1 hr with hold | hnew
  · refine h.kept r hold (lt_of_le_of_lt ?_ hunacked)
    cases he : e.ackedSeq with
    | none => exact le_rfl
    | some seq => exact hacked seq he
  · exact hrecords r hnew

/-! ## The invariant -/

/-- What the operation at work relies on. -/
def PhaseHolds (c : SpoolCodec R) (s : SpoolState R) : SpoolPhase R → Prop
  | .writing records => s.handle ≠ .detached ∧ c.AtLineEnd s.text ∧ Fresh c s.text records
  | .syncing records before =>
    s.handle = .attached ∧ s.text = before ++ c.joined records ∧ c.AtLineEnd before ∧
      Keeps c s.history before
  | .acking seq _ => lastAcked s.history ≤ seq
  | .compacting seq => lastAcked s.history = seq
  | .rewriting recovery | .opening recovery => Recovers c s.history recovery
  | .idle | .reopening | .reading _ => True

/-- The file has what has to be recovered, the ack file the last acked number, and every `open` so
far has returned what it had to. -/
structure Durable (c : SpoolCodec R) (s : SpoolState R) : Prop where
  keeps : Keeps c s.history s.text
  acked : s.readAcked = lastAcked s.history
  phase : PhaseHolds c s s.phase
  reported : PrecededBy (RecoversAll c) s.history

theorem Durable.initial (c : SpoolCodec R) : Durable c .initial where
  keeps := ⟨by simp [SpoolState.initial, appendedIn], by
    simp [SpoolState.initial, SpoolState.text, c.read_nil]⟩
  acked := rfl
  phase := trivial
  reported := .nil _

variable {maxBytes : Nat} {s s' : SpoolState R}

/-- What a failed or crashed operation leaves in the file. -/
theorem Durable.interrupted (h : Durable c s) (written : Nat) :
    Keeps c s.history ((s.interrupted c written).getD []) := by
  obtain ⟨file, ackFile, handle, bytes, phase, history⟩ := s
  have hph := h.phase
  cases phase with
  | writing =>
    obtain ⟨-, hend, hfresh⟩ := hph
    cases handle with
    | attached => exact h.keeps.torn hend hfresh written
    | absent | closed | detached => exact h.keeps
  | syncing records before =>
    obtain ⟨hhandle, htext, hend, hbef⟩ := hph
    have hfresh : Fresh c before records := by
      rw [Fresh, ← c.read_append_joined hend, ← htext]
      exact h.keeps.unique
    cases hhandle
    exact hbef.torn hend hfresh written
  | idle | acking | compacting | reopening | reading | rewriting | opening => exact h.keeps

variable {file : Option (List UInt8)}

/-- The state after an operation has ended: nothing relies on the file any more. -/
theorem Durable.ends (h : Durable c s) (hfile : Keeps c s.history (file.getD []))
    (handle : SpoolHandle) (bytes : Nat) :
    Durable c { s with file, handle, bytes, phase := .idle } :=
  ⟨hfile, h.acked, trivial, h.reported⟩

variable {l : SpoolLabel R}

namespace Durable

variable (h : Durable c s)

include h

theorem begins (hclean : CleanAppends c s l) (hidle : s.phase = .idle)
    (hstep : beginOperation c maxBytes s l = some s') : Durable c s' := by
  cases l with
  | append =>
    simp only [beginOperation] at hstep
    split at hstep
    · cases hstep
      exact ⟨h.keeps, h.acked, hclean, h.reported⟩
    · cases hstep
      exact h
  | ack seq =>
    cases hstep
    have hle : lastAcked s.history ≤ seq := h.acked.symm.trans_le hclean
    exact ⟨h.keeps, h.acked, hle, h.reported⟩
  | «open» =>
    cases hstep
    exact ⟨h.keeps, h.acked, trivial, h.reported⟩
  | close =>
    cases hstep
    refine ⟨h.keeps, h.acked, ?_, h.reported⟩
    simp only [hidle, PhaseHolds]
  | wrote | done | fail | crash => cases hstep

/-- All bytes of an `append` are written, at the end of a line. -/
theorem writes {written : Nat} (hclean : CleanAppends c s (.wrote written))
    (hstep : finishWrite c s written = some s') : Durable c s' := by
  have hholds := h.phase
  simp only [finishWrite] at hstep
  split at hstep
  · rename_i records hph hattached
    rw [hph] at hholds
    simp only [CleanAppends, hph] at hclean
    obtain ⟨-, hend, hfresh⟩ := hholds
    rw [take_of_length_le hclean] at hstep
    cases hstep
    exact ⟨h.keeps.written hend hfresh, h.acked, ⟨hattached, rfl, hend, h.keeps⟩, h.reported⟩
  · rename_i hph hdetached
    rw [hph] at hholds
    exact absurd hdetached hholds.1
  · cases hstep

/-- An operation ends with an event that acks nothing and whose records are in the file. -/
theorem reports (hfile : file.getD [] = s.text) (e : SpoolEvent R) (hnone : e.ackedSeq = none)
    (hrecords : ∀ r ∈ e.records, r ∈ c.read s.text) (he : RecoversAll c e s.history)
    (handle : SpoolHandle) (bytes : Nat) :
    Durable c { s with
      file
      handle
      bytes
      phase := .idle
      history := s.history ++ [e] } := by
  have hkeeps := h.keeps.snoc (e := e) (by simp [hnone]) hrecords
  rw [← hfile] at hkeeps
  refine ⟨hkeeps, ?_, trivial, h.reported.snoc e he⟩
  rw [lastAcked_snoc, hnone]
  exact h.acked

theorem acks {compact : Bool} (hph : s.phase = .acking seq compact)
    (hstep : finishStep c s = some s') : Durable c s' := by
  have hle := h.phase
  rw [hph] at hle
  simp only [finishStep, hph] at hstep
  cases hstep
  have hacked : lastAcked (s.history ++ [SpoolEvent.acked seq]) = seq := lastAcked_snoc _ _
  refine ⟨h.keeps.snoc ?_ (by simp [records]), hacked.symm, ?_,
    h.reported.snoc _ trivial⟩
  · rintro _ ⟨⟩
    exact hle
  · cases compact with
    | true => exact hacked
    | false => trivial

/-- `ack` has rewritten the file. -/
theorem compacts (hph : s.phase = .compacting seq)
    (hstep : finishStep c s = some s') : Durable c s' := by
  have hacked := h.phase
  rw [hph] at hacked
  simp only [finishStep, hph] at hstep
  split at hstep
  · cases hstep
  rename_i records hrecords
  cases hstep
  obtain ⟨text, htext, hread⟩ := Option.bind_eq_some_iff.1 hrecords
  have hkeeps := h.keeps.compacted hacked
  rw [SpoolState.text, htext, Option.getD_some, c.read_eq_of_mapM hread] at hkeeps
  exact ⟨hkeeps, h.acked, trivial, h.reported⟩

/-- `open` has read the files. -/
theorem reads {ackReadable : Bool} (hph : s.phase = .reading ackReadable)
    (hstep : finishStep c s = some s') : Durable c s' := by
  simp only [finishStep, hph] at hstep
  cases hstep
  have hrecovers : Recovers c s.history
      (c.recover (if ackReadable then s.readAcked else 0) s.text) := by
    refine h.keeps.recovers ?_
    split
    · exact h.acked.le
    · exact Nat.zero_le _
  refine ⟨h.keeps, h.acked, ?_, h.reported⟩
  generalize c.recover _ _ = recovery at hrecovers
  split <;> exact hrecovers

theorem finishes (hstep : finishStep c s = some s') : Durable c s' := by
  obtain ⟨file, ackFile, handle, bytes, phase, history⟩ := s
  have hholds := h.phase
  cases phase with
  | idle | writing => cases hstep
  | syncing records =>
    obtain ⟨-, htext, hend, -⟩ := hholds
    cases hstep
    refine h.reports rfl (.appended records) rfl (fun r hr => ?_) trivial _ _
    rw [htext, c.read_append_joined hend]
    exact mem_append_right _ hr
  | acking => exact h.acks rfl hstep
  | compacting => exact h.compacts rfl hstep
  | reopening =>
    cases hstep
    refine h.ends ?_ _ _
    exact h.keeps
  | reading => exact h.reads rfl hstep
  | rewriting =>
    cases hstep
    exact ⟨hholds.keeps, h.acked, hholds, h.reported⟩
  | opening recovery =>
    cases hstep
    refine h.reports ?_ (.recovered recovery) rfl (by simp [records]) hholds _ _
    rfl

theorem step (hclean : CleanAppends c s l)
    (hstep : SpoolSteps c maxBytes s l s') : Durable c s' := by
  cases l with
  | append | ack | «open» | close =>
    simp only [SpoolSteps, spoolStep] at hstep
    split at hstep
    · rename_i hidle
      exact h.begins hclean hidle hstep
    · cases hstep
  | wrote => exact h.writes hclean hstep
  | done => exact h.finishes hstep
  | fail written =>
    simp only [SpoolSteps, spoolStep] at hstep
    split at hstep
    · cases hstep
    · cases hstep
      exact h.ends (h.interrupted written) _ _
  | crash written =>
    cases hstep
    exact h.ends (h.interrupted written) _ _

end Durable

/-! ## Runs -/

/-- Every `open` that resolves returns all records that were appended before it and not acked, in
the order of their numbers and without repetition. -/
theorem unacked_records_recovered (c : SpoolCodec R) (maxBytes : Nat) (s : SpoolState R)
    (hrun : RunWhere (SpoolSteps c maxBytes) (CleanAppends c) .initial s) :
    PrecededBy (RecoversAll c) s.history :=
  (RunWhere.invariant (Durable c) hrun (Durable.initial c)
    fun _ _ _ ha => ha.step).reported

/-! ### Numbers as records -/

/-- A number in braces, in unary: a record whose beginnings are no records. -/
def braced (n : Nat) : List UInt8 := 123 :: (List.replicate n 49 ++ [125])

theorem braced_length (n : Nat) : (braced n).length = n + 2 := by
  simp [braced]

/-- Only the whole text has the closing brace. -/
theorem notMem_of_prefix_braced {n : Nat} (h : text <+: braced n) (hne : text ≠ braced n) :
    (125 : UInt8) ∉ text := by
  rw [braced, ← cons_append] at h hne
  have hinit := (prefix_concat_iff.1 h).resolve_left hne
  intro hmem
  have hlast := hinit.subset hmem
  simp at hlast

/-- The codec that writes a number as `braced`. -/
def bracedCodec : SpoolCodec Nat where
  newline := 10
  encode := braced
  decode text := if text = braced (text.length - 2) then some (text.length - 2) else none
  blank := List.isEmpty
  decode_encode n := by simp [braced_length]
  decode_of_prefix := by
    intro n text h hne
    have hnotMem := notMem_of_prefix_braced h hne
    refine if_neg fun htext => hnotMem ?_
    rw [htext]
    simp [braced]
  newline_notMem n := by simp [braced]
  blank_nil := rfl
  blank_encode n := rfl
  seq := id

/-- What `open` has returned, call by call. -/
def recoveredIn (history : List (SpoolEvent Nat)) : List (List Nat) :=
  history.filterMap fun
    | .recovered recovery => some recovery.pending
    | .appended _ | .acked _ => none

/-- A write is cut off by a crash, and the record before it is recovered; another one is acked. -/
theorem unacked_records_recovered_after_crash :
    ∃ s, RunWhere (SpoolSteps bracedCodec 1000) (CleanAppends bracedCodec) .initial s ∧
      recoveredIn s.history = [[], [1, 2], [2]] ∧
      PrecededBy (RecoversAll bracedCodec) s.history :=
  ⟨_, .performed
    [.open true, .done, .done, .append [1, 2], .wrote 9, .done, .append [3], .crash 2,
     .open true, .done, .done, .done, .ack 1 true, .done, .done, .done, .close, .open true, .done,
     .done] (by decide +kernel), by decide +kernel,
    unacked_records_recovered bracedCodec 1000 _ (.performed _ _)⟩

/-- A write fails after two bytes, the next `append` resolves, and the process restarts: its record
is not recovered. -/
theorem resolved_append_lost_behind_torn_line :
    ¬∀ s, RunWhere (SpoolSteps bracedCodec 1000) (fun _ _ => True) .initial s →
      PrecededBy (RecoversAll bracedCodec) s.history := by
  intro hall
  have hrecovers := hall _ (.performed
    [.open true, .done, .done, .append [1], .fail 2, .append [2], .wrote 5, .done, .crash 0,
     .open true, .done, .done, .done] (by decide +kernel))
    [.recovered ⟨[], 0, 0⟩, .appended [2]] (.recovered ⟨[], 0, 1⟩) [] (by decide +kernel)
  have hmem := hrecovers.kept 2 (by simp [appendedIn, records]) Nat.zero_lt_two
  cases hmem

end Refract.Oracle.Evidence
