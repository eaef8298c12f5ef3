import Refract.Lib.Runs
import Refract.Oracle.EvidenceBuffer

/-!
# Every lost number is in a gap

A number that the buffer has assigned belongs to a record the spool has accepted, or it lies in a
gap: one that the spool has accepted as a record, the open one, or one that a waiting `append` has
taken along (`Accounted`). When such an `append` fails it puts its gap back in the place of the gap
that is open by then. With calls that are answered in order, that forgets nothing unless the gap it
replaces begins earlier (`GapsInOrder`), which takes two calls that carry a gap at the same time;
then the numbers of the earlier gap are in no record and in no gap
(`number_lost_by_overlapping_gaps`).
-/

namespace Refract.Oracle.Evidence

open Lib List EvidenceAppend OracleEvidenceBuffer

/-! ## What is accounted for -/

/-- The numbers between the ends of a gap record. -/
def EvidenceRecord.Spans (seq : Nat) : EvidenceRecord → Prop
  | .sequenced _ _ => False
  | .gap record => record.firstSeq ≤ seq ∧ seq ≤ record.lastSeq

instance (seq : Nat) (r : EvidenceRecord) : Decidable (r.Spans seq) := by
  unfold EvidenceRecord.Spans
  split <;> infer_instance

def OpenGap.Spans (gap : OpenGap) (seq : Nat) : Prop := gap.firstSeq ≤ seq ∧ seq ≤ gap.lastSeq

instance (gap : OpenGap) (seq : Nat) : Decidable (gap.Spans seq) :=
  inferInstanceAs (Decidable (gap.firstSeq ≤ seq ∧ seq ≤ gap.lastSeq))

/-- A number is that of an accepted record, or it lies in an accepted gap or in the open one. -/
def Accounts (b : OracleEvidenceBuffer) (seq : Nat) : Prop :=
  (∃ r ∈ b.accepted, r.seq = seq ∨ r.Spans seq) ∨ ∃ gap ∈ b.openGap, gap.Spans seq

instance (b : OracleEvidenceBuffer) (seq : Nat) : Decidable (Accounts b seq) :=
  inferInstanceAs (Decidable
    ((∃ r ∈ b.accepted, r.seq = seq ∨ r.Spans seq) ∨ ∃ gap ∈ b.openGap, gap.Spans seq))

/-- A call that waits for the spool answers for the number. -/
def EvidenceAppend.Carries (call : EvidenceAppend) (seq : Nat) : Prop :=
  ∃ r ∈ call.records, r.seq = seq ∨ r.Spans seq

/-- Before the step: when the spool refuses a call that has taken a gap along, the gap that is open
does not begin before that one. -/
def GapsInOrder (b : OracleEvidenceBuffer) : BufferLabel → Prop
  | .answered (.error _) _ =>
    ∀ call ∈ b.inFlight.head?, ∀ taken ∈ call.gap, ∀ gap ∈ b.openGap,
      taken.firstSeq ≤ gap.firstSeq
  | .answered (.ok _) _ | .started _ _ _ _ | .append _ _ | .drained _ => True

instance (b : OracleEvidenceBuffer) (l : BufferLabel) : Decidable (GapsInOrder b l) := by
  unfold GapsInOrder
  split <;> infer_instance

/-! ## The numbers of a call -/

variable {seq : Nat} {call : EvidenceAppend}

/-- A gap record comes right before the entries, and its gap lies before it. -/
def EvidenceAppend.InSequence (call : EvidenceAppend) : Prop :=
  ∀ record ∈ call.gap, record.firstSeq ≤ record.seq ∧ record.lastSeq < record.seq ∧
    call.firstSeq = record.seq + 1

theorem EvidenceAppend.firstSeq_le_lastSeq (call : EvidenceAppend) :
    call.firstSeq ≤ call.lastSeq := by
  have hpos := length_pos_iff.2 call.nonempty
  simp only [lastSeq]
  omega

theorem EvidenceAppend.InSequence.start_le (h : call.InSequence) : call.start ≤ call.firstSeq := by
  cases hgap : call.gap with
  | none => simp [start, hgap]
  | some record =>
    have hsucc := (h record (by simp [hgap])).2.2
    simp only [start, hgap]
    omega

/-- A number that a call carries lies in the gap the call would put back, or among its own. -/
theorem EvidenceAppend.Carries.bounds (h : call.InSequence) (hseq : call.Carries seq) :
    ((∃ record ∈ call.gap, record.firstSeq ≤ seq) ∨ call.firstSeq ≤ seq) ∧
      seq ≤ call.lastSeq := by
  have hle := call.firstSeq_le_lastSeq
  obtain ⟨r, hr, hmatch⟩ := hseq
  simp only [records, mem_append, mem_map, Option.mem_toList] at hr
  rcases hr with ⟨record, hrcd, rfl⟩ | ⟨numbered, hnumbered, rfl⟩
  · obtain ⟨hfst, hlast, hsucc⟩ := h record hrcd
    simp only [EvidenceRecord.seq, EvidenceRecord.Spans] at hmatch
    exact ⟨.inl ⟨record, hrcd, by omega⟩, by omega⟩
  · have hmem := (of_mem_zip hnumbered).1
    simp only [seqs, mem_range'_1] at hmem
    simp only [EvidenceRecord.seq, EvidenceRecord.Spans, or_false] at hmatch
    simp only [lastSeq]
    exact ⟨.inr (by omega), by omega⟩

/-! ## The invariant -/

/-- Every assigned number is accounted for or carried by a call that waits. The calls have taken
their numbers in the order they were made, and the open gap lies before all of them: it is made of
calls that have been answered. -/
structure Accounted (b : OracleEvidenceBuffer) : Prop where
  covered : ∀ seq ∈ b.assigned, Accounts b seq ∨ ∃ call ∈ b.inFlight, call.Carries seq
  inSequence : ∀ call ∈ b.inFlight, call.InSequence
  le_last : ∀ call ∈ b.inFlight, call.lastSeq ≤ b.lastSeq
  ordered : b.inFlight.Pairwise fun call later => call.lastSeq < later.start
  gap_le : ∀ gap ∈ b.openGap, gap.firstSeq ≤ gap.lastSeq + 1 ∧ gap.lastSeq ≤ b.lastSeq
  gap_before : ∀ gap ∈ b.openGap, ∀ call ∈ b.inFlight, gap.lastSeq < call.start
  unopened : b.opened = false → b.assigned = [] ∧ b.inFlight = [] ∧ b.openGap = none

theorem Accounted.initial : Accounted .initial := by
  constructor
  all_goals simp [OracleEvidenceBuffer.initial]

variable {b : OracleEvidenceBuffer}

/-- Nothing is assigned before the start. -/
theorem Accounted.starts (h : Accounted b) (hopened : b.opened = false)
    (pending : List EvidenceRecord) (highWaterSeq discardedLines : Nat) (now : Int) :
    Accounted (b.start pending highWaterSeq discardedLines now) := by
  obtain ⟨hassigned, hflight, hgap⟩ := h.unopened hopened
  simp only [OracleEvidenceBuffer.start]
  split
  all_goals
    constructor
    all_goals simp [noteLoss, hassigned, hflight, hgap]

theorem Accounted.nextAppend (h : Accounted b) (entries : List EvidenceEntry)
    (nonempty : entries ≠ []) (now : Int) :
    (b.nextAppend entries nonempty now).InSequence ∧
      (b.nextAppend entries nonempty now).start = b.lastSeq + 1 := by
  simp only [OracleEvidenceBuffer.nextAppend]
  split
  · rename_i gap hgap
    obtain ⟨hfst, hlast⟩ := h.gap_le gap hgap
    refine ⟨fun record hrcd => ?_, rfl⟩
    cases Option.mem_some.1 hrcd
    refine ⟨?_, ?_, rfl⟩ <;> simp only [closeGapRecord] <;> omega
  · exact ⟨by simp [InSequence], rfl⟩

/-- The gap that was open is carried by the call that has taken it. -/
theorem nextAppend_carries {gap : OpenGap} (hgap : gap ∈ b.openGap) (hseq : gap.Spans seq)
    (entries : List EvidenceEntry) (nonempty : entries ≠ []) (now : Int) :
    (b.nextAppend entries nonempty now).Carries seq := by
  have hopen : b.openGap = some gap := hgap
  refine ⟨.gap (b.closeGapRecord gap now), ?_, .inr hseq⟩
  simp [nextAppend, hopen, records]

theorem Accounted.issues (h : Accounted b) (hopened : b.opened = true)
    (entries : List EvidenceEntry) (nonempty : entries ≠ []) (now : Int) :
    Accounted (b.issue entries nonempty now) := by
  obtain ⟨hsequence, hstart⟩ := h.nextAppend entries nonempty now
  have hcarries : ∀ gap ∈ b.openGap, ∀ seq, gap.Spans seq →
      (b.nextAppend entries nonempty now).Carries seq :=
    fun gap hgap seq hseq => nextAppend_carries hgap hseq entries nonempty now
  simp only [issue]
  generalize b.nextAppend entries nonempty now = call at hsequence hstart hcarries
  have hlast : b.lastSeq < call.lastSeq := by
    have hle := hsequence.start_le
    have hfst := call.firstSeq_le_lastSeq
    omega
  refine ⟨?_, ?_, ?_, ?_, by simp, by simp, by simp [hopened]⟩
  · intro seq hseq
    rcases mem_append.1 hseq with hold | hnew
    · rcases h.covered seq hold with (hacc | ⟨gap, hgap, hspan⟩) | ⟨other, hoth, hcarry⟩
      · exact .inl (.inl hacc)
      · exact .inr ⟨call, by simp, hcarries gap hgap seq hspan⟩
      · exact .inr ⟨other, by simp [hoth], hcarry⟩
    · obtain ⟨r, hr, rfl⟩ := mem_map.1 hnew
      exact .inr ⟨call, by simp, r, hr, .inl rfl⟩
  · exact forall_mem_snoc.2 ⟨h.inSequence, hsequence⟩
  · exact forall_mem_snoc.2 ⟨fun other hold => (h.le_last other hold).trans hlast.le, le_rfl⟩
  · refine pairwise_snoc.2 ⟨h.ordered, fun other hoth => ?_⟩
    have hle := h.le_last other hoth
    omega

variable {rest : List EvidenceAppend} {b' : OracleEvidenceBuffer}

section

variable (h : Accounted b) (hflight : b.inFlight = call :: rest)

include h hflight

/-- The answer of the spool to the oldest call, up to what becomes of its records: `b'` has the
other calls in flight and the numbers of `b`. -/
theorem Accounted.answered (hrest : b'.inFlight = rest) (hassigned : b'.assigned = b.assigned)
    (hlastSeq : b'.lastSeq = b.lastSeq) (hopened : b'.opened = b.opened)
    (hkept : ∀ seq, Accounts b seq → Accounts b' seq)
    (hcall : ∀ seq, call.Carries seq → Accounts b' seq)
    (hgap : ∀ gap ∈ b'.openGap, gap.firstSeq ≤ gap.lastSeq + 1 ∧
      (gap ∈ b.openGap ∨ gap.lastSeq = call.lastSeq)) : Accounted b' := by
  have hmem : ∀ {other}, other ∈ b'.inFlight → other ∈ b.inFlight := by
    intro other hoth
    rw [hflight]
    exact mem_cons_of_mem _ (hrest ▸ hoth)
  have hcallmem : call ∈ b.inFlight := by simp [hflight]
  have hord := h.ordered
  rw [hflight, pairwise_cons, ← hrest] at hord
  refine ⟨?_, fun other hoth => h.inSequence other (hmem hoth), ?_, hord.2, ?_, ?_, ?_⟩
  · intro seq hseq
    rw [hassigned] at hseq
    rcases h.covered seq hseq with haccounts | ⟨other, hoth, hcarry⟩
    · exact .inl (hkept seq haccounts)
    rw [hflight] at hoth
    rcases mem_cons.1 hoth with rfl | hoth
    · exact .inl (hcall seq hcarry)
    · exact .inr ⟨other, hrest ▸ hoth, hcarry⟩
  · intro other hoth
    rw [hlastSeq]
    exact h.le_last other (hmem hoth)
  · intro gap hmemGap
    obtain ⟨hfst, hold | hlast⟩ := hgap gap hmemGap
    · exact ⟨hfst, hlastSeq ▸ (h.gap_le gap hold).2⟩
    · have hle := h.le_last call hcallmem
      exact ⟨hfst, by omega⟩
  · intro gap hmemGap other hoth
    obtain ⟨-, hold | hlast⟩ := hgap gap hmemGap
    · exact h.gap_before gap hold other (hmem hoth)
    · have hlt := hord.1 other hoth
      omega
  · intro hclosed
    have hnone := (h.unopened (hopened ▸ hclosed)).2.1
    rw [hflight] at hnone
    cases hnone

theorem Accounted.keeps : Accounted ({ b with inFlight := rest }.keep call) := by
  refine h.answered hflight rfl rfl rfl rfl ?_ ?_ ?_
  · rintro seq (⟨r, hr, hmatch⟩ | hgap)
    · exact .inl ⟨r, mem_append_left _ hr, hmatch⟩
    · exact .inr hgap
  · rintro seq ⟨r, hr, hmatch⟩
    exact .inl ⟨r, mem_append_right _ hr, hmatch⟩
  · exact fun gap hgap => ⟨(h.gap_le gap hgap).1, .inl hgap⟩

variable (hinOrder : ∀ taken ∈ call.gap, ∀ gap ∈ b.openGap, taken.firstSeq ≤ gap.firstSeq)
  (reason : String) (now : Int)

include hinOrder

/-- The gap that is open once a call has failed: it begins where the open gap or the gap that the
call has taken along begins, and it reaches to the last number of the call. -/
theorem lose_openGap :
    ∃ gap ∈ ({ b with inFlight := rest }.lose call reason now).openGap,
      gap.firstSeq ≤ call.firstSeq ∧ gap.lastSeq = call.lastSeq ∧
      (∀ taken ∈ call.gap, gap.firstSeq ≤ taken.firstSeq) ∧
      ∀ old ∈ b.openGap, gap.firstSeq ≤ old.firstSeq ∧ old.lastSeq ≤ gap.lastSeq := by
  have hmem : call ∈ b.inFlight := by simp [hflight]
  have hsequence := h.inSequence call hmem
  have hlast := call.firstSeq_le_lastSeq
  have hstart := hsequence.start_le
  -- The open gap is made of answered calls, so it ends before this one begins.
  have hbef : ∀ old ∈ b.openGap, old.lastSeq < call.start :=
    fun old hold => h.gap_before old hold call hmem
  simp only [lose]
  cases htaken : call.gap with
  | some taken =>
    obtain ⟨hfst, -, hsucc⟩ := hsequence taken htaken
    refine ⟨_, rfl, ?_⟩
    simp only [reopen, Option.mem_some]
    refine ⟨by omega, by omega, fun other hoth => hoth ▸ le_rfl, fun old hold => ?_⟩
    have hle := hinOrder taken htaken old hold
    have hlt := hbef old hold
    omega
  | none =>
    cases hopen : b.openGap with
    | none =>
      refine ⟨_, rfl, ?_⟩
      simp [reopen]
    | some old =>
      have hlt := hbef old hopen
      have hgap := (h.gap_le old hopen).1
      refine ⟨_, rfl, ?_⟩
      simp only [reopen, Option.mem_some]
      refine ⟨by omega, by omega, by simp, fun other hoth => ?_⟩
      cases hoth
      exact ⟨le_rfl, le_max_left _ _⟩

theorem Accounted.loses : Accounted ({ b with inFlight := rest }.lose call reason now) := by
  obtain ⟨gap, hgap, hfst, hlast, htaken, hold⟩ := lose_openGap h hflight hinOrder reason now
  have hcalls := call.firstSeq_le_lastSeq
  refine h.answered hflight rfl rfl rfl rfl ?_ ?_ ?_
  · rintro seq (⟨r, hr, hmatch⟩ | ⟨old, hopen, hspan⟩)
    · exact .inl ⟨r, hr, hmatch⟩
    · obtain ⟨hle, hle'⟩ := hold old hopen
      exact .inr ⟨gap, hgap, hle.trans hspan.1, hspan.2.trans hle'⟩
  · intro seq hcarry
    obtain ⟨hlow, hhigh⟩ := hcarry.bounds (h.inSequence call (by simp [hflight]))
    refine .inr ⟨gap, hgap, ?_, hlast ▸ hhigh⟩
    rcases hlow with ⟨record, hrcd, hle⟩ | hle
    · exact (htaken record hrcd).trans hle
    · exact hfst.trans hle
  · intro other hoth
    cases hgap.symm.trans hoth
    exact ⟨by omega, .inr hlast⟩

end

theorem Accounted.drains (h : Accounted b) (batchSize : Nat) (stored : Bool) :
    Accounted (b.drain batchSize stored) := by
  simp only [OracleEvidenceBuffer.drain]
  split
  · exact { h with }
  · exact h

theorem Accounted.step {batchSize : Nat} {l : BufferLabel} (h : Accounted b)
    (hinOrder : GapsInOrder b l) (hstep : BufferSteps batchSize b l b') : Accounted b' := by
  cases l with
  | started =>
    simp only [BufferSteps, bufferStep] at hstep
    split at hstep
    · cases hstep
    rename_i hopened
    cases hstep
    exact h.starts (by simpa using hopened) _ _ _ _
  | append =>
    simp only [BufferSteps, bufferStep, append] at hstep
    split at hstep
    · rename_i b'' happ
      cases hstep
      split at happ
      · cases happ
      rename_i hopened
      split at happ
      · cases happ
        exact h
      split at happ
      · cases happ
      · cases happ
        exact h.issues (by simpa using hopened) _ _ _
    · cases hstep
      exact h
  | answered =>
    simp only [BufferSteps, bufferStep] at hstep
    split at hstep
    · cases hstep
    rename_i call rest hflight
    split at hstep
    · cases hstep
      exact h.keeps hflight
    · cases hstep
      refine h.loses hflight (fun taken htaken gap hgap => ?_) _ _
      exact hinOrder call (by simp [hflight]) taken htaken gap hgap
  | drained =>
    cases hstep
    exact h.drains _ _

/-! ## Runs -/

/-- While no `append` waits for the spool, every number that has been assigned belongs to an
accepted record or lies in an accepted gap or in the open one. -/
theorem assigned_numbers_accounted (batchSize : Nat) (b : OracleEvidenceBuffer)
    (hrun : RunWhere (BufferSteps batchSize) GapsInOrder .initial b) (hidle : b.inFlight = []) :
    ∀ seq ∈ b.assigned, Accounts b seq := by
  have hinv : Accounted b :=
    RunWhere.invariant Accounted hrun Accounted.initial fun _ _ _ ha => ha.step
  intro seq hseq
  rcases hinv.covered seq hseq with haccounts | ⟨call, hcall, -⟩
  · exact haccounts
  · rw [hidle] at hcall
    cases hcall

/-- An entry of a known coverage type. -/
def sampleEvidence : EvidenceEntry :=
  ⟨.reading, "MarketCrash", .finite 1, "low", "coingecko", 0, .null⟩

/-- Two calls overlap, the spool refuses the first and the third, and the gap is recorded with the
fourth. -/
theorem assigned_numbers_accounted_after_losses :
    ∃ b, RunWhere (BufferSteps 10) GapsInOrder .initial b ∧ b.inFlight = [] ∧
      b.assigned = [8, 9, 10, 11, 12, 13] ∧ ∀ seq ∈ b.assigned, Accounts b seq :=
  ⟨_, .performed
    [.started [] 7 0 0, .append [sampleEvidence] 1, .append [sampleEvidence] 1,
     .answered (.error "ENOSPC") 2, .answered (.ok ()) 2, .append [sampleEvidence] 3,
     .answered (.error "ENOSPC") 4, .append [sampleEvidence] 5, .answered (.ok ()) 6, .drained true]
    (by decide +kernel), by decide +kernel, by decide +kernel,
    assigned_numbers_accounted 10 _ (.performed _ _) (by decide +kernel)⟩

/-- Two calls carry a gap at the same time and both fail: the second puts its gap back in the place
of the first one's, and the number 1 is in no record and in no gap. -/
theorem number_lost_by_overlapping_gaps :
    ¬∀ b, RunWhere (BufferSteps 10) (fun _ _ => True) .initial b → b.inFlight = [] →
      ∀ seq ∈ b.assigned, Accounts b seq := by
  intro hall
  have haccounted := hall _ (.performed
    [.started [] 0 0 0, .append [sampleEvidence] 1, .append [sampleEvidence] 1,
     .answered (.error "ENOSPC") 2, .append [sampleEvidence] 3, .answered (.error "ENOSPC") 4,
     .append [sampleEvidence] 5, .answered (.error "ENOSPC") 6, .answered (.error "ENOSPC") 7]
    (by decide +kernel)) (by decide +kernel) 1 (by decide +kernel)
  revert haccounted
  decide +kernel

end Refract.Oracle.Evidence
