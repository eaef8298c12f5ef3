import Refract.Lib.Ecma
import Refract.Lib.OrdMap
import Refract.Lib.Runs
import Refract.Lib.Tables

/-!
# Local receipts and the chain

`diffChainState` compares the backend's publish receipts with the oracle entries on the chain and
classifies what differs; readings without a receipt may be repaired with `receiptFromChain`.
`repair_converges`: after a repair the same diff finds what was not repairable and nothing else, and
a second repair changes nothing. `unexpected_writer_found`: an entry by a writer that is not
authorised is found exactly if no local receipt has its key (`unexpected_writer_hidden`) and no
later entry of the window.
-/

namespace Refract.Oracle.ChainDiff

open Lib List OrdMap

/-! ## Records and findings -/

inductive PublishKind where
  | reading | decision
  deriving DecidableEq, Repr

def PublishKind.text : PublishKind → String
  | .reading => "reading"
  | .decision => "decision"

inductive ReceiptSource where
  | publisher | reconciliationBackfill
  deriving DecidableEq, Repr

structure LocalPublishRecord where
  feedId : String
  kind : PublishKind
  value : String
  publishedAt : ℚ
  txHash : String
  submitter : String
  source : ReceiptSource
  deriving DecidableEq, Repr

structure OnChainOracleEntry where
  feedId : String
  kind : PublishKind
  value : String
  ledgerClosedAt : ℚ
  txHash : String
  submitter : Option String
  deriving DecidableEq, Repr

inductive DriftClass where
  | missingLocalReceipt | missingOnChainValue | valueMismatch | timestampMismatch | unexpectedWriter
  deriving DecidableEq, Repr

structure DriftFinding where
  driftClass : DriftClass
  feedId : String
  kind : PublishKind
  txHash : String
  localRecord : Option LocalPublishRecord := none
  onChain : Option OnChainOracleEntry := none
  detail : String
  autoRepairable : Bool := false
  deriving DecidableEq, Repr

structure ChainDiffOptions where
  nowSec : ℚ
  lookbackSeconds : ℚ
  finalityBufferSeconds : ℚ
  timestampToleranceSeconds : ℚ
  authorizedWriters : List String

/-- `toLowerCase`, `BigInt` of a text where it does not throw, and the text of a number. -/
structure DiffHost where
  toLowerCase : String → String
  bigInt : String → Option Int
  numberToString : ℚ → String

/-! ## The diff -/

variable (host : DiffHost) (opts : ChainDiffOptions)

def inWindow (t : ℚ) : Prop :=
  opts.nowSec - opts.lookbackSeconds ≤ t ∧ t ≤ opts.nowSec - opts.finalityBufferSeconds

instance (t : ℚ) : Decidable (inWindow opts t) := inferInstanceAs (Decidable (_ ∧ _))

def publishKey (txHash : String) (kind : PublishKind) (feedId : String) : String :=
  host.toLowerCase txHash ++ ":" ++ kind.text ++ ":" ++ feedId

def LocalPublishRecord.key (r : LocalPublishRecord) : String :=
  publishKey host r.txHash r.kind r.feedId

def OnChainOracleEntry.key (e : OnChainOracleEntry) : String :=
  publishKey host e.txHash e.kind e.feedId

def normaliseValue (value : String) : String :=
  match host.bigInt (trim value) with
  | some n => toString n
  | none => trim value

/-- What the loop over the local receipts finds for one of them. -/
def localFinding (allChainByKey : OrdMap String OnChainOracleEntry) (record : LocalPublishRecord) :
    Option DriftFinding :=
  if ¬inWindow opts record.publishedAt then none
  else
    let finding : DriftFinding :=
      { driftClass := .missingOnChainValue, feedId := record.feedId, kind := record.kind,
        txHash := record.txHash, localRecord := some record,
        detail := "Backend recorded a " ++ record.kind.text ++ " for " ++ record.feedId ++
          " in tx " ++ record.txHash ++ " but no matching on-chain write was found" }
    match allChainByKey.get? (record.key host) with
    | none => some finding
    | some entry =>
      let skew := |entry.ledgerClosedAt - record.publishedAt|
      if normaliseValue host entry.value ≠ normaliseValue host record.value then
        some { finding with
          driftClass := .valueMismatch, onChain := some entry,
          detail := "Local " ++ record.kind.text ++ " value " ++ record.value ++
            " differs from on-chain value " ++ entry.value }
      else if opts.timestampToleranceSeconds < skew then
        some { finding with
          driftClass := .timestampMismatch, onChain := some entry,
          detail := "Local publish time differs from ledger close time by " ++
            host.numberToString skew ++ "s (tolerance " ++
            host.numberToString opts.timestampToleranceSeconds ++ "s)" }
      else none

def writerKnown (entry : OnChainOracleEntry) : Bool :=
  opts.authorizedWriters.isEmpty || entry.submitter.any (opts.authorizedWriters.contains ·)

/-- What the loop over the entries on the chain finds for one without a receipt. -/
def chainFinding (entry : OnChainOracleEntry) : DriftFinding :=
  let finding : DriftFinding :=
    { driftClass := .unexpectedWriter, feedId := entry.feedId, kind := entry.kind,
      txHash := entry.txHash, onChain := some entry,
      detail := "On-chain " ++ entry.kind.text ++ " for " ++ entry.feedId ++ " was written by " ++
        entry.submitter.getD "an unknown submitter" ++
        ", which is not an authorised oracle writer" }
  if writerKnown opts entry = false then finding
  else { finding with
    driftClass := .missingLocalReceipt,
    detail := "On-chain " ++ entry.kind.text ++ " for " ++ entry.feedId ++ " in tx " ++
      entry.txHash ++ " has no local receipt",
    autoRepairable := entry.kind = .reading }

def chainByKey (onChain : List OnChainOracleEntry) : OrdMap String OnChainOracleEntry :=
  .indexBy (·.key host) (onChain.filter fun e => inWindow opts e.ledgerClosedAt)

def allChainByKey (onChain : List OnChainOracleEntry) : OrdMap String OnChainOracleEntry :=
  .indexBy (·.key host) onChain

def diffChainState (receipts : List LocalPublishRecord) (onChain : List OnChainOracleEntry) :
    List DriftFinding :=
  let all := allChainByKey host onChain
  let localKeys := receipts.map (·.key host)
  let matchedKeys := (receipts.filter fun r =>
    inWindow opts r.publishedAt ∧ all.contains (r.key host)).map (·.key host)
  receipts.filterMap (localFinding host opts all) ++
    (chainByKey host opts onChain).entries.filterMap fun (key, entry) =>
      if key ∈ matchedKeys ∨ key ∈ localKeys then none else some (chainFinding opts entry)

def receiptFromChain (entry : OnChainOracleEntry) : LocalPublishRecord :=
  { feedId := entry.feedId, kind := entry.kind, value := entry.value,
    publishedAt := entry.ledgerClosedAt, txHash := entry.txHash,
    submitter := entry.submitter.getD "unknown", source := .reconciliationBackfill }

/-- The receipts after the repair of what a diff found. -/
def repair (receipts : List LocalPublishRecord) (findings : List DriftFinding) :
    List LocalPublishRecord :=
  receipts ++ (findings.filter (·.autoRepairable)).filterMap (·.onChain.map receiptFromChain)

/-! ## What is found -/

variable {host opts} {receipts : List LocalPublishRecord} {onChain : List OnChainOracleEntry}
  {entry : OnChainOracleEntry} {key : String}

/-- A matched key is the key of a receipt, so the second loop leaves out the keys of receipts. -/
theorem diffChainState_eq (receipts : List LocalPublishRecord) (onChain : List OnChainOracleEntry) :
    diffChainState host opts receipts onChain =
      receipts.filterMap (localFinding host opts (allChainByKey host onChain)) ++
        (chainByKey host opts onChain).entries.filterMap fun e =>
          if e.1 ∈ receipts.map (·.key host) then none else some (chainFinding opts e.2) := by
  unfold diffChainState
  dsimp only
  congr 2
  funext e
  have hmatched : ∀ p : LocalPublishRecord → Bool,
      (e.1 ∈ (receipts.filter p).map (·.key host) ∨ e.1 ∈ receipts.map (·.key host)) =
        (e.1 ∈ receipts.map (·.key host)) :=
    fun p => propext (or_iff_right_of_imp fun h => map_subset _ (filter_sublist.subset) h)
  simp only [hmatched]

theorem mem_chainByKey (h : (key, entry) ∈ (chainByKey host opts onChain).entries) :
    entry.key host = key ∧ entry ∈ onChain ∧ inWindow opts entry.ledgerClosedAt := by
  obtain ⟨hmem, hkey⟩ := of_get?_indexBy (mem_entries_iff.1 h)
  simpa [hkey] using hmem

theorem chainFinding_onChain (opts : ChainDiffOptions) (entry : OnChainOracleEntry) :
    (chainFinding opts entry).onChain = some entry := by
  simp only [chainFinding]
  split <;> rfl

/-- What the first loop finds is left to people, and is about no writer. -/
theorem localFindings_manual {all : OrdMap String OnChainOracleEntry} {finding : DriftFinding}
    (h : finding ∈ receipts.filterMap (localFinding host opts all)) :
    finding.autoRepairable = false ∧ finding.driftClass ≠ .unexpectedWriter := by
  obtain ⟨record, -, h⟩ := mem_filterMap.1 h
  unfold localFinding at h
  split at h
  · cases h
  dsimp only at h
  split at h
  · cases h
    exact ⟨rfl, by simp⟩
  iterate 2
    split at h
    · cases h
      exact ⟨rfl, by simp⟩
  cases h

/-! ## Repair -/

/-- The receipts that a repair adds. -/
theorem repair_adds (receipts : List LocalPublishRecord) (onChain : List OnChainOracleEntry) :
    ∃ added, repair receipts (diffChainState host opts receipts onChain) = receipts ++ added ∧
      ∀ record, record ∈ added ↔
        ∃ entry, (entry.key host, entry) ∈ (chainByKey host opts onChain).entries ∧
          entry.key host ∉ receipts.map (·.key host) ∧
          (chainFinding opts entry).autoRepairable = true ∧ receiptFromChain entry = record := by
  refine ⟨_, rfl, fun record => ?_⟩
  simp only [diffChainState_eq, mem_filterMap, mem_filter, mem_append]
  constructor
  · rintro ⟨finding, ⟨hlocal | ⟨⟨key, entry⟩, hmem, hfinding⟩, hauto⟩, hrecord⟩
    · rw [(localFindings_manual (mem_filterMap.2 hlocal)).1] at hauto
      cases hauto
    obtain ⟨hlocal, ⟨⟩⟩ := Option.ite_none_left_eq_some.1 hfinding
    obtain ⟨rfl, -⟩ := mem_chainByKey hmem
    rw [chainFinding_onChain] at hrecord
    exact ⟨entry, hmem, hlocal, hauto, Option.some.inj hrecord⟩
  · rintro ⟨entry, hmem, hlocal, hauto, rfl⟩
    refine ⟨chainFinding opts entry, ⟨.inr ⟨_, hmem, if_neg hlocal⟩, hauto⟩, ?_⟩
    rw [chainFinding_onChain, Option.map_some]

/-- The receipt of an entry agrees with it. -/
theorem localFinding_receiptFromChain (hdist : (onChain.map (·.key host)).Nodup)
    (htol : 0 ≤ opts.timestampToleranceSeconds) (hent : entry ∈ onChain) :
    localFinding host opts (allChainByKey host onChain) (receiptFromChain entry) = none := by
  have hget : (allChainByKey host onChain).get? ((receiptFromChain entry).key host) = some entry :=
    get?_indexBy_of_alone hent fun other hoth hkey =>
      inj_on_of_nodup_map hdist hoth hent hkey
  unfold localFinding
  split
  · rfl
  rw [hget]
  simp [receiptFromChain, htol]

/-- A repair leaves what it could not repair, and a second one changes nothing. -/
theorem repair_converges (hdistinct : (onChain.map (·.key host)).Nodup)
    (htolerance : 0 ≤ opts.timestampToleranceSeconds) :
    let findings := diffChainState host opts receipts onChain
    let repaired := repair receipts findings
    diffChainState host opts repaired onChain = findings.filter (!·.autoRepairable) ∧
      repair repaired (diffChainState host opts repaired onChain) = repaired := by
  intro findings repaired
  have hdiff : diffChainState host opts repaired onChain = findings.filter (!·.autoRepairable) := by
    obtain ⟨added, hrepaired, hadded⟩ := @repair_adds host opts receipts onChain
    have hagree : added.filterMap (localFinding host opts (allChainByKey host onChain)) = [] := by
      refine filterMap_eq_nil_iff.2 fun record hrecord => ?_
      obtain ⟨entry, hmem, -, -, rfl⟩ := (hadded record).1 hrecord
      exact localFinding_receiptFromChain hdistinct htolerance (mem_chainByKey hmem).2.1
    have hmanual : ∀ finding ∈ receipts.filterMap
        (localFinding host opts (allChainByKey host onChain)), (!finding.autoRepairable) = true :=
      fun finding hfinding => by simp [(localFindings_manual hfinding).1]
    rw [show repaired = _ from hrepaired, diffChainState_eq, filterMap_append, hagree, append_nil,
      show findings = _ from diffChainState_eq _ _, filter_append, filter_eq_self.2 hmanual,
      filter_filterMap]
    congr 1
    refine filterMap_congr fun ⟨key, entry⟩ he => ?_
    obtain ⟨rfl, -⟩ := mem_chainByKey he
    by_cases hlocal : entry.key host ∈ receipts.map (·.key host)
    · simp [hlocal]
    -- The key of an added receipt is the key of its entry, which stands alone in the index.
    have hnew : entry.key host ∈ added.map (·.key host) ↔
        (chainFinding opts entry).autoRepairable = true := by
      constructor
      · intro h
        obtain ⟨record, hrecord, hkey⟩ := mem_map.1 h
        obtain ⟨other, hother, -, hauto, rfl⟩ := (hadded record).1 hrecord
        have hget := mem_entries_iff.1 hother
        rw [show other.key host = entry.key host from hkey,
          mem_entries_iff.1 he] at hget
        cases hget
        exact hauto
      · intro hauto
        exact mem_map.2 ⟨receiptFromChain entry, (hadded _).2 ⟨entry, he, hlocal, hauto, rfl⟩, rfl⟩
    cases hauto : (chainFinding opts entry).autoRepairable <;>
      simp [hlocal, hnew, hauto, Option.filter]
  rw [hdiff, repair, filter_filter]
  simp

/-! ### One entry without a receipt -/

def asciiHost : DiffHost where
  toLowerCase s := String.ofList (s.toList.map Char.toLower)
  bigInt s := if s.toList.all Char.isDigit then
      some (s.toList.foldl (fun n c => 10 * n + (c.toNat - '0'.toNat : Int)) 0) else none
  numberToString := decimalString

def lastHundredSeconds (tolerance : ℚ) (authorizedWriters : List String) : ChainDiffOptions :=
  ⟨100, 100, 0, tolerance, authorizedWriters⟩

/-- A reading by the account `GB`. -/
def written : OnChainOracleEntry := ⟨"FlightDelay", .reading, "90", 50, "AB", some "GB"⟩

theorem repair_converges_backfilled :
    let diff := (diffChainState asciiHost (lastHundredSeconds 0 []) · [written])
    let repaired := repair [] (diff [])
    repaired ≠ [] ∧ diff repaired = (diff []).filter (!·.autoRepairable) ∧
      repair repaired (diff repaired) = repaired :=
  ⟨by decide +kernel, repair_converges (by decide +kernel) (by decide +kernel)⟩

/-- With a negative tolerance the receipt of an entry does not agree with it. -/
theorem repair_flagged :
    let diff := (diffChainState asciiHost (lastHundredSeconds (-1) []) · [written])
    diff (repair [] (diff [])) ≠ (diff []).filter (!·.autoRepairable) := by
  decide +kernel

/-! ## Unexpected writers -/

theorem writerKnown_eq_false (hwriters : opts.authorizedWriters ≠ [])
    (hwriter : ∀ writer, entry.submitter = some writer → writer ∉ opts.authorizedWriters) :
    writerKnown opts entry = false := by
  cases hsubmitter : entry.submitter with
  | none => simp [writerKnown, hwriters, hsubmitter]
  | some writer => simp [writerKnown, hwriters, hsubmitter, hwriter writer hsubmitter]

/-- The index holds an entry exactly if it is the last one of the window with its key. -/
theorem mem_chainByKey_iff : (entry.key host, entry) ∈ (chainByKey host opts onChain).entries ↔
    (onChain.reverse.find? fun e =>
      inWindow opts e.ledgerClosedAt ∧ e.key host = entry.key host) = some entry := by
  rw [mem_entries_iff, chainByKey, get?_indexBy, ← filter_reverse, find?_filter]
  simp

/-- An entry by a writer that is not authorised is found exactly if no receipt has its key and it is
the last entry of the window with that key. -/
theorem unexpected_writer_found (hwriters : opts.authorizedWriters ≠ [])
    (hwriter : ∀ writer, entry.submitter = some writer → writer ∉ opts.authorizedWriters) :
    (∃ finding ∈ diffChainState host opts receipts onChain,
      finding.driftClass = .unexpectedWriter ∧ finding.onChain = some entry) ↔
      (∀ r ∈ receipts, r.key host ≠ entry.key host) ∧
        (onChain.reverse.find? fun e =>
          inWindow opts e.ledgerClosedAt ∧ e.key host = entry.key host) = some entry := by
  have hreceipts : (∀ r ∈ receipts, r.key host ≠ entry.key host) ↔
      entry.key host ∉ receipts.map (·.key host) := by
    simp
  rw [hreceipts, ← mem_chainByKey_iff, diffChainState_eq]
  constructor
  · rintro ⟨finding, hfinding, hclass, hentry⟩
    obtain hlocal | hchain := mem_append.1 hfinding
    · exact absurd hclass (localFindings_manual hlocal).2
    obtain ⟨⟨key, other⟩, hmem, hfound⟩ := mem_filterMap.1 hchain
    obtain ⟨hnew, ⟨⟩⟩ := Option.ite_none_left_eq_some.1 hfound
    rw [chainFinding_onChain] at hentry
    cases hentry
    obtain ⟨rfl, -⟩ := mem_chainByKey hmem
    exact ⟨hnew, hmem⟩
  · rintro ⟨hnew, hmem⟩
    refine ⟨chainFinding opts entry, ?_, ?_, chainFinding_onChain opts entry⟩
    · exact mem_append_right _ (mem_filterMap.2 ⟨_, hmem, if_neg hnew⟩)
    · rw [chainFinding, if_pos (writerKnown_eq_false hwriters hwriter)]

/-- Of two entries with one key the later one is found. -/
theorem unexpected_writer_found_last :
    ∃ finding ∈ diffChainState asciiHost (lastHundredSeconds 0 ["GA"]) []
        [⟨"FlightDelay", .reading, "80", 40, "AB", none⟩, written],
      finding.driftClass = .unexpectedWriter ∧ finding.onChain = some written := by
  refine (unexpected_writer_found (by decide) ?_).2 (by decide +kernel)
  rintro writer hwriter
  cases hwriter
  decide

/-- A receipt with the key of the entry hides who has written it. -/
theorem unexpected_writer_hidden :
    inWindow (lastHundredSeconds 0 ["GA"]) written.ledgerClosedAt ∧
      diffChainState asciiHost (lastHundredSeconds 0 ["GA"]) [receiptFromChain written] [written] =
        [] := by
  decide +kernel

/-! ## The reconciler

Its runs overlap with each other and the publisher: a lease can expire while its run goes on. -/

/-- The chain, the publish ledger, the options of the runs so far and the receipts they insert. -/
structure ReconcilerState where
  chain : List OnChainOracleEntry
  receipts : List LocalPublishRecord
  started : List ChainDiffOptions
  pending : List LocalPublishRecord

inductive ReconcilerLabel where
  | write (entry : OnChainOracleEntry)
  | publish (record : LocalPublishRecord)
  | runOnce (opts : ChainDiffOptions) (entries : List OnChainOracleEntry)
    (published : List LocalPublishRecord)
  | backfill (record : LocalPublishRecord)

variable (host)

def recordReceipt (receipts : List LocalPublishRecord) (record : LocalPublishRecord) :
    List LocalPublishRecord :=
  if ∃ r ∈ receipts, r.key host = record.key host then receipts else receipts ++ [record]

/-- The chain and the ledger only grow, so what a run has read of them is a part of what they are
at its diff. Inserts of runs interleave, and any may fail. -/
def reconcilerStep (s : ReconcilerState) : ReconcilerLabel → Option ReconcilerState
  | .write entry => some { s with chain := s.chain ++ [entry] }
  | .publish record =>
    some { s with
      receipts := recordReceipt host s.receipts { record with source := .publisher } }
  | .runOnce opts entries published =>
    if entries ⊆ s.chain ∧ published ⊆ s.receipts then
      some { s with
        started := s.started ++ [opts]
        pending := s.pending ++ repair [] (diffChainState host opts published entries) }
    else none
  | .backfill record =>
    if record ∈ s.pending then
      some { s with receipts := recordReceipt host s.receipts record }
    else none

/-- The receipt of a reading on the chain, which a run had in its window, by a writer it knows. -/
def Backfillable (s : ReconcilerState) (record : LocalPublishRecord) : Prop :=
  ∃ opts ∈ s.started, ∃ e ∈ s.chain, receiptFromChain e = record ∧ e.kind = .reading ∧
    writerKnown opts e = true ∧ inWindow opts e.ledgerClosedAt

structure ReconcilerSound (s : ReconcilerState) : Prop where
  unique : UniqueKey (·.key host) s.receipts
  backed : ∀ r ∈ s.receipts, r.source = .reconciliationBackfill → Backfillable s r
  pending : ∀ r ∈ s.pending, Backfillable s r

variable {host} {s s' : ReconcilerState} {record : LocalPublishRecord}

theorem backfillable_of_repair (hopts : opts ∈ s.started) (hread : onChain ⊆ s.chain)
    (h : record ∈ repair [] (diffChainState host opts receipts onChain)) :
    Backfillable s record := by
  obtain ⟨added, heq, hadded⟩ := @repair_adds host opts receipts onChain
  obtain ⟨e, hmem, -, hauto, rfl⟩ := (hadded record).1 (append_cancel_left heq ▸ h)
  obtain ⟨-, he, hwindow⟩ := mem_chainByKey hmem
  unfold chainFinding at hauto
  split at hauto
  · cases hauto
  · rename_i hwriter
    exact ⟨opts, hopts, e, hread he, rfl, of_decide_eq_true hauto, eq_true_of_ne_false hwriter,
      hwindow⟩

namespace ReconcilerSound

variable (h : ReconcilerSound host s)

include h

theorem recordReceipt (hbacked : record.source = .reconciliationBackfill → Backfillable s record) :
    ReconcilerSound host { s with receipts := recordReceipt host s.receipts record } ∧
      s.receipts <+: recordReceipt host s.receipts record := by
  unfold ChainDiff.recordReceipt
  split
  · exact ⟨h, prefix_rfl⟩
  · rename_i hnew
    refine ⟨⟨?_, forall_mem_snoc.2 ⟨h.backed, hbacked⟩, h.pending⟩, prefix_append _ _⟩
    exact h.unique.insert fun r hr hkey => hnew ⟨r, hr, hkey⟩

theorem grow {chain : List OnChainOracleEntry} {started : List ChainDiffOptions}
    (hchain : s.chain ⊆ chain) (hstarted : s.started ⊆ started) :
    ReconcilerSound host { s with chain, started } := by
  have hgrow : ∀ r, Backfillable s r → Backfillable { s with chain, started } r := by
    rintro r ⟨opts, hopts, e, he, hentry⟩
    exact ⟨opts, hstarted hopts, e, hchain he, hentry⟩
  exact ⟨h.unique, fun r hr hsource => hgrow r (h.backed r hr hsource),
    fun r hr => hgrow r (h.pending r hr)⟩

theorem step {label : ReconcilerLabel} (hstep : reconcilerStep host s label = some s') :
    ReconcilerSound host s' ∧ s.receipts <+: s'.receipts := by
  cases label with
  | write entry =>
    cases hstep
    exact ⟨h.grow (subset_append_left _ _) fun _ => id, prefix_rfl⟩
  | publish record =>
    cases hstep
    refine h.recordReceipt ?_
    rintro ⟨⟩
  | runOnce opts entries published =>
    obtain ⟨⟨hread, -⟩, ⟨⟩⟩ := Option.ite_none_right_eq_some.1 hstep
    have hgrow := h.grow (fun _ => id) (subset_append_left s.started [opts])
    refine ⟨{ hgrow with pending := forall_mem_append.2 ⟨hgrow.pending, ?_⟩ }, prefix_rfl⟩
    exact fun r => backfillable_of_repair mem_concat_self hread
  | backfill record =>
    obtain ⟨hmem, ⟨⟩⟩ := Option.ite_none_right_eq_some.1 hstep
    exact h.recordReceipt fun _ => h.pending record hmem

end ReconcilerSound

/-- In every run receipts are unique and backfilled ones right; no step changes or removes one. -/
theorem backfill_sound (hrun : RunWhere (fun a l b => reconcilerStep host a l = some b)
      (fun _ _ => True) ⟨[], [], [], []⟩ s) :
    ReconcilerSound host s ∧
      ∀ label s', reconcilerStep host s label = some s' → s.receipts <+: s'.receipts := by
  have hsound : ReconcilerSound host s := by
    refine hrun.invariant (ReconcilerSound host) ?_ fun _ _ _ h _ hl => (h.step hl).1
    constructor <;> simp [UniqueKey]
  exact ⟨hsound, fun _ _ hstep => (hsound.step hstep).2⟩

/-- A receipt is backfilled before the publisher records it. -/
theorem backfill_sound_overtaken :
    ∃ s, RunWhere (fun a l b => reconcilerStep asciiHost a l = some b) (fun _ _ => True)
        ⟨[], [], [], []⟩ s ∧
      s.receipts = [receiptFromChain written] ∧ ReconcilerSound asciiHost s :=
  ⟨_, .performed [.write written, .runOnce (lastHundredSeconds 0 []) [written] [],
      .backfill (receiptFromChain written), .publish (receiptFromChain written)]
    (by decide +kernel), by decide +kernel, (backfill_sound (.performed _ _)).1⟩

end Refract.Oracle.ChainDiff
