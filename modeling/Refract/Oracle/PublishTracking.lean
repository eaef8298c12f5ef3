import Refract.Oracle.ChainOrder
import Refract.Oracle.PublishStages

/-!
# Tracking the batches in flight

The rows of the queue agree with the chain (`QueueSound`), and the stages of a batch in flight agree
with both (`Tracks`). A batch is not affected by what happens to other feeds (`Frame`,
`Tracks.frame`). What a batch is answered, and what it writes, changes its stages as the rules say.
-/

namespace Refract.Oracle

open Lib List QueueStatement

/-! ## The queue and the chain -/

/-- What is kept outside the running process: the queue, the chain, and the trace. -/
structure World where
  rows : List QueueRow
  txs : List SentTx
  dead : List String
  trace : List PublishEvent

abbrev PublisherState.world (s : PublisherState) : World := ⟨s.queue.rows, s.txs, s.dead, s.trace⟩

/-- What the rows of the queue say about the chain. -/
structure QueueSound (w : World) : Prop where
  enqueued : ∀ id feed, .enqueued id feed ∈ w.trace ↔ ∃ r ∈ w.rows, r.id = id ∧ r.feed = feed
  recorded : ∀ r ∈ w.rows, ∀ h, r.txHash = some h → Sends w.txs h r.id
  pending : ∀ r ∈ w.rows, r.status = .pending → ∀ h, CanLand w.txs w.dead h r.id →
    r.txHash = some h
  published : ∀ r ∈ w.rows, r.status = .published → ∃ h, r.txHash = some h ∧ OnChain w.txs h
  failed : ∀ id, .failed id ∈ w.trace ↔ ∃ r ∈ w.rows, r.id = id ∧ r.status = .failed

/-- A row of the batch with a property. -/
def InRow (w : World) (feeds : List String) (id : Nat) (P : QueueRow → Prop) : Prop :=
  ∃ r ∈ w.rows, r.id = id ∧ r.feed ∈ feeds ∧ P r

/-- What a stage says about the row and the transactions of a decision. -/
def StageOk (w : World) (feeds : List String) (sent : Option String) (id : Nat) :
    Stage → Prop
  | .outside => True
  | .held alive recorded =>
    InRow w feeds id (fun r => r.status = .inflight ∧ r.txHash = recorded) ∧
    (∀ h, CanLand w.txs w.dead h id → alive.or sent = some h) ∧
    (∀ h, alive = some h → Sends w.txs h id) ∧
    (alive = none → ∀ h, recorded = some h → h ∈ w.dead)
  | .landed txHash =>
    InRow w feeds id (fun r => r.status = .inflight) ∧ Sends w.txs txHash id ∧ OnChain w.txs txHash
  | .published txHash =>
    InRow w feeds id (fun r => r.status = .published ∧ r.txHash = some txHash) ∧
    Sends w.txs txHash id ∧ OnChain w.txs txHash
  | .released => InRow w feeds id fun _ => True
  | .failed => InRow w feeds id (fun _ => True) ∧ .failed id ∈ w.trace

/-- The stages of a batch in flight agree with the queue and the chain. -/
structure Tracks (w : World) (t : Task) (g : Nat → Stage) : Prop where
  stages : ∀ id, StageOk w t.feeds t.sent id (g id)
  -- The rows of its feeds that are in flight are its own.
  cover : ∀ r ∈ w.rows, r.status = .inflight → r.feed ∈ t.feeds → ¬(g r.id).Over
  -- With a decision, it has all earlier ones that are not resolved.
  closed : ∀ id, g id ≠ .outside → ∀ feed e, .enqueued id feed ∈ w.trace →
    .enqueued e feed ∈ w.trace → e < id → g e ≠ .outside ∨ Resolved w.trace e
  sent : ∀ k, t.sent = some k → ∃ batch next, t.program = .ask (.submit batch) next ∧
    ∃ tx ∈ w.txs, tx.hash = k ∧ tx.ids = idsOf batch

section Stages

variable {w w' : World} {feeds : List String} {sent : Option String} {id : Nat} {x : Stage}
  {t t' : Task} {g g' : Nat → Stage} {P : QueueRow → Prop}

theorem InRow.mono {P' : QueueRow → Prop} (h : InRow w feeds id P) (hsub : ∀ r, P r → P' r) :
    InRow w feeds id P' := by
  obtain ⟨r, hr, hid, hfeed, hP⟩ := h
  exact ⟨r, hr, hid, hfeed, hsub r hP⟩

variable {r : QueueRow}

/-- The property holds of every row with the id. -/
theorem InRow.elim (h : InRow w feeds id P) (hkey : UniqueKey (·.id) w.rows) (hr : r ∈ w.rows)
    (hid : r.id = id) : r.feed ∈ feeds ∧ P r := by
  obtain ⟨r', hr', hid', hfeed, hP⟩ := h
  rw [hkey.eq hr hr' (hid.trans hid'.symm)]
  exact ⟨hfeed, hP⟩

theorem StageOk.inRow (h : StageOk w feeds sent id x) (hx : x ≠ .outside) :
    InRow w feeds id fun _ => True := by
  cases x with
  | outside => exact absurd rfl hx
  | held | landed | published => exact h.1.mono fun _ _ => trivial
  | released => exact h
  | failed => exact h.1

/-- A settled decision of the batch is resolved. -/
theorem StageOk.resolved (h : StageOk w feeds sent id x) (hchain : ChainSound w.txs w.dead w.trace)
    (hx : x ≠ .outside) (hsettled : x.Settled) :
    Resolved w.trace id := by
  cases x with
  | outside => exact absurd rfl hx
  | held | landed | released => exact hsettled.elim
  | published txHash => exact .inl ((hchain.landed id).2 ⟨txHash, h.2⟩)
  | failed => exact .inr h.2

/-- The submission was answered, and its transaction cannot land with the decision. -/
theorem StageOk.unsent (h : StageOk w feeds sent id x)
    (hnot : ∀ k, sent = some k → ¬CanLand w.txs w.dead k id) : StageOk w feeds none id x := by
  cases x with
  | outside | landed | published | released | failed => exact h
  | held alive =>
    obtain ⟨hrow, hsole, hrest⟩ := h
    refine ⟨hrow, ?_, hrest⟩
    intro hash hcan
    have hor := hsole hash hcan
    cases alive with
    | some => exact hor
    | none => exact absurd hcan (hnot hash hor)

/-- New stages of the decisions, when nothing is awaited from the chain. -/
theorem Tracks.restage (h : Tracks w t g) (hfeeds : t'.feeds = t.feeds) (hsent : t'.sent = none)
    (hstages : ∀ id, StageOk w t.feeds none id (g' id))
    (hmov : ∀ id, g' id = g id ∨ g id ≠ .outside ∧ ¬(g' id).Over) : Tracks w t' g' where
  stages id := by
    rw [hfeeds, hsent]
    exact hstages id
  cover r hr hstat hfeed hr' := by
    rw [hfeeds] at hfeed
    rcases hmov r.id with hsame | ⟨-, hover⟩
    · exact h.cover r hr hstat hfeed (hsame ▸ hr')
    · exact hover hr'
  closed id hid feed e hfeed he hlt := by
    have hid : g id ≠ .outside := (hmov id).elim (· ▸ hid) And.left
    refine (h.closed id hid feed e hfeed he hlt).imp_left fun hne => ?_
    rcases hmov e with hsame | ⟨-, hover⟩
    · rwa [hsame]
    · exact fun hout => hover (hout ▸ trivial)
  sent k hk := by
    rw [hsent] at hk
    cases hk

theorem Tracks.unsent (h : Tracks w t g) (hsent : t.sent = none) (id : Nat) :
    StageOk w t.feeds none id (g id) := by
  rw [← hsent]
  exact h.stages id

/-- Only a submission has a transaction. -/
theorem Tracks.sent_eq_none (h : Tracks w t g)
    (hne : ∀ batch next, t.program ≠ .ask (.submit batch) next) : t.sent = none := by
  cases hk : t.sent with
  | none => rfl
  | some k =>
    obtain ⟨batch, next, heq, -⟩ := h.sent k hk
    exact absurd heq (hne batch next)

/-! ## Other feeds -/

/-- What does not affect a batch with these feeds. -/
structure Frame (feeds : List String) (w w' : World) : Prop where
  rows : ∀ r ∈ w.rows, r.feed ∈ feeds → r ∈ w'.rows
  inflight : ∀ r ∈ w'.rows, r.status = .inflight → r.feed ∈ feeds → r ∈ w.rows
  txs : ∀ tx ∈ w.txs, ∃ tx' ∈ w'.txs, tx'.hash = tx.hash ∧ tx'.ids = tx.ids ∧
    (tx.landed = true → tx'.landed = true)
  canLand : ∀ r ∈ w.rows, r.feed ∈ feeds → ∀ h, CanLand w'.txs w'.dead h r.id →
    CanLand w.txs w.dead h r.id
  dead : ∀ h ∈ w.dead, h ∈ w'.dead
  trace : ∀ event ∈ w.trace, event ∈ w'.trace
  enqueued : ∀ id feed, .enqueued id feed ∈ w'.trace →
    .enqueued id feed ∈ w.trace ∨ ∀ r ∈ w.rows, r.id < id

variable {hash : String}

theorem Frame.sends (h : Frame feeds w w') (hs : Sends w.txs hash id) : Sends w'.txs hash id := by
  obtain ⟨tx, htx, hhash, hid⟩ := hs
  obtain ⟨tx', htx', hhash', hids, -⟩ := h.txs tx htx
  exact ⟨tx', htx', hhash'.trans hhash, by rw [hids]; exact hid⟩

theorem Frame.onChain (h : Frame feeds w w') (hs : OnChain w.txs hash) : OnChain w'.txs hash := by
  obtain ⟨tx, htx, hhash, hland⟩ := hs
  obtain ⟨tx', htx', hhash', -, hland'⟩ := h.txs tx htx
  exact ⟨tx', htx', hhash'.trans hhash, hland' hland⟩

theorem Frame.inRow (h : Frame feeds w w') (hrow : InRow w feeds id P) : InRow w' feeds id P := by
  obtain ⟨r, hr, hid, hfeed, hP⟩ := hrow
  exact ⟨r, h.rows r hr hfeed, hid, hfeed, hP⟩

theorem StageOk.frame (h : StageOk w feeds sent id x) (hframe : Frame feeds w w') :
    StageOk w' feeds sent id x := by
  cases x with
  | outside => trivial
  | held =>
    obtain ⟨hrow, hsole, hsends, hdead⟩ := h
    refine ⟨hframe.inRow hrow, ?_, fun hash heq => hframe.sends (hsends hash heq),
      fun hnone hash heq => hframe.dead _ (hdead hnone hash heq)⟩
    intro hash hcan
    obtain ⟨r, hr, rfl, hfeed, -⟩ := hrow
    exact hsole hash (hframe.canLand r hr hfeed hash hcan)
  | landed | published => exact ⟨hframe.inRow h.1, hframe.sends h.2.1, hframe.onChain h.2.2⟩
  | released => exact hframe.inRow h
  | failed => exact ⟨hframe.inRow h.1, hframe.trace _ h.2⟩

theorem Tracks.frame (h : Tracks w t g) (hframe : Frame t.feeds w w') : Tracks w' t g where
  stages id := (h.stages id).frame hframe
  cover r hr hstat hfeed := h.cover r (hframe.inflight r hr hstat hfeed) hstat hfeed
  closed id hid feed e hfeed he hlt := by
    -- A new decision is later than all that the batch has.
    obtain ⟨r, hr, hrid, -, -⟩ := (h.stages id).inRow hid
    have hold : ∀ d, d ≤ id → .enqueued d feed ∈ w'.trace → .enqueued d feed ∈ w.trace := by
      intro d hd hin
      refine (hframe.enqueued d feed hin).resolve_right fun hnew => ?_
      have := hnew r hr
      omega
    refine (h.closed id hid feed e (hold id le_rfl hfeed) (hold e hlt.le he) hlt).imp_right ?_
    exact fun hres => hres.imp (hframe.trace _) (hframe.trace _)
  sent k hk := by
    obtain ⟨batch, next, hprogram, tx, htx, hhash, hids⟩ := h.sent k hk
    obtain ⟨tx', htx', hhash', hids', -⟩ := hframe.txs tx htx
    exact ⟨batch, next, hprogram, tx', htx', hhash'.trans hhash, hids'.trans hids⟩

/-! ## Answers -/

/-- What the answer to a submission says about its transaction, once it is known not to land. -/
def SubmitTold (w : World) (txHash : String) : Except SubmitError BatchSubmitResult → Prop
  | .ok result => result.txHash = txHash ∧ OnChain w.txs txHash
  | .error (.ambiguous _ hash) => hash = txHash
  | .error (.batchTooLarge _) | .error (.other _) => txHash ∈ w.dead

/-- What the answer to a lookup says. -/
def LookupTold (w : World) (txHash : String) : Except String TxLookup → Prop
  | .ok (.success _) => OnChain w.txs txHash
  | .ok .failed | .ok .notFound => txHash ∈ w.dead
  | .ok .pending | .error _ => True

variable {options : PublisherOptions} {batch : List PendingDecision} {txHash : String}
  {next : Except SubmitError BatchSubmitResult → PublisherProgram}

theorem Tracks.sends_iff (h : Tracks w ⟨feeds, .ask (.submit batch) next, some txHash⟩ g)
    (hchain : ChainSound w.txs w.dead w.trace) : Sends w.txs txHash id ↔ id ∈ idsOf batch := by
  obtain ⟨batch', next', hprogram, tx, htx, rfl, hids⟩ := h.sent txHash rfl
  cases hprogram
  rw [hchain.sends_iff htx, hids]

variable {recorded : Option String} {answer : Except SubmitError BatchSubmitResult}

/-- What a submitted decision is after the answer. -/
theorem StageOk.submitted (h : StageOk w feeds (some txHash) id (.held none recorded))
    (hsends : Sends w.txs txHash id) (htold : SubmitTold w txHash answer) :
    StageOk w feeds none id ((staging options).submitted answer (.held none recorded)) := by
  have href : txHash ∈ w.dead → StageOk w feeds none id (.held none recorded) := by
    intro hdead
    refine h.unsent ?_
    rintro _ ⟨rfl⟩ hcan
    exact hcan.2 hdead
  obtain ⟨hrow, hsole, -, -⟩ := h
  match answer with
  | .error (.batchTooLarge _) => exact href htold
  | .error (.other _) => exact href htold
  | .ok result =>
    obtain ⟨hhash, hon⟩ := htold
    refine ⟨hrow.mono fun _ hr => hr.1, ?_, ?_⟩
    · rw [hhash]
      exact hsends
    · rw [hhash]
      exact hon
  | .error (.ambiguous message hash) =>
    have hhash : hash = txHash := htold
    subst hhash
    refine ⟨hrow, hsole, ?_, nofun⟩
    rintro _ ⟨rfl⟩
    exact hsends

theorem submitted_held_ne_over (answer : Except SubmitError BatchSubmitResult) :
    ¬((staging options).submitted answer (.held none recorded)).Over :=
  match answer with
  | .ok _ => False.elim
  | .error (.ambiguous _ _) => False.elim
  | .error (.batchTooLarge _) => False.elim
  | .error (.other _) => False.elim

variable {program : PublisherProgram}

/-- The stages after the answer to a submission. -/
theorem Tracks.submitted (h : Tracks w ⟨feeds, .ask (.submit batch) next, some txHash⟩ g)
    (hchain : ChainSound w.txs w.dead w.trace) (hmay : MaySubmit g batch)
    (htold : SubmitTold w txHash answer) :
    Tracks w ⟨feeds, program, none⟩
      (putStages g (idsOf batch) ((staging options).submitted answer)) := by
  have hcases : ∀ id, id ∉ idsOf batch ∧
        putStages g (idsOf batch) ((staging options).submitted answer) id = g id ∨
      id ∈ idsOf batch ∧ ∃ recorded, g id = .held none recorded ∧
        putStages g (idsOf batch) ((staging options).submitted answer) id =
          (staging options).submitted answer (.held none recorded) := by
    intro id
    by_cases hin : id ∈ idsOf batch
    · obtain ⟨d, hd, rfl⟩ := mem_idsOf.1 hin
      obtain ⟨recorded, hheld⟩ := hmay.clean d hd
      exact .inr ⟨hin, recorded, hheld, by rw [putStages_of_mem hin, hheld]⟩
    · exact .inl ⟨hin, putStages_of_notMem hin⟩
  refine h.restage rfl rfl ?_ ?_
  · intro id
    have hstage := h.stages id
    rcases hcases id with ⟨hin, hsame⟩ | ⟨hin, recorded, hheld, htold'⟩
    · rw [hsame]
      refine hstage.unsent ?_
      rintro _ ⟨rfl⟩ hcan
      exact hin ((h.sends_iff hchain).1 hcan.1)
    · rw [hheld] at hstage
      rw [htold']
      exact hstage.submitted ((h.sends_iff hchain).2 hin) htold
  · intro id
    rcases hcases id with ⟨-, hsame⟩ | ⟨-, recorded, hheld, htold'⟩
    · exact .inl hsame
    · rw [htold', hheld]
      exact .inr ⟨nofun, submitted_held_ne_over answer⟩

/-- The stages after the answer to a lookup. -/
theorem Tracks.lookedUp (h : Tracks w t g) (hsent : t.sent = none) {answer : Except String TxLookup}
    (htold : LookupTold w txHash answer) :
    Tracks w ⟨t.feeds, program, none⟩ fun id => (staging options).found txHash answer (g id) := by
  have hstages := h.unsent hsent
  -- Only what waits for the transaction changes.
  have hcases : ∀ id, (staging options).found txHash answer (g id) = g id ∨
      g id = .held (some txHash) (some txHash) ∧
        (OnChain w.txs txHash ∧ (staging options).found txHash answer (g id) = .landed txHash ∨
         txHash ∈ w.dead ∧
          (staging options).found txHash answer (g id) = .held none (some txHash)) := by
    intro id
    by_cases heq : g id = .held (some txHash) (some txHash)
    · match answer with
      | .ok (.success _) => exact .inr ⟨heq, .inl ⟨htold, if_pos heq⟩⟩
      | .ok .failed => exact .inr ⟨heq, .inr ⟨htold, if_pos heq⟩⟩
      | .ok .notFound => exact .inr ⟨heq, .inr ⟨htold, if_pos heq⟩⟩
      | .ok .pending => exact .inl rfl
      | .error _ => exact .inl rfl
    · exact .inl (found_eq_self heq)
  refine h.restage rfl rfl ?_ ?_
  · intro id
    rcases hcases id with hsame | ⟨heq, ⟨hon, hfound⟩ | ⟨hdead, hfound⟩⟩
    · rw [hsame]
      exact hstages id
    · have hstage := hstages id
      rw [heq] at hstage
      rw [hfound]
      exact ⟨hstage.1.mono fun _ hr => hr.1, hstage.2.2.1 txHash rfl, hon⟩
    · have hstage := hstages id
      rw [heq] at hstage
      rw [hfound]
      refine ⟨hstage.1, ?_, nofun, ?_⟩
      · intro hash hcan
        cases hstage.2.1 hash hcan
        exact absurd hdead hcan.2
      · rintro - _ ⟨rfl⟩
        exact hdead
  · intro id
    rcases hcases id with hsame | ⟨heq, ⟨-, hfound⟩ | ⟨-, hfound⟩⟩
    · exact .inl hsame
    all_goals
      rw [hfound, heq]
      exact .inr ⟨nofun, False.elim⟩

/-- The world with a transaction that was sent. -/
def World.send (w : World) (txHash : String) (ids : List Nat) : World :=
  { w with txs := w.txs ++ [⟨txHash, ids, false⟩] }

theorem StageOk.send {ids : List Nat} (h : StageOk w feeds none id x)
    (hclean : id ∈ ids → ∃ recorded, x = .held none recorded) :
    StageOk (w.send txHash ids) feeds (some txHash) id x := by
  have hsends : ∀ {hash}, Sends w.txs hash id → Sends (w.send txHash ids).txs hash id := by
    rintro hash ⟨tx, htx, hs⟩
    exact ⟨tx, mem_append_left _ htx, hs⟩
  have honChain : ∀ {hash}, OnChain w.txs hash → OnChain (w.send txHash ids).txs hash := by
    rintro hash ⟨tx, htx, hs⟩
    exact ⟨tx, mem_append_left _ htx, hs⟩
  cases x with
  | outside => trivial
  | landed | published => exact ⟨h.1, hsends h.2.1, honChain h.2.2⟩
  | released | failed => exact h
  | held alive =>
    obtain ⟨hrow, hsole, hsuspect, hdead⟩ := h
    refine ⟨hrow, ?_, fun hash heq => hsends (hsuspect hash heq), hdead⟩
    rintro hash ⟨⟨tx, htx, hhash, hmem⟩, halive⟩
    rcases mem_snoc.1 htx with htx | rfl
    · have hor := hsole hash ⟨⟨tx, htx, hhash, hmem⟩, halive⟩
      cases alive with
      | none => cases hor
      | some => exact hor
    · -- The new transaction sends only decisions that nothing else can land with.
      obtain ⟨recorded', hheld⟩ := hclean hmem
      cases hheld
      exact congrArg some hhash

/-- A transaction is sent with a batch. -/
theorem Tracks.send (h : Tracks w ⟨feeds, .ask (.submit batch) next, none⟩ g)
    (hmay : MaySubmit g batch) :
    Tracks (w.send txHash (idsOf batch)) ⟨feeds, .ask (.submit batch) next, some txHash⟩ g := by
  refine ⟨?_, h.cover, h.closed, ?_⟩
  · intro id
    refine (h.stages id).send fun hin => ?_
    obtain ⟨d, hd, rfl⟩ := mem_idsOf.1 hin
    exact hmay.clean d hd
  · rintro k ⟨rfl⟩
    exact ⟨batch, next, rfl, _, mem_append_right _ mem_cons_self, rfl, rfl⟩

/-! ## Statements -/

/-- The world after a statement of a batch. -/
def World.execute (w : World) (statement : QueueStatement) (now : ℚ) : World :=
  { w with
    rows := updateWhere (fun r => statement.ids.contains r.id) (statement.update now) w.rows
    trace := w.trace ++ statement.events }

variable {statement : QueueStatement} {now : ℚ}

theorem mem_rows_execute {r' : QueueRow} :
    r' ∈ (w.execute statement now).rows ↔
      ∃ r ∈ w.rows, (r.id ∈ statement.ids ∧ r' = statement.update now r) ∨
        (r.id ∉ statement.ids ∧ r' = r) := by
  simp only [World.execute, mem_updateWhere, contains_eq_mem, decide_eq_true_eq,
    decide_eq_false_iff_not]

/-- A statement adds only dead letters to the trace. -/
theorem mem_trace_execute {event : PublishEvent} (h : event ∈ (w.execute statement now).trace) :
    event ∈ w.trace ∨
      ∃ id ids error, statement = .markFailed ids error ∧ id ∈ ids ∧ event = .failed id := by
  rcases mem_append.1 h with hold | hnew
  · exact .inl hold
  cases statement with
  | markPublished | release => cases hnew
  | markFailed ids error =>
    obtain ⟨id, hid, rfl⟩ := mem_map.1 hnew
    exact .inr ⟨id, ids, error, rfl, hid, rfl⟩

theorem enqueued_execute {feed : String} :
    .enqueued id feed ∈ (w.execute statement now).trace ↔ .enqueued id feed ∈ w.trace := by
  constructor
  · intro h
    exact (mem_trace_execute h).resolve_right fun ⟨_, _, _, _, _, heq⟩ => nomatch heq
  · exact mem_append_left _

theorem mayWrite_ne_outside (h : (staging options).mayWrite statement x) : x ≠ .outside := by
  rintro rfl
  cases statement with
  | markPublished => cases h
  | release => exact h
  | markFailed => exact nomatch h.choose_spec

/-- A decision that the statement does not name. -/
theorem StageOk.execute (h : StageOk w feeds sent id x) (hid : id ∉ statement.ids) :
    StageOk (w.execute statement now) feeds sent id x := by
  have hrow : ∀ {P}, InRow w feeds id P → InRow (w.execute statement now) feeds id P := by
    rintro P ⟨r, hr, rfl, hfeed, hP⟩
    exact ⟨r, mem_rows_execute.2 ⟨r, hr, .inr ⟨hid, rfl⟩⟩, rfl, hfeed, hP⟩
  cases x with
  | outside => trivial
  | held | landed | published => exact ⟨hrow h.1, h.2⟩
  | released => exact hrow h
  | failed => exact ⟨hrow h.1, mem_append_left _ h.2⟩

/-- A decision that the statement is about. -/
theorem StageOk.written (h : StageOk w feeds sent id x) (hid : id ∈ statement.ids)
    (hmay : (staging options).mayWrite statement x) :
    StageOk (w.execute statement now) feeds none id ((staging options).write statement x) := by
  obtain ⟨r, hr, rfl, hfeed, -⟩ := h.inRow (mayWrite_ne_outside hmay)
  have hnew : statement.update now r ∈ (w.execute statement now).rows :=
    mem_rows_execute.2 ⟨r, hr, .inl ⟨hid, rfl⟩⟩
  cases statement with
  | release => exact ⟨_, hnew, rfl, hfeed, trivial⟩
  | markFailed =>
    exact ⟨⟨_, hnew, rfl, hfeed, trivial⟩, mem_append_right _ (mem_map_of_mem hid)⟩
  | markPublished _ txHash =>
    have hx : x = .landed txHash := hmay
    rw [hx] at h
    exact ⟨⟨_, hnew, rfl, hfeed, rfl, rfl⟩, h.2⟩

theorem write_ne_outside : (staging options).write statement x ≠ .outside := by
  cases statement with
  | markPublished | release | markFailed => nofun

/-- A released row records what can land with its decision. -/
theorem StageOk.release (hqueue : QueueSound w) (hchain : ChainSound w.txs w.dead w.trace)
    (hkey : UniqueKey (·.id) w.rows) (hr : r ∈ w.rows) (h : StageOk w feeds none r.id x)
    {recording : Option String} (hx : x.Releasable recording) :
    r.status ≠ .failed ∧ ∀ hash, (recording.or r.txHash = some hash → Sends w.txs hash r.id) ∧
        (CanLand w.txs w.dead hash r.id → recording.or r.txHash = some hash) := by
  cases x with
  | outside | landed | released | failed => exact hx.elim
  | published =>
    obtain ⟨hrow, hsends, hon⟩ := h
    obtain ⟨-, hstat, htx⟩ := hrow.elim hkey hr rfl
    have hnone : recording = none := hx
    rw [hnone, Option.none_or, htx, hstat]
    refine ⟨nofun, fun hash => ⟨?_, ?_⟩⟩
    · rintro ⟨rfl⟩
      exact hsends
    · exact fun hcan => congrArg some (hchain.apart _ _ _ ⟨hsends, hchain.alive _ hon⟩ hcan)
  | held _ recorded =>
    obtain ⟨hrow, hsole, hsuspect, -⟩ := h
    obtain ⟨-, hstat, htx⟩ := hrow.elim hkey hr rfl
    rw [hstat]
    refine ⟨nofun, fun hash => ?_⟩
    have hsole := hsole hash
    rw [Option.or_none] at hsole
    rcases hx with halive | ⟨halive, hnone⟩
    · rw [htx, ← halive]
      exact ⟨hsuspect hash, hsole⟩
    · rw [hnone, Option.none_or]
      exact ⟨hqueue.recorded r hr hash, fun hcan => by rw [halive] at hsole; cases hsole hcan⟩

variable (h : Tracks w t g) (hsent : t.sent = none)
  (hmay : ∀ id ∈ statement.ids, (staging options).mayWrite statement (g id))

include h hsent hmay

/-- The stages after a statement. -/
theorem Tracks.execute :
    Tracks (w.execute statement now) ⟨t.feeds, program, none⟩
      (putStages g statement.ids ((staging options).write statement)) := by
  have hout : ∀ id, putStages g statement.ids ((staging options).write statement) id ≠ .outside ↔
      g id ≠ .outside := by
    intro id
    by_cases hin : id ∈ statement.ids
    · rw [putStages_of_mem hin]
      exact iff_of_true write_ne_outside (mayWrite_ne_outside (hmay id hin))
    · rw [putStages_of_notMem hin]
  refine ⟨?_, ?_, ?_, nofun⟩
  · intro id
    have hstage := h.unsent hsent id
    by_cases hin : id ∈ statement.ids
    · rw [putStages_of_mem hin]
      exact hstage.written hin (hmay id hin)
    · rw [putStages_of_notMem hin]
      exact hstage.execute hin
  · intro r' hr' hstat hfeed
    obtain ⟨r, hr, ⟨-, rfl⟩ | ⟨hnot, rfl⟩⟩ := mem_rows_execute.1 hr'
    · cases statement with
      | markPublished | release | markFailed => cases hstat
    · rw [putStages_of_notMem hnot]
      exact h.cover _ hr hstat hfeed
  · intro id hid feed e hfeed he hlt
    rw [enqueued_execute] at hfeed he
    exact (h.closed id ((hout id).1 hid) feed e hfeed he hlt).imp (hout e).2 Resolved.append

/-- What a batch writes agrees with the chain. -/
theorem QueueSound.execute (hqueue : QueueSound w) (hchain : ChainSound w.txs w.dead w.trace)
    (hkey : UniqueKey (·.id) w.rows) : QueueSound (w.execute statement now) := by
  have hstage := h.unsent hsent
  have hrelease := fun r (hr : r ∈ w.rows) {recording} (hx : (g r.id).Releasable recording) =>
    (hstage r.id).release hqueue hchain hkey hr hx
  have hland : ∀ {id txHash}, g id = .landed txHash →
      InRow w t.feeds id (fun r => r.status = .inflight) ∧ Sends w.txs txHash id ∧
        OnChain w.txs txHash := by
    intro id txHash hid
    have := hstage id
    rw [hid] at this
    exact this
  constructor
  · intro id feed
    rw [enqueued_execute, hqueue.enqueued]
    refine (exists_mem_updateWhere fun r _ _ => ?_).symm
    rw [update_id, update_feed]
  · intro r' hr' hash htx
    obtain ⟨r, hr, ⟨hin, rfl⟩ | ⟨-, rfl⟩⟩ := mem_rows_execute.1 hr'
    · cases statement with
      | release => exact ((hrelease r hr (hmay _ hin)).2 hash).1 htx
      | markFailed => exact hqueue.recorded r hr hash htx
      | markPublished =>
        cases htx
        exact (hland (hmay _ hin)).2.1
    · exact hqueue.recorded _ hr hash htx
  · intro r' hr' hstat hash hcan
    obtain ⟨r, hr, ⟨hin, rfl⟩ | ⟨-, rfl⟩⟩ := mem_rows_execute.1 hr'
    · cases statement with
      | release => exact ((hrelease r hr (hmay _ hin)).2 hash).2 hcan
      | markFailed | markPublished => cases hstat
    · exact hqueue.pending _ hr hstat hash hcan
  · intro r' hr' hstat
    obtain ⟨r, hr, ⟨hin, rfl⟩ | ⟨-, rfl⟩⟩ := mem_rows_execute.1 hr'
    · cases statement with
      | release | markFailed => cases hstat
      | markPublished _ txHash => exact ⟨txHash, rfl, (hland (hmay _ hin)).2.2⟩
    · exact hqueue.published _ hr hstat
  · intro id
    constructor
    · intro hid
      rcases mem_trace_execute hid with hold | ⟨_, ids, error, rfl, hin, ⟨rfl⟩⟩
      · obtain ⟨r, hr, rfl, hstat⟩ := (hqueue.failed id).1 hold
        by_cases hin : r.id ∈ statement.ids
        · refine ⟨_, mem_rows_execute.2 ⟨r, hr, .inl ⟨hin, rfl⟩⟩,
            update_id _ _ _, ?_⟩
          -- Only a dead letter is written about a row that is dead-lettered already.
          cases statement with
          | markFailed => rfl
          | release => exact absurd hstat (hrelease r hr (hmay _ hin)).1
          | markPublished =>
            have := (hland (hmay _ hin)).1.elim hkey hr rfl
            rw [hstat] at this
            cases this.2
        · exact ⟨r, mem_rows_execute.2 ⟨r, hr, .inr ⟨hin, rfl⟩⟩, rfl, hstat⟩
      · obtain ⟨r, hr, rfl, -, -⟩ := (hstage _).inRow (mayWrite_ne_outside (hmay _ hin))
        exact ⟨_, mem_rows_execute.2 ⟨r, hr, .inl ⟨hin, rfl⟩⟩, rfl, rfl⟩
    · rintro ⟨r', hr', rfl, hstat⟩
      obtain ⟨r, hr, ⟨hin, rfl⟩ | ⟨-, rfl⟩⟩ := mem_rows_execute.1 hr'
      · cases statement with
        | release | markPublished => cases hstat
        | markFailed => exact mem_append_right _ (mem_map_of_mem hin)
      · exact mem_append_left _ ((hqueue.failed _).2 ⟨r', hr, rfl, hstat⟩)

/-- Dead letters cannot land. -/
theorem ChainSound.execute (hchain : ChainSound w.txs w.dead w.trace) :
    ChainSound w.txs w.dead (w.trace ++ statement.events) := by
  cases statement with
  | markPublished | release =>
    simp only [events, append_nil]
    exact hchain
  | markFailed =>
    refine hchain.fail ?_
    intro id hid hash hcan
    obtain ⟨recorded, hheld⟩ := hmay id hid
    have hstage := h.unsent hsent id
    rw [hheld] at hstage
    cases hstage.2.1 hash hcan

end Stages

end Refract.Oracle
