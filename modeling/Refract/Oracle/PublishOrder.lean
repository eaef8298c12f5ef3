import Refract.Oracle.PublishTracking

/-!
# Decisions land in order

If the chain and its lookups tell the truth (`Truthful`), decisions of a feed land in the order of
their ids, without repetition, and none is skipped that was not dead-lettered (`PublishSound`), in
every run in which no transaction gets out of sight (`Accounted`). Three things can go wrong
otherwise (`publish_order_fails`). A process that is restarted while a submission is pending sends
the decisions again, since the hash is not recorded before the transaction is sent. A decision that
is dead-lettered after an ambiguous submission can still land, after later ones. And an ambiguous
submission with the message of a size or fee error is split and sent again.
-/

namespace Refract.Oracle

open Lib List QueueRow PublisherState

/-! ## Conditions -/

/-- The answer to a submission is true of its transaction. -/
def SubmitTruth (txs : List SentTx) (txHash : String) :
    Except SubmitError BatchSubmitResult → Prop
  | .ok result => result.txHash = txHash ∧ OnChain txs txHash
  | .error (.ambiguous _ hash) => hash = txHash
  | .error (.batchTooLarge _) | .error (.other _) => ¬OnChain txs txHash

/-- The answer to a lookup is true. -/
def LookupTruth (txs : List SentTx) (txHash : String) : Except String TxLookup → Prop
  | .ok (.success _) => OnChain txs txHash
  | .ok .failed | .ok .notFound => ¬OnChain txs txHash
  | .ok .pending | .error _ => True

instance (txs : List SentTx) (txHash : String) (answer : Except SubmitError BatchSubmitResult) :
    Decidable (SubmitTruth txs txHash answer) := by
  unfold SubmitTruth
  split <;> infer_instance

instance (txs : List SentTx) (txHash : String) (answer : Except String TxLookup) :
    Decidable (LookupTruth txs txHash answer) := by
  unfold LookupTruth
  split <;> infer_instance

/-- The hash of the transaction that a task awaits. -/
def PublisherState.sentHash (s : PublisherState) (i : Nat) : Option String :=
  (s.tasks[i]?).bind (·.sent)

/-- The hash that a task looks up. -/
def PublisherState.lookupHash (s : PublisherState) (i : Nat) : Option String :=
  match s.tasks[i]? with
  | some ⟨_, .ask (.lookup _ txHash) _, _⟩ => some txHash
  | _ => none

/-- What is answered about transactions is true. -/
def Truthful (s : PublisherState) : PublisherLabel → Prop
  | .submitted i answer => ∀ txHash ∈ s.sentHash i, SubmitTruth s.txs txHash answer
  | .lookedUp i answer => ∀ txHash ∈ s.lookupHash i, LookupTruth s.txs txHash answer
  | _ => True

instance (s : PublisherState) (label : PublisherLabel) : Decidable (Truthful s label) := by
  unfold Truthful
  split <;> infer_instance

/-- Every transaction that can land is recorded at the rows in flight that it sends. -/
def Recorded (s : PublisherState) : Prop :=
  ∀ r ∈ s.queue.rows, r.status = .inflight → ∀ tx ∈ s.txs, r.id ∈ tx.ids → tx.hash ∉ s.dead →
    r.txHash = some tx.hash

instance (s : PublisherState) : Decidable (Recorded s) :=
  inferInstanceAs (Decidable (∀ r ∈ s.queue.rows, _))

/-- No transaction gets out of sight: the process is restarted only when transactions that can land
are recorded, an ambiguous submission is not taken for a size or fee error, and neither it nor a
lookup that throws comes at the last attempt of a decision. -/
def Accounted (options : PublisherOptions) (s : PublisherState) : PublisherLabel → Prop
  | .submitted i (.error (.ambiguous message _)) =>
    isSizeOrFeeMessage message = false ∧ Retryable options (s.submitting i)
  | .lookedUp i (.error _) => Retryable options (s.reconciling i)
  | .restart => Recorded s
  | _ => True

instance (options : PublisherOptions) (s : PublisherState) (label : PublisherLabel) :
    Decidable (Accounted options s label) := by
  unfold Accounted
  split <;> infer_instance

/-! ## The invariant -/

/-- The batches in flight, the queue and the chain agree. -/
structure OrderInv (options : PublisherOptions) (s : PublisherState) : Prop where
  pool : PoolSound s
  chain : ChainSound s.txs s.dead s.trace
  queue : QueueSound s.world
  covered : ∀ r ∈ s.queue.rows, r.status = .inflight →
    ∃ feeds ∈ s.tasks.map (·.feeds), r.feed ∈ feeds
  tasks : ∀ t ∈ s.tasks, ∃ g, t.program.Follows (staging options).protocol g ∧ Tracks s.world t g

variable {r : QueueRow} {rows' : List QueueRow} {id : Nat} {decision : NewDecision} {now : ℚ}
  {w w' : World}

/-- A change of the chain or the trace that the rows do not contradict. -/
theorem QueueSound.of_chain (h : QueueSound w) (hrows : w'.rows = w.rows)
    (hsends : ∀ hash id, Sends w.txs hash id → Sends w'.txs hash id)
    (honChain : ∀ hash, OnChain w.txs hash → OnChain w'.txs hash)
    (hcan : ∀ r ∈ w.rows, r.status = .pending → ∀ hash, CanLand w'.txs w'.dead hash r.id →
      CanLand w.txs w.dead hash r.id)
    (htr : ∀ event, (∀ id, event ≠ .landed id) → (event ∈ w'.trace ↔ event ∈ w.trace)) :
    QueueSound w' := by
  cases w'
  subst hrows
  refine ⟨fun id feed => ?_, fun r hr hash htx => hsends _ _ (h.recorded r hr hash htx),
    fun r hr hstat hash hc => h.pending r hr hstat hash (hcan r hr hstat hash hc),
    fun r hr hstat => ?_, fun id => ?_⟩
  · rw [htr (.enqueued id feed) fun _ => nofun]
    exact h.enqueued id feed
  · obtain ⟨hash, htx, hon⟩ := h.published r hr hstat
    exact ⟨hash, htx, honChain hash hon⟩
  · rw [htr (.failed id) fun _ => nofun]
    exact h.failed id

/-- A row that was claimed, or put back. -/
structure Moved (r r' : QueueRow) : Prop where
  id : r'.id = r.id
  feed : r'.feed = r.feed
  txHash : r'.txHash = r.txHash
  status : r'.status = r.status ∨ r.isOpen = true ∧ r'.isOpen = true

theorem QueueRow.isOpen_iff : r.isOpen = true ↔ r.status = .pending ∨ r.status = .inflight := by
  simp only [isOpen, Bool.or_eq_true, decide_eq_true_eq]

/-- Rows that are resolved do not move. -/
theorem Moved.status_iff {r' : QueueRow} (h : Moved r r') (status : QueueStatus)
    (hp : status ≠ .pending) (hi : status ≠ .inflight) :
    r'.status = status ↔ r.status = status := by
  rcases h.status with heq | ⟨hopen, hopen'⟩
  · rw [heq]
  rw [isOpen_iff] at hopen hopen'
  constructor
  · rintro rfl
    exact absurd hopen' (not_or.2 ⟨hp, hi⟩)
  · rintro rfl
    exact absurd hopen (not_or.2 ⟨hp, hi⟩)

/-- The rows that meet a condition are claimed, or put back. -/
theorem QueueSound.of_rows (h : QueueSound w) {P : QueueRow → Prop} {f : QueueRow → QueueRow}
    (hmem : ∀ r', r' ∈ rows' ↔ ∃ r ∈ w.rows, (P r ∧ r' = f r) ∨ (¬P r ∧ r' = r))
    (hmov : ∀ r, P r → Moved r (f r))
    (hpend : ∀ r' ∈ rows', r'.status = .pending → ∀ hash, CanLand w.txs w.dead hash r'.id →
      r'.txHash = some hash) : QueueSound { w with rows := rows' } := by
  have hto : ∀ r ∈ w.rows, ∃ r' ∈ rows', Moved r r' := by
    intro r hr
    by_cases hP : P r
    · exact ⟨_, (hmem _).2 ⟨r, hr, .inl ⟨hP, rfl⟩⟩, hmov r hP⟩
    · exact ⟨r, (hmem _).2 ⟨r, hr, .inr ⟨hP, rfl⟩⟩, rfl, rfl, rfl, .inl rfl⟩
  have hfrom : ∀ r' ∈ rows', ∃ r ∈ w.rows, Moved r r' := by
    intro r' hr'
    obtain ⟨r, hr, ⟨hP, rfl⟩ | ⟨-, rfl⟩⟩ := (hmem r').1 hr'
    · exact ⟨r, hr, hmov r hP⟩
    · exact ⟨r', hr, rfl, rfl, rfl, .inl rfl⟩
  have hexists : ∀ {P : QueueRow → Prop}, (∀ r r', Moved r r' → (P r' ↔ P r)) →
      ((∃ r' ∈ rows', P r') ↔ ∃ r ∈ w.rows, P r) := by
    intro P hP
    constructor
    · rintro ⟨r', hr', hp⟩
      obtain ⟨r, hr, hmov⟩ := hfrom r' hr'
      exact ⟨r, hr, (hP r r' hmov).1 hp⟩
    · rintro ⟨r, hr, hp⟩
      obtain ⟨r', hr', hmov⟩ := hto r hr
      exact ⟨r', hr', (hP r r' hmov).2 hp⟩
  constructor
  · intro id feed
    refine (h.enqueued id feed).trans (hexists ?_).symm
    intro r r' hmov
    rw [hmov.id, hmov.feed]
  · intro r' hr' hash htx
    obtain ⟨r, hr, hmov⟩ := hfrom r' hr'
    rw [hmov.txHash] at htx
    rw [hmov.id]
    exact h.recorded r hr hash htx
  · exact hpend
  · intro r' hr' hstat
    obtain ⟨r, hr, hmov⟩ := hfrom r' hr'
    rw [hmov.txHash]
    exact h.published r hr ((hmov.status_iff .published nofun nofun).1 hstat)
  · intro id
    refine (h.failed id).trans (hexists ?_).symm
    intro r r' hmov
    rw [hmov.id, hmov.status_iff .failed nofun nofun]

/-- A new row. -/
theorem QueueSound.enqueue (h : QueueSound w) (hfresh : ∀ hash, ¬Sends w.txs hash id) :
    QueueSound { w with
      rows := w.rows ++ [newRow id decision now]
      trace := w.trace ++ [PublishEvent.enqueued id decision.feed] } := by
  have hexists : ∀ {P : QueueRow → Prop}, (∃ r ∈ w.rows ++ [newRow id decision now], P r) ↔
      (∃ r ∈ w.rows, P r) ∨ P (newRow id decision now) := by
    intro P
    simp only [mem_snoc, or_and_right, exists_or, exists_eq_left]
  constructor
  · intro e feed
    rw [hexists, mem_snoc, h.enqueued]
    refine or_congr_right ?_
    constructor
    · rintro ⟨rfl, rfl⟩
      exact ⟨rfl, rfl⟩
    · rintro ⟨rfl, rfl⟩
      rfl
  · refine forall_mem_snoc.2 ⟨h.recorded, fun hash htx => ?_⟩
    cases htx
  · exact forall_mem_snoc.2 ⟨h.pending, fun _ hash hcan => absurd hcan.1 (hfresh hash)⟩
  · refine forall_mem_snoc.2 ⟨h.published, fun hstat => ?_⟩
    cases hstat
  · intro e
    rw [hexists, mem_snoc, h.failed]
    refine or_congr_right (iff_of_false nofun ?_)
    exact fun hrow => nomatch hrow.2

/-! ## Frames -/

variable {dead' : List String} {statement : QueueStatement} {feeds : List String}

theorem Frame.refl : Frame feeds w w where
  rows _ hr _ := hr
  inflight _ hr _ _ := hr
  txs tx htx := ⟨tx, htx, rfl, rfl, id⟩
  canLand _ _ _ _ h := h
  dead _ h := h
  trace _ h := h
  enqueued _ _ h := .inl h

theorem Frame.enqueue (hfresh : ∀ r ∈ w.rows, r.id < id) :
    Frame feeds w { w with
      rows := w.rows ++ [newRow id decision now]
      trace := w.trace ++ [PublishEvent.enqueued id decision.feed] } where
  __ := Frame.refl
  rows r hr _ := mem_append_left _ hr
  inflight r hr hstat _ := by
    refine (mem_snoc.1 hr).resolve_right ?_
    rintro rfl
    cases hstat
  trace _ h := mem_append_left _ h
  enqueued e feed h := by
    refine (mem_snoc.1 h).imp_right ?_
    rintro ⟨⟩
    exact hfresh

theorem Frame.die (hdead : ∀ h ∈ w.dead, h ∈ dead') : Frame feeds w { w with dead := dead' } where
  __ := Frame.refl
  canLand _ _ _ _ h := ⟨h.1, fun hin => h.2 (hdead _ hin)⟩
  dead := hdead

variable {txHash : String} {ids : List Nat}

theorem Frame.land :
    Frame feeds w { w with txs := landTx txHash w.txs, trace := w.trace ++ ids.map .landed } where
  __ := Frame.refl
  txs tx htx := by
    by_cases heq : tx.hash = txHash
    · exact ⟨_, mem_updateWhere.2 ⟨tx, htx, .inl ⟨decide_eq_true heq, rfl⟩⟩, rfl, rfl,
        fun _ => rfl⟩
    · exact ⟨tx, mem_updateWhere.2 ⟨tx, htx, .inr ⟨decide_eq_false heq, rfl⟩⟩, rfl, rfl,
        fun h => h⟩
  canLand _ _ _ _ h := ⟨sends_landTx.1 h.1, h.2⟩
  trace _ h := mem_append_left _ h
  enqueued _ _ h := .inl (mem_of_mem_append_map h fun _ => nofun)

/-- A transaction that sends no decision of these feeds. -/
theorem Frame.send (hoth : ∀ r ∈ w.rows, r.feed ∈ feeds → r.id ∉ ids) :
    Frame feeds w (w.send txHash ids) where
  __ := Frame.refl
  txs tx htx := ⟨tx, mem_append_left _ htx, rfl, rfl, fun h => h⟩
  canLand r hr hfeed hash h := by
    obtain ⟨⟨tx, htx, hhash, hid⟩, hdead⟩ := h
    refine ⟨⟨tx, (mem_snoc.1 htx).resolve_right ?_, hhash, hid⟩, hdead⟩
    rintro rfl
    exact hoth r hr hfeed hid

/-- A statement about no decision of these feeds. -/
theorem Frame.execute (hoth : ∀ r ∈ w.rows, r.feed ∈ feeds → r.id ∉ statement.ids) :
    Frame feeds w (w.execute statement now) where
  __ := Frame.refl
  rows r hr hfeed := mem_rows_execute.2 ⟨r, hr, .inr ⟨hoth r hr hfeed, rfl⟩⟩
  inflight r' hr' hstat hfeed := by
    obtain ⟨r, hr, ⟨hin, rfl⟩ | ⟨-, rfl⟩⟩ := mem_rows_execute.1 hr'
    · rw [QueueStatement.update_feed] at hfeed
      exact absurd hin (hoth r hr hfeed)
    · exact hr
  trace _ h := mem_append_left _ h
  enqueued _ _ h := .inl (enqueued_execute.1 h)

/-- A claim of no row of these feeds. -/
theorem Frame.claim {taken : List QueueRow} {excludeFeeds : List String}
    {batch : List PendingDecision} (h : ClaimSpec w.rows excludeFeeds taken rows' batch)
    (hfeeds : ∀ feed ∈ feeds, feed ∈ excludeFeeds) : Frame feeds w { w with rows := rows' } where
  __ := Frame.refl
  rows r hr hfeed := (h.mem_rows r).2
    ⟨r, hr, .inr ⟨fun hin => (h.eligible r hin).2.2 (hfeeds _ hfeed), rfl⟩⟩
  inflight r' hr' _ hfeed := by
    obtain ⟨r, hr, ⟨hin, rfl⟩ | ⟨-, rfl⟩⟩ := (h.mem_rows r').1 hr'
    · exact absurd (hfeeds _ hfeed) (h.eligible r hin).2.2
    · exact hr

/-- The rows that a batch knows are of its feeds. -/
theorem Tracks.feed_mem {t : Task} {g : Nat → Stage} (h : Tracks w t g)
    (hkey : UniqueKey (·.id) w.rows) (hr : r ∈ w.rows) (hid : g r.id ≠ .outside) :
    r.feed ∈ t.feeds :=
  (((h.stages r.id).inRow hid).elim hkey hr rfl).1

/-! ## Steps -/

variable {options : PublisherOptions} {s s' : PublisherState} {i : Nat} {t t' : Task}
  {g g' : Nat → Stage}

namespace OrderInv

variable (h : OrderInv options s)

include h

/-- The pool after one of its batches has changed. -/
theorem tasks_set (hi : s.tasks[i]? = some t)
    (hfol : t'.program.Follows (staging options).protocol g) (htrk : Tracks w t' g)
    (hframe : ∀ feeds, t.feeds.Disjoint feeds → Frame feeds s.world w) :
    ∀ u ∈ s.tasks.set i t', ∃ g, u.program.Follows (staging options).protocol g ∧ Tracks w u g := by
  intro u hu
  rcases mem_set_cases hu with rfl | ⟨j, hj, hget⟩
  · exact ⟨g, hfol, htrk⟩
  · obtain ⟨g', hfol', htrk'⟩ := h.tasks u (mem_of_getElem? hget)
    exact ⟨g', hfol', htrk'.frame (hframe _ (h.pool.disjoint hj hi hget))⟩

theorem covered_set (hi : s.tasks[i]? = some t) (hfeeds : t'.feeds = t.feeds) :
    ∀ r ∈ s.queue.rows, r.status = .inflight →
      ∃ feeds ∈ (s.tasks.set i t').map (·.feeds), r.feed ∈ feeds := by
  rw [map_feeds_set hi hfeeds]
  exact h.covered

theorem task (hi : s.tasks[i]? = some t) :
    ∃ g, t.program.Follows (staging options).protocol g ∧ Tracks s.world t g :=
  h.tasks t (mem_of_getElem? hi)

/-- Decisions that were enqueued have smaller ids than the next one. -/
theorem enqueued_lt {feed : String} (hin : .enqueued id feed ∈ s.trace) : id < s.queue.nextId := by
  obtain ⟨r, hr, rfl, -⟩ := (h.queue.enqueued id feed).1 hin
  exact h.pool.fresh r hr

end OrderInv

/-! ### Claims -/

variable {batch : List PendingDecision}

/-- A new batch has to look up the hashes that its rows record. -/
def claimedStages (batch : List PendingDecision) : Nat → Stage := fun id =>
  match batch.find? (·.id = id) with
  | some d => .held d.txHash d.txHash
  | none => .outside

variable {d : PendingDecision}

theorem claimedStages_of_mem (hkey : UniqueKey (·.id) batch) (hd : d ∈ batch) :
    claimedStages batch d.id = .held d.txHash d.txHash := by
  have hfind : batch.find? (·.id = d.id) = some d := hkey.findByKey_eq hd
  rw [claimedStages, hfind]

theorem claimedStages_of_notMem (h : id ∉ idsOf batch) : claimedStages batch id = .outside := by
  simp only [claimedStages]
  split
  · rename_i d hfind
    obtain ⟨hd, rfl⟩ := findByKey_some hfind
    exact absurd (mem_idsOf_of_mem hd) h
  · rfl

theorem mem_knownHashes (hd : d ∈ batch) {hash : String} (htx : d.txHash = some hash)
    (hne : hash ≠ "") : hash ∈ knownHashes batch := by
  rw [knownHashes, mem_eraseDups, mem_filterMap]
  exact ⟨d, hd, by rw [htx]; exact Option.filter_eq_some_iff.2 ⟨rfl, decide_eq_true hne⟩⟩

theorem claimedStages_follows (hsort : (idsOf batch).Pairwise (· < ·))
    (hnamed : ∀ d ∈ batch, d.txHash ≠ some "") :
    (process options batch.length batch).Follows (staging options).protocol
      (claimedStages batch) := by
  refine process_follows (staging_sound options) le_rfl hsort ?_ ?_
  · intro e he
    rw [claimedStages_of_notMem he]
    trivial
  · intro d hd
    rw [claimedStages_of_mem (uniqueKey_of_sorted hsort) hd]
    cases htx : d.txHash with
    | none => exact .inl (by rw [htx])
    | some hash =>
      refine .inr ⟨hash, mem_knownHashes hd htx ?_, htx, rfl⟩
      rintro rfl
      exact hnamed d hd htx

variable {taken : List QueueRow} {ended : List String}

namespace OrderInv

variable (h : OrderInv options s)

include h

/-- A row that is not open is resolved. -/
theorem resolved (hr : r ∈ s.queue.rows) (hopen : ¬r.isOpen = true) : Resolved s.trace r.id := by
  rw [isOpen_iff, not_or] at hopen
  cases hstat : r.status with
  | pending => exact absurd hstat hopen.1
  | inflight => exact absurd hstat hopen.2
  | failed => exact .inr ((h.queue.failed r.id).2 ⟨r, hr, rfl, hstat⟩)
  | published =>
    obtain ⟨hash, htx, hon⟩ := h.queue.published r hr hstat
    exact .inl ((h.chain.landed r.id).2 ⟨hash, h.queue.recorded r hr hash htx, hon⟩)

/-- A claimed batch agrees with the queue and the chain. -/
theorem claim_tracks (hspec : ClaimSpec s.queue.rows (s.feedsInFlight ++ ended) taken rows' batch)
    {program : PublisherProgram} :
    Tracks { s.world with rows := rows' } ⟨(batch.map (·.feed)).eraseDups, program, none⟩
      (claimedStages batch) := by
  have hkey := h.pool.key
  have hbatchKey : UniqueKey (·.id) batch := uniqueKey_of_sorted (pairwise_map.2 hspec.sorted)
  have hheld : ∀ r ∈ taken, claimedStages batch r.id = .held r.txHash r.txHash :=
    fun r hr => claimedStages_of_mem hbatchKey ((hspec.mem_batch _).2 ⟨r, hr, rfl⟩)
  have hinside : ∀ id, claimedStages batch id ≠ .outside → ∃ r ∈ taken, r.id = id := by
    intro id hid
    by_contra hnot
    refine hid (claimedStages_of_notMem fun hin => hnot ?_)
    obtain ⟨d, hd, rfl⟩ := mem_idsOf.1 hin
    obtain ⟨r, hr, rfl⟩ := (hspec.mem_batch d).1 hd
    exact ⟨r, hr, rfl⟩
  have hfeeds : ∀ feed, feed ∈ (batch.map (·.feed)).eraseDups ↔ ∃ r ∈ taken, r.feed = feed := by
    intro feed
    rw [mem_eraseDups, mem_map]
    constructor
    · rintro ⟨d, hd, rfl⟩
      obtain ⟨r, hr, rfl⟩ := (hspec.mem_batch d).1 hd
      exact ⟨r, hr, rfl⟩
    · rintro ⟨r, hr, rfl⟩
      exact ⟨_, (hspec.mem_batch _).2 ⟨r, hr, rfl⟩, rfl⟩
  refine ⟨?_, ?_, ?_, nofun⟩
  · intro id
    by_cases hid : claimedStages batch id = .outside
    · rw [hid]
      trivial
    obtain ⟨r, hr, rfl⟩ := hinside id hid
    obtain ⟨hmem, hpend, -⟩ := hspec.eligible r hr
    rw [hheld r hr]
    refine ⟨⟨r.claimed, (hspec.mem_rows _).2 ⟨r, hmem, .inl ⟨hr, rfl⟩⟩, rfl,
      (hfeeds _).2 ⟨r, hr, rfl⟩, rfl, rfl⟩, ?_, h.queue.recorded r hmem, ?_⟩
    · intro hash hcan
      rw [Option.or_none]
      exact h.queue.pending r hmem hpend hash hcan
    · intro hnone hash hsome
      cases hnone.symm.trans hsome
  · intro r' hr' hstat hfeed
    obtain ⟨r, hr, ⟨hin, rfl⟩ | ⟨-, rfl⟩⟩ := (hspec.mem_rows r').1 hr'
    · rw [show r.claimed.id = r.id from rfl, hheld r hin]
      exact id
    -- A row that was in flight before is of a feed in flight, which the claim has excluded.
    obtain ⟨p, hp, hfeedEq⟩ := (hfeeds _).1 hfeed
    obtain ⟨feeds, hmem, hin⟩ := h.covered _ hr hstat
    obtain ⟨t, ht, rfl⟩ := mem_map.1 hmem
    refine absurd (mem_append_left _ (mem_flatMap.2 ⟨t, ht, ?_⟩)) (hspec.eligible p hp).2.2
    rw [hfeedEq]
    exact hin
  · intro id hid feed e hfeed he hlt
    obtain ⟨r, hr, rfl⟩ := hinside id hid
    obtain ⟨r₁, hr₁, hid₁, rfl⟩ := (h.queue.enqueued _ feed).1 hfeed
    cases hkey.eq hr₁ (hspec.eligible r hr).1 hid₁
    obtain ⟨re, hre, rfl, hfeedEq⟩ := (h.queue.enqueued _ _).1 he
    by_cases hopen : re.isOpen = true
    · left
      rw [hheld re (hspec.closed r hr re hre hopen hfeedEq hlt)]
      nofun
    · exact .inr (h.resolved hre hopen)

end OrderInv

/-- The queue after a claim. -/
theorem OrderInv.claim_queue (h : OrderInv options s)
    (hspec : ClaimSpec s.queue.rows (s.feedsInFlight ++ ended) taken rows' batch) :
    QueueSound { s.world with rows := rows' } := by
  refine h.queue.of_rows hspec.mem_rows ?_ ?_
  · intro r hr
    exact ⟨rfl, rfl, rfl, .inr ⟨isOpen_iff.2 (.inl (hspec.eligible r hr).2.1),
      isOpen_iff.2 (.inr rfl)⟩⟩
  · intro r' hr' hstat
    obtain ⟨r, hr, ⟨-, rfl⟩ | ⟨-, rfl⟩⟩ := (hspec.mem_rows r').1 hr'
    · cases hstat
    · exact h.queue.pending _ hr hstat

theorem OrderInv.claim (h : OrderInv options s) {queue : PublishQueue}
    (hspec : ClaimSpec s.queue.rows (s.feedsInFlight ++ ended) taken queue.rows batch)
    (hs' : s' = { s with
      queue
      tasks := s.tasks ++
        [⟨(batch.map (·.feed)).eraseDups, process options batch.length batch, none⟩] })
    (hpool : PoolSound s') : OrderInv options s' := by
  subst hs'
  refine ⟨hpool, h.chain, h.claim_queue hspec, ?_, ?_⟩
  · intro r' hr' hstat
    rw [map_append]
    obtain ⟨r, hr, ⟨hin, rfl⟩ | ⟨-, rfl⟩⟩ := (hspec.mem_rows r').1 hr'
    · refine ⟨_, mem_append_right _ mem_cons_self, ?_⟩
      rw [mem_eraseDups]
      exact mem_map.2 ⟨_, (hspec.mem_batch _).2 ⟨r, hin, rfl⟩, rfl⟩
    · obtain ⟨feeds, hmem, hfeed⟩ := h.covered _ hr hstat
      exact ⟨feeds, mem_append_left _ hmem, hfeed⟩
  · intro t ht
    rcases mem_snoc.1 ht with ht | rfl
    · obtain ⟨g, hfol, htrk⟩ := h.tasks t ht
      refine ⟨g, hfol, htrk.frame (Frame.claim hspec fun feed hfeed => ?_)⟩
      exact mem_append_left _ (mem_flatMap.2 ⟨t, ht, hfeed⟩)
    · refine ⟨_, claimedStages_follows (pairwise_map.2 hspec.sorted) ?_, h.claim_tracks hspec⟩
      intro d hd htx
      obtain ⟨r, hr, rfl⟩ := (hspec.mem_batch d).1 hd
      obtain ⟨tx, htxs, hhash, -⟩ := h.queue.recorded r (hspec.eligible r hr).1 "" htx
      exact h.chain.named tx htxs hhash

/-! ### Enqueues, transactions, answers and statements -/

variable {sent : Option String}

theorem OrderInv.enqueue (h : OrderInv options s) (hs' : s' = { s with
      queue := ⟨s.queue.rows ++ [newRow s.queue.nextId decision now], s.queue.nextId + 1⟩
      trace := s.trace ++ [PublishEvent.enqueued s.queue.nextId decision.feed] })
    (hpool : PoolSound s') : OrderInv options s' := by
  subst hs'
  refine ⟨hpool, h.chain.enqueue fun e f hin => h.enqueued_lt hin, h.queue.enqueue ?_, ?_, ?_⟩
  · intro hash hsends
    obtain ⟨feed, hfeed⟩ := h.chain.known hash _ hsends
    exact lt_irrefl _ (h.enqueued_lt hfeed)
  · refine forall_mem_snoc.2 ⟨h.covered, fun hstat => ?_⟩
    cases hstat
  · intro t ht
    obtain ⟨g, hfol, htrk⟩ := h.tasks t ht
    exact ⟨g, hfol, htrk.frame (Frame.enqueue h.pool.fresh)⟩

variable {next : Except SubmitError BatchSubmitResult → PublisherProgram}

namespace OrderInv

variable (h : OrderInv options s)

include h

/-- A transaction is sent with a batch that may be submitted. -/
theorem send
    (htask : s.tasks[i]? = some ⟨feeds, .ask (.submit batch) next, none⟩) (hne : txHash ≠ "")
    (hfresh : ∀ tx ∈ s.txs, tx.hash ≠ txHash)
    (hs' : s' = { s with
      tasks := s.tasks.set i ⟨feeds, .ask (.submit batch) next, some txHash⟩
      txs := s.txs ++ [⟨txHash, idsOf batch, false⟩] })
    (hpool : PoolSound s') : OrderInv options s' := by
  subst hs'
  obtain ⟨g, hfol, htrk⟩ := h.task htask
  have hmay : MaySubmit g batch := hfol.1
  have hstage : ∀ id ∈ idsOf batch, g id ≠ .outside ∧
      ∃ recorded, StageOk s.world feeds none id (.held none recorded) := by
    intro id hin
    obtain ⟨d, hd, rfl⟩ := mem_idsOf.1 hin
    obtain ⟨recorded, hheld⟩ := hmay.clean d hd
    have hok := htrk.stages d.id
    rw [hheld] at hok ⊢
    exact ⟨nofun, recorded, hok⟩
  have hinfl : ∀ r ∈ s.queue.rows, r.id ∈ idsOf batch → r.status = .inflight := by
    intro r hr hin
    obtain ⟨-, recorded, hok⟩ := hstage r.id hin
    exact (hok.1.elim h.pool.key hr rfl).2.1
  refine ⟨hpool, ?_, ?_, h.covered_set htask rfl, ?_⟩
  · refine h.chain.send hne hfresh hmay.sorted ?_ ?_ ?_ ?_
    · intro id hin
      obtain ⟨-, recorded, ⟨r, hr, hid, -, -⟩, -⟩ := hstage id hin
      exact ⟨r.feed, (h.queue.enqueued id r.feed).2 ⟨r, hr, hid, rfl⟩⟩
    · intro id hin hash hcan
      obtain ⟨-, recorded, -, hsole, -⟩ := hstage id hin
      cases hsole hash hcan
    · intro id hin hfailed
      obtain ⟨r, hr, rfl, hstat⟩ := (h.queue.failed id).1 hfailed
      rw [hinfl r hr hin] at hstat
      cases hstat
    · -- An earlier decision is settled, or it is sent with the batch.
      intro id hin feed e hfeed he hlt
      obtain ⟨d, hd, rfl⟩ := mem_idsOf.1 hin
      rcases htrk.closed _ (hstage _ hin).1 feed e hfeed he hlt with hinside' | hres
      · by_cases hsettled : (g e).Settled
        · exact .inl ((htrk.stages e).resolved h.chain hinside' hsettled)
        · exact .inr (hmay.first d hd e hlt hsettled)
      · exact .inl hres
  · refine h.queue.of_chain rfl ?_ ?_ ?_ fun _ _ => Iff.rfl
    · rintro hash id ⟨tx, htx, hsends⟩
      exact ⟨tx, mem_append_left _ htx, hsends⟩
    · rintro hash ⟨tx, htx, hon⟩
      exact ⟨tx, mem_append_left _ htx, hon⟩
    · rintro r hr hstat hash ⟨⟨tx, htx, hhash, hid⟩, hdead⟩
      refine ⟨⟨tx, (mem_snoc.1 htx).resolve_right ?_, hhash, hid⟩, hdead⟩
      rintro rfl
      rw [hinfl r hr hid] at hstat
      cases hstat
  · refine h.tasks_set htask hfol (htrk.send hmay) fun other hdisjoint => ?_
    refine Frame.send fun r hr hfeed hin => ?_
    exact hdisjoint (htrk.feed_mem h.pool.key hr (hstage _ hin).1) hfeed

theorem land {tx : SentTx} (htx : tx ∈ s.txs) (hland : tx.landed = false) (hdead : tx.hash ∉ s.dead)
    (hs' : s' = { s with
      txs := landTx tx.hash s.txs
      trace := s.trace ++ tx.ids.map .landed }) (hpool : PoolSound s') : OrderInv options s' := by
  subst hs'
  refine ⟨hpool, h.chain.land htx hland hdead, ?_, h.covered, ?_⟩
  · refine h.queue.of_chain rfl (fun _ _ => sends_landTx.2)
      (fun hash hon => (onChain_landTx htx).2 (.inl hon))
      (fun _ _ _ _ hcan => ⟨sends_landTx.1 hcan.1, hcan.2⟩) ?_
    intro event hne
    refine ⟨fun hin => (mem_append.1 hin).resolve_right fun hnew => ?_, mem_append_left _⟩
    obtain ⟨id, -, heq⟩ := mem_map.1 hnew
    exact hne id heq.symm
  · intro t ht
    obtain ⟨g, hfol, htrk⟩ := h.tasks t ht
    exact ⟨g, hfol, htrk.frame Frame.land⟩

/-- More transactions are known never to land. -/
theorem die {tasks' : List Task}
    (hsub : ∀ hash ∈ s.dead, hash ∈ dead') (hchain : ChainSound s.txs dead' s.trace)
    (hs' : s' = { s with tasks := tasks', dead := dead' }) (hpool : PoolSound s')
    (hmap : tasks'.map (·.feeds) = s.tasks.map (·.feeds))
    (htasks : ∀ t ∈ tasks', ∃ g, t.program.Follows (staging options).protocol g ∧
      Tracks { s.world with dead := dead' } t g) : OrderInv options s' := by
  subst hs'
  refine ⟨hpool, hchain, ?_, ?_, htasks⟩
  · exact h.queue.of_chain rfl (fun _ _ hs => hs) (fun _ hs => hs)
      (fun _ _ _ _ hcan => ⟨hcan.1, fun hin => hcan.2 (hsub _ hin)⟩) fun _ _ => Iff.rfl
  · rw [hmap]
    exact h.covered

theorem submitted {answer : Except SubmitError BatchSubmitResult}
    (htask : s.tasks[i]? = some ⟨feeds, .ask (.submit batch) next, some txHash⟩)
    (htruth : Truthful s (.submitted i answer)) (hacct : Accounted options s (.submitted i answer))
    (hs' : s' = { s with
      tasks := s.tasks.set i ⟨feeds, next answer, none⟩
      dead := deadAfterSubmit txHash answer s.dead })
    (hpool : PoolSound s') : OrderInv options s' := by
  obtain ⟨g, hfol, htrk⟩ := h.task htask
  have htruth : SubmitTruth s.txs txHash answer := htruth txHash (by
    rw [sentHash, htask]
    rfl)
  have hsubmits : (staging options).submits batch answer := by
    match answer with
    | .ok _ | .error (.batchTooLarge _) | .error (.other _) => trivial
    | .error (.ambiguous message _) =>
      refine ⟨hacct.1, ?_⟩
      have hretry := hacct.2
      simp only [submitting, htask] at hretry
      exact hretry
  -- A transaction is known to be dead exactly when the answer says so.
  obtain ⟨hsub, hchain, htold⟩ :
      (∀ hash ∈ s.dead, hash ∈ deadAfterSubmit txHash answer s.dead) ∧
      ChainSound s.txs (deadAfterSubmit txHash answer s.dead) s.trace ∧
      SubmitTold { s.world with dead := deadAfterSubmit txHash answer s.dead } txHash answer := by
    match answer with
    | .ok _ | .error (.ambiguous _ _) => exact ⟨fun _ hin => hin, h.chain, htruth⟩
    | .error (.batchTooLarge _) | .error (.other _) =>
      exact ⟨fun _ => mem_cons_of_mem _, h.chain.die htruth, mem_cons_self⟩
  refine h.die hsub hchain hs' hpool (map_feeds_set htask rfl) ?_
  refine h.tasks_set htask (hfol.answer ⟨hsubmits, rfl⟩) ?_ fun _ _ => Frame.die hsub
  exact (htrk.frame (Frame.die hsub)).submitted hchain hfol.1 htold

theorem lookedUp
    {next : Except String TxLookup → PublisherProgram} {answer : Except String TxLookup}
    (htask : s.tasks[i]? = some ⟨feeds, .ask (.lookup batch txHash) next, sent⟩)
    (htruth : Truthful s (.lookedUp i answer)) (hacct : Accounted options s (.lookedUp i answer))
    (hs' : s' = { s with
      tasks := s.tasks.set i ⟨feeds, next answer, sent⟩
      dead := deadAfterLookup txHash answer s.dead })
    (hpool : PoolSound s') : OrderInv options s' := by
  obtain ⟨g, hfol, htrk⟩ := h.task htask
  obtain rfl : sent = none := htrk.sent_eq_none fun _ _ => nofun
  have htruth : LookupTruth s.txs txHash answer := htruth txHash (by
    rw [lookupHash, htask]
    rfl)
  have hfinds : (staging options).finds g batch txHash answer := by
    match answer with
    | .ok .pending | .ok .failed | .ok .notFound => trivial
    | .error _ =>
      have hretry : Retryable options (s.reconciling i) := hacct
      simp only [reconciling, htask] at hretry
      exact hretry
    | .ok (.success _) =>
      -- What was refuted is not on chain.
      intro id hid
      have hok := htrk.stages id
      rw [hid] at hok
      exact h.chain.alive txHash htruth (hok.2.2.2 rfl txHash rfl)
  obtain ⟨hsub, hchain, htold⟩ :
      (∀ hash ∈ s.dead, hash ∈ deadAfterLookup txHash answer s.dead) ∧
      ChainSound s.txs (deadAfterLookup txHash answer s.dead) s.trace ∧
      LookupTold { s.world with dead := deadAfterLookup txHash answer s.dead } txHash answer := by
    match answer with
    | .ok (.success _) => exact ⟨fun _ hin => hin, h.chain, htruth⟩
    | .ok .pending | .error _ => exact ⟨fun _ hin => hin, h.chain, trivial⟩
    | .ok .failed | .ok .notFound =>
      exact ⟨fun _ => mem_cons_of_mem _, h.chain.die htruth, mem_cons_self⟩
  refine h.die hsub hchain hs' hpool (map_feeds_set htask rfl) ?_
  refine h.tasks_set htask (hfol.answer ⟨hfinds, rfl⟩) ?_ fun _ _ => Frame.die hsub
  exact (htrk.frame (Frame.die hsub)).lookedUp rfl htold

theorem executed {next : Unit → PublisherProgram}
    (htask : s.tasks[i]? = some ⟨feeds, .ask (.statement statement) next, sent⟩)
    (hs' : s' = { s with
      queue := s.queue.execute statement now
      tasks := s.tasks.set i ⟨feeds, next (), sent⟩
      trace := s.trace ++ statement.events }) (hpool : PoolSound s') : OrderInv options s' := by
  subst hs'
  obtain ⟨g, hfol, htrk⟩ := h.task htask
  obtain rfl : sent = none := htrk.sent_eq_none fun _ _ => nofun
  have hmay : ∀ id ∈ statement.ids, (staging options).mayWrite statement (g id) := hfol.1
  refine ⟨hpool, h.chain.execute htrk rfl hmay,
    h.queue.execute htrk rfl hmay h.chain h.pool.key, ?_, ?_⟩
  · intro r' hr' hstat
    obtain ⟨r, hr, ⟨-, rfl⟩ | ⟨-, rfl⟩⟩ := (mem_rows_execute (w := s.world)).1 hr'
    · cases statement with
      | markPublished | release | markFailed => cases hstat
    · refine h.covered_set htask ?_ _ hr hstat
      rfl
  · refine h.tasks_set htask (hfol.answer rfl) (htrk.execute rfl hmay) ?_
    intro other hdisjoint
    refine Frame.execute fun r hr hfeed hin => ?_
    exact hdisjoint (htrk.feed_mem h.pool.key hr (mayWrite_ne_outside (hmay _ hin))) hfeed

theorem drawn {random : ℚ} {next : ℚ → PublisherProgram}
    (htask : s.tasks[i]? = some ⟨feeds, .ask .random next, sent⟩)
    (hs' : s' = { s with tasks := s.tasks.set i ⟨feeds, next random, sent⟩ })
    (hpool : PoolSound s') : OrderInv options s' := by
  obtain ⟨g, hfol, htrk⟩ := h.task htask
  obtain rfl : sent = none := htrk.sent_eq_none fun _ _ => nofun
  refine h.die (fun _ hin => hin) h.chain hs' hpool (map_feeds_set htask rfl) ?_
  refine h.tasks_set htask (hfol.answer rfl) ?_ fun _ _ => Frame.die fun _ hin => hin
  exact htrk.restage rfl rfl htrk.stages fun _ => .inl rfl

/-- A batch that ends leaves no row in flight. -/
theorem finished (htask : s.tasks[i]? = some ⟨feeds, .done, sent⟩)
    (hs' : s' = { s with tasks := s.tasks.eraseIdx i }) (hpool : PoolSound s') :
    OrderInv options s' := by
  subst hs'
  refine ⟨hpool, h.chain, h.queue, ?_, fun t ht => h.tasks t (mem_of_mem_eraseIdx ht)⟩
  intro r hr hstat
  obtain ⟨feeds', hmem, hfeed⟩ := h.covered r hr hstat
  obtain ⟨t, ht, rfl⟩ := mem_map.1 hmem
  obtain ⟨j, hj⟩ := mem_iff_getElem?.1 ht
  by_cases hij : j = i
  · subst hij
    rw [htask] at hj
    cases hj
    obtain ⟨g, hfol, htrk⟩ := h.task htask
    exact absurd (hfol r.id) (htrk.cover r hr hstat hfeed)
  · exact ⟨_, mem_map_of_mem (mem_eraseIdx_iff_getElem?.2 ⟨j, hij, hj⟩), hfeed⟩

/-- After a restart, the rows that were in flight record what can land. -/
theorem restart (hrec : Recorded s)
    (hs' : s' = { s with queue := s.queue.recoverInflight, tasks := [] }) (hpool : PoolSound s') :
    OrderInv options s' := by
  subst hs'
  have hmem : ∀ r', r' ∈ s.queue.recoverInflight.rows ↔ ∃ r ∈ s.queue.rows,
      (r.status = .inflight ∧ r' = { r with status := .pending }) ∨
        (r.status ≠ .inflight ∧ r' = r) := by
    intro r'
    simp only [PublishQueue.recoverInflight, mem_updateWhere, decide_eq_true_eq,
      decide_eq_false_iff_not, ne_eq]
  refine ⟨hpool, h.chain, h.queue.of_rows hmem ?_ ?_, ?_, fun _ ht => nomatch ht⟩
  · intro r hstat
    exact ⟨rfl, rfl, rfl, .inr ⟨isOpen_iff.2 (.inr hstat),
      isOpen_iff.2 (.inl rfl)⟩⟩
  · intro r' hr' hstat hash hcan
    obtain ⟨r, hr, ⟨hinfl, rfl⟩ | ⟨-, rfl⟩⟩ := (hmem r').1 hr'
    · obtain ⟨⟨tx, htx, rfl, hid⟩, hdead⟩ := hcan
      exact hrec r hr hinfl tx htx hid hdead
    · exact h.queue.pending _ hr hstat hash hcan
  · intro r' hr' hstat
    obtain ⟨r, hr, ⟨-, rfl⟩ | ⟨hnot, rfl⟩⟩ := (hmem r').1 hr'
    · cases hstat
    · exact absurd hstat hnot

/-- A step keeps the invariant. -/
theorem step {label : PublisherLabel}
    (htruth : Truthful s label) (hacct : Accounted options s label)
    (hmove : PublisherMove options s label s') : OrderInv options s' := by
  have hpool := h.pool.step hmove
  cases hmove with
  | enqueue => exact h.enqueue rfl hpool
  | duplicate => exact { h with pool := hpool }
  | idle => exact h
  | claim hclaim =>
    obtain ⟨taken, hspec⟩ := claim_spec h.pool.key hclaim
    exact h.claim hspec rfl hpool
  | send htask hne hfresh => exact h.send htask hne hfresh rfl hpool
  | land hmem hland hdead => exact h.land hmem hland hdead rfl hpool
  | submitted htask => exact h.submitted htask htruth hacct rfl hpool
  | lookedUp htask => exact h.lookedUp htask htruth hacct rfl hpool
  | executed htask => exact h.executed htask rfl hpool
  | drawn htask => exact h.drawn htask rfl hpool
  | finished htask => exact h.finished htask rfl hpool
  | restart => exact h.restart hacct rfl hpool

end OrderInv

theorem OrderInv.start (options : PublisherOptions) : OrderInv options .start := by
  refine ⟨⟨?_, ?_, ?_⟩, .start, ⟨?_, ?_, ?_, ?_, ?_⟩, ?_, ?_⟩
  all_goals simp [PublisherState.start, world, UniqueKey, PublishQueue.empty]

/-! ## Main results -/

/-- Decisions land in order, and each of them has one row with one status. -/
structure PublishSound (s : PublisherState) : Prop where
  order : PrecededBy LandsNext s.trace
  oneRow : ∀ id feed, .enqueued id feed ∈ s.trace →
    ∃ r ∈ s.queue.rows, r.id = id ∧ r.feed = feed ∧ ∀ r' ∈ s.queue.rows, r'.id = id → r' = r
  inflight : ∀ r ∈ s.queue.rows, r.status = .inflight → r.feed ∈ s.feedsInFlight
  published : ∀ r ∈ s.queue.rows, r.status = .published → .landed r.id ∈ s.trace
  failed : ∀ r ∈ s.queue.rows, r.status = .failed ↔ .failed r.id ∈ s.trace

theorem OrderInv.sound (h : OrderInv options s) : PublishSound s where
  order := h.chain.order
  oneRow id feed hin := by
    obtain ⟨r, hr, rfl, hfeed⟩ := (h.queue.enqueued id feed).1 hin
    exact ⟨r, hr, rfl, hfeed, fun r' hr' hid => h.pool.key.eq hr' hr hid⟩
  inflight r hr hstat := by
    obtain ⟨feeds, hmem, hfeed⟩ := h.covered r hr hstat
    obtain ⟨t, ht, rfl⟩ := mem_map.1 hmem
    exact mem_flatMap.2 ⟨t, ht, hfeed⟩
  published r hr hstat := by
    obtain ⟨hash, htx, hon⟩ := h.queue.published r hr hstat
    exact (h.chain.landed r.id).2 ⟨hash, h.queue.recorded r hr hash htx, hon⟩
  failed r hr := by
    rw [h.queue.failed]
    constructor
    · exact fun hstat => ⟨r, hr, rfl, hstat⟩
    · rintro ⟨r', hr', hid, hstat⟩
      rw [h.pool.key.eq hr hr' hid.symm]
      exact hstat

/-- In a run with true answers in which no transaction gets out of sight, decisions land in order.
-/
theorem publish_in_order (options : PublisherOptions) {s : PublisherState}
    (hrun : PublisherRun options (fun s label => Truthful s label ∧ Accounted options s label)
      .start s) : PublishSound s := by
  refine OrderInv.sound (hrun.invariant (OrderInv options) (OrderInv.start options) ?_)
  rintro s label s' h ⟨htruth, haccounted⟩ hstep
  exact h.step htruth haccounted (publisherStep_move hstep)

/-- A batch of two decisions is too large and is split; the second half is ambiguous. The process is
restarted, and finds the transaction on chain. -/
def splitAndRestarted : List PublisherLabel :=
  [.enqueue ⟨"quake:1", "quake", 71, 1⟩ 0, .enqueue ⟨"quake:2", "quake", 72, 1⟩ 0, .claim [] 0,
   .send 0 "A", .submitted 0 (.error (.batchTooLarge "too many feeds")),
   .send 0 "B", .land "B", .submitted 0 (.ok ⟨"B", some 7⟩), .executed 0 0,
   .send 0 "C", .submitted 0 (.error (.ambiguous "timeout" "C")), .drawn 0 0, .executed 0 0,
   .restart, .land "C", .claim [] 1000, .lookedUp 0 (.ok (.success (some 8))), .executed 0 1000,
   .finished 0]

theorem publish_in_order_splitAndRestarted :
    ∃ s, PublisherRun defaultPublisherOptions
        (fun s label => Truthful s label ∧ Accounted defaultPublisherOptions s label) .start s ∧
      s.trace = [.enqueued 1 "quake", .enqueued 2 "quake", .landed 1, .landed 2] ∧
      s.queue.rows.map (·.status) = [.published, .published] ∧ PublishSound s :=
  ⟨_, .performed splitAndRestarted (by decide +kernel), by decide +kernel,
    by decide +kernel, publish_in_order _ (.performed _ _)⟩

/-- A run in which a decision lands although it or a later one of its feed has landed. -/
theorem misordered_of_perform (labels : List PublisherLabel) (pre : List PublishEvent) (id e : Nat)
    (h : (perform (publisherStep options) Truthful .start labels).any
      (fun s => decide (s.trace = pre ++ [PublishEvent.landed id])) = true)
    (hland : .landed e ∈ pre) (hfeed : ∀ feed, .enqueued id feed ∈ pre → .enqueued e feed ∈ pre)
    (hle : id ≤ e) :
    ∃ s, PublisherRun options Truthful .start s ∧ s.trace = pre ++ [PublishEvent.landed id] ∧
      ¬PublishSound s := by
  refine RunWhere.exists_reached labels _ h fun s _ htr => ⟨htr, fun hsound => ?_⟩
  obtain ⟨feed, henq, hall⟩ := hsound.order pre _ [] htr
  exact absurd ((hall e (hfeed feed henq)).1 hland) hle.not_gt

/-- The process is restarted while it awaits a submission, and sends the decision again. -/
def restartedWhileSending : List PublisherLabel :=
  [.enqueue ⟨"quake:1", "quake", 71, 1⟩ 0, .claim [] 0, .send 0 "A", .restart, .claim [] 0,
   .send 0 "B", .land "A", .land "B"]

/-- A decision is dead-lettered after an ambiguous submission, and lands after the next one. -/
def deadLetteredTooEarly : List PublisherLabel :=
  [.enqueue ⟨"quake:1", "quake", 71, 1⟩ 0, .claim [] 0, .send 0 "A",
   .submitted 0 (.error (.ambiguous "timeout" "A")), .executed 0 0, .finished 0,
   .enqueue ⟨"quake:2", "quake", 72, 1⟩ 0, .claim [] 0, .send 0 "B", .land "B", .land "A"]

/-- An ambiguous submission is taken for a batch that is too large. -/
def splitAfterTimeout : List PublisherLabel :=
  [.enqueue ⟨"quake:1", "quake", 71, 1⟩ 0, .enqueue ⟨"quake:2", "quake", 72, 1⟩ 0, .claim [] 0,
   .send 0 "A", .submitted 0 (.error (.ambiguous "request exceeds the time limit" "A")),
   .send 0 "B", .land "A", .land "B"]

/-- With true answers, decisions land twice or out of order. -/
theorem publish_order_fails :
    (∃ s, PublisherRun defaultPublisherOptions Truthful .start s ∧
      s.trace = [.enqueued 1 "quake", .landed 1, .landed 1] ∧ ¬PublishSound s) ∧
    (∃ s, PublisherRun { defaultPublisherOptions with maxAttempts := 1 } Truthful .start s ∧
      s.trace = [.enqueued 1 "quake", .failed 1, .enqueued 2 "quake", .landed 2, .landed 1] ∧
      ¬PublishSound s) ∧
    (∃ s, PublisherRun defaultPublisherOptions Truthful .start s ∧
      s.trace = [.enqueued 1 "quake", .enqueued 2 "quake", .landed 1, .landed 2, .landed 1] ∧
      ¬PublishSound s) := by
  refine ⟨?_, ?_, ?_⟩
  · exact misordered_of_perform restartedWhileSending [.enqueued 1 "quake", .landed 1] 1 1
      (by decide +kernel) (by decide) (by simp) le_rfl
  · exact misordered_of_perform deadLetteredTooEarly
      [.enqueued 1 "quake", .failed 1, .enqueued 2 "quake", .landed 2] 1 2
      (by decide +kernel) (by decide) (by simp) (by decide)
  · exact misordered_of_perform splitAfterTimeout
      [.enqueued 1 "quake", .enqueued 2 "quake", .landed 1, .landed 2] 1 1
      (by decide +kernel) (by decide) (by simp) le_rfl

end Refract.Oracle
