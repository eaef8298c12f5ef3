import Refract.Oracle.BatchRules

/-!
# Published decisions stay published

`reconcile` looks up the hashes of a batch one after another and marks what it finds on chain as
published. When a later hash turns out to be pending, or its lookup throws, the whole batch is
retried, with the decisions that were just marked (`published_reverts`). In every run in which no
lookup is pending or throws once decisions of its batch are published, a published row never changes
again (`published_final`).

A batch in flight holds its decisions that are not resolved yet: their rows are in flight, and its
feeds are its own. The protocol `holding` says that it writes only to rows that it holds.
-/

namespace Refract.Oracle

open Lib List

/-! ## The condition -/

/-- A lookup that defers its batch finds none of its decisions published. -/
def NothingPublished (s : PublisherState) : PublisherLabel → Prop
  | .lookedUp i answer => defers answer = true →
      ∀ d ∈ s.reconciling i, ∀ r ∈ s.queue.rows, r.id = d.id → r.status ≠ .published
  | _ => True

instance (s : PublisherState) (label : PublisherLabel) : Decidable (NothingPublished s label) := by
  rcases label with _ | _ | _ | _ | _ | _ | _ | _ | _ | _ <;>
    dsimp only [NothingPublished] <;> infer_instance

/-! ## The rules of a batch -/

/-- What a batch has done with a decision. -/
inductive Holding where
  | outside
  | held
  | published
  | resolved

/-- The batch writes only to what it holds, and ends when it holds nothing. -/
def holding : BatchRules Holding where
  mayWrite _ x := x = .held
  write statement _ :=
    match statement with
    | .markPublished .. => .published
    | .release .. | .markFailed .. => .resolved
  maySubmit _ _ := True
  submits _ _ := True
  submitted _ x := x
  mayLookUp g batch := ∀ d ∈ batch, g d.id = .held ∨ g d.id = .published
  finds g batch _ answer := defers answer = true → ∀ d ∈ batch, g d.id = .held
  found _ _ x := x
  waiting _ _ x := x = .held
  clean _ x := x = .held
  confirmed _ x := x = .published
  settled x := x ≠ .held
  ended x := x ≠ .held

theorem holding_sound (options : PublisherOptions) : holding.Sound options where
  settled_ended h := h
  confirmed_settled h hheld := nomatch h.symm.trans hheld
  clean_waiting h := h
  waiting_nil h := h
  maySubmit _ _ _ := trivial
  submitted_ok h _ := ⟨h, nofun⟩
  submitted_tooLarge _ _ h := h
  submitted_retry _ _ _ h _ _ _ := ⟨h, fun _ => h⟩
  clean_failed h _ _ := h
  clean_release h _ _ _ := h
  write_failed _ _ _ := nofun
  write_release _ _ _ _ _ := nofun
  mayLookUp h := h
  found_settled h := h
  found_confirmed h := h
  found_defers hfinds hdefers hd _ _ _ _ := ⟨hfinds hdefers _ hd, fun _ _ => hfinds hdefers _ hd⟩
  found_success _ _ h _ _ := ⟨h, rfl⟩
  found_waiting _ h _ := h

/-! ## The invariant -/

/-- The rows of what a batch holds are in flight, the rows of what it has published are published,
and their feeds are feeds of the batch. -/
structure Backed (rows : List QueueRow) (feeds : List String) (g : Nat → Holding) : Prop where
  held : ∀ id, g id = .held → ∃ r ∈ rows, r.id = id ∧ r.status = .inflight ∧ r.feed ∈ feeds
  published : ∀ id, g id = .published →
    ∃ r ∈ rows, r.id = id ∧ r.status = .published ∧ r.feed ∈ feeds

/-- Every batch in flight follows the protocol from something that the queue backs. -/
structure PublishedInv (s : PublisherState) : Prop where
  pool : PoolSound s
  tasks : ∀ t ∈ s.tasks, ∃ g, t.program.Follows holding.protocol g ∧ Backed s.queue.rows t.feeds g

variable {options : PublisherOptions} {s s' : PublisherState} {label : PublisherLabel}
  {rows rows' : List QueueRow} {feeds : List String} {g : Nat → Holding}

theorem Backed.of_kept (h : Backed rows feeds g)
    (hkept : ∀ r ∈ rows, r.status = .inflight ∨ r.status = .published → r.feed ∈ feeds →
      r ∈ rows') : Backed rows' feeds g := by
  constructor
  · intro id hid
    obtain ⟨r, hr, hid, hstat, hfeed⟩ := h.held id hid
    exact ⟨r, hkept r hr (.inl hstat) hfeed, hid, hstat, hfeed⟩
  · intro id hid
    obtain ⟨r, hr, hid, hstat, hfeed⟩ := h.published id hid
    exact ⟨r, hkept r hr (.inr hstat) hfeed, hid, hstat, hfeed⟩

/-- The feed of a row that a batch holds. -/
theorem Backed.feed_mem (h : Backed rows feeds g) (hkey : UniqueKey (·.id) rows) {r : QueueRow}
    (hr : r ∈ rows) (hid : g r.id = .held) : r.status = .inflight ∧ r.feed ∈ feeds := by
  obtain ⟨r', hr', heq, hstat, hfeed⟩ := h.held r.id hid
  rw [← hkey.eq hr' hr heq]
  exact ⟨hstat, hfeed⟩

/-- A statement of a batch about what it holds. -/
theorem Backed.execute {queue : PublishQueue} (h : Backed queue.rows feeds g)
    {statement : QueueStatement} {now : ℚ} (hmay : ∀ id ∈ statement.ids, g id = .held) :
    Backed (queue.execute statement now).rows feeds
      (putStages g statement.ids (holding.write statement)) := by
  constructor
  · intro id hid
    by_cases hin : id ∈ statement.ids
    · rw [putStages_of_mem hin] at hid
      cases statement with
      | markPublished | release | markFailed => cases hid
    · rw [putStages_of_notMem hin] at hid
      obtain ⟨r, hr, rfl, hstat, hfeed⟩ := h.held id hid
      exact ⟨r, mem_execute_of_notMem hr hin, rfl, hstat, hfeed⟩
  · intro id hid
    by_cases hin : id ∈ statement.ids
    · rw [putStages_of_mem hin] at hid
      obtain ⟨r, hr, rfl, -, hfeed⟩ := h.held id (hmay id hin)
      cases statement with
      | markPublished => exact ⟨_, mem_execute_of_mem hr hin, rfl, rfl, hfeed⟩
      | release | markFailed => cases hid
    · rw [putStages_of_notMem hin] at hid
      obtain ⟨r, hr, rfl, hstat, hfeed⟩ := h.published id hid
      exact ⟨r, mem_execute_of_notMem hr hin, rfl, hstat, hfeed⟩

/-- What the pool holds after one of its batches has changed. -/
theorem PublishedInv.of_set (h : PublishedInv s) {i : Nat} {t t' : Task} (hi : s.tasks[i]? = some t)
    (hfeeds : t'.feeds = t.feeds) (hfol : t'.program.Follows holding.protocol g)
    (hbacked : Backed rows' t.feeds g) (hkept : ∀ r ∈ s.queue.rows, r.feed ∉ t.feeds → r ∈ rows') :
    ∀ u ∈ s.tasks.set i t', ∃ g, u.program.Follows holding.protocol g ∧ Backed rows' u.feeds g := by
  intro u hu
  rcases mem_set_cases hu with rfl | ⟨j, hj, hget⟩
  · exact ⟨g, hfol, by rw [hfeeds]; exact hbacked⟩
  obtain ⟨g', hfol', hbacked'⟩ := h.tasks u (mem_of_getElem? hget)
  refine ⟨g', hfol', hbacked'.of_kept ?_⟩
  intro r hr _ hfeed
  exact hkept r hr fun hin => h.pool.disjoint hj hi hget hin hfeed

/-- A new batch holds the rows that were claimed for it. -/
def claimedHolding (batch : List PendingDecision) : Nat → Holding := fun id =>
  if id ∈ idsOf batch then .held else .outside

theorem claimed_backed {excludeFeeds : List String} {taken : List QueueRow}
    {batch : List PendingDecision} (h : ClaimSpec rows excludeFeeds taken rows' batch) :
    Backed rows' (batch.map (·.feed)).eraseDups (claimedHolding batch) := by
  constructor
  · intro id hid
    simp only [claimedHolding] at hid
    split at hid
    · rename_i hin
      obtain ⟨d, hd, rfl⟩ := mem_idsOf.1 hin
      obtain ⟨r, hr, rfl⟩ := (h.mem_batch d).1 hd
      refine ⟨r.claimed, (h.mem_rows _).2 ⟨r, (h.eligible r hr).1, .inl ⟨hr, rfl⟩⟩, rfl, rfl, ?_⟩
      rw [mem_eraseDups]
      exact mem_map_of_mem (f := fun d : PendingDecision => d.feed) hd
    · cases hid
  · intro id hid
    simp only [claimedHolding] at hid
    split at hid <;> cases hid

/-- The program of a new batch. -/
theorem claimed_follows {batch : List PendingDecision}
    (hsort : batch.Pairwise fun a b => a.id < b.id) :
    (process options batch.length batch).Follows holding.protocol (claimedHolding batch) := by
  refine process_follows (holding_sound options) le_rfl (pairwise_map.2 hsort) ?_ ?_
  · intro e he hheld
    rw [claimedHolding, if_neg he] at hheld
    cases hheld
  · exact fun d hd => if_pos (mem_idsOf_of_mem hd)

theorem PublishedInv.start : PublishedInv .start where
  pool := ⟨nodup_nil, (fun _ hr => nomatch hr), List.Pairwise.nil⟩
  tasks _ ht := nomatch ht

/-- A step keeps the invariant, and leaves published rows as they are. -/
theorem PublishedInv.step (h : PublishedInv s) (hcond : NothingPublished s label)
    (hmove : PublisherMove options s label s') :
    PublishedInv s' ∧ ∀ r ∈ s.queue.rows, r.status = .published → r ∈ s'.queue.rows := by
  have hpool := h.pool.step hmove
  -- What a task that is answered was backed by.
  have hask : ∀ {i : Nat} {t : Task}, s.tasks[i]? = some t →
      ∃ g, t.program.Follows holding.protocol g ∧ Backed s.queue.rows t.feeds g :=
    fun hi => h.tasks _ (mem_of_getElem? hi)
  cases hmove with
  | enqueue =>
    refine ⟨⟨hpool, ?_⟩, fun r hr _ => mem_append_left _ hr⟩
    intro t ht
    obtain ⟨g, hfol, hbacked⟩ := h.tasks t ht
    exact ⟨g, hfol, hbacked.of_kept fun r hr _ _ => mem_append_left _ hr⟩
  | duplicate | land => exact ⟨⟨hpool, h.tasks⟩, fun r hr _ => hr⟩
  | idle => exact ⟨h, fun r hr _ => hr⟩
  | claim hclaim =>
    obtain ⟨taken, hspec⟩ := claim_spec h.pool.key hclaim
    refine ⟨⟨hpool, ?_⟩, ?_⟩
    · intro t ht
      rcases mem_snoc.1 ht with ht | rfl
      · obtain ⟨g, hfol, hbacked⟩ := h.tasks t ht
        refine ⟨g, hfol, hbacked.of_kept ?_⟩
        rintro r hr (hstat | hstat) _ <;> exact hspec.mem_of_status hr (by rw [hstat]; decide)
      · exact ⟨_, claimed_follows hspec.sorted, claimed_backed hspec⟩
    · intro r hr hstat
      exact hspec.mem_of_status hr (by rw [hstat]; decide)
  | send htask =>
    obtain ⟨g, hfol, hbacked⟩ := hask htask
    exact ⟨⟨hpool, h.of_set htask rfl hfol hbacked fun r hr _ => hr⟩, fun r hr _ => hr⟩
  | submitted htask =>
    obtain ⟨g, hfol, hbacked⟩ := hask htask
    refine ⟨⟨hpool, h.of_set htask rfl (hfol.answer ⟨trivial, ?_⟩) hbacked fun r hr _ => hr⟩,
      fun r hr _ => hr⟩
    exact (putStages_same fun _ => rfl).symm
  | drawn htask =>
    obtain ⟨g, hfol, hbacked⟩ := hask htask
    exact ⟨⟨hpool, h.of_set htask rfl (hfol.answer rfl) hbacked fun r hr _ => hr⟩,
      fun r hr _ => hr⟩
  | lookedUp htask =>
    obtain ⟨g, hfol, hbacked⟩ := hask htask
    refine ⟨⟨hpool, h.of_set htask rfl (hfol.answer ⟨?_, rfl⟩) hbacked fun r hr _ => hr⟩,
      fun r hr _ => hr⟩
    intro hdefers d hd
    refine (hfol.1 d hd).resolve_right ?_
    intro hpub
    obtain ⟨r, hr, hid, hstat, -⟩ := hbacked.published d.id hpub
    refine hcond hdefers d ?_ r hr hid hstat
    simp only [PublisherState.reconciling, htask]
    exact hd
  | executed htask =>
    obtain ⟨g, hfol, hbacked⟩ := hask htask
    refine ⟨⟨hpool, h.of_set htask rfl (hfol.answer rfl) (hbacked.execute hfol.1) ?_⟩, ?_⟩
    · intro r hr hfeed
      refine mem_execute_of_notMem hr ?_
      intro hin
      exact hfeed (hbacked.feed_mem h.pool.key hr (hfol.1 _ hin)).2
    · intro r hr hstat
      refine mem_execute_of_notMem hr ?_
      intro hin
      rw [(hbacked.feed_mem h.pool.key hr (hfol.1 _ hin)).1] at hstat
      cases hstat
  | finished => exact ⟨⟨hpool, fun t ht => h.tasks t (mem_of_mem_eraseIdx ht)⟩, fun r hr _ => hr⟩
  | restart =>
    refine ⟨⟨hpool, fun _ ht => nomatch ht⟩, ?_⟩
    intro r hr hstat
    exact mem_updateWhere.2 ⟨r, hr, .inr ⟨by rw [hstat]; rfl, rfl⟩⟩

theorem PublishedInv.run (h : PublishedInv s) (hrun : PublisherRun options NothingPublished s s') :
    PublishedInv s' ∧ ∀ r ∈ s.queue.rows, r.status = .published → r ∈ s'.queue.rows := by
  refine hrun.invariant (fun t => PublishedInv t ∧
    ∀ r ∈ s.queue.rows, r.status = .published → r ∈ t.queue.rows) ⟨h, fun r hr _ => hr⟩ ?_
  rintro t label t' ⟨ht, hkept⟩ hcond hstep
  obtain ⟨ht', hstepKept⟩ := ht.step hcond (publisherStep_move hstep)
  exact ⟨ht', fun r hr hstat => hstepKept r (hkept r hr hstat) hstat⟩

/-! ## Main results -/

/-- In a run in which no lookup defers a batch with published decisions, the row of a published
decision never changes again. -/
theorem published_final (options : PublisherOptions) {s s' : PublisherState}
    (hstart : PublisherRun options NothingPublished .start s)
    (hrun : PublisherRun options NothingPublished s s') {r : QueueRow} (hr : r ∈ s.queue.rows)
    (hstatus : r.status = .published) :
    r ∈ s'.queue.rows ∧ ∀ r' ∈ s'.queue.rows, r'.id = r.id → r' = r := by
  obtain ⟨hinv, -⟩ := PublishedInv.start.run hstart
  obtain ⟨hinv', hkept⟩ := hinv.run hrun
  have hmem := hkept r hr hstatus
  exact ⟨hmem, fun r' hr' hid => hinv'.pool.key.eq hr' hmem hid⟩

/-- A lookup that is still pending for one decision, while another one is published. -/
def stillPendingElsewhere : List PublisherLabel × List PublisherLabel :=
  ([.enqueue ⟨"quake:1", "quake", 71, 1⟩ 0, .claim [] 0, .send 0 "A",
    .submitted 0 (.ok ⟨"A", some 7⟩), .executed 0 0, .finished 0],
   [.enqueue ⟨"flood:1", "flood", 12, 0⟩ 0, .claim [] 0, .send 0 "B",
    .submitted 0 (.error (.ambiguous "timeout" "B")), .drawn 0 0, .executed 0 0, .finished 0,
    .claim [] 1000, .lookedUp 0 (.ok .pending), .drawn 0 0, .executed 0 1000])

theorem published_final_stillPending :
    ∃ s s', PublisherRun defaultPublisherOptions NothingPublished .start s ∧
      PublisherRun defaultPublisherOptions NothingPublished s s' ∧
      s'.queue.rows.map (fun r => (r.id, r.status)) = [(1, .published), (2, .pending)] ∧
      ∃ r ∈ s.queue.rows, r.status = .published ∧ r ∈ s'.queue.rows ∧
        ∀ r' ∈ s'.queue.rows, r'.id = r.id → r' = r :=
  ⟨_, _, .performed stillPendingElsewhere.1 (by decide +kernel),
    .performed stillPendingElsewhere.2 (by decide +kernel), by decide +kernel,
    _, head_mem (by decide +kernel), by decide +kernel,
    published_final _ (.performed _ _) (.performed _ _) (head_mem _)
      (by decide +kernel)⟩

/-- In some run, a published decision gets another status. -/
def Reverts (options : PublisherOptions) (status : QueueStatus) : Prop :=
  ∃ s s', PublisherRun options (fun _ _ => True) .start s ∧
    PublisherRun options (fun _ _ => True) s s' ∧
    ∃ r ∈ s.queue.rows, ∃ r' ∈ s'.queue.rows, r'.id = r.id ∧ r.status = .published ∧
      r'.status = status

/-- Two decisions of different feeds with ambiguous submissions are reconciled in one batch; the
transaction of the first one is found on chain. -/
def confirmedByLookup : List PublisherLabel :=
  [.enqueue ⟨"quake:1", "quake", 71, 1⟩ 0, .claim [] 0, .send 0 "A",
   .submitted 0 (.error (.ambiguous "timeout" "A")), .drawn 0 0, .executed 0 0, .finished 0,
   .enqueue ⟨"flood:1", "flood", 12, 0⟩ 0, .claim [] 0, .send 0 "B",
   .submitted 0 (.error (.ambiguous "timeout" "B")), .drawn 0 0, .executed 0 0, .finished 0,
   .land "A", .claim [] 1000, .lookedUp 0 (.ok (.success (some 7))), .executed 0 1000]

/-- If the lookup for the second decision is pending, the first one is released for another attempt;
if it throws at the last attempt, the first one is dead-lettered. -/
theorem published_reverts :
    Reverts defaultPublisherOptions .pending ∧
      Reverts { defaultPublisherOptions with maxAttempts := 2 } .failed :=
  ⟨⟨_, _, .performed confirmedByLookup (by decide +kernel), .performed
      [.lookedUp 0 (.ok .pending), .drawn 0 0, .executed 0 1000] (by decide +kernel),
      by decide +kernel⟩,
    ⟨_, _, .performed confirmedByLookup (by decide +kernel), .performed
      [.lookedUp 0 (.error "fetch failed"), .executed 0 1000] (by decide +kernel),
      by decide +kernel⟩⟩

end Refract.Oracle
