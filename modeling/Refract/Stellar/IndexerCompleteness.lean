import Refract.Stellar.EventIndexer

/-!
# What lies before the cursor has been handled

A poll or backfill goes through the events in order from where it starts, so what it has passed is
handled up to there; whether everything is handled depends on where it starts. A backfill of a range
behind the cursor saves the cursor at the end of its range and skips what lies between
(`backfill_jumps_over_event`). A poll that processes no event saves no cursor, so the next one
starts at the tip again and the events closed in between are skipped (`event_between_quiet_polls`).

Where no pass starts behind a gap (`StartsWithoutGap`), every event from the start of the first poll
up to the saved cursor is handled and recorded (`handled_before_cursor`), and every event from there
up to the tip at which a completed poll started (`handled_once_polled`).
-/

namespace Refract.Stellar.Indexer

open Lib List Pass Option

/-- The event has been dispatched and recorded. -/
def Done (s : IndexerState) (e : ChainEvent) : Prop :=
  e ∈ s.handled ∧ hasProcessed s e.id = true

/-- A poll without a saved cursor finds no event between the start of the first poll and its own
start; a backfill starts at the first poll's start, at the saved cursor, or before one of them. -/
def StartsWithoutGap (s : IndexerState) : IndexerLabel → Prop
  | .poll => s.cursor.lastLedger = 0 →
      ∀ first ∈ s.firstStart, ∀ e ∈ s.log, first ≤ e.ledger → s.tip ≤ e.ledger
  | .backfill fromLedger _ =>
    ∀ first ∈ s.firstStart, fromLedger ≤ first ∨ fromLedger ≤ s.cursor.lastLedger
  | _ => True

instance (s : IndexerState) (l : IndexerLabel) : Decidable (StartsWithoutGap s l) := by
  unfold StartsWithoutGap
  split <;> infer_instance

/-! ## Positions -/

variable {last : ChainEvent} {e x : ChainEvent} {page : List ChainEvent}

theorem ledger_le_of_position_le (h : e.position ≤ x.position) : e.ledger ≤ x.ledger :=
  Prod.Lex.monotone_fst _ _ h

/-- The events of a page do not lie behind its last one. -/
theorem position_le_last (hord : page.Pairwise fun a b => a.position < b.position)
    (hlast : page.getLast? = some last) (hx : x ∈ page) : x.position ≤ last.position := by
  obtain ⟨front, rfl⟩ := getLast?_eq_some_iff.1 hlast
  rcases mem_snoc.1 hx with hfront | rfl
  · exact ((pairwise_append.1 hord).2.2 x hfront last mem_cons_self).le
  · rfl

/-- A page is the beginning of what it is taken from: it has everything up to its last event. -/
theorem mem_take_of_le {rest : List ChainEvent} {size : Nat}
    (hord : rest.Pairwise fun a b => a.position < b.position)
    (hlast : (rest.take size).getLast? = some last) (he : e ∈ rest)
    (hle : e.position ≤ last.position) : e ∈ rest.take size := by
  have hsplit := take_append_drop size rest
  rw [← hsplit] at he hord
  rcases mem_append.1 he with htake | hdrop
  · exact htake
  have hmem : last ∈ rest.take size := mem_of_getLast? hlast
  have hlt := (pairwise_append.1 hord).2.2 last hmem e hdrop
  exact absurd hlt (not_lt.2 hle)

/-- What a poll skips lies at or before the cursor. -/
theorem position_le_of_skip {cursor : IndexerCursor}
    (h : shouldSkipAlreadySeen e cursor = true) : e.position ≤ cursor.position := by
  simp only [shouldSkipAlreadySeen] at h
  split at h
  · cases h
  split at h
  · rename_i hlt
    exact Prod.Lex.toLex_le_toLex.2 (.inl hlt)
  rename_i hge
  split at h
  · cases h
  rename_i hle
  exact Prod.Lex.toLex_le_toLex.2
    (.inr ⟨Nat.le_antisymm (Nat.not_lt.1 hle) (Nat.not_lt.1 hge), of_decide_eq_true h⟩)

/-! ## The invariant -/

/-- The first ledger whose events count: the start of the first poll, or of the backfill if no poll
has run. -/
def low (s : IndexerState) (pass : Pass) : Nat :=
  s.firstStart.getD <| match pass.kind with
    | .poll => 0
    | .backfill fromLedger _ => fromLedger

/-- The event is not behind the range of the pass. -/
def Pass.reaches (pass : Pass) (e : ChainEvent) : Prop :=
  match pass.kind with
  | .poll => True
  | .backfill _ toLedger => e.ledger ≤ toLedger

/-- The event lies before what the pass requests. -/
def Pass.passed (pass : Pass) (e : ChainEvent) : Prop :=
  match pass.pageCursor with
  | none => e.ledger < pass.startLedger
  | some cursor => e.position ≤ cursor

variable {pass : Pass}

theorem mem_eventsFrom {log : List ChainEvent} :
    e ∈ eventsFrom log pass.startLedger pass.pageCursor ↔ e ∈ log ∧ ¬pass.passed e := by
  cases hcur : pass.pageCursor with
  | none | some => simp [eventsFrom, passed, hcur]

/-- Before a request: what lies before it is done, what is closed later lies behind it, and it gets
nothing from before the range of a backfill. -/
structure FetchValid (s : IndexerState) (pass : Pass) : Prop where
  done : ∀ e ∈ s.log, low s pass ≤ e.ledger → pass.passed e → Done s e
  lower : ∀ fromLedger toLedger, pass.kind = .backfill fromLedger toLedger →
    ∀ e : ChainEvent, ¬pass.passed e → fromLedger ≤ e.ledger
  ahead : ∀ e : ChainEvent, s.tip < e.ledger → low s pass ≤ e.ledger → ¬pass.passed e

/-- Within a page, with the events of `pending` still to be recorded and saved: what lies up to the
end of the page and in the range of the pass is done or pending. -/
structure PageValid (config : IndexerConfig) (s : IndexerState) (pass : Pass)
    (page pending : List ChainEvent) (last : ChainEvent) : Prop where
  isLast : page.getLast? = some last
  inLog : ∀ x ∈ page, x ∈ s.log
  ordered : page.Pairwise fun a b => a.position < b.position
  suffix : pending <:+ page
  lower : ∀ fromLedger toLedger, pass.kind = .backfill fromLedger toLedger →
    ∀ x ∈ page, fromLedger ≤ x.ledger
  done : ∀ e ∈ s.log, low s pass ≤ e.ledger → pass.reaches e → e.position ≤ last.position →
    Done s e ∨ e ∈ pending
  short : page.length < config.pageLimit → ∀ e ∈ s.log, low s pass ≤ e.ledger →
    e.ledger ≤ pass.startTip → Done s e ∨ e.position ≤ last.position

def PhaseValid (config : IndexerConfig) (s : IndexerState) (pass : Pass) : PassPhase → Prop
  | .fetching => FetchValid s pass
  | .draining page todo => ∃ last, PageValid config s pass page todo last
  | .recording page e todo =>
    (∃ last, PageValid config s pass page (e :: todo) last) ∧ pass.skips e = false ∧
      e ∈ s.handled
  | .saving page e todo =>
    (∃ last, PageValid config s pass page (e :: todo) last) ∧ pass.skips e = false ∧ Done s e

structure PassValid (config : IndexerConfig) (s : IndexerState) (pass : Pass) : Prop where
  tip : pass.startTip ≤ s.tip
  poll : pass.kind = .poll → s.firstStart.isSome = true ∧ pass.resume = s.cursor
  phase : PhaseValid config s pass pass.phase

structure Complete (config : IndexerConfig) (s : IndexerState) : Prop where
  ordered : s.log.Pairwise fun a b => a.position < b.position
  ids : UniqueKey ChainEvent.id s.log
  closed : ∀ e ∈ s.log, 0 < e.ledger ∧ e.ledger ≤ s.tip
  handledLog : ∀ e ∈ s.handled, e ∈ s.log
  recorded : ∀ row ∈ s.processed, ∃ e ∈ s.handled, e.id = row.eventId
  cursorTip : s.cursor.lastLedger ≤ s.tip
  firstTip : ∀ first ∈ s.firstStart, first ≤ s.tip
  completedTip : ∀ tip ∈ s.completed, tip ≤ s.tip
  cursorDone : ∀ e ∈ s.log, s.firstStart.getD s.cursor.lastLedger ≤ e.ledger →
    e.position ≤ s.cursor.position → Done s e
  polledFirst : ∀ tip ∈ s.completed, s.firstStart.isSome = true
  polledDone : ∀ first ∈ s.firstStart, ∀ tip ∈ s.completed, ∀ e ∈ s.log, first ≤ e.ledger →
    e.ledger ≤ tip → Done s e
  pass : ∀ pass, s.pass = some pass → PassValid config s pass

theorem Complete.initial (config : IndexerConfig) : Complete config .initial := by
  refine ⟨List.Pairwise.nil, nodup_nil, ?_, ?_, ?_, Nat.le_refl _, ?_, ?_, ?_, ?_, ?_, ?_⟩
  all_goals
    intro x hx
    cases hx

variable {config : IndexerConfig} {s : IndexerState} {e : ChainEvent}

/-- A recorded event of the chain has been handled. -/
theorem Complete.done_of_hasProcessed (h : Complete config s) (he : e ∈ s.log)
    (hproc : hasProcessed s e.id = true) : Done s e := by
  refine ⟨?_, hproc⟩
  obtain ⟨row, hrow, hid⟩ := any_eq_true.1 hproc
  obtain ⟨x, hx, hxid⟩ := h.recorded row hrow
  rw [of_decide_eq_true hid] at hxid
  rw [← h.ids.eq (h.handledLog x hx) he hxid]
  exact hx

/-- What a pass does not skip lies in its range. -/
theorem reaches_of_not_skips (h : pass.skips e = false) : pass.reaches e := by
  cases hkind : pass.kind with
  | poll => simp only [reaches, hkind]
  | backfill =>
    simp only [skips, hkind, Bool.not_eq_false', decide_eq_true_eq] at h
    simp only [reaches, hkind]
    exact h.2

theorem reaches_of_le {x : ChainEvent} (hx : pass.reaches x) (hle : e.ledger ≤ x.ledger) :
    pass.reaches e := by
  cases hkind : pass.kind with
  | poll => simp only [reaches, hkind]
  | backfill =>
    simp only [reaches, hkind] at hx ⊢
    exact hle.trans hx

variable {s' : IndexerState} {pass pass' : Pass} {page todo pending : List ChainEvent}
  {x last : ChainEvent}

/-- More events may be done, and the pass goes on with the same range. -/
theorem PageValid.transport (h : PageValid config s pass page pending last)
    (hlog : s'.log = s.log) (hfst : s'.firstStart = s.firstStart)
    (hkind : pass'.kind = pass.kind) (htip : pass'.startTip = pass.startTip)
    (hdone : ∀ e, Done s e → Done s' e) : PageValid config s' pass' page pending last := by
  cases s
  cases pass
  cases hlog
  cases hfst
  cases hkind
  cases htip
  exact ⟨h.isLast, h.inLog, h.ordered, h.suffix, h.lower,
    fun e he hle hr hpos => (h.done e he hle hr hpos).imp_left (hdone e),
    fun hshort e he hle hstart => (h.short hshort e he hle hstart).imp_left (hdone e)⟩

/-- The first pending event is done, or the pass skips it. -/
theorem PageValid.pop (h : PageValid config s pass page (x :: todo) last)
    (hx : low s pass ≤ x.ledger → pass.reaches x → Done s x) :
    PageValid config s pass page todo last := by
  refine { h with suffix := (suffix_cons x todo).trans h.suffix, done := ?_ }
  intro e he hle hr hpos
  rcases h.done e he hle hr hpos with hdone | hmem
  · exact .inl hdone
  rcases mem_cons.1 hmem with rfl | htodo
  · exact .inl (hx hle hr)
  · exact .inr htodo

/-- What lies before the first pending event is done. -/
theorem PageValid.done_before (h : PageValid config s pass page (x :: todo) last)
    (hx : pass.reaches x) (hxdone : Done s x) (he : e ∈ s.log) (hle : low s pass ≤ e.ledger)
    (hpos : e.position ≤ x.position) : Done s e := by
  have hmem : x ∈ page := h.suffix.subset mem_cons_self
  have hlast := hpos.trans (position_le_last h.ordered h.isLast hmem)
  rcases h.done e he hle (reaches_of_le hx (ledger_le_of_position_le hpos)) hlast with hdone | hmem
  · exact hdone
  rcases mem_cons.1 hmem with rfl | htodo
  · exact hxdone
  have hord := h.ordered.sublist h.suffix.sublist
  have hlt := (pairwise_cons.1 hord).1 e htodo
  exact absurd hpos (not_le.2 hlt)

/-- A page that has been fetched: the request gets everything from where it starts. -/
theorem FetchValid.pageValid (h : FetchValid s pass)
    (hord : s.log.Pairwise fun a b => a.position < b.position)
    (hpage : page = (eventsFrom s.log pass.startLedger pass.pageCursor).take config.pageSize)
    (hlast : page.getLast? = some last) : PageValid config s pass page page last := by
  generalize hrest : eventsFrom s.log pass.startLedger pass.pageCursor = rest at hpage
  have hmem : ∀ e, e ∈ rest ↔ e ∈ s.log ∧ ¬pass.passed e := by
    intro e
    rw [← hrest]
    exact mem_eventsFrom
  have hsub : rest.Sublist s.log := by
    rw [← hrest]
    cases hcur : pass.pageCursor with
    | none | some => exact filter_sublist
  have hrestOrdered := hord.sublist hsub
  have hpageRest : ∀ x ∈ page, x ∈ rest := by
    intro x hx
    rw [hpage] at hx
    exact mem_of_mem_take hx
  refine ⟨hlast, ?_, ?_, suffix_refl _, ?_, ?_, ?_⟩
  · exact fun x hx => ((hmem x).1 (hpageRest x hx)).1
  · rw [hpage]
    exact hrestOrdered.sublist (take_sublist _ _)
  · exact fun fromLedger toLedger hkind x hx =>
      h.lower fromLedger toLedger hkind x ((hmem x).1 (hpageRest x hx)).2
  · intro e he hle _ hpos
    by_cases hpassed : pass.passed e
    · exact .inl (h.done e he hle hpassed)
    right
    rw [hpage] at hlast ⊢
    exact mem_take_of_le hrestOrdered hlast ((hmem e).2 ⟨he, hpassed⟩) hpos
  · -- a page that is not full is all there is
    intro hshort e he hle _
    by_cases hpassed : pass.passed e
    · exact .inl (h.done e he hle hpassed)
    right
    have hall : page = rest := by
      rw [hpage] at hshort ⊢
      refine take_of_length_le ?_
      simp only [IndexerConfig.pageSize, length_take] at hshort ⊢
      split at hshort
      · omega
      rename_i hlimit
      rw [if_neg hlimit]
      omega
    rw [← hall] at hrestOrdered hmem
    exact position_le_last hrestOrdered hlast ((hmem e).2 ⟨he, hpassed⟩)

/-! ## Steps -/

/-- A step that only adds to what is handled and recorded, and moves the pass on. -/
theorem Complete.grow (h : Complete config s) (htip : s'.tip = s.tip) (hlog : s'.log = s.log)
    (hcur : s'.cursor = s.cursor) (hfst : s'.firstStart = s.firstStart)
    (hcomp : s'.completed = s.completed) (hhandled : ∀ e ∈ s'.handled, e ∈ s.log)
    (hrec : ∀ row ∈ s'.processed, ∃ e ∈ s'.handled, e.id = row.eventId)
    (hdone : ∀ e, Done s e → Done s' e)
    (hpass : ∀ pass, s'.pass = some pass → PassValid config s' pass) : Complete config s' := by
  cases s
  cases htip
  cases hlog
  cases hcur
  cases hfst
  cases hcomp
  exact ⟨h.ordered, h.ids, h.closed, hhandled, hrec, h.cursorTip, h.firstTip, h.completedTip,
    fun e he hle hpos => hdone e (h.cursorDone e he hle hpos), h.polledFirst,
    fun first hf tip ht e he hle hend => hdone e (h.polledDone first hf tip ht e he hle hend),
    hpass⟩

/-- A pass moves on to a phase that is valid. -/
theorem Complete.setPass (h : Complete config s)
    (hpass : PassValid config { s with pass := some pass } pass) :
    Complete config { s with pass := some pass } := by
  refine h.grow rfl rfl rfl rfl rfl h.handledLog h.recorded (fun _ => id) ?_
  intro pass' hpass'
  cases hpass'
  exact hpass

/-- A pass that fails is forgotten. -/
theorem Complete.dropPass (h : Complete config s) : Complete config { s with pass := none } := by
  refine h.grow rfl rfl rfl rfl rfl h.handledLog h.recorded (fun _ => id) ?_
  intro pass hpass
  cases hpass

/-- The end of a pass; if it is a poll then everything up to the tip at its start is done. -/
theorem Complete.finish (h : Complete config s) (hvalid : PassValid config s pass)
    (hdone : pass.kind = .poll → ∀ first ∈ s.firstStart, ∀ e ∈ s.log, first ≤ e.ledger →
      e.ledger ≤ pass.startTip → Done s e) : Complete config (finish s pass) := by
  have hcomp : ∀ tip ∈ (Indexer.finish s pass).completed,
      tip ∈ s.completed ∨ pass.kind = .poll ∧ tip = pass.startTip := by
    intro tip htip
    simp only [Indexer.finish] at htip
    split at htip
    · rename_i hkind
      exact (mem_snoc.1 htip).imp_right fun heq => ⟨hkind, heq⟩
    · exact .inl htip
  refine { h with completedTip := ?_, polledFirst := ?_, polledDone := ?_, pass := ?_ }
  · intro tip htip
    rcases hcomp tip htip with hold | ⟨-, rfl⟩
    · exact h.completedTip tip hold
    · exact hvalid.tip
  · intro tip htip
    rcases hcomp tip htip with hold | ⟨hkind, -⟩
    · exact h.polledFirst tip hold
    · exact (hvalid.poll hkind).1
  · intro first hfst tip htip e he hle hend
    rcases hcomp tip htip with hold | ⟨hkind, rfl⟩
    · exact h.polledDone first hfst tip hold e he hle hend
    · exact hdone hkind first hfst e he hle hend
  · intro pass' hpass'
    cases hpass'

/-- The first ledger that counts for a poll is the start of the first one. -/
theorem low_of_first {first : Nat} (hfst : first ∈ s.firstStart) : low s pass = first := by
  rw [low, mem_def.1 hfst, getD_some]

theorem Complete.fetchPage (h : Complete config s) (hvalid : PassValid config s pass)
    (hfetch : FetchValid s pass) (oldestLedger : Option Nat) :
    Complete config (fetchPage config s pass oldestLedger) := by
  simp only [Indexer.fetchPage]
  split
  · exact h.dropPass
  split
  · -- nothing lies ahead
    rename_i hemp
    have hrest : eventsFrom s.log pass.startLedger pass.pageCursor = [] := by
      rcases take_eq_nil_iff.1 hemp with hsize | hrest
      · simp only [IndexerConfig.pageSize] at hsize
        split at hsize
        · exact absurd hsize config.serverLimit_pos.ne'
        · rename_i hlimit
          exact absurd hsize hlimit
      · exact hrest
    refine h.finish hvalid ?_
    intro _ first hfst e he hle _
    refine hfetch.done e he (by rwa [low_of_first hfst]) ?_
    by_contra hpassed
    have hmem := mem_eventsFrom.2 ⟨he, hpassed⟩
    rw [hrest] at hmem
    cases hmem
  · rename_i hpage
    refine h.setPass ?_
    refine ⟨hvalid.tip, hvalid.poll, ?_⟩
    cases hlast : ((eventsFrom s.log pass.startLedger pass.pageCursor).take
        config.pageSize).getLast? with
    | none => exact absurd (getLast?_eq_none_iff.1 hlast) hpage
    | some last =>
      exact ⟨last, (hfetch.pageValid h.ordered rfl hlast).transport rfl rfl rfl rfl fun _ => id⟩

theorem Complete.turnPage (h : Complete config s) (hvalid : PassValid config s pass)
    (hpage : PageValid config s pass page [] last) :
    Complete config (turnPage config s pass page) := by
  have hdone : ∀ e ∈ s.log, low s pass ≤ e.ledger → pass.reaches e →
      e.position ≤ last.position → Done s e := by
    intro e he hle hr hpos
    rcases hpage.done e he hle hr hpos with hdone | hnone
    · exact hdone
    · cases hnone
  simp only [Indexer.turnPage, hpage.isLast]
  split
  · rename_i hends
    refine h.finish hvalid ?_
    intro hkind first hfst e he hle hend
    have hshort : page.length < config.pageLimit := by
      simpa [endsWith, hkind] using hends
    have hlow : low s pass ≤ e.ledger := by rwa [low_of_first hfst]
    rcases hpage.short hshort e he hlow hend with hd | hpos
    · exact hd
    · exact hdone e he hlow (by simp only [reaches, hkind]) hpos
  · rename_i hends
    have hmem : last ∈ page := mem_of_getLast? hpage.isLast
    have hreaches : pass.reaches last := by
      cases hkind : pass.kind with
      | poll => simp only [reaches, hkind]
      | backfill =>
        simp only [endsWith, hkind, Bool.or_eq_true, decide_eq_true_eq, not_or,
          not_lt] at hends
        simp only [reaches, hkind]
        exact hends.2
    refine h.setPass ?_
    refine ⟨hvalid.tip, hvalid.poll, ?_, ?_, ?_⟩
    · intro e he hle hpassed
      exact hdone e he hle (reaches_of_le hreaches (ledger_le_of_position_le hpassed)) hpassed
    · intro fromLedger toLedger hkind e hpassed
      have hle : last.ledger ≤ e.ledger :=
        ledger_le_of_position_le (not_le.1 hpassed).le
      exact (hpage.lower fromLedger toLedger hkind last hmem).trans hle
    · intro e htip _ hpassed
      have hle : e.ledger ≤ last.ledger := ledger_le_of_position_le hpassed
      have hlast := (h.closed last (hpage.inLog last hmem)).2
      exact absurd (htip.trans_le (hle.trans hlast)) (lt_irrefl _)

namespace Complete

variable (h : Complete config s) (hvalid : PassValid config s pass)
  (hpage : PageValid config s pass page (e :: todo) last)

include h hvalid hpage

theorem beginEvent : Complete config (beginEvent s pass page e todo) := by
  have hmem : e ∈ page := hpage.suffix.subset mem_cons_self
  have hlog : e ∈ s.log := hpage.inLog e hmem
  simp only [Indexer.beginEvent]
  split
  · rename_i hskip
    refine h.setPass ?_
    refine ⟨hvalid.tip, hvalid.poll, last, ?_⟩
    refine (hpage.pop fun hle hr => ?_).transport rfl rfl rfl rfl fun _ => id
    cases hkind : pass.kind with
    | poll =>
      -- a poll skips what is at or before the cursor
      obtain ⟨hfst, hresume⟩ := hvalid.poll hkind
      obtain ⟨first, hfst⟩ := isSome_iff_exists.1 hfst
      simp only [skips, hkind, hresume] at hskip
      refine h.cursorDone e hlog ?_ (position_le_of_skip hskip)
      rw [low_of_first hfst] at hle
      rwa [hfst, getD_some]
    | backfill fromLedger toLedger =>
      have hlower := hpage.lower fromLedger toLedger hkind e hmem
      simp only [reaches, hkind] at hr
      simp [skips, hkind, hlower, hr] at hskip
  · rename_i hskip
    split
    · rename_i hproc
      refine h.setPass ?_
      exact ⟨hvalid.tip, hvalid.poll,
        ⟨last, hpage.transport rfl rfl rfl rfl fun _ => id⟩, eq_false_of_ne_true hskip,
        h.done_of_hasProcessed hlog hproc⟩
    have hdone : ∀ x, Done s x → x ∈ s.handled ++ [e] ∧ hasProcessed s x.id = true :=
      fun x hx => ⟨mem_append_left _ hx.1, hx.2⟩
    refine h.grow rfl rfl rfl rfl rfl ?_ ?_ hdone ?_
    · exact forall_mem_snoc.2 ⟨h.handledLog, hlog⟩
    · intro row hrow
      obtain ⟨x, hx, hid⟩ := h.recorded row hrow
      exact ⟨x, mem_append_left _ hx, hid⟩
    · intro pass' hpass'
      cases hpass'
      exact ⟨hvalid.tip, hvalid.poll,
        ⟨last, hpage.transport rfl rfl rfl rfl hdone⟩, eq_false_of_ne_true hskip,
        mem_append_right _ mem_cons_self⟩

/-- A dispatched event is recorded. -/
theorem record (hskip : pass.skips e = false) (hhandled : e ∈ s.handled) : Complete config { s with
      processed := tryMarkProcessed s e
      pass := some { pass with phase := .saving page e todo } } := by
  have hproc : ∀ id, hasProcessed s id = true ∨ id = e.id →
      (tryMarkProcessed s e).any (fun row => decide (row.eventId = id)) = true := by
    intro id hid
    simp only [tryMarkProcessed]
    split
    · rename_i hold
      rcases hid with hid | rfl
      · exact hid
      · exact hold
    · rw [any_append]
      rcases hid with hid | rfl
      · exact Bool.or_inl hid
      · simp [processedRow]
  have hdone : ∀ x, Done s x → x ∈ s.handled ∧
      (tryMarkProcessed s e).any (fun row => decide (row.eventId = x.id)) = true :=
    fun x hx => ⟨hx.1, hproc x.id (.inl hx.2)⟩
  refine h.grow rfl rfl rfl rfl rfl h.handledLog ?_ hdone ?_
  · intro row hrow
    simp only [tryMarkProcessed] at hrow
    split at hrow
    · exact h.recorded row hrow
    rcases mem_snoc.1 hrow with hold | rfl
    · exact h.recorded row hold
    · exact ⟨e, hhandled, rfl⟩
  · intro pass' hpass'
    cases hpass'
    exact ⟨hvalid.tip, hvalid.poll, ⟨last, hpage.transport rfl rfl rfl rfl hdone⟩, hskip,
      hhandled, hproc e.id (.inr rfl)⟩

/-- The cursor is saved at a recorded event: all that lies before it is done. -/
theorem save (hskip : pass.skips e = false) (hdone : Done s e) : Complete config { s with
      cursor := ⟨e.ledger, e.id⟩
      pass := some { pass with resume := ⟨e.ledger, e.id⟩, phase := .draining page todo } } := by
  have hmem : e ∈ page := hpage.suffix.subset mem_cons_self
  refine { h with cursorTip := ?_, cursorDone := ?_, pass := ?_ }
  · exact (h.closed e (hpage.inLog e hmem)).2
  · intro x hx hle hpos
    refine hpage.done_before (reaches_of_not_skips hskip) hdone hx ?_ hpos
    -- without a first poll the pass is a backfill, and what counts begins at its range
    cases hfst : s.firstStart with
    | some =>
      simp only [hfst, getD_some] at hle
      simp only [low, hfst, getD_some]
      exact hle
    | none =>
      simp only [hfst, getD_none] at hle
      cases hkind : pass.kind with
      | poll =>
        obtain ⟨hsome, -⟩ := hvalid.poll hkind
        rw [hfst] at hsome
        cases hsome
      | backfill fromLedger toLedger =>
        simp only [low, hfst, hkind, getD_none]
        exact (hpage.lower fromLedger toLedger hkind e hmem).trans hle
  · intro pass' hpass'
    cases hpass'
    refine ⟨hvalid.tip, fun hkind => ⟨(hvalid.poll hkind).1, rfl⟩, last, ?_⟩
    exact (hpage.pop fun _ _ => hdone).transport rfl rfl rfl rfl fun _ => id

end Complete

theorem Complete.work (h : Complete config s) (hpass : s.pass = some pass)
    (oldestLedger : Option Nat) : Complete config (work config s pass oldestLedger) := by
  have hvalid := h.pass pass hpass
  have hph := hvalid.phase
  simp only [Indexer.work]
  generalize pass.phase = phase at hph ⊢
  cases phase with
  | fetching => exact h.fetchPage hvalid hph oldestLedger
  | draining _ todo =>
    obtain ⟨last, hpage⟩ := hph
    cases todo with
    | nil => exact h.turnPage hvalid hpage
    | cons => exact h.beginEvent hvalid hpage
  | recording =>
    obtain ⟨⟨last, hpage⟩, hskip, hhandled⟩ := hph
    exact h.record hvalid hpage hskip hhandled
  | saving =>
    obtain ⟨⟨last, hpage⟩, hskip, hdone⟩ := hph
    exact h.save hvalid hpage hskip hdone

/-! ### New ledgers -/

variable {events : List ChainEvent}

/-- The events of a new ledger lie behind everything that a pass has requested so far. -/
theorem PhaseValid.close (hclosed : ∀ e ∈ s.log, 0 < e.ledger ∧ e.ledger ≤ s.tip)
    (hvalid : PassValid config s pass) (hnew : ∀ e ∈ events, e.ledger = s.tip + 1) :
    PhaseValid config { s with tip := s.tip + 1, log := s.log ++ events } pass pass.phase := by
  have hpageValid : ∀ page pending last, PageValid config s pass page pending last →
      PageValid config { s with tip := s.tip + 1, log := s.log ++ events } pass page pending
        last := by
    intro page pending last hpage
    refine ⟨hpage.isLast, fun x hx => mem_append_left _ (hpage.inLog x hx), hpage.ordered,
      hpage.suffix, hpage.lower, ?_, ?_⟩
    · intro e he hle hr hpos
      rcases mem_append.1 he with hold | hadd
      · exact hpage.done e hold hle hr hpos
      have hlast := (hclosed last (hpage.inLog last (mem_of_getLast? hpage.isLast))).2
      have hledger := ledger_le_of_position_le hpos
      have htip := hnew e hadd
      omega
    · intro hshort e he hle hend
      rcases mem_append.1 he with hold | hadd
      · exact hpage.short hshort e hold hle hend
      have hstart := hvalid.tip
      have htip := hnew e hadd
      omega
  have hph := hvalid.phase
  generalize pass.phase = phase at hph ⊢
  cases phase with
  | fetching =>
    refine ⟨?_, hph.lower, fun e htip => hph.ahead e (Nat.lt_of_succ_lt htip)⟩
    intro e he hle hpassed
    rcases mem_append.1 he with hold | hadd
    · exact hph.done e hold hle hpassed
    · exact absurd hpassed (hph.ahead e (by rw [hnew e hadd]; exact Nat.lt_succ_self _) hle)
  | draining page todo =>
    obtain ⟨last, hpage⟩ := hph
    exact ⟨last, hpageValid page todo last hpage⟩
  | recording page | saving page =>
    obtain ⟨⟨last, hpage⟩, hrest⟩ := hph
    exact ⟨⟨last, hpageValid page _ last hpage⟩, hrest⟩

namespace Complete

variable (h : Complete config s)

include h

theorem close (hcloses : closes s events = true) :
    Complete config { s with tip := s.tip + 1, log := s.log ++ events } := by
  obtain ⟨hnew, hord, hids⟩ := of_decide_eq_true hcloses
  refine ⟨hord, hids, ?_, fun e he => mem_append_left _ (h.handledLog e he), h.recorded,
    h.cursorTip.trans (Nat.le_succ _), fun first hf => (h.firstTip first hf).trans (Nat.le_succ _),
    fun tip ht => (h.completedTip tip ht).trans (Nat.le_succ _), ?_, h.polledFirst, ?_, ?_⟩
  · intro e he
    rcases mem_append.1 he with hold | hadd
    · exact ⟨(h.closed e hold).1, (h.closed e hold).2.trans (Nat.le_succ _)⟩
    · rw [hnew e hadd]
      exact ⟨Nat.succ_pos _, Nat.le_refl _⟩
  · intro e he hle hpos
    rcases mem_append.1 he with hold | hadd
    · exact h.cursorDone e hold hle hpos
    have hledger : e.ledger ≤ s.cursor.lastLedger := Prod.Lex.monotone_fst _ _ hpos
    have hcur := h.cursorTip
    have htip := hnew e hadd
    omega
  · intro first hf tip ht e he hle hend
    rcases mem_append.1 he with hold | hadd
    · exact h.polledDone first hf tip ht e hold hle hend
    have hcomp := h.completedTip tip ht
    have htip := hnew e hadd
    omega
  · intro pass hpass
    have hvalid := h.pass pass hpass
    exact ⟨hvalid.tip.trans (Nat.le_succ _), hvalid.poll, PhaseValid.close h.closed hvalid hnew⟩

/-! ### Where a pass starts -/

/-- What lies in a ledger before the saved cursor's is done. -/
theorem done_of_lt_cursor (he : e ∈ s.log) (hle : s.firstStart.getD s.cursor.lastLedger ≤ e.ledger)
    (hlt : e.ledger < s.cursor.lastLedger) : Done s e :=
  h.cursorDone e he hle (Prod.Lex.toLex_le_toLex.2 (.inl hlt))

theorem startPoll (hgap : StartsWithoutGap s .poll) : Complete config { s with
      pass := some ⟨.poll, s.tip, resolveStartLedger s, none, s.cursor, .fetching⟩
      firstStart := s.firstStart.or (some (resolveStartLedger s)) } := by
  have hstart : resolveStartLedger s ≤ s.tip := by
    simp only [resolveStartLedger]
    split
    · exact h.cursorTip
    · exact Nat.le_refl _
  -- what counts from now on begins where it began, or at the start of this first poll
  have hcursorDone : ∀ e ∈ s.log,
      (s.firstStart.or (some (resolveStartLedger s))).getD s.cursor.lastLedger ≤ e.ledger →
        e.position ≤ s.cursor.position → Done s e := by
    intro e he hle hpos
    cases hfst : s.firstStart with
    | some =>
      rw [hfst] at hle
      refine h.cursorDone e he ?_ hpos
      rw [hfst]
      exact hle
    | none =>
      rw [hfst] at hle
      simp only [none_or, getD_some, resolveStartLedger] at hle
      split at hle
      · refine h.cursorDone e he ?_ hpos
        rw [hfst]
        exact hle
      · rename_i hzero
        have hledger : e.ledger ≤ s.cursor.lastLedger := Prod.Lex.monotone_fst _ _ hpos
        have hpositive := (h.closed e he).1
        omega
  refine { h with
    firstTip := ?_, cursorDone := hcursorDone, polledFirst := ?_, polledDone := ?_, pass := ?_ }
  · intro first hf
    cases hfst : s.firstStart with
    | some =>
      rw [hfst] at hf
      cases hf
      exact h.firstTip first hfst
    | none =>
      rw [hfst] at hf
      cases hf
      exact hstart
  · intro tip ht
    rw [isSome_or, h.polledFirst tip ht, Bool.true_or]
  · intro first hf tip ht e he hle hend
    obtain ⟨old, hfst⟩ := isSome_iff_exists.1 (h.polledFirst tip ht)
    rw [hfst] at hf
    cases hf
    exact h.polledDone first hfst tip ht e he hle hend
  · intro pass hpass
    cases hpass
    refine ⟨Nat.le_refl _, fun _ => ⟨by simp, rfl⟩, ?_, ?_, ?_⟩
    · intro e he hle hpassed
      cases hfst : s.firstStart with
      | none =>
        simp only [low, hfst, none_or, getD_some] at hle
        exact absurd hpassed (Nat.not_lt.2 hle)
      | some first =>
        simp only [low, hfst, some_or, getD_some] at hle
        simp only [resolveStartLedger] at hpassed
        split at hpassed
        · refine h.done_of_lt_cursor he ?_ hpassed
          rw [hfst]
          exact hle
        · rename_i hzero
          have hahead := hgap (Nat.eq_zero_of_not_pos hzero) first hfst e he hle
          exact absurd hpassed (Nat.not_lt.2 hahead)
    · intro fromLedger toLedger hkind
      cases hkind
    · intro e htip _ hpassed
      simp only [passed] at htip hpassed
      omega

theorem startBackfill {fromLedger toLedger : Nat}
    (hgap : StartsWithoutGap s (.backfill fromLedger toLedger)) :
    Complete config { s with
      pass := some ⟨.backfill fromLedger toLedger, s.tip, fromLedger, none, s.cursor,
        .fetching⟩ } := by
  -- an event the backfill starts above stands behind a first poll that got past it
  have hseen : ∀ n, s.firstStart.getD fromLedger ≤ n → n < fromLedger →
      s.firstStart.getD s.cursor.lastLedger ≤ n ∧ fromLedger ≤ s.cursor.lastLedger := by
    intro n hle hlt
    cases hfst : s.firstStart with
    | none => exact absurd hlt (Nat.not_lt.2 (by simpa [hfst] using hle))
    | some first =>
      have hle : first ≤ n := by simpa [hfst] using hle
      exact ⟨hle, (hgap first hfst).resolve_left fun hbef => absurd hlt (by omega)⟩
  refine h.setPass ⟨Nat.le_refl _, fun hkind => ?_, ?_, ?_, ?_⟩
  · cases hkind
  · intro e he hle hpassed
    obtain ⟨hle, hcur⟩ := hseen e.ledger hle hpassed
    exact h.done_of_lt_cursor he hle (Nat.lt_of_lt_of_le hpassed hcur)
  · intro f t hkind e hpassed
    cases hkind
    exact Nat.not_lt.1 hpassed
  · intro e htip hle hpassed
    have hcursorTip := h.cursorTip
    have hcur := (hseen e.ledger hle hpassed).2
    simp only [passed] at htip hpassed
    omega

theorem step {l : IndexerLabel} (hgap : StartsWithoutGap s l)
    (hstep : IndexerSteps config s l s') : Complete config s' := by
  cases l with
  | close =>
    obtain ⟨hcloses, ⟨⟩⟩ := ite_none_right_eq_some.1 hstep
    exact h.close hcloses
  | poll =>
    simp only [IndexerSteps, indexerStep] at hstep
    split at hstep
    · cases hstep
    · cases hstep
      exact h.startPoll hgap
  | backfill =>
    simp only [IndexerSteps, indexerStep] at hstep
    split at hstep
    · cases hstep
    split at hstep
    · cases hstep
    · cases hstep
      exact h.startBackfill hgap
  | work oldestLedger =>
    obtain ⟨pass, hpass, rfl⟩ := map_eq_some_iff.1 hstep
    exact h.work hpass oldestLedger
  | fail =>
    obtain ⟨pass, hpass, rfl⟩ := map_eq_some_iff.1 hstep
    exact h.dropPass

end Complete

/-! ## Runs -/

/-- Every event from the start ledger of the first poll up to the saved cursor has been handled and
recorded. -/
theorem handled_before_cursor (config : IndexerConfig) (s : IndexerState)
    (hrun : RunWhere (IndexerSteps config) StartsWithoutGap .initial s) (first : Nat)
    (hfirst : s.firstStart = some first) (e : ChainEvent) (he : e ∈ s.log)
    (hledger : first ≤ e.ledger) (hposition : e.position ≤ s.cursor.position) : Done s e := by
  have h : Complete config s := RunWhere.invariant (Complete config) hrun (Complete.initial config)
    fun _ _ _ ha => ha.step
  refine h.cursorDone e he ?_ hposition
  rw [hfirst]
  exact hledger

/-- An event of the pool contract. -/
def sampleEvent (id : String) (ledger : Nat) : ChainEvent :=
  ⟨id, ledger, "CPOOL", some "ab", [some "capital_provided"]⟩

/-- Pages of one event. -/
def sampleConfig : IndexerConfig := ⟨1, 100, by decide⟩

/-- `n` statements of the pass. -/
def works (n : Nat) : List IndexerLabel := List.replicate n (.work none)

/-- A poll fails after its first event, the next one goes on, and a backfill starts before the
cursor. -/
theorem handled_before_cursor_after_failure :
    ∃ s, RunWhere (IndexerSteps sampleConfig) StartsWithoutGap .initial s ∧
      s.firstStart = some 1 ∧ s.cursor = ⟨2, "c"⟩ ∧ sampleEvent "b" 1 ∈ s.log ∧
      Done s (sampleEvent "b" 1) := by
  refine ⟨_, .performed
    ([.close [sampleEvent "a" 1, sampleEvent "b" 1], .poll] ++ works 4 ++ [.fail, .poll] ++
      works 3 ++ [.close [sampleEvent "c" 2]] ++ works 11 ++ [.backfill 1 2] ++ works 11)
    (by decide +kernel), by decide +kernel, by decide +kernel, by decide +kernel, ?_⟩
  exact handled_before_cursor sampleConfig _ (.performed _ _) 1 (by decide +kernel) _
    (by decide +kernel) (Nat.le_refl _) (by decide +kernel)

/-- A backfill of ledger 3 saves the cursor there; the event of ledger 2 lies before it and has not
been handled. -/
theorem backfill_jumps_over_event :
    ¬∀ s, RunWhere (IndexerSteps sampleConfig) (fun _ _ => True) .initial s → ∀ first,
      s.firstStart = some first → ∀ e ∈ s.log, first ≤ e.ledger →
        e.position ≤ s.cursor.position → Done s e := by
  intro hall
  have hdone := hall _ (.performed
    ([.close [sampleEvent "a" 1], .poll] ++ works 6 ++ [.close [sampleEvent "b" 2],
      .close [sampleEvent "c" 3], .backfill 3 3] ++ works 4) (by decide +kernel)) 1
    (by decide +kernel) (sampleEvent "b" 2) (by decide +kernel) (by decide) (by decide +kernel)
  exact absurd hdone.1 (by decide +kernel)

/-! ### Polls without backfills -/

/-- No backfill, and a poll without a saved cursor finds no event between the start of the first
poll and its own start. -/
def PollsWithoutGap (s : IndexerState) : IndexerLabel → Prop
  | .backfill _ _ => False
  | l => StartsWithoutGap s l

/-- The calls are polls, and none of them fails. -/
def PollsSucceed : IndexerLabel → Prop
  | .backfill _ _ => False
  | .fail => False
  | _ => True

instance (s : IndexerState) (l : IndexerLabel) : Decidable (PollsWithoutGap s l) := by
  unfold PollsWithoutGap
  split <;> infer_instance

instance (l : IndexerLabel) : Decidable (PollsSucceed l) := by
  unfold PollsSucceed
  split <;> infer_instance

/-- Every event from the tip of the first poll on is handled once a poll has completed that started
after the ledger of the event had closed. -/
theorem handled_once_polled (config : IndexerConfig) (s : IndexerState)
    (hrun : RunWhere (IndexerSteps config) PollsWithoutGap .initial s) (first : Nat)
    (hfirst : s.firstStart = some first) (tip : Nat) (htip : tip ∈ s.completed) (e : ChainEvent)
    (he : e ∈ s.log) (hledger : first ≤ e.ledger) (hclosed : e.ledger ≤ tip) : Done s e := by
  have h : Complete config s := by
    refine RunWhere.invariant (Complete config) hrun (Complete.initial config) ?_
    intro a l b ha hl hstep
    refine ha.step ?_ hstep
    cases l with
    | backfill => exact hl.elim
    | close | poll | work | fail => exact hl
  exact h.polledDone first hfirst tip htip e he hledger hclosed

/-- A quiet poll, and one that goes through two pages while another ledger closes. -/
theorem handled_once_polled_over_pages :
    ∃ s, RunWhere (IndexerSteps sampleConfig) PollsWithoutGap .initial s ∧
      s.firstStart = some 1 ∧ s.completed = [1, 2] ∧ sampleEvent "b" 2 ∈ s.log ∧
      Done s (sampleEvent "b" 2) := by
  refine ⟨_, .performed
    ([.close [], .poll] ++ works 1 ++ [.close [sampleEvent "a" 2, sampleEvent "b" 2], .poll] ++
      works 3 ++ [.close []] ++ works 8) (by decide +kernel),
    by decide +kernel, by decide +kernel, by decide +kernel, ?_⟩
  exact handled_once_polled sampleConfig _ (.performed _ _) 1 (by decide +kernel) 2
    (by decide +kernel) _ (by decide +kernel) (by decide) (by decide)

/-- Two polls find nothing: the first one starts at the tip, ledger 1, and the second one at the tip
again, ledger 3. The event of ledger 2 is handled by neither. -/
theorem event_between_quiet_polls :
    ¬∀ s, RunWhere (IndexerSteps sampleConfig) (fun _ l => PollsSucceed l) .initial s → ∀ first,
      s.firstStart = some first → ∀ tip ∈ s.completed, ∀ e ∈ s.log, first ≤ e.ledger →
        e.ledger ≤ tip → Done s e := by
  intro hall
  have hdone := hall _ (.performed
    ([.close [], .poll] ++ works 1 ++ [.close [sampleEvent "a" 2], .close [], .poll] ++ works 1)
    (by decide +kernel)) 1 (by decide +kernel) 3 (by decide +kernel) (sampleEvent "a" 2)
    (by decide +kernel) (by decide) (by decide)
  exact absurd hdone.1 (by decide +kernel)

end Refract.Stellar.Indexer
