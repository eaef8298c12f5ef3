import Refract.Lib.Traces
import Refract.Oracle.PublicationAnswers

/-!
# What the publisher remembers of the chain

The publisher reports a reading as confirmed when it has the value that was last seen confirmed.
That is the value on chain as long as nothing lands unseen: no reading arrives between the landing
of a transaction and its confirmation, no publication gives up on a transaction that has landed, and
no transaction lands after its publication has ended (`Witnessed`). Then each report is about the
value that has landed last (`reported_values_landed`); otherwise the publisher can report a value
that the chain has left behind (`reported_after_unseen`).
-/

namespace Refract.Oracle

open Lib Refract.Stellar OrdMap Option
open Publication
open OraclePublisherState (landed settle)

/-! ## The value on chain -/

/-- The value that an event puts on chain for a coverage type. -/
def landedValue (coverageType : String) : OraclePublisherEvent → Option Int
  | .landed other value => if other = coverageType then some value else none
  | .confirmed _ _ _ | .unconfirmed _ _ => none

/-- The value last landed for a coverage type. -/
def lastLanded (coverageType : String) (history : List OraclePublisherEvent) : Option Int :=
  (history.filterMap (landedValue coverageType)).getLast?

variable {coverageType : String} {e : OraclePublisherEvent}

theorem lastLanded_snoc_of_none (history : List OraclePublisherEvent)
    (he : landedValue coverageType e = none) :
    lastLanded coverageType (history ++ [e]) = lastLanded coverageType history := by
  simp [lastLanded, List.filterMap_append, he]

theorem lastLanded_snoc_landed (coverageType other : String) (value : Int)
    (history : List OraclePublisherEvent) :
    lastLanded coverageType (history ++ [OraclePublisherEvent.landed other value]) =
      if other = coverageType then some value else lastLanded coverageType history := by
  by_cases h : other = coverageType <;> simp [lastLanded, List.filterMap_append, landedValue, h]

/-- A confirmed value is the one on chain. -/
def ReportsLanded : OraclePublisherEvent → List OraclePublisherEvent → Prop
  | .confirmed _ coverageType value, before => lastLanded coverageType before = some value
  | .landed _ _, _ | .unconfirmed _ _, _ => True

/-! ## Nothing lands unseen -/

/-- Before the step: no reading arrives while a transaction of its coverage type has landed and is
not confirmed yet, a publication whose transaction has landed does not give up, and a transaction
succeeds only while its publication runs. -/
def Witnessed (config : OraclePublisherConfig) (s : OraclePublisherState) :
    OraclePublisherLabel → Prop
  | .maybePublish reading _ _ =>
    ∀ e ∈ s.running.entries, e.2.coverageType = reading.coverageType → s.landed e.1 = false
  | .answer id answer clock =>
    s.landed id = true → ∀ p ∈ s.running.get? id, InTime config p clock answer
  | .land id succeeds => succeeds = true → (s.running.get? id).isSome = true
  | .observe _ _ _ _ | .accept _ => True

instance (config : OraclePublisherConfig) (s : OraclePublisherState) (l : OraclePublisherLabel) :
    Decidable (Witnessed config s l) := by
  unfold Witnessed
  split <;> infer_instance

/-! ## The invariant -/

/-- What is known of the transaction of a publication. -/
def TracksTx (p : Publication) : Option UpdateTx → Prop
  | none => p.isSent = false
  | some tx => p.isSent = true ∧ tx.coverageType = p.coverageType ∧ tx.value = p.scaled

variable {p p' : Publication}

theorem TracksTx.of_subject {tx : Option UpdateTx} (h : TracksTx p tx)
    (hsubj : p'.subject = p.subject) (hsent : p'.isSent = p.isSent) : TracksTx p' tx := by
  cases tx with
  | none => exact hsent.trans h
  | some =>
    obtain ⟨hcov, hscaled⟩ := subject_eq_iff.1 hsubj
    exact ⟨hsent.trans h.1, h.2.1.trans hcov.symm, h.2.2.trans hscaled.symm⟩

/-- One publication runs per coverage type. Once its transaction has landed, its value is the one on
chain; until then that is the remembered one. -/
structure Remembers (s : OraclePublisherState) : Prop where
  running_lt : ∀ {id p}, s.running.get? id = some p → id < s.calls
  tx_lt : ∀ {id tx}, s.txs.get? id = some tx → id < s.calls
  single : ∀ {id id' p p'}, s.running.get? id = some p → s.running.get? id' = some p' →
    p.coverageType = p'.coverageType → id = id'
  tracks : ∀ {id p}, s.running.get? id = some p → TracksTx p (s.txs.get? id)
  current : ∀ {id p}, s.running.get? id = some p → s.landed id = true →
    lastLanded p.coverageType s.history = some p.scaled
  remembered : ∀ {coverageType value}, s.lastScaled.get? coverageType = some value →
    (∀ id p, s.running.get? id = some p → p.coverageType = coverageType → s.landed id = false) →
    lastLanded coverageType s.history = some value
  reported : PrecededBy ReportsLanded s.history

theorem Remembers.start (trusted : Bool) : Remembers (.start trusted) where
  running_lt := nofun
  tx_lt := nofun
  single := nofun
  tracks := nofun
  current := nofun
  remembered := nofun
  reported := .nil _

variable {id : Nat} {s : OraclePublisherState}

theorem landed_iff : s.landed id = true ↔ ∃ tx, s.txs.get? id = some tx ∧ tx.fate = .succeeded := by
  simp [landed, any_eq_true]

theorem landed_eq_false_of_none (h : s.txs.get? id = none) : s.landed id = false := by
  simp [landed, h]

/-- A report, about the value on chain if it is one of a confirmation. -/
theorem Remembers.report (h : Remembers s) (trust : Option FeedStatuses)
    (hquiet : ∀ coverageType, landedValue coverageType e = none) (he : ReportsLanded e s.history) :
    Remembers { s with trust, history := s.history ++ [e] } := { h with
  current := by
    intro id p hp hland
    rw [lastLanded_snoc_of_none _ (hquiet _)]
    exact h.current hp hland
  remembered := by
    intro coverageType value hvalue hnone
    rw [lastLanded_snoc_of_none _ (hquiet _)]
    exact h.remembered hvalue hnone
  reported := h.reported.snoc e he }

/-- The next publication has no transaction yet. -/
theorem Remembers.tx_calls (h : Remembers s) : s.txs.get? s.calls = none := by
  by_contra hsome
  obtain ⟨tx, htx⟩ := ne_none_iff_exists'.1 hsome
  exact absurd (h.tx_lt htx) (lt_irrefl _)

/-- A new publication. -/
theorem Remembers.begins (h : Remembers s) (hidle : s.inFlight p.coverageType = false)
    (hunsent : p.isSent = false) :
    Remembers { s with calls := s.calls + 1, running := s.running.set s.calls p } := by
  -- The publications that run already are of other coverage types.
  have hoth : ∀ {id q}, s.running.get? id = some q → q.coverageType ≠ p.coverageType := by
    intro id q hq heq
    have hany : s.inFlight p.coverageType = true := by
      refine List.any_eq_true.2 ⟨q, OrdMap.mem_values_iff.2 ⟨id, hq⟩, ?_⟩
      exact decide_eq_true heq
    rw [hidle] at hany
    cases hany
  refine ⟨?_, ?_, ?_, ?_, ?_, ?_, h.reported⟩
  · intro id q hq
    rcases get?_set_eq_some_iff.1 hq with ⟨rfl, -⟩ | ⟨-, hold⟩
    · exact Nat.lt_succ_self _
    · exact Nat.lt_succ_of_lt (h.running_lt hold)
  · intro id tx hid
    exact Nat.lt_succ_of_lt (h.tx_lt hid)
  · intro id id' q q' hq hq' heq
    rcases get?_set_eq_some_iff.1 hq with ⟨rfl, rfl⟩ | ⟨-, hold⟩ <;>
      rcases get?_set_eq_some_iff.1 hq' with ⟨rfl, rfl⟩ | ⟨-, hold'⟩
    · rfl
    · exact absurd heq.symm (hoth hold')
    · exact absurd heq (hoth hold)
    · exact h.single hold hold' heq
  · intro id q hq
    rcases get?_set_eq_some_iff.1 hq with ⟨rfl, rfl⟩ | ⟨-, hold⟩
    · simp only [h.tx_calls]
      exact hunsent
    · exact h.tracks hold
  · intro id q hq hland
    rcases get?_set_eq_some_iff.1 hq with ⟨rfl, rfl⟩ | ⟨-, hold⟩
    · obtain ⟨tx, hsome, -⟩ := landed_iff.1 hland
      cases h.tx_calls.symm.trans hsome
    · exact h.current hold hland
  · intro coverageType value hvalue hnone
    refine h.remembered hvalue fun id q hq heq => ?_
    have hne : id ≠ s.calls := (h.running_lt hq).ne
    exact hnone id q (get?_set_eq_some_iff.2 (.inr ⟨hne, hq⟩)) heq

/-- The publications that run are about the same values as before, and nothing lands. -/
theorem Remembers.moves (h : Remembers s) {running : OrdMap Nat Publication}
    {txs : OrdMap Nat UpdateTx}
    (hrunn : ∀ id, (running.get? id).map subject = (s.running.get? id).map subject)
    (htx : ∀ {id tx}, txs.get? id = some tx → id < s.calls)
    (htrk : ∀ {id p}, running.get? id = some p → TracksTx p (txs.get? id))
    (hland : ∀ id, landed { s with running, txs } id =
      s.landed id) :
    Remembers { s with running, txs } := by
  -- The same publications run before and after, up to their stage.
  have hbef : ∀ {id p}, running.get? id = some p →
      ∃ p₀, s.running.get? id = some p₀ ∧ p₀.subject = p.subject := by
    intro id p hp
    have hsome := hrunn id
    rw [hp] at hsome
    exact map_eq_some_iff.1 hsome.symm
  have hafter : ∀ {id p₀}, s.running.get? id = some p₀ →
      ∃ p, running.get? id = some p ∧ p.subject = p₀.subject := by
    intro id p₀ hp₀
    have hsome := hrunn id
    rw [hp₀] at hsome
    exact map_eq_some_iff.1 hsome
  refine ⟨?_, htx, ?_, htrk, ?_, ?_, h.reported⟩
  · intro id p hp
    obtain ⟨p₀, hp₀, -⟩ := hbef hp
    exact h.running_lt hp₀
  · intro id id' p p' hp hp' heq
    obtain ⟨p₀, hp₀, hsame⟩ := hbef hp
    obtain ⟨p₀', hp₀', hsame'⟩ := hbef hp'
    refine h.single hp₀ hp₀' ?_
    rw [(subject_eq_iff.1 hsame).1, (subject_eq_iff.1 hsame').1]
    exact heq
  · intro id p hp hlands
    obtain ⟨p₀, hp₀, hsame⟩ := hbef hp
    rw [hland] at hlands
    obtain ⟨hcov, hscaled⟩ := subject_eq_iff.1 hsame
    rw [← hcov, ← hscaled]
    exact h.current hp₀ hlands
  · intro coverageType value hvalue hnone
    refine h.remembered hvalue fun id p₀ hp₀ heq => ?_
    obtain ⟨p, hp, hsame⟩ := hafter hp₀
    rw [← hland]
    exact hnone id p hp ((subject_eq_iff.1 hsame).1.trans heq)

theorem subject_set (hp : s.running.get? id = some p) (hsubj : p'.subject = p.subject) (id' : Nat) :
    ((s.running.set id p').get? id').map subject = (s.running.get? id').map subject := by
  rw [get?_set]
  split
  · rename_i hid
    rw [hid, hp, map_some, map_some, hsubj]
  · rfl

/-- A publication goes on, and its transaction is not sent with that. -/
theorem Remembers.continues (h : Remembers s) (hp : s.running.get? id = some p)
    (hsubj : p'.subject = p.subject) (hsent : p'.isSent = p.isSent) :
    Remembers { s with running := s.running.set id p' } := by
  refine h.moves (subject_set hp hsubj) h.tx_lt ?_ fun _ => rfl
  intro id' q hq
  rcases get?_set_eq_some_iff.1 hq with ⟨rfl, rfl⟩ | ⟨-, hold⟩
  · exact (h.tracks hp).of_subject hsubj hsent
  · exact h.tracks hold

/-- A transaction that has not landed, or is new. -/
theorem landed_set {tx : UpdateTx} (hbef : s.landed id = false) (hafter : tx.fate ≠ .succeeded)
    (running : OrdMap Nat Publication) (id' : Nat) :
    landed { s with running, txs := s.txs.set id tx } id' =
      s.landed id' := by
  simp only [landed, get?_set]
  split
  · rename_i hid
    subst hid
    rw [any_some, decide_eq_false hafter]
    exact hbef.symm
  · rfl

variable {value : Int}

namespace Remembers

variable (h : Remembers s)

include h

theorem tx_set {tx t : UpdateTx} {id' : Nat} (hid : id < s.calls)
    (ht : (s.txs.set id tx).get? id' = some t) : id' < s.calls := by
  rcases get?_set_eq_some_iff.1 ht with ⟨rfl, -⟩ | ⟨-, hold⟩
  · exact hid
  · exact h.tx_lt hold

theorem tracks_set {before : TxFate} (after : TxFate) {id' : Nat}
    (htx : s.txs.get? id = some ⟨coverageType, value, before⟩) (hp : s.running.get? id' = some p) :
    TracksTx p ((s.txs.set id ⟨coverageType, value, after⟩).get? id') := by
  have htrk := h.tracks hp
  by_cases hid : id' = id
  · subst hid
    rw [htx] at htrk
    rwa [get?_set_self]
  · rwa [get?_set_of_ne hid]

/-- The transaction of a publication changes its fate, and it has not succeeded before or after. -/
theorem fate {before after : TxFate} (htx : s.txs.get? id = some ⟨coverageType, value, before⟩)
    (hbef : before ≠ .succeeded) (hafter : after ≠ .succeeded) :
    Remembers { s with txs := s.txs.set id ⟨coverageType, value, after⟩ } := by
  have hnot : s.landed id = false := by
    simp [landed, htx, hbef]
  exact h.moves (fun _ => rfl) (h.tx_set (h.tx_lt htx)) (h.tracks_set after htx)
    (landed_set hnot hafter s.running)

/-- The transaction of a publication is on the way to a node. -/
theorem sends (hp : s.running.get? id = some p) (hsubj : p'.subject = p.subject)
    (hunsent : p.isSent = false) (hstage : p'.stage = .send) :
    Remembers { s with
      running := s.running.set id p'
      txs := s.txs.set id ⟨p'.coverageType, p'.scaled, .unknown⟩ } := by
  -- No transaction of the publication is replaced: it had none.
  have hnone : s.txs.get? id = none := by
    have htrk := h.tracks hp
    cases htx : s.txs.get? id with
    | none => rfl
    | some =>
      rw [htx, TracksTx, hunsent] at htrk
      cases htrk.1
  refine h.moves (subject_set hp hsubj) (h.tx_set (h.running_lt hp)) ?_
    (landed_set (landed_eq_false_of_none hnone) (by simp) _)
  intro id' q hq
  rcases get?_set_eq_some_iff.1 hq with ⟨rfl, rfl⟩ | ⟨hne, hold⟩
  · rw [get?_set_self]
    exact ⟨by simp [isSent, hstage], rfl, rfl⟩
  · rw [get?_set_of_ne hne]
    exact h.tracks hold

/-- A publication ends, and its transaction has not landed. -/
theorem drops (hland : s.landed id = false) :
    Remembers { s with running := s.running.delete id } where
  running_lt hq := h.running_lt (get?_delete_eq_some_iff.1 hq).2
  tx_lt := h.tx_lt
  single hq hq' := h.single (get?_delete_eq_some_iff.1 hq).2 (get?_delete_eq_some_iff.1 hq').2
  tracks hq := h.tracks (get?_delete_eq_some_iff.1 hq).2
  current hq := h.current (get?_delete_eq_some_iff.1 hq).2
  remembered := by
    intro coverageType value hvalue hnone
    refine h.remembered hvalue fun id' q hq heq => ?_
    by_cases hid : id' = id
    · rw [hid]
      exact hland
    · exact hnone id' q (get?_delete_eq_some_iff.2 ⟨hid, hq⟩) heq
  reported := h.reported

/-- A publication ends as confirmed, and its transaction has landed. -/
theorem confirms (hp : s.running.get? id = some p) (hland : s.landed id = true)
    (lastPublishedAt : OrdMap String ℚ) :
    Remembers { s with
      running := s.running.delete id
      lastScaled := s.lastScaled.set p.coverageType p.scaled
      lastPublishedAt } where
  running_lt hq := h.running_lt (get?_delete_eq_some_iff.1 hq).2
  tx_lt := h.tx_lt
  single hq hq' := h.single (get?_delete_eq_some_iff.1 hq).2 (get?_delete_eq_some_iff.1 hq').2
  tracks hq := h.tracks (get?_delete_eq_some_iff.1 hq).2
  current hq := h.current (get?_delete_eq_some_iff.1 hq).2
  remembered := by
    intro coverageType value hvalue hnone
    rcases get?_set_eq_some_iff.1 hvalue with ⟨rfl, rfl⟩ | ⟨hne, hold⟩
    · exact h.current hp hland
    -- Of another coverage type the same publications run.
    refine h.remembered hold fun id' q hq heq => ?_
    have hid : id' ≠ id := by
      rintro rfl
      obtain rfl := some.inj (hp.symm.trans hq)
      exact hne heq.symm
    exact hnone id' q (get?_delete_eq_some_iff.2 ⟨hid, hq⟩) heq
  reported := h.reported

/-- The transaction of a publication that runs lands. -/
theorem lands {fate : TxFate} (hp : s.running.get? id = some p)
    (htx : s.txs.get? id = some ⟨coverageType, value, fate⟩) :
    Remembers { s with
      txs := s.txs.set id ⟨coverageType, value, .succeeded⟩
      history := s.history ++ [OraclePublisherEvent.landed coverageType value] } := by
  have hsubj : p.isSent = true ∧ coverageType = p.coverageType ∧ value = p.scaled := by
    have htrk := h.tracks hp
    rwa [htx] at htrk
  obtain ⟨hsent, rfl, rfl⟩ := hsubj
  have hland : ∀ {id'}, id' ≠ id → landed { s with
      txs := s.txs.set id ⟨p.coverageType, p.scaled, .succeeded⟩
      history := s.history ++ [OraclePublisherEvent.landed p.coverageType p.scaled] } id' =
        s.landed id' := by
    intro id' hid
    simp only [landed, get?_set_of_ne hid]
  refine ⟨h.running_lt, h.tx_set (h.tx_lt htx), h.single, h.tracks_set .succeeded htx, ?_, ?_,
    h.reported.snoc _ trivial⟩
  · intro id' q hq hlands
    rw [lastLanded_snoc_landed]
    by_cases hid : id' = id
    · subst hid
      obtain rfl := some.inj (hp.symm.trans hq)
      rw [if_pos rfl]
    · -- One publication runs per coverage type, so another one is of another type.
      rw [if_neg fun heq => hid (h.single hq hp heq.symm)]
      rw [hland hid] at hlands
      exact h.current hq hlands
  · intro coverageType value hvalue hnone
    rw [lastLanded_snoc_landed]
    split
    · rename_i heq
      have hfalse := hnone id p hp heq
      simp [landed] at hfalse
    rename_i hne
    refine h.remembered hvalue fun id' q hq heq => ?_
    have hid : id' ≠ id := by
      rintro rfl
      obtain rfl := some.inj (hp.symm.trans hq)
      exact hne heq
    rw [← hland hid]
    exact hnone id' q hq heq

theorem recordConfirmed (feedId : String) (hvalue : lastLanded coverageType s.history = some value)
    (now : ℚ) :
    Remembers (s.recordConfirmed feedId coverageType value now) := by
  simp only [OraclePublisherState.recordConfirmed]
  split
  · exact h
  · exact h.report _ (fun _ => rfl) hvalue

theorem recordUnconfirmed (feedId : String) (reason : Option String)
    (now : ℚ) : Remembers (s.recordUnconfirmed feedId reason now) := by
  simp only [OraclePublisherState.recordUnconfirmed]
  split
  · exact h
  · exact h.report _ (fun _ => rfl) trivial

end Remembers

/-! ## Steps -/

variable {config : OraclePublisherConfig} {s' : OraclePublisherState} {record : OraclePublishRecord}

namespace Remembers

variable (h : Remembers s)

include h

/-- A publication that ends without a confirmation. -/
theorem settle_unconfirmed (hland : s.landed id = false) (p : Publication)
    (hrcd : record.confirmed = false) (clock : Clock) :
    Remembers (settle { s with running := s.running.delete id } p record
      clock) := by
  simp only [settle, hrcd, Bool.false_eq_true, if_false]
  exact (h.drops hland).recordUnconfirmed _ _ _

/-- A publication that ends with a confirmation. -/
theorem settle_confirmed (hp : s.running.get? id = some p) (hland : s.landed id = true)
    (hrcd : record.confirmed = true) (clock : Clock) :
    Remembers (settle { s with running := s.running.delete id } p record
      clock) := by
  simp only [settle, hrcd, if_true]
  exact (h.confirms hp hland _).recordConfirmed _ (h.current hp hland) _

/-- A new publication waits for the account, or it is too late. -/
theorem publish (hstage : p.stage = .account) (hidle : s.inFlight p.coverageType = false)
    (clock : Clock) :
    Remembers (s.publish p clock) := by
  simp only [OraclePublisherState.publish]
  have hmeets : (p.begin fun n => clock (n + 5)).Meets _ _ := begin_meets hstage
  cases hbegin : p.begin fun n => clock (n + 5) with
  | waits =>
    rw [hbegin] at hmeets
    obtain rfl := hmeets
    simp only [OraclePublisherState.advance, hstage, reduceCtorEq, if_false]
    exact h.begins hidle (by simp [isSent, hstage])
  | ends =>
    rw [hbegin] at hmeets
    have hcalls : Remembers { s with calls := s.calls + 1 } :=
      { h with
        running_lt := fun hp => Nat.lt_succ_of_lt (h.running_lt hp)
        tx_lt := fun htx => Nat.lt_succ_of_lt (h.tx_lt htx) }
    have hland : s.landed s.calls = false := landed_eq_false_of_none h.tx_calls
    exact hcalls.settle_unconfirmed hland p hmeets clock

/-- A value that is remembered, and nothing of its coverage type has landed since: it is on chain.
-/
theorem publishScaled (hnone : ∀ id p, s.running.get? id = some p → p.coverageType = coverageType →
      s.landed id = false)
    (feedId : String) (scaled : Int) (deadlineAt : Option ℚ) (clock : Clock) :
    Remembers (s.publishScaled config coverageType feedId scaled deadlineAt clock) := by
  have hreported : Remembers (if s.lastScaled.get? coverageType = some scaled then
      s.recordConfirmed feedId coverageType scaled (clock 3) else s) := by
    split
    · -- No landed publication of the type is open, so the remembered value is on chain.
      rename_i hunch
      exact h.recordConfirmed feedId (h.remembered hunch hnone) _
    · exact h
  simp only [OraclePublisherState.publishScaled]
  generalize (if s.lastScaled.get? coverageType = some scaled then
    s.recordConfirmed feedId coverageType scaled (clock 3) else s) = reported at hreported ⊢
  split
  · exact hreported
  split
  · exact hreported
  split
  · exact hreported
  · rename_i hidle
    exact hreported.publish rfl (Bool.eq_false_iff.2 hidle) clock

theorem maybePublish {reading : PublishReading}
    (hnone : ∀ id p, s.running.get? id = some p → p.coverageType = reading.coverageType →
      s.landed id = false) (deadlineAt : Option ℚ) (clock : Clock) :
    Remembers (s.maybePublish config reading deadlineAt clock) := by
  simp only [OraclePublisherState.maybePublish]
  split
  · exact h.recordUnconfirmed _ _ _
  split
  · exact h
  split
  · exact h.recordUnconfirmed _ _ _
  split
  · exact h
  split
  · exact h
  · exact h.publishScaled hnone _ _ _ _

/-- A publication is answered. -/
theorem answered (hp : s.running.get? id = some p) {answer : PublicationAnswer} {clock : Clock}
    {progress : PublicationProgress} (htruthful : AnswersTruthfully (s.txs.get? id) answer)
    (hin : s.landed id = true → InTime config p clock answer)
    (hans : p.answer config answer clock = some progress) :
    Remembers (s.advance id p clock progress) := by
  have hmeets := answer_meets hans
  cases progress with
  | waits =>
    obtain ⟨hsubj, hstage⟩ := hmeets
    simp only [OraclePublisherState.advance]
    rcases hstage with ⟨hunsent, hsend⟩ | ⟨hoth, hsent⟩
    · simp only [if_pos hsend]
      exact h.sends hp hsubj hunsent hsend
    · simp only [if_neg hoth]
      exact h.continues hp hsubj hsent
  | ends =>
    have htrk := h.tracks hp
    rcases hmeets with
      ⟨hconf, hsent, value, random, rfl⟩ | ⟨hunconfirmed, hfailed⟩
    · -- The node has found the transaction, so that has landed.
      cases htx : s.txs.get? id with
      | none =>
        rw [htx, TracksTx, hsent] at htrk
        cases htrk
      | some tx =>
        have hfate : tx.fate = .succeeded := htruthful tx htx
        exact h.settle_confirmed hp (landed_iff.2 ⟨tx, htx, hfate⟩) hconf clock
    · cases hland : s.landed id with
      | false => exact h.settle_unconfirmed hland p hunconfirmed clock
      | true =>
        -- The answer was in time, so the transaction has been found failed.
        obtain ⟨tx, htx, hfate⟩ := landed_iff.1 hland
        rw [htx] at htrk
        obtain ⟨random, rfl⟩ := hfailed htrk.1 (hin hland)
        have hfailure : tx.fate = .failed := htruthful tx htx
        rw [hfate] at hfailure
        cases hfailure

theorem step {l : OraclePublisherLabel} (hl : Witnessed config s l)
    (hstep : oraclePublisherStep config s l = some s') : Remembers s' := by
  cases l with
  | maybePublish _ deadlineAt clock =>
    cases hstep
    refine h.maybePublish (fun id p hp heq => ?_) deadlineAt clock
    exact hl (id, p) (OrdMap.mem_entries_iff.2 hp) heq
  | observe =>
    simp only [oraclePublisherStep] at hstep
    split at hstep
    · cases hstep
    split at hstep
    · cases hstep
      exact h
    · -- The invariant does not look at the trust in feeds.
      cases hstep
      exact { h with }
  | answer =>
    simp only [oraclePublisherStep] at hstep
    split at hstep
    · cases hstep
    rename_i p hp
    split at hstep
    · rename_i htruthful
      obtain ⟨progress, hans, rfl⟩ := map_eq_some_iff.1 hstep
      exact h.answered hp htruthful (fun hland => hl hland p hp) hans
    · cases hstep
  | accept =>
    simp only [oraclePublisherStep] at hstep
    split at hstep
    · rename_i htx
      cases hstep
      exact h.fate htx (by simp) (by simp)
    · cases hstep
  | land =>
    simp only [oraclePublisherStep] at hstep
    split at hstep
    · rename_i htx
      split at hstep
      · rename_i hsucceeds
        cases hstep
        obtain ⟨p, hp⟩ := isSome_iff_exists.1 (hl hsucceeds)
        exact h.lands hp htx
      · cases hstep
        exact h.fate htx (by simp) (by simp)
    · cases hstep

end Remembers

/-- Whenever a reading is reported as confirmed, the value last landed on chain for its coverage
type is its scaled value, in all runs in which nothing lands unseen. -/
theorem reported_values_landed (config : OraclePublisherConfig) (trusted : Bool)
    (s : OraclePublisherState)
    (hrun : RunWhere (OraclePublisherSteps config) (Witnessed config) (.start trusted) s)
    (feedId coverageType : String) (value : Int) (before after : List OraclePublisherEvent)
    (hreport : s.history = before ++ .confirmed feedId coverageType value :: after) :
    lastLanded coverageType before = some value := by
  have hinv : Remembers s :=
    hrun.invariant Remembers (Remembers.start trusted) fun _ _ _ ha => ha.step
  exact hinv.reported before _ after hreport

/-! ### A price that returns -/

/-- The relayer is set up to publish what has changed, at once. -/
def changesOnly : OraclePublisherConfig := ⟨true, .onChange, 0, 400, 9 / 5, 8000, 0, 30000⟩

/-- A reading of the price of USDC. -/
def usdcAt (price : ℚ) : PublishReading :=
  ⟨"StablecoinDepeg", .finite price, "coingecko-usdc", false⟩

/-- The steps of a publication up to its poll; its number is `id`. -/
def publicationTo (id : Nat) (price : ℚ) (deadlineAt : Option ℚ) (now : ℚ) :
    List OraclePublisherLabel :=
  [.observe "coingecko-usdc" true none now, .maybePublish (usdcAt price) deadlineAt fun _ => now,
   .answer id (.account (.ok ())) fun _ => now, .answer id (.prepared (.ok ())) fun _ => now,
   .accept id, .answer id (.sent (.ok ⟨.pending, "a1", ""⟩)) fun _ => now]

/-- The history once the price 0.9998 is published and found on chain. -/
def usdcPublished : List OraclePublisherEvent :=
  [.landed "StablecoinDepeg" 9998000, .confirmed "coingecko-usdc" "StablecoinDepeg" 9998000]

/-- The history once the price 0.9 has landed as well, unseen. -/
def usdcMissed : List OraclePublisherEvent :=
  [.landed "StablecoinDepeg" 9998000, .confirmed "coingecko-usdc" "StablecoinDepeg" 9998000,
   .landed "StablecoinDepeg" 9000000,
   .unconfirmed "coingecko-usdc" (some "Feed latency budget expired during confirmation")]

/-- The price 0.9998 is reported as confirmed. -/
def usdcReport : OraclePublisherEvent := .confirmed "coingecko-usdc" "StablecoinDepeg" 9998000

/-- A price is published and found on chain, and reported again while it does not change. -/
theorem reported_values_landed_again :
    ∃ s, RunWhere (OraclePublisherSteps changesOnly) (Witnessed changesOnly) (.start true) s ∧
      s.history = usdcPublished ++ [usdcReport] ∧
      lastLanded "StablecoinDepeg" usdcPublished = some 9998000 := by
  refine RunWhere.exists_reached
    ((publicationTo 0 (9998 / 10000) none 1000).append [.land 0 true,
      .answer 0 (.probed (.ok (.success none)) 0) fun _ => 1400,
      .observe "coingecko-usdc" true none 2000,
      .maybePublish (usdcAt (9998 / 10000)) none fun _ => 2000])
    (fun s => s.history = usdcPublished ++ [usdcReport]) (by decide +kernel)
    fun s hrun hhistory => ?_
  exact ⟨hhistory, reported_values_landed changesOnly true s hrun _ _ _ _ _ hhistory⟩

/-- The price moves, and the deadline passes before the transaction, which has landed, is found.
When the price returns, the old value is reported as confirmed. -/
theorem reported_after_unseen :
    ∃ s, RunWhere (OraclePublisherSteps changesOnly) (fun _ _ => True) (.start true) s ∧
      s.history = usdcMissed ++ [usdcReport] ∧
      lastLanded "StablecoinDepeg" usdcMissed = some 9000000 :=
  ⟨_, .performed
    (((publicationTo 0 (9998 / 10000) none 1000).append [.land 0 true,
      .answer 0 (.probed (.ok (.success none)) 0) fun _ => 1400]).append
      ((publicationTo 1 (9 / 10) (some 12000) 2000).append
        [.answer 1 (.probed (.ok .notFound) 0) fun _ => 2400, .land 1 true,
         .answer 1 .deadline fun _ => 12000, .observe "coingecko-usdc" true none 13000,
         .maybePublish (usdcAt (9998 / 10000)) none fun _ => 13000])) (by decide +kernel),
    by decide +kernel, by decide +kernel⟩

end Refract.Oracle
