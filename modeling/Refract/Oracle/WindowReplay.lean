import Refract.Oracle.ConsensusWindow

/-!
# A decided window replays to its decision

An evaluation reads nothing but the eligible readings of its window, so a replay agrees with the
recorded decision exactly when no reading has become eligible since. Nothing in `ingest` looks at
the decisions: a late reading on a feed that carries readings over, or one that arrives at the very
end of its window, is stored in a window that is decided already (`decision_replaced_by_replay`).
Where every reading for a decided window is too late, dropped or a duplicate
(`SealedOnceDecided`), each decision is the consensus of the readings that are there (`Held`), and
a replay at any later time finds the same hash and records the same decision.
-/

namespace Refract.Oracle.Windowing

open Lib

/-! ## Statements -/

variable {feedId : String} {s s' : WindowState} {bounds : WindowBounds}

theorem upsertWindow_eq_ok (h : upsertWindow s feedId bounds = .ok s') :
    ∃ feed windowEnd, varchar 40 feedId = .ok feed ∧ s' = { s with
        windows := upsert WindowRow.windowId
          ⟨feed, bounds.windowId, bounds.windowStart, windowEnd, .opened⟩
          (fun w => { w with feedId := feed }) s.windows } := by
  obtain ⟨feed, hfeed, h⟩ := exceptBind_eq_ok h
  split at h
  · cases h
  rename_i windowEnd hend
  obtain ⟨_, -, h⟩ := exceptBind_eq_ok h
  cases h
  exact ⟨feed, windowEnd, hfeed, rfl⟩

variable {windowId : String} {w : WindowRow}

/-- An upsert keeps the bounds of every window. -/
theorem getWindow_upsertWindow (h : upsertWindow s feedId bounds = .ok s')
    (hw : getWindow s windowId = some w) :
    ∃ w', getWindow s' windowId = some w' ∧ w'.windowEnd = w.windowEnd := by
  obtain ⟨feed, windowEnd, -, rfl⟩ := upsertWindow_eq_ok h
  rw [getWindow] at hw
  rw [getWindow, findByKey_upsert, hw]
  · split
    · exact ⟨_, rfl, rfl⟩
    · exact ⟨w, rfl, rfl⟩
  · exact fun _ => rfl

/-- After an upsert a window is the one of the feed, or one that was there. -/
theorem feedId_of_getWindow_upsertWindow (h : upsertWindow s feedId bounds = .ok s')
    (hw : getWindow s' windowId = some w) :
    varchar 40 feedId = .ok w.feedId ∨ getWindow s windowId = some w := by
  obtain ⟨feed, windowEnd, hfeed, rfl⟩ := upsertWindow_eq_ok h
  rw [getWindow, findByKey_upsert fun _ => by rfl] at hw
  split at hw
  · left
    rw [hfeed]
    cases hfind : findByKey WindowRow.windowId windowId s.windows with
    | none | some =>
      rw [hfind] at hw
      cases hw
      rfl
  · exact .inr hw

/-- Marking a window keeps the feed and the bounds of every window. -/
theorem getWindow_markEvaluated (target windowId : String) :
    ∃ mark : WindowRow → WindowRow,
      (∀ w, (mark w).feedId = w.feedId ∧ (mark w).windowEnd = w.windowEnd) ∧
        getWindow (markEvaluated s target) windowId = (getWindow s windowId).map mark := by
  refine ⟨_, ?_, findByKey_updateWhere ?_ windowId⟩
  · intro w
    split <;> exact ⟨rfl, rfl⟩
  · exact fun _ => rfl

/-- The decision of the window it is recorded for. -/
theorem getDecision_recordDecision_self (decision : ConsensusDecisionRow) :
    ∃ d, getDecision (recordDecision s decision) decision.windowId = some d ∧
      d.toConsensus = decision.toConsensus ∧ d.decidedAt = decision.decidedAt := by
  rw [getDecision, recordDecision, findByKey_upsert, if_pos rfl]
  · cases findByKey ConsensusDecisionRow.windowId decision.windowId s.decisions with
    | none | some => exact ⟨_, rfl, rfl, rfl⟩
  · exact fun _ => rfl

/-- The decisions of the other windows. -/
theorem getDecision_recordDecision_of_ne (decision : ConsensusDecisionRow)
    (h : windowId ≠ decision.windowId) :
    getDecision (recordDecision s decision) windowId = getDecision s windowId := by
  rw [getDecision, recordDecision, findByKey_upsert, if_neg h, getDecision]
  exact fun _ => rfl

/-! ## Readings of a decided window -/

variable {configs : List FeedWindowConfig} {reading : WindowReading} {arrivalTime : Int}
  {id : String} {windowEnd : Int} {row : WindowReadingRow}

/-- An insert that stores something stores its row, for a source that had none in the window. -/
theorem insertReading_eq_some {value : JsNumber} (h : insertReading s row value = some s') :
    ∃ stored : WindowReadingRow, s' = { s with readings := s.readings ++ [stored] } ∧
      stored.windowId = row.windowId ∧ stored.isDropped = row.isDropped ∧
      hasReading s row.windowId row.source = false := by
  simp only [insertReading] at h
  split at h
  · cases h
  rename_i stored hrow
  split at h
  · cases h
  rename_i hsrc
  split at h
  · cases h
  cases h
  iterate 3 obtain ⟨_, -, hrow⟩ := exceptBind_eq_ok hrow
  cases hrow
  exact ⟨_, rfl, rfl, rfl, eq_false_of_ne_true hsrc⟩

/-- The eligible readings of a window without the row that was added. -/
theorem getEligibleReadings_append (host : WindowHost) (hrows : s'.readings = s.readings ++ [row])
    (h : row.windowId = windowId → row.isDropped = true) :
    getEligibleReadings host s' windowId = getEligibleReadings host s windowId := by
  have hrow : (decide (row.windowId = windowId) && !row.isDropped) = false := by
    by_cases hid : row.windowId = windowId
    · rw [h hid, Bool.not_true, Bool.and_false]
    · rw [decide_eq_false hid, Bool.false_and]
  simp only [getEligibleReadings, hrows, List.filter_append, List.filter_singleton, hrow,
    cond_false, List.append_nil]

/-- A call that returns wrote the row of its window, and added one reading to it or none. -/
theorem ingest_eq_ok {result : IngestResult}
    (h : ingest configs s reading arrivalTime id = .ok (s', result)) :
    ∃ target windowStart last s₁ readings,
      windowOf configs reading arrivalTime = .ok ⟨target, windowStart, some last⟩ ∧
        upsertWindow s reading.coverageType ⟨target, windowStart, some last⟩ = .ok s₁ ∧
        s' = { s with windows := s₁.windows, readings } ∧
        (readings = s.readings ∨ ∃ row : WindowReadingRow, readings = s.readings ++ [row] ∧
          row.windowId = target ∧
          (last < arrivalTime →
            (getFeedConfig reading.coverageType configs).lateArrivalPolicy = .drop →
              row.isDropped = true) ∧
          isArrivedTooLate arrivalTime last
            (getFeedConfig reading.coverageType configs).allowedLatenessMs = false ∧
          hasReading s target reading.sourceName = false) := by
  simp only [ingest] at h
  split at h
  · cases h
  rename_i bounds hbnd
  obtain ⟨target, windowStart, last⟩ := bounds
  split at h
  case h_2 | h_3 => cases h
  rename_i s₁ last' hupsert hlast
  obtain rfl : last = some last' := hlast
  have hs' := congrArg Prod.fst (Except.ok.inj h)
  obtain ⟨_, _, -, rfl⟩ := upsertWindow_eq_ok hupsert
  simp only [storeReading] at hs'
  split at hs'
  · exact ⟨target, windowStart, last', _, _, hbnd, hupsert, hs'.symm, .inl rfl⟩
  rename_i htime
  split at hs'
  · exact ⟨target, windowStart, last', _, _, hbnd, hupsert, hs'.symm, .inl rfl⟩
  rename_i s₂ hinsert
  obtain ⟨row, rfl, hid, hdropped, hsrc⟩ := insertReading_eq_some hinsert
  refine ⟨target, windowStart, last', _, _, hbnd, hupsert, ?_,
    .inr ⟨row, rfl, hid, ?_, eq_false_of_ne_true htime, hsrc⟩⟩
  · split at hs'
    · exact hs'.symm
    · split at hs' <;> exact hs'.symm
  · intro hlate hdrop
    rw [hdropped, isWindowClosed, isLateArrival, decide_eq_true hlate.le, decide_eq_true hlate,
      decide_eq_true hdrop]
    rfl

/-- If the window is decided, a reading that arrives for it arrives after the watermark, or after
the end of the window on a feed that drops late readings, or from a source that has a reading
there. -/
def SealedFor (configs : List FeedWindowConfig) (s : WindowState) (reading : WindowReading)
    (arrivalTime : Int) : Except JsError WindowBounds → Prop
  | .ok ⟨windowId, _, some windowEnd⟩ =>
    (getDecision s windowId).isSome = true →
      isArrivedTooLate arrivalTime windowEnd
          (getFeedConfig reading.coverageType configs).allowedLatenessMs = true ∨
        (windowEnd < arrivalTime ∧
          (getFeedConfig reading.coverageType configs).lateArrivalPolicy = .drop) ∨
        hasReading s windowId reading.sourceName = true
  | _ => True

/-- No reading becomes eligible in a window that is decided. -/
def SealedOnceDecided (configs : List FeedWindowConfig) (s : WindowState) : WindowLabel → Prop
  | .ingest reading arrivalTime _ =>
    SealedFor configs s reading arrivalTime (windowOf configs reading arrivalTime)
  | _ => True

instance (configs : List FeedWindowConfig) (s : WindowState) (reading : WindowReading)
    (arrivalTime : Int) (bounds : Except JsError WindowBounds) :
    Decidable (SealedFor configs s reading arrivalTime bounds) := by
  unfold SealedFor
  split <;> infer_instance

instance (configs : List FeedWindowConfig) (s : WindowState) (l : WindowLabel) :
    Decidable (SealedOnceDecided configs s l) := by
  unfold SealedOnceDecided
  split <;> infer_instance

/-! ## What stays -/

variable {result : ConsensusResult} {time : Int} {target : String} {l : WindowLabel}
  {host : WindowHost}

/-- The window is closed at `now`, and its decision is the consensus of its eligible readings. -/
structure Held (host : WindowHost) (s : WindowState) (windowId : String) (consensus : Consensus)
    (now : Int) : Prop where
  window : ∃ w, getWindow s windowId = some w ∧ w.windowEnd ≤ now
  decision : ∃ d, getDecision s windowId = some d ∧ d.toConsensus = consensus
  eligible : consensusOf host (getEligibleReadings host s windowId) = consensus

variable {consensus : Consensus} {now : Int}

/-- A reading that the condition admits leaves a held decision alone. -/
theorem Held.ingest (h : Held host s windowId consensus now)
    (hsealed : SealedOnceDecided configs s (.ingest reading arrivalTime id)) {result : IngestResult}
    (hingest : ingest configs s reading arrivalTime id = .ok (s', result)) :
    Held host s' windowId consensus now := by
  obtain ⟨target, windowStart, last, s₁, readings, hbnd, hupsert, rfl, hreadings⟩ :=
    ingest_eq_ok hingest
  simp only [SealedOnceDecided, hbnd, SealedFor] at hsealed
  obtain ⟨w, hw, hend⟩ := h.window
  obtain ⟨w₁, hw₁, hend₁⟩ := getWindow_upsertWindow hupsert hw
  refine ⟨⟨w₁, hw₁, hend₁ ▸ hend⟩, h.decision, ?_⟩
  rcases hreadings with rfl | ⟨row, rfl, hid, hdropped, htime, hsrc⟩
  · exact h.eligible
  rw [getEligibleReadings_append (s := s) host rfl]
  · exact h.eligible
  · -- a row in the decided window: of the three cases only a dropped one is stored
    intro hwin
    obtain ⟨d, hd, -⟩ := h.decision
    have hsome : (getDecision s target).isSome = true := by
      rw [← hid, hwin, hd]
      rfl
    rcases hsealed hsome with hlate | ⟨hlate, hdrop⟩ | hdup
    · rw [htime] at hlate
      cases hlate
    · exact hdropped hlate hdrop
    · rw [hdup] at hsrc
      cases hsrc

/-- What an evaluation leaves behind. -/
theorem evaluateWindow_eq_ok (h : evaluateWindow host configs s target time = .ok (s', result)) :
    ∃ w, getWindow s target = some w ∧
      (w.windowEnd ≤ time ∨ (getFeedConfig w.feedId configs).bestEffort = true) ∧
      result.toConsensus = consensusOf host (getEligibleReadings host s target) ∧
      s' = markEvaluated (recordDecision s
        ⟨consensusOf host (getEligibleReadings host s target), w.feedId, target, w.windowStart,
          w.windowEnd, time⟩) target := by
  simp only [evaluateWindow] at h
  split at h
  · cases h
  rename_i w hw
  split at h
  · cases h
  rename_i hclosed
  cases h
  refine ⟨w, hw, ?_, rfl, rfl⟩
  simp only [isWindowClosed, Bool.and_eq_true, Bool.not_eq_true', not_and,
    decide_eq_false_iff_not, Bool.not_eq_false] at hclosed
  by_cases hend : w.windowEnd ≤ time
  · exact .inl hend
  · exact .inr (hclosed hend)

/-- The state after an evaluation: the window has the consensus of its readings as its decision. -/
theorem Held.of_evaluateWindow
    (heval : evaluateWindow host configs s target time = .ok (s', result))
    (hclosed : ∃ w, getWindow s target = some w ∧ w.windowEnd ≤ now) :
    Held host s' target (consensusOf host (getEligibleReadings host s target)) now := by
  obtain ⟨v, -, -, -, rfl⟩ := evaluateWindow_eq_ok heval
  obtain ⟨w, hw, hend⟩ := hclosed
  obtain ⟨mark, hmark, hwin⟩ := getWindow_markEvaluated (s := s) target target
  obtain ⟨d, hd, hcsn, -⟩ := getDecision_recordDecision_self (s := s)
    ⟨consensusOf host (getEligibleReadings host s target), v.feedId, target, v.windowStart,
      v.windowEnd, time⟩
  refine ⟨⟨mark w, ?_, ?_⟩, ⟨d, hd, hcsn⟩, rfl⟩
  · rw [hw] at hwin
    exact hwin
  · rw [(hmark w).2]
    exact hend

/-- An evaluation records what a held decision says already. -/
theorem Held.evaluateWindow (h : Held host s windowId consensus now)
    (heval : evaluateWindow host configs s target time = .ok (s', result)) :
    Held host s' windowId consensus now := by
  by_cases htgt : windowId = target
  · subst htgt
    rw [← h.eligible]
    exact Held.of_evaluateWindow heval h.window
  obtain ⟨v, -, -, -, rfl⟩ := evaluateWindow_eq_ok heval
  obtain ⟨w, hw, hend⟩ := h.window
  obtain ⟨mark, hmark, hwin⟩ := getWindow_markEvaluated (s := s) target windowId
  refine ⟨⟨mark w, ?_, ?_⟩, ?_, h.eligible⟩
  · rw [hw] at hwin
    exact hwin
  · rw [(hmark w).2]
    exact hend
  · obtain ⟨d, hd, hcsn⟩ := h.decision
    exact ⟨d, (getDecision_recordDecision_of_ne _ htgt).trans hd, hcsn⟩

/-- A call either throws, and the state stays, or returns. -/
theorem commit_cases {α : Type} {x : Except Rejection (WindowState × α)} :
    commit s x = s ∨ ∃ a, x = .ok (commit s x, a) := by
  cases x with
  | error => exact .inl rfl
  | ok result => exact .inr ⟨result.2, rfl⟩

theorem replayWindow_eq_ok {result : ConsensusResult × Bool}
    (h : replayWindow host configs s target time = .ok (s', result)) :
    evaluateWindow host configs s target time = .ok (s', result.1) := by
  obtain ⟨⟨s₁, result₁⟩, heval, h⟩ := exceptBind_eq_ok h
  cases h
  exact heval

/-- The calls that change a state: a stored reading, or an evaluation. -/
theorem windowStep_cases (hstep : WindowSteps host configs feedId s l s') :
    s' = s ∨ (∃ reading arrivalTime id result, l = .ingest reading arrivalTime id ∧
        reading.coverageType = feedId ∧
        ingest configs s reading arrivalTime id = .ok (s', result)) ∨
      ∃ target time result, evaluateWindow host configs s target time = .ok (s', result) := by
  cases l with
  | ingest reading arrivalTime id =>
    obtain ⟨hfeed, ⟨⟩⟩ := Option.ite_none_right_eq_some.1 hstep
    rcases commit_cases (s := s) (x := ingest configs s reading arrivalTime id) with
      hsame | ⟨result, hok⟩
    · exact .inl hsame
    · exact .inr (.inl ⟨reading, arrivalTime, id, result, rfl, hfeed, hok⟩)
  | evaluateWindow target time =>
    cases hstep
    rcases commit_cases (s := s) (x := evaluateWindow host configs s target time) with
      hsame | ⟨result, hok⟩
    · exact .inl hsame
    · exact .inr (.inr ⟨target, time, result, hok⟩)
  | replayWindow target time =>
    cases hstep
    rcases commit_cases (s := s) (x := replayWindow host configs s target time) with
      hsame | ⟨result, hok⟩
    · exact .inl hsame
    · exact .inr (.inr ⟨target, time, result.1, replayWindow_eq_ok hok⟩)

/-- No call that the condition admits changes what a held decision rests on. -/
theorem Held.step (h : Held host s windowId consensus now) (hsealed : SealedOnceDecided configs s l)
    (hstep : WindowSteps host configs feedId s l s') : Held host s' windowId consensus now := by
  rcases windowStep_cases hstep with
    rfl | ⟨reading, arrivalTime, id, result, rfl, -, hok⟩ | ⟨target, time, result, hok⟩
  · exact h
  · exact h.ingest hsealed hok
  · exact h.evaluateWindow hok

/-- A held decision is found again by a replay. -/
theorem Held.replayWindow (h : Held host s windowId consensus now)
    (configs : List FeedWindowConfig) :
    ∃ s' result d, replayWindow host configs s windowId now = .ok (s', result, true) ∧
      getDecision s' windowId = some d ∧ d.toConsensus = consensus := by
  obtain ⟨w, hw, hend⟩ := h.window
  obtain ⟨d, hd, hcsn⟩ := h.decision
  have heval : ∃ s' result, Windowing.evaluateWindow host configs s windowId now =
      .ok (s', result) := by
    simp only [Windowing.evaluateWindow, hw, isWindowClosed, decide_eq_true hend, Bool.not_true,
      Bool.false_and, Bool.false_eq_true, if_false]
    exact ⟨_, _, rfl⟩
  obtain ⟨s', result, heval⟩ := heval
  obtain ⟨d', hd', hcsn'⟩ := (h.evaluateWindow heval).decision
  obtain ⟨-, -, -, hresult, -⟩ := evaluateWindow_eq_ok heval
  refine ⟨s', result, d', ?_, hd', hcsn'⟩
  have hhash : d.inputHash = result.inputHash := by
    rw [hresult, h.eligible, ← hcsn]
  simp only [Windowing.replayWindow, heval, hd, Option.any_some]
  exact congrArg (fun m => Except.ok (s', result, m)) (decide_eq_true hhash)

/-! ## Runs -/

/-- The feed is not best-effort, under the name that its windows are stored with. -/
def NotBestEffort (configs : List FeedWindowConfig) (feedId : String) : Prop :=
  ∀ stored, varchar 40 feedId = .ok stored → (getFeedConfig stored configs).bestEffort = false

/-- Every recorded decision is held from the time it was recorded at. -/
structure Replayable (host : WindowHost) (feedId : String) (s : WindowState) : Prop where
  feeds : ∀ windowId w, getWindow s windowId = some w → varchar 40 feedId = .ok w.feedId
  held : ∀ windowId d, getDecision s windowId = some d →
    Held host s windowId d.toConsensus d.decidedAt

theorem Replayable.initial (host : WindowHost) (feedId : String) :
    Replayable host feedId .initial := by
  refine ⟨?_, ?_⟩
  · intro windowId w hw
    cases hw
  · intro windowId d hd
    cases hd

/-- A stored reading brings at most a window of the feed, and no decision. -/
theorem Replayable.ingest (h : Replayable host feedId s)
    (hsealed : SealedOnceDecided configs s (.ingest reading arrivalTime id))
    (hcov : reading.coverageType = feedId) {result : IngestResult}
    (hingest : ingest configs s reading arrivalTime id = .ok (s', result)) :
    Replayable host feedId s' := by
  obtain ⟨target, windowStart, last, s₁, readings, -, hupsert, rfl, -⟩ := ingest_eq_ok hingest
  refine ⟨?_, ?_⟩
  · intro windowId w hw
    rcases feedId_of_getWindow_upsertWindow hupsert hw with hnew | hold
    · rw [← hcov]
      exact hnew
    · exact h.feeds windowId w hold
  · intro windowId d hd
    exact (h.held windowId d hd).ingest hsealed hingest

theorem Replayable.evaluateWindow (h : Replayable host feedId s)
    (hfeed : NotBestEffort configs feedId)
    (heval : evaluateWindow host configs s target time = .ok (s', result)) :
    Replayable host feedId s' := by
  obtain ⟨v, hv, hclosed, -, hs'⟩ := evaluateWindow_eq_ok heval
  refine ⟨?_, ?_⟩
  · intro windowId w hw
    obtain ⟨mark, hmark, hwin⟩ := getWindow_markEvaluated (s := s) target windowId
    rw [hs'] at hw
    obtain ⟨w₀, hw₀, rfl⟩ := Option.map_eq_some_iff.1 (hwin.symm.trans hw)
    rw [(hmark w₀).1]
    exact h.feeds windowId w₀ hw₀
  · intro windowId d hd
    by_cases htgt : windowId = target
    · -- the decision just recorded: the feed is not best-effort, so its window was closed
      subst htgt
      have hend : v.windowEnd ≤ time := by
        rcases hclosed with hend | hbest
        · exact hend
        · rw [hfeed _ (h.feeds windowId v hv)] at hbest
          cases hbest
      obtain ⟨d', hd', hcsn, htime⟩ := getDecision_recordDecision_self (s := s)
        ⟨consensusOf host (getEligibleReadings host s windowId), v.feedId, windowId, v.windowStart,
          v.windowEnd, time⟩
      rw [hs'] at hd
      cases hd'.symm.trans hd
      rw [hcsn, htime]
      exact Held.of_evaluateWindow heval ⟨v, hv, hend⟩
    · have hd₀ : getDecision s windowId = some d := by
        rw [hs'] at hd
        exact (getDecision_recordDecision_of_ne _ htgt).symm.trans hd
      exact (h.held windowId d hd₀).evaluateWindow heval

theorem Replayable.step (h : Replayable host feedId s) (hfeed : NotBestEffort configs feedId)
    (hsealed : SealedOnceDecided configs s l) (hstep : WindowSteps host configs feedId s l s') :
    Replayable host feedId s' := by
  rcases windowStep_cases hstep with
    rfl | ⟨reading, arrivalTime, id, result, rfl, hcov, hok⟩ | ⟨target, time, result, hok⟩
  · exact h
  · exact h.ingest hsealed hcov hok
  · exact h.evaluateWindow hfeed hok

/-- Once a window of the feed is decided, every later replay of it finds the recorded hash, and the
recorded decision stays. -/
theorem replay_reproduces_decision (host : WindowHost) (configs : List FeedWindowConfig)
    (feedId : String) (hfeed : NotBestEffort configs feedId) (s s' : WindowState)
    (hrun : RunWhere (WindowSteps host configs feedId) (SealedOnceDecided configs) .initial s)
    (windowId : String) (d : ConsensusDecisionRow) (hd : getDecision s windowId = some d)
    (hlater : RunWhere (WindowSteps host configs feedId) (SealedOnceDecided configs) s s')
    (now : Int) (hnow : d.decidedAt ≤ now) :
    ∃ s'' result d', replayWindow host configs s' windowId now = .ok (s'', result, true) ∧
      getDecision s'' windowId = some d' ∧ d'.value = d.value ∧ d'.severity = d.severity ∧
      d'.inputHash = d.inputHash := by
  have hreplayable : Replayable host feedId s := RunWhere.invariant (Replayable host feedId) hrun
    (Replayable.initial host feedId) fun _ _ _ ha => ha.step hfeed
  have hheld := hreplayable.held windowId d hd
  obtain ⟨w, hw, hend⟩ := hheld.window
  have hnowHeld : Held host s windowId d.toConsensus now :=
    ⟨⟨w, hw, hend.trans hnow⟩, hheld.decision, hheld.eligible⟩
  have hthere : Held host s' windowId d.toConsensus now :=
    RunWhere.invariant (fun a => Held host a windowId d.toConsensus now) hlater hnowHeld
      fun _ _ _ ha => ha.step
  obtain ⟨s'', result, d', hreplay, hd', hconsensus⟩ := hthere.replayWindow configs
  refine ⟨s'', result, d', hreplay, hd', ?_, ?_, ?_⟩
  all_goals rw [hconsensus]

/-! ### A feed that carries late readings over -/

/-- The texts themselves stand for their digests. -/
def sampleHost : WindowHost where
  sha256 text := text
  localeCompare := compareUnits
  collate := compareUnits
  sortByValue := sortBy fun a b =>
    match a.value, b.value with
    | .value p, .value q => compare p q
    | _, _ => .eq
  half _ _ := .nan

/-- A reading of a window that ends at 30000. -/
def sampleReading (source : String) (value : ℚ) : WindowReading where
  coverageType := "LiquidationShield"
  source := some source
  message := ""
  value := .finite value
  severity := .low
  sourceTimestamp := some 10000

def sampleWindow : String := "LiquidationShield:1970-01-01T00:00:00.000Z"

/-- The window with one reading, decided at its end. -/
def sampleDecided : WindowState where
  windows := [⟨"LiquidationShield", sampleWindow, 0, 30000, .evaluated⟩]
  readings := [⟨"r1", sampleWindow, "LiquidationShield", "acme", .value 1, .low, 10000, 12000,
    false, false⟩]
  decisions := [⟨⟨1, 0, .value 1, .low, "r1"⟩, "LiquidationShield", sampleWindow, 0, 30000, 30000⟩]

/-- The labels that lead to it. -/
def sampleDecision : List WindowLabel :=
  [.ingest (sampleReading "acme" 1) 12000 "r1", .evaluateWindow sampleWindow 30000]

/-- A duplicate and a reading after the watermark arrive for the decided window: its replay finds
the hash of the one reading. -/
theorem replay_reproduces_decision_after_duplicate :
    ∃ s s'' result d', RunWhere (WindowSteps sampleHost defaultFeedWindowConfigs
        "LiquidationShield") (SealedOnceDecided defaultFeedWindowConfigs) sampleDecided s ∧
      replayWindow sampleHost defaultFeedWindowConfigs s sampleWindow 40000 =
        .ok (s'', result, true) ∧
      getDecision s'' sampleWindow = some d' ∧ d'.value = .value 1 := by
  have hdecided : perform (windowStep sampleHost defaultFeedWindowConfigs "LiquidationShield")
      (SealedOnceDecided defaultFeedWindowConfigs) .initial sampleDecision =
        some sampleDecided := by
    decide +kernel
  have hfeed : NotBestEffort defaultFeedWindowConfigs "LiquidationShield" := by
    intro stored hstored
    cases hstored
    decide +kernel
  obtain ⟨s'', result, d', hreplay, hd', hvalue, -⟩ := replay_reproduces_decision sampleHost
    defaultFeedWindowConfigs "LiquidationShield" hfeed sampleDecided _
    (RunWhere.of_perform hdecided) sampleWindow _ rfl (.performed
      [.ingest (sampleReading "acme" 7) 31000 "r2", .ingest (sampleReading "late" 9) 36000 "r3"]
      (by decide +kernel)) 40000 (by decide)
  exact ⟨_, s'', result, d', .performed _ _, hreplay, hd', hvalue⟩

/-- Two late readings are carried into the window after its decision: the replay reports another
hash and records the value 5 in place of 1. -/
theorem decision_replaced_by_replay :
    ¬∀ s s', RunWhere (WindowSteps sampleHost defaultFeedWindowConfigs "LiquidationShield")
        (fun _ _ => True) .initial s → ∀ windowId d, getDecision s windowId = some d →
      RunWhere (WindowSteps sampleHost defaultFeedWindowConfigs "LiquidationShield")
        (fun _ _ => True) s s' → ∀ now, d.decidedAt ≤ now →
      ∃ s'' result d', replayWindow sampleHost defaultFeedWindowConfigs s' windowId now =
          .ok (s'', result, true) ∧
        getDecision s'' windowId = some d' ∧ d'.value = d.value ∧ d'.severity = d.severity ∧
        d'.inputHash = d.inputHash := by
  have hdecided : perform (windowStep sampleHost defaultFeedWindowConfigs "LiquidationShield")
      (fun _ _ => True) .initial sampleDecision = some sampleDecided := by
    decide +kernel
  intro hall
  obtain ⟨s'', result, d', hreplay, -⟩ := hall sampleDecided _ (RunWhere.of_perform hdecided)
    sampleWindow _ rfl (.performed
      [.ingest (sampleReading "beta" 5) 31000 "r2", .ingest (sampleReading "gamma" 5) 32000 "r3"]
      (by decide +kernel)) 40000 (by decide)
  have hfound : _ = some true := congrArg (fun replay => replay.toOption.map (·.2.2)) hreplay
  revert hfound
  decide +kernel

end Refract.Oracle.Windowing
