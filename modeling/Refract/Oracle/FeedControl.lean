import Refract.Lib.Ecma
import Refract.Lib.OrdMap
import Refract.Lib.Runs
import Refract.Lib.Traces

/-!
# Pausing oracle feeds

`OracleFeedControl` keeps one snapshot per scope. `pause` stores its snapshot and then asks the
chain; `resume` asks the chain and stores its snapshot once the chain has confirmed. Both are cut
here at their `await`, so that calls of several operators interleave. A snapshot is an object:
`pause` writes the answer of the chain into the object it has stored, which by then another call
may have replaced in the map.

The control is fail-closed (`paused_until_resumed`) in every interleaving in which no confirmation
reaches a `resume` that a later `pause` of its scope has overtaken: `resume` stores its snapshot
whatever has happened since it looked.
-/

namespace Refract.Oracle

open Lib List

/-! ## The control -/

inductive OnChainPauseStatus where
  | confirmed
  | unconfirmed
  | unavailable
  deriving DecidableEq, Repr

structure FeedControlSnapshot where
  scope : String
  paused : Bool
  reason : Option String
  changedAt : Int
  onChainStatus : OnChainPauseStatus
  txHash : Option String
  deriving DecidableEq, Repr

/-- What `publishPause` resolves to. -/
structure PauseReceipt where
  confirmed : Bool
  txHash : Option String
  deriving DecidableEq, Repr

/-- The snapshot objects in the order they were made, and the object that is current for a scope.
`publisher` says whether the control was constructed with a publisher. -/
structure OracleFeedControl where
  publisher : Bool
  objects : List FeedControlSnapshot
  snapshots : OrdMap String Nat

/-- A call that waits for `publishPause`. -/
inductive FeedCall where
  | pause (object : Nat)
  | resume (scope : String) (now : Int)

/-- A call runs to its `await` or to its end. -/
inductive FeedProgress where
  | waits (call : FeedCall)
  | ends (result : Except String FeedControlSnapshot)

variable {c : OracleFeedControl} {scope : String}

namespace OracleFeedControl

/-- The control as it is constructed. -/
def new (publisher : Bool) : OracleFeedControl := ⟨publisher, [], .empty⟩

/-- `this.snapshots.get(scope)` -/
def current (c : OracleFeedControl) (scope : String) : Option FeedControlSnapshot :=
  (c.snapshots.get? scope).bind fun object => c.objects[object]?

/-- `this.snapshots.get(scope)?.paused === true` -/
def holds (c : OracleFeedControl) (scope : String) : Bool :=
  (c.current scope).any FeedControlSnapshot.paused

def isPaused (c : OracleFeedControl) (coverageType : String) : Bool :=
  c.holds "*" || c.holds coverageType

/-- The status of a snapshot that the chain has not confirmed. -/
def initialStatus (c : OracleFeedControl) : OnChainPauseStatus :=
  if c.publisher then .unconfirmed else .unavailable

/-- The snapshot of a scope that was never paused. -/
def unpaused (c : OracleFeedControl) (scope : String) (now : Int) : FeedControlSnapshot :=
  ⟨scope, false, none, now, c.initialStatus, none⟩

def store (c : OracleFeedControl) (snapshot : FeedControlSnapshot) : OracleFeedControl :=
  { c with
    objects := c.objects ++ [snapshot]
    snapshots := c.snapshots.set snapshot.scope c.objects.length }

def pause (c : OracleFeedControl) (scope reason : String) (now : Int) :
    OracleFeedControl × FeedProgress :=
  let snapshot := ⟨scope, true, some (takeChars 256 reason), now, c.initialStatus, none⟩
  (c.store snapshot,
    if c.publisher then .waits (.pause c.objects.length) else .ends (.ok snapshot))

/-- The answer of the chain, written into the object of the call. -/
def pauseAnswer (answer : Except String PauseReceipt) (snapshot : FeedControlSnapshot) :
    FeedControlSnapshot :=
  match answer with
  | .ok published =>
    { snapshot with
      onChainStatus := if published.confirmed then .confirmed else .unconfirmed
      txHash := published.txHash }
  | .error _ => { snapshot with onChainStatus := .unconfirmed }

def pauseAnswered (c : OracleFeedControl) (object : Nat) (answer : Except String PauseReceipt) :
    OracleFeedControl :=
  { c with objects := c.objects.modify object (pauseAnswer answer) }

def resume (c : OracleFeedControl) (scope : String) (now : Int) : FeedProgress :=
  if c.holds scope then
    if c.publisher then .waits (.resume scope now)
    else .ends (.error "Cannot resume feed without an on-chain pause publisher")
  else .ends (.ok ((c.current scope).getD (c.unpaused scope now)))

def resumeAnswered (c : OracleFeedControl) (scope : String) (now : Int)
    (answer : Except String PauseReceipt) :
    OracleFeedControl × Except String FeedControlSnapshot :=
  match answer with
  | .error message => (c, .error message)
  | .ok published =>
    if published.confirmed then
      let resumed := ⟨scope, false, none, now, .confirmed, published.txHash⟩
      (c.store resumed, .ok resumed)
    else (c, .error "On-chain feed resume was not confirmed")

/-! ### What the writes keep -/

theorem holds_store_self (c : OracleFeedControl) (snapshot : FeedControlSnapshot) :
    (c.store snapshot).holds snapshot.scope = snapshot.paused := by
  simp [holds, current, store]

/-- Storing a snapshot of another scope, or one that is paused, keeps a scope paused. -/
theorem holds_store (h : c.holds scope = true) {snapshot : FeedControlSnapshot}
    (hs : snapshot.scope = scope → snapshot.paused = true) :
    (c.store snapshot).holds scope = true := by
  by_cases heq : snapshot.scope = scope
  · subst heq
    rw [holds_store_self]
    exact hs rfl
  simp only [holds, current, Option.any_eq_true, Option.bind_eq_some_iff] at h ⊢
  obtain ⟨found, ⟨object, hget, hobj⟩, hpaused⟩ := h
  refine ⟨found, ⟨object, ?_, ?_⟩, hpaused⟩
  · simp only [store, OrdMap.get?_set_of_ne (Ne.symm heq), hget]
  · have hlt := (List.getElem?_eq_some_iff.1 hobj).1
    simp only [store, getElem?_append_left hlt, hobj]

/-- The answer to a `pause` changes no object's `paused`. -/
theorem holds_pauseAnswered (c : OracleFeedControl) (object : Nat)
    (answer : Except String PauseReceipt) (scope : String) :
    (c.pauseAnswered object answer).holds scope = c.holds scope := by
  have hkeeps : ∀ snapshot, (pauseAnswer answer snapshot).paused = snapshot.paused := by
    intro snapshot
    cases answer <;> rfl
  simp only [holds, current, pauseAnswered]
  cases c.snapshots.get? scope with
  | none => rfl
  | some i =>
    simp only [Option.bind_some, getElem?_modify]
    split
    · cases c.objects[i]? with
      | none => rfl
      | some snapshot => exact hkeeps snapshot
    · simp

end OracleFeedControl

/-! ## Calls that interleave -/

inductive FeedRequest where
  | pause (scope reason : String) (now : Int)
  | resume (scope : String) (now : Int)
  deriving DecidableEq, Repr

/-- What can be observed: calls, answers of the chain, and how calls end. -/
inductive FeedEvent where
  | called (id : Nat) (request : FeedRequest)
  | answered (id : Nat) (answer : Except String PauseReceipt)
  | ended (id : Nat) (result : Except String FeedControlSnapshot)
  deriving DecidableEq

inductive FeedLabel where
  | call (request : FeedRequest)
  | answer (id : Nat) (answer : Except String PauseReceipt)

/-- The control, the calls that wait, the number of calls so far, and what happened. -/
structure FeedState where
  control : OracleFeedControl
  waiting : List (Nat × FeedCall)
  calls : Nat
  history : List FeedEvent

def FeedState.start (publisher : Bool) : FeedState := ⟨.new publisher, [], 0, []⟩

def OracleFeedControl.begin (c : OracleFeedControl) :
    FeedRequest → OracleFeedControl × FeedProgress
  | .pause scope reason now => c.pause scope reason now
  | .resume scope now => (c, c.resume scope now)

/-- A call goes on with the answer of the chain. -/
def OracleFeedControl.goOn (c : OracleFeedControl) (answer : Except String PauseReceipt) :
    FeedCall → Option (OracleFeedControl × Except String FeedControlSnapshot)
  | .pause object =>
    let c := c.pauseAnswered object answer
    (c.objects[object]?).map fun snapshot => (c, .ok snapshot)
  | .resume scope now => some (c.resumeAnswered scope now answer)

def FeedProgress.waiting (id : Nat) : FeedProgress → List (Nat × FeedCall)
  | .waits call => [(id, call)]
  | .ends _ => []

def FeedProgress.events (id : Nat) : FeedProgress → List FeedEvent
  | .waits _ => []
  | .ends result => [.ended id result]

def feedStep (s : FeedState) : FeedLabel → Option FeedState
  | .call request =>
    let (control, progress) := s.control.begin request
    some
      { control
        waiting := s.waiting ++ progress.waiting s.calls
        calls := s.calls + 1
        history := s.history ++ .called s.calls request :: progress.events s.calls }
  | .answer id answer =>
    ((s.waiting.find? fun p => p.1 = id).bind fun p => s.control.goOn answer p.2).map
      fun (control, result) =>
        { s with
          control
          waiting := s.waiting.filter fun p => p.1 ≠ id
          history := s.history ++ [FeedEvent.answered id answer, .ended id result] }

/-- One call begins, or one goes on. -/
abbrev FeedSteps (s : FeedState) (l : FeedLabel) (s' : FeedState) : Prop := feedStep s l = some s'

/-! ## Fail-closed -/

/-- The coverage types that a scope is about. -/
def Covers (scope coverageType : String) : Prop := scope = "*" ∨ scope = coverageType

def IsPause (scope : String) (e : FeedEvent) : Prop :=
  ∃ id reason now, e = .called id (.pause scope reason now)

/-- A `resume` of the scope was called and then confirmed on chain. -/
def Reopened (scope : String) (trace : List FeedEvent) : Prop :=
  ∃ id now txHash, .called id (.resume scope now) ∈ trace ∧
    .answered id (.ok ⟨true, txHash⟩) ∈ trace

/-- The scope of a call to `pause`. -/
def FeedEvent.pauses : FeedEvent → Option String
  | .called _ (.pause scope _ _) => some scope
  | _ => none

/-- A `resume` is overtaken when a `pause` of its scope was called since it was. -/
def FeedCall.overtaken (history : List FeedEvent) (id : Nat) : FeedCall → Bool
  | .resume scope now =>
    (since (.called id (.resume scope now)) history).any fun e => e.pauses = some scope
  | .pause _ => false

/-- The call that a confirmation reaches. -/
def FeedLabel.confirms : FeedLabel → Option Nat
  | .answer id (.ok ⟨true, _⟩) => some id
  | _ => none

/-- Before the step: a confirmation reaches no overtaken `resume`. -/
def NotOvertaken (s : FeedState) (l : FeedLabel) : Prop :=
  ∀ p ∈ s.waiting, l.confirms = some p.1 → p.2.overtaken s.history p.1 = false

instance (s : FeedState) (l : FeedLabel) : Decidable (NotOvertaken s l) :=
  inferInstanceAs (Decidable
    (∀ p ∈ s.waiting, l.confirms = some p.1 → p.2.overtaken s.history p.1 = false))

theorem Reopened.append {trace : List FeedEvent} (h : Reopened scope trace)
    (added : List FeedEvent) : Reopened scope (trace ++ added) := by
  obtain ⟨id, now, txHash, hcalled, hanswered⟩ := h
  exact ⟨id, now, txHash, mem_append_left _ hcalled, mem_append_left _ hanswered⟩

/-- Every scope is paused since its last `pause`, unless a later `resume` was confirmed. -/
def Closed (c : OracleFeedControl) (history : List FeedEvent) : Prop :=
  ∀ scope, FollowedBy (IsPause scope) (fun post => Reopened scope post ∨ c.holds scope = true)
    history

structure FeedInv (s : FeedState) : Prop where
  called : ∀ id scope now, (id, .resume scope now) ∈ s.waiting →
    .called id (.resume scope now) ∈ s.history
  closed : Closed s.control s.history

variable {c' : OracleFeedControl} {history : List FeedEvent}

/-- New events keep the control closed if the scopes of new `pause` calls are paused and every
paused scope stays so or is reopened. -/
theorem Closed.append {added : List FeedEvent} (h : Closed c history)
    (hkeep : ∀ scope pre e post, IsPause scope e → history = pre ++ e :: post →
      c.holds scope = true → Reopened scope (post ++ added) ∨ c'.holds scope = true)
    (hnew : ∀ e ∈ added, ∀ scope, IsPause scope e → c'.holds scope = true) :
    Closed c' (history ++ added) := by
  intro scope pre e post he heq
  rcases append_eq_append_cons heq with ⟨old, hhist, rfl⟩ | ⟨new, -, hadd⟩
  · rcases h scope pre e old he hhist with hreopened | hheld
    · exact .inl (hreopened.append added)
    · exact hkeep scope pre e old he hhist hheld
  · exact .inr (hnew e (by simp [hadd]) scope he)

variable {s s' : FeedState} {request : FeedRequest} {id n : Nat} {now : Int}

/-- The call of a `resume` that begins to wait is the request itself. -/
theorem eq_of_mem_waiting (h : (id, .resume scope now) ∈ (c.begin request).2.waiting n) :
    id = n ∧ request = .resume scope now := by
  cases request with
  | pause =>
    simp only [OracleFeedControl.begin, OracleFeedControl.pause] at h
    split at h <;> simp [FeedProgress.waiting] at h
  | resume =>
    simp only [OracleFeedControl.begin, OracleFeedControl.resume] at h
    split at h
    · split at h
      · simpa [FeedProgress.waiting, eq_comm] using h
      · simp [FeedProgress.waiting] at h
    · simp [FeedProgress.waiting] at h

theorem not_isPause_of_mem_events {progress : FeedProgress} {e : FeedEvent}
    (h : e ∈ progress.events n) (scope : String) : ¬IsPause scope e := by
  rintro ⟨id, reason, now, rfl⟩
  cases progress <;> simp [FeedProgress.events] at h

/-- A call that begins keeps the paused scopes paused. -/
theorem holds_begin (h : c.holds scope = true) (request : FeedRequest) :
    (c.begin request).1.holds scope = true := by
  cases request with
  | pause => exact OracleFeedControl.holds_store h fun _ => rfl
  | resume => exact h

theorem FeedInv.call (h : FeedInv s) (hstep : feedStep s (.call request) = some s') :
    FeedInv s' := by
  simp only [feedStep, Option.some.injEq] at hstep
  subst hstep
  refine ⟨?_, h.closed.append (fun _ _ _ _ _ _ hheld => .inr (holds_begin hheld request)) ?_⟩
  · intro id scope now hmem
    rcases mem_append.1 hmem with hold | hnew
    · exact mem_append_left _ (h.called id scope now hold)
    · obtain ⟨rfl, rfl⟩ := eq_of_mem_waiting hnew
      exact mem_append_right _ mem_cons_self
  · intro e he scope hpause
    rcases mem_cons.1 he with rfl | hevent
    · obtain ⟨id, reason, now, hcalled⟩ := hpause
      cases hcalled
      exact OracleFeedControl.holds_store_self _ _
    · exact absurd hpause (not_isPause_of_mem_events hevent scope)

variable {result : Except String FeedControlSnapshot}

/-- A confirmed `resume` that is not overtaken was called after every `pause` of its scope. -/
theorem Closed.resumed {txHash : Option String} (h : Closed c history)
    (hcalled : .called id (.resume scope now) ∈ history)
    (hfst : (FeedCall.resume scope now).overtaken history id = false) :
    Closed (c.resumeAnswered scope now (.ok ⟨true, txHash⟩)).1
      (history ++ [FeedEvent.answered id (.ok ⟨true, txHash⟩), .ended id result]) := by
  refine h.append ?_ ?_
  · intro scope' pre e post he hhist hheld
    by_cases hscope : scope = scope'
    · subst hscope
      -- The pause is not among what happened since the `resume` was called.
      have hnot : e ∉ since (.called id (.resume scope now)) history := by
        intro hsince
        obtain ⟨id', reason, now', rfl⟩ := he
        have hpauses := any_eq_false.1 hfst _ hsince
        simp [FeedEvent.pauses] at hpauses
      refine .inl ⟨id, now, txHash, ?_, ?_⟩
      · exact mem_append_left _ (mem_of_not_mem_since hcalled hhist hnot)
      · exact mem_append_right _ mem_cons_self
    · exact .inr (OracleFeedControl.holds_store hheld fun heq => absurd heq hscope)
  · rintro e he scope' ⟨id', reason, now', rfl⟩
    simp at he

/-- An answer that confirms no `resume` changes what is paused nowhere. -/
theorem Closed.answered {answer : Except String PauseReceipt} (h : Closed c history)
    (hsame : ∀ scope, c'.holds scope = c.holds scope) :
    Closed c' (history ++ [FeedEvent.answered id answer, .ended id result]) := by
  refine h.append (fun scope _ _ _ _ _ hheld => .inr ((hsame scope).trans hheld)) ?_
  rintro e he scope ⟨id', reason, now, rfl⟩
  simp at he

theorem FeedInv.answer {answer : Except String PauseReceipt} (h : FeedInv s)
    (hfst : NotOvertaken s (.answer id answer))
    (hstep : feedStep s (.answer id answer) = some s') : FeedInv s' := by
  simp only [feedStep, Option.map_eq_some_iff, Option.bind_eq_some_iff] at hstep
  obtain ⟨⟨control, result⟩, ⟨⟨id', call⟩, hfind, hgo⟩, rfl⟩ := hstep
  have hwaits := mem_of_find?_eq_some hfind
  have hid := find?_some hfind
  obtain rfl : id' = id := of_decide_eq_true hid
  refine ⟨?_, ?_⟩
  · intro i scope now hmem
    exact mem_append_left _ (h.called i scope now (mem_of_mem_filter hmem))
  · cases call with
    | pause =>
      obtain ⟨snapshot, -, heq⟩ := Option.map_eq_some_iff.1 hgo
      cases heq
      exact h.closed.answered fun scope => OracleFeedControl.holds_pauseAnswered _ _ _ scope
    | resume =>
      cases answer with
      | error =>
        cases hgo
        exact h.closed.answered fun _ => rfl
      | ok published =>
        obtain ⟨confirmed, txHash⟩ := published
        cases confirmed with
        | false =>
          cases hgo
          exact h.closed.answered fun _ => rfl
        | true =>
          -- Only here a hold is taken away, and no pause has come between.
          cases hgo
          exact h.closed.resumed (h.called _ _ _ hwaits) (hfst _ hwaits rfl)

theorem FeedInv.step {l : FeedLabel} (h : FeedInv s) (hfst : NotOvertaken s l)
    (hstep : feedStep s l = some s') : FeedInv s' := by
  cases l with
  | call => exact h.call hstep
  | answer _ answer => exact h.answer hfst hstep

/-- After `pause(scope)` every covered coverage type is paused until a `resume` of the scope that
was called later is confirmed, in every interleaving in which no overtaken `resume` is confirmed. -/
theorem paused_until_resumed (publisher : Bool) (s : FeedState)
    (hrun : RunWhere FeedSteps NotOvertaken (.start publisher) s) (scope coverageType : String)
    (hcovers : Covers scope coverageType) :
    FollowedBy (IsPause scope)
      (fun post => Reopened scope post ∨ s.control.isPaused coverageType = true) s.history := by
  have hinv : FeedInv s := by
    refine hrun.invariant FeedInv ?_ fun _ _ _ ha => ha.step
    refine ⟨fun _ _ _ hmem => absurd hmem not_mem_nil, ?_⟩
    exact fun scope => FollowedBy.nil _ _
  intro pre e post he heq
  refine (hinv.closed scope pre e post he heq).imp_right fun hheld => ?_
  rw [OracleFeedControl.isPaused, Bool.or_eq_true]
  rcases hcovers with rfl | rfl
  · exact .inl hheld
  · exact .inr hheld

/-! ### Two operators -/

/-- One operator pauses everything, resumes and pauses a feed again; the chain refuses the last
pause. -/
theorem paused_until_resumed_refused :
    ∃ s, RunWhere FeedSteps NotOvertaken (.start true) s ∧
      s.history = [.called 0 (.pause "*" "drill" 1), .called 1 (.resume "*" 2),
        .answered 1 (.ok ⟨true, some "a1"⟩),
        .ended 1 (.ok ⟨"*", false, none, 2, .confirmed, some "a1"⟩),
        .called 2 (.pause "FlightDelay" "bad feed" 3), .answered 2 (.error "timeout"),
        .ended 2 (.ok ⟨"FlightDelay", true, some "bad feed", 3, .unconfirmed, none⟩)] ∧
      s.control.isPaused "FlightDelay" = true ∧ s.control.isPaused "MarketCrash" = false := by
  refine RunWhere.exists_reached
    [.call (.pause "*" "drill" 1), .call (.resume "*" 2), .answer 1 (.ok ⟨true, some "a1"⟩),
     .call (.pause "FlightDelay" "bad feed" 3), .answer 2 (.error "timeout")]
    (fun s => s.history = [.called 0 (.pause "*" "drill" 1), .called 1 (.resume "*" 2),
        .answered 1 (.ok ⟨true, some "a1"⟩),
        .ended 1 (.ok ⟨"*", false, none, 2, .confirmed, some "a1"⟩),
        .called 2 (.pause "FlightDelay" "bad feed" 3), .answered 2 (.error "timeout"),
        .ended 2 (.ok ⟨"FlightDelay", true, some "bad feed", 3, .unconfirmed, none⟩)] ∧
      s.control.isPaused "MarketCrash" = false) (by decide +kernel) ?_
  rintro s hrun ⟨hhistory, hother⟩
  have hpaused := paused_until_resumed true s hrun "FlightDelay" "FlightDelay" (.inr rfl)
    (s.history.take 4) (.called 2 (.pause "FlightDelay" "bad feed" 3)) (s.history.drop 5)
    ⟨_, _, _, rfl⟩ (by rw [hhistory]; rfl)
  refine ⟨hhistory, hpaused.resolve_left ?_, hother⟩
  rintro ⟨id, now, txHash, hcalled, -⟩
  rw [hhistory] at hcalled
  simp at hcalled

/-- The confirmation of a `resume` arrives after a second operator's `pause`: the feeds are open,
and no `resume` was called since that `pause`. -/
theorem overtaken_resume_unpauses :
    ∃ s, RunWhere FeedSteps (fun _ _ => True) (.start true) s ∧
      ∃ scope coverageType, Covers scope coverageType ∧
        ¬FollowedBy (IsPause scope)
          (fun post => Reopened scope post ∨ s.control.isPaused coverageType = true)
          s.history := by
  refine RunWhere.exists_reached
    [.call (.pause "*" "drill" 1), .call (.resume "*" 2), .call (.pause "*" "attack" 3),
     .answer 1 (.ok ⟨true, some "a1"⟩)]
    (fun s => s.history = [.called 0 (.pause "*" "drill" 1), .called 1 (.resume "*" 2),
        .called 2 (.pause "*" "attack" 3), .answered 1 (.ok ⟨true, some "a1"⟩),
        .ended 1 (.ok ⟨"*", false, none, 2, .confirmed, some "a1"⟩)] ∧
      s.control.isPaused "FlightDelay" = false) (by decide +kernel) ?_
  rintro s - ⟨hhistory, hopen⟩
  refine ⟨"*", "FlightDelay", .inl rfl, fun hclosed => ?_⟩
  rcases hclosed (s.history.take 2) (.called 2 (.pause "*" "attack" 3)) (s.history.drop 3)
    ⟨_, _, _, rfl⟩ (by rw [hhistory]; rfl) with ⟨id, now, txHash, hcalled, -⟩ | hpaused
  · rw [hhistory] at hcalled
    simp at hcalled
  · rw [hopen] at hpaused
    cases hpaused

end Refract.Oracle
