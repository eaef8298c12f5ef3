import Refract.Common.Idempotency
import Refract.Lib.Traces

/-!
# Mutual exclusion by idempotency keys

What the service promises to a write (`Exclusive`): requests that hold the lock of one slot are
separated by a release of the first or by the lock timeout, and nobody acquires it after a commit.
The statements of `acquire` do not look at what other requests have done since its `SELECT`, nor do
`commit` and `release` look at whose lock they find. The promise is kept in every run in which each
statement finds the row as its own request has last found or left it (`exclusive_of_undisturbed`);
two requests that both find no row both go ahead.

The invariant is about one slot: its row, the locks that requests believe to hold, the time and the
history.
-/

namespace Refract.Common

open Lib List OrdMap IdempotencyRequest IdempotencyState Option

/-- Holders of one slot exclude each other. -/
structure Exclusive (slot : IdempotencySlot) (history : List IdempotencyEvent) : Prop where
  separated : ∀ (pre : List IdempotencyEvent) (first : Nat) (t : Int)
    (mid : List IdempotencyEvent) (second : Nat) (t' : Int) (post : List IdempotencyEvent),
    history = pre ++ .acquired first slot t :: (mid ++ .acquired second slot t' :: post) →
    .released first slot ∈ mid ∨ (t + lockTimeoutMs ≤ t' ∧ ∀ id, .committed id slot ∉ mid)
  final : ∀ (pre : List IdempotencyEvent) (id : Nat) (post : List IdempotencyEvent),
    history = pre ++ .committed id slot :: post →
    ∀ id' t, .acquired id' slot t ∉ post

/-- Before the step: the statement finds the row as its request has last found or left it, and
`commit` finds one. -/
def Undisturbed (s : IdempotencyState) : IdempotencyLabel → Prop
  | .acquire .. => True
  | .move _ .examine _ => True
  | .move id (.commit ..) _ => ∀ request ∈ s.requests.get? id,
      s.table.get? request.slot = request.seen ∧ request.seen.isSome
  | .move id _ _ => ∀ request ∈ s.requests.get? id, s.table.get? request.slot = request.seen

instance (s : IdempotencyState) (l : IdempotencyLabel) : Decidable (Undisturbed s l) := by
  unfold Undisturbed
  split <;> infer_instance

/-! ## One slot -/

/-- The lock of the holder is released, or old enough to be taken over. -/
def Settled (slot : IdempotencySlot) (id : Nat) (t now : Int) (post : List IdempotencyEvent) :
    Prop :=
  .released id slot ∈ post ∨ t + lockTimeoutMs ≤ now

/-- The row is the lock of `id`, and no other request believes to hold a lock of that time. -/
def HasLock (row : Option IdempotencyRow) (locks : Nat → Option IdempotencyRow) (id : Nat)
    (t : Int) : Prop :=
  (∃ r, row = some r ∧ r.createdAt = t) ∧ ∀ id' r, locks id' = some r → r.createdAt = t → id' = id

/-- What is before an acquisition: settled ones, and no commit. -/
def AcquiredAfter (slot : IdempotencySlot) (e : IdempotencyEvent) (before : List IdempotencyEvent) :
    Prop :=
  ∀ id t, e = .acquired id slot t →
    (∀ pre first t' mid, before = pre ++ .acquired first slot t' :: mid →
      Settled slot first t' t mid) ∧ ∀ id', .committed id' slot ∉ before

/-- The invariant of a slot: its row, the uncommitted locks that requests believe to hold, the time
and the history. -/
structure SlotInv (slot : IdempotencySlot) (row : Option IdempotencyRow)
    (locks : Nat → Option IdempotencyRow) (now : Int) (history : List IdempotencyEvent) : Prop where
  committed : ∀ id, .committed id slot ∈ history → ∃ r, row = some r ∧ r.committed = true
  settled : ∀ pre id t post, history = pre ++ .acquired id slot t :: post →
    Settled slot id t now post ∨ HasLock row locks id t
  holder : ∀ id r, locks id = some r → ∃ pre post,
    history = pre ++ .acquired id slot r.createdAt :: post ∧ .released id slot ∉ post
  acquired : PrecededBy (AcquiredAfter slot) history

variable {slot : IdempotencySlot} {id : Nat} {now now' t : Int}

theorem Settled.extend {post : List IdempotencyEvent} (h : Settled slot id t now post)
    (hle : now ≤ now') (added : List IdempotencyEvent) : Settled slot id t now' (post ++ added) :=
  h.imp (mem_append_left added) fun hold => hold.trans hle

section Slot

variable {row : Option IdempotencyRow} {locks : Nat → Option IdempotencyRow}
  {history : List IdempotencyEvent} {row' : Option IdempotencyRow}
  {locks' : Nat → Option IdempotencyRow}

/-- A row that is replaced by a row of the same time is still the lock of its holder. -/
theorem HasLock.mono (h : HasLock row locks id t)
    (hrow : ∀ r, row = some r → ∃ r', row' = some r' ∧ r'.createdAt = r.createdAt)
    (hlocks : ∀ id r, locks' id = some r → locks id = some r) : HasLock row' locks' id t := by
  obtain ⟨⟨r, hr, htime⟩, honly⟩ := h
  obtain ⟨r', hr', hsame⟩ := hrow r hr
  exact ⟨⟨r', hr', hsame.trans htime⟩, fun id' r hlock => honly id' r (hlocks id' r hlock)⟩

/-- Steps that acquire nothing. A lock that loses its row is released or old enough, committed rows
stay, and no request believes to hold more than before. -/
theorem SlotInv.extend {added : List IdempotencyEvent} (h : SlotInv slot row locks now history)
    (hle : now ≤ now') (hadd : ∀ id t, .acquired id slot t ∉ added)
    (hcomm : ∀ id, .committed id slot ∈ added ∨ (∃ r, row = some r ∧ r.committed = true) →
      ∃ r, row' = some r ∧ r.committed = true) (hlost : ∀ id t, HasLock row locks id t →
      (.released id slot ∈ added ∨ t + lockTimeoutMs ≤ now') ∨ HasLock row' locks' id t)
    (hlocks : ∀ id r, locks' id = some r → locks id = some r ∧ .released id slot ∉ added) :
    SlotInv slot row' locks' now' (history ++ added) := by
  refine ⟨?_, ?_, ?_, ?_⟩
  · intro id hmem
    rcases mem_append.1 hmem with hold | hnew
    · exact hcomm id (.inr (h.committed id hold))
    · exact hcomm id (.inl hnew)
  · intro pre id t post heq
    -- Nothing new is acquired, so the acquisition is an old one.
    rcases append_eq_append_cons heq with ⟨old, hhist, rfl⟩ | ⟨new, -, hnew⟩
    · rcases h.settled pre id t old hhist with hsettled | hlock
      · exact .inl (hsettled.extend hle added)
      · exact (hlost id t hlock).imp_left (Or.imp_left (mem_append_right old))
    · exact absurd (by simp [hnew]) (hadd id t)
  · intro id r hr
    obtain ⟨hold, hnot⟩ := hlocks id r hr
    obtain ⟨pre, post, rfl, hfree⟩ := h.holder id r hold
    refine ⟨pre, post ++ added, by simp, ?_⟩
    rw [mem_append]
    exact not_or.2 ⟨hfree, hnot⟩
  · refine h.acquired.append added ?_
    rintro new e post rfl id t rfl
    exact absurd (by simp) (hadd id t)

/-- The lock is acquired when the slot has no row: whoever held it is settled, and nothing was
committed. -/
theorem SlotInv.acquire {lock : IdempotencyRow} (h : SlotInv slot none locks now history)
    (hle : now ≤ now') (htime : lock.createdAt = now') :
    SlotInv slot (some lock) (Function.update locks id (some lock)) now'
      (history ++ [IdempotencyEvent.acquired id slot now']) := by
  have hsettled : ∀ pre id t post, history = pre ++ .acquired id slot t :: post →
      Settled slot id t now post := by
    intro pre id t post heq
    refine (h.settled pre id t post heq).resolve_right ?_
    rintro ⟨⟨r, hr, -⟩, -⟩
    cases hr
  have hfree : ∀ id, .committed id slot ∉ history := by
    intro id hmem
    obtain ⟨r, hr, -⟩ := h.committed id hmem
    cases hr
  refine ⟨?_, ?_, ?_, ?_⟩
  · intro id' hmem
    rcases mem_append.1 hmem with hold | hnew
    · exact absurd hold (hfree id')
    · simp at hnew
  · intro pre id' t post heq
    rcases append_eq_append_cons heq with ⟨old, hhist, rfl⟩ | ⟨new, -, hnew⟩
    · exact .inl ((hsettled pre id' t old hhist).extend hle _)
    obtain ⟨rfl, rfl⟩ : id' = id ∧ t = now' := by
      cases new <;> simp_all
    refine .inr ⟨⟨lock, rfl, htime⟩, fun other r hr hsame => ?_⟩
    by_contra hne
    rw [Function.update_of_ne hne] at hr
    -- Another lock of this very time would be settled, but it is neither released nor old.
    obtain ⟨pre', post', hoth, hunreleased⟩ := h.holder other r hr
    rcases hsettled pre' other r.createdAt post' hoth with hrel | hold
    · exact hunreleased hrel
    · rw [lockTimeoutMs] at hold
      omega
  · intro id' r hr
    by_cases hid : id' = id
    · subst hid
      rw [Function.update_self, some.injEq] at hr
      subst hr
      exact ⟨history, [], by rw [htime], not_mem_nil⟩
    · rw [Function.update_of_ne hid] at hr
      obtain ⟨pre, post, rfl, hunreleased⟩ := h.holder id' r hr
      refine ⟨pre, post ++ [.acquired id slot now'], by simp, ?_⟩
      simpa using hunreleased
  · refine h.acquired.snoc _ ?_
    rintro id' t heq
    cases heq
    refine ⟨fun pre first t' mid hbef => ?_, hfree⟩
    exact (hsettled pre first t' mid hbef).imp_right fun hold => hold.trans hle

/-- The order of acquisitions is the promise of the service. -/
theorem SlotInv.exclusive (h : SlotInv slot row locks now history) : Exclusive slot history := by
  refine ⟨?_, ?_⟩
  · intro pre first t mid second t' post heq
    have hsplit : history = (pre ++ .acquired first slot t :: mid) ++
        .acquired second slot t' :: post := by
      rw [heq, append_assoc, cons_append]
    obtain ⟨hsettled, hfree⟩ := h.acquired _ _ _ hsplit second t' rfl
    refine (hsettled pre first t mid rfl).imp_right fun hold => ⟨hold, fun id hmem => ?_⟩
    exact hfree id (by simp [hmem])
  · intro pre id post heq id' t hmem
    obtain ⟨mid, post', rfl⟩ := append_of_mem hmem
    have hsplit :
        history = (pre ++ .committed id slot :: mid) ++ .acquired id' slot t :: post' := by
      rw [heq, append_assoc, cons_append]
    exact (h.acquired _ _ _ hsplit id' t rfl).2 id (by simp)

end Slot

/-! ## What a request does -/

/-- The uncommitted lock of the slot that a request believes to hold. -/
def IdempotencyRequest.lock (slot : IdempotencySlot) (r : IdempotencyRequest) :
    Option IdempotencyRow :=
  if r.slot = slot ∧ r.stage = .holding then r.seen.filter (!·.committed) else none

def IdempotencyState.locks (s : IdempotencyState) (slot : IdempotencySlot) (id : Nat) :
    Option IdempotencyRow :=
  (s.requests.get? id).bind (lock slot)

/-- A request is about to delete a stale lock only, and to insert where it found no row. -/
def IdempotencyRequest.Ready (now : Int) (r : IdempotencyRequest) : Prop :=
  match r.stage with
  | .deleting => ∃ row, r.seen = some row ∧ row.committed = false ∧
      row.createdAt + lockTimeoutMs ≤ now
  | .inserting => r.seen = none
  | .selected | .holding => True

variable {r : IdempotencyRequest}

theorem IdempotencyRequest.Ready.mono (h : r.Ready now) (hle : now ≤ now') : r.Ready now' := by
  obtain ⟨slot, stage, seen⟩ := r
  cases stage with
  | deleting =>
    obtain ⟨row, hseen, hpend, hold⟩ := h
    exact ⟨row, hseen, hpend, hold.trans hle⟩
  | inserting => exact h
  | selected | holding => trivial

/-- The end of an `acquire` that does not go ahead. -/
def IdempotencyEvent.Refuses : IdempotencyEvent → Prop
  | .replayed .. | .conflicted .. => True
  | _ => False

/-- What a move of a request does. -/
inductive Moved (request : IdempotencyRequest) (id : Nat) (table : IdempotencyTable) (now : Int) :
    IdempotencyMove → MoveEffect → Prop
  | examined {request' : Option IdempotencyRequest} {events : List IdempotencyEvent}
      (hevents : ∀ e ∈ events, e.Refuses)
      (hready : ∀ r ∈ request', r.stage ≠ .holding ∧ r.Ready now) :
      Moved request id table now .examine ⟨table, request', events⟩
  | deleted (hstage : request.stage = .deleting) :
      Moved request id table now .delete
        (request.proceed .inserting (table.delete request.slot) [])
  | inserted (hstage : request.stage = .inserting) :
      Moved request id table now .insert
        (request.proceed .holding (insertLock table request.slot now)
          [.acquired id request.slot now])
  | committed (hstage : request.stage = .holding) (responseBody : Option String)
      (statusCode : Int) :
      Moved request id table now (.commit responseBody statusCode)
        (request.proceed .holding (commitLock table request.slot responseBody statusCode)
          [.committed id request.slot])
  | released (hstage : request.stage = .holding) :
      Moved request id table now .release
        (request.proceed .holding (releaseLock table request.slot) [.released id request.slot])

variable {request : IdempotencyRequest} {table : IdempotencyTable} {effect : MoveEffect}

theorem moved_of_examine (hstage : request.stage = .selected)
    (h : request.move id table now .examine = some effect) :
    Moved request id table now .examine effect := by
  simp only [IdempotencyRequest.move, hstage, examine] at h
  cases hseen : request.seen with
  | none =>
    simp only [hseen] at h
    cases h
    refine .examined (by simp) ?_
    rintro r ⟨⟩
    exact ⟨IdempotencyStage.noConfusion, rfl⟩
  | some row =>
    simp only [hseen] at h
    cases hcomm : row.committed with
    | true =>
      simp only [hcomm, if_true] at h
      cases h
      exact .examined (by simp [IdempotencyEvent.Refuses]) (by simp)
    | false =>
      simp only [hcomm, Bool.false_eq_true, if_false] at h
      -- A young lock is in the way; an old one is to be deleted.
      split_ifs at h with hage
      · cases h
        exact .examined (by simp [IdempotencyEvent.Refuses]) (by simp)
      · cases h
        refine .examined (by simp) ?_
        rintro r ⟨⟩
        refine ⟨IdempotencyStage.noConfusion, row, rfl, hcomm, ?_⟩
        omega

theorem moved_of_move {move : IdempotencyMove} (h : request.move id table now move = some effect) :
    Moved request id table now move effect := by
  have hmove := h
  simp only [IdempotencyRequest.move] at hmove
  split at hmove
  · exact moved_of_examine ‹_› h
  · cases hmove
    exact .deleted ‹_›
  · cases hmove
    exact .inserted ‹_›
  · cases hmove
    exact .committed ‹_› _ _
  · cases hmove
    exact .released ‹_›
  · cases hmove

/-! ## Runs -/

/-- What every reached state satisfies. -/
structure IdempotencyInv (s : IdempotencyState) : Prop where
  ready : ∀ id r, s.requests.get? id = some r → r.Ready s.now
  slots : ∀ slot, SlotInv slot (s.table.get? slot) (s.locks slot) s.now s.history

/-- The invariant of a slot in a state. -/
abbrev IdempotencyState.SlotHolds (s : IdempotencyState) (slot : IdempotencySlot) : Prop :=
  SlotInv slot (s.table.get? slot) (s.locks slot) s.now s.history

variable {s s' : IdempotencyState}

theorem get?_apply_requests (id : Nat) (now : Int) (effect : MoveEffect) (id' : Nat) :
    (s.apply id now effect).requests.get? id' =
      if id' = id then effect.request else s.requests.get? id' := by
  simp only [apply]
  cases effect.request with
  | none => exact get?_delete
  | some => exact get?_set

theorem locks_apply (slot : IdempotencySlot) (id : Nat) (now : Int) (effect : MoveEffect) :
    (s.apply id now effect).locks slot =
      Function.update (s.locks slot) id (effect.request.bind (lock slot)) := by
  funext id'
  by_cases hid : id' = id
  · subst hid
    simp [locks, get?_apply_requests]
  · simp [locks, get?_apply_requests, hid]

/-- A move after which its request believes to hold no lock. -/
theorem SlotInv.applied {row row' : Option IdempotencyRow}
    (h : SlotInv slot row (s.locks slot) s.now s.history) (hle : s.now ≤ now)
    (hrow : effect.table.get? slot = row') (hnone : effect.request.bind (lock slot) = none)
    (hadd : ∀ id t, .acquired id slot t ∉ effect.events)
    (hcomm : ∀ id, .committed id slot ∈ effect.events ∨
      (∃ r, row = some r ∧ r.committed = true) → ∃ r, row' = some r ∧ r.committed = true)
    (hlost : ∀ id t, HasLock row (s.locks slot) id t →
      (.released id slot ∈ effect.events ∨ t + lockTimeoutMs ≤ now) ∨
        ∀ r, row = some r → ∃ r', row' = some r' ∧ r'.createdAt = r.createdAt)
    (hrel : ∀ id', id' ≠ id → .released id' slot ∉ effect.events) :
    (s.apply id now effect).SlotHolds slot := by
  have hlocks : ∀ id' r, (s.apply id now effect).locks slot id' = some r →
      id' ≠ id ∧ s.locks slot id' = some r := by
    intro id' r hr
    rw [locks_apply, hnone] at hr
    by_cases hid : id' = id
    · subst hid
      simp at hr
    · rw [Function.update_of_ne hid] at hr
      exact ⟨hid, hr⟩
  subst hrow
  refine h.extend hle hadd hcomm ?_ ?_
  · intro id' t hlock
    exact (hlost id' t hlock).imp_right fun hkept =>
      hlock.mono hkept fun i r hr => (hlocks i r hr).2
  · exact fun id' r hr => ⟨(hlocks id' r hr).2, hrel id' (hlocks id' r hr).1⟩

/-- A move on another slot, or one that changes neither the row nor who holds locks. -/
theorem SlotInv.quiet (h : s.SlotHolds slot) (hle : s.now ≤ now)
    (hrow : effect.table.get? slot = s.table.get? slot)
    (hnone : effect.request.bind (lock slot) = none)
    (hevs : ∀ e ∈ effect.events, (∀ id t, e ≠ .acquired id slot t) ∧
      (∀ id, e ≠ .committed id slot) ∧ ∀ id, e ≠ .released id slot) :
    (s.apply id now effect).SlotHolds slot := by
  refine h.applied hle hrow hnone ?_ ?_ ?_ ?_
  · exact fun id t hmem => (hevs _ hmem).1 id t rfl
  · exact fun id hor => hor.resolve_left fun hmem => (hevs _ hmem).2.1 id rfl
  · exact fun _ _ _ => .inr fun r hr => ⟨r, hr, rfl⟩
  · exact fun id' _ hmem => (hevs _ hmem).2.2 id' rfl

/-- A statement leaves the other slots alone. -/
theorem SlotInv.elsewhere {stage : IdempotencyStage} {events : List IdempotencyEvent}
    (h : s.SlotHolds slot) (hle : s.now ≤ now) (hne : slot ≠ request.slot)
    (hrow : table.get? slot = s.table.get? slot)
    (hevs : ∀ e ∈ events, (∃ id t, e = .acquired id request.slot t) ∨
      (∃ id, e = .committed id request.slot) ∨ ∃ id, e = .released id request.slot) :
    (s.apply id now (request.proceed stage table events)).SlotHolds slot := by
  refine h.quiet hle hrow ?_ ?_
  · simp [proceed, lock, hne.symm]
  · intro e he
    rcases hevs e he with ⟨id, t, rfl⟩ | ⟨id, rfl⟩ | ⟨id, rfl⟩ <;> simp [hne.symm]

namespace SlotInv

variable (h : s.SlotHolds request.slot) (hle : s.now ≤ now)

include h hle

/-- The stale lock that a request has found is deleted. -/
theorem deleted (hstage : request.stage = .deleting) (hready : request.Ready s.now)
    (hseen : s.table.get? request.slot = request.seen) :
    (s.apply id now (request.proceed .inserting (s.table.delete request.slot) [])).SlotHolds
      request.slot := by
  obtain ⟨row, hrow, hpend, hstale⟩ : ∃ row, request.seen = some row ∧
      row.committed = false ∧ row.createdAt + lockTimeoutMs ≤ s.now := by
    simpa only [IdempotencyRequest.Ready, hstage] using hready
  have hgone : (s.table.delete request.slot).get? request.slot = none := by
    rw [get?_delete, if_pos rfl]
  rw [IdempotencyState.SlotHolds, hseen, hrow] at h
  refine h.applied hle hgone ?_ (fun _ _ => not_mem_nil) ?_ ?_ (fun _ _ => not_mem_nil)
  · simp [proceed, lock]
  · rintro id' (hmem | ⟨r, ⟨⟩, hcomm⟩)
    · cases hmem
    · rw [hpend] at hcomm
      cases hcomm
  · -- The lock that is lost is the stale one.
    rintro id' t ⟨⟨r, ⟨⟩, rfl⟩, -⟩
    exact .inl (.inr (hstale.trans hle))

/-- The lock is inserted where the request has found no row. -/
theorem inserted (hfree : s.table.get? request.slot = none) :
    (s.apply id now (request.proceed .holding (insertLock s.table request.slot now)
      [.acquired id request.slot now])).SlotHolds request.slot := by
  have hlock : (insertLock s.table request.slot now).get? request.slot =
      some ⟨none, none, now, false⟩ := by
    rw [get?_insertLock, if_pos rfl, hfree, getD_none]
  have hlocks : (request.proceed .holding (insertLock s.table request.slot now)
      [.acquired id request.slot now]).request.bind (lock request.slot) =
      some ⟨none, none, now, false⟩ := by
    simp [proceed, lock, hlock, filter_some]
  rw [IdempotencyState.SlotHolds, hfree] at h
  rw [IdempotencyState.SlotHolds, locks_apply, hlocks]
  change SlotInv request.slot ((insertLock s.table request.slot now).get? request.slot) _ now _
  rw [hlock]
  exact h.acquire hle rfl

/-- The row that a request has found becomes committed. -/
theorem committing {responseBody : Option String} {statusCode : Int} {row : IdempotencyRow}
    (hfound : s.table.get? request.slot = some row) :
    (s.apply id now (request.proceed .holding
      (commitLock s.table request.slot responseBody statusCode)
      [.committed id request.slot])).SlotHolds request.slot := by
  have hlock : (commitLock s.table request.slot responseBody statusCode).get? request.slot =
      some ⟨responseBody, some statusCode, row.createdAt, true⟩ := by
    rw [get?_commitLock, if_pos rfl, hfound, map_some]
  rw [IdempotencyState.SlotHolds, hfound] at h
  refine h.applied hle hlock ?_ (by simp [proceed])
    (fun _ _ => ⟨_, rfl, rfl⟩) ?_ (by simp [proceed])
  · simp [proceed, lock, hlock]
  · -- The row keeps its time, so a holder keeps the lock.
    refine fun id' t _ => .inr ?_
    rintro r ⟨⟩
    exact ⟨_, rfl, rfl⟩

/-- The lock of a request is released, or its response stays. -/
theorem releasing (hreq : s.requests.get? id = some request) (hstage : request.stage = .holding)
    (hseen : s.table.get? request.slot = request.seen) :
    (s.apply id now (request.proceed .holding (releaseLock s.table request.slot)
      [.released id request.slot])).SlotHolds request.slot := by
  have hlock : (releaseLock s.table request.slot).get? request.slot =
      (s.table.get? request.slot).filter (·.committed) := by
    rw [get?_releaseLock, if_pos rfl]
  have hown : s.locks request.slot id = request.seen.filter (!·.committed) := by
    simp [locks, hreq, lock, hstage]
  have hkept : ∀ r, s.table.get? request.slot = some r → r.committed = true →
      (s.table.get? request.slot).filter (·.committed) = some r := by
    intro r hr hcomm
    rw [hr, filter_some, hcomm, if_pos rfl]
  refine h.applied hle hlock ?_ (by simp [proceed]) ?_ ?_ ?_
  · simp only [proceed, lock, hlock, bind_some,
      true_and, if_true, Option.filter_filter]
    simp
  · rintro id' (hmem | ⟨r, hr, hcomm⟩)
    · simp [proceed] at hmem
    · exact ⟨r, hkept r hr hcomm, hcomm⟩
  · rintro id' t ⟨⟨r, hr, htime⟩, honly⟩
    cases hcomm : r.committed with
    | true =>
      refine .inr fun r' hr' => ?_
      cases hr.symm.trans hr'
      exact ⟨r, hkept r hr hcomm, rfl⟩
    | false =>
      -- The row is the lock of this request, so it is the holder that releases it.
      have hmine : s.locks request.slot id = some r := by
        rw [hown, ← hseen, hr, filter_some, hcomm]
        rfl
      rw [honly id r hmine htime]
      exact .inl (.inl mem_cons_self)
  · intro id' hid
    simp [proceed, hid]

end SlotInv

/-- What a move does to one slot. -/
theorem SlotInv.move {move : IdempotencyMove} (h : s.SlotHolds slot) (hle : s.now ≤ now)
    (hreq : s.requests.get? id = some request) (hready : request.Ready s.now)
    (hcond : Undisturbed s (.move id move now)) (hmov : Moved request id s.table now move effect) :
    (s.apply id now effect).SlotHolds slot := by
  -- A statement reaches the slot of its request only; there the condition says what it finds.
  cases hmov with
  | @examined request' _ hevs hnext =>
    refine h.quiet hle rfl ?_ ?_
    · cases request' with
      | none => rfl
      | some r => simp [lock, (hnext r rfl).1]
    · intro e he
      have hrefuses := hevs e he
      cases e <;> simp [IdempotencyEvent.Refuses] at hrefuses ⊢
  | deleted hstage =>
    by_cases hslot : slot = request.slot
    · subst hslot
      exact h.deleted hle hstage hready (hcond request hreq)
    · refine h.elsewhere hle hslot ?_ (by simp)
      rw [get?_delete, if_neg hslot]
  | inserted hstage =>
    by_cases hslot : slot = request.slot
    · subst hslot
      refine h.inserted hle ?_
      have hnone : request.seen = none := by
        simpa only [IdempotencyRequest.Ready, hstage] using hready
      rw [hcond request hreq, hnone]
    · refine h.elsewhere hle hslot ?_ (by simp)
      rw [get?_insertLock, if_neg hslot]
  | committed =>
    by_cases hslot : slot = request.slot
    · subst hslot
      obtain ⟨hseen, hsome⟩ := hcond request hreq
      obtain ⟨row, hrow⟩ := isSome_iff_exists.1 hsome
      exact h.committing hle (hseen.trans hrow)
    · refine h.elsewhere hle hslot ?_ (by simp)
      rw [get?_commitLock, if_neg hslot]
  | released hstage =>
    by_cases hslot : slot = request.slot
    · subst hslot
      exact h.releasing hle hreq hstage (hcond request hreq)
    · refine h.elsewhere hle hslot ?_ (by simp)
      rw [get?_releaseLock, if_neg hslot]

/-- A request that goes on is ready for its next statement. -/
theorem Moved.ready {move : IdempotencyMove} (h : Moved request id table now move effect)
    (hr : effect.request = some r) : r.Ready now := by
  cases h with
  | examined _ hnext => exact (hnext r hr).2
  | deleted =>
    cases hr
    simp [IdempotencyRequest.Ready, get?_delete]
  | inserted | committed | released =>
    cases hr
    trivial

theorem IdempotencyInv.select (h : IdempotencyInv s) (hle : s.now ≤ now) :
    IdempotencyInv (s.select slot now) := by
  refine ⟨?_, fun slot' => ?_⟩
  · exact forall_get?_set (fun id r hold => (h.ready id r hold).mono hle) trivial
  · have hlocks : ∀ id r, (s.select slot now).locks slot' id = some r →
        s.locks slot' id = some r := by
      intro id r hr
      simp only [IdempotencyState.locks, IdempotencyState.select, get?_set] at hr
      split_ifs at hr with hid
      · simp [lock] at hr
      · exact hr
    have hext : SlotInv slot' (s.table.get? slot') ((s.select slot now).locks slot') now
        (s.history ++ []) := by
      refine (h.slots slot').extend hle (by simp) ?_ ?_ ?_
      · exact fun id hor => hor.resolve_left not_mem_nil
      · exact fun id t hlock => .inr (hlock.mono (fun r hr => ⟨r, hr, rfl⟩) hlocks)
      · exact fun id r hr => ⟨hlocks id r hr, not_mem_nil⟩
    rwa [append_nil] at hext

theorem IdempotencyInv.step {l : IdempotencyLabel} (h : IdempotencyInv s) (hcond : Undisturbed s l)
    (hstep : idempotencyStep s l = some s') : IdempotencyInv s' := by
  simp only [idempotencyStep] at hstep
  split at hstep
  · rename_i hclock
    cases l with
    | acquire =>
      cases hstep
      exact h.select hclock
    | move id move =>
      simp only [map_eq_some_iff, bind_eq_some_iff] at hstep
      obtain ⟨effect, ⟨request, hreq, hmove⟩, rfl⟩ := hstep
      have hmov := moved_of_move hmove
      refine ⟨?_, fun slot => ?_⟩
      · intro id' r hr
        rw [get?_apply_requests] at hr
        split_ifs at hr with hid
        · exact hmov.ready hr
        · exact (h.ready id' r hr).mono hclock
      · exact (h.slots slot).move hclock hreq (h.ready id request hreq) hcond hmov
  · cases hstep

/-- Holders of every slot exclude each other, in every interleaving in which each statement finds
the row as its own request has last found or left it. -/
theorem exclusive_of_undisturbed (now : Int) (s : IdempotencyState)
    (hrun : RunWhere IdempotencySteps Undisturbed (.start now) s) (slot : IdempotencySlot) :
    Exclusive slot s.history := by
  have hinv : IdempotencyInv s := by
    refine hrun.invariant IdempotencyInv ?_ fun _ _ _ ha => ha.step
    refine ⟨fun id r hr => ?_, fun slot => ⟨?_, ?_, ?_, PrecededBy.nil _⟩⟩
    · cases hr
    · exact fun id hmem => absurd hmem not_mem_nil
    · intro pre id t post heq
      simp [start] at heq
    · intro id r hr
      cases hr
  exact (hinv.slots slot).exclusive

/-! ### One key -/

/-- The key of a purchase. -/
def purchase : IdempotencySlot := ⟨"k1", "POST /policies"⟩

/-- A request releases its lock, the next one crashes, a third takes over the stale lock and
commits, and a fourth replays the response. -/
theorem exclusive_of_undisturbed_takeOver :
    ∃ s, RunWhere IdempotencySteps Undisturbed (.start 0) s ∧
      s.history = [.acquired 0 purchase 1, .released 0 purchase, .acquired 1 purchase 4,
        .acquired 2 purchase 60006, .committed 2 purchase,
        .replayed 3 ⟨purchase, some "ok", some 201, 60006⟩] ∧
      Exclusive purchase s.history :=
  ⟨_, .performed
    [.acquire purchase 0, .move 0 .examine 0, .move 0 .insert 1, .move 0 .release 2,
     .acquire purchase 3, .move 1 .examine 3, .move 1 .insert 4, .acquire purchase 60004,
     .move 2 .examine 60004, .move 2 .delete 60005, .move 2 .insert 60006,
     .move 2 (.commit (some "ok") 201) 60007, .acquire purchase 60008, .move 3 .examine 60008]
    (by decide +kernel), by decide +kernel,
    exclusive_of_undisturbed 0 _ (.performed _ _) purchase⟩

/-- Two requests that both find no row both acquire the lock, and both are told to go ahead. -/
theorem lock_acquired_twice :
    ∃ s, RunWhere IdempotencySteps (fun _ _ => True) (.start 0) s ∧
      ¬Exclusive purchase s.history := by
  refine RunWhere.exists_reached
    [.acquire purchase 0, .acquire purchase 0, .move 0 .examine 1, .move 1 .examine 1,
     .move 0 .insert 2, .move 1 .insert 2]
    (fun s => s.history = [.acquired 0 purchase 2, .acquired 1 purchase 2]) (by decide +kernel)
    fun s _ hs hexclusive => ?_
  rcases hexclusive.separated [] 0 2 [] 1 2 [] hs with hreleased | ⟨hold, -⟩
  · cases hreleased
  · revert hold
    decide

end Refract.Common
