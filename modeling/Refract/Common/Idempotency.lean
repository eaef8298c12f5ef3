import Refract.Lib.OrdMap
import Refract.Lib.Runs

/-!
# Idempotency keys

`IdempotencyService` keeps one row of `idempotency_keys` per key and endpoint: a pending lock, or
the committed response of the request that held it. `acquire` reads the row, deletes it if it is a
stale lock, and inserts a new one; `commit` and `release` are one statement each. The statements of
different requests, of any number of processes, interleave. Times are milliseconds of one clock.
-/

namespace Refract.Common

open Lib

/-! ## The table -/

/-- The primary key of `idempotency_keys`. -/
structure IdempotencySlot where
  key : String
  endpoint : String
  deriving DecidableEq, Repr

/-- The other columns of `idempotency_keys`. -/
structure IdempotencyRow where
  responseBody : Option String
  statusCode : Option Int
  createdAt : Int
  committed : Bool
  deriving DecidableEq, Repr

abbrev IdempotencyTable := OrdMap IdempotencySlot IdempotencyRow

/-- `INSERT … ON CONFLICT (key, endpoint) DO NOTHING` -/
def insertLock (table : IdempotencyTable) (slot : IdempotencySlot) (now : Int) :
    IdempotencyTable :=
  match table.get? slot with
  | some _ => table
  | none => table.set slot ⟨none, none, now, false⟩

/-- The `UPDATE` of `commit`. -/
def commitLock (table : IdempotencyTable) (slot : IdempotencySlot) (responseBody : Option String)
    (statusCode : Int) : IdempotencyTable :=
  match table.get? slot with
  | some row => table.set slot
      { row with responseBody, statusCode := some statusCode, committed := true }
  | none => table

/-- `DELETE … AND committed = false` -/
def releaseLock (table : IdempotencyTable) (slot : IdempotencySlot) : IdempotencyTable :=
  match table.get? slot with
  | some row => if row.committed then table else table.delete slot
  | none => table

section Statements

variable (table : IdempotencyTable) (slot : IdempotencySlot)

theorem get?_insertLock (now : Int) (slot' : IdempotencySlot) :
    (insertLock table slot now).get? slot' =
      if slot' = slot then some ((table.get? slot).getD ⟨none, none, now, false⟩)
      else table.get? slot' := by
  simp only [insertLock]
  cases h : table.get? slot with
  | none => exact OrdMap.get?_set
  | some =>
    split_ifs with heq
    · rw [heq, h, Option.getD_some]
    · rfl

theorem get?_commitLock (responseBody : Option String) (statusCode : Int)
    (slot' : IdempotencySlot) :
    (commitLock table slot responseBody statusCode).get? slot' =
      if slot' = slot then (table.get? slot).map fun row =>
        { row with responseBody, statusCode := some statusCode, committed := true }
      else table.get? slot' := by
  simp only [commitLock]
  cases h : table.get? slot with
  | none =>
    split_ifs with heq
    · rw [heq, h, Option.map_none]
    · rfl
  | some => exact OrdMap.get?_set

theorem get?_releaseLock (slot' : IdempotencySlot) :
    (releaseLock table slot).get? slot' =
      if slot' = slot then (table.get? slot).filter (·.committed) else table.get? slot' := by
  simp only [releaseLock]
  cases h : table.get? slot with
  | none =>
    split_ifs with heq
    · rw [heq, h, Option.filter_none]
    · rfl
  | some row =>
    cases hcomm : row.committed with
    | true =>
      simp only [if_true, Option.filter_some, hcomm]
      split_ifs with heq
      · rw [heq, h]
      · rfl
    | false =>
      simp only [Bool.false_eq_true, if_false, Option.filter_some, hcomm]
      exact OrdMap.get?_delete

end Statements

/-! ## Requests -/

structure IdempotencyRecord where
  slot : IdempotencySlot
  responseBody : Option String
  statusCode : Option Int
  createdAt : Int
  deriving DecidableEq, Repr

/-- A lock held for longer than this is treated as that of a crashed request. -/
def lockTimeoutMs : Int := 60000

/-- What `acquire` does with the answer to its `SELECT`. -/
inductive AcquireDecision where
  | replay (record : IdempotencyRecord)
  | conflict (error idempotencyKey : String)
  | takeOver
  | insert

def examine (slot : IdempotencySlot) (existing : Option IdempotencyRow) (now : Int) :
    AcquireDecision :=
  match existing with
  | none => .insert
  | some row =>
    if row.committed then .replay ⟨slot, row.responseBody, row.statusCode, row.createdAt⟩
    else if now - row.createdAt < lockTimeoutMs then
      .conflict ("A request with this Idempotency-Key is already in progress. " ++
        "Retry after it completes.") slot.key
    else .takeOver

/-- Where a request stands: its `SELECT` has answered, it is about to delete a stale lock or to
insert its own, or its `acquire` has returned `{ hit: false }`. -/
inductive IdempotencyStage where
  | selected
  | deleting
  | inserting
  | holding
  deriving DecidableEq, Repr

/-- A request and the row as its last statement has found or left it. -/
structure IdempotencyRequest where
  slot : IdempotencySlot
  stage : IdempotencyStage
  seen : Option IdempotencyRow

inductive IdempotencyEvent where
  /-- `acquire` returns `{ hit: false }`. -/
  | acquired (id : Nat) (slot : IdempotencySlot) (now : Int)
  /-- `acquire` returns `{ hit: true, record }`. -/
  | replayed (id : Nat) (record : IdempotencyRecord)
  /-- `acquire` throws a `ConflictException`. -/
  | conflicted (id : Nat) (error idempotencyKey : String)
  | committed (id : Nat) (slot : IdempotencySlot)
  | released (id : Nat) (slot : IdempotencySlot)
  deriving DecidableEq, Repr

/-- What a request does next: it looks at the answer to its `SELECT`, or runs a statement. -/
inductive IdempotencyMove where
  | examine
  | delete
  | insert
  | commit (responseBody : Option String) (statusCode : Int)
  | release

/-- The table, the request if its call goes on, and what has happened. -/
structure MoveEffect where
  table : IdempotencyTable
  request : Option IdempotencyRequest
  events : List IdempotencyEvent

/-- The request goes on to a stage after a statement. -/
def IdempotencyRequest.proceed (request : IdempotencyRequest) (stage : IdempotencyStage)
    (table : IdempotencyTable) (events : List IdempotencyEvent) : MoveEffect :=
  ⟨table, some ⟨request.slot, stage, table.get? request.slot⟩, events⟩

def IdempotencyRequest.move (request : IdempotencyRequest) (id : Nat) (table : IdempotencyTable)
    (now : Int) (move : IdempotencyMove) : Option MoveEffect :=
  match request.stage, move with
  | .selected, .examine =>
    match examine request.slot request.seen now with
    | .replay record => some ⟨table, none, [.replayed id record]⟩
    | .conflict error key => some ⟨table, none, [.conflicted id error key]⟩
    | .takeOver => some ⟨table, some { request with stage := .deleting }, []⟩
    | .insert => some ⟨table, some { request with stage := .inserting }, []⟩
  | .deleting, .delete => some (request.proceed .inserting (table.delete request.slot) [])
  | .inserting, .insert =>
    some (request.proceed .holding (insertLock table request.slot now)
      [.acquired id request.slot now])
  | .holding, .commit responseBody statusCode =>
    some (request.proceed .holding (commitLock table request.slot responseBody statusCode)
      [.committed id request.slot])
  | .holding, .release =>
    some (request.proceed .holding (releaseLock table request.slot) [.released id request.slot])
  | _, _ => none

/-! ## Interleavings -/

inductive IdempotencyLabel where
  /-- A request begins: the `SELECT` of its `acquire` runs. -/
  | acquire (slot : IdempotencySlot) (now : Int)
  | move (id : Nat) (move : IdempotencyMove) (now : Int)

def IdempotencyLabel.now : IdempotencyLabel → Int
  | .acquire _ now => now
  | .move _ _ now => now

/-- The table, the requests whose calls go on, the number of requests so far, the time of the last
step and what has happened. -/
structure IdempotencyState where
  table : IdempotencyTable
  requests : OrdMap Nat IdempotencyRequest
  calls : Nat
  now : Int
  history : List IdempotencyEvent

def IdempotencyState.start (now : Int) : IdempotencyState := ⟨.empty, .empty, 0, now, []⟩

def IdempotencyState.apply (s : IdempotencyState) (id : Nat) (now : Int) (effect : MoveEffect) :
    IdempotencyState :=
  { s with
    table := effect.table
    requests := effect.request.elim (s.requests.delete id) (s.requests.set id)
    now
    history := s.history ++ effect.events }

/-- A new request, whose `SELECT` has run. -/
def IdempotencyState.select (s : IdempotencyState) (slot : IdempotencySlot) (now : Int) :
    IdempotencyState :=
  { s with
    requests := s.requests.set s.calls ⟨slot, .selected, s.table.get? slot⟩
    calls := s.calls + 1
    now }

def idempotencyStep (s : IdempotencyState) (l : IdempotencyLabel) : Option IdempotencyState :=
  if s.now ≤ l.now then
    match l with
    | .acquire slot now => some (s.select slot now)
    | .move id move now =>
      ((s.requests.get? id).bind fun request => request.move id s.table now move).map
        (s.apply id now)
  else none

/-- One statement of one request runs. -/
abbrev IdempotencySteps (s : IdempotencyState) (l : IdempotencyLabel) (s' : IdempotencyState) :
    Prop := idempotencyStep s l = some s'

end Refract.Common
