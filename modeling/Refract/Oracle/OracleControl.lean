import Refract.Lib.OrdMap
import Refract.Lib.Runs
import Refract.Lib.Tables
import Refract.Lib.Traces

/-!
# Operator pauses

`OracleControlService` keeps the paused scopes in a table and a snapshot of the table in a cache.
`setPaused` writes the table in one transaction and then deletes the cached snapshot; `isPaused`
and `getStatus` read the snapshot, and on a miss read the table and store what they read. Calls of
any number of processes run at once: a step is one statement of one call, an expiry of the cached
entry, or the start of a call, and the history records when calls start and return.
-/

namespace Refract.Oracle.Control

open Lib

/-! ## Scopes -/

inductive CoverageTypeSoroban where
  | stablecoinDepeg
  | marketCrash
  | liquidationShield
  | smartContractRisk
  | flightDelay
  deriving DecidableEq, Repr

/-- `COVERAGE_TYPE_CODE`, in the order of its entries. -/
def coverageTypeCode : List (CoverageTypeSoroban × Nat) :=
  [(.stablecoinDepeg, 0), (.marketCrash, 1), (.liquidationShield, 2), (.smartContractRisk, 3),
   (.flightDelay, 4)]

def codeToSoroban (code : Nat) : Except String CoverageTypeSoroban :=
  match coverageTypeCode.find? fun entry => decide (entry.2 = code) with
  | some entry => .ok entry.1
  | none => .error ("Unknown coverage type code: " ++ toString code)

/-- `PAUSE_SCOPES`: the global override and each coverage type. -/
inductive PauseScope where
  | global
  | coverage (type : CoverageTypeSoroban)
  deriving DecidableEq, Repr

/-! ## Tables and snapshots -/

structure PauseState where
  paused : Bool
  reason : Option String
  actor : Option String
  updatedAt : Option Int
  deriving DecidableEq, Repr

/-- `NOT_PAUSED` -/
def notPaused : PauseState := ⟨false, none, none, none⟩

/-- The rows of `oracle_pause_state`, whose primary key is the scope. The entries that are read
from it are these rows, and `indexByScope` finds them by their scopes again. -/
abbrev PauseEntries := OrdMap PauseScope PauseState

def PauseEntries.isPausedScope (entries : PauseEntries) (scope : PauseScope) : Bool :=
  (entries.get? scope).any PauseState.paused

inductive PauseAction where
  | pause
  | resume

/-- A row of `oracle_pause_audit`. -/
structure PauseAudit where
  scope : PauseScope
  action : PauseAction
  actor : String
  reason : String
  priorPaused : Bool

/-- The checks of `oracle_pause_audit`: neither the actor nor the reason is blank. The actor is
stored in a column of 128 characters. -/
def auditChecks (actor reason : String) : Except SqlState String := do
  let stored ← varchar 128 actor
  enforce (stored.toList.any (· ≠ ' ') = true) .checkViolation
  enforce (reason.toList.any (· ≠ ' ') = true) .checkViolation
  .ok stored

structure PauseChange where
  scope : PauseScope
  paused : Bool
  priorPaused : Bool
  actor : String
  reason : String
  updatedAt : Int
  deriving DecidableEq, Repr

/-! ## Answers -/

/-- What a call that loads the entries is asked for. -/
inductive PauseQuery where
  | isPaused (coverageCode : Nat)
  | getStatus
  deriving DecidableEq, Repr

structure CoverageStatus where
  state : PauseState
  coverageType : CoverageTypeSoroban
  id : Nat
  effectivelyPaused : Bool
  deriving DecidableEq, Repr

inductive PauseAnswer where
  | paused (result : Except String Bool)
  | status (global : PauseState) (coverageTypes : List CoverageStatus)
  deriving DecidableEq, Repr

/-- The global override or the coverage type's own pause; a code that is unknown throws, unless
the override has decided already. -/
def isPausedIn (entries : PauseEntries) (coverageCode : Nat) : Except String Bool :=
  if entries.isPausedScope .global then .ok true
  else (codeToSoroban coverageCode).map fun type => entries.isPausedScope (.coverage type)

def statusIn (entries : PauseEntries) : PauseAnswer :=
  .status ((entries.get? .global).getD notPaused) <| coverageTypeCode.map fun (type, id) =>
    { state := (entries.get? (.coverage type)).getD notPaused
      coverageType := type
      id
      effectivelyPaused := entries.isPausedScope .global || entries.isPausedScope (.coverage type) }

def answerIn (entries : PauseEntries) : PauseQuery → PauseAnswer
  | .isPaused coverageCode => .paused (isPausedIn entries coverageCode)
  | .getStatus => statusIn entries

/-! ## Calls -/

/-- How far `loadEntries` has come: it is to read the cache, then on a miss the table, and then to
store the rows it has read in the cache. -/
inductive LoadPhase where
  | started
  | missed
  | loaded (entries : PauseEntries)
  deriving DecidableEq

structure PauseRead where
  query : PauseQuery
  phase : LoadPhase

/-- A call of `setPaused`: its transaction is to be committed, or the cached snapshot is to be
deleted. -/
structure PauseWrite where
  scope : PauseScope
  paused : Bool
  actor : String
  reason : String
  change : Option PauseChange

inductive PauseEvent where
  | asked (call : Nat) (query : PauseQuery)
  | answered (call : Nat) (answer : PauseAnswer)
  | requested (call : Nat) (scope : PauseScope) (paused : Bool)
  | resolved (call : Nat) (change : PauseChange)
  | rejected (call : Nat) (state : SqlState)
  deriving DecidableEq, Repr

def PauseEvent.call : PauseEvent → Nat
  | .asked call _ => call
  | .answered call _ => call
  | .requested call _ _ => call
  | .resolved call _ => call
  | .rejected call _ => call

structure ControlState where
  table : PauseEntries
  audit : List PauseAudit
  cache : Option PauseEntries
  reads : OrdMap Nat PauseRead
  writes : OrdMap Nat PauseWrite
  history : List PauseEvent

def ControlState.initial : ControlState := ⟨.empty, [], none, .empty, .empty, []⟩

inductive ControlLabel where
  | ask (call : Nat) (query : PauseQuery)
  | cacheGet (call : Nat)
  | readRows (call : Nat)
  | cacheSet (call : Nat)
  | request (call : Nat) (scope : PauseScope) (paused : Bool) (actor reason : String)
  | transaction (call : Nat) (now : Int)
  | cacheDelete (call : Nat)
  | expire

namespace ControlState

variable (s : ControlState)

def fresh (call : Nat) : Bool := s.history.all fun e => decide (e.call ≠ call)

/-- The call returns what the entries say. -/
def answer (call : Nat) (query : PauseQuery) (entries : PauseEntries) : ControlState :=
  { s with
    reads := s.reads.delete call
    history := s.history ++ [PauseEvent.answered call (answerIn entries query)] }

/-- The transaction of `setPaused`: the row of the scope and a row of the audit table. -/
def commitPause (call : Nat) (w : PauseWrite) (stored : String) (now : Int) : ControlState :=
  let priorPaused := s.table.isPausedScope w.scope
  { s with
    table := s.table.set w.scope ⟨w.paused, some w.reason, some stored, some now⟩
    audit := s.audit ++
      [⟨w.scope, if w.paused then .pause else .resume, stored, w.reason, priorPaused⟩]
    writes := s.writes.set call
      { w with change := some ⟨w.scope, w.paused, priorPaused, w.actor, w.reason, now⟩ } }

end ControlState

/-- One step; `none` where no call is at the point that the label needs. -/
def controlStep (s : ControlState) : ControlLabel → Option ControlState
  | .ask call query =>
    if s.fresh call then
      some { s with
        reads := s.reads.set call ⟨query, .started⟩
        history := s.history ++ [PauseEvent.asked call query] }
    else none
  | .cacheGet call =>
    match s.reads.get? call with
    | some ⟨query, .started⟩ =>
      match s.cache with
      -- also an empty array of entries counts as a hit
      | some entries => some (s.answer call query entries)
      | none => some { s with reads := s.reads.set call ⟨query, .missed⟩ }
    | _ => none
  | .readRows call =>
    match s.reads.get? call with
    | some ⟨query, .missed⟩ => some { s with reads := s.reads.set call ⟨query, .loaded s.table⟩ }
    | _ => none
  | .cacheSet call =>
    match s.reads.get? call with
    | some ⟨query, .loaded entries⟩ =>
      some ({ s with cache := some entries }.answer call query entries)
    | _ => none
  | .request call scope paused actor reason =>
    if s.fresh call then
      some { s with
        writes := s.writes.set call ⟨scope, paused, actor, reason, none⟩
        history := s.history ++ [PauseEvent.requested call scope paused] }
    else none
  | .transaction call now =>
    match s.writes.get? call with
    | some w =>
      if w.change.isSome then none
      else match auditChecks w.actor w.reason with
        | .ok stored => some (s.commitPause call w stored now)
        -- the transaction is rolled back and the call throws
        | .error state => some { s with
            writes := s.writes.delete call
            history := s.history ++ [PauseEvent.rejected call state] }
    | none => none
  | .cacheDelete call =>
    match s.writes.get? call with
    | some ⟨_, _, _, _, some change⟩ =>
      some { s with
        cache := none
        writes := s.writes.delete call
        history := s.history ++ [PauseEvent.resolved call change] }
    | _ => none
  | .expire => some { s with cache := none }

abbrev ControlSteps (s : ControlState) (l : ControlLabel) (s' : ControlState) : Prop :=
  controlStep s l = some s'

end Refract.Oracle.Control
