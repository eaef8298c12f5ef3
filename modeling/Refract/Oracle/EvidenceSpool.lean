import Refract.Lib.RecordLines
import Refract.Lib.Sorting

/-!
# The evidence spool

`EvidenceSpool` is the write-ahead log of the evidence buffer: `spool.ndjson` holds the records, one
JSON text per line, and `acked-seq` the number up to which Postgres has them. All operations run on
one promise chain, so one operation is at work at a time. It is cut here at its file-system steps.
Any of them can fail, and the process can crash before any of them: a write that fails or is cut off
leaves a prefix of its bytes behind, while a file that is replaced is replaced at once by `rename`.

The spool reads nothing of a record but its `seq`, so records are any type with numbers.
-/

namespace Refract.Oracle.Evidence

open Lib

/-- How records are written: `JSON.stringify` and `JSON.parse` of one line as UTF-8, where `decode`
answers nothing when `JSON.parse` throws or the value has no numeric `seq`, and `blank` says that
`line.trim()` is empty. -/
structure SpoolCodec (R : Type) extends LineCodec UInt8 R where
  seq : R → Nat

variable {R : Type}

/-! ## Recovery -/

structure SpoolRecovery (R : Type) where
  pending : List R
  highWaterSeq : Nat
  discardedLines : Nat
  deriving DecidableEq

namespace SpoolCodec

variable (c : SpoolCodec R)

/-- What `open` makes of the text of the spool file. -/
def recover (acked : Nat) (text : List UInt8) : SpoolRecovery R where
  pending := sortBy (fun a b => compare (c.seq a) (c.seq b))
    ((c.read text).filter fun r => acked < c.seq r)
  highWaterSeq := ((c.read text).map c.seq).foldl max acked
  discardedLines := ((c.lines text).filter fun line => (c.decode line).isNone).length

/-- `needsRewrite`. -/
def needsRewrite (recovery : SpoolRecovery R) (text : List UInt8) : Bool :=
  decide (0 < recovery.discardedLines) ||
  decide (recovery.pending.length ≠ (c.lines text).length) ||
  !text.isEmpty && !decide (text.getLast? = some c.newline)

/-- What `rewrite` writes. -/
def fileOf (records : List R) : List UInt8 :=
  if records.isEmpty then [] else c.joined records

end SpoolCodec

/-! ## The spool -/

/-- `this.handle`: `null`, a handle that was closed, a handle of the spool file, or a handle of a
file that `rename` has put out of place since. -/
inductive SpoolHandle where
  | absent
  | closed
  | attached
  | detached
  deriving DecidableEq, Repr

/-- `handle?.close()`. -/
def SpoolHandle.close : SpoolHandle → SpoolHandle
  | .absent => .absent
  | .closed | .attached | .detached => .closed

/-- The spool file is replaced. -/
def SpoolHandle.detach : SpoolHandle → SpoolHandle
  | .attached => .detached
  | handle => handle

/-- The file-system step that the operation at work waits for: an `append` its write or its
`datasync` (with the file as it was before the write), an `ack` the replacement of the ack file, the
replacement of the spool file or its reopening, an `open` its reads, the replacement of the spool
file or the opening of the handle. -/
inductive SpoolPhase (R : Type) where
  | idle
  | writing (records : List R)
  | syncing (records : List R) (before : List UInt8)
  | acking (seq : Nat) (compact : Bool)
  | compacting (seq : Nat)
  | reopening
  | reading (ackReadable : Bool)
  | rewriting (recovery : SpoolRecovery R)
  | opening (recovery : SpoolRecovery R)

/-- What the caller and the disk have seen: a resolved `append`, a replaced ack file, a resolved
`open`. -/
inductive SpoolEvent (R : Type) where
  | appended (records : List R)
  | acked (seq : Nat)
  | recovered (recovery : SpoolRecovery R)
  deriving DecidableEq

/-- The two files and the process. The ack file is only ever replaced by `String(seq)`, so it is
kept as a number. -/
structure SpoolState (R : Type) where
  file : Option (List UInt8)
  ackFile : Option Nat
  handle : SpoolHandle
  bytes : Nat
  phase : SpoolPhase R
  history : List (SpoolEvent R)

namespace SpoolState

/-- An empty directory. -/
def initial : SpoolState R where
  file := none
  ackFile := none
  handle := .absent
  bytes := 0
  phase := .idle
  history := []

/-- The text that `readFile` gives, where a missing file is empty. -/
def text (s : SpoolState R) : List UInt8 := s.file.getD []

/-- `readAcked`. -/
def readAcked (s : SpoolState R) : Nat := s.ackFile.getD 0

/-- The file after `written` bytes of a write behind `before` have reached it. -/
def torn (c : SpoolCodec R) (s : SpoolState R) (before : List UInt8) (records : List R)
    (written : Nat) : Option (List UInt8) :=
  match s.handle with
  | .attached => some (before ++ (c.joined records).take written)
  | .absent | .closed | .detached => s.file

/-- The file when the write of the operation at work fails or is cut off. -/
def interrupted (c : SpoolCodec R) (s : SpoolState R) (written : Nat) : Option (List UInt8) :=
  match s.phase with
  | .writing records => s.torn c s.text records written
  | .syncing records before => s.torn c before records written
  | .idle | .acking _ _ | .compacting _ | .reopening | .reading _ | .rewriting _ | .opening _ =>
    s.file

end SpoolState

variable (c : SpoolCodec R)

/-- The checks of `append` before it writes. -/
def checkAppend (maxBytes : Nat) (s : SpoolState R) (records : List R) : Except String Unit :=
  if s.handle = .absent then .error "evidence spool is not open"
  else if maxBytes < s.bytes + (c.joined records).length then
    .error ("evidence spool is full (" ++ toString s.bytes ++ " of " ++ toString maxBytes ++
      " bytes)")
  else .ok ()

/-! ## Its steps -/

/-- The next operation on the chain begins, the file-system step that the operation at work waits
for is done or fails, or the process crashes. The number is that of the bytes of a write that reach
the file; a write may resolve with a part of them. -/
inductive SpoolLabel (R : Type) where
  | append (records : List R)
  | ack (seq : Nat) (compact : Bool)
  | open (ackReadable : Bool)
  | close
  | wrote (written : Nat)
  | done
  | fail (written : Nat)
  | crash (written : Nat)

/-- An operation begins; an `append` that is refused ends at once. -/
def beginOperation (maxBytes : Nat) (s : SpoolState R) : SpoolLabel R → Option (SpoolState R)
  | .append records =>
    match checkAppend c maxBytes s records with
    | .ok () => some { s with phase := .writing records }
    | .error _ => some s
  | .ack seq compact => some { s with phase := .acking seq compact }
  | .open ackReadable => some { s with phase := .reading ackReadable }
  | .close => some { s with handle := .absent }
  | .wrote _ | .done | .fail _ | .crash _ => none

/-- The write of an `append` resolves, which does not look at the number of bytes. -/
def finishWrite (s : SpoolState R) (written : Nat) : Option (SpoolState R) :=
  match s.phase, s.handle with
  | .writing records, .attached =>
    some { s with
      file := some (s.text ++ (c.joined records).take written)
      phase := .syncing records s.text }
  | .writing records, .detached => some { s with phase := .syncing records s.text }
  | _, _ => none

/-- Another file-system step of the operation at work is done. -/
def finishStep (s : SpoolState R) : Option (SpoolState R) :=
  match s.phase with
  | .idle | .writing _ => none
  | .syncing records _ =>
    some { s with
      bytes := s.bytes + (c.joined records).length
      phase := .idle
      history := s.history ++ [SpoolEvent.appended records] }
  | .acking seq compact =>
    some { s with
      ackFile := some seq
      handle := if compact then s.handle.close else s.handle
      phase := if compact then .compacting seq else .idle
      history := s.history ++ [SpoolEvent.acked seq] }
  | .compacting seq =>
    -- `readFile` throws without a file, and `JSON.parse` at a line that is no record.
    match s.file.bind fun text => (c.lines text).mapM c.decode with
    | none => none
    | some records =>
      some { s with
        file := some (c.fileOf (records.filter fun r => seq < c.seq r))
        phase := .reopening }
  | .reopening =>
    some { s with file := some s.text, handle := .attached, bytes := s.text.length, phase := .idle }
  | .reading ackReadable =>
    let recovery := c.recover (if ackReadable then s.readAcked else 0) s.text
    some { s with
      phase := if c.needsRewrite recovery s.text then .rewriting recovery else .opening recovery }
  | .rewriting recovery =>
    some { s with
      file := some (c.fileOf recovery.pending)
      handle := s.handle.detach
      phase := .opening recovery }
  | .opening recovery =>
    some { s with
      file := some s.text
      handle := .attached
      bytes := s.text.length
      phase := .idle
      history := s.history ++ [SpoolEvent.recovered recovery] }

def spoolStep (maxBytes : Nat) (s : SpoolState R) (l : SpoolLabel R) : Option (SpoolState R) :=
  match l with
  | .append _ | .ack _ _ | .open _ | .close =>
    match s.phase with
    | .idle => beginOperation c maxBytes s l
    | _ => none
  | .wrote written => finishWrite c s written
  | .done => finishStep c s
  | .fail written =>
    match s.phase with
    | .idle => none
    | _ => some { s with file := s.interrupted c written, phase := .idle }
  | .crash written =>
    some { s with
      file := s.interrupted c written
      handle := .absent
      bytes := 0
      phase := .idle }

abbrev SpoolSteps (maxBytes : Nat) (s : SpoolState R) (l : SpoolLabel R) (s' : SpoolState R) :
    Prop :=
  spoolStep c maxBytes s l = some s'

end Refract.Oracle.Evidence
