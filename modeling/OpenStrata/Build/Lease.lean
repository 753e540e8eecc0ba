import Mathlib.Logic.Function.Basic
import OpenStrata.Core.Printing
import OpenStrata.Core.Serialize

/-!
# The target lease

A managed target has one writer. The exclusion is an operating-system lock on the inode of the
lease file; the owner record inside the file only says who the writer is, so that a process that
finds the record of an earlier owner can report the takeover. An acquire opens the file, takes
the lock without blocking, reads the record that was left, and replaces it by its own; waiting
repeats the first two of these. A release truncates the file under the lock and never unlinks it.

Every system call is a step here, a write of any number of bytes too, and a process may crash
or drop its file between any two of them.

## Main definitions

* `LeaseOwner`, `readOwnerFrom`: the record and how it is read
* `classifyStale`: what a record that was left behind means
* `Lease.State`, `Lease.Step`, `Lease.Run`: interleavings of the steps of any processes
-/

namespace OpenStrata

def TARGET_LEASE_SCHEMA : String := "openstrata.target-lease/v1"

/-- The invocation that holds, or last held, a target lease. -/
structure LeaseOwner where
  schema : String
  invocation : String
  command : String
  target : String
  pid : UInt32
  host : String
  acquiredUnix : UInt64
  deriving DecidableEq

namespace LeaseOwner

/-- The fields in declaration order, as they are written. -/
def fields (owner : LeaseOwner) : List (String × Json) := [
  ("schema", .str owner.schema), ("invocation", .str owner.invocation),
  ("command", .str owner.command), ("target", .str owner.target),
  ("pid", .int owner.pid.toNat), ("host", .str owner.host),
  ("acquired_unix", .int owner.acquiredUnix.toNat)]

/-- The JSON value of a record: its fields in key order. -/
def toValue (owner : LeaseOwner) : Json :=
  Serde.object (owner.fields.map fun field => (field.1, some field.2))

def fromJson (value : Json) : Option LeaseOwner := do
  let fs ← Serde.fields ["schema", "invocation", "command", "target", "pid", "host",
    "acquired_unix"] value
  return {
    schema := ← Serde.required fs "schema" Serde.string
    invocation := ← Serde.required fs "invocation" Serde.string
    command := ← Serde.required fs "command" Serde.string
    target := ← Serde.required fs "target" Serde.string
    pid := UInt32.ofNat (← Serde.required fs "pid" Serde.u32)
    host := ← Serde.required fs "host" Serde.string
    acquiredUnix := UInt64.ofNat (← Serde.required fs "acquired_unix" Serde.u64) }

/-- `serde_json::to_string_pretty`. -/
def text (owner : LeaseOwner) : String := (Json.obj owner.fields).renderPretty 0

/-- What is written into the lease file. -/
def body (owner : LeaseOwner) : Bytes := utf8 (owner.text ++ "\n")

def describe (owner : LeaseOwner) : String :=
  owner.command ++ " (invocation " ++ owner.invocation ++ ", pid " ++ toString owner.pid.toNat ++
    " on " ++ owner.host ++ ")"

theorem fromJson_toValue (owner : LeaseOwner) : fromJson owner.toValue = some owner := by
  have hkeys : Serde.distinctKeys (owner.fields.map fun field => (field.1, some field.2)) := rfl
  refine Serde.bind_fields rfl ?_
  refine Serde.bind_required hkeys rfl rfl ?_
  refine Serde.bind_required hkeys rfl rfl ?_
  refine Serde.bind_required hkeys rfl rfl ?_
  refine Serde.bind_required hkeys rfl rfl ?_
  refine Serde.bind_required hkeys rfl (Serde.u32_int owner.pid.toNat_lt) ?_
  refine Serde.bind_required hkeys rfl rfl ?_
  refine Serde.bind_required hkeys rfl (Serde.u64_int owner.acquiredUnix.toNat_lt) ?_
  rw [UInt32.ofNat_toNat, UInt64.ofNat_toNat]
  rfl

end LeaseOwner

/-- Read the record of a lease file. One that cannot be parsed is treated as absent: the lock,
not the record, is the exclusion. -/
def readOwnerFrom (codec : Codec) (content : Bytes) : Option LeaseOwner :=
  if ¬ Utf8.valid content then none
  else if Utf8.isBlank content then none
  else (codec.parse content).bind LeaseOwner.fromJson

/-- Why a previous owner's record was still in the lease file. -/
inductive StaleReason
  | ownerExited
  | pidReused
  | foreignHost
  deriving DecidableEq

/-- What a leftover record means, on a host and among the processes it has. -/
def classifyStale (host : String) (isLive : UInt32 → Bool) (previous : LeaseOwner) :
    StaleReason :=
  if previous.host ≠ host then .foreignHost
  else if isLive previous.pid then .pidReused
  else .ownerExited

structure StaleTakeover where
  previous : LeaseOwner
  reason : StaleReason
  deriving DecidableEq

namespace Lease

/-- How far a process that has the lease file open has come. -/
inductive Stage
  /-- The file is open, the lock not yet tried. -/
  | opened
  /-- The lock is taken, the record not yet read. -/
  | locked
  | verified (takeover : Option StaleTakeover)
  /-- The file was truncated, and this many bytes of the record are written. -/
  | writing (takeover : Option StaleTakeover) (owner : LeaseOwner) (written : Nat)
  /-- The acquire has returned. -/
  | held (takeover : Option StaleTakeover) (owner : LeaseOwner)
  /-- The release is past the truncation. -/
  | released

/-- What a process is doing. -/
inductive Phase (Path : Type)
  | idle
  | handle (path : Path) (inode : Nat) (stage : Stage)
  /-- Attached read-only, without a lock. -/
  | attached (path : Path) (owner : Option LeaseOwner)
  | crashed

variable {P Path : Type} [DecidableEq P] [DecidableEq Path]

/-- The lease files with their locks, and the processes. -/
structure State (P Path : Type) where
  /-- The inode behind a path. -/
  lookup : Path → Option Nat
  /-- The next inode to be allocated. -/
  next : Nat
  content : Nat → Bytes
  /-- The process that holds the exclusive lock of an inode. -/
  lock : Nat → Option P
  phase : P → Phase Path

namespace State

def initial : State P Path where
  lookup _ := none
  next := 0
  content _ := []
  lock _ := none
  phase _ := .idle

def enter (s : State P Path) (p : P) (phase : Phase Path) : State P Path :=
  { s with phase := Function.update s.phase p phase }

def setContent (s : State P Path) (inode : Nat) (content : Bytes) : State P Path :=
  { s with content := Function.update s.content inode content }

def setLock (s : State P Path) (inode : Nat) (p : P) : State P Path :=
  { s with lock := Function.update s.lock inode (some p) }

/-- Closing the files of a process, as the kernel does when it dies, drops its locks. -/
def dropLocks (s : State P Path) (p : P) : State P Path :=
  { s with lock := fun inode => (s.lock inode).filter fun q => q ≠ p }

/-- Open a path for reading and writing; the file is created if it is not there. -/
def create (s : State P Path) (path : Path) : State P Path :=
  match s.lookup path with
  | some _ => s
  | none => { s with
      lookup := Function.update s.lookup path (some s.next)
      next := s.next + 1
      content := Function.update s.content s.next [] }

end State

/-- A file after bytes are written at a position; a gap is filled with zeros. -/
def overwrite (content : Bytes) (position : Nat) (bytes : Bytes) : Bytes :=
  content.take position ++ List.replicate (position - content.length) 0 ++ bytes ++
    content.drop (position + bytes.length)

/-- The steps of a process. -/
inductive Action (Path : Type)
  | openFile (path : Path)
  /-- Another process has the lock. -/
  | busy
  | lock (path : Path)
  | verify
  /-- Truncate the file for the record of this owner. -/
  | record (path : Path) (owner : LeaseOwner)
  /-- Write so many further bytes of the record. -/
  | write (path : Path) (count : Nat)
  | acquired
  /-- Truncate the file on release; the result of the truncation is ignored. -/
  | release (path : Path) (truncated : Bool)
  | close
  /-- The lease is dropped without a release. -/
  | drop
  /-- A system call fails, and the file is dropped. -/
  | fail
  | crash
  | attach (path : Path)
  | detach

/-- One step of a process. -/
inductive Step (codec : Codec) (s : State P Path) (p : P) : Action Path → State P Path → Prop
  | openFile {path inode} (hidle : s.phase p = .idle)
      (hinode : (s.create path).lookup path = some inode) :
      Step codec s p (.openFile path) ((s.create path).enter p (.handle path inode .opened))
  | busy {path inode q} (hphase : s.phase p = .handle path inode .opened)
      (hlock : s.lock inode = some q) : Step codec s p .busy (s.enter p .idle)
  | lock {path inode} (hphase : s.phase p = .handle path inode .opened)
      (hlock : s.lock inode = none) :
      Step codec s p (.lock path) ((s.setLock inode p).enter p (.handle path inode .locked))
  | verify {path inode} (host : String) (isLive : UInt32 → Bool)
      (hphase : s.phase p = .handle path inode .locked) :
      Step codec s p .verify (s.enter p (.handle path inode (.verified
        ((readOwnerFrom codec (s.content inode)).map fun previous =>
          { previous, reason := classifyStale host isLive previous }))))
  | record {path inode takeover owner}
      (hphase : s.phase p = .handle path inode (.verified takeover)) :
      Step codec s p (.record path owner)
        ((s.setContent inode []).enter p (.handle path inode (.writing takeover owner 0)))
  | write {path inode takeover owner written count}
      (hphase : s.phase p = .handle path inode (.writing takeover owner written))
      (hcount : written + count ≤ owner.body.length) :
      Step codec s p (.write path count)
        ((s.setContent inode (overwrite (s.content inode) written
            ((owner.body.drop written).take count))).enter p
          (.handle path inode (.writing takeover owner (written + count))))
  | acquired {path inode takeover owner}
      (hphase : s.phase p = .handle path inode (.writing takeover owner owner.body.length)) :
      Step codec s p .acquired (s.enter p (.handle path inode (.held takeover owner)))
  | release {path inode takeover owner truncated}
      (hphase : s.phase p = .handle path inode (.held takeover owner)) :
      Step codec s p (.release path truncated)
        ((if truncated then s.setContent inode [] else s).enter p (.handle path inode .released))
  | close {path inode} (hphase : s.phase p = .handle path inode .released) :
      Step codec s p .close ((s.dropLocks p).enter p .idle)
  | drop {path inode takeover owner}
      (hphase : s.phase p = .handle path inode (.held takeover owner)) :
      Step codec s p .drop ((s.dropLocks p).enter p .idle)
  | fail {path inode stage} (hphase : s.phase p = .handle path inode stage) :
      Step codec s p .fail ((s.dropLocks p).enter p .idle)
  | crash : Step codec s p .crash ((s.dropLocks p).enter p .crashed)
  | attach {path} (hidle : s.phase p = .idle) :
      Step codec s p (.attach path) (s.enter p (.attached path
        ((s.lookup path).bind fun inode => readOwnerFrom codec (s.content inode))))
  | detach {path owner} (hphase : s.phase p = .attached path owner) :
      Step codec s p .detach (s.enter p .idle)

/-- The runs of any processes: what was done, in order, and the state it led to. -/
inductive Run (codec : Codec) : List (P × Action Path) → State P Path → Prop
  | initial : Run codec [] .initial
  | step {history s s'} {p : P} {a : Action Path} (run : Run codec history s)
      (step : Step codec s p a s') : Run codec (history ++ [(p, a)]) s'

/-- The process holds the lease of the path, and lives. -/
def Holds (s : State P Path) (p : P) (path : Path) : Prop :=
  ∃ inode takeover owner, s.phase p = .handle path inode (.held takeover owner)

end Lease

end OpenStrata
