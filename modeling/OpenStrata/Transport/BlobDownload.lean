import Mathlib.Logic.Relation
import OpenStrata.Core.Find
import OpenStrata.Plugin.Session
import OpenStrata.Transport.Oci

/-!
# Blob downloads

A layer is downloaded into a partial file named by its digest, which outlives the call and is
resumed by a range request. Only bytes that hash to the descriptor's digest move to the
destination. A partial that cannot be a part of the layer is discarded, and the next attempt asks
for the whole.

The attempts are bounded. A partial that is too short and no beginning of the layer spends one:
any registry that honours ranges completes it to wrong bytes, which are discarded then. A call
with a single attempt fails on it.

## Main definitions

* `parseContentRange`, `validateContentRange`: the range that a response says it is
* `Step`: a step of an attempt over the files, which may end it
* `attempt`, `fetchFrom`, `fetchBlobTo`: one attempt, the attempts, and a call
* `Holds`, `Attempted`: what an attempt may make of the files
* `Serves`: a registry that answers every request correctly
* `Interrupted`: the files after calls that were broken off

## Main results

* `attempt_spec`: what an attempt leaves, however it ends
* `fetchBlobTo_spec`: the destination, the partial, the attempts and the success of a call
* `fetchBlobTo_resumes`: a download that was broken off is completed by one attempt
-/

namespace OpenStrata.Download

/-! ## Responses -/

/-- What a request for the layer from an offset on was answered with. -/
structure Response where
  status : ℕ
  finalUrl : String
  contentRange : Option String
  contentLength : Option String
  /-- The bytes of the body that reached the partial. -/
  body : Bytes
  /-- How many bytes were counted, and why no more came. -/
  failure : Option (ℕ × String)

/-- `parse_content_range`: `bytes first-last/total`. -/
def parseContentRange (value : String) : Option (ℕ × ℕ × ℕ) := do
  let range ← Text.stripPrefix "bytes " value
  let (span, total) ← Text.splitOnce "/" range
  let (first, last) ← Text.splitOnce "-" span
  let first ← Text.parseU64 first
  let last ← Text.parseU64 last
  let total ← Text.parseU64 total
  if first ≤ last ∧ last < total then some (first, last, total) else none

def rangeInvalid (message : String) : Error :=
  .ofCode "ARTIFACT_RANGE_INVALID" .validation message

def validateContentRange (r : Response) (expectedStart expectedTotal : ℕ) : Result Unit := do
  let value ← Result.okOr (rangeInvalid ("resumed blob response from " ++ r.finalUrl ++
    " has no Content-Range header")) r.contentRange
  let (first, last, total) ← Result.okOr (rangeInvalid ("resumed blob response from " ++
    r.finalUrl ++ " has invalid Content-Range '" ++ value ++ "'")) (parseContentRange value)
  Result.failIf (first ≠ expectedStart ∨ total ≠ expectedTotal ∨ last + 1 ≠ total)
    ((rangeInvalid ("resumed blob response from " ++ r.finalUrl ++ " returned Content-Range '" ++
      value ++ "', expected bytes " ++ toString expectedStart ++ "-" ++
      toString (expectedTotal - 1) ++ "/" ++ toString expectedTotal)).withHint
        ("discard the partial and retry from a registry that serves the pinned descriptor " ++
          "unchanged"))
  match r.contentLength with
  | none => .ok ()
  | some length =>
    Result.failIf (Text.parseU64 length ≠ some (expectedTotal - expectedStart))
      (rangeInvalid ("resumed blob response from " ++ r.finalUrl ++ " declares Content-Length " ++
        length ++ ", expected " ++ toString (expectedTotal - expectedStart)))

/-! ## Files and steps -/

/-- The partial and the destination. -/
structure Files where
  part : Option Bytes
  dest : Option Bytes
  deriving DecidableEq

/-- `TransferAttemptEvidence`. -/
structure TransferAttempt where
  attempt : ℕ
  resumeOffset : ℕ
  receivedBytes : ℕ
  elapsedMs : ℕ
  idleAgeMs : ℕ
  decision : String
  detail : String
  retryAfterMs : Option ℕ

/-- `LayerTransferEvidence`. -/
structure LayerTransfer where
  digest : String
  title : String
  expectedBytes : ℕ
  receivedBytes : ℕ
  attempts : List TransferAttempt

/-- How an attempt ends: another follows, the layer is there, or the call fails, with the evidence
of the attempts or without. -/
inductive Outcome
  | retry (entry : TransferAttempt)
  | complete (entry : TransferAttempt)
  | stop (entry : TransferAttempt) (error : Error)
  | abort (error : Error)

/-- A step over the files, which may end the attempt. -/
def Step (α : Type) := Files → Except Outcome α × Files

instance : Monad Step where
  pure a := fun s => (.ok a, s)
  bind m f := fun s => match m s with
    | (.ok a, t) => f a t
    | (.error outcome, t) => (.error outcome, t)

def finish {α : Type} (outcome : Outcome) : Step α := fun s => (.error outcome, s)

/-- The operations on the files; `received` tells those after a response. -/
inductive DiskOp
  | length
  | hash (received : Bool)
  | discard (received : Bool)
  | clear (received : Bool)
  | rename (received : Bool)
  | create

/-- The durations of a policy are in milliseconds. -/
structure TransferPolicy where
  maxAttempts : ℕ
  initialRetryBackoff : ℕ
  maxRetryBackoff : ℕ
  overallTimeout : Option ℕ
  bodyIdleTimeout : Option ℕ

/-- What a call is about: `seconds` prints a duration in seconds, with one decimal place. -/
structure Fetch where
  codec : Codec
  os : Os
  policy : TransferPolicy
  reference : OciReference
  layer : Layer
  dest : String
  seconds : ℕ → String

/-- What surrounds a call. Before the attempts, the directory of the partials is made, old partials
are removed and the lease is taken: this fails, or tells whether this partial was removed. In each
attempt a request is answered, operations fail, and time passes. -/
structure World where
  prepared : Result Bool
  respond : ℕ → ℕ → Result Response
  fails : ℕ → DiskOp → Bool
  elapsed : ℕ → ℕ
  idleAge : ℕ → ℕ

def PARTIAL_BLOBS_DIR : String := ".partial-blobs"

namespace Fetch

variable (f : Fetch)

def storeRoot : Result String :=
  Result.okOr (.usage "artifact pull scratch directory has no store parent")
    ((Plugin.Session.parent f.os f.dest).bind (Plugin.Session.parent f.os))

/-- The path of the partial. -/
def partPath (storeRoot : String) : String :=
  Path.join f.os (Path.join f.os storeRoot PARTIAL_BLOBS_DIR)
    ((Text.stripPrefix "sha256:" f.layer.digest).getD f.layer.digest ++ ".part")

def title : String := f.layer.title.getD "untitled layer"

def retryDelay (k : ℕ) : ℕ :=
  min (f.policy.initialRetryBackoff * 2 ^ min (k - 1) 30) f.policy.maxRetryBackoff

/-! ### Evidence and errors -/

def layerTransferEvidence (attempts : List TransferAttempt) : LayerTransfer where
  digest := f.layer.digest
  title := f.title
  expectedBytes := f.layer.size
  receivedBytes := (attempts.getLast?.map (·.receivedBytes)).getD 0
  attempts := attempts

end Fetch

def TransferAttempt.toJson (a : TransferAttempt) : Json :=
  .obj ([("attempt", .int a.attempt), ("decision", .str a.decision), ("detail", .str a.detail),
    ("elapsed_ms", .int a.elapsedMs), ("idle_age_ms", .int a.idleAgeMs),
    ("received_bytes", .int a.receivedBytes), ("resume_offset", .int a.resumeOffset)] ++
    (a.retryAfterMs.map fun ms => ("retry_after_ms", Json.int ms)).toList)

def LayerTransfer.toJson (l : LayerTransfer) : Json :=
  .obj [("attempts", .arr (l.attempts.map TransferAttempt.toJson)), ("digest", .str l.digest),
    ("expected_bytes", .int l.expectedBytes), ("received_bytes", .int l.receivedBytes),
    ("title", .str l.title)]

/-- `Error::hint`. -/
def hintOf : Error → Option String
  | .coded _ _ _ hint _ => hint
  | _ => none

/-- A text or `null`. -/
def textOrNull (text : Option String) : Json := (text.map Json.str).getD .null

namespace Fetch

variable (f : Fetch) (w : World)

def withLayerTransferData (error : Error) (attempts : List TransferAttempt) : Error :=
  error.withData (.obj [("transfer", .obj [
    ("layer", (f.layerTransferEvidence attempts).toJson),
    ("manifest_digest", textOrNull f.reference.digest),
    ("next_action", textOrNull (hintOf error))])])

/-- The layer and where it comes from. -/
def subject : String :=
  "blob " ++ f.layer.digest ++ " ('" ++ f.title ++ "') from '" ++ f.reference.locator ++ "'"

def layerRequestError (error : Error) (k offset : ℕ) : Error :=
  (Error.ofCode error.code error.category (f.subject ++ " failed on attempt " ++ toString k ++
    " at resume offset " ++ toString offset ++ "/" ++ toString f.layer.size ++ " after " ++
    f.seconds (w.elapsed k) ++ "s: " ++ error.message)).withHint ((hintOf error).getD
      "retry the digest-pinned pull; any incomplete digest-keyed layer was retained")

def isTimeout (detail : String) : Bool :=
  let lower := (Text.toAsciiLowercase detail).toList
  decide ("timeout".toList <:+: lower) || decide ("timed out".toList <:+: lower)

def transferExhausted (k received : ℕ) (detail hint : String) : Error :=
  (Error.ofCode (if isTimeout detail then "ARTIFACT_TRANSFER_TIMEOUT"
    else "ARTIFACT_TRANSPORT_FAILED") .externalTool (f.subject ++ " exhausted " ++ toString k ++
    " attempt(s) after " ++ toString received ++ "/" ++ toString f.layer.size ++ " bytes in " ++
    f.seconds (w.elapsed k) ++ "s: " ++ detail)).withHint hint

def displayTimeout (timeout : Option ℕ) : String :=
  (timeout.map fun ms => f.seconds ms ++ "s").getD "disabled"

def timeoutDecision (detail : String) : String :=
  let lower := (Text.toAsciiLowercase detail).toList
  if "global".toList <:+: lower ∨ "overall".toList <:+: lower then
    "overall timeout " ++ f.displayTimeout f.policy.overallTimeout ++
      "; increase --overall-timeout or set it to 0 to rely on the idle timeout"
  else
    "body idle timeout " ++ f.displayTimeout f.policy.bodyIdleTimeout ++
      "; increase --body-idle-timeout or retry"

def retryableTransferError (error : Error) : Bool :=
  error.code == "ARTIFACT_TRANSFER_TIMEOUT" || error.code == "ARTIFACT_TRANSPORT_FAILED"

end Fetch

/-! ## An attempt -/

namespace Fetch

variable (f : Fetch) (w : World) (part : String) (k : ℕ) (more : Bool)

/-- An operation that fails ends the call. -/
def io (op : DiskOp) (path : String) : Step Unit := fun s =>
  if w.fails k op then (.error (.abort (.io path)), s) else (.ok (), s)

def onFiles {α : Type} (change : Files → α × Files) : Step α := fun s =>
  (.ok (change s).1, (change s).2)

def partialLen : Step ℕ := do
  io w k .length part
  onFiles fun s => ((s.part.getD []).length, s)

def hashFile (received : Bool) : Step (String × ℕ) := do
  io w k (.hash received) part
  onFiles fun s => ((sha256Hex f.codec (s.part.getD []), (s.part.getD []).length), s)

def discardPartial (received : Bool) : Step Unit := do
  io w k (.discard received) part
  onFiles fun s => ((), { s with part := none })

def moveVerifiedBlob (received : Bool) : Step Unit := do
  io w k (.clear received) f.dest
  onFiles fun s => ((), { s with dest := none })
  io w k (.rename received) f.dest
  onFiles fun s => ((), { part := none, dest := s.part })

def transferAttempt (offset received idle : ℕ) (decision detail : String) (retry : Bool) :
    TransferAttempt where
  attempt := k
  resumeOffset := offset
  receivedBytes := received
  elapsedMs := w.elapsed k
  idleAgeMs := idle
  decision := decision
  detail := detail
  retryAfterMs := if retry then some (f.retryDelay k) else none

/-- The hash and the size of a file are those of the layer. -/
def isLayer (hashed : String × ℕ) : Bool :=
  hashed.1 == f.layer.digest && hashed.2 == f.layer.size

/-- Where the request starts, unless the partial is complete. -/
def startOffset : Step ℕ := do
  let offset ← partialLen w part k
  if offset > f.layer.size then do
    discardPartial w part k false
    pure 0
  else if offset = f.layer.size ∧ offset > 0 then do
    let hashed ← f.hashFile w part k false
    if f.isLayer hashed then do
      f.moveVerifiedBlob w k false
      finish (.complete (f.transferAttempt w k offset hashed.2 0 "complete"
        "verified a complete digest-keyed partial without another request" false))
    else do
      discardPartial w part k false
      pure 0
  else pure offset

def request (offset : ℕ) : Step Response :=
  match w.respond k offset with
  | .ok response => pure response
  | .error error =>
    let entry := f.transferAttempt w k offset offset (w.elapsed k)
    if retryableTransferError error && more then
      finish (.retry (entry "retry" ("transient request failure: " ++ error.message) true))
    else
      finish (.stop (entry "stop" ("request failed: " ++ error.message) false)
        (f.layerRequestError w error k offset))

/-- Whether the body continues the partial, and what is said of it. -/
def acceptResponse (offset : ℕ) (response : Response) : Step (Bool × String) :=
  let entry := f.transferAttempt w k offset offset (w.elapsed k)
  if response.status = 416 then do
    discardPartial w part k true
    let detail := "registry rejected the resume range; discarded the partial"
    if more then finish (.retry (entry "restart" detail true))
    else finish (.stop (entry "stop" detail false)
      (f.transferExhausted w k offset "registry rejected the resume range"
        "retry the digest-pinned pull; the rejected partial was discarded"))
  else if offset > 0 ∧ response.status = 206 then
    match validateContentRange response offset f.layer.size with
    | .ok _ => pure (true, "validated Content-Range and resumed the retained prefix")
    | .error error => do
      discardPartial w part k true
      finish (.stop (entry "stop" error.message false) error)
  else if offset > 0 ∧ response.status = 200 then
    -- the range was ignored: the whole body replaces the partial
    pure (false,
      "registry ignored Range; truncated the partial and accepted the full response")
  else if offset = 0 ∧ response.status = 200 then
    pure (false, "registry returned the requested representation")
  else do
    discardPartial w part k true
    finish (.stop (entry "stop" ("HTTP " ++ toString response.status ++
        " is invalid for resume offset " ++ toString offset) false)
      ((rangeInvalid ("blob " ++ f.layer.digest ++ " from " ++ response.finalUrl ++
        " answered HTTP " ++ toString response.status ++ " for resume offset " ++
        toString offset)).withHint
          "the registry returned an invalid range representation; retry from a trusted mirror"))

/-- Write the body to the partial. -/
def receive (offset : ℕ) (accepted : Bool × String) (response : Response) : Step Unit := do
  io w k .create part
  onFiles fun s =>
    ((), { s with part := some ((if accepted.1 then s.part.getD [] else []) ++ response.body) })
  match response.failure with
  | none => pure ()
  | some (counted, why) =>
    let received := (if accepted.1 then offset else 0) + counted
    let entry := f.transferAttempt w k offset received (w.idleAge k)
    let detail := accepted.2 ++ "; body transfer failed: " ++ why
    if more then finish (.retry (entry "retry" detail true))
    else finish (.stop (entry "stop" detail false) (f.transferExhausted w k received why
      (if isTimeout why then f.timeoutDecision why
        else "retry the digest-pinned pull; the verified partial will be resumed")))

def discardCorrupt (size : ℕ) : Step Unit :=
  if size ≥ f.layer.size then discardPartial w part k true else pure ()

/-- How an attempt ends whose bytes are not the layer's. -/
def mismatch (offset : ℕ) (hashed : String × ℕ) : Outcome :=
  let entry := f.transferAttempt w k offset hashed.2 (w.idleAge k)
  let size := toString hashed.2
  let total := toString f.layer.size
  let discarded := "received " ++ size ++ " bytes with digest " ++ hashed.1 ++
    "; discarded corrupt content"
  let corrupt := decide (hashed.2 ≥ f.layer.size)
  if more then
    .retry (if corrupt then entry "restart" discarded true
      else entry "retry" ("short response retained " ++ size ++ "/" ++ total ++ " bytes") true)
  else
    .stop (entry "stop" (if corrupt then discarded
        else "incomplete response retained " ++ size ++ "/" ++ total ++ " bytes") false)
      ((Error.ofCode "ARTIFACT_OCI_DIGEST_MISMATCH" .validation (f.subject ++ " exhausted " ++
        toString k ++ " attempt(s): local bytes hash to " ++ hashed.1 ++ " (" ++ size ++ "/" ++
        total ++ " bytes)")).withHint (if corrupt then
          "the corrupt partial was discarded; retry from a trusted registry or mirror"
        else "retry the digest-pinned pull; the incomplete digest-keyed partial was retained"))

/-- Compare the partial with the descriptor. -/
def verify (offset : ℕ) (detail : String) : Step Outcome := do
  let hashed ← f.hashFile w part k true
  if f.isLayer hashed then do
    f.moveVerifiedBlob w k true
    pure (.complete (f.transferAttempt w k offset hashed.2 (w.idleAge k) "complete"
      (detail ++ "; descriptor digest and size verified") false))
  else do
    f.discardCorrupt w part k hashed.2
    pure (f.mismatch w k more offset hashed)

def attemptSteps : Step Outcome := do
  let offset ← f.startOffset w part k
  let response ← f.request w k more offset
  let accepted ← f.acceptResponse w part k more offset response
  f.receive w part k more offset accepted response
  f.verify w part k more offset accepted.2

/-- One attempt; `more` tells that another one may follow. -/
def attempt (s : Files) : Outcome × Files :=
  match f.attemptSteps w part k more s with
  | (.ok outcome, t) | (.error outcome, t) => (outcome, t)

end Fetch

/-! ## A call -/

namespace Fetch

variable (f : Fetch) (w : World)

/-- The `unreachable!` behind the attempts. -/
def unreachable : Error := .ofCode "INTERNAL" .internal "max_attempts is clamped to at least one"

def fetchFrom (part : String) : ℕ → ℕ → List TransferAttempt → Files → Result LayerTransfer × Files
  | 0, _, _, s => (.error unreachable, s)
  | left + 1, k, attempts, s =>
    match f.attempt w part k (left ≠ 0) s with
    | (.retry entry, t) => fetchFrom part left (k + 1) (attempts ++ [entry]) t
    | (.complete entry, t) => (.ok (f.layerTransferEvidence (attempts ++ [entry])), t)
    | (.stop entry error, t) => (.error (f.withLayerTransferData error (attempts ++ [entry])), t)
    | (.abort error, t) => (.error error, t)

def maxAttempts : ℕ := max f.policy.maxAttempts 1

def fetchBlobTo (s : Files) : Result LayerTransfer × Files :=
  match f.storeRoot with
  | .error error => (.error error, s)
  | .ok storeRoot =>
    match w.prepared with
    | .error error => (.error error, s)
    | .ok removed =>
      f.fetchFrom w (f.partPath storeRoot) f.maxAttempts 1 []
        (if removed then { s with part := none } else s)

end Fetch

/-! ## Steps and their outcomes -/

namespace Step

variable {α β : Type} {s : Files} {E : Outcome → Files → Prop}

/-- A step ends the attempt as `E` says, or goes on as `Q` says. -/
def Spec (m : Step α) (s : Files) (E : Outcome → Files → Prop) (Q : α → Files → Prop) : Prop :=
  match m s with
  | (.ok a, t) => Q a t
  | (.error outcome, t) => E outcome t

theorem spec_pure {a : α} {Q : α → Files → Prop} (h : Q a s) : Spec (pure a) s E Q := h

theorem spec_finish {outcome : Outcome} {Q : α → Files → Prop} (h : E outcome s) :
    Spec (finish outcome) s E Q := h

theorem spec_bind {m : Step α} {next : α → Step β} {Q : α → Files → Prop} {R : β → Files → Prop}
    (h : Spec m s E Q) (hnext : ∀ a t, Q a t → Spec (next a) t E R) : Spec (m >>= next) s E R := by
  show match (m >>= next) s with
    | (.ok b, t) => R b t
    | (.error outcome, t) => E outcome t
  show match (match m s with
      | (.ok a, t) => next a t
      | (.error outcome, t) => (.error outcome, t)) with
    | (.ok b, t) => R b t
    | (.error outcome, t) => E outcome t
  rcases hm : m s with ⟨outcome | a, t⟩
  · rw [Spec, hm] at h
    exact h
  · rw [Spec, hm] at h
    exact hnext a t h

theorem spec_onFiles {change : Files → α × Files} {Q : α → Files → Prop}
    (h : Q (change s).1 (change s).2) : Spec (Fetch.onFiles change) s E Q := h

end Step

namespace Fetch

open Step

variable {f : Fetch} {w : World} {part : String} {k : ℕ} {more : Bool} {s : Files}
  {E : Outcome → Files → Prop}

theorem spec_io {op : DiskOp} {path : String} {Q : Unit → Files → Prop}
    (hfails : w.fails k op → E (.abort (.io path)) s) (h : Q () s) :
    Spec (io w k op path) s E Q := by
  unfold Spec io
  by_cases hop : w.fails k op
  · rw [if_pos hop]
    exact hfails hop
  · rw [if_neg hop]
    exact h

theorem spec_partialLen {Q : ℕ → Files → Prop}
    (hfails : w.fails k .length → E (.abort (.io part)) s) (h : Q (s.part.getD []).length s) :
    Spec (partialLen w part k) s E Q :=
  spec_bind (Q := fun _ t => t = s) (spec_io hfails rfl) fun _ _ ht => ht ▸ spec_onFiles h

theorem spec_hashFile {received : Bool} {Q : String × ℕ → Files → Prop}
    (hfails : w.fails k (.hash received) → E (.abort (.io part)) s)
    (h : Q (sha256Hex f.codec (s.part.getD []), (s.part.getD []).length) s) :
    Spec (f.hashFile w part k received) s E Q :=
  spec_bind (Q := fun _ t => t = s) (spec_io hfails rfl) fun _ _ ht => ht ▸ spec_onFiles h

theorem spec_discardPartial {received : Bool} {Q : Unit → Files → Prop}
    (hfails : w.fails k (.discard received) → E (.abort (.io part)) s)
    (h : Q () { s with part := none }) : Spec (discardPartial w part k received) s E Q :=
  spec_bind (Q := fun _ t => t = s) (spec_io hfails rfl) fun _ _ ht => ht ▸ spec_onFiles h

theorem spec_moveVerifiedBlob {received : Bool} {Q : Unit → Files → Prop}
    (hclear : w.fails k (.clear received) → E (.abort (.io f.dest)) s)
    (hrename : w.fails k (.rename received) → E (.abort (.io f.dest)) { s with dest := none })
    (h : Q () { part := none, dest := s.part }) :
    Spec (f.moveVerifiedBlob w k received) s E Q := by
  refine spec_bind (Q := fun _ t => t = s) (spec_io hclear rfl) fun _ _ ht => ?_
  rw [ht]
  refine spec_bind (Q := fun _ t => t = { s with dest := none }) (spec_onFiles rfl) fun _ _ ht => ?_
  rw [ht]
  refine spec_bind (Q := fun _ t => t = { s with dest := none }) (spec_io hrename rfl)
    fun _ _ ht => ?_
  rw [ht]
  exact spec_onFiles h

/-! ## What an attempt leaves -/

section Sound

variable (f w k)

/-- What the partial may hold once an attempt has begun: what it held before, the body of a whole
answer, or what it held before and the body of an answer that continues it. -/
inductive Holds (old : Option Bytes) : Bytes → Prop
  | kept {b : Bytes} (hold : old = some b) : Holds old b
  | replaced {offset : ℕ} {r : Response} (hr : w.respond k offset = .ok r)
      (hstatus : r.status = 200) : Holds old r.body
  | continued {b : Bytes} {r : Response} {value : String} {last : ℕ} (hold : old = some b)
      (hr : w.respond k b.length = .ok r) (hstatus : r.status = 206)
      (hvalue : r.contentRange = some value)
      (hrange : parseContentRange value = some (b.length, last, f.layer.size)) :
      Holds old (b ++ r.body)

/-- The size and the hash of a content are those of the layer. -/
def Verified (b : Bytes) : Prop :=
  b.length = f.layer.size ∧ sha256Hex f.codec b = f.layer.digest

/-- What an attempt may make of the files. -/
structure During (s t : Files) : Prop where
  part : ∀ b, t.part = some b → Holds f w k s.part b
  dest : t.dest = s.dest ∨ ∀ b, t.dest = some b → Holds f w k s.part b ∧ f.Verified b

/-- What is true when an attempt has ended. -/
structure Ended (more : Bool) (s : Files) (outcome : Outcome) (t : Files) : Prop where
  during : During f w k s t
  complete : ∀ entry, outcome = .complete entry → ∃ b, t.dest = some b ∧ f.Verified b
  retry : ∀ entry, outcome = .retry entry → more

/-- What is true before the request. -/
structure Ready (s : Files) (offset : ℕ) (t : Files) : Prop where
  dest : t.dest = s.dest
  part : t.part = none ∨ t.part = s.part
  resumes : offset > 0 → ∃ b, s.part = some b ∧ t.part = some b ∧ b.length = offset

variable {f w k} {t : Files} {offset : ℕ}

theorem isLayer_iff {b : Bytes} : f.isLayer (sha256Hex f.codec b, b.length) ↔ f.Verified b := by
  rw [isLayer, Bool.and_eq_true, beq_iff_eq, beq_iff_eq, Verified, and_comm]

theorem Ready.during (h : Ready s offset t) : During f w k s t where
  part b hb := by
    rcases h.part with hnone | hsame
    · rw [hnone] at hb
      cases hb
    · exact .kept (hsame ▸ hb)
  dest := .inl h.dest

theorem During.discard (h : During f w k s t) : During f w k s { t with part := none } :=
  ⟨fun _ hb => (by cases hb), h.dest⟩

theorem During.clear (h : During f w k s t) : During f w k s { t with dest := none } :=
  ⟨h.part, .inr fun _ hb => (by cases hb)⟩

/-- An outcome that neither completes nor retries. -/
theorem During.ended {outcome : Outcome} (h : During f w k s t)
    (hcomplete : ∀ entry, outcome ≠ .complete entry)
    (hretry : ∀ entry, outcome = .retry entry → more) :
    Ended f w k more s outcome t :=
  ⟨h, fun entry heq => absurd heq (hcomplete entry), hretry⟩

theorem During.aborted {error : Error} (h : During f w k s t) :
    Ended f w k more s (.abort error) t :=
  h.ended (fun _ heq => by cases heq) fun _ heq => by cases heq

theorem During.stopped {entry : TransferAttempt} {error : Error} (h : During f w k s t) :
    Ended f w k more s (.stop entry error) t :=
  h.ended (fun _ heq => by cases heq) fun _ heq => by cases heq

theorem During.retried {entry : TransferAttempt} (h : During f w k s t) (hmore : more) :
    Ended f w k more s (.retry entry) t :=
  h.ended (fun _ heq => by cases heq) fun _ _ => hmore

/-- A verified partial moves to the destination. -/
theorem During.moved {b : Bytes} {entry : TransferAttempt} (h : During f w k s t)
    (hb : t.part = some b) (hverified : f.Verified b) :
    Ended f w k more s (.complete entry) { part := none, dest := t.part } where
  during := by
    refine ⟨fun _ hb => (by cases hb), .inr fun b' hb' => ?_⟩
    obtain rfl := Option.some.inj (hb.symm.trans hb')
    exact ⟨h.part b hb, hverified⟩
  complete _ _ := ⟨b, hb, hverified⟩
  retry _ heq := by cases heq

theorem spec_startOffset :
    Spec (f.startOffset w part k) s (Ended f w k more s) (Ready s) := by
  have hs : During f w k s s := ⟨fun _ hb => .kept hb, .inl rfl⟩
  have hdiscarded : Spec (discardPartial w part k false >>= fun _ => pure 0) s
      (Ended f w k more s) (Ready s) :=
    spec_bind (Q := fun _ t => t = { s with part := none })
      (spec_discardPartial (fun _ => hs.aborted) rfl) fun _ _ ht =>
        ht ▸ spec_pure ⟨rfl, .inl rfl, fun h => absurd h (lt_irrefl 0)⟩
  refine spec_bind (Q := fun offset t => t = s ∧ offset = (s.part.getD []).length)
    (spec_partialLen (fun _ => hs.aborted) ⟨rfl, rfl⟩) fun offset t h => ?_
  obtain ⟨rfl, hoffset⟩ := h
  -- a partial of positive length is there
  have hpart : offset > 0 → ∃ b, t.part = some b ∧ b.length = offset := by
    intro hpos
    rw [hoffset] at hpos ⊢
    cases hpart : t.part with
    | none => rw [hpart] at hpos; exact absurd hpos (lt_irrefl 0)
    | some b => exact ⟨b, rfl, rfl⟩
  split_ifs with hlong hfull
  · exact hdiscarded
  · obtain ⟨b, hb, -⟩ := hpart hfull.2
    refine spec_bind (Q := fun hashed u => u = t ∧ hashed = (sha256Hex f.codec b, b.length))
      (spec_hashFile (fun _ => hs.aborted) ⟨rfl, by rw [hb]; rfl⟩) fun hashed u h => ?_
    obtain ⟨rfl, rfl⟩ := h
    split_ifs with hlayer
    · refine spec_bind (Q := fun _ v => v = { part := none, dest := u.part })
        (spec_moveVerifiedBlob (fun _ => hs.aborted) (fun _ => hs.clear.aborted) rfl)
        fun _ v hv => ?_
      subst hv
      exact spec_finish (hs.moved hb (isLayer_iff.mp hlayer))
    · exact hdiscarded
  · refine spec_pure ⟨rfl, .inr rfl, fun hpos => ?_⟩
    obtain ⟨b, hb, hlength⟩ := hpart hpos
    exact ⟨b, hb, hb, hlength⟩

theorem spec_request (h : Ready s offset t) :
    Spec (f.request w k more offset) t (Ended f w k more s)
      fun r u => u = t ∧ w.respond k offset = .ok r := by
  unfold request
  cases hr : w.respond k offset with
  | ok r => exact spec_pure ⟨rfl, rfl⟩
  | error error =>
    dsimp only
    split_ifs with hretry
    · exact spec_finish (h.during.retried (Bool.and_eq_true_iff.mp hretry).2)
    · exact spec_finish h.during.stopped

/-- A validated range starts at the partial's length and ends with the layer. -/
theorem validateContentRange_ok {r : Response} {start total : ℕ} {u : Unit}
    (h : validateContentRange r start total = .ok u) :
    ∃ value last, r.contentRange = some value ∧
      parseContentRange value = some (start, last, total) := by
  unfold validateContentRange at h
  obtain ⟨value, hvalue, h⟩ := Result.bind_ok.mp h
  obtain ⟨⟨first, last, total'⟩, hrange, h⟩ := Result.bind_ok.mp h
  obtain ⟨_, hbounds, -⟩ := Result.bind_ok.mp h
  simp only [Result.failIf_ok, not_or, not_not] at hbounds
  obtain ⟨rfl, rfl, -⟩ := hbounds
  exact ⟨value, last, Result.okOr_ok.mp hvalue, Result.okOr_ok.mp hrange⟩

/-- Whether an accepted response continues the partial or replaces it. -/
def Accepts (f : Fetch) (offset : ℕ) (r : Response) (accepted : Bool) : Prop :=
  if accepted then offset > 0 ∧ r.status = 206 ∧
    validateContentRange r offset f.layer.size = .ok ()
  else r.status = 200

theorem spec_acceptResponse {r : Response} (h : Ready s offset t) :
    Spec (f.acceptResponse w part k more offset r) t (Ended f w k more s)
      fun accepted u => u = t ∧ f.Accepts offset r accepted.1 := by
  have hdiscarded {next : Unit → Step (Bool × String)} {Q : Bool × String → Files → Prop}
      (hnext : Spec (next ()) { t with part := none } (Ended f w k more s) Q) :
      Spec (discardPartial w part k true >>= next) t (Ended f w k more s) Q :=
    spec_bind (Q := fun _ u => u = { t with part := none })
      (spec_discardPartial (fun _ => h.during.aborted) rfl) fun _ _ hu => hu ▸ hnext
  unfold acceptResponse
  dsimp only
  split_ifs with hrange hmore hresumed hwhole hfresh
  · exact hdiscarded (spec_finish (h.during.discard.retried hmore))
  · exact hdiscarded (spec_finish h.during.discard.stopped)
  · cases hvalid : validateContentRange r offset f.layer.size with
    | ok u => exact spec_pure ⟨rfl, hresumed.1, hresumed.2, hvalid⟩
    | error error => exact hdiscarded (spec_finish h.during.discard.stopped)
  · exact spec_pure ⟨rfl, hwhole.2⟩
  · exact spec_pure ⟨rfl, hfresh.2⟩
  · exact hdiscarded (spec_finish h.during.discard.stopped)

theorem holds_body {r : Response} {accepted : Bool} (h : Ready s offset t)
    (hr : w.respond k offset = .ok r) (haccepted : f.Accepts offset r accepted) :
    Holds f w k s.part ((if accepted then t.part.getD [] else []) ++ r.body) := by
  cases accepted with
  | false => exact .replaced hr haccepted
  | true =>
    obtain ⟨hpos, hstatus, hvalid⟩ := haccepted
    obtain ⟨b, hold, hpart, rfl⟩ := h.resumes hpos
    obtain ⟨value, last, hvalue, hrange⟩ := validateContentRange_ok hvalid
    rw [hpart]
    exact .continued hold hr hstatus hvalue hrange

theorem spec_receive {r : Response} {accepted : Bool × String} (h : Ready s offset t)
    (hr : w.respond k offset = .ok r) (haccepted : f.Accepts offset r accepted.1) :
    Spec (f.receive w part k more offset accepted r) t (Ended f w k more s)
      fun _ u => During f w k s u ∧ u.part.isSome := by
  refine spec_bind (Q := fun _ u => u = t) (spec_io (fun _ => h.during.aborted) rfl)
    fun _ u hu => ?_
  subst hu
  refine spec_bind (Q := fun _ v => During f w k s v ∧ v.part.isSome) (spec_onFiles ?_)
    fun _ v hv => ?_
  · refine ⟨⟨fun b hb => ?_, .inl h.dest⟩, rfl⟩
    rw [← Option.some.inj hb]
    exact holds_body h hr haccepted
  · cases r.failure with
    | none => exact spec_pure hv
    | some failure =>
      dsimp only
      by_cases hmore : more
      · rw [if_pos hmore]
        exact spec_finish (hv.1.retried hmore)
      · rw [if_neg hmore]
        exact spec_finish hv.1.stopped

theorem ended_mismatch {hashed : String × ℕ} (h : During f w k s t) :
    Ended f w k more s (f.mismatch w k more offset hashed) t := by
  unfold mismatch
  dsimp only
  by_cases hmore : more
  · rw [if_pos hmore]
    exact h.retried hmore
  · rw [if_neg hmore]
    exact h.stopped

theorem spec_verify {detail : String} (h : During f w k s t) (hpart : t.part.isSome) :
    Spec (f.verify w part k more offset detail) t (Ended f w k more s)
      (Ended f w k more s) := by
  obtain ⟨b, hb⟩ := Option.isSome_iff_exists.mp hpart
  refine spec_bind (Q := fun hashed u => u = t ∧ hashed = (sha256Hex f.codec b, b.length))
    (spec_hashFile (fun _ => h.aborted) ⟨rfl, by rw [hb]; rfl⟩) fun hashed u hu => ?_
  obtain ⟨rfl, rfl⟩ := hu
  split_ifs with hlayer
  · refine spec_bind (Q := fun _ v => v = { part := none, dest := u.part })
      (spec_moveVerifiedBlob (fun _ => h.aborted) (fun _ => h.clear.aborted) rfl) fun _ v hv => ?_
    subst hv
    exact spec_pure (h.moved hb (isLayer_iff.mp hlayer))
  · refine spec_bind (Q := fun _ v => During f w k s v) ?_ fun _ v hv =>
      spec_pure (ended_mismatch hv)
    unfold discardCorrupt
    split_ifs
    · exact spec_discardPartial (fun _ => h.aborted) h.discard
    · exact spec_pure h

/-- What an attempt leaves, however it ends. -/
theorem attempt_spec (part : String) (k : ℕ) (more : Bool) (s : Files) :
    Ended f w k more s (f.attempt w part k more s).1 (f.attempt w part k more s).2 := by
  have hspec : Spec (f.attemptSteps w part k more) s (Ended f w k more s) (Ended f w k more s) := by
    refine spec_bind spec_startOffset fun offset t ht => ?_
    refine spec_bind (spec_request ht) fun r u hu => ?_
    obtain ⟨rfl, hr⟩ := hu
    refine spec_bind (spec_acceptResponse ht) fun accepted v hv => ?_
    obtain ⟨rfl, haccepted⟩ := hv
    exact spec_bind (spec_receive ht hr haccepted) fun _ _ h => spec_verify h.1 h.2
  unfold attempt
  unfold Spec at hspec
  split at hspec <;> next heq => rw [heq]; exact hspec

end Sound

end Fetch

/-! ## A registry that answers correctly -/

namespace Fetch

open Step

variable {f : Fetch} {w : World} {part : String} {k : ℕ} {more : Bool} {s t : Files}
  {blob : Bytes} {offset : ℕ}

/-- How a registry writes a range. -/
def rangeText (first last total : ℕ) : String :=
  "bytes " ++ toString first ++ "-" ++ toString last ++ "/" ++ toString total

/-- A correct answer to a request from an offset on: the whole, or the rest with its range. -/
def Answers (blob : Bytes) (offset : ℕ) (r : Response) : Prop :=
  r.failure = none ∧
  ((r.status = 200 ∧ r.body = blob) ∨
   (offset > 0 ∧ r.status = 206 ∧ r.body = blob.drop offset ∧
    r.contentRange = some (rangeText offset (blob.length - 1) blob.length) ∧
    (r.contentLength = none ∨ r.contentLength = some (toString (blob.length - offset)))))

/-- A registry that has the layer and answers every request for a part of it correctly. -/
structure Serves (f : Fetch) (w : World) (blob : Bytes) : Prop where
  length : blob.length = f.layer.size
  digest : sha256Hex f.codec blob = f.layer.digest
  small : f.layer.size < 2 ^ 64
  answers : ∀ k offset, (offset = 0 ∨ offset < f.layer.size) →
    ∃ r, w.respond k offset = .ok r ∧ Answers blob offset r

/-- No operation on the files fails. -/
def Steady (w : World) : Prop := ∀ k op, w.fails k op = false

/-- A partial that is no obstacle: there is none, it is long enough to be checked, or it is a
beginning of the layer. -/
def Usable (f : Fetch) (blob : Bytes) (old : Option Bytes) : Prop :=
  ∀ b, old = some b → f.layer.size ≤ b.length ∨ b <+: blob

theorem decimalFrom_ofDigitChars {cs : List Char} (h : ∀ c ∈ cs, c.isDigit) (acc : ℕ) :
    Text.decimalFrom acc cs = some (Nat.ofDigitChars 10 cs acc) := by
  induction cs generalizing acc with
  | nil => rfl
  | cons c cs ih =>
    rw [Text.decimalFrom, if_pos (h c List.mem_cons_self),
      ih fun d hd => h d (List.mem_cons_of_mem c hd), Nat.ofDigitChars_cons, Nat.mul_comm]

theorem parseU64_toString {n : ℕ} (h : n < 2 ^ 64) : Text.parseU64 (toString n) = some n := by
  have hdigit : ∀ c ∈ Nat.toDigits 10 n, c.isDigit := fun c hc =>
    Nat.isDigit_of_mem_toDigits (by decide) (by decide) hc
  have hlist : (toString n).toList = Nat.toDigits 10 n := Nat.toList_repr
  have hne : Nat.toDigits 10 n ≠ [] := Nat.toDigits_ne_nil
  rw [Text.parseU64, hlist]
  split
  · next heq => exact absurd (hdigit '+' (heq ▸ List.mem_cons_self)) (by decide)
  · rw [if_neg (by simp [hne]), decimalFrom_ofDigitChars hdigit, Nat.ofDigitChars_ten_toDigits]
    exact Option.filter_some_pos (by simpa using h)

theorem not_mem_toString {c : Char} (hc : c.isDigit = false) (n : ℕ) : c ∉ (toString n).toList := by
  intro hmem
  have hlist : (toString n).toList = Nat.toDigits 10 n := Nat.toList_repr
  rw [hlist] at hmem
  rw [Nat.isDigit_of_mem_toDigits (by decide) (by decide) hmem] at hc
  cases hc

/-- The range of a correct answer is read back. -/
theorem parseContentRange_rangeText {first last total : ℕ} (hfirst : first ≤ last)
    (hlast : last < total) (htotal : total < 2 ^ 64) :
    parseContentRange (rangeText first last total) = some (first, last, total) := by
  have hspan : '/' ∉ (toString first ++ "-" ++ toString last).toList := by
    simp only [String.toList_append, List.mem_append, not_or]
    exact ⟨⟨not_mem_toString (by decide) _, by decide⟩, not_mem_toString (by decide) _⟩
  have htext : rangeText first last total =
      "bytes " ++ (toString first ++ "-" ++ toString last ++ "/" ++ toString total) := by
    simp only [rangeText, String.append_assoc]
  rw [parseContentRange, htext, Text.stripPrefix_append]
  simp only [Option.bind_eq_bind, Option.bind_some]
  rw [Text.splitOnce_append (c := '/') rfl hspan]
  simp only [Option.bind_some]
  rw [Text.splitOnce_append (c := '-') rfl (not_mem_toString (by decide) _)]
  simp only [Option.bind_some]
  rw [parseU64_toString (by omega), parseU64_toString (by omega), parseU64_toString htotal]
  exact if_pos ⟨hfirst, hlast⟩

theorem validateContentRange_answers {r : Response} (hpos : offset < blob.length)
    (hsmall : blob.length < 2 ^ 64)
    (hrange : r.contentRange = some (rangeText offset (blob.length - 1) blob.length))
    (hlength : r.contentLength = none ∨
      r.contentLength = some (toString (blob.length - offset))) :
    validateContentRange r offset blob.length = .ok () := by
  have hparse : parseContentRange (rangeText offset (blob.length - 1) blob.length) =
      some (offset, blob.length - 1, blob.length) :=
    parseContentRange_rangeText (by omega) (by omega) hsmall
  rw [validateContentRange, hrange]
  refine Result.bind_ok.mpr ⟨_, rfl, Result.bind_ok.mpr ⟨(offset, blob.length - 1, blob.length),
    Result.okOr_ok.mpr hparse, Result.bind_ok.mpr ⟨(), ?_, ?_⟩⟩⟩
  · rw [Result.failIf_ok]
    omega
  · rcases hlength with h | h
    · rw [h]
    · rw [h]
      exact Result.failIf_ok.mpr (not_not.mpr (parseU64_toString (by omega)))

/-- How an attempt ends against a registry that answers correctly: the layer is there, or a
partial that was no beginning of it is gone and another attempt may follow. -/
def Served (f : Fetch) (blob : Bytes) (more : Bool) (s : Files) (outcome : Outcome) (t : Files) :
    Prop :=
  (∃ entry, outcome = .complete entry) ∨
  (¬ f.Usable blob s.part ∧ t.part = none ∧ (more → ∃ entry, outcome = .retry entry))

/-- Where a request starts: at the front, or at the end of a partial shorter than the layer. -/
def Starts (f : Fetch) (s : Files) (offset : ℕ) (t : Files) : Prop :=
  offset = 0 ∨ (offset > 0 ∧ offset < f.layer.size ∧ t.part = s.part ∧
    ∃ b, s.part = some b ∧ b.length = offset)

section Serve

variable (hsteady : Steady w) (hserves : f.Serves w blob)

include hsteady

theorem spec_startOffset_steady :
    Spec (f.startOffset w part k) s (f.Served blob more s) (f.Starts s) := by
  have hop {op : DiskOp} {E : Prop} (h : w.fails k op) : E := by
    rw [hsteady] at h
    cases h
  have hdiscarded : Spec (discardPartial w part k false >>= fun _ => pure 0) s
      (f.Served blob more s) (f.Starts s) :=
    spec_bind (Q := fun _ _ => True) (spec_discardPartial hop trivial) fun _ _ _ =>
      spec_pure (.inl rfl)
  refine spec_bind (Q := fun offset t => t = s ∧ offset = (s.part.getD []).length)
    (spec_partialLen hop ⟨rfl, rfl⟩) fun offset t h => ?_
  obtain ⟨rfl, hoffset⟩ := h
  split_ifs with hlong hfull
  · exact hdiscarded
  · refine spec_bind (Q := fun _ u => u = t) (spec_hashFile hop rfl) fun hashed u hu => ?_
    subst hu
    split_ifs with hlayer
    · exact spec_bind (Q := fun _ _ => True) (spec_moveVerifiedBlob hop hop trivial)
        fun _ _ _ => spec_finish (.inl ⟨_, rfl⟩)
    · exact hdiscarded
  · refine spec_pure ?_
    rcases Nat.eq_zero_or_pos offset with hzero | hpos
    · exact .inl hzero
    · refine .inr ⟨hpos, by omega, rfl, ?_⟩
      cases hpart : t.part with
      | none =>
        rw [hpart] at hoffset
        exact absurd hoffset hpos.ne'
      | some b =>
        rw [hpart] at hoffset
        exact ⟨b, rfl, hoffset.symm⟩

theorem spec_verify_steady {detail : String} {b : Bytes} (hb : t.part = some b)
    (hlength : b.length = f.layer.size) (hbad : ¬ f.Verified b → ¬ f.Usable blob s.part) :
    Spec (f.verify w part k more offset detail) t (f.Served blob more s)
      (f.Served blob more s) := by
  have hop {op : DiskOp} {E : Prop} (h : w.fails k op) : E := by
    rw [hsteady] at h
    cases h
  refine spec_bind (Q := fun hashed u => u = t ∧ hashed = (sha256Hex f.codec b, b.length))
    (spec_hashFile hop ⟨rfl, by rw [hb]; rfl⟩) fun hashed u hu => ?_
  obtain ⟨rfl, rfl⟩ := hu
  split_ifs with hlayer
  · exact spec_bind (Q := fun _ _ => True) (spec_moveVerifiedBlob hop hop trivial)
      fun _ _ _ => spec_pure (.inl ⟨_, rfl⟩)
  · have hcorrupt : Spec (f.discardCorrupt w part k b.length) u (f.Served blob more s)
        fun _ v => v.part = none := by
      rw [discardCorrupt, if_pos hlength.ge]
      exact spec_discardPartial hop rfl
    refine spec_bind hcorrupt fun _ v hv => spec_pure (.inr ⟨?_, hv, fun hmore => ?_⟩)
    · exact hbad fun h => hlayer (isLayer_iff.mpr h)
    · rw [mismatch]
      exact ⟨_, if_pos hmore⟩

include hserves

/-- An attempt against a registry that answers correctly. -/
theorem attempt_served (part : String) (k : ℕ) (more : Bool) (s : Files) :
    f.Served blob more s (f.attempt w part k more s).1 (f.attempt w part k more s).2 := by
  have hop {op : DiskOp} {E : Prop} (h : w.fails k op) : E := by
    rw [hsteady] at h
    cases h
  have hblob : f.Verified blob := ⟨hserves.length, hserves.digest⟩
  have hspec : Spec (f.attemptSteps w part k more) s (f.Served blob more s)
      (f.Served blob more s) := by
    refine spec_bind (spec_startOffset_steady hsteady) fun offset t hstarts => ?_
    have hasked : offset = 0 ∨ offset < f.layer.size := hstarts.imp_right fun h => h.2.1
    obtain ⟨r, hr, hfailure, hanswer⟩ := hserves.answers k offset hasked
    refine spec_bind (Q := fun r' u => u = t ∧ r' = r) ?_ fun r' u h => ?_
    · rw [request, hr]
      exact spec_pure ⟨rfl, rfl⟩
    obtain ⟨rfl, rfl⟩ := h
    -- the content that the partial has once the answer is written
    have hcontent : ∃ accepted detail,
        f.acceptResponse w part k more offset r' = pure (accepted, detail) ∧
        (((if accepted then u.part.getD [] else []) ++ r'.body).length = f.layer.size ∧
          (¬ f.Verified ((if accepted then u.part.getD [] else []) ++ r'.body) →
            ¬ f.Usable blob s.part)) := by
      rcases hanswer with ⟨hstatus, hbody⟩ | ⟨hpos, hstatus, hbody, hrange, hlength⟩
      · obtain ⟨detail, haccept⟩ : ∃ detail,
            f.acceptResponse w part k more offset r' = pure (false, detail) := by
          rw [acceptResponse, hstatus]
          rcases Nat.eq_zero_or_pos offset with rfl | hpos
          · exact ⟨_, rfl⟩
          · exact ⟨_, by simp [hpos]; rfl⟩
        refine ⟨false, detail, haccept, ?_⟩
        rw [hbody]
        exact ⟨hserves.length, fun h => absurd hblob h⟩
      · obtain ⟨-, hshort, hsame, b, hb, hblength⟩ :=
          hstarts.resolve_left hpos.ne'
        have hvalid : validateContentRange r' offset blob.length = .ok () :=
          validateContentRange_answers (hserves.length ▸ hshort)
            (hserves.length ▸ hserves.small) hrange hlength
        rw [hserves.length] at hvalid
        refine ⟨true, _, by rw [acceptResponse, hstatus, if_neg (by decide),
          if_pos ⟨hpos, rfl⟩, hvalid], ?_⟩
        rw [hsame, hb, hbody]
        refine ⟨?_, fun hbad husable => hbad ?_⟩
        · show (b ++ blob.drop offset).length = _
          rw [List.length_append, List.length_drop, hserves.length]
          omega
        · -- a beginning of the layer is completed to it
          have hprefix : b <+: blob := (husable b rfl).resolve_left (by omega)
          show f.Verified (b ++ blob.drop offset)
          rw [← hblength, List.prefix_iff_eq_append.mp hprefix]
          exact hblob
    obtain ⟨accepted, detail, haccept, hlength, hbad⟩ := hcontent
    rw [haccept]
    refine spec_bind (Q := fun a v => v = u ∧ a = (accepted, detail)) (spec_pure ⟨rfl, rfl⟩)
      fun a v h => ?_
    obtain ⟨rfl, rfl⟩ := h
    refine spec_bind (Q := fun _ x => x.part =
      some ((if accepted then v.part.getD [] else []) ++ r'.body)) ?_ fun _ x hx => ?_
    · refine spec_bind (Q := fun _ x => x = v) (spec_io hop rfl) fun _ _ hx => ?_
      rw [hx, hfailure]
      exact spec_bind (spec_onFiles rfl) fun _ _ h => spec_pure h
    · exact spec_verify_steady hsteady hx hlength hbad
  unfold attempt
  unfold Spec at hspec
  split at hspec <;> next heq => rw [heq]; exact hspec

end Serve

end Fetch

/-! ## The attempts of a call -/

namespace Fetch

variable (f : Fetch) (w : World)

/-- What an attempt that the policy allows may make of the files. -/
def Attempted (s t : Files) : Prop := ∃ k, 1 ≤ k ∧ k ≤ f.maxAttempts ∧ f.During w k s t

variable {f w} {part : String} {k : ℕ} {more : Bool} {s : Files} {blob : Bytes}

/-- The attempts keep what each of them keeps, and there are not more of them than allowed. -/
theorem fetchFrom_spec (part : String) : ∀ (left k : ℕ) (attempts : List TransferAttempt)
    (s : Files), 1 ≤ k → k + left ≤ f.maxAttempts + 1 →
    Relation.ReflTransGen (f.Attempted w) s (f.fetchFrom w part left k attempts s).2 ∧
    ∀ evidence, (f.fetchFrom w part left k attempts s).1 = .ok evidence →
      evidence.attempts.length ≤ attempts.length + left ∧
      ∃ b, (f.fetchFrom w part left k attempts s).2.dest = some b ∧ f.Verified b
  | 0, _, _, _, _, _ => ⟨.refl, fun _ h => by cases h⟩
  | left + 1, k, attempts, s, hk, hleft => by
    have hended := attempt_spec (f := f) (w := w) part k (left ≠ 0) s
    rw [fetchFrom]
    rcases hattempt : f.attempt w part k (left ≠ 0) s with ⟨outcome, t⟩
    rw [hattempt] at hended
    have hstep : f.Attempted w s t := ⟨k, hk, by omega, hended.during⟩
    cases outcome with
    | retry entry =>
      obtain ⟨hrun, hok⟩ :=
        fetchFrom_spec part left (k + 1) (attempts ++ [entry]) t (by omega) (by omega)
      refine ⟨.head hstep hrun, fun evidence h => ?_⟩
      obtain ⟨hlength, hdest⟩ := hok evidence h
      rw [List.length_append, List.length_singleton] at hlength
      exact ⟨by omega, hdest⟩
    | complete entry =>
      refine ⟨.single hstep, fun evidence h => ?_⟩
      obtain rfl := Except.ok.inj h
      refine ⟨?_, hended.complete entry rfl⟩
      rw [layerTransferEvidence, List.length_append, List.length_singleton]
      omega
    | stop entry error => exact ⟨.single hstep, fun _ h => by cases h⟩
    | abort error => exact ⟨.single hstep, fun _ h => by cases h⟩

section Respond

variable {respond : ℕ → ℕ → Result Response}

/-- An attempt reads no other answers than its own. -/
theorem attempt_congr (h : respond k = w.respond k) :
    f.attempt { w with respond := respond } part k more s = f.attempt w part k more s := by
  have hrequest : f.request { w with respond := respond } k more = f.request w k more := by
    funext offset
    unfold request
    dsimp only
    rw [h]
    rfl
  unfold attempt attemptSteps
  rw [hrequest]
  rfl

theorem fetchFrom_congr : ∀ (left k : ℕ) (attempts : List TransferAttempt) (s : Files),
    (∀ j, k ≤ j → j < k + left → respond j = w.respond j) →
    f.fetchFrom { w with respond := respond } part left k attempts s =
      f.fetchFrom w part left k attempts s
  | 0, _, _, _, _ => rfl
  | left + 1, k, attempts, s, h => by
    rw [fetchFrom, fetchFrom, attempt_congr (h k le_rfl (by omega))]
    rcases f.attempt w part k (left ≠ 0) s with ⟨outcome, t⟩
    cases outcome with
    | retry entry =>
      exact fetchFrom_congr left (k + 1) (attempts ++ [entry]) t fun j hj hlt =>
        h j (by omega) (by omega)
    | _ => rfl

end Respond

section Serve

variable (hsteady : Steady w) (hserves : f.Serves w blob)

include hsteady hserves

theorem fetchFrom_usable (left k : ℕ) (attempts : List TransferAttempt) (s : Files)
    (husable : f.Usable blob s.part) :
    ∃ evidence, (f.fetchFrom w part (left + 1) k attempts s).1 = .ok evidence := by
  have hserved := attempt_served hsteady hserves part k (left ≠ 0) s
  rw [fetchFrom]
  rcases hattempt : f.attempt w part k (left ≠ 0) s with ⟨outcome, t⟩
  rw [hattempt] at hserved
  rcases hserved with ⟨entry, rfl⟩ | ⟨hunusable, -⟩
  · exact ⟨_, rfl⟩
  · exact absurd husable hunusable

/-- The second attempt finds no partial. -/
theorem fetchFrom_two (left k : ℕ) (attempts : List TransferAttempt) (s : Files) :
    ∃ evidence, (f.fetchFrom w part (left + 2) k attempts s).1 = .ok evidence := by
  have hserved := attempt_served hsteady hserves part k (left + 1 ≠ 0) s
  rw [fetchFrom]
  rcases hattempt : f.attempt w part k (left + 1 ≠ 0) s with ⟨outcome, t⟩
  rw [hattempt] at hserved
  rcases hserved with ⟨entry, rfl⟩ | ⟨-, hnone, hretry⟩
  · exact ⟨_, rfl⟩
  · obtain ⟨entry, rfl⟩ := hretry (by simp)
    refine fetchFrom_usable hsteady hserves left (k + 1) (attempts ++ [entry]) t fun b hb => ?_
    rw [show t.part = none from hnone] at hb
    cases hb

end Serve

variable (f w)

/-- A call that succeeds leaves the layer at the destination. The files change by attempts only,
of which there are not more than allowed: each keeps or drops the partial, replaces it by a whole
answer or appends to it from an answer whose range continues it, and no answer to a later attempt
matters. A registry that answers correctly makes a call succeed that may attempt twice, or whose
partial is no obstacle. -/
theorem fetchBlobTo_spec (s : Files) :
    (∀ evidence, (f.fetchBlobTo w s).1 = .ok evidence →
      evidence.attempts.length ≤ f.maxAttempts ∧
      ∃ b, (f.fetchBlobTo w s).2.dest = some b ∧ f.Verified b) ∧
    Relation.ReflTransGen (f.Attempted w) s (f.fetchBlobTo w s).2 ∧
    (∀ respond, (∀ k, 1 ≤ k → k ≤ f.maxAttempts → respond k = w.respond k) →
      f.fetchBlobTo { w with respond := respond } s = f.fetchBlobTo w s) ∧
    (∀ blob, f.Serves w blob → Steady w → f.storeRoot.toOption.isSome →
      w.prepared.toOption.isSome → (2 ≤ f.policy.maxAttempts ∨ f.Usable blob s.part) →
      ∃ evidence, (f.fetchBlobTo w s).1 = .ok evidence) := by
  have hmax : 1 ≤ f.maxAttempts := le_max_right _ _
  cases hroot : f.storeRoot with
  | error error =>
    have hfails (w : World) : f.fetchBlobTo w s = (.error error, s) := by rw [fetchBlobTo, hroot]
    rw [hfails]
    exact ⟨fun _ h => (by cases h), .refl, fun _ _ => hfails _, fun _ _ _ h => (by cases h)⟩
  | ok storeRoot =>
    have hcases : (∃ error, w.prepared = .error error) ∨ ∃ removed, w.prepared = .ok removed := by
      cases w.prepared with
      | error error => exact .inl ⟨error, rfl⟩
      | ok removed => exact .inr ⟨removed, rfl⟩
    rcases hcases with ⟨error, hprepared⟩ | ⟨removed, hprepared⟩
    · have hfails (w : World) (h : w.prepared = .error error) :
          f.fetchBlobTo w s = (.error error, s) := by
        rw [fetchBlobTo, hroot]
        dsimp only
        rw [h]
      rw [hfails w hprepared]
      exact ⟨fun _ h => (by cases h), .refl, fun _ _ => hfails _ hprepared,
        fun _ _ _ _ h => by rw [hprepared] at h; cases h⟩
    · have hrun (w : World) (h : w.prepared = .ok removed) : f.fetchBlobTo w s =
          f.fetchFrom w (f.partPath storeRoot) f.maxAttempts 1 []
            (if removed then { s with part := none } else s) := by
        rw [fetchBlobTo, hroot]
        dsimp only
        rw [h]
      rw [hrun w hprepared]
      -- the removal of an old partial is what an attempt may do, too
      have hfirst : f.Attempted w s (if removed then { s with part := none } else s) := by
        refine ⟨1, le_rfl, hmax, ?_⟩
        split_ifs
        · exact ⟨fun _ hb => (by cases hb), .inl rfl⟩
        · exact ⟨fun _ hb => .kept hb, .inl rfl⟩
      have husable {blob : Bytes} (h : f.Usable blob s.part) :
          f.Usable blob (if removed then { s with part := none } else s).part := by
        split_ifs
        · exact fun _ hb => (by cases hb)
        · exact h
      obtain ⟨hsteps, hok⟩ := fetchFrom_spec (f := f) (w := w) (f.partPath storeRoot)
        f.maxAttempts 1 [] (if removed then { s with part := none } else s) le_rfl (by omega)
      refine ⟨fun evidence h => ?_, .head hfirst hsteps, fun respond h => ?_, ?_⟩
      · obtain ⟨hlength, hdest⟩ := hok evidence h
        rw [List.length_nil, Nat.zero_add] at hlength
        exact ⟨hlength, hdest⟩
      · rw [hrun { w with respond := respond } hprepared]
        exact fetchFrom_congr f.maxAttempts 1 [] _ fun j hj hlt => h j hj (by omega)
      · rintro blob hserves hsteady - - (htwice | hpart)
        · obtain ⟨left, hleft⟩ : ∃ left, f.maxAttempts = left + 2 :=
            Nat.exists_eq_add_of_le' (le_max_of_le_left htwice)
          rw [hleft]
          exact fetchFrom_two hsteady hserves left 1 [] _
        · obtain ⟨left, hleft⟩ := Nat.exists_eq_add_of_le' hmax
          rw [hleft]
          exact fetchFrom_usable hsteady hserves left 1 [] _ (husable hpart)

end Fetch

/-! ## Interrupted downloads -/

namespace Fetch

variable {f : Fetch} {w : World} {s t : Files} {blob : Bytes}

/-- Whatever reaches the partial from a registry is true as far as it goes: a whole answer begins
the layer, and one with a range begins the rest of it. Requests may fail and answers may stop. -/
structure Truthful (w : World) (blob : Bytes) : Prop where
  whole : ∀ k offset r, w.respond k offset = .ok r → r.status = 200 → r.body <+: blob
  rest : ∀ k offset r, w.respond k offset = .ok r → r.status = 206 → r.body <+: blob.drop offset

/-- The files after any number of calls, each with its own faults and answers. -/
inductive Interrupted (f : Fetch) (blob : Bytes) : Files → Prop
  | start : Interrupted f blob ⟨none, none⟩
  | call {w : World} {s : Files} (hs : Interrupted f blob s) (hw : Truthful w blob) :
      Interrupted f blob (f.fetchBlobTo w s).2

/-- The partial is a beginning of the layer. -/
def Begins (blob : Bytes) (s : Files) : Prop := ∀ b, s.part = some b → b <+: blob

theorem Begins.during {k : ℕ} (h : Begins blob s) (hw : Truthful w blob)
    (hst : f.During w k s t) : Begins blob t := by
  intro b hb
  cases hst.part b hb with
  | kept hold => exact h b hold
  | replaced hr hstatus => exact hw.whole k _ _ hr hstatus
  | @continued old r value last hold hr hstatus _ _ =>
    obtain ⟨rest, rfl⟩ := h old hold
    have hbody := hw.rest k old.length r hr hstatus
    rw [List.drop_left] at hbody
    exact (List.prefix_append_right_inj old).mpr hbody

theorem Begins.steps (hw : Truthful w blob) (h : Begins blob s)
    (hst : Relation.ReflTransGen (f.Attempted w) s t) : Begins blob t := by
  induction hst with
  | refl => exact h
  | tail _ hstep ih =>
    obtain ⟨k, -, -, hduring⟩ := hstep
    exact ih.during hw hduring

/-- A call is its attempts, or fails before the first of them. -/
theorem fetchBlobTo_cases (f : Fetch) (w : World) (s : Files) :
    (∃ error, f.fetchBlobTo w s = (.error error, s) ∧
      ¬ (f.storeRoot.toOption.isSome ∧ w.prepared.toOption.isSome)) ∨
    ∃ (storeRoot : String) (removed : Bool), f.fetchBlobTo w s =
      f.fetchFrom w (f.partPath storeRoot) f.maxAttempts 1 []
        (if removed then { s with part := none } else s) := by
  unfold fetchBlobTo
  cases f.storeRoot with
  | error error => exact .inl ⟨error, rfl, fun h => (by cases h.1)⟩
  | ok storeRoot =>
    cases w.prepared with
    | error error => exact .inl ⟨error, rfl, fun h => (by cases h.2)⟩
    | ok removed => exact .inr ⟨storeRoot, removed, rfl⟩

theorem Begins.removed (h : Begins blob s) (removed : Bool) :
    Begins blob (if removed then { s with part := none } else s) := by
  split_ifs
  · exact fun _ hb => by cases hb
  · exact h

/-- A call, however it ends, leaves the beginning of the layer in the partial. -/
theorem Begins.call (h : Begins blob s) (hw : Truthful w blob) :
    Begins blob (f.fetchBlobTo w s).2 := by
  rcases fetchBlobTo_cases f w s with ⟨error, hcall, -⟩ | ⟨storeRoot, removed, hcall⟩
  · rw [hcall]
    exact h
  · rw [hcall]
    have hsteps := fetchFrom_spec (f := f) (w := w) (f.partPath storeRoot) f.maxAttempts 1 []
      (if removed then { s with part := none } else s) le_rfl (by omega)
    exact (h.removed removed).steps hw hsteps.1

/-- However often a download was interrupted, its partial is a beginning of the layer, so that
a call with a single attempt completes it once the registry answers correctly. -/
theorem fetchBlobTo_resumes (h : Interrupted f blob s) : Begins blob s ∧
    ∀ w, f.Serves w blob → Steady w → f.storeRoot.toOption.isSome → w.prepared.toOption.isSome →
      ∃ evidence, (f.fetchBlobTo w s).1 = .ok evidence := by
  have hbegins : Begins blob s := by
    induction h with
    | start => exact fun _ hb => by cases hb
    | call _ hw ih => exact ih.call hw
  refine ⟨hbegins, fun w hserves hsteady hroot hprepared => ?_⟩
  rcases fetchBlobTo_cases f w s with ⟨-, -, hfails⟩ | ⟨storeRoot, removed, hcall⟩
  · exact absurd ⟨hroot, hprepared⟩ hfails
  · have hmax : 1 ≤ f.maxAttempts := le_max_right _ _
    obtain ⟨left, hleft⟩ := Nat.exists_eq_add_of_le' hmax
    rw [hcall, hleft]
    exact fetchFrom_usable hsteady hserves left 1 [] _ fun b hb => .inr (hbegins.removed removed b hb)

end Fetch

namespace Sample

/-- A hash function under which every content is its own digest. -/
def codec : Codec where
  sha256 := id
  parse _ := none

def blob : Bytes := [1, 2]

def fetch (maxAttempts : ℕ) : Fetch where
  codec := codec
  os := .linux
  policy := ⟨maxAttempts, 250, 30000, none, some 30000⟩
  reference := ⟨"registry.test", "tools", none, none⟩
  layer := ⟨MEDIA_TYPE_ARCHIVE, sha256Hex codec blob, 2, none⟩
  dest := "/store/scratch/archive"
  seconds := toString

/-- A registry that honours ranges. -/
def registry : World where
  prepared := .ok false
  respond _ offset := .ok (if offset = 0 then ⟨200, "", none, none, blob, none⟩
    else ⟨206, "", some (Fetch.rangeText offset (blob.length - 1) blob.length), none,
      blob.drop offset, none⟩)
  fails _ _ := false
  elapsed _ := 0
  idleAge _ := 0

theorem serves (maxAttempts : ℕ) : (fetch maxAttempts).Serves registry blob where
  length := rfl
  digest := rfl
  small := show 2 < 2 ^ 64 by decide
  answers k offset _ := by
    refine ⟨_, rfl, ?_⟩
    by_cases hzero : offset = 0
    · rw [if_pos hzero]
      exact ⟨rfl, .inl ⟨rfl, rfl⟩⟩
    · rw [if_neg hzero]
      exact ⟨rfl, .inr ⟨Nat.pos_of_ne_zero hzero, rfl, rfl, rfl, .inl rfl⟩⟩

/-- A partial of other bytes is discarded by the first of two attempts. -/
theorem fetchBlobTo_spec_sample :
    ∃ evidence, ((fetch 2).fetchBlobTo registry ⟨some [0], none⟩).1 = .ok evidence :=
  ((fetch 2).fetchBlobTo_spec registry ⟨some [0], none⟩).2.2.2 blob (serves 2) (fun _ _ => rfl)
    (by decide) rfl (.inl le_rfl)

/-- A single attempt fails on it. -/
theorem single_attempt_fails :
    ¬ ∀ (f : Fetch) (w : World) (s : Files) (blob : Bytes), f.Serves w blob → Fetch.Steady w →
      f.storeRoot.toOption.isSome → w.prepared.toOption.isSome →
      ∃ evidence, (f.fetchBlobTo w s).1 = .ok evidence := by
  intro h
  obtain ⟨evidence, hok⟩ := h (fetch 1) registry ⟨some [0], none⟩ blob (serves 1)
    (fun _ _ => rfl) (by decide) rfl
  have hfails : ((fetch 1).fetchBlobTo registry ⟨some [0], none⟩).1.toOption.isSome = false := by
    decide
  rw [hok] at hfails
  cases hfails

/-- A registry that stops after the first byte. -/
def cutting : World where
  prepared := .ok false
  respond _ offset := if offset = 0 then .ok ⟨200, "", none, none, [1], some (1, "reset")⟩
    else .error (.usage "")
  fails _ _ := false
  elapsed _ := 0
  idleAge _ := 0

theorem truthful_cutting : Fetch.Truthful cutting blob where
  whole k offset r hr _ := by
    simp only [cutting] at hr
    split_ifs at hr
    cases hr
    exact ⟨[2], rfl⟩
  rest k offset r hr hstatus := by
    simp only [cutting] at hr
    split_ifs at hr
    cases hr
    cases hstatus

theorem fetchBlobTo_resumes_sample :
    Fetch.Begins blob ((fetch 1).fetchBlobTo cutting ⟨none, none⟩).2 ∧
      ∃ evidence, ((fetch 1).fetchBlobTo registry
        ((fetch 1).fetchBlobTo cutting ⟨none, none⟩).2).1 = .ok evidence := by
  obtain ⟨hbegins, hcall⟩ := Fetch.fetchBlobTo_resumes (.call .start truthful_cutting)
  exact ⟨hbegins, hcall registry (serves 1) (fun _ _ => rfl) (by decide) rfl⟩

end Sample

end OpenStrata.Download
