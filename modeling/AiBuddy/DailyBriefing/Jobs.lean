import AiBuddy.Conversation.ChunkOperations

/-!
# Daily briefings (`services/daily_briefing/store.py`)

The briefing of one user and one day, with the fields that the store reads or that are its
content, and the operations that reserve, claim and finish it. Times are numbers of milliseconds.
The fields of the period and the stamps that nobody reads here are left out.
-/

namespace AiBuddy.DailyBriefing

open Program Queue.MongoFence Conversation.Session

inductive BriefingStatus where
  | pending
  | processing
  | ready
  | failed
  | skipped
  deriving DecidableEq

/-- `DailyBriefingSynthesis`, as one value: the store copies it. -/
structure Synthesis where
  text : String
  deriving DecidableEq

/-- `SourceStats`, as far as the handler sets it. -/
structure SourceStats where
  pendingTranscriptCount : Nat := 0
  transcriptCount : Nat := 0
  deriving DecidableEq

structure Briefing where
  status : BriefingStatus
  claimedBy : Option String := none
  claimedAt : Option Int := none
  synthesis : Option Synthesis := none
  sourceStats : Option SourceStats := none
  skipReason : Option String := none
  error : Option String := none
  processingFence : Option Int := none
  deriving DecidableEq

def claimStale : Int := 15 * 60 * 1000

inductive Write where
  | reserve
  | claim (jobId : String) (now : Int)
  | skip (reason : String) (stats : SourceStats)
  | fail (error : String)
  | ready (synthesis : Synthesis) (stats : SourceStats)
  deriving DecidableEq

namespace Write

def accepts (write : Write) (briefing : Briefing) : Bool :=
  match write with
  | reserve => briefing.status = .failed
  | claim jobId now =>
    briefing.status ∈ [.pending, .failed, .skipped] ||
      (briefing.status = .processing && briefing.claimedAt.any (· ≤ now - claimStale)) ||
      (briefing.status = .processing && briefing.claimedBy = some jobId)
  | skip .. | fail .. | ready .. => true

def change (write : Write) (briefing : Briefing) : Briefing :=
  match write with
  | reserve => { briefing with status := .pending, error := none }
  | claim jobId now =>
    { briefing with
      status := .processing, claimedBy := some jobId, claimedAt := some now, error := none }
  | skip reason stats =>
    { briefing with status := .skipped, skipReason := some reason, sourceStats := some stats }
  | fail error =>
    { briefing with status := .failed, error := some (String.ofList (error.toList.take 500)) }
  | ready synthesis stats =>
    { briefing with
      status := .ready
      claimedBy := none
      claimedAt := none
      synthesis := some synthesis
      sourceStats := some stats
      skipReason := none
      error := none }

def seed (write : Write) : Briefing := write.change { status := .pending }

def written (write : Write) (token : Option Int) (briefing : Briefing) : Briefing :=
  { write.change briefing with processingFence := fenceAfter token briefing.processingFence }

end Write

/-- What the collection is asked. An update answers with the document after it. -/
inductive Command : Type → Type where
  | find : Command (Option Briefing)
  | insert (write : Write) : Command Unit
  | update (write : Write) (token : Option Int) : Command (Option Briefing)
  | upsert (write : Write) (token : Option Int) : Command Unit

def Command.result {α : Type} (command : Command α) (briefing : Option Briefing) :
    Option Briefing :=
  match command, briefing with
  | .find, _ => none
  | .insert write, none => some write.seed
  | .insert _, some _ => none
  | .update write token, some briefing =>
    if write.accepts briefing && fenceAllows token briefing.processingFence then
      some (write.written token briefing)
    else none
  | .update _ _, none => none
  | .upsert write token, briefing => some
    (write.written token (briefing.getD { status := .pending }))

def Command.reply {α : Type} (command : Command α) (briefing : Option Briefing) :
    Except Mongo.Error α :=
  match command with
  | .find => .ok briefing
  | .insert _ => if briefing.isSome then .error .duplicateKey else .ok ()
  | .update write token => .ok ((Command.update write token).result briefing)
  | .upsert _ _ => .ok ()

inductive StoreCommand : Type → Type 1 where
  | mongo {α : Type} (command : Command α) : StoreCommand (Except Mongo.Error α)
  | utcNow : StoreCommand Int

inductive BriefingError where
  | write (error : WriteError)
  | pendingTranscript
  | leavePending
  | nonRetryable (message : String)
  | other (message : String)
  deriving DecidableEq

abbrev Storing (α : Type) := Raising StoreCommand BriefingError α

def asked {α : Type} (command : Command α) : Storing α :=
  ExceptT.mk (issue (.mongo command) >>= fun reply => .ret (reply.mapError (.write ∘ .mongo)))

def utcNow : Storing Int := ExceptT.mk (issue .utcNow >>= fun now => .ret (.ok now))

def reserve : Storing Bool := do
  match ← asked .find with
  | none =>
    match ← attempt (asked (.insert .reserve)) with
    | .ok () => return true
    | .error error =>
      if error = .write (.mongo .duplicateKey) then return false else throw error
  | some existing =>
    if existing.status ∈ [.ready, .processing, .skipped, .pending] then return false
    else
      let updated ← asked (.update .reserve none)
      return updated.isSome

/-- What `claim` answers, beside the document. -/
inductive ClaimState where
  | found
  | busy
  | claimed
  deriving DecidableEq

/-- The claim is not stale, and it is another job's: `store.py:145`. -/
def Briefing.heldFrom (jobId : String) (now : Int) (briefing : Briefing) : Bool :=
  briefing.status = .processing && briefing.claimedAt.any (now - claimStale < ·) &&
    briefing.claimedBy ≠ some jobId

def claimUpdate (jobId : String) (now : Int) : Storing ClaimState := do
  match ← asked (.update (.claim jobId now) none) with
  | none =>
    let _ ← asked .find
    return .busy
  | some _ => return .claimed

def claim (jobId : String) : Storing ClaimState := do
  let existing ← asked .find
  if existing.any fun briefing => briefing.status = .ready then return .found
  else
    let now ← utcNow
    if existing.any (Briefing.heldFrom jobId now) then return .busy
    else if existing.isSome then claimUpdate jobId now
    else
      match ← attempt (asked (.insert (.claim jobId now))) with
      | .ok () => return .claimed
      | .error error =>
        if error = .write (.mongo .duplicateKey) then
          let existing ← asked .find
          if existing.any fun briefing => briefing.status = .ready then return .found
          else claimUpdate jobId now
        else throw error

def markSkipped (reason : String) (stats : SourceStats) : Storing Unit := do
  let _ ← asked (.update (.skip reason stats) none)

/-- `mongo_fence.py:89`. -/
def rejectIfNewer (holding : Holding) (token : Int) : Storing Unit := do
  let existing ← asked .find
  if existing.isSome && (existing.bind Briefing.processingFence).getD 0 > token then
    throw (.write (.staleOwnership ((holding.object.map (·.lease.logicalKey)).getD "job")
      "stale_fence"))

/-- `fenced_update_one(...)`, `mongo_fence.py:100`, on the briefing. -/
def fencedWrite (holding : Holding) (write : Write) (upsert : Bool) : Storing Unit :=
  match leaseFenceToken holding.object with
  | .error error => throw (.write error)
  | .ok none =>
    if upsert then asked (.upsert write none)
    else do
      let _ ← asked (.update write none)
  | .ok (some token) => do
    match ← asked (.update write (some token)) with
    | some _ => return ()
    | none =>
      rejectIfNewer holding token
      if upsert then
        match ← attempt (asked (.upsert write (some token))) with
        | .ok () => return ()
        | .error error =>
          if error = .write (.mongo .duplicateKey) then rejectIfNewer holding token
          throw error

def requireActiveLease (holding : Holding) : Storing Unit :=
  ExceptT.mk (.ret (holding.guard.mapError .write))

def markFailed (holding : Holding) (error : String) : Storing Unit := do
  requireActiveLease holding
  fencedWrite holding (.fail error) false

def saveReady (holding : Holding) (synthesis : Synthesis) (stats : SourceStats) : Storing Unit := do
  requireActiveLease holding
  fencedWrite holding (.ready synthesis stats) true

end AiBuddy.DailyBriefing

/-!
## Jobs of daily briefings (`services/daily_briefing/jobs.py`)

`DailyBriefingJobHandler.handle`, and its runs: any number of jobs and reservations on one user
and day, interleaved command by command. What the sources and the pipeline give is arbitrary.
-/

namespace AiBuddy.DailyBriefing

open Program Queue.MongoFence Conversation.Session

/-- `ActivityBundle`, by the lengths of its lists. Of transcripts and chats those count that
`filter_and_order_transcripts` keeps. -/
structure ActivityBundle where
  transcripts : Nat := 0
  tasks : Nat := 0
  notes : Nat := 0
  events : Nat := 0
  reminders : Nat := 0
  chats : Nat := 0
  planEvents : Nat := 0
  planReminders : Nat := 0
  pendingTranscriptCount : Nat := 0
  deriving DecidableEq

structure Settings where
  dailyBriefingMaxRetries : Nat := 2
  /-- `self.pipeline_version != PIPELINE_VERSION`. -/
  newPipeline : Bool := true
  deriving DecidableEq

/-- One call of `handle`: its event, what it comes upon and the lease as the two fenced writes
find it. -/
structure JobCall where
  eventId : String
  userId : String := "user"
  dateKey : String := "2026-01-01"
  timezone : String := "UTC"
  attempt : Nat := 0
  bounds : Except BriefingError Unit := .ok ()
  bundle : Except BriefingError ActivityBundle := .ok { transcripts := 1 }
  generated : Except BriefingError (Synthesis × SourceStats) := .ok (⟨""⟩, { })
  failing : Holding := { }
  saving : Holding := { }

def ActivityBundle.hasActivity (settings : Settings) (bundle : ActivityBundle) : Bool :=
  0 < bundle.transcripts || 0 < bundle.tasks || 0 < bundle.notes || 0 < bundle.events ||
    0 < bundle.reminders ||
    (settings.newPipeline &&
      (0 < bundle.chats || 0 < bundle.planEvents || 0 < bundle.planReminders))

/-- What `handle` does under its claim, `jobs.py:83-152`. -/
def generateBriefing (settings : Settings) (job : JobCall) : Storing Unit := do
  let bundle ← ExceptT.mk (.ret job.bundle)
  if bundle.pendingTranscriptCount > 0 ∧ job.attempt < settings.dailyBriefingMaxRetries then
    throw .pendingTranscript
  else if bundle.hasActivity settings = false then
    markSkipped "no_activity" { pendingTranscriptCount := bundle.pendingTranscriptCount }
  else
    let (synthesis, stats) ← ExceptT.mk (.ret job.generated)
    saveReady job.saving synthesis stats

/-- `isinstance(error, (StaleOwnershipError, LeavePending))`. -/
def BriefingError.leavesPending : BriefingError → Bool
  | .write (.staleOwnership ..) => true
  | .leavePending => true
  | _ => false

def BriefingError.text : BriefingError → String
  | .write (.staleOwnership logicalKey reason) => logicalKey ++ ": " ++ reason
  | .write (.mongo _) => "mongo"
  | .pendingTranscript => "pending_transcripts"
  | .leavePending => "active_owner"
  | .nonRetryable message => message
  | .other message => message

/-- The handler of the exceptions, `jobs.py:160-196`. -/
def afterGeneration (job : JobCall) : Except BriefingError Unit → Storing Unit
  | .ok () => return ()
  | .error error => do
    if error ≠ .pendingTranscript ∧ error.leavesPending = false then
      markFailed job.failing error.text
    throw error

def handle (settings : Settings) (job : JobCall) : Storing Unit := do
  if job.userId = "" ∨ job.dateKey = "" ∨ job.timezone = "" then
    throw (.nonRetryable "daily briefing event is missing userId/dateKey/timezone")
  else
    ExceptT.mk (.ret job.bounds)
    match ← claim job.eventId with
    | .found => return ()
    | .busy => throw .leavePending
    | .claimed =>
      let outcome ← attempt (generateBriefing settings job)
      afterGeneration job outcome

structure StoredClaim where
  number : Nat
  jobId : String
  claimedAt : Int
  deriving DecidableEq

structure State where
  briefing : Option Briefing := none
  clock : Int := 0
  /-- The number of calls of `handle`. -/
  calls : Nat := 0
  latest : Option StoredClaim := none
  /-- The claims whose call has stored no outcome since. A later claim of the same job takes the
  place of an earlier one. -/
  held : List StoredClaim := []
  /-- The call that has stored the READY of the document, and its token. -/
  saved : Option (Nat × Option Int) := none
  /-- A call whose claim was taken over has changed the READY of the one that took it over. -/
  undone : Bool := false
  writes : List Write := []

abbrev Issuer := Option Nat

namespace State

def owns (issuer : Issuer) (s : State) : Bool :=
  s.latest.any fun claim => issuer = some claim.number

def savedByLatest (s : State) : Bool :=
  s.latest.any fun claim => s.saved.any fun saver => saver.1 = claim.number

def entered (issuer : Issuer) (write : Write) (token : Option Int) (s : State) : State :=
  match write with
  | .reserve => { s with saved := none }
  | .claim jobId now =>
    let claim : StoredClaim := ⟨issuer.getD 0, jobId, now⟩
    { s with
      latest := some claim
      held := claim :: s.held.filter fun other => other.jobId ≠ jobId
      saved := none }
  | .skip .. | .fail .. =>
    { s with held := s.held.filter (fun claim => issuer ≠ some claim.number), saved := none }
  | .ready .. =>
    { s with
      held := s.held.filter (fun claim => issuer ≠ some claim.number)
      saved := issuer.map fun number => (number, token) }

def wrote (issuer : Issuer) (write : Write) (token : Option Int) (briefing : Briefing) (s : State) :
    State :=
  { s.entered issuer write token with
    briefing := some briefing
    writes := write :: s.writes
    undone := s.undone || (s.savedByLatest && !s.owns issuer &&
      s.briefing.any fun before =>
        before.status ≠ briefing.status || before.synthesis ≠ briefing.synthesis ||
          before.sourceStats ≠ briefing.sourceStats) }

end State

def Command.write? {α : Type} : Command α → Option (Write × Option Int)
  | .find => none
  | .insert write => some (write, none)
  | .update write token | .upsert write token => some (write, token)

def State.perform {α : Type} (issuer : Issuer) (command : Command α) (s : State) : State :=
  match command.write?, command.result s.briefing with
  | some (write, token), some briefing => s.wrote issuer write token briefing
  | _, _ => s

inductive RunCommand : Type → Type 1 where
  /-- A call of `handle` begins; its number. -/
  | begin : RunCommand Nat
  | store (issuer : Issuer) {β : Type} (command : StoreCommand β) : RunCommand β

def toRun (issuer : Issuer) {β : Type} (command : StoreCommand β) : RunCommand β :=
  .store issuer command

abbrev StoreCondition := ∀ {α : Type}, Issuer → Command α → State → Prop

def stores (allowed : StoreCondition) (issuer : Issuer) : Semantics StoreCommand State :=
  fun command s reply s' =>
    match command, reply with
    | .mongo command, reply =>
      allowed issuer command s ∧
        Answers .connection (fun s => (command.reply s.briefing, s.perform issuer command)) s reply
          s'
    | .utcNow, reply => reply = s.clock ∧ s' = s

def runs (allowed : StoreCondition) : Semantics RunCommand State := fun command s reply s' =>
  match command, reply with
  | .begin, reply => reply = s.calls + 1 ∧ s' = { s with calls := s.calls + 1 }
  | .store issuer command, reply => stores allowed issuer command s reply s'

def handleCall (settings : Settings) (job : JobCall) : Program RunCommand Unit :=
  issue .begin >>= fun number =>
    hoist (toRun (some number)) (handle settings job).run >>= fun _ => .ret ()

def reserveCall : Program RunCommand Unit := hoist (toRun none) reserve.run >>= fun _ => .ret ()

def BriefingThreads (settings : Settings) (_ : State) (prog : Program RunCommand Unit) : Prop :=
  (∃ job, prog = handleCall settings job) ∨ prog = reserveCall

def Later (s s' : State) : Prop := ∃ clock, s.clock ≤ clock ∧ s' = { s with clock := clock }

abbrev BriefingPool := Pool RunCommand Unit State

abbrev BriefingRun (settings : Settings) (allowed : StoreCondition) (start : State) :
    BriefingPool → Prop :=
  Pool.Run (runs allowed) (BriefingThreads settings) Later start

structure Unclaimed (s : State) : Prop where
  briefing : s.briefing = none
  latest : s.latest = none
  held : s.held = []
  saved : s.saved = none
  undone : s.undone = false

def StoredClaim.fresh (clock : Int) (claim : StoredClaim) : Bool := clock - claimStale <
    claim.claimedAt

def State.AtMostOne (s : State) : Prop :=
  ∀ claim ∈ s.held, ∀ other ∈ s.held, claim.fresh s.clock = true → other.fresh s.clock = true →
    claim.jobId = other.jobId

def State.olderThanSaved (token : Option Int) (s : State) : Bool :=
  match token, s.saved with
  | some token, some (_, some saved) => token < saved
  | _, _ => false

/-- A write of a call whose claim is not the latest one: an outcome finds neither a claim nor a
READY that it can take away. -/
def sparesWrite (issuer : Issuer) (write : Write) (token : Option Int) (s : State) : Bool :=
  s.owns issuer ||
    s.briefing.all fun briefing =>
      match write with
      | .skip .. => briefing.status ≠ .processing && briefing.status ≠ .ready
      | .fail .. =>
        (briefing.status ≠ .processing || !fenceAllows token briefing.processingFence) &&
          (briefing.status ≠ .ready || s.olderThanSaved token)
      | .ready .. => briefing.status ≠ .ready || s.olderThanSaved token
      | _ => true

def sparesOthers (issuer : Issuer) {α : Type} (command : Command α) (s : State) : Bool :=
  match command.write? with
  | some (write, token) => sparesWrite issuer write token s
  | none => true

end AiBuddy.DailyBriefing
