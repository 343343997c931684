import AiBuddy.Misc.History
import AiBuddy.Misc.Program
import AiBuddy.Misc.Text

/-!
# Speech jobs (`apps/api_gateway/workers/speech_worker.py`, `vector_worker.py`)

One speech job in the stream transport: the attempts at its speech message, each under the lease of
that message, and any number of vector workers beside them. Their state is the hash `speech_job:` of
the job, the key `speech_vector_done:` and what has been done so far.
-/

namespace AiBuddy.Speech

open Program

abbrev Fields := String → Option String

structure Result where
  transcript : String := ""
  languageCode : Option String := none
  requestId : Option String := none
  provider : Option String := none
  deriving DecidableEq

/-- The hash `speech_job:`, with the fields that the workers write. -/
structure Hash where
  fields : Fields
  status : Option String := none
  error : Option String := none
  result : Option Result := none
  vectorStatus : Option String := none
  vectorAttempts : Option Nat := none

/-- What `HSET` adds fields to where there is no hash. -/
def Hash.empty : Hash where
  fields _ := none

inductive Failure where
  | value (message : String)
  | runtime (message : String)
  | permanentStorage (message : String)
  | temporaryStorage (message : String)
  | cutoverLocked
  | leavePending
  | nonRetryable (message : String)
  | other (message : String)
  deriving DecidableEq

def Failure.text : Failure → String
  | value message | runtime message | permanentStorage message | temporaryStorage message
  | nonRetryable message | other message => message
  | cutoverLocked => "speech and vector publishing is paused for rollback"
  | leavePending => "active_owner"

/-- What the workers are configured with, and what they compute of a job with other code. -/
structure Host where
  useS3Storage : Bool
  /-- `settings.S3_DELETE_AFTER_PROCESSING`. -/
  deleteAfterProcessing : Bool
  tempAudioPath : Fields → Except Failure String
  /-- `int` of a text. -/
  int? : String → Option Int

def given (value : Option String) : Option String := value.filter (· ≠ "")

/-- The names that `_normalize_speech_job` accepts for a field. -/
def aliases : List (String × List String) :=
  [("job_id", ["jobId"]), ("user_id", ["userId"]), ("space_id", ["spaceId"]),
    ("request_id", ["requestId"]), ("file_path", ["filePath"]),
    ("content_type", ["contentType"]), ("storage_provider", ["storageProvider"]),
    ("s3_bucket", ["s3Bucket"]),
    ("s3_object_key", ["s3ObjectKey", "s3_key", "s3Key", "object_key", "objectKey"])]

/-- The fields that are stripped, `speech_worker.py:222`. -/
def strippedFields : List String :=
  ["job_id", "user_id", "space_id", "request_id", "file_path", "content_type",
    "storage_provider", "s3_bucket", "s3_object_key", "filename"]

/-- One turn of the loop over the aliases, `speech_worker.py:212`. -/
def aliased (fields : Fields) (names : String × List String) : Fields :=
  match given (fields names.1) with
  | some _ => fields
  | none =>
    match names.2.findSome? fun name => given (fields name) with
    | some value => Function.update fields names.1 (some value)
    | none => fields

@[irreducible] def normalizeSpeechJob (fields : Fields) : Except Failure Fields :=
  let normalized := aliases.foldl aliased fields
  if Text.strip ((normalized "job_id").getD "") = "" then
    .error (.value "Speech job payload is missing job_id")
  else
    .ok fun name =>
      if name ∈ strippedFields then (normalized name).map Text.strip else normalized name

/-- `{**_normalize_speech_job(existing_job), **job}`, `speech_worker.py:43`. -/
def recoverJob (existing : Hash) (job : Fields) : Except Failure Fields := do
  let known := existing.fields
  let existingJob := if (known "job_id").isSome then known
    else Function.update known "job_id" (job "job_id")
  let normalized ← normalizeSpeechJob existingJob
  return fun name => (job name).or (normalized name)

@[irreducible] def jobUsesS3 (host : Host) (job : Fields) : Bool :=
  let provider := Text.lower (Text.strip ((job "storage_provider").getD ""))
  let hasReference := (given (job "s3_bucket")).isSome || (given (job "s3_object_key")).isSome
  provider = "s3" || hasReference || host.useS3Storage && (given (job "file_path")).isNone

def missingField (job : Fields) (names : List String) : Option String :=
  names.find? fun name => Text.strip ((job name).getD "") = ""

@[irreducible] def validateLocalJob (job : Fields) : Except Failure Unit :=
  match missingField job ["file_path", "filename", "content_type"] with
  | some name => .error (.value ("Speech local job is missing " ++ name))
  | none => .ok ()

@[irreducible] def validateS3Job (job : Fields) : Except Failure Unit :=
  if Text.lower ((given (job "storage_provider")).getD "s3") ≠ "s3" then
    .error (.value "Unsupported storage_provider for speech job")
  else
    match missingField job ["s3_bucket", "s3_object_key", "filename"] with
    | some name => .error (.value ("Speech S3 job is missing " ++ name))
    | none => .ok ()

/-- What `vector_job_event` reads of the hash. -/
structure VectorEvent where
  userId : String
  spaceId : String
  conversationId : String
  deriving DecidableEq

def vectorJobEvent (jobId : String) (source : Option Hash) : VectorEvent :=
  let read (name other : String) : Option String :=
    source.bind fun hash => (given (hash.fields name)).or (given (hash.fields other))
  { userId := (read "user_id" "userId").getD "unknown"
    spaceId := (read "space_id" "spaceId").getD ""
    conversationId := (read "conversation_id" "conversationId").getD jobId }

/-- What an `HSET` of the workers writes. -/
inductive Mapping where
  | processing
  | failed (error : String)
  | completed (result : Result)
  | vectorStored
  | vectorAttempts (attempts : Nat)
  deriving DecidableEq

def Mapping.apply (hash : Hash) : Mapping → Hash
  | processing => { hash with status := some "processing" }
  | failed error => { hash with status := some "failed", error := some error }
  | completed result => { hash with status := some "completed", result := some result }
  | vectorStored => { hash with vectorStatus := some "stored" }
  | vectorAttempts attempts => { hash with vectorAttempts := some attempts }

/-- Which `get_job_result` it is: that of `process_speech_job` and `process_completed_speech_job`,
or that of `publish_completed_speech_job`. -/
inductive Reader where
  | job
  | event
  deriving DecidableEq

/-- The transcript chunk that `complete_transcript_chunk` completes. -/
structure TranscriptChunk where
  conversationId : String
  sequenceNumber : Int
  rawText : String
  languageCode : Option String
  requestId : Option String
  provider : String
  deriving DecidableEq

/-- What `store_transcript_in_vector_db` is given. -/
structure Transcript where
  userId : String
  spaceId : String
  text : String
  languageCode : Option String
  requestId : Option String
  deriving DecidableEq

/-- The `$set` of a record in `vector_index_failures`. -/
structure FailureRecord where
  userId : String
  spaceId : String
  conversationId : Option String
  transcript : String
  error : String
  deriving DecidableEq

inductive Access : Type → Type where
  | hgetall (reader : Reader) : Access (Option Hash)
  | hset (mapping : Mapping) : Access Unit
  | expire : Access Unit
  | delete : Access Unit
  /-- `GET speech_vector_done:`. -/
  | getSettled : Access Bool
  | setSettled : Access Unit
  | publishVector (event : VectorEvent) : Access Unit
  | cleanupJobDir (path : String) : Access Unit
  | downloadFile (bucket objectKey destination : String) : Access String
  | deleteFile (bucket objectKey : String) : Access Unit
  | transcribe (filePath filename contentType : String) : Access Result
  | completeTranscriptChunk (chunk : TranscriptChunk) : Access Unit
  /-- `expectedLastSequence` of the conversation. -/
  | getConversation (conversationId : String) : Access (Option (Option Int))
  | publishFinalization (conversationId : String) (expectedLastSequence : Int) : Access Unit
  | storeTranscript (transcript : Transcript) : Access Unit
  | recordFailure (record : FailureRecord) : Access Unit

/-- The answer of `acquire_lease`. -/
inductive Decision where
  | run (token : Nat)
  | busy
  | completed
  deriving DecidableEq

inductive Delivery : Type → Type where
  | acquire : Delivery Decision
  | stillOwned (token : Nat) : Delivery Bool
  | rememberCompletion (token : Nat) : Delivery Bool
  | ack : Delivery Unit

/-- An attempt at the speech message, with the fence token of its lease, or a vector worker. -/
inductive Worker where
  | speech (token : Nat)
  | vector
  deriving DecidableEq

inductive Command (α : Type) where
  | delivery (command : Delivery α)
  | access (worker : Worker) (command : Access α)

inductive Entry where
  /-- The attempt has read a hash that is not completed. -/
  | began (token : Nat)
  | transcribed (token : Nat)
  | saved (token : Nat)
  | failed (token : Nat)
  | published
  | acked
  | marked
  /-- A record in `vector_index_failures`. -/
  | recorded (transcript : String)
  | deleted
  deriving DecidableEq

structure State where
  hash : Option Hash
  settled : Bool := false
  /-- The fence token of the latest lease on the speech message. -/
  token : Nat := 0
  /-- The completion that is remembered of the speech message. -/
  done : Bool := false
  log : List Entry := []

def State.add (s : State) (entries : List Entry) : State := { s with log := entries ++ s.log }

/-- `status` of the hash is `completed`. -/
def State.Completed (s : State) : Prop :=
  ∃ hash, s.hash = some hash ∧ hash.status = some "completed"

instance (s : State) : Decidable s.Completed :=
  match h : s.hash with
  | some hash =>
    decidable_of_iff (hash.status = some "completed")
      ⟨fun hstatus => ⟨hash, h, hstatus⟩, fun ⟨_, hsome, hstatus⟩ =>
        Option.some.inj (h.symm.trans hsome) ▸ hstatus⟩
  | none => .isFalse fun ⟨_, hsome, _⟩ => nomatch h.symm.trans hsome

structure Outside where
  busy : Bool := false
  stillOwned : Bool := true
  result : Result := {}
  path : String := ""
  conversation : Option (Option Int) := none

/-- What an `HSET` is entered as. -/
def Mapping.entries : Mapping → Worker → List Entry
  | completed _, .speech token => [.saved token]
  | failed _, .speech token => [.failed token]
  | vectorStored, _ => [.marked]
  | _, _ => []

def State.entriesOfRead (s : State) : Reader → Worker → List Entry
  | .job, .speech token => if s.Completed then [] else [.began token]
  | _, _ => []

def Worker.transcribed : Worker → List Entry
  | .speech token => [.transcribed token]
  | .vector => []

def runAccess {α : Type} (outside : Outside) (worker : Worker) (command : Access α) (s : State) :
    Except Failure α × State :=
  match command with
  | .hgetall reader => (.ok s.hash, s.add (s.entriesOfRead reader worker))
  | .hset mapping =>
    let hash := mapping.apply (s.hash.getD .empty)
    (.ok (), { s with hash := some hash }.add (mapping.entries worker))
  | .expire => (.ok (), s)
  | .delete => (.ok (), { s with hash := none }.add [.deleted])
  | .getSettled => (.ok s.settled, s)
  | .setSettled => (.ok (), { s with settled := true }.add [.marked])
  | .publishVector _ => (.ok (), s.add [.published])
  | .cleanupJobDir _ => (.ok (), s)
  | .downloadFile _ _ _ => (.ok outside.path, s)
  | .deleteFile _ _ => (.ok (), s)
  | .transcribe _ _ _ => (.ok outside.result, s.add worker.transcribed)
  | .completeTranscriptChunk _ => (.ok (), s)
  | .getConversation _ => (.ok outside.conversation, s)
  | .publishFinalization _ _ => (.ok (), s)
  | .storeTranscript _ => (.ok (), s)
  | .recordFailure record => (.ok (), s.add [.recorded record.transcript])

/-- The lease scripts of `job_lease.py`, for the one key of the speech message. -/
def runDelivery {α : Type} (outside : Outside) (command : Delivery α) (s : State) :
    Except Failure α × State :=
  match command with
  | .acquire =>
    if s.done then (.ok .completed, s)
    else if outside.busy then (.ok .busy, s)
    else (.ok (.run (s.token + 1)), { s with token := s.token + 1 })
  | .stillOwned token => (.ok (outside.stillOwned && s.token = token), s)
  | .rememberCompletion token =>
    if s.token = token then (.ok true, { s with done := true }) else (.ok false, s)
  | .ack => (.ok (), s.add [.acked])

def run {α : Type} (outside : Outside) (command : Command α) (s : State) :
    Except Failure α × State :=
  match command with
  | .delivery command => runDelivery outside command s
  | .access worker command => runAccess outside worker command s

abbrev Working (α : Type) := Raising (Remote Failure Command) Failure α

def deliver {α : Type} (command : Delivery α) : Working α := Program.send id (.delivery command)

namespace Worker

variable (worker : Worker)

def send {α : Type} (command : Access α) : Working α := Program.send id (.access worker command)

/-- An `HSET` of the hash and `expire_speech_job`. -/
def write (mapping : Mapping) : Working Unit := do
  worker.send (.hset mapping)
  worker.send .expire

def recordVectorAttempt (attempts : Nat) : Working Unit := worker.write (.vectorAttempts attempts)

def markVectorStored : Working Unit := do
  worker.write .vectorStored
  worker.send .setSettled

def markJobProcessing : Working Unit := worker.write .processing

def markJobFailed (error : String) : Working Unit := worker.write (.failed error)

def saveJobResult (result : Result) : Working Unit := worker.write (.completed result)

def pushCompletedSpeechJob (jobId : String) : Working Unit := do
  match ← Program.attempt (worker.send (.hgetall .event)) with
  | .ok source => worker.send (.publishVector (vectorJobEvent jobId source))
  | .error _ => worker.send (.publishVector (vectorJobEvent jobId none))

end Worker

def checked {α : Type} (outcome : Except Failure α) : Working α := ExceptT.mk (.ret outcome)

namespace Attempt

/-- The publication of the vector stage, `speech_worker.py:60` and `:117`. A cutover leaves the
message pending. -/
def publishStage (worker : Worker) (jobId : String) : Working Unit := do
  match ← Program.attempt (worker.pushCompletedSpeechJob jobId) with
  | .ok _ => return ()
  | .error .cutoverLocked => throw .leavePending
  | .error error => throw error

/-- The `try` of `_process_local_speech_job`. -/
def transcribeAndSave (worker : Worker) (jobId : String) (job : Fields) : Working Unit := do
  checked (validateLocalJob job)
  worker.markJobProcessing
  let result ← worker.send <| .transcribe ((job "file_path").getD "") ((job "filename").getD "")
    ((job "content_type").getD "")
  worker.saveJobResult result
  publishStage worker jobId

def processLocalSpeechJob (worker : Worker) (jobId : String) (job : Fields) : Working Unit := do
  match ← Program.attempt (transcribeAndSave worker jobId job) with
  | .ok _ => return ()
  | .error .leavePending => throw .leavePending
  | .error error =>
    worker.markJobFailed error.text
    throw error

/-- The `try` of `_process_s3_speech_job`. -/
def downloadAndProcess (worker : Worker) (jobId path : String) (job : Fields) : Working Unit := do
  worker.send (.cleanupJobDir path)
  let downloaded ← worker.send <|
    .downloadFile ((job "s3_bucket").getD "") ((job "s3_object_key").getD "") path
  processLocalSpeechJob worker jobId (Function.update job "file_path" (some downloaded))

/-- The `except` clauses of `_process_s3_speech_job`. -/
def handleStorageError (worker : Worker) : Except Failure Unit → Working Unit
  | .ok _ => return ()
  | .error (.permanentStorage message) => do
    worker.markJobFailed message
    throw (.value message)
  | .error (.temporaryStorage message) => do
    worker.markJobFailed message
    throw (.runtime message)
  | .error error => throw error

def deleteProcessed (worker : Worker) (job : Fields) : Working Unit := do
  let deletion := worker.send <|
    .deleteFile ((job "s3_bucket").getD "") ((job "s3_object_key").getD "")
  match ← Program.attempt deletion with
  | .ok _ => return ()
  | .error (.temporaryStorage message) => throw (.runtime message)
  | .error (.permanentStorage _) => return ()
  | .error error => throw error

def processS3SpeechJob (host : Host) (worker : Worker) (jobId : String) (job : Fields) :
    Working Unit := do
  match validateS3Job job with
  | .error error =>
    worker.markJobFailed error.text
    throw error
  | .ok _ =>
    let path ← checked (host.tempAudioPath job)
    let outcome ← Program.attempt (downloadAndProcess worker jobId path job)
    let handled ← Program.attempt (handleStorageError worker outcome)
    let _ ← Program.attempt (worker.send (.cleanupJobDir path))
    checked handled
    if host.deleteAfterProcessing then deleteProcessed worker job

/-- The job with what the hash knows of it, `speech_worker.py:38`. -/
def recovered (existing : Option Hash) (job : Fields) : Except Failure Fields :=
  match existing with
  | some hash => recoverJob hash job
  | none => .ok job

/-- `process_speech_job`, for a payload of this job. -/
def processSpeechJob (host : Host) (worker : Worker) (payload : Fields) : Working Unit := do
  let job ← checked (normalizeSpeechJob payload)
  let jobId := (job "job_id").getD ""
  let existing ← worker.send (.hgetall .job)
  let job ← checked (recovered existing job)
  if (existing.bind Hash.status) = some "completed" then publishStage worker jobId
  else if jobUsesS3 host job then processS3SpeechJob host worker jobId job
  else processLocalSpeechJob worker jobId job

def handleSpeechStreamEvent (host : Host) (worker : Worker) (payload : Fields) : Working Unit := do
  match ← Program.attempt (processSpeechJob host worker payload) with
  | .ok _ => return ()
  | .error (.value message) => throw (.nonRetryable (Text.take 300 message))
  | .error error => throw error

/-- `_process_message`, `streams.py:436`, for a message of the job. What the consumer does with a
message that the handler has failed on is left out: the message may be delivered again. -/
def processMessage (host : Host) (payload : Fields) : Working Unit := do
  match ← deliver .acquire with
  | .busy => return ()
  | .completed => deliver .ack
  | .run token =>
    handleSpeechStreamEvent host (.speech token) payload
    if !(← deliver (.stillOwned token)) then return ()
    if !(← deliver (.rememberCompletion token)) then return ()
    deliver .ack

end Attempt

namespace Indexing

def maxAttempts : Nat := 5

/-- What `process_completed_speech_job` reads of a completed job. -/
structure Completed where
  userId : String
  spaceId : String
  conversationId : String
  transcript : String
  languageCode : Option String
  requestId : Option String
  provider : String
  sequenceNumber : Option String
  isVectorRetry : Bool

def Completed.ofHash (hash : Hash) : Completed :=
  let result := hash.result.getD {}
  let provider := Text.strip ((given result.provider).getD "unknown")
  { userId := Text.strip ((hash.fields "user_id").getD "")
    spaceId := Text.strip ((hash.fields "space_id").getD "")
    conversationId := Text.strip ((hash.fields "conversation_id").getD "")
    transcript := Text.strip result.transcript
    languageCode := result.languageCode
    requestId := result.requestId
    provider := if provider = "" then "unknown" else provider
    sequenceNumber := hash.fields "sequence_number"
    isVectorRetry := hash.vectorAttempts.isSome }

/-- The transcript chunk and the finalization of its conversation, `vector_worker.py:93`. -/
def completeChunk (host : Host) (job : Completed) : Working Unit := do
  match job.sequenceNumber with
  | none => return ()
  | some number =>
    if job.conversationId = "" ∨ job.isVectorRetry then return ()
    match host.int? number with
    | none => throw (.value ("invalid literal for int() with base 10: '" ++ number ++ "'"))
    | some sequenceNumber =>
      Worker.vector.send <| .completeTranscriptChunk
        { conversationId := job.conversationId
          sequenceNumber
          rawText := job.transcript
          languageCode := job.languageCode
          requestId := job.requestId
          provider := job.provider }
      match ← Worker.vector.send (.getConversation job.conversationId) with
      | some (some expected) =>
        Worker.vector.send (.publishFinalization job.conversationId expected)
      | _ => return ()

def recordVectorFailure (job : Completed) (error : Failure) : Working Unit := do
  let record := Worker.vector.send <| .recordFailure
    { userId := job.userId
      spaceId := job.spaceId
      conversationId := if job.conversationId = "" then none else some job.conversationId
      transcript := job.transcript
      error := Text.take 500 error.text }
  let _ ← Program.attempt record

/-- The `try` of the embedding, `vector_worker.py:137`. -/
def storeTranscript (job : Completed) : Working Unit := do
  Worker.vector.send <| .storeTranscript
    ⟨job.userId, job.spaceId, job.transcript, job.languageCode, job.requestId⟩
  Worker.vector.markVectorStored

/-- What follows a failed embedding under a lease, `vector_worker.py:147`. -/
def failed (retryCount : Nat) (job : Completed) (error : Failure) : Working Unit := do
  let attemptNumber := retryCount + 1
  Worker.vector.recordVectorAttempt attemptNumber
  if maxAttempts ≤ attemptNumber then
    recordVectorFailure job error
    throw (.nonRetryable (Text.take 300 error.text))
  else throw error

/-- The stage of a job that is ready for it, `vector_worker.py:84`. -/
def processReady (host : Host) (retryCount : Nat) (job : Completed) : Working Unit := do
  if job.userId = "" ∨ job.spaceId = "" then
    throw (.nonRetryable "completed speech job is missing user or space")
  completeChunk host job
  if job.transcript = "" then
    Worker.vector.markVectorStored
    Worker.vector.send .delete
  else
    match ← Program.attempt (storeTranscript job) with
    | .ok _ => Worker.vector.send .delete
    | .error error => failed retryCount job error

/-- `process_completed_speech_job`, under a lease. -/
def processCompletedSpeechJob (host : Host) (retryCount : Nat) : Working Unit := do
  let job ← Worker.vector.send (.hgetall .job)
  let settled ← Worker.vector.send .getSettled
  if settled || job.bind Hash.vectorStatus = some "stored" then
    if job.isSome then Worker.vector.send .delete
  else
    match job with
    | some hash =>
      if hash.status = some "completed" then processReady host retryCount (.ofHash hash)
      else throw (.runtime "completed speech is not durable yet")
    | none => throw (.runtime "completed speech is not durable yet")

end Indexing

/-- What a command may be answered. A command is answered, or it raises, and then it has taken
effect or not. An attempt issues commands while the latest lease is its own. -/
def Performed {α : Type} (command : Command α) (s : State) (reply : Except Failure α)
    (s' : State) : Prop :=
  (∀ token command', command = .access (.speech token) command' → s.token = token) ∧
    ∃ outside lost, Answers lost (run outside command) s reply s'

def semantics : Semantics (Remote Failure Command) State := Remote.semantics Performed

def State.Undeleted (s : State) : Prop :=
  Always (fun entry earlier => entry = .deleted → ∀ token, .saved token ∉ earlier) s.log

/-- The command is the `HSET` of `mark_job_failed`. -/
def Access.marksFailed {α : Type} : Access α → Bool
  | .hset (.failed _) => true
  | _ => false

/-- The command is the `HGETALL` that an attempt starts with. -/
def Access.readsJob {α : Type} : Access α → Bool
  | .hgetall .job => true
  | _ => false

/-- The steps that a stored result has to be spared: the attempt that has stored it marks the job as
failed, and an attempt starts with a hash that has been deleted. -/
def Spares {α : Type} (command : Command α) (s s' : State) : Prop :=
  match command with
  | .access (.speech token) command =>
    (command.marksFailed → .saved token ∈ s.log → s' = s) ∧
      (command.readsJob → ¬ s.Undeleted → s' = s)
  | _ => True

def sparing : Semantics (Remote Failure Command) State :=
  Remote.semantics fun command s reply s' => Performed command s reply s' ∧ Spares command s s'

/-- Deliveries of the speech message and vector workers start at any time, their commands come in
any order, and any of them may stop for good. -/
abbrev SpeechRun (sem : Semantics (Remote Failure Command) State) (host : Host) (start : State)
    (pool : Pool (Remote Failure Command) (Except Failure Unit) State) : Prop :=
  Pool.Run sem
    (fun _ prog => (∃ payload, prog = (Attempt.processMessage host payload).run) ∨
      ∃ retryCount, prog = (Indexing.processCompletedSpeechJob host retryCount).run)
    (fun _ _ => False) start pool

structure Starts (s : State) : Prop where
  hash : ∀ hash, s.hash = some hash →
    hash.status ≠ some "completed" ∧ hash.vectorStatus ≠ some "stored"
  settled : s.settled = false
  done : s.done = false
  log : s.log = []

/-- After a result has been stored, no later attempt transcribes the job or marks it as failed. -/
def TranscribedOnce (log : List Entry) : Prop :=
  Always (fun entry earlier => ∀ token stored,
    entry = .transcribed token ∨ entry = .failed token → .saved stored ∈ earlier →
      token ≤ stored) log

/-- The speech message is acknowledged as successful only after a vector event has been published or
the vector stage has been settled. -/
def AckedAfterPublish (log : List Entry) : Prop :=
  Always (fun entry earlier => entry = .acked → .published ∈ earlier ∨ .marked ∈ earlier) log

/-- The hash is deleted only after a vector-stored marker, or a record that holds the transcript,
has been stored. -/
def DeletedAfterMarker (log : List Entry) : Prop :=
  Always (fun entry earlier => entry = .deleted →
    .marked ∈ earlier ∨ ∃ transcript, .recorded transcript ∈ earlier) log

end AiBuddy.Speech
