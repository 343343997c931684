import AiBuddy.Conversation.SessionRuns

/-!
# Attempts at a transcription job

`RedisStreamConsumer._process_message` (`services/queue/streams.py:432`) around a handler that
transcribes one chunk of a conversation, and what follows where it fails. An attempt runs under the
token of its lease. It may stop anywhere, and attempts whose lease is lost go on beside the others.
For each token a record keeps what its attempt has done since it has completed the chunk.
-/

namespace AiBuddy.Transcription

open Program Conversation Conversation.Session

inductive Fault where
  | repository (error : StatusError)
  | extraction (message : String) (corrupt : Bool)
  | permanentAudio (message : String)
  | permanentStorage (message : String)
  | valueError (message : String)
  | nonRetryable (message : String)
  | other (message : String)
  deriving DecidableEq

def Fault.stale : Fault → Bool
  | .repository (.write (.staleOwnership _ _)) => true
  | _ => false

def Fault.retryable : Fault → Bool
  | .nonRetryable _ => false
  | _ => true

inductive Announcement where
  | ready
  | finalization (expectedLastSequence : Int)
  deriving DecidableEq

/-- What a handler reads of the result of `transcribe_from_path_with_fallback`. -/
structure Transcript where
  text : String
  endTimeMs : Option Int := none
  deriving DecidableEq

/-- The statuses of a document in `meeting_recording_chunks`. -/
structure Recording where
  processingStatus : String
  transcriptionStatus : String
  failureMessage : Option String := none
  failureCode : Option String := none
  deriving DecidableEq

def Recording.processed (recording : Recording) : Bool :=
  recording.processingStatus = "COMPLETED"

/-- The update of `_mark_chunk_processed`: without a failure a document that is
not COMPLETED keeps its failure. -/
def Recording.over (update stored : Recording) : Recording :=
  { update with
    failureMessage :=
      if update.processed then none else update.failureMessage.or stored.failureMessage
    failureCode := if update.processed then none else update.failureCode.or stored.failureCode }

/-- What `acquire_lease` decides. -/
inductive Lease where
  | unavailable
  | held
  | completed
  | granted (token : Nat)
  deriving DecidableEq

inductive Stage where
  | download
  | standalone
  | audio
  | thumbnail
  deriving DecidableEq

inductive AttemptCommand : Type → Type 1 where
  | acquire : AttemptCommand Lease
  | repository {α : Type} (command : Command α) : AttemptCommand (Except Mongo.Error α)
  | work (stage : Stage) : AttemptCommand (Except Fault Unit)
  | transcribe : AttemptCommand (Except Fault Transcript)
  | markRecording (recording : Recording) : AttemptCommand (Except Fault Unit)
  | countProcessed : AttemptCommand (Except Fault Unit)
  | publish (announcement : Announcement) : AttemptCommand (Except Fault Unit)
  | stillOwned : AttemptCommand Bool
  | lost : AttemptCommand Bool
  | remember : AttemptCommand Bool
  | retry (attempt : Nat) : AttemptCommand (Except Fault Unit)
  | deadLetter : AttemptCommand (Except Fault Unit)
  | acknowledge (attempt : Nat) : AttemptCommand (Except Fault Unit)

abbrev Attempting (α : Type) := Raising AttemptCommand Fault α

def call {α : Type} (command : AttemptCommand (Except Fault α)) : Attempting α :=
  ExceptT.mk (issue command)

def ask {α : Type} (command : AttemptCommand α) : Attempting α :=
  ExceptT.mk (issue command >>= fun reply => .ret (.ok reply))

def raising {α : Type} (outcome : Except Fault α) : Attempting α := ExceptT.mk (.ret outcome)

def toAttempt {β : Type} : Remote Mongo.Error Command β → AttemptCommand β
  | .send command => .repository command

def repository {α : Type} (prog : Operating α) : Attempting α :=
  ExceptT.mk (hoist toAttempt prog.run >>= fun outcome => .ret (outcome.mapError .repository))

/-- `SttFailureClassification`, `services/conversation/stt_failure.py`. -/
structure Classification where
  permanent : Bool
  sanitizedMessage : String
  failureStage : String
  failureType : String

/-- What all deliveries of a job share. `classify` stands for `classify_stt_failure`, with
`retry_exhausted` and the stage that the payload gives. -/
structure Job where
  sequence : Nat
  maxRetries : Nat
  classify : Bool → Fault → Classification
  /-- The payload has a `sequenceNumber`. -/
  namesSequence : Bool := true

/-- One delivery of a copy of the message: its `attempt`, and the lease as the two writes of
`complete_transcript_chunk` find it. -/
structure Delivery where
  attempt : Nat
  writing : Holding := { }
  counting : Holding := { }
  now : Int

def publishFinalizationIfStopped : Attempting Unit := do
  let conversation ← repository (sent .getConversation)
  match conversation.bind ConversationDocument.expectedLastSequence with
  | some expectedLast => call (.publish (.finalization expectedLast))
  | none => return ()

def recordSttSequenceFailure (job : Job) (delivery : Delivery) (fault : Fault)
    (existing : Option Chunk) (retryExhausted : Bool) : Attempting Unit := do
  let classification := job.classify retryExhausted fault
  let attempts := (existing.map Chunk.sttAttempts).getD 0
  let terminal := classification.permanent || retryExhausted
  let _ ← repository (failTranscriptChunk
    { sequence := job.sequence
      error := classification.sanitizedMessage
      failureStage := some classification.failureStage
      failureType := some classification.failureType
      retryCount := some ((if attempts ≠ 0 then attempts else delivery.attempt) + 1)
      terminal := terminal
      now := delivery.now })
  if terminal then publishFinalizationIfStopped else return ()

def handleSttDeadLetter (job : Job) (delivery : Delivery) (fault : Fault) : Attempting Unit := do
  if job.namesSequence then
    let existing ← repository (sent (.getChunk job.sequence))
    recordSttSequenceFailure job delivery fault existing true
  else return ()

def handleFailure (job : Job) (delivery : Delivery) (fault : Fault) : Attempting Unit := do
  if !fault.retryable || job.maxRetries ≤ delivery.attempt then
    call .deadLetter
    call (.acknowledge delivery.attempt)
    let _ ← attempt (handleSttDeadLetter job delivery fault)
  else
    call (.retry delivery.attempt)
    call (.acknowledge delivery.attempt)

/-- The handler and the acknowledgement. The handler says whether it has called
`mark_current_job_completed`. -/
def settle (handler : Delivery → Attempting Bool) (delivery : Delivery) : Attempting Unit := do
  let settled ← handler delivery
  if ← ask .stillOwned then
    if settled then
      if ← ask .remember then call (.acknowledge delivery.attempt) else return ()
    else call (.acknowledge delivery.attempt)
  else return ()

/-- What `_process_message` does under its lease. -/
def processLeased (job : Job) (handler : Delivery → Attempting Bool) (delivery : Delivery) :
    Attempting Unit := do
  match ← attempt (settle handler delivery) with
  | .ok () => return ()
  | .error fault =>
    if fault.stale then return ()
    else if ← ask .lost then return ()
    else handleFailure job delivery fault

abbrev AttemptCommands := Labelled Nat AttemptCommand

/-- `_process_message`: the commands under a lease are issued under its token. -/
def processMessage (job : Job) (handler : Delivery → Attempting Bool) (delivery : Delivery) :
    Program AttemptCommands Unit :=
  issue (⟨0, .acquire⟩ : AttemptCommands Lease) >>= fun lease =>
    match lease with
    | .granted token =>
      (processLeased job handler delivery).run.labelled token >>= fun _ => .ret ()
    | .completed => (call (.acknowledge delivery.attempt)).run.labelled 0 >>= fun _ => .ret ()
    | .unavailable | .held => .ret ()

/-- What an attempt has done between its completion of the chunk and the return of its handler. -/
structure Completer where
  /-- `expectedLastSequence` was set when the chunk became COMPLETED. -/
  expected : Bool
  marked : Bool := false
  ready : Bool := false
  finalization : Bool := false
  read : Option (Option ConversationDocument) := none
  returned : Bool := false
  deriving DecidableEq

def Completer.announce (announcement : Announcement) (record : Completer) : Completer :=
  match announcement with
  | .ready => { record with ready := true }
  | .finalization _ => { record with finalization := true }

structure State where
  session : Session.State
  /-- The document of `meeting_recording_chunks` that the attempts update. -/
  recording : Option Recording := none
  processedChunks : Nat := 0
  published : List Announcement := []
  /-- The copies of the message that are not acknowledged, by their `attempt`. -/
  copies : List Nat
  remembered : Bool := false
  tokens : Nat := 0
  completers : Nat → Option Completer := fun _ => none
  /-- `expectedLastSequence` was set when the latest attempt began. -/
  lastExpected : Bool := false

/-- `expectedLastSequence` is set. -/
def expects (conversation : Option ConversationDocument) : Bool :=
  conversation.any fun conversation => conversation.expectedLastSequence.isSome

def completedIn (sequence : Nat) (session : Session.State) : Bool :=
  session.statusAt sequence = some .completed

namespace State

def noted (token : Nat) (change : Completer → Completer) (s : State) : State :=
  { s with
    completers := fun other =>
      if other = token then (s.completers other).map fun record =>
        if record.returned then record else change record
      else s.completers other }

/-- The records after a command of the repository, which may have completed the chunk. -/
def recorded (sequence token : Nat) (s : State) (session : Session.State) :
    Nat → Option Completer := fun other =>
  if other = token ∧ s.completers other = none ∧ completedIn sequence s.session = false ∧
      completedIn sequence session = true then
    some { expected := expects session.conversation }
  else s.completers other

def reached (sequence token : Nat) (session : Session.State) (s : State) : State :=
  { s with session := session, completers := s.recorded sequence token session }

/-- The answer to `getConversation` is kept in the record. -/
def heard (token : Nat) {α : Type} (command : Command α) (reply : Except Mongo.Error α)
    (s : State) : State :=
  match command, reply with
  | .getConversation, .ok conversation =>
    s.noted token fun record => { record with read := some conversation }
  | _, _ => s

/-- `_mark_chunk_processed(...)`: the chunk. -/
def markRecording (token : Nat) (update : Recording) (s : State) : State :=
  { s with recording := s.recording.map update.over }.noted token fun record =>
    { record with marked := record.marked || update.processed }

/-- `_mark_chunk_processed(...)`: the meeting. -/
def countProcessed (s : State) : State := { s with processedChunks := s.processedChunks + 1 }

def publish (token : Nat) (announcement : Announcement) (s : State) : State :=
  { s with published := announcement :: s.published }.noted token (Completer.announce announcement)

/-- The retry relay turns the copy on the retry stream into another copy of the message. -/
def retry (attempt : Nat) (s : State) : State := { s with copies := (attempt + 1) :: s.copies }

def acknowledge (attempt : Nat) (s : State) : State := { s with copies := s.copies.erase attempt }

def grant (s : State) : State :=
  { s with tokens := s.tokens + 1, lastExpected := expects s.session.conversation }

end State

def Comes (run : State → State) (s : State) (reply : Except Fault Unit) (s' : State) : Prop :=
  (reply = .ok () ∧ s' = run s) ∨ ∃ fault, reply = .error fault ∧ (s' = s ∨ s' = run s)

def performs (sequence token : Nat) : Semantics AttemptCommand State :=
  fun command s reply s' =>
    match command, reply with
    | .acquire, reply =>
      (reply = .granted (s.tokens + 1) ∧ s' = s.grant) ∨
        (reply = .completed ∧ s.remembered = true ∧ s' = s) ∨
        ((reply = .unavailable ∨ reply = .held) ∧ s' = s)
    | .repository command, reply =>
      ∃ session, Performed command s.session reply session ∧
        s' = (s.reached sequence token session).heard token command reply
    | .work _, _ => s' = s
    | .transcribe, _ => s' = s
    | .markRecording update, reply => Comes (State.markRecording token update) s reply s'
    | .countProcessed, reply => Comes State.countProcessed s reply s'
    | .publish announcement, reply => Comes (State.publish token announcement) s reply s'
    | .stillOwned, _ => s' = s.noted token fun record => { record with returned := true }
    | .lost, _ => s' = s
    | .remember, reply => s' = { s with remembered := s.remembered || reply }
    | .retry attempt, reply => Comes (State.retry attempt) s reply s'
    | .deadLetter, _ => s' = s
    | .acknowledge attempt, reply => Comes (State.acknowledge attempt) s reply s'

def attemptAnswer (sequence : Nat) {β : Type} (command : AttemptCommands β) (s : State) :
    β × State :=
  match β, command with
  | _, ⟨_, .acquire⟩ => (.granted (s.tokens + 1), s.grant)
  | _, ⟨token, .repository command⟩ =>
    let (reply, session) := Session.State.run 0 command s.session
    (reply, (s.reached sequence token session).heard token command reply)
  | _, ⟨_, .work _⟩ => (.ok (), s)
  | _, ⟨_, .transcribe⟩ => (.ok { text := "hello" }, s)
  | _, ⟨token, .markRecording update⟩ => (.ok (), s.markRecording token update)
  | _, ⟨_, .countProcessed⟩ => (.ok (), s.countProcessed)
  | _, ⟨token, .publish announcement⟩ => (.ok (), s.publish token announcement)
  | _, ⟨token, .stillOwned⟩ =>
    (true, s.noted token fun record => { record with returned := true })
  | _, ⟨_, .lost⟩ => (false, s)
  | _, ⟨_, .remember⟩ => (true, { s with remembered := s.remembered || true })
  | _, ⟨_, .retry attempt⟩ => (.ok (), s.retry attempt)
  | _, ⟨_, .deadLetter⟩ => (.ok (), s)
  | _, ⟨_, .acknowledge attempt⟩ => (.ok (), s.acknowledge attempt)

theorem performs_answer (sequence : Nat) {β : Type} (command : AttemptCommands β) (s : State) :
    performs sequence command.label command.command s (attemptAnswer sequence command s).1
      (attemptAnswer sequence command s).2 := by
  obtain ⟨token, command⟩ := command
  cases command with
  | acquire => exact .inl ⟨rfl, rfl⟩
  | repository command => exact ⟨_, ⟨0, .answered⟩, rfl⟩
  | markRecording update => exact .inl ⟨rfl, rfl⟩
  | countProcessed => exact .inl ⟨rfl, rfl⟩
  | publish announcement => exact .inl ⟨rfl, rfl⟩
  | retry attempt => exact .inl ⟨rfl, rfl⟩
  | acknowledge attempt => exact .inl ⟨rfl, rfl⟩
  | _ => rfl

/-- What other code does: it registers, resets and removes chunks and updates the conversation. Only
the handlers complete a chunk, and nothing takes `expectedLastSequence` or a processed recording
back. -/
structure Elsewhere (sequence : Nat) (s s' : State) : Prop where
  completed : completedIn sequence s'.session = true → completedIn sequence s.session = true
  kept : completedIn sequence s.session = true → s'.session.statusAt sequence ≠ some .failed
  expected : expects s.session.conversation = true → expects s'.session.conversation = true
  recording : (s.recording.all Recording.processed) = true →
    (s'.recording.all Recording.processed) = true
  published : ∀ announcement ∈ s.published, announcement ∈ s'.published
  copies : s'.copies = s.copies
  remembered : s'.remembered = s.remembered
  tokens : s'.tokens = s.tokens
  completers : s'.completers = s.completers
  lastExpected : s'.lastExpected = s.lastExpected

structure Condition where
  attempts : ∀ {β : Type}, AttemptCommand β → State → State → Prop
  others : State → State → Prop

def Condition.any : Condition where
  attempts _ _ _ := True
  others _ _ := True

def Deliveries (job : Job) (handler : Delivery → Attempting Bool) (s : State)
    (prog : Program AttemptCommands Unit) : Prop :=
  ∃ delivery : Delivery, delivery.attempt ∈ s.copies ∧ prog = processMessage job handler delivery

abbrev AttemptPool := Pool AttemptCommands Unit State

def conditioned (condition : Condition) (sequence : Nat) : Semantics AttemptCommands State :=
  fun command s reply s' =>
    condition.attempts command.command s s' ∧
      performs sequence command.label command.command s reply s'

def Others (condition : Condition) (sequence : Nat) (s s' : State) : Prop :=
  condition.others s s' ∧ Elsewhere sequence s s'

abbrev AttemptStep (job : Job) (handler : Delivery → Attempting Bool) (condition : Condition) :
    AttemptPool → AttemptPool → Prop :=
  Pool.Step (conditioned condition job.sequence) (Deliveries job handler)
    (Others condition job.sequence)

abbrev AttemptRun (job : Job) (handler : Delivery → Attempting Bool) (condition : Condition)
    (start : State) : AttemptPool → Prop :=
  Pool.Run (conditioned condition job.sequence) (Deliveries job handler)
    (Others condition job.sequence) start

structure Requested (sequence : Nat) (s : State) : Prop where
  completed : completedIn sequence s.session = false
  copies : s.copies ≠ []
  completers : ∀ token, s.completers token = none
  lastExpected : s.lastExpected = false

def State.Back (s : State) : Prop :=
  ∀ token ≤ s.tokens, (s.completers token).all Completer.returned = true

instance (s : State) : Decidable s.Back := Nat.decidableBallLE s.tokens _

/-- An attempt does not complete the chunk once its message is acknowledged, and no attempt
acknowledges the last copy before every attempt that has completed the chunk is back. -/
def inTurn (sequence : Nat) {β : Type} (command : AttemptCommand β) (s s' : State) : Prop :=
  match command with
  | .acknowledge attempt => s.copies.erase attempt = [] → s.Back
  | .repository _ =>
    completedIn sequence s.session = false → completedIn sequence s'.session = true → s.copies ≠ []
  | _ => True

/-- `conversation.status in {COMPLETED, FAILED}`. -/
def isClosed (conversation : Option ConversationDocument) : Bool :=
  conversation.any fun conversation => conversation.status ∈ [.completed, .failed]

/-- Moves in turn. A conversation that an attempt has found closed, after it has completed the
chunk, is not opened again. -/
def Condition.inTurn (sequence : Nat) : Condition where
  attempts := Transcription.inTurn sequence
  others s s' :=
    (∃ token record conversation, s.completers token = some record ∧
      record.read = some conversation ∧ isClosed conversation = true) →
    isClosed s.session.conversation = true → isClosed s'.session.conversation = true

/-- Once the message is acknowledged and the chunk is COMPLETED, and while the conversation is
not closed, the chunk is announced; and a finalization is requested where `expectedLastSequence` was
set when the chunk was completed. -/
def Announced (sequence : Nat) (s : State) : Prop :=
  s.copies = [] → completedIn sequence s.session = true →
    isClosed s.session.conversation = false →
      .ready ∈ s.published ∧
        ((∃ token record, s.completers token = some record ∧ record.expected = true) →
          ∃ last, .finalization last ∈ s.published)

/-- Moves in turn. No attempt marks a recording as failed that is marked COMPLETED, and no attempt
begins with `expectedLastSequence` set where one that has completed the chunk has read the
conversation without it. -/
def Condition.meeting (sequence : Nat) : Condition where
  attempts command s s' := Transcription.inTurn sequence command s s' ∧
    match command with
    | .markRecording update =>
      update.processed = false → s.recording.any Recording.processed = false
    | .acquire => s'.tokens ≠ s.tokens → expects s.session.conversation = true →
        ∀ token ≤ s.tokens, (s.completers token).all fun record => record.read.all expects
    | _ => True
  others _ _ := True

/-- Once the message is acknowledged and the chunk is COMPLETED, the chunk is announced and its
recording is marked COMPLETED; and a finalization is requested where `expectedLastSequence` was set
when the latest attempt began. -/
def MeetingAnnounced (sequence : Nat) (s : State) : Prop :=
  s.copies = [] → completedIn sequence s.session = true →
    .ready ∈ s.published ∧ s.recording.all Recording.processed = true ∧
      (s.lastExpected = true → ∃ last, .finalization last ∈ s.published)

end AiBuddy.Transcription

/-!
## The handlers of transcription jobs

`handle_stt_event` (`workers/conversation_workers.py:53`) for a recorded chunk, and
`process_meeting_video_chunk` (`services/meeting_extension/processor.py:44`) for a chunk of a
meeting. What storage, FFmpeg and the provider answer is arbitrary.
-/

namespace AiBuddy.Transcription

open Program Conversation Conversation.Session

inductive AudioReference where
  /-- An object in the storage, and what the validation of its key comes to. -/
  | stored (validated : Except Fault Unit)
  | file
  | missing

/-- The part of the `try` of `handle_stt_event` before the transcription. -/
def fetchAudio : AudioReference → Attempting Unit
  | .stored validated => do
    raising validated
    call (.work .download)
  | .file => return ()
  | .missing => throw (.valueError "STT event is missing audio file reference")

/-- The end of the `try`: whether `mark_current_job_completed` is called. -/
def announceRecorded : Attempting Bool := do
  let conversation ← repository (sent .getConversation)
  if isClosed conversation then return true
  else
    call (.publish .ready)
    match conversation.bind ConversationDocument.expectedLastSequence with
    | some expectedLast =>
      call (.publish (.finalization expectedLast))
      return true
    | none => return true

def transcribeRecorded (job : Job) (reference : AudioReference) (delivery : Delivery) :
    Attempting Bool := do
  fetchAudio reference
  let result ← call .transcribe
  repository (completeTranscriptChunk
    { sequence := job.sequence
      rawText := result.text
      writing := delivery.writing
      counting := delivery.counting
      now := delivery.now })
  announceRecorded

def handleSttEvent (job : Job) (reference : AudioReference) (delivery : Delivery) :
    Attempting Bool := do
  let existing ← repository (sent (.getChunk job.sequence))
  if existing.any fun chunk => chunk.sttStatus = .completed then return true
  else if existing.any (isTerminalFailedChunk job.maxRetries) then return false
  else
    let _ ← repository (markTranscriptChunkProcessing job.sequence delivery.now)
    match ← attempt (transcribeRecorded job reference delivery) with
    | .ok settled => return settled
    | .error fault =>
      if fault.stale then throw fault
      else
        recordSttSequenceFailure job delivery fault existing false
        let classification := job.classify false fault
        if classification.permanent then throw (.nonRetryable classification.sanitizedMessage)
        else throw fault

structure MeetingChunk where
  /-- What the validation of the object key comes to. -/
  validated : Except Fault Unit := .ok ()
  separated : Bool := false
  endOffsetMs : Int

def Fault.message : Fault → String
  | .repository (.valueError message) => message
  | .repository _ => ""
  | .extraction message _ => message
  | .permanentAudio message => message
  | .permanentStorage message => message
  | .valueError message => message
  | .nonRetryable message => message
  | .other message => message

def Fault.caught : Fault → Bool
  | .repository (.valueError _) | .repository .validationError => true
  | .extraction _ _ | .permanentAudio _ | .permanentStorage _ | .valueError _ => true
  | _ => false

def Fault.corrupt : Fault → Bool
  | .extraction _ corrupt => corrupt
  | _ => false

/-- `corrupt or isinstance(error, STTPermanentAudioError)`. -/
def Fault.final : Fault → Bool
  | .permanentAudio _ => true
  | fault => fault.corrupt

def Fault.typeName : Fault → String
  | .repository .validationError => "ValidationError"
  | .extraction _ _ => "MeetingAudioExtractionError"
  | .permanentAudio _ => "STTPermanentAudioError"
  | .permanentStorage _ => "PermanentS3StorageError"
  | _ => "ValueError"

def markChunkProcessed (update : Recording) : Attempting Unit := do
  call (.markRecording update)
  if update.processed then call .countProcessed else return ()

/-- The audio of a chunk of a meeting, `processor.py:88`. -/
def fetchMeetingAudio (sequence : Nat) (request : MeetingChunk) : Attempting Unit := do
  raising request.validated
  call (.work .download)
  if request.separated then return ()
  else
    call (.work .standalone)
    call (.work .audio)
    if sequence = 1 then
      -- `_maybe_store_early_thumbnail` does not raise.
      let _ ← attempt (call (.work .thumbnail))
    else return ()

def announceMeeting : Attempting Unit := do
  call (.publish .ready)
  let conversation ← repository (sent .getConversation)
  match conversation.bind ConversationDocument.expectedLastSequence with
  | some expectedLast => call (.publish (.finalization expectedLast))
  | none => return ()

def transcribeMeeting (job : Job) (request : MeetingChunk) (delivery : Delivery) :
    Attempting Unit := do
  fetchMeetingAudio job.sequence request
  let result ← call .transcribe
  repository (completeTranscriptChunk
    { sequence := job.sequence
      rawText := result.text
      endTimeMs := some (result.endTimeMs.getD request.endOffsetMs)
      writing := delivery.writing
      counting := delivery.counting
      now := delivery.now })
  markChunkProcessed { processingStatus := "COMPLETED", transcriptionStatus := "COMPLETED" }
  announceMeeting

def recordMeetingFailure (job : Job) (delivery : Delivery) (fault : Fault) : Attempting Unit := do
  let status := if fault.corrupt then "CORRUPT_MEDIA" else "FAILED"
  let message := Text.take 200 fault.message
  markChunkProcessed
    { processingStatus := status
      transcriptionStatus := "FAILED"
      failureMessage := if message = "" then none else some message
      failureCode := if message = "" then none else some status }
  let _ ← repository (failTranscriptChunk
    { sequence := job.sequence
      error := message
      failureStage := some "meeting_video"
      failureType := some (if fault.corrupt then "CORRUPT_MEDIA" else fault.typeName)
      terminal := fault.final
      now := delivery.now })
  if fault.final then throw (.nonRetryable fault.message) else throw fault

/-- `process_meeting_video_chunk(event)`. It never calls
`mark_current_job_completed`. -/
def processMeetingVideoChunk (job : Job) (request : MeetingChunk) (delivery : Delivery) :
    Attempting Bool := do
  let existing ← repository (sent (.getChunk job.sequence))
  if existing.any fun chunk => chunk.sttStatus = .completed then return false
  else
    let _ ← repository (markTranscriptChunkProcessing job.sequence delivery.now)
    match ← attempt (transcribeMeeting job request delivery) with
    | .ok () => return false
    | .error fault =>
      if fault.caught then
        recordMeetingFailure job delivery fault
        return false
      else throw fault

end AiBuddy.Transcription
