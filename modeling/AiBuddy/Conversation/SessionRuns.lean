import AiBuddy.Conversation.Finalization

/-!
# Runs on a conversation

Any number of the operations on chunks and windows, interleaved command by command, with a journal
of the commands. Each command carries the operation that issues it. An operation that stops for
good, or loses a command or its answer, is part of the runs.
-/

namespace AiBuddy.Conversation.Session

open Program Queue.MongoFence

inductive SessionTask where
  | record (metadata : AudioChunk)
  | mark (sequence : Nat) (now : Int)
  | complete (request : Completion)
  | fail (request : Failure)
  | reclaim (staleBefore now : Int)
  | close (request : CloseCall)

/-- Which operation issues a command. Of a failure it says whether it has read a status other than
FAILED, so that it is going to count. -/
inductive SessionLabel where
  | record
  | mark (sequence : Nat)
  | complete (sequence : Nat)
  | fail (sequence : Nat) (counting : Bool)
  | reclaim
  | close
  deriving DecidableEq

abbrev SessionCommands := Labelled SessionLabel (Remote Mongo.Error Command)

abbrev SessionJournal := Journaled SessionLabel State

def ended {α : Type} (prog : Operating α) : Program (Remote Mongo.Error Command) Unit :=
  prog.run >>= fun _ => .ret ()

/-- `fail_transcript_chunk`: its label changes with what it has read. -/
def failLabelled (request : Failure) : Program SessionCommands Unit :=
  (sent (.getChunk request.sequence)).run.labelled (.fail request.sequence false) >>= fun reply =>
    match reply with
    | .ok (some existing) =>
      (ended (failExisting request existing)).labelled
        (.fail request.sequence (existing.sttStatus ≠ .failed))
    | _ => .ret ()

def SessionTask.program (settings : Settings) : SessionTask → Program SessionCommands Unit
  | .record metadata => (ended (recordAudioChunk metadata)).labelled .record
  | .mark sequence now =>
    (ended (markTranscriptChunkProcessing sequence now)).labelled (.mark sequence)
  | .complete request =>
    (ended (completeTranscriptChunk request)).labelled (.complete request.sequence)
  | .fail request => failLabelled request
  | .reclaim staleBefore now =>
    (ended (reclaimStaleSttChunks staleBefore now)).labelled .reclaim
  | .close request => (ended (closeReadyWindows settings request)).labelled .close

abbrev SessionCondition := ∀ {α : Type}, SessionLabel → Command α → State → Prop

def sessionSemantics (allowed : SessionCondition) : Semantics SessionCommands SessionJournal :=
  fun command j reply j' =>
    (match command.command with
      | .send request => allowed command.label request j.state) ∧
      Labelled.semantics (Remote.semantics Performed) command j reply j'

def SessionTasks (settings : Settings) (_ : SessionJournal)
    (prog : Program SessionCommands Unit) : Prop :=
  ∃ task : SessionTask, prog = task.program settings

abbrev SessionStep (settings : Settings) (allowed : SessionCondition) :
    Pool SessionCommands Unit SessionJournal → Pool SessionCommands Unit SessionJournal → Prop :=
  Pool.Step (sessionSemantics allowed) (SessionTasks settings) (fun j j' => j' = j)

abbrev SessionRun (settings : Settings) (allowed : SessionCondition) (start : State) :
    Pool SessionCommands Unit SessionJournal → Prop :=
  Pool.Run (sessionSemantics allowed) (SessionTasks settings) (fun j j' => j' = j) ⟨start, []⟩

structure Fresh (s : State) : Prop where
  pending : ∀ chunk ∈ s.chunks, chunk.sttStatus = .pending
  counters : ∀ conversation, s.conversation = some conversation →
    conversation.completedTranscriptChunkCount = 0

/-- The `sttStatus` of a sequence number. -/
def State.statusAt (s : State) (sequence : Nat) : Option STTStatus :=
  (Keyed.find? Chunk.sequenceNumber sequence s.chunks).map Chunk.sttStatus

def State.completedSequences (s : State) : List Nat :=
  (s.chunks.filter fun chunk => chunk.sttStatus = .completed).map Chunk.sequenceNumber

def State.completedCount (s : State) : Nat :=
  (s.conversation.map ConversationDocument.completedTranscriptChunkCount).getD 0

def State.failedCount (s : State) : Nat :=
  (s.conversation.map ConversationDocument.failedTranscriptChunkCount).getD 0

abbrev SessionEvent := Event SessionLabel State

/-- A completion of the chunk has raised `completedTranscriptChunkCount`. -/
def countsCompleted (sequence : Nat) (event : SessionEvent) : Bool :=
  event.label = .complete sequence &&
    event.after.completedCount ≠ event.before.completedCount

/-- A failure of the chunk has raised `failedTranscriptChunkCount`. -/
def countsFailed (sequence : Nat) (event : SessionEvent) : Bool :=
  (event.label = .fail sequence true || event.label = .fail sequence false) &&
    event.after.failedCount ≠ event.before.failedCount

/-- The update of a mark, or of a failure that is going to count, finds no chunk that is FAILED. -/
def sparesFailed {α : Type} (label : SessionLabel) (command : Command α) (s : State) : Bool :=
  match label, command with
  | .mark _, .updateChunk sequence accepts _ token
  | .fail _ true, .updateChunk sequence accepts _ token =>
    (s.findChunk sequence accepts token).all fun chunk => chunk.sttStatus ≠ .failed
  | _, _ => true

def Chunk.accounted (chunk : Chunk) : Bool :=
  !(chunk.sttStatus = .completed && chunk.useful) || chunk.processingWindowId.isSome ||
    chunk.excluded

/-- A completion with a text finds no chunk that is processed but belongs to no window. -/
def sparesProcessed {α : Type} (label : SessionLabel) (command : Command α) (s : State) : Bool :=
  match label, command with
  | .complete _, .updateChunk sequence accepts change token =>
    (s.findChunk sequence accepts token).all fun chunk =>
      chunk.unprocessed || chunk.processingWindowId.isSome || !(change chunk).useful
  | _, _ => true

/-- A completion with a text finds no chunk, of the sequence numbers through the last, that belongs
to no window. -/
def sparesUnwindowed (last : Int) {α : Type} (label : SessionLabel) (command : Command α)
    (s : State) : Bool :=
  match label, command with
  | .complete _, .updateChunk sequence accepts change token =>
    (s.findChunk sequence accepts token).all fun chunk =>
      last < chunk.sequenceNumber || chunk.processingWindowId.isSome || !(change chunk).useful
  | _, _ => true

/-- A command of `finalize`, while the operations are under way. -/
def finalizeSemantics :
    Semantics (Remote Mongo.Error Command) (Pool SessionCommands Unit SessionJournal) :=
  fun command pool reply pool' =>
    Remote.semantics Performed command pool.shared.state reply pool'.shared.state ∧
      pool'.threads = pool.threads ∧ pool'.shared.events = pool.shared.events

/-- What the operations do between two commands of `finalize`. -/
abbrev SessionMoves (settings : Settings) (allowed : SessionCondition) :
    Pool SessionCommands Unit SessionJournal → Pool SessionCommands Unit SessionJournal → Prop :=
  Relation.ReflTransGen (SessionStep settings allowed)

def State.status? (s : State) : Option ConversationStatus :=
  s.conversation.map ConversationDocument.status

end AiBuddy.Conversation.Session

/-!
## Calls of finalize and the inactivity scan

`finalize` on one conversation, any number of calls at a time, beside the second loop of
`ConversationInactivityScanner.scan_once` (`services/conversation/inactivity.py:56`). The state
counts the changes into READY_FOR_PROCESSING and the events that follow them.
-/

namespace AiBuddy.Conversation.Session

open Program Queue.MongoFence

def processingRequested : String := "conversation.processing.requested"

/-- A change into READY_FOR_PROCESSING: the call that has made it, whether an event has been
published since, and whether the call has returned normally. -/
structure ReadyChange where
  call : Nat
  published : Bool := false
  returned : Bool := false
  deriving DecidableEq

structure ReadyState where
  session : State
  /-- The number of calls of `finalize`. -/
  calls : Nat := 0
  /-- The number of changes into READY_FOR_PROCESSING. -/
  changes : Nat := 0
  /-- The number of transitions that have set READY_FOR_PROCESSING where it was set. -/
  rewrites : Nat := 0
  /-- The number of events that calls of `finalize` have published for the processing. -/
  published : Nat := 0
  latest : Option ReadyChange := none

namespace ReadyState

def reached (call : Nat) (rewrites : Bool) (session : State) (s : ReadyState) : ReadyState :=
  if session.status? = some .readyForProcessing ∧
      s.session.status? ≠ some .readyForProcessing then
    { s with session := session, changes := s.changes + 1, latest := some { call := call } }
  else { s with session := session, rewrites := s.rewrites + rewrites.toNat }

def told (s : ReadyState) : ReadyState :=
  { s with latest := s.latest.map fun change => { change with published := true } }

def emitted (name : String) (s : ReadyState) : ReadyState :=
  if name = processingRequested then { s.told with published := s.published + 1 } else s

def republished (name : String) (s : ReadyState) : ReadyState :=
  if name = processingRequested then s.told else s

def ended (call : Nat) (s : ReadyState) : ReadyState :=
  { s with
    latest := s.latest.map fun change =>
      if change.call = call then { change with returned := true } else change }

end ReadyState

inductive ReadyCommand : Type → Type 1 where
  | begin : ReadyCommand Nat
  | session (call : Nat) {α : Type} (command : Command α) : ReadyCommand (Except Mongo.Error α)
  | ended (call : Nat) : ReadyCommand Unit
  /-- What the cursor of the scan gives of this conversation. -/
  | findStale (before : Int) : ReadyCommand (Except Mongo.Error (Option ConversationDocument))
  | republish (name : String) : ReadyCommand (Except Mongo.Error Unit)

def toReady (number : Nat) {β : Type} : Remote Mongo.Error Command β → ReadyCommand β
  | .send command => .session number command

def finalizeCall (settings : Settings) (request : FinalizeCall) :
    Program ReadyCommand (Except StatusError Unit) :=
  issue .begin >>= fun call =>
    hoist (toReady call) (finalize settings request).run >>= fun outcome =>
      match outcome with
      | .ok () => issue (.ended call) >>= fun _ => .ret (.ok ())
      | .error error => .ret (.error error)

/-- `find_stale_unfinalized_conversations(before)`, `repository.py:1306`, for one conversation. -/
def ConversationDocument.stale (before : Int) (conversation : ConversationDocument) : Bool :=
  conversation.status ∈ [.stopRequested, .waitingForTranscripts, .finalizing, .readyForProcessing]
    &&
    conversation.expectedLastSequence.isSome && conversation.updatedAt ≤ before &&
    0 < conversation.receivedAudioChunkCount

def scanned {α : Type} (command : ReadyCommand (Except Mongo.Error α)) :
    Raising ReadyCommand StatusError α :=
  ExceptT.mk (issue command >>= fun reply => .ret (reply.mapError (.write ∘ .mongo)))

/-- `stale_cutoff`, where `idleMs` is `REDIS_CLAIM_IDLE_MS`. -/
def staleCutoff (idleMs : Nat) (now : Int) : Int := now - (max 30 (idleMs / 1000) : Nat) * 1000

/-- The second loop of `scan_once()`, as far as it comes to this conversation.
-/
def scanStale (idleMs : Nat) (now : Int) : Raising ReadyCommand StatusError Unit := do
  match ← scanned (.findStale (staleCutoff idleMs now)) with
  | none => return ()
  | some conversation =>
    if conversation.status = .readyForProcessing then scanned (.republish processingRequested)
    else scanned (.republish "conversation.finalization.requested")

def Publishes (run : ReadyState → ReadyState) (s : ReadyState) (reply : Except Mongo.Error Unit)
    (s' : ReadyState) : Prop :=
  (reply = .ok () ∧ s' = run s) ∨ ∃ error, reply = .error error ∧ (s' = s ∨ s' = run s)

def rewritesReady {α : Type} (command : Command α) (s : State) (reply : Except Mongo.Error α) :
    Bool :=
  match command, reply with
  | .updateConversation _ change _, .ok (some _) =>
    (change { }).status = .readyForProcessing && s.status? = some .readyForProcessing
  | _, _ => false

def serves (call : Nat) {α : Type} (command : Command α) (s : ReadyState)
    (reply : Except Mongo.Error α) (s' : ReadyState) : Prop :=
  match command, reply with
  | .emit name, reply => Publishes (ReadyState.emitted name) s reply s'
  | command, reply =>
    ∃ session, Performed command s.session reply session ∧
      s' = s.reached call (rewritesReady command s.session reply) session

def readies : Semantics ReadyCommand ReadyState := fun command s reply s' =>
  match command, reply with
  | .begin, reply => reply = s.calls + 1 ∧ s' = { s with calls := s.calls + 1 }
  | .session number command, reply => serves number command s reply s'
  | .ended number, _ => s' = s.ended number
  | .findStale before, reply =>
    s' = s ∧ ∀ conversation, reply = .ok (some conversation) →
      s.session.conversation = some conversation ∧ conversation.stale before = true
  | .republish name, reply => Publishes (ReadyState.republished name) s reply s'

def readyAnswer {β : Type} (command : ReadyCommand β) (s : ReadyState) : β × ReadyState :=
  match β, command with
  | _, .begin => (s.calls + 1, { s with calls := s.calls + 1 })
  | _, .session number command =>
    match command with
    | .emit name => (.ok (), s.emitted name)
    | command =>
      let (reply, session) := State.run 0 command s.session
      (reply, s.reached number (rewritesReady command s.session reply) session)
  | _, .ended number => ((), s.ended number)
  | _, .findStale before =>
    (.ok (s.session.conversation.filter (ConversationDocument.stale before)), s)
  | _, .republish name => (.ok (), s.republished name)

/-- Calls of `finalize` and scans begin at any time. -/
def ReadyCalls (settings : Settings) (_ : ReadyState)
    (prog : Program ReadyCommand (Except StatusError Unit)) : Prop :=
  (∃ request, prog = finalizeCall settings request) ∨
    ∃ idleMs now, prog = (scanStale idleMs now).run

/-- What other code does. Only `finalize` takes a conversation to READY_FOR_PROCESSING. -/
def ReadyElsewhere (s s' : ReadyState) : Prop :=
  ∃ session, s' = { s with session := session } ∧
    (session.status? = some .readyForProcessing → s.session.status? = some .readyForProcessing)

abbrev ReadyPool := Pool ReadyCommand (Except StatusError Unit) ReadyState

abbrev ReadyRun (settings : Settings) (start : ReadyState) : ReadyPool → Prop :=
  Pool.Run readies (ReadyCalls settings) ReadyElsewhere start

structure Unready (s : ReadyState) : Prop where
  status : s.session.status? ≠ some .readyForProcessing
  changes : s.changes = 0
  rewrites : s.rewrites = 0
  published : s.published = 0
  latest : s.latest = none

def ReadyState.stranded (s : ReadyState) : Bool :=
  s.session.status? = some .readyForProcessing && !s.latest.any ReadyChange.published

def ReadyState.changerReturned (s : ReadyState) : Bool := s.latest.any ReadyChange.returned

def ReadyState.staleReady (before : Int) (s : ReadyState) : Bool :=
  s.session.conversation.any fun conversation =>
    conversation.status = .readyForProcessing && conversation.stale before

end AiBuddy.Conversation.Session
