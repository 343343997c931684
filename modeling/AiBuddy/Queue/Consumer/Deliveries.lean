import AiBuddy.Misc.Program
import AiBuddy.Queue.JobLease.Ownership

/-!
# Deliveries of a stream consumer (`services/queue/streams.py`)

`RedisStreamConsumer._process_message` and `_handle_failure`, with the two commands by which
`run_retry_relay` moves a copy of an event back to its stream. The streams hold the copies of one
event. A command of Redis may fail before or after it has taken effect, and a task may stop
anywhere. Its handler may be cancelled; cancelled elsewhere it is a task that has stopped. The
heartbeat marks a lease as lost at any moment. The texts beside an event in a stream are left out.
-/

namespace AiBuddy.Queue.Consumer

open Program Redis JobLease

/-- The exceptions that the `except` clauses tell apart. `redis` is `RedisError` or `OSError`. -/
inductive Fault where
  | leavePending
  | staleOwnership
  | cancelled
  | nonRetryable
  | redis
  | other
  deriving DecidableEq

inductive Destination where
  | stream
  | retry
  | deadLetter
  deriving DecidableEq

inductive Command : Type → Type 1 where
  | script (called : Call) : Command (Except Fault Reply)
  | handle : Command (Except Fault Unit)
  | lost : Command Bool
  | settled : Command Bool
  /-- `lease.lost = True`. -/
  | lose : Command Unit
  /-- `preserve_pending_delivery`, which changes an idle time. -/
  | preserve : Command Unit
  /-- Without an event, what is added is the text of a message that does not parse. -/
  | xadd (destination : Destination) (event : Option EventEnvelope) : Command (Except Fault Unit)
  | xack (messageId : Nat) : Command (Except Fault Unit)
  | xdel (destination : Destination) (messageId : Nat) : Command (Except Fault Unit)
  | onDeadLetter : Command (Except Fault Unit)

abbrev Consuming (α : Type) := Raising Command Fault α

def call {α : Type} (command : Command (Except Fault α)) : Consuming α :=
  ExceptT.mk (issue command)

def ask {α : Type} (command : Command α) : Consuming α :=
  ExceptT.mk (issue command >>= fun reply => .ret (.ok reply))

def raising {α : Type} (outcome : Except Fault α) : Consuming α := ExceptT.mk (.ret outcome)

structure Host where
  consumerName : String
  maxRetries : Int
  usesDefaultRedis : Bool := true
  deleteAfterAck : Bool := false
  hasOnDeadLetter : Bool := true

def ackAndCleanup (host : Host) (messageId : Nat) : Consuming Unit := do
  call (.xack messageId)
  if host.deleteAfterAck then
    let _ ← attempt (call (.xdel .stream messageId))
  else return ()

def gaveUp (host : Host) (event : EventEnvelope) (error : Fault) : Bool :=
  error = .nonRetryable || host.maxRetries ≤ event.attempt

def handleFailure (host : Host) (messageId : Nat) (parsed : Option EventEnvelope) (error : Fault) :
    Consuming Unit := do
  match parsed with
  | none =>
    call (.xadd .deadLetter none)
    ackAndCleanup host messageId
  | some event =>
    if gaveUp host event error then
      call (.xadd .deadLetter (some event))
      ackAndCleanup host messageId
      if host.hasOnDeadLetter then
        let _ ← attempt (call .onDeadLetter)
      else return ()
    else
      call (.xadd (if host.usesDefaultRedis then .retry else .stream) (some event.retry))
      ackAndCleanup host messageId

/-- `_still_owned`, with the check of `lease.lost` that `renew_lease` makes. -/
def stillOwned (lease : Lease) : Consuming Bool := do
  if ← ask .lost then return false
  else
    match ← attempt (call (.script (.renew lease))) with
    | .ok reply => return decide (reply = .flag 1)
    | .error _ =>
      ask .lose
      return false

/-- `remember_completion`, `job_lease.py:511`. -/
def rememberCompletion (lease : Lease) : Consuming Bool := do
  if ← ask .lost then return false
  else
    let answer ← attempt (call (.script (.complete lease)))
    if answer.toOption = some (.flag 1) then return true
    else
      ask .lose
      return false

/-- The handler and what follows its return, `:488`. -/
def settle (host : Host) (messageId : Nat) (lease : Lease) : Consuming Unit := do
  call .handle
  if ← ask .lost then return ()
  else if ← stillOwned lease then
    if ← ask .settled then
      if ← rememberCompletion lease then ackAndCleanup host messageId else return ()
    else ackAndCleanup host messageId
  else return ()

/-- The `except` clauses, `:490` and `:521`. -/
def guarded (host : Host) (messageId : Nat) (event : EventEnvelope) (lease : Lease) :
    Consuming Unit := do
  match ← attempt (settle host messageId lease) with
  | .ok () => return ()
  | .error .leavePending => ask .preserve
  | .error .staleOwnership => ask .lose
  | .error .cancelled =>
    ask .lose
    raising (.error .cancelled)
  | .error error =>
    if ← ask .lost then return () else handleFailure host messageId (some event) error

/-- What `_process_message` does under its lease, with the `finally` clause. -/
def processLeased (host : Host) (messageId : Nat) (event : EventEnvelope) (lease : Lease) :
    Consuming Unit := do
  let outcome ← attempt (guarded host messageId event lease)
  if ← ask .lost then raising outcome
  else
    let _ ← attempt (call (.script (.release lease)))
    raising outcome

/-- `_process_message`: `parsed` is the event of the message. -/
def processMessage (host : Host) (messageId : Nat) (parsed : Option EventEnvelope) :
    Consuming Unit := do
  match parsed with
  | none => handleFailure host messageId none .other
  | some event =>
    match ← attempt (call (.script (.acquire event host.consumerName messageId.repr))) with
    | .ok (.decision action token _) =>
      if action = "completed" then ackAndCleanup host messageId
      else if action = "run" then
        let lease := { leaseFor event host.consumerName messageId.repr with token := token }
        processLeased host messageId event lease
      else ask .preserve
    | _ => return ()

/-- One turn of `run_retry_relay` for an entry that is due, `conversation_workers.py:553`. -/
def relayEntry (messageId : Nat) (event : EventEnvelope) (newId : String) : Consuming Unit := do
  call (.xadd .stream (some (event.relay newId)))
  call (.xdel .retry messageId)

/-- What a task is told, and what it writes. -/
inductive Fact where
  | unparsed
  | completed (logicalKey : String)
  | returned
  /-- The handler has raised an exception that has no clause of its own. -/
  | raised
  /-- `lease.lost` was false. -/
  | unlost
  /-- Redis has renewed the lease for an attempt whose handler has returned. -/
  | owner (logicalKey : String)
  | copied
  | copyAnswered
  | acknowledged
  | ackFailed
  deriving DecidableEq

/-- The exceptions with a clause of their own. -/
def Fault.named (error : Fault) : Bool := error ∈ [.leavePending, .staleOwnership, .cancelled]

def scriptFacts : Call → Except Fault Reply → List Fact
  | .acquire event _ _, .ok (.decision action _ _) =>
    if action = "completed" then [.completed (logicalJobKey event)] else []
  | .renew lease, .ok (.flag 1) => [.owner lease.logicalKey]
  | _, _ => []

def handleFacts : Except Fault Unit → List Fact
  | .ok () => [.returned]
  | .error error => if error.named then [] else [.raised]

def facts {β : Type} (command : Command β) : β → List Fact :=
  match command with
  | .script called => scriptFacts called
  | .handle => handleFacts
  | .lost => fun reply => if reply then [] else [.unlost]
  | .xadd _ _ => fun reply => .copied :: if reply = .ok () then [.copyAnswered] else []
  | .xack _ => fun reply => .acknowledged :: if reply = .ok () then [] else [.ackFailed]
  | .settled | .lose | .preserve | .xdel _ _ | .onDeadLetter => fun _ => []

structure State where
  db : Db Key
  /-- The copies of the event, in the stream those that are not acknowledged. -/
  entries : Destination → List (Nat × EventEnvelope)
  /-- The id of the next entry, whichever its stream is. -/
  nextId : Nat
  /-- The jobs whose handler has returned in an attempt that Redis then confirmed as the owner. -/
  finished : List String := []
  /-- What the tasks of an entry have been told, and have written. -/
  told : Nat → List Fact := fun _ => []

namespace State

def add (destination : Destination) (event : Option EventEnvelope) (s : State) : State :=
  match event with
  | some event =>
    { s with
      entries := fun other =>
        if other = destination then (s.nextId, event) :: s.entries other else s.entries other
      nextId := s.nextId + 1 }
  | none => s

/-- `XDEL`, and `XACK` in the stream. -/
def remove (destination : Destination) (messageId : Nat) (s : State) : State :=
  { s with
    entries := fun other =>
      if other = destination then (s.entries other).filter (·.1 ≠ messageId) else s.entries other }

/-- A call of a lease script. Only an attempt whose handler has returned renews its lease itself. -/
def script (settings : LeaseSettings) (nowMs : Int) (called : Call) (s : State) :
    Except Fault Reply × State :=
  let (answer, db) := called.eval settings nowMs s.db
  let finished :=
    match called, answer with
    | .renew lease, .ok (.flag 1) => lease.logicalKey :: s.finished
    | _, _ => s.finished
  (answer.mapError fun _ => .redis, { s with db := db, finished := finished })

def tell (messageId : Nat) (heard : List Fact) (s : State) : State :=
  { s with told := fun other => if other = messageId then heard ++ s.told other else s.told other }

end State

/-- The attributes of the lease object are the attempt's own, and a handler may raise anything. -/
def performs (settings : LeaseSettings) : Semantics Command State :=
  fun command s reply s' =>
    match command, reply with
    | .script called, reply =>
      ∃ nowMs, Answers .redis (State.script settings nowMs called) s reply s'
    | .xadd destination event, reply =>
      Answers .redis (fun s => (.ok (), s.add destination event)) s reply s'
    | .xack messageId, reply =>
      Answers .redis (fun s => (.ok (), s.remove .stream messageId)) s reply s'
    | .xdel destination messageId, reply =>
      Answers .redis (fun s => (.ok (), s.remove destination messageId)) s reply s'
    | .handle, _ | .lost, _ | .settled, _ | .lose, _ | .preserve, _ | .onDeadLetter, _ => s' = s

/-- The commands of a task go with the id of its entry. -/
abbrev TaskCommand := Labelled Nat Command

def tells (settings : LeaseSettings) : Semantics TaskCommand State :=
  fun task s reply s' => ∃ after, performs settings task.command s reply after ∧
    s' = after.tell task.label (facts task.command reply)

/-- What goes on beside the tasks of the event: time passes, other attempts call the lease scripts,
and handlers return. A job is completed after its handler has returned. -/
inductive Beside (settings : LeaseSettings) (s : State) : State → Prop where
  | passes (millis : Nat) : Beside settings s { s with db := s.db.advance millis }
  | calls {event : CallEvent} {db : Db Key} (step : CallStep settings s.db event db)
      (completes : ∀ lease, event.call = .complete lease → lease.logicalKey ∈ s.finished) :
      Beside settings s { s with db := db }
  | finishes (logicalKey : String) :
      Beside settings s { s with finished := logicalKey :: s.finished }

def task (messageId : Nat) (prog : Consuming Unit) : Program TaskCommand (Except Fault Unit) :=
  hoist (fun command => ⟨messageId, command⟩) prog.run

/-- Any consumer is handed any entry that is not acknowledged, and any relay any retry. No consumer
retries more often than `limit`. -/
inductive Starts (limit : Int) (s : State) : Program TaskCommand (Except Fault Unit) → Prop where
  | delivery {host : Host} {messageId : Nat} {event : EventEnvelope}
      (listed : (messageId, event) ∈ s.entries .stream) (limited : host.maxRetries ≤ limit) :
      Starts limit s (task messageId (processMessage host messageId (some event)))
  | relay {messageId : Nat} {event : EventEnvelope} {newId : String}
      (listed : (messageId, event) ∈ s.entries .retry) :
      Starts limit s (task messageId (relayEntry messageId event newId))

abbrev DeliveryPool := Pool TaskCommand (Except Fault Unit) State

abbrev DeliveryRun (settings : LeaseSettings) (limit : Int) (start : State) : DeliveryPool → Prop :=
  Pool.Run (tells settings) (Starts limit) (Beside settings) start

/-- A copy of an event, as retries and relays make them. -/
def CopyOf (origin copy : EventEnvelope) : Prop :=
  copy = { origin with
    attempt := copy.attempt, eventId := copy.eventId, causationId := copy.causationId }

/-- The event is in one of the streams, or the handler of one of its jobs has returned. -/
structure Accounted (origin : EventEnvelope) (s : State) : Prop where
  copies : ∀ destination, ∀ entry ∈ s.entries destination, CopyOf origin entry.2
  kept : (∃ destination, s.entries destination ≠ []) ∨
    ∃ copy, CopyOf origin copy ∧ logicalJobKey copy ∈ s.finished

/-- The event was published once, and completion markers belong to finished jobs. -/
structure Published (origin : EventEnvelope) (s : State) : Prop where
  listed : ∃ messageId, s.entries .stream = [(messageId, origin)] ∧ messageId < s.nextId
  alone : ∀ destination, destination ≠ .stream → s.entries destination = []
  untold : ∀ messageId, s.told messageId = []
  markers : ∀ logicalKey, MarkedDone s.db logicalKey → logicalKey ∈ s.finished

end AiBuddy.Queue.Consumer
