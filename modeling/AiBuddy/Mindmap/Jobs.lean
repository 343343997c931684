import AiBuddy.Mindmap.Store

/-!
# Jobs that make mind maps and documents

`MindmapJobHandler.handle` (`services/mindmap/jobs.py`) and `DocumentJobHandler.handle`
(`services/document_it/jobs.py`). What the sources, the generator and the renderer come to is part
of a job, as is what the lease checks come to. A handler that returns has marked its job completed.
-/

namespace AiBuddy.Mindmap

open Mongo Program Queue.JobLease Queue.MongoFence Reminders

/-- `SourceScope`, with its label. -/
structure Scope where
  mode : String
  dates : List String
  dayLabel : String

def Scope.gathering (scope : Scope) : String :=
  if scope.mode = "date" ∧ scope.dates ≠ [] then
    "Gathering notes, tasks, and transcripts for " ++ scope.dayLabel
  else "Gathering notes, tasks, and transcripts"

structure Bundle where
  sourceStats : Value
  usable : Bool

/-- What the generator answers: the graph or the content, with its preview, and the model. -/
structure Generated where
  content : Value
  preview : Value
  model : Value

structure Rendered where
  docxBase64 : Value
  docxBytes : Value
  fileName : Value

/-- A delivery of a job: the fields of its event, its lease, and what everything but the store
comes to. -/
structure Job where
  itemId : String
  userId : String
  spaceId : String
  templateCode : String := ""
  jobId : String
  /-- `mongo_id_candidates(item_id)`. -/
  ids : List Value
  lease : Lease
  scope : Except HandleError Scope
  template : Except HandleError String := .ok ""
  bundle : Except HandleError Bundle
  /-- `empty_context_message(scope)`. -/
  emptyContext : String
  generated : Except HandleError Generated
  rendered : Except HandleError Rendered := .ok ⟨.null, .null, .null⟩
  saving : LeaseCheck
  failing : LeaseCheck
  saving_lease : saving.object.lease = lease
  failing_lease : failing.object.lease = lease
  driverText : Mongo.Error → String

def Job.token? (job : Job) : Option Int := Text.int? job.lease.token

def Job.progress (job : Job) (progress : Progress) : Handling Unit := do
  let _ ← updateProgress job.ids progress
  return ()

def mindmapWork (job : Job) : Handling Unit := do
  let scope ← raising job.scope
  job.progress
    { status := some .gathering, stage := some "gathering_context", progress := some 20,
      message := some scope.gathering }
  let bundle ← raising job.bundle
  job.progress
    { stage := some "packing_context", progress := some 35,
      message := some "Preparing context for generation", sourceStats := some bundle.sourceStats }
  if !bundle.usable then throw (.nonRetryable job.emptyContext)
  job.progress
    { status := some .generating, stage := some "generating", progress := some 55,
      message := some "Generating mind map with AI" }
  let generated ← raising job.generated
  job.progress
    { status := some .saving, stage := some "saving", progress := some 90,
      message := some "Saving mind map", model := some generated.model }
  let _ ← saveReady job.ids job.saving
    (.mindmap generated.content generated.preview bundle.sourceStats generated.model)
  return ()

def documentWork (job : Job) : Handling Unit := do
  let title ← raising job.template
  let scope ← raising job.scope
  job.progress
    { status := some .gathering, stage := some "gathering_context", progress := some 20,
      message := some scope.gathering }
  let bundle ← raising job.bundle
  job.progress
    { stage := some "packing_context", progress := some 35,
      message := some "Preparing context for generation", sourceStats := some bundle.sourceStats }
  if !bundle.usable then throw (.nonRetryable job.emptyContext)
  job.progress
    { status := some .generating, stage := some "generating", progress := some 55,
      message := some ("Generating " ++ title ++ " with AI") }
  let generated ← raising job.generated
  job.progress
    { status := some .rendering, stage := some "rendering_docx", progress := some 80,
      message := some "Building Word document", model := some generated.model }
  let rendered ← raising job.rendered
  job.progress
    { status := some .saving, stage := some "saving", progress := some 92,
      message := some "Saving document" }
  let _ ← saveReady job.ids job.saving
    (.document generated.content generated.preview rendered.docxBase64 rendered.docxBytes
      rendered.fileName bundle.sourceStats generated.model)
  return ()

def Kind.work : Kind → Job → Handling Unit
  | .mindmap => mindmapWork
  | .document => documentWork

def Kind.incomplete (kind : Kind) (job : Job) : Bool :=
  job.itemId = "" || job.userId = "" || job.spaceId = "" ||
    match kind with
    | .mindmap => false
    | .document => job.templateCode = ""

def Kind.incompleteText : Kind → String
  | .mindmap => "mindmap job missing mindmapId/userId/spaceId"
  | .document => "document job missing documentId/userId/spaceId/templateCode"

def Kind.missingText : Kind → String
  | .mindmap => "mindmap document not found: "
  | .document => "document not found: "

/-- The `except` clauses: the item is marked as failed, but for a lost lease. -/
def Job.recover (job : Job) : HandleError → Handling Unit
  | .valueError text => do
    let _ ← markFailed job.ids job.failing text
    throw (.nonRetryable text)
  | .nonRetryable text => do
    let _ ← markFailed job.ids job.failing text
    throw (.nonRetryable text)
  | .generateError text => do
    let _ ← markFailed job.ids job.failing text
    throw (.nonRetryable text)
  | .staleOwnership logicalKey reason => throw (.staleOwnership logicalKey reason)
  | .leavePending logicalKey => throw (.leavePending logicalKey)
  | .mongo error => do
    let _ ← markFailed job.ids job.failing (job.driverText error)
    throw (.mongo error)
  | .other text => do
    let _ ← markFailed job.ids job.failing text
    throw (.other text)

def handle (kind : Kind) (job : Job) : Handling Unit := do
  if kind.incomplete job then throw (.nonRetryable kind.incompleteText)
  match ← claim kind job.ids job.jobId with
  | .missing => throw (.nonRetryable (kind.missingText ++ job.itemId))
  | .exists_ _ => return ()
  | .busy _ => throw (.leavePending job.itemId)
  | .claimed _ =>
    match ← attempt (kind.work job) with
    | .ok () => return ()
    | .error error => job.recover error

abbrev JobCommand := Labelled (Option Int) ItemCommand

abbrev JobJournal := Journaled (Option Int) State

abbrev JobPool := Pool JobCommand (Except HandleError Unit) JobJournal

def Deliveries (kind : Kind) (_ : JobJournal)
    (prog : Program JobCommand (Except HandleError Unit)) : Prop :=
  ∃ job : Job, prog = labelled job.token? (handle kind job).run

/-- What happens besides: time passes, items are reserved and deleted, and other code updates
fields but the fence. -/
def OtherMoves (s s' : State) : Prop := Elsewhere s.store s'.store ∧ s.clock ≤ s'.clock

abbrev JobCondition := {β : Type} → JobCommand β → JobJournal → Prop

abbrev JobRun (kind : Kind) (collides : Document → Document → Bool) (allowed : JobCondition)
    (start : State) : JobPool → Prop :=
  Pool.Run
    (fun command j reply j' => allowed command j ∧
      Labelled.semantics (performs collides) command j reply j')
    (Deliveries kind) (Journaled.Outside OtherMoves) ⟨start, []⟩

def Saves (event : Event (Option Int) State) (slot : Nat) : Prop :=
  ∃ doc update, event.after.store.landed = ⟨slot, some doc, update⟩ :: event.before.store.landed ∧
    update.set.get "status" = some (.str Status.ready.value)

def Kind.keptFields (kind : Kind) : List String := ["status", "progress"] ++ kind.contentFields

/-- A status, progress or content of the item in the slot is another one after the command. -/
def Changes (kind : Kind) (event : Event (Option Int) State) (slot : Nat) : Prop :=
  ∃ doc doc' path, event.before.store.collection.doc slot = some doc ∧
    event.after.store.collection.doc slot = some doc' ∧ path ∈ kind.keptFields ∧
    doc'.get path ≠ doc.get path

/-- No command of a job changes an item that a job with a newer token has made READY before. -/
def StaysFinished (kind : Kind) (events : List (Event (Option Int) State)) : Prop :=
  events.Pairwise fun event earlier => ∀ slot token token', event.label = some token →
    earlier.label = some token' → token < token' → Saves earlier slot → ¬ Changes kind event slot

def Spared (token? : Option Int) (slot : Nat) (j : JobJournal) : Prop :=
  ∀ token token', token? = some token → token < token' → ∀ earlier ∈ j.events,
    earlier.label = some token' → ¬ Saves earlier slot

/-- A write without a fence by a job matches no item that a job with a newer token has made
READY. -/
def SparesFinished : JobCondition := fun command j =>
  match command.command with
  | .mongo command' =>
    ∀ filter update upsert, command'.update? = some (filter, update, upsert) →
      update.set.get fenceField = none →
      ∀ slot doc, j.state.store.collection.doc slot = some doc → filter.accepts doc = true →
        Spared command.label slot j
  | .utcNow => True

end AiBuddy.Mindmap

/-!
## Runs of claims

Any number of jobs claim one item, each by calls of `claim`, while time passes.
-/

namespace AiBuddy.Mindmap

open Mongo Program Reminders

/-- A call of `claim`, and the job that makes it. -/
structure Caller where
  jobId : String
  call : Nat
  deriving DecidableEq

abbrev ClaimCommand := Labelled Caller ItemCommand

abbrev ClaimJournal := Journaled Caller State

abbrev ClaimPool := Pool ClaimCommand (Except HandleError ClaimReply) ClaimJournal

variable (kind : Kind) (ids : List Value)

def ClaimCalls (_ : ClaimJournal)
    (prog : Program ClaimCommand (Except HandleError ClaimReply)) : Prop :=
  ∃ caller : Caller, prog = labelled caller (claim kind ids caller.jobId).run

def Elapses (s s' : State) : Prop := s'.store = s.store ∧ s.clock ≤ s'.clock

abbrev ClaimCondition := {β : Type} → ClaimCommand β → ClaimJournal → Prop

abbrev ClaimRun (collides : Document → Document → Bool) (allowed : ClaimCondition) (start : State) :
    ClaimPool → Prop :=
  Pool.Run
    (fun command j reply j' => allowed command j ∧
      Labelled.semantics (performs collides) command j reply j')
    (ClaimCalls kind ids) (Journaled.Outside Elapses) ⟨start, []⟩

/-- No document outside the slot has a candidate for its `_id`. -/
def Sole (slot : Nat) (s : State) : Prop :=
  ∀ slot' doc, s.store.collection.doc slot' = some doc → (idFilter ids).accepts doc = true →
    slot' = slot

def AtWork (jobId : String) (slot : Nat) (s : State) : Prop :=
  ∃ doc, s.store.collection.doc slot = some doc ∧ doc.get "claimedBy" = some (.str jobId) ∧
    kind.isActive doc = true ∧ hasStatus .queued doc = false ∧
    isStaleActive kind doc s.clock = false

/-- The command has written. Only a claiming write does, and its call returns `claimed`. -/
def Claims (event : Event Caller State) : Prop :=
  event.after.store.landed ≠ event.before.store.landed

def ClaimsApart (slot : Nat) (events : List (Event Caller State)) : Prop :=
  events.Pairwise fun event earlier => Claims event → Claims earlier →
    earlier.label.jobId ≠ event.label.jobId →
    ¬ AtWork kind earlier.label.jobId slot event.before

/-- Since a command of the caller at which no other job was at work on the item, no other job
has claimed it. -/
def Undisturbed (slot : Nat) (caller : Caller) (events : List (Event Caller State)) : Prop :=
  ∃ since look older, events = since ++ look :: older ∧ look.label = caller ∧
    (∀ jobId, jobId ≠ caller.jobId → ¬ AtWork kind jobId slot look.before) ∧
    ∀ event ∈ since, event.label.jobId ≠ caller.jobId → ¬ Claims event

def ClaimsUndisturbed (slot : Nat) : ClaimCondition := fun command j =>
  command.command.writes = true → Undisturbed kind slot command.label j.events

end AiBuddy.Mindmap
