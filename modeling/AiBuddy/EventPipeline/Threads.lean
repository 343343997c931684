import AiBuddy.EventPipeline.Schemas

/-!
# Linking events to threads

`services/conversation/event_pipeline/threads.py:43` to `:230`. A thread is an object of the
source, so it is a position in the list of threads; its id is only a field. The answers of the
membership verifier are an arbitrary function of the number of the call and of what is asked.
-/

namespace AiBuddy.EventPipeline

structure ThreadSettings where
  topK : Nat
  candidateSimilarity : Rat
  entitylessMin : Rat

/-- `verifier.verify(event, thread, score, accepted, relation)`, by the number of the call. -/
abbrev Verifier :=
  Nat → AtomicEvent → GlobalThread → Rat → Bool → ThreadRelation → Bool × ThreadRelation

variable (host : Host) (settings : ThreadSettings) (verifier : Option Verifier)

/-- The smallest of `first` and the values. -/
def minOf (first : Int) (values : List Int) : Int := values.foldl min first

/-- The greatest of `first` and the values. -/
def maxOf (first : Int) (values : List Int) : Int := values.foldl max first

/-- `min(event.sequenceIds) if event.sequenceIds else 0`. -/
def AtomicEvent.firstSequence (event : AtomicEvent) : Int :=
  match event.sequenceIds with
  | [] => 0
  | first :: rest => minOf first rest

def weakThreadEntities : List String :=
  ["server", "connection", "issue", "problem", "id", "network", "setup", "app", "service", "system"]

def distinctiveEntityOverlap (left right : List String) : Rat :=
  let distinctive := fun items : List String =>
    ((items.filter (· ≠ "")).map host.casefold).filter (· ∉ weakThreadEntities) |>.eraseDups
  jaccard (distinctive left) (distinctive right)

/-- `embeddings.py:127`. -/
def topKSimilar {κ : Type} (query : List Rat) (candidates : List (κ × List Rat)) (k : Nat)
    (minScore : Rat) : List (κ × Rat) :=
  let scored := (candidates.map fun candidate =>
    (candidate.1, cosineSimilarity host query candidate.2)).filter fun item => minScore ≤ item.2
  (scored.insertionSort fun a b => b.2 ≤ a.2).take (max 1 k)

/-- `{thread.threadId: thread for thread in threads}[thread_id]`: the last thread of that id. -/
def threadAt (threads : List GlobalThread) (threadId : String) : Option Nat :=
  (List.range threads.length).reverse.find? fun i =>
    threads[i]?.any fun thread => thread.threadId = threadId

def candidateThreads (event : AtomicEvent) (threads : List GlobalThread) : List (Nat × Rat) :=
  let retrieved := topKSimilar host event.embedding
    (threads.map fun thread => (thread.threadId, thread.embedding)) settings.topK
    settings.candidateSimilarity
  let ranked := retrieved.filterMap fun (threadId, score) => do
    let i ← threadAt threads threadId
    let thread ← threads[i]?
    let entityScore := distinctiveEntityOverlap host event.entities thread.entities
    let objectScore := tokenJaccard host (orText event.objectText event.meaning) thread.label
    if entityScore ≤ 0 ∧ objectScore ≤ 0 ∧ score < settings.entitylessMin then none
    else some (i, 45 / 100 * score + 35 / 100 * entityScore + 2 / 10 * objectScore)
  (ranked.insertionSort fun a b => b.2 ≤ a.2).take settings.topK

def sameActionObject (event : AtomicEvent) (thread : GlobalThread) : Bool :=
  let left := Text.strip (orText event.objectText
    ((event.actionSignal.bind ActionSignal.object).getD ""))
  let right := Text.strip thread.label
  left ≠ "" && right ≠ "" && 1 / 2 ≤ tokenJaccard host left right

def relationByKind : EventKind → ThreadRelation
  | .completion => .completes
  | .cancellation => .cancels
  | .contradiction => .contradicts
  | _ => .sameThread

def validateMembership (event : AtomicEvent) (thread : GlobalThread) (score : Rat) :
    Bool × ThreadRelation :=
  let entities := distinctiveEntityOverlap host event.entities thread.entities
  let objects := tokenJaccard host event.objectText thread.label
  let meaning := cosineSimilarity host event.embedding thread.embedding
  let sameObject := 45 / 100 ≤ objects || sameActionObject host event thread
  let sameIssue := 34 / 100 ≤ entities && (2 / 10 ≤ objects || 55 / 100 ≤ meaning)
  let broadDomainOnly := (entities ≤ 0 || objects < 2 / 10) && 45 / 100 ≤ meaning && !sameObject
  if sameObject || sameIssue then
    match event.kind with
    | .state | .result | .fact | .issue =>
      (true, if 4 / 10 ≤ score then .updates else relationByKind event.kind)
    | kind => (true, relationByKind kind)
  else if broadDomainOnly || (62 / 100 ≤ score && (0 < entities || 0 < objects)) then
    (false, .relatedButDistinct)
  else (false, .unrelated)

def ambiguousMembership (event : AtomicEvent) (thread : GlobalThread) (score : Rat)
    (accepted : Bool) (relation : ThreadRelation) : Bool :=
  let entities := distinctiveEntityOverlap host event.entities thread.entities
  let objects := tokenJaccard host (orText event.objectText event.meaning) thread.label
  if relation = .relatedButDistinct ∨ relation = .unrelated then false
  else if accepted then false
  else (42 / 100 ≤ score && score < 78 / 100 && (0 < entities || 0 < objects)) ||
    (62 / 100 ≤ score && entities ≤ 0 && objects < 25 / 100)

/-- The three answers of `_semantic_relation`. -/
inductive Semantic where
  | sameThread
  | relatedButDistinct
  | unrelated
  deriving DecidableEq

def semanticRelation (relation : ThreadRelation) (accepted : Bool) : Semantic :=
  match relation with
  | .relatedButDistinct => .relatedButDistinct
  | .unrelated => .unrelated
  | .relatedTo => .relatedButDistinct
  | _ => if accepted then .sameThread else .unrelated

structure Choice where
  chosen : Option Nat := none
  relation : ThreadRelation := .sameThread
  bestScore : Rat := 0
  relatedEdges : List (Nat × ThreadRelation × Rat) := []
  asked : Nat

def membership (event : AtomicEvent) (thread : GlobalThread) (score : Rat) (asked : Nat) :
    (Bool × ThreadRelation) × Bool :=
  let first := validateMembership host event thread score
  match verifier with
  | none => (first, false)
  | some verify =>
    if ambiguousMembership host event thread score first.1 first.2 then
      (verify asked event thread score first.1 first.2, true)
    else (first, false)

/-- What an answer about a candidate changes, `:79` to `:88`. -/
def Choice.settle (choice : Choice) (i : Nat) (score : Rat) (answer : Bool × ThreadRelation) :
    Choice :=
  match semanticRelation answer.2 answer.1 with
  | .relatedButDistinct =>
    { choice with relatedEdges := choice.relatedEdges ++ [(i, answer.2, score)] }
  | .unrelated => choice
  | .sameThread =>
    if answer.1 ∧ choice.bestScore ≤ score then
      { choice with
        chosen := some i,
        relation := if answer.2 = .relatedTo then .sameThread else answer.2,
        bestScore := score }
    else choice

def considerThread (event : AtomicEvent) (threads : List GlobalThread) (choice : Choice)
    (candidate : Nat × Rat) : Choice :=
  match threads[candidate.1]? with
  | none => choice
  | some thread =>
    let found := membership host verifier event thread candidate.2 choice.asked
    { choice with asked := choice.asked + found.2.toNat }.settle candidate.1 candidate.2 found.1

def threadLabel (event : AtomicEvent) : String :=
  orText event.objectText (match event.entities with
    | entity :: _ => entity
    | [] => Text.take 80 event.meaning)

def newThreadId (event : AtomicEvent) : String :=
  stableId host "THREAD" [orText event.conversationId event.eventId, threadLabel event]

def newThread (event : AtomicEvent) : GlobalThread :=
  let last := match event.sequenceIds with
    | [] => 0
    | first :: rest => maxOf first rest
  { threadId := newThreadId host event
    label := threadLabel event
    eventIds := [event.eventId]
    entities := event.entities
    latestState := event.meaning
    sequenceStart := event.firstSequence
    sequenceEnd := last
    embedding := event.embedding }

def attach (thread : GlobalThread) (event : AtomicEvent) : GlobalThread :=
  let sequences := if event.sequenceIds = [] then [thread.sequenceEnd] else event.sequenceIds
  let mean := meanVector ([thread.embedding, event.embedding].filter (· ≠ []))
  { thread with
    eventIds := if event.eventId ∈ thread.eventIds then thread.eventIds
      else thread.eventIds ++ [event.eventId]
    entities := event.entities.foldl (fun entities entity =>
      if host.casefold entity ∈ entities.map host.casefold then entities
      else entities ++ [entity]) thread.entities
    sequenceStart := minOf thread.sequenceStart sequences
    sequenceEnd := maxOf thread.sequenceEnd sequences
    latestState := event.meaning
    embedding := if mean = [] then thread.embedding else mean }

/-- The local variables of `link_global_threads`. -/
structure Linking where
  threads : List GlobalThread := []
  links : List ThreadLink := []
  comparisons : Nat := 0
  asked : Nat := 0
  /-- The events linked so far, each with its thread. -/
  events : List AtomicEvent := []
  deriving DecidableEq

def Linking.choose (s : Linking) (event : AtomicEvent) : Choice :=
  (candidateThreads host settings event s.threads).foldl
    (considerThread host verifier event s.threads) { asked := s.asked }

/-- The edges to the threads that are only related, `:105` to `:113`. -/
def relatedLinks (event : AtomicEvent) (threads : List GlobalThread)
    (edges : List (Nat × ThreadRelation × Rat)) : List ThreadLink :=
  edges.filterMap fun (i, relation, score) => do
    let thread ← threads[i]?
    some {
      fromEventId := thread.eventIds.getLast?.getD event.eventId
      toEventId := event.eventId
      relation := if relation = .relatedTo then .relatedButDistinct else relation
      score := score
      crossWindow := true }

/-- The edge to the thread an event joins, `:94` to `:104`. -/
def joinLink (event : AtomicEvent) (thread : GlobalThread) (choice : Choice) : List ThreadLink :=
  match thread.eventIds.reverse with
  | [] => []
  | last :: rest =>
    [{  fromEventId := rest.head?.getD last
        toEventId := event.eventId
        relation := choice.relation
        score := choice.bestScore
        crossWindow := 8 ≤ (event.firstSequence - thread.sequenceStart).natAbs }]

def Linking.found (s : Linking) (event : AtomicEvent) (choice : Choice) : Linking :=
  let threads := s.threads ++ [newThread host event]
  { s with
    threads := threads
    links := s.links ++ relatedLinks event threads choice.relatedEdges
    asked := choice.asked
    events := s.events ++ [{ event with threadId := newThreadId host event }] }

def Linking.join (s : Linking) (event : AtomicEvent) (choice : Choice) (i : Nat)
    (thread : GlobalThread) : Linking :=
  let joined := attach host thread event
  let threads := s.threads.set i joined
  { s with
    threads := threads
    links := s.links ++ joinLink event joined choice ++
      relatedLinks event threads choice.relatedEdges
    asked := choice.asked
    events := s.events ++ [{ event with threadId := thread.threadId }] }

def Linking.link (s : Linking) (event : AtomicEvent) : Linking :=
  let choice := s.choose host settings verifier event
  let counted := { s with
    comparisons := s.comparisons +
      if s.threads.length ≤ settings.topK then max s.threads.length 1 else settings.topK }
  match choice.chosen.bind fun i => s.threads[i]?.map (i, ·) with
  | none => counted.found host event choice
  | some (i, thread) => counted.join host event choice i thread

/-- The events of `ordered`, linked in that order. -/
def linkOrdered (ordered : List AtomicEvent) : Linking :=
  ordered.foldl (Linking.link host settings verifier) {}

/-- The embeddings that the events lack, in their order, and their entities. `none` where the
embedder gave too few. -/
def fillEmbeddings : List (List Rat) → List AtomicEvent → Option (List AtomicEvent)
  | _, [] => some []
  | vectors, event :: events => do
    let entities := if event.entities ≠ [] then event.entities
      else extractEntities host (" ".intercalate
        [event.meaning, event.objectText, " ".intercalate (event.evidence.map (·.text))])
    if event.embedding ≠ [] then
      let filled ← fillEmbeddings vectors events
      some ({ event with entities := entities } :: filled)
    else
      match vectors with
      | [] => none
      | vector :: rest =>
        let filled ← fillEmbeddings rest events
        some ({ event with embedding := vector, entities := entities } :: filled)

/-- The events as the linker reads them, `:52` to `:60`. -/
def embedded (embed : List String → List (List Rat)) (events : List AtomicEvent) :
    Option (List AtomicEvent) :=
  let missing := (events.filter (·.embedding = [])).map AtomicEvent.meaning
  if missing = [] then some events else fillEmbeddings host (embed missing) events

def eventBefore (a b : AtomicEvent) : Prop :=
  a.firstSequence < b.firstSequence ∨
    a.firstSequence = b.firstSequence ∧ a.eventId ≤ b.eventId

instance (a b : AtomicEvent) : Decidable (eventBefore a b) := by
  unfold eventBefore
  infer_instance

def linkGlobalThreads (embed : List String → List (List Rat)) (events : List AtomicEvent) :
    Option Linking :=
  (embedded host embed events).map fun events =>
    linkOrdered host settings verifier (events.insertionSort eventBefore)

end AiBuddy.EventPipeline
