import AiBuddy.EventPipeline.Events

/-!
# Canonical memory identity of notes

`services/conversation/event_pipeline/memory_identity.py`. A set of tokens is a list without
duplicates, a similarity an exact fraction.
-/

namespace AiBuddy.EventPipeline

open Conversation

variable (host : Host)

/-- `NOTE_RELATIONS`. -/
inductive MemoryRelation where
  | update
  | supersede
  | related
  | duplicate
  | distinct
  deriving DecidableEq

def MemoryRelation.text : MemoryRelation → String
  | .update => "UPDATE"
  | .supersede => "SUPERSEDE"
  | .related => "RELATED"
  | .duplicate => "DUPLICATE"
  | .distinct => "DISTINCT"

def subjectStop : List String := ["issue", "problem", "status", "update", "the", "a", "an"]

def updateMarkers : List String :=
  ["still", "again", "after", "now", "yet", "already", "changed", "updated", "remaining",
    "anymore", "longer", "phir", "wapas", "abhi"]

def memoryImportance (event : AtomicEvent) : String :=
  match event.memorySignal with
  | none => "LOW"
  | some signal =>
    let raw := upper (Text.strip (signal.importance.getD ""))
    if raw ∈ ["LOW", "MEDIUM", "HIGH"] then raw
    else if signal.isMemoryWorthy then "MEDIUM"
    else "LOW"

def eventIsMemoryCandidate (event : AtomicEvent) : Bool :=
  event.kind ≠ .noise && (event.memorySignal.isSome || event.kind.isMemory)

def eventIsPublishableMemory (event : AtomicEvent) : Bool :=
  eventIsMemoryCandidate event &&
    match event.memorySignal with
    | some signal => signal.isMemoryWorthy && memoryImportance event ≠ "LOW"
    | none => event.kind.isMemory

def sortedTexts (texts : List String) : List String := texts.insertionSort (· ≤ ·)

def subjectTokens (text : String) : List String :=
  ((contentTokens host text).map host.casefold).filter (· ∉ subjectStop)

def memorySubjectKey (event : AtomicEvent) : String :=
  let tokens := subjectTokens host (casefoldText host event.objectText)
  let entities := (event.entities.filter (· ≠ "")).map host.casefold
  if tokens ≠ [] then " ".intercalate (sortedTexts tokens.eraseDups)
  else if entities ≠ [] then " ".intercalate ((sortedTexts entities.eraseDups).take 4)
  else " ".intercalate ((sortedTexts (subjectTokens host event.meaning)).take 6)

def sameSubject (left right : AtomicEvent) : Bool :=
  let leftKey := memorySubjectKey host left
  let rightKey := memorySubjectKey host right
  let leftTokens := (Text.fields leftKey).eraseDups
  let rightTokens := (Text.fields rightKey).eraseDups
  let shared := leftTokens.filter (· ∈ rightTokens)
  (leftKey ≠ "" && leftKey = rightKey) ||
    (!shared.isEmpty && max 1 (min leftTokens.length rightTokens.length - 1) ≤ shared.length)

def isParaphrase (left right extraLeft extraRight : List String) (similarity : Rat) : Bool :=
  let few := fun extra : List String => (extra.filter fun token => 3 < token.length).length ≤ 2
  if left = [] ∨ right = [] then false
  else if (extraLeft ++ extraRight).any (· ∈ updateMarkers) then false
  else if 17 / 20 ≤ similarity then true
  else if extraLeft = [] ∧ extraRight = [] then true
  else if extraLeft = [] ∧ 9 / 20 ≤ similarity then few extraRight
  else if extraRight = [] ∧ 9 / 20 ≤ similarity then few extraLeft
  else false

def memoryRelation (incoming existing : AtomicEvent) : Option MemoryRelation :=
  let inTokens := tokenSet host incoming.meaning
  let exTokens := tokenSet host existing.meaning
  let extraIn := inTokens.filter (· ∉ exTokens)
  let extraEx := exTokens.filter (· ∉ inTokens)
  let marked := (extraIn ++ extraEx).any (· ∈ updateMarkers)
  let resolves := (incoming.kind = .result ∨ incoming.kind = .completion) ∧
    (existing.kind = .issue ∨ existing.kind = .state)
  if incoming.eventId = existing.eventId then some .duplicate
  else if sameSubject host incoming existing = false then none
  else if isParaphrase inTokens exTokens extraIn extraEx
      (tokenJaccard host incoming.meaning existing.meaning) ∧ marked = false then
    some .duplicate
  else if marked then if resolves then some .supersede else some .update
  else if resolves then some .supersede
  else if incoming.kind = .contradiction ∨ existing.kind = .contradiction then some .supersede
  else if incoming.kind ≠ existing.kind then some .update
  else if extraIn ≠ [] ∧ extraEx ≠ [] then some .distinct
  else if extraIn ≠ [] ∨ extraEx ≠ [] then
    if (extraIn ++ extraEx).any fun token => 3 < token.length && token ∉ updateMarkers then
      some .distinct
    else some .update
  else if incoming.threadId ≠ "" ∧ incoming.threadId = existing.threadId then some .related
  else some .distinct

def relationScore (incoming other : AtomicEvent) : Rat :=
  tokenJaccard host incoming.meaning other.meaning +
    if incoming.threadId ≠ "" ∧ incoming.threadId = other.threadId then 1 / 5 else 0

/-- `find_memory_relation(incoming, published)`. A published event is
given with its position. -/
def findMemoryRelation (incoming : AtomicEvent) (published : List (Nat × AtomicEvent)) :
    Option (MemoryRelation × Nat) :=
  (published.foldl (fun best other =>
    match memoryRelation host incoming other.2 with
    | none => best
    | some relation =>
      let score := relationScore host incoming other.2
      match best with
      | none => some (score, relation, other.1)
      | some (held, _) => if held < score then some (score, relation, other.1) else best)
    (none : Option (Rat × MemoryRelation × Nat))).map (·.2)

def MemoryDisposition.text : MemoryDisposition → String
  | .publishedNote => "PUBLISHED_NOTE"
  | .duplicate => "DUPLICATE"
  | .superseded => "SUPERSEDED"
  | .lowValue => "LOW_VALUE"
  | .unsupported => "UNSUPPORTED"
  | .relatedContextOnly => "RELATED_CONTEXT_ONLY"
  | .rejectedWithReason => "REJECTED_WITH_REASON"

def setMemoryDisposition (event : AtomicEvent) (disposition : MemoryDisposition)
    (reason : String) : AtomicEvent :=
  { event with
    memoryDisposition := some disposition
    memoryDispositionReason := orText reason disposition.text }

end AiBuddy.EventPipeline
