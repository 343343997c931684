import Mathlib.Algebra.Ring.Nat
import AiBuddy.Conversation.ChunkOperations

/-!
# Windows over a transcript (`services/conversation/windowing.py`)

The windows that can be closed over a list of completed chunks. The settings are numbers of at
least zero, by their bounds. The tokenizer is a parameter, which answers with none where it is
not installed or fails, and so is `str.lower`, which may change the length of a text.
-/

namespace AiBuddy.Conversation.Session

theorem map_toLower_nil : List.map Char.toLower [] = [] := rfl

/-- What windowing and finalization read of `settings`, and the tokenizer. -/
structure Settings where
  workerMaxRetries : Nat := 5
  enableIncrementalMeetingProcessing : Bool := true
  enableMeetingPipeline : Bool := true
  semanticWindowMaxTranscriptTokens : Nat := 22000
  incrementalWindowTargetTokens : Nat := 22000
  incrementalWindowMaxTokens : Nat := 28000
  incrementalWindowOverlapTokens : Nat := 200
  /-- `int(semantic_window_token_target() * settings.INCREMENTAL_WINDOW_OVERLAP_RATIO)`. -/
  overlapRatioTokens : Nat := 440
  incrementalWindowMaxDurationMs : Nat := 3600000
  semanticWindowUsefulDurationMs : Nat := 3600000
  sparseWindowMaxWallClockMs : Nat := 0
  sparseWindowMinUsefulTokens : Nat := 4
  largestRoutableInputBudget : Nat := 28000
  windowProcessingStaleTimeoutSeconds : Nat := 180
  sttProcessingStaleTimeoutSeconds : Nat := 300
  finalizationMissingSequenceTimeoutSeconds : Nat := 900
  meetingExtensionMissingSequenceTimeoutSeconds : Nat := 45
  encode : String → Option Nat := fun _ => none
  lower : List Char → List Char := List.map Char.toLower
  lower_nil : lower [] = [] := by exact map_toLower_nil

namespace Settings

variable (settings : Settings)

/-- `budget.py:34`. -/
def semanticWindowTokenTarget : Nat :=
  min settings.semanticWindowMaxTranscriptTokens settings.incrementalWindowTargetTokens

/-- `budget.py:42`. -/
def semanticWindowTokenMax : Nat :=
  max settings.semanticWindowTokenTarget
    (min (max settings.incrementalWindowMaxTokens settings.semanticWindowTokenTarget)
      settings.largestRoutableInputBudget)

/-- `semantic_window_useful_duration_ms()`, `budget.py:49`. -/
def usefulDurationLimit : Nat :=
  min settings.semanticWindowUsefulDurationMs settings.incrementalWindowMaxDurationMs

def overlapTokenBudget : Nat :=
  max settings.incrementalWindowOverlapTokens settings.overlapRatioTokens

/-- `transcript.py:60`. -/
def estimateTokens (text : String) : Nat :=
  if Text.strip text = "" then 0
  else
    match settings.encode text with
    | some tokens => max 1 tokens
    | none => max (Text.fields text).length (max 1 ((text.toList.length + 3) / 4))

end Settings

/-- The first size of an overlap that the previous text ends with, `transcript.py:51`, counting
down to 8. -/
def overlapSize (lowered previousTail : List Char) : Nat → Option Nat
  | 0 => none
  | size + 1 =>
    if size + 1 < 8 then none
    else if lowered.take (size + 1) ≠ [] ∧ lowered.take (size + 1) <:+: previousTail then
      some (size + 1)
    else overlapSize lowered previousTail size

/-- The last characters that `previous_text[-120:]` keeps. -/
def previousTail (previousText : String) : List Char :=
  previousText.toList.drop (previousText.toList.length - 120)

/-- `transcript.py:43`. -/
def normalizeChunkText (lower : List Char → List Char) (text previousText : String) : String :=
  let text := (Text.strip (Text.collapseSpaces text)).toList
  match overlapSize (lower text) (lower (previousTail previousText)) (min 80 text.length) with
  | some size => .ofList ((text.drop size).dropWhile fun c => c ∈ [' ', ',', '.', '-'])
  | none => .ofList text

def line (chunk : Chunk) (text : String) : String :=
  "[" ++ toString chunk.sequenceNumber ++ "] " ++ text

def windowLines (lower : List Char → List Char) : String → List Chunk → List String
  | _, [] => []
  | previous, chunk :: rest =>
    let text := normalizeChunkText lower chunk.usefulText previous
    if chunk.usefulText = "" ∨ text = "" then windowLines lower previous rest
    else line chunk text :: windowLines lower text rest

def windowText (lower : List Char → List Char) (chunks : List Chunk) : String :=
  Text.strip (String.intercalate "\n" (windowLines lower "" chunks))

def lastUsefulText (lower : List Char → List Char) (chunks : List Chunk) : String :=
  match chunks.reverse.find? Chunk.useful with
  | some chunk => normalizeChunkText lower chunk.usefulText ""
  | none => ""

def usefulTokenCount (settings : Settings) (chunks : List Chunk) : Nat :=
  settings.estimateTokens (windowText settings.lower chunks)

/-- The loop of `_tail_chunks`, over the useful chunks from the last. -/
def tailFrom (settings : Settings) (tokenBudget : Nat) : Nat → List Chunk → List Chunk → List Chunk
  | _, tail, [] => tail
  | tokenTotal, tail, chunk :: rest =>
    let total := tokenTotal + settings.estimateTokens chunk.usefulText
    if total ≥ tokenBudget then chunk :: tail
    else tailFrom settings tokenBudget total (chunk :: tail) rest

def tailChunks (settings : Settings) (chunks : List Chunk) (tokenBudget : Nat) : List Chunk :=
  let useful := chunks.filter Chunk.useful
  if tokenBudget = 0 ∨ useful = [] then []
  else tailFrom settings tokenBudget 0 [] useful.reverse

def ordered (chunks : List Chunk) : List Chunk := Keyed.sort Chunk.sequenceNumber chunks

/-- The loop of `_reachable_semantic_prefix`, for some sequence numbers from
`expected` on. The dictionary `by_sequence` keeps the last chunk of a sequence number. -/
def reachableFrom (chunks : List Chunk) (skippable : List Nat) : Nat → Nat → List Chunk
  | 0, _ => []
  | count + 1, expected =>
    match Keyed.find? Chunk.sequenceNumber expected chunks.reverse with
    | some chunk => chunk :: reachableFrom chunks skippable count (expected + 1)
    | none =>
      if expected ∈ skippable then reachableFrom chunks skippable count (expected + 1) else []

def reachableSemanticPrefix (chunks : List Chunk) (skippable : List Nat) : List Chunk :=
  let sequences := (ordered chunks).map Chunk.sequenceNumber
  let start := sequences.headD 0
  reachableFrom (ordered chunks) skippable
    (if chunks = [] then 0 else sequences.getLastD 0 + 1 - start) start

def leadingSkippableSequences (chunks : List Chunk) (skippable : List Nat) : List Nat :=
  ((reachableSemanticPrefix (ordered chunks) skippable).takeWhile fun chunk => !chunk.useful).map
    Chunk.sequenceNumber

def uniqueFrom : List Nat → List Chunk → List Chunk
  | _, [] => []
  | seen, chunk :: rest =>
    if chunk.sequenceNumber ∈ seen then uniqueFrom seen rest
    else chunk :: uniqueFrom (chunk.sequenceNumber :: seen) rest

def orderedUnique (chunks : List Chunk) : List Chunk := uniqueFrom [] (ordered chunks)

/-- The reasons to close a window, `:15`. -/
inductive CloseReason where
  | tokenTarget
  | tokenMax
  | durationMax
  | sparseTimeout
  | forcedFinal
  deriving DecidableEq

def CloseReason.value : CloseReason → String
  | tokenTarget => "token_target"
  | tokenMax => "token_max"
  | durationMax => "duration_max"
  | sparseTimeout => "sparse_timeout"
  | forcedFinal => "forced_final"

structure BuiltWindow where
  window : Window
  sequenceNumbers : List Nat
  ownedSequenceNumbers : List Nat
  skippedSequenceNumbers : List Nat
  closeReason : CloseReason

structure Building where
  windows : List BuiltWindow := []
  overlapIds : List Nat
  current : List Chunk
  skippedInCurrent : List Nat := []
  currentTokens : Nat
  currentUsefulDuration : Nat
  currentWallClock : Nat
  previousText : String
  index : Nat
  pendingEmpties : List Chunk := []

def totalDuration (chunks : List Chunk) : Nat := (chunks.map Chunk.durationMs).sum

def positive (value : Nat) : Option Nat := if value = 0 then none else some value

/-- `any(item.sequenceNumber not in overlap_ids for item in current if is_useful_chunk(item))`. -/
def Building.ownedExists (building : Building) : Bool :=
  building.current.any fun chunk => chunk.useful && chunk.sequenceNumber ∉ building.overlapIds

def Building.owned (building : Building) : List Nat :=
  ((building.current.filter Chunk.useful).map Chunk.sequenceNumber).filter
    (· ∉ building.overlapIds)

/-- The window of `flush`. -/
def Building.close (settings : Settings) (conversation : ConversationDocument) (building : Building)
    (reason : CloseReason) (finalPartial : Bool) (tail : List Chunk) : BuiltWindow :=
  let useful := building.current.filter Chunk.useful
  let text := windowText settings.lower useful
  let sequenceNumbers := useful.map Chunk.sequenceNumber
  { window :=
      { processingVersion := conversation.processingVersion
        windowIndex := building.index
        sequenceStart := sequenceNumbers.headD 0
        sequenceEnd := sequenceNumbers.getLastD 0
        text
        tokenCount := settings.estimateTokens text
        durationMs := positive building.currentUsefulDuration
        overlapSequenceStart := tail.head?.map Chunk.sequenceNumber
        isFinalPartial := finalPartial
        closeReason := reason.value
        sequenceCount := sequenceNumbers.length + building.skippedInCurrent.length
        emptyChunkCount := building.skippedInCurrent.length
        nonEmptyChunkCount := useful.length
        usefulCharCount := text.toList.length
        usefulWordCount := (Text.fields text).length
        usefulTokenCount := settings.estimateTokens text
        wallClockSpanMs := positive building.currentWallClock
        meaningfulSpeechMs := positive building.currentUsefulDuration }
    sequenceNumbers
    ownedSequenceNumbers := building.owned
    skippedSequenceNumbers := building.skippedInCurrent
    closeReason := reason }

def Building.flush (settings : Settings) (conversation : ConversationDocument) (building : Building)
    (reason : CloseReason) (finalPartial : Bool) : Building :=
  let useful := building.current.filter Chunk.useful
  if useful = [] then
    { building with
      current := []
      skippedInCurrent := []
      currentTokens := 0
      currentUsefulDuration := 0
      currentWallClock := 0
      previousText := "" }
  else if building.owned = [] then building
  else
    let tail := if finalPartial then [] else tailChunks settings useful settings.overlapTokenBudget
    { building with
      windows := building.windows ++
        [building.close settings conversation reason finalPartial tail]
      index := building.index + 1
      current := tail
      overlapIds := tail.map Chunk.sequenceNumber
      skippedInCurrent := []
      currentTokens := usefulTokenCount settings tail
      currentUsefulDuration := totalDuration tail
      currentWallClock := totalDuration tail
      previousText := lastUsefulText settings.lower tail }

/-- Why the window is closed before a chunk of some tokens, `:155`. -/
def Building.reason? (settings : Settings) (building : Building) (tokens usefulDuration : Nat) :
    Option CloseReason :=
  let target := settings.semanticWindowTokenTarget
  let maximum := max settings.semanticWindowTokenMax target
  let wallAdd := totalDuration building.pendingEmpties + usefulDuration
  if building.ownedExists && building.currentTokens + tokens > maximum then some .tokenMax
  else if building.ownedExists && building.currentTokens + tokens > target then some .tokenTarget
  else if building.ownedExists && settings.usefulDurationLimit > 0 &&
      building.currentUsefulDuration + usefulDuration > settings.usefulDurationLimit then
    some .durationMax
  else if building.ownedExists && settings.sparseWindowMaxWallClockMs > 0 &&
      building.currentTokens ≥ settings.sparseWindowMinUsefulTokens &&
      building.currentWallClock + wallAdd > settings.sparseWindowMaxWallClockMs then
    some .sparseTimeout
  else none

def Building.takeEmpties (building : Building) : Building :=
  { building with
    skippedInCurrent :=
      building.skippedInCurrent ++ building.pendingEmpties.map Chunk.sequenceNumber
    currentWallClock := building.currentWallClock + totalDuration building.pendingEmpties
    pendingEmpties := [] }

def Building.append (building : Building) (chunk : Chunk) (text : String) (tokens : Nat) :
    Building :=
  { building with
    current := building.current ++ [chunk]
    currentTokens := building.currentTokens + tokens
    currentUsefulDuration := building.currentUsefulDuration + chunk.durationMs
    currentWallClock := building.currentWallClock + chunk.durationMs
    previousText := text }

/-- The body of the loop of `build_ready_windows`. -/
def Building.step (settings : Settings) (conversation : ConversationDocument) (building : Building)
    (chunk : Chunk) : Building :=
  if chunk.useful then
    let text := normalizeChunkText settings.lower chunk.usefulText building.previousText
    let tokens := settings.estimateTokens (line chunk text)
    let building :=
      match building.reason? settings tokens chunk.durationMs with
      | some reason => building.flush settings conversation reason false
      | none => building
    building.takeEmpties.append chunk text tokens
  else { building with pendingEmpties := building.pendingEmpties ++ [chunk] }

def Building.finish (settings : Settings) (conversation : ConversationDocument)
    (building : Building) (forceFinal : Bool) : Building :=
  if building.ownedExists then
    let building := building.takeEmpties
    if forceFinal || building.currentTokens ≥ settings.semanticWindowTokenTarget then
      building.flush settings conversation (if forceFinal then .forcedFinal else .tokenTarget)
        forceFinal
    else if building.currentTokens ≥ settings.sparseWindowMinUsefulTokens &&
        settings.sparseWindowMaxWallClockMs > 0 &&
        building.currentWallClock ≥ settings.sparseWindowMaxWallClockMs then
      building.flush settings conversation .sparseTimeout false
    else building
  else building

def Building.start (settings : Settings) (overlapChunks : List Chunk) (startIndex : Nat) :
    Building where
  overlapIds := overlapChunks.map Chunk.sequenceNumber
  current := overlapChunks
  currentTokens := usefulTokenCount settings overlapChunks
  currentUsefulDuration := totalDuration overlapChunks
  currentWallClock := totalDuration overlapChunks
  previousText := lastUsefulText settings.lower overlapChunks
  index := startIndex

def buildReadyWindows (settings : Settings) (conversation : ConversationDocument)
    (chunks : List Chunk) (startIndex : Nat) (forceFinal : Bool) (overlapPrefix : List Chunk)
    (skippable : List Nat) : List BuiltWindow :=
  let overlapChunks := (orderedUnique overlapPrefix).filter Chunk.useful
  let reachable := reachableSemanticPrefix (ordered chunks) skippable
  if reachable = [] then []
  else
    let building := reachable.foldl (Building.step settings conversation)
      (Building.start settings overlapChunks startIndex)
    (building.finish settings conversation forceFinal).windows

end AiBuddy.Conversation.Session
