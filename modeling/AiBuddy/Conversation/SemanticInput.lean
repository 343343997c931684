import AiBuddy.Misc.Words
import AiBuddy.Conversation.Windowing

/-!
# The transcript that a model is given (`services/conversation/semantic_input.py`)

Which persisted chunks go into the input of a window or of a whole meeting, what is counted of the
others, and which sequence numbers a text names line by line. `str.casefold` is a parameter, and a
digit is one of ASCII. The lists of an extraction result are given by their lengths, and the
counters that repeat another counter are left out.
-/

namespace AiBuddy.Conversation.SemanticInput

open Session

/-- `TranscriptChunkDocument`, with the text of its `conversationId`. -/
structure PersistedChunk extends Chunk where
  conversationId : String

/-- `WindowExtractionResult`, `models.py:413`, as far as checkpoints read it. -/
structure WindowResult where
  summary : String := ""
  importantFacts : Nat := 0
  semanticUnits : Nat := 0
  tasks : Nat := 0
  notes : Nat := 0
  decisions : Nat := 0
  issues : Nat := 0
  isCheckpoint : Bool := false

/-- `ConversationWindowDocument`, `models.py:431`, as far as the input is made from it. -/
structure SemanticWindow where
  id : String
  windowIndex : Nat
  sequenceStart : Nat
  sequenceEnd : Nat
  text : String
  isFinalPartial : Bool := false
  extractionSkipped : Bool := false
  checkpointKind : Option String := none
  status : WindowProcessingStatus := .pending
  result : Option WindowResult := none

/-- What `_LINE_RE` reads after the opening bracket. -/
def numberedText (rest : List Char) : Option (Nat × List (List Char)) :=
  match rest.takeWhile Char.isDigit, rest.dropWhile Char.isDigit with
  | digit :: digits, ']' :: text =>
    some (Nat.ofDigitChars 10 (digit :: digits) 0, Text.wordsOf text)
  | _, _ => none

/-- `_LINE_RE`, with the words of its text. -/
def markedLine (line : List Char) : Option (Nat × List (List Char)) :=
  match line.dropWhile Text.isSpace with
  | '[' :: rest => numberedText rest
  | _ => none

/-- One turn of the loop of `parsed_semantic_sequences`. -/
def parsedLine (line : String) : Option (Nat × String) :=
  match markedLine line.toList with
  | some (sequence, words) =>
    if words = [] then none else some (sequence, .ofList (Text.joinWords words))
  | none => none

/-- The entries of the dictionary `parsed_semantic_sequences(window_text)`. -/
def parsedSemanticSequences (windowText : String) : List (Nat × String) :=
  ((Text.splitLines windowText).filterMap parsedLine).foldl
    (fun transcript entry => Keyed.replaceOrAppend Prod.fst entry transcript) []

/-- `_ALLOWED_REJECTION_REASONS`. -/
inductive RejectionReason where
  | wrongConversation
  | outsideWindowRange
  | emptyText
  | sttFailed
  | damaged
  | duplicateSequence
  | invalidSequence
  deriving DecidableEq

def allowedRejectionReasons : List RejectionReason :=
  [.wrongConversation, .outsideWindowRange, .emptyText, .sttFailed, .damaged, .duplicateSequence,
    .invalidSequence]

variable (casefold : String → String)

def technicalExclusionReason (chunk : Chunk) : Option RejectionReason :=
  if chunk.sttStatus = .failed then some .sttFailed
  else if chunk.excluded && !Text.contains "empty" (casefold (chunk.exclusionReason.getD "")) &&
      !chunk.useful then some .damaged
  else if chunk.sttStatus ≠ .completed then
    if chunk.useful then some .sttFailed else some .emptyText
  else if !chunk.useful then some .emptyText
  else none

def inRange (sequence : Nat) (start stop : Option Int) : Bool :=
  if start.any fun bound => (sequence : Int) < bound then false
  else if stop.any fun bound => bound < (sequence : Int) then false
  else true

def sameConversation (chunkConversationId conversationId : String) : Bool :=
  if conversationId = "" then true else chunkConversationId = conversationId

/-- The windows of which `_checkpoint_owned_sequences`, takes the range. -/
def SemanticWindow.ownsRange (window : SemanticWindow) : Bool :=
  !window.isFinalPartial && !window.extractionSkipped &&
    window.checkpointKind.getD "" ≠ "raw_final" && window.status = .completed &&
    window.result.any fun result =>
      result.isCheckpoint || result.semanticUnits ≠ 0 || result.tasks ≠ 0 || result.notes ≠ 0

/-- `sequence in _checkpoint_owned_sequences(windows)`. -/
def checkpointOwned (windows : List SemanticWindow) (sequence : Nat) : Bool :=
  windows.any fun window =>
    window.ownsRange && window.sequenceStart ≤ sequence && sequence ≤ window.sequenceEnd

/-- `workflow.py:1222`. -/
def isCompletedCheckpoint (window : SemanticWindow) : Bool :=
  if window.isFinalPartial || window.extractionSkipped then false
  else if window.status ≠ .completed then false
  else
    window.result.any fun result =>
      result.isCheckpoint || result.semanticUnits ≠ 0 || result.tasks ≠ 0 || result.notes ≠ 0 ||
        result.decisions ≠ 0 || result.issues ≠ 0 || result.importantFacts ≠ 0 ||
        result.summary ≠ ""

/-- What `mode` is compared with. -/
inductive Mode where
  | finalRaw
  | leftover
  | windowRange
  | other
  deriving DecidableEq

def SemanticWindow.before (window other : SemanticWindow) : Bool :=
  window.sequenceStart < other.sequenceStart ||
    (window.sequenceStart = other.sequenceStart && window.windowIndex ≤ other.windowIndex)

/-- The candidates of `_durable_window_text`. -/
def isCandidate (mode : Mode) (window : SemanticWindow) : Bool :=
  mode = .windowRange || window.isFinalPartial || window.extractionSkipped ||
    window.checkpointKind.getD "" = "raw_final" ||
    (mode = .finalRaw &&
      !(window.ownsRange && window.sequenceStart ≤ window.sequenceEnd))

/-- The text of `_durable_window_text(windows, mode, useful_sequences)`. -/
def durableWindowText (windows : List SemanticWindow) (mode : Mode) (usefulSequences : List Nat) :
    String :=
  let texts := ((windows.filter (isCandidate mode)).mergeSort SemanticWindow.before).filterMap
    fun window =>
      let text := Text.strip window.text
      let sequences := (parsedSemanticSequences text).map Prod.fst
      if sequences = [] then none
      else if usefulSequences ≠ [] ∧ ∀ sequence ∈ sequences, sequence ∉ usefulSequences then none
      else some text
  Text.strip (String.intercalate "\n" texts)

def coveringWindow (windows : List SemanticWindow) (start stop : Int) : Option SemanticWindow :=
  match windows.find? fun window => window.sequenceStart ≤ start ∧ stop ≤ window.sequenceEnd with
  | some window => some window
  | none => windows.head?

/-- The arguments of `assemble_semantic_window_input`, but the chunks. -/
structure Request where
  conversationId : String
  windows : List SemanticWindow := []
  sequenceStart : Option Int := none
  sequenceEnd : Option Int := none
  mode : Mode := .finalRaw

/-- `checkpoint_owned`, which is empty but in one mode. -/
def Request.owned (request : Request) (sequence : Nat) : Bool :=
  request.mode = .leftover && checkpointOwned request.windows sequence

/-- The variables of the loop over the chunks, `:107`. -/
structure Counting where
  rejectionCounts : RejectionReason → Nat := fun _ => 0
  conversationMatched : Nat := 0
  windowMatched : Nat := 0
  seen : List Nat := []
  useful : List PersistedChunk := []

def Counting.reject (counting : Counting) (reason : RejectionReason) : Counting :=
  { counting with
    rejectionCounts := fun other =>
      if other = reason then counting.rejectionCounts other + 1
      else counting.rejectionCounts other }

def Counting.step (request : Request) (counting : Counting) (chunk : PersistedChunk) : Counting :=
  if request.conversationId ≠ "" ∧
      sameConversation chunk.conversationId request.conversationId = false then
    counting.reject .wrongConversation
  else
    let counting := { counting with conversationMatched := counting.conversationMatched + 1 }
    if inRange chunk.sequenceNumber request.sequenceStart request.sequenceEnd = false ∨
        request.owned chunk.sequenceNumber = true then
      counting.reject .outsideWindowRange
    else
      let counting := { counting with windowMatched := counting.windowMatched + 1 }
      if chunk.sequenceNumber ∈ counting.seen then counting.reject .duplicateSequence
      else
        match technicalExclusionReason casefold chunk.toChunk with
        | some reason => counting.reject reason
        | none =>
          { counting with
            seen := chunk.sequenceNumber :: counting.seen
            useful := counting.useful ++ [chunk] }

/-- `SemanticWindowAssembly`, with the diagnostics. -/
structure SemanticWindowAssembly where
  text : String
  sequenceStart : Int
  sequenceEnd : Int
  sourceWindow : Option SemanticWindow
  failed : Bool
  persistedTranscriptCount : Nat
  persistedNonEmptyTranscriptCount : Nat
  persistedSequenceNumbers : List Nat
  conversationMatchedCount : Nat
  windowMatchedCount : Nat
  expectedSequenceCount : Int
  rejectionCounts : RejectionReason → Nat
  usefulTranscriptCount : Nat
  usefulSequenceNumbers : List Nat
  semanticInputTranscriptCount : Nat
  semanticInputCharacterCount : Nat
  semanticInputEstimatedTokens : Nat

def completedNonEmpty (chunk : Chunk) : Bool := chunk.useful && chunk.sttStatus = .completed

def eligible (request : Request) (chunk : PersistedChunk) : Bool :=
  sameConversation chunk.conversationId request.conversationId &&
    completedNonEmpty chunk.toChunk && !request.owned chunk.sequenceNumber &&
    inRange chunk.sequenceNumber request.sequenceStart request.sequenceEnd

def inputText (settings : Settings) (request : Request) (useful : List PersistedChunk) : String :=
  let text := windowText settings.lower (useful.map PersistedChunk.toChunk)
  if text = "" then
    let durable := durableWindowText request.windows request.mode
      (useful.map fun chunk => chunk.sequenceNumber)
    if parsedSemanticSequences durable = [] then text else durable
  else text

def sortedChunks (chunks : List PersistedChunk) : List PersistedChunk :=
  Keyed.sort (fun chunk => chunk.sequenceNumber) chunks

def assembleSemanticWindowInput (settings : Settings) (request : Request)
    (chunks : List PersistedChunk) : SemanticWindowAssembly :=
  let ordered := sortedChunks chunks
  let counting := ordered.foldl (Counting.step casefold request) {}
  let useful := sortedChunks counting.useful
  let usefulSequences : List Nat := useful.map fun chunk => chunk.sequenceNumber
  let text := inputText settings request useful
  let start : Int := match usefulSequences.min? with
    | some first => first
    | none => request.sequenceStart.getD 0
  let stop : Int := match usefulSequences.max? with
    | some last => last
    | none => request.sequenceEnd.getD start
  { text
    sequenceStart := start
    sequenceEnd := stop
    sourceWindow := coveringWindow request.windows start stop
    failed := ordered.any (eligible request) && usefulSequences = []
    persistedTranscriptCount := ordered.length
    persistedNonEmptyTranscriptCount :=
      (ordered.filter fun chunk => completedNonEmpty chunk.toChunk).length
    persistedSequenceNumbers := ordered.map fun chunk => chunk.sequenceNumber
    conversationMatchedCount := counting.conversationMatched
    windowMatchedCount := counting.windowMatched
    expectedSequenceCount :=
      if usefulSequences ≠ [] ∨ request.sequenceStart.isSome then stop - start + 1 else 0
    rejectionCounts := counting.rejectionCounts
    usefulTranscriptCount := useful.length
    usefulSequenceNumbers := usefulSequences
    semanticInputTranscriptCount := (parsedSemanticSequences text).length
    semanticInputCharacterCount := text.toList.length
    semanticInputEstimatedTokens := settings.estimateTokens text }

end AiBuddy.Conversation.SemanticInput
