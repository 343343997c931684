import AiBuddy.Conversation.Windowing
import AiBuddy.EventPipeline.Schemas

/-!
# Micro-blocks (`services/conversation/event_pipeline/microblocks.py`)

A record comes with its vector. The scores of pairs are an argument of `buildMicroBlocks`;
`pairScore` is the one of the source, with exact fractions for its floats.
-/

namespace AiBuddy.EventPipeline

open Conversation.Session (Settings)

structure CleanedTranscriptRecord where
  sequenceId : Int
  sourceId : String
  speaker : Option String := none
  rawText : String
  timestampMs : Option Int := none
  sessionId : String

structure Turn extends CleanedTranscriptRecord where
  vector : List Rat := []

structure MicroblockSettings where
  minTurns : Int := 2
  maxTurns : Int := 5
  minTokens : Int := 250
  maxTokens : Int := 500
  topicBreakThreshold : Rat := 34 / 100

namespace MicroblockSettings

variable (settings : MicroblockSettings)

def hardBreakThreshold : Rat := min (28 / 100) settings.topicBreakThreshold

def entityBreakThreshold : Rat := max settings.topicBreakThreshold (62 / 100)

/-- The score from which a closed block hands no record on, `:72`. -/
def overlapThreshold : Rat := max (55 / 100) (settings.topicBreakThreshold + 20 / 100)

end MicroblockSettings

/-- A `MicroBlock` with all that `_block_from_indices` stores. -/
structure BuiltBlock extends MicroBlock where
  sequenceStart : Int
  sequenceEnd : Int
  tokenCount : Nat
  embedding : List Rat
  overlapSequenceIds : List Int
  speakerIds : List String

variable (host : Host) (tokenizer : Settings)

/-- `textutil.py:43`. -/
def tokenCount (text : String) : Nat :=
  if normalizeText text = "" then 0 else tokenizer.estimateTokens (normalizeText text)

/-- `textutil.py:85`. -/
def entityOverlap (left right : List String) : Rat :=
  jaccard ((left.filter (· ≠ "")).map host.casefold).eraseDups
    ((right.filter (· ≠ "")).map host.casefold).eraseDups

def timeScore (leftMs rightMs : Option Int) : Rat :=
  match leftMs, rightMs with
  | some left, some right =>
    let gap := (right - left).natAbs
    if gap ≤ 15000 then 1 else if 180000 ≤ gap then 0 else max 0 (1 - gap / 180000)
  | _, _ => 1 / 2

def pairScore (left right : Turn) : Rat :=
  let semantic := cosineSimilarity host left.vector right.vector
  let adjacency : Rat :=
    if right.sequenceId - left.sequenceId ≤ 2 then 1
    else max 0 (1 - (right.sequenceId - left.sequenceId : Int) / 8)
  let speakerScore : Rat :=
    if left.speaker.getD "" ≠ "" ∧ left.speaker = right.speaker then 1 else 45 / 100
  let entities :=
    entityOverlap host (extractEntities host left.rawText) (extractEntities host right.rawText)
  let shortFollow : Rat := if tokenCount tokenizer right.rawText ≤ 18 then 1 else 0
  38 / 100 * semantic + 22 / 100 * adjacency +
    12 / 100 * timeScore left.timestampMs right.timestampMs + 8 / 100 * speakerScore +
    12 / 100 * entities + 8 / 100 * shortFollow

def namedEntityConflictBlock (current : List Turn) (next : Turn) : Bool :=
  let blockEntities := current.flatMap fun turn =>
    (extractEntities host turn.rawText).map host.casefold
  let nextEntities := (extractEntities host next.rawText).map host.casefold
  !blockEntities.isEmpty && !nextEntities.isEmpty && blockEntities.all (· ∉ nextEntities)

structure Blocking where
  blocks : List BuiltBlock := []
  current : List Turn := []
  currentTokens : Nat := 0
  pendingOverlap : List Int := []

/-- `_block_from_indices(records, indices, vectors, overlap_ids)`, of the
records at the indices. -/
def blockFromIndices (selected : List Turn) (overlapIds : List Int) : BuiltBlock :=
  let sequenceIds := selected.map fun turn => turn.sequenceId
  let sourceIds := selected.map fun turn => turn.sourceId
  let text := "\n".intercalate (selected.map fun turn =>
    "[" ++ turn.sequenceId.repr ++ "] " ++ turn.rawText)
  { microBlockId := stableId host "MB"
      [(selected.head?.map fun turn => turn.sessionId).getD "",
        (sequenceIds.headD 0).repr, (sequenceIds.getLastD 0).repr, sourceIds.headD ""]
    sequenceStart := sequenceIds.headD 0
    sequenceEnd := sequenceIds.getLastD 0
    sequenceIds := sequenceIds
    sourceIds := sourceIds
    text := text
    tokenCount := tokenCount tokenizer text
    embedding :=
      if 1 < selected.length then meanVector (selected.map Turn.vector)
      else (selected.head?.map Turn.vector).getD []
    overlapSequenceIds := overlapIds.filter (· ∈ sequenceIds)
    speakerIds := selected.filterMap fun turn => turn.speaker.filter (· ≠ "") }

def Blocking.flush (b : Blocking) (overlapFrom : Option Turn) : Blocking :=
  if b.current.isEmpty then b
  else
    let blocks := b.blocks ++ [blockFromIndices host tokenizer b.current b.pendingOverlap]
    match overlapFrom with
    | some turn =>
      { blocks
        pendingOverlap := [turn.sequenceId]
        current := [turn]
        currentTokens := tokenCount tokenizer turn.rawText }
    | none => { blocks }

/-- Whether the next record closes the block, and whether the last record of the block is handed on
then, `:62`. -/
def boundary (settings : MicroblockSettings) (turns currentTokens nextTokens : Nat) (score : Rat)
    (namedConflict : Bool) : Option Bool :=
  let forceMax : Bool := settings.maxTurns < turns + 1 ||
    settings.maxTokens < currentTokens + nextTokens
  let canClose : Bool := settings.minTurns ≤ turns || settings.minTokens ≤ currentTokens
  let hardBreak := score < settings.hardBreakThreshold && namedConflict
  let entityBreak := namedConflict && score < settings.entityBreakThreshold &&
    (canClose || namedConflict)
  let topicBreak := (score < settings.topicBreakThreshold && canClose) || hardBreak || entityBreak
  if forceMax || topicBreak then
    some (settings.hardBreakThreshold ≤ score && score < settings.overlapThreshold && !forceMax &&
      !hardBreak && !entityBreak)
  else none

def Blocking.add (settings : MicroblockSettings) (score : Turn → Turn → Rat) (b : Blocking)
    (next : Turn) : Blocking :=
  let nextTokens := tokenCount tokenizer next.rawText
  match boundary settings b.current.length b.currentTokens nextTokens
      (score (b.current.getLastD next) next) (namedEntityConflictBlock host b.current next) with
  | some carries =>
    let b := b.flush host tokenizer (if carries then b.current.getLast? else none)
    { b with current := b.current ++ [next], currentTokens := b.currentTokens + nextTokens }
  | none =>
    { b with current := b.current ++ [next], currentTokens := b.currentTokens + nextTokens }

def buildMicroBlocks (settings : MicroblockSettings) (score : Turn → Turn → Rat) :
    List Turn → List BuiltBlock
  | [] => []
  | first :: rest =>
    ((rest.foldl (Blocking.add host tokenizer settings score)
      { current := [first], currentTokens := tokenCount tokenizer first.rawText }).flush host
        tokenizer none).blocks

end AiBuddy.EventPipeline
