import AiBuddy.EventPipeline.TextUtil
import AiBuddy.MeetingPipeline.Schemas
import AiBuddy.Misc.Pattern

/-!
# Extraction windows

`services/conversation/meeting_pipeline/windows.py`: the turns of a transcript, packed into windows
of text with an overlap. The tokenizer of `estimate_tokens` is a parameter: there may be none, and
it may fail on a text.
-/

namespace AiBuddy.MeetingPipeline

variable (encode : Option (String → Option Nat))

/-- `transcript.py:56`. -/
def estimateTokens (text : String) : Nat :=
  if Text.strip text = "" then 0
  else
    match encode.bind fun count => count text with
    | some count => max 1 count
    | none => max (Text.fields text).length (max 1 ((text.length + 3) / 4))

/-- The class `[\s_:-]` of `_SPEAKER_PREFIX`. -/
def isGap (c : Char) : Bool := Text.isSpace c || c = '_' || c = ':' || c = '-'

/-- `\s*\]?\s*[:\-]?\s*`. -/
def afterNumber (cs : List Char) : List Char :=
  (Text.dropOne (fun c => c = ':' || c = '-')
    ((Text.dropOne (fun c => c = ']') (cs.dropWhile Text.isSpace)).dropWhile
      Text.isSpace)).dropWhile
      Text.isSpace

/-- The two groups of `_SPEAKER_PREFIX`: the number and the rest. Every optional
part is greedy, and giving one back never makes the match succeed. -/
def speakerPrefix? (cs : List Char) : Option (List Char × List Char) :=
  (Text.dropLetters "speaker".toList
      ((Text.dropOne (fun c => c = '[') cs).dropWhile Text.isSpace)).bind
    fun named =>
      let number := named.dropWhile isGap
      if number.takeWhile Char.isDigit = [] then none
      else some (number.takeWhile Char.isDigit, afterNumber (number.dropWhile Char.isDigit))

def splitSpeakerLabel (text : String) : Option String × String :=
  let value := Text.strip text
  match speakerPrefix? value.toList with
  | none => (none, value)
  | some (number, rest) =>
    if Text.strip (.ofList rest) = "" then (none, value)
    else (some ("Speaker " ++ .ofList number), Text.strip (.ofList rest))

/-- `[line.strip() for line in raw.splitlines() if line.strip()]`, `:76`. -/
def linesOf (raw : String) : List String :=
  ((Text.splitLines raw).map Text.strip).filter (· ≠ "")

def formatLine (turn : TranscriptTurn) (line : String) : String :=
  let default := EventPipeline.orText (turn.speaker.getD "") "Speaker"
  let text := "[" ++ toString turn.sequenceId ++ "][" ++
    (splitSpeakerLabel line).1.getD default ++ "] " ++ (splitSpeakerLabel line).2
  .ofList (Text.trimEnd text.toList)

def formatWindowLine (turn : TranscriptTurn) : String :=
  match linesOf turn.rawText with
  | [] => "[" ++ toString turn.sequenceId ++ "][" ++
      EventPipeline.orText (turn.speaker.getD "") "Speaker" ++ "]"
  | lines => "\n".intercalate (lines.map (formatLine turn))

def usefulTokenCount (turn : TranscriptTurn) : Nat :=
  if Text.strip turn.rawText = "" then 0 else estimateTokens encode (formatWindowLine turn)

def tokenTotal (turns : List TranscriptTurn) : Nat := (turns.map (usefulTokenCount encode)).sum

/-- The loop of `_tail_for_overlap`, over the turns from the last one. -/
def tailFrom (tokenBudget : Nat) : List TranscriptTurn → Nat → List TranscriptTurn →
    List TranscriptTurn
  | tail, _, [] => tail
  | tail, total, turn :: earlier =>
    let total := total + usefulTokenCount encode turn
    if tokenBudget ≤ total then turn :: tail else tailFrom tokenBudget (turn :: tail) total earlier

def tailForOverlap (turns : List TranscriptTurn) (tokenBudget : Nat) : List TranscriptTurn :=
  if tokenBudget = 0 then [] else tailFrom encode tokenBudget [] 0 turns.reverse

/-- `TranscriptTurn(sequence_id=..., speaker=..., raw_text=" ".join(words))`. -/
def TranscriptTurn.ofWords (turn : TranscriptTurn) (words : List String) : TranscriptTurn :=
  { turn with rawText := " ".intercalate words }

/-- The loop of `_split_oversize_turn`: the words of each fragment, from those of
the current one. -/
def chunkWords (maxTokens : Nat) (turn : TranscriptTurn) : List String → List String →
    List (List String)
  | current, [] => if current = [] then [] else [current]
  | current, word :: rest =>
    if current ≠ [] ∧ maxTokens < usefulTokenCount encode (turn.ofWords (current ++ [word])) then
      current :: chunkWords maxTokens turn [word] rest
    else chunkWords maxTokens turn (current ++ [word]) rest

def splitOversizeTurn (maxTokens : Nat) (turn : TranscriptTurn) : List TranscriptTurn :=
  let words := Text.fields turn.rawText
  if words.length ≤ 1 then [turn]
  else (chunkWords encode maxTokens turn [] words).map turn.ofWords

/-- The numbers of `build_extraction_windows`. -/
structure WindowSizes where
  target : Nat
  maximum : Nat
  overlapBudget : Nat
deriving DecidableEq

/-- The sizes from the arguments, `:106`. -/
def windowSizes (targetTokens maxTokens : Int) (overlapRatio : Rat) : WindowSizes where
  target := max 1 targetTokens.toNat
  maximum := max (max 1 targetTokens.toNat) maxTokens.toNat
  overlapBudget := (((max 1 targetTokens.toNat : Nat) : Rat) * overlapRatio).floor.toNat

/-- The variables of the loop. `overlap_ids` are the ids of `overlap`. -/
structure WindowState where
  windows : List ExtractionWindow := []
  overlap : List TranscriptTurn := []
  current : List TranscriptTurn := []
  currentTokens : Nat := 0

def WindowState.overlapIds (state : WindowState) : List Int := state.overlap.map (·.sequenceId)

/-- `any(item.sequence_id not in overlap_ids for item in current)`. -/
def WindowState.ownedExists (state : WindowState) : Bool :=
  state.current.any (·.sequenceId ∉ state.overlapIds)

variable (host : EventPipeline.Host) (conversationId : String) (sizes : WindowSizes)

/-- `(turn.raw_text or "").strip()` is not empty. -/
def TranscriptTurn.isUseful (turn : TranscriptTurn) : Bool := Text.strip turn.rawText ≠ ""

def windowText (items : List TranscriptTurn) : String :=
  "\n".intercalate ((items.filter (·.isUseful)).map formatWindowLine)

/-- The window of `flush`, with the useful turns it holds. -/
def windowOf (state : WindowState) (first last : TranscriptTurn) (turns : List TranscriptTurn) :
    ExtractionWindow where
  windowId := EventPipeline.stableId host "w"
    [conversationId, toString state.windows.length, toString first.sequenceId,
      toString last.sequenceId]
  windowIndex := state.windows.length
  sequenceStart := first.sequenceId
  sequenceEnd := last.sequenceId
  sequenceIds := turns.map (·.sequenceId)
  ownedSequenceIds := (turns.map (·.sequenceId)).filter (· ∉ state.overlapIds)
  overlapSequenceIds := (turns.map (·.sequenceId)).filter (· ∈ state.overlapIds)
  text := windowText turns
  tokenCount := tokenTotal encode turns

def flush (state : WindowState) : WindowState :=
  match state.current.filter (·.isUseful) with
  | [] => { state with current := [], currentTokens := 0 }
  | first :: rest =>
    let useful := first :: rest
    if ∀ turn ∈ useful, turn.sequenceId ∈ state.overlapIds then
      { state with current := state.overlap, currentTokens := tokenTotal encode state.overlap }
    else
      let last := useful.getLast (by simp [useful])
      let overlap := tailForOverlap encode useful sizes.overlapBudget
      { windows := state.windows ++ [windowOf encode host conversationId state first last useful]
        overlap
        current := overlap
        currentTokens := tokenTotal encode overlap }

/-- The body of the loop over the fragments, `:165`. -/
def flushFragment (state : WindowState) (fragment : TranscriptTurn) : WindowState :=
  flush encode host conversationId sizes
    { state with current := [fragment], currentTokens := usefulTokenCount encode fragment }

/-- The flushes in front of a turn, `:159` to `:162`. -/
def makeRoom (state : WindowState) (tokens : Nat) : WindowState :=
  if state.ownedExists ∧ sizes.maximum < state.currentTokens + tokens then
    flush encode host conversationId sizes state
  else if state.ownedExists ∧ sizes.target ≤ state.currentTokens ∧
      sizes.target < state.currentTokens + tokens then
    flush encode host conversationId sizes state
  else state

/-- The body of the loop over the turns, `:155` to `:171`. -/
def addTurn (state : WindowState) (turn : TranscriptTurn) : WindowState :=
  let tokens := usefulTokenCount encode turn
  if tokens = 0 then state
  else
    let room := makeRoom encode host conversationId sizes state tokens
    if sizes.maximum < tokens ∧ room.current = [] then
      (splitOversizeTurn encode sizes.maximum turn).foldl
        (flushFragment encode host conversationId sizes) room
    else { room with
      current := room.current ++ [turn]
      currentTokens := room.currentTokens + tokens }

/-- `useful` and `:102`. -/
def usefulTurns (turns : List TranscriptTurn) : List TranscriptTurn :=
  (turns.insertionSort fun a b => a.sequenceId ≤ b.sequenceId).filter (·.isUseful)

def windowCoverageError (windows : List ExtractionWindow) (useful : List Int) : Option String :=
  match useful.getLast? with
  | none => if windows = [] then none else some "windows_built_for_empty_transcript"
  | some last =>
    let union := windows.flatMap (·.sequenceIds)
    let missing := useful.filter (· ∉ union)
    let extra := (union.eraseDups.filter (· ∉ useful)).insertionSort (· ≤ ·)
    if missing ≠ [] ∨ extra ≠ [] then
      some ("window_coverage_mismatch missing=" ++ toString missing ++ " extra=" ++ toString extra)
    else if last ∉ (windows.getLast?.map (·.sequenceIds)).getD [] then
      some "last_useful_sequence_missing_from_final_window"
    else none

/-- The windows when the loop is over, `:154` to `:175`. -/
def packTurns (useful : List TranscriptTurn) : List ExtractionWindow :=
  let state := useful.foldl (addTurn encode host conversationId sizes) {}
  (if state.ownedExists ∧ state.current.any (·.isUseful) then
    flush encode host conversationId sizes state else state).windows

/-- `build_extraction_windows(turns, ...)`: the windows, or the text of the
`RuntimeError`. -/
def buildExtractionWindows (turns : List TranscriptTurn) : Except String (List ExtractionWindow) :=
  match usefulTurns turns with
  | [] => .ok []
  | useful =>
    let windows := packTurns encode host conversationId sizes useful
    match windowCoverageError windows (useful.map (·.sequenceId)) with
    | some error => .error error
    | none => .ok windows

end AiBuddy.MeetingPipeline
