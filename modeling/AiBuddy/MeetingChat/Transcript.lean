import Mathlib.Algebra.GroupWithZero.Nat
import Mathlib.Data.List.Sort
import AiBuddy.Misc.Text

/-!
# The transcript of a meeting, for chat

The segments that `MeetingContextLoader._load_segments` reads
(`services/chat/meeting/context.py:102`) and the windows that `build_chunks` makes of them
(`services/chat/meeting/index.py:54`). Fields are of the types that the transcription writes.
-/

namespace AiBuddy.MeetingChat

structure TranscriptSegment where
  id : String
  text : String
  startMs : Option Int
  endMs : Option Int
  speaker : Option String
  sequence : Int
  deriving DecidableEq

/-- An entry of `segments` in a document of `transcript_chunks`. -/
structure RawSegment where
  id : Option String := none
  text : String
  startOffsetMs : Option Int := none
  endOffsetMs : Option Int := none
  speakerLabel : Option String := none
  speakerId : Option String := none
  deriving DecidableEq

/-- A document of `transcript_chunks`. -/
structure RawChunk where
  documentId : String
  chunkId : Option String := none
  sequenceNumber : Option Int := none
  startTimeMs : Option Int := none
  endTimeMs : Option Int := none
  rawText : Option String := none
  normalizedText : Option String := none
  segments : List RawSegment := []
  deriving DecidableEq

def orText (value : Option String) (other : String) : String :=
  match value with
  | some "" | none => other
  | some text => text

def speakerLabel (segment : RawSegment) : Option String :=
  match segment.speakerLabel.filter (· ≠ ""), segment.speakerId.filter (· ≠ "") with
  | some label, _ => some label
  | none, some speakerId => some ("Speaker " ++ speakerId)
  | none, none => none

namespace RawChunk

def sequence (chunk : RawChunk) : Int := chunk.sequenceNumber.getD 0

/-- The segment of an entry, `context.py:113`. -/
def nested (chunk : RawChunk) (index : Nat) (segment : RawSegment) : Option TranscriptSegment :=
  let text := Text.strip segment.text
  if text = "" then none
  else
    some
      { id := orText segment.id
          (orText chunk.chunkId (toString chunk.sequence) ++ ":" ++ toString index)
        text := text
        startMs := segment.startOffsetMs
        endMs := segment.endOffsetMs
        speaker := speakerLabel segment
        sequence := chunk.sequence }

/-- The segment of a document without entries, `context.py:129`. -/
def whole (chunk : RawChunk) : Option TranscriptSegment :=
  let text := Text.strip (orText chunk.rawText (chunk.normalizedText.getD ""))
  if text = "" then none
  else
    some
      { id := orText chunk.chunkId chunk.documentId
        text := text
        startMs := chunk.startTimeMs
        endMs := chunk.endTimeMs
        speaker := none
        sequence := chunk.sequence }

def toSegments (chunk : RawChunk) : List TranscriptSegment :=
  if chunk.segments.isEmpty then chunk.whole.toList
  else chunk.segments.zipIdx.filterMap fun (segment, index) => chunk.nested index segment

def before (chunk other : RawChunk) : Bool :=
  match chunk.startTimeMs, other.startTimeMs with
  | none, some _ => true
  | some _, none => false
  | start, start' =>
    let time := start.getD 0
    let time' := start'.getD 0
    time < time' || (time = time' && chunk.sequence ≤ other.sequence)

end RawChunk

/-- The key of the last sort, `context.py:140`. -/
def TranscriptSegment.before (segment other : TranscriptSegment) : Bool :=
  let time := segment.startMs.getD 0
  let time' := other.startMs.getD 0
  time < time' || (time = time' && segment.sequence ≤ other.sequence)

def loadSegments (chunks : List RawChunk) : List TranscriptSegment :=
  ((chunks.insertionSort fun chunk other => chunk.before other).flatMap
    RawChunk.toSegments).insertionSort fun segment other => segment.before other

structure MeetingChunk where
  index : Nat
  text : String
  startMs : Option Int
  endMs : Option Int
  speakers : List String := []
  deriving DecidableEq

def twoDigits (value : Int) : String := if value < 10 then "0" ++ value.repr else value.repr

def formatTimestamp (ms : Option Int) : String :=
  match ms.filter (0 ≤ ·) with
  | none => "--:--"
  | some ms =>
    let totalSeconds := ms / 1000
    let hours := totalSeconds / 3600
    let minutes := totalSeconds % 3600 / 60
    let seconds := totalSeconds % 60
    if hours ≠ 0 then hours.repr ++ ":" ++ twoDigits minutes ++ ":" ++ twoDigits seconds
    else twoDigits minutes ++ ":" ++ twoDigits seconds

def segmentLine (segment : TranscriptSegment) : String :=
  let speaker := match segment.speaker.filter (· ≠ "") with
    | some speaker => speaker ++ ": "
    | none => ""
  "[" ++ formatTimestamp segment.startMs ++ "] " ++ speaker ++ segment.text

/-- The speakers of a window, `index.py:64`. -/
def speakersOf (window : List TranscriptSegment) : List String :=
  window.foldl (fun speakers segment =>
    match segment.speaker.filter (· ≠ "") with
    | some speaker => if speaker ∈ speakers then speakers else speakers ++ [speaker]
    | none => speakers) []

/-- The chunk of a window, `index.py:68`. -/
def chunkOf (index : Nat) (window : List TranscriptSegment) : MeetingChunk where
  index := index
  text := "\n".intercalate (window.map segmentLine)
  startMs := window.head?.bind TranscriptSegment.startMs
  endMs := (window.getLast?.bind TranscriptSegment.endMs).or
    (window.getLast?.bind TranscriptSegment.startMs)
  speakers := speakersOf window

structure Windowing where
  chunks : List MeetingChunk := []
  window : List TranscriptSegment := []
  size : Nat := 0

namespace Windowing

def lineSize (segment : TranscriptSegment) : Nat := segment.text.toList.length + 24

def emit (w : Windowing) : List MeetingChunk :=
  if w.window.isEmpty then w.chunks else w.chunks ++ [chunkOf w.chunks.length w.window]

/-- The window that is carried over, `index.py:82`. -/
def carry (maxChars : Int) (w : Windowing) : List TranscriptSegment :=
  w.window.getLast?.toList.filter fun segment => (segment.text.toList.length : Int) < maxChars / 2

def add (maxChars : Int) (w : Windowing) (segment : TranscriptSegment) : Windowing :=
  if !w.window.isEmpty && decide (maxChars < (w.size + lineSize segment : Nat)) then
    { chunks := w.emit
      window := w.carry maxChars ++ [segment]
      size := ((w.carry maxChars).map lineSize).sum + lineSize segment }
  else { w with window := w.window ++ [segment], size := w.size + lineSize segment }

end Windowing

def buildChunks (maxChars : Int) (segments : List TranscriptSegment) : List MeetingChunk :=
  (segments.foldl (Windowing.add maxChars) {}).emit

/-- `chunk.text.split("\n")`. -/
def MeetingChunk.lines (chunk : MeetingChunk) : List String := Text.split '\n' chunk.text

structure Deduping where
  result : List MeetingChunk := []
  previousLines : List String := []
  previousIndex : Option Nat := none

def Deduping.add (d : Deduping) (chunk : MeetingChunk) : Deduping :=
  let lines :=
    if d.previousIndex.any (fun previous => chunk.index = previous + 1) then
      chunk.lines.filter (· ∉ d.previousLines)
    else chunk.lines
  { result :=
      if lines.isEmpty then d.result
      else d.result ++ [{ chunk with text := "\n".intercalate lines }]
    previousLines := chunk.lines
    previousIndex := some chunk.index }

/-- `retriever.py:117`. -/
def dedupeOverlap (chunks : List MeetingChunk) : List MeetingChunk :=
  (chunks.foldl Deduping.add {}).result

end AiBuddy.MeetingChat
