import AiBuddy.Misc.Text
import Mathlib.Logic.Function.Basic

/-!
# Follow-up answers to a chat write

`_merge_partial_spec` in `services/chat/actions.py` and what it calls. The searches of a reply are
arguments.
-/

namespace AiBuddy.Chat

inductive WriteAction where
  | none | createTask | createNote | createSpace | createReminder | createEvent
  | updateTask | updateNote | updateSpace | deleteTask | deleteNote | deleteSpace
  deriving DecidableEq

def WriteAction.isUpdate : WriteAction → Bool
  | .updateTask | .updateNote | .updateSpace => true
  | _ => false

def WriteAction.isDelete : WriteAction → Bool
  | .deleteTask | .deleteNote | .deleteSpace => true
  | _ => false

/-- The fields of `ChatWriteSpec` that are a text or `None`. -/
inductive TextField where
  | title | newTitle | entityId | description | spaceNameHint | dueDate | priority | dateKey
  | dateLabel | timeLabel | startTimeLabel | endTimeLabel | location
  deriving DecidableEq

def TextField.default : TextField → Option String
  | .description | .location => some ""
  | .priority => some "Medium"
  | _ => none

structure ChatWriteSpec where
  action : WriteAction := .none
  text : TextField → Option String := TextField.default
  «repeat» : String := "once"
  missingFields : List String := []
  ready : Bool := false

/-- `v not in (None, "", [], "none")` of a text, `:388`. -/
def isGiven (value : Option String) : Bool := !([none, some "", some "none"].contains value)

def ChatWriteSpec.overlay (kept spec : ChatWriteSpec) : ChatWriteSpec where
  action := if spec.action = .none then kept.action else spec.action
  text field := if isGiven (spec.text field) then spec.text field else kept.text field
  «repeat» := if isGiven (some spec.repeat) then spec.repeat else kept.repeat
  missingFields := if spec.missingFields = [] then kept.missingFields else spec.missingFields
  ready := spec.ready

/-- The merge before the heuristics for the reply, `:388`. -/
def beforeReply (spec kept : ChatWriteSpec) (action : WriteAction) : ChatWriteSpec :=
  let merged := kept.overlay spec
  { merged with action := if merged.action = .none then action else merged.action }

def ChatWriteSpec.has (spec : ChatWriteSpec) (field : TextField) : Bool :=
  (spec.text field).getD "" ≠ ""

/-- `str.strip`, `str.lower`, `_looks_like_new_command` and `_extract_time`. -/
structure Host where
  strip : String → String
  lower : String → String
  looksLikeNewCommand : String → Bool
  extractTime : String → Option String

variable (host : Host)

def ChatWriteSpec.stripped (spec : ChatWriteSpec) (field : TextField) : String :=
  host.strip ((spec.text field).getD "")

def hasUpdateChange (spec : ChatWriteSpec) : Bool :=
  spec.stripped host .newTitle ≠ "" ||
  (spec.stripped host .entityId ≠ "" && spec.stripped host .title ≠ "") ||
  spec.stripped host .description ≠ "" || spec.has .dueDate ||
  (spec.has .dateKey && spec.action = .updateNote) ||
  spec.stripped host .priority ∈ ["High", "Low"]

def labelKey : String → String
  | "title" | "space name" => "name"
  | "space name (at least 3 characters)" => "name (at least 3 characters)"
  | item => item

def dedupeFrom (missing seen : List String) : List String → List String
  | [] => []
  | item :: rest =>
    let key := labelKey item
    if key ∈ seen then dedupeFrom missing seen rest
    else
      let label :=
        if key = "name" then
          if Text.contains "space" (host.lower (" ".intercalate missing)) ∨ item = "space name" then
            "space name"
          else "title"
        else if key = "name (at least 3 characters)" then "space name (at least 3 characters)"
        else item
      label :: dedupeFrom missing (key :: seen) rest

def dedupeMissingLabels (missing : List String) : List String :=
  let normalized := dedupeFrom host missing [] missing
  if "space name" ∈ normalized ∧ "title" ∈ normalized then normalized.filter (· ≠ "title")
  else normalized

/-- What `_required_missing` lists for a title that is not there. -/
def missingName (spec : ChatWriteSpec) (space : WriteAction) : String :=
  if spec.action = space then "space name" else "title"

def requiredMissing (spec : ChatWriteSpec) : List String :=
  let title := spec.stripped host .title
  let unnamed := spec.stripped host .entityId = "" ∧ title = ""
  let scheduled (field : TextField) (label : String) :=
    (if spec.has .dateKey then [] else ["date"]) ++ if spec.has field then [] else [label]
  dedupeMissingLabels host <|
    if spec.action.isDelete then if unnamed then [missingName spec .deleteSpace] else []
    else if spec.action.isUpdate then
      if unnamed then [missingName spec .updateSpace]
      else if hasUpdateChange host spec then [] else ["what to change"]
    else
      (if title = "" then [missingName spec .createSpace]
        else if spec.action = .createSpace ∧ title.length < 3 then
          ["space name (at least 3 characters)"]
        else []) ++
      (if spec.action = .createReminder then scheduled .timeLabel "time" else []) ++
      (if spec.action = .createEvent then scheduled .startTimeLabel "start time" else [])

abbrev Fill := Option (TextField × String)

def ChatWriteSpec.fill (spec : ChatWriteSpec) : Fill → ChatWriteSpec
  | none => spec
  | some (field, value) => { spec with text := Function.update spec.text field (some value) }

def isAnswer (reply : String) : Bool := reply.length ≤ 80 && !host.looksLikeNewCommand reply

variable (action : WriteAction) (reply : String)

def titleFill (merged : ChatWriteSpec) : Fill :=
  if reply ≠ "" ∧ merged.stripped host .title = "" ∧ action ≠ .none ∧
      isAnswer host reply then
    some (.title, reply)
  else none

def updateFill (merged : ChatWriteSpec) : Fill :=
  if reply ≠ "" ∧ action.isUpdate ∧ merged.stripped host .newTitle = "" then
    if merged.stripped host .title ≠ "" ∧ merged.stripped host .entityId ≠ "" then
      if isAnswer host reply then
        if Text.contains "description" (host.lower (" ".intercalate merged.missingFields)) then
          some (.description, reply)
        else some (.newTitle, reply)
      else none
    else if merged.stripped host .title ≠ "" ∧ !hasUpdateChange host merged ∧
        isAnswer host reply then
      some (.newTitle, reply)
    else none
  else none

/-- `:420`, and `:424` for the start time of an event. -/
def timeFill (timed : WriteAction) (field : TextField) (merged : ChatWriteSpec) : Fill :=
  if reply ≠ "" ∧ action = timed ∧ !merged.has field then
    match host.extractTime reply with
    | some extracted => if extracted ≠ "" then some (field, extracted) else none
    | none => none
  else none

def mergePartialSpec (spec kept : ChatWriteSpec) (reply : String) (action : WriteAction) :
    ChatWriteSpec :=
  let reply := host.strip reply
  let merged := beforeReply spec kept action
  let merged := merged.fill (titleFill host action reply merged)
  let merged := merged.fill (updateFill host action reply merged)
  let merged := merged.fill (timeFill host action reply .createReminder .timeLabel merged)
  let merged := merged.fill (timeFill host action reply .createEvent .startTimeLabel merged)
  { merged with
    missingFields := requiredMissing host merged
    ready := requiredMissing host merged = [] }

end AiBuddy.Chat
