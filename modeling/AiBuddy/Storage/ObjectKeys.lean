import AiBuddy.Misc.Text

/-!
# Object keys (`services/storage/s3_audio_storage.py`, `services/meeting_extension/s3_keys.py`)

The keys under which audio and recordings are stored, and the checks that a key lies in the scope of
its owner. `lower` is `str.lower` of the host.
-/

namespace AiBuddy.Storage

/-- The settings that the keys depend on, `setting.py:349`. -/
structure Settings where
  s3AudioPrefix : String := "buddy/audio"
  meetingS3Prefix : String := "meetings"
  deriving DecidableEq

/-- `text.strip(chars)`, on characters. -/
def trimChars (chars : List Char) (cs : List Char) : List Char :=
  ((cs.dropWhile (· ∈ chars)).reverse.dropWhile (· ∈ chars)).reverse

def stripSlashes (text : String) : String := .ofList (trimChars ['/'] text.toList)

/-- `re.sub(r"[^...]+", "-", text)`, where `kept` is the class of the others. A run of characters
that are not kept becomes one dash. -/
def dashRuns (kept : Char → Bool) : Bool → List Char → List Char
  | _, [] => []
  | inRun, c :: cs =>
    if kept c then c :: dashRuns kept false cs
    else if inRun then dashRuns kept true cs
    else '-' :: dashRuns kept true cs

/-- `[A-Za-z0-9._=-]`. -/
def isKeyChar (c : Char) : Bool := c.isAlphanum || c = '.' || c = '_' || c = '=' || c = '-'

def sanitizeKeyPart (value : String) : String :=
  let value := if value ≠ "" then value else "unknown"
  let cleaned := trimChars ['.', '-', '/'] (dashRuns isKeyChar false value.toList)
  if cleaned ≠ [] then .ofList cleaned else "unknown"

/-- `re.sub(r"[^a-z0-9]+", "", text)`. -/
def lowerAlphanum (text : String) : String := .ofList (text.toList.filter fun c =>
  c.isLower || c.isDigit)

def sanitizeExtension (lower : String → String) (extension : String) : Except String String :=
  let value := lower (Text.strip extension)
  let value := lowerAlphanum (.ofList (value.toList.dropWhile (· = '.')))
  if value = "" ∨ value.length > 16 then .error "Invalid audio file extension" else .ok value

/-- `f"{n:0{width}d}"`. -/
def zeroPadded (width : Nat) (n : Int) : String :=
  match n with
  | .ofNat n => .ofList ((Nat.toDigits 10 n).leftpad width '0')
  | .negSucc n => .ofList ('-' :: (Nat.toDigits 10 (n + 1)).leftpad (width - 1) '0')

def validateObjectKey (objectKey : String) : Except String String :=
  let key := Text.replace '\\' '/' (Text.strip objectKey)
  let key := String.ofList (key.toList.dropWhile (· = '/'))
  if key = "" ∨ ".." ∈ Text.split '/' key then .error "Invalid S3 object key" else .ok key

def validateScope (message expectedPrefix objectKey : String) : Except String String := do
  let key ← validateObjectKey objectKey
  if expectedPrefix.toList <+: key.toList then return key else throw message

/-- `settings.PREFIX.strip().strip("/") or default`. -/
def configured (setting default : String) : String :=
  let stripped := stripSlashes (Text.strip setting)
  if stripped ≠ "" then stripped else default

structure ConversationOwner where
  userId : String
  spaceId : String
  conversationId : String
  deriving DecidableEq

def Settings.audioPrefix (settings : Settings) : String :=
  configured settings.s3AudioPrefix "buddy/audio"

def ConversationOwner.parts (owner : ConversationOwner) : List String :=
  [sanitizeKeyPart owner.userId, sanitizeKeyPart owner.spaceId,
    sanitizeKeyPart owner.conversationId]

def buildConversationAudioObjectKey (settings : Settings) (lower : String → String)
    (owner : ConversationOwner) (sequenceNumber : Int) (chunkId extension : String) :
    Except String String := do
  let safeExtension ← sanitizeExtension lower extension
  let parts := [settings.audioPrefix] ++ owner.parts ++
    [zeroPadded 8 sequenceNumber ++ "-" ++ sanitizeKeyPart chunkId ++ "." ++ safeExtension]
  return "/".intercalate ((parts.filter (· ≠ "")).map stripSlashes)

def expectedConversationAudioPrefix (settings : Settings) (owner : ConversationOwner) : String :=
  "/".intercalate ([settings.audioPrefix] ++ owner.parts) ++ "/"

def validateConversationAudioObjectKey (settings : Settings) (objectKey : String)
    (owner : ConversationOwner) : Except String String :=
  validateScope "S3 object key is outside the conversation audio scope"
    (expectedConversationAudioPrefix settings owner) objectKey

structure MeetingOwner where
  userId : String
  meetingSessionId : String
  deriving DecidableEq

def Settings.meetingPrefix (settings : Settings) : String :=
  configured settings.meetingS3Prefix "meetings"

def MeetingOwner.parts (owner : MeetingOwner) : List String :=
  [sanitizeKeyPart owner.userId, sanitizeKeyPart owner.meetingSessionId]

/-- What all keys of a recording start with, `s3_keys.py:40`. -/
def meetingScope (settings : Settings) (owner : MeetingOwner) : String :=
  settings.meetingPrefix ++ "/" ++ sanitizeKeyPart owner.userId ++ "/" ++
    sanitizeKeyPart owner.meetingSessionId ++ "/"

def mediaFolder (mediaKind : String) : String :=
  if mediaKind = "audio" then "audio" else if mediaKind = "video" then "video" else "chunks"

def meetingChunkObjectKey (settings : Settings) (lower : String → String) (owner : MeetingOwner)
    (sequence : Int) (extension mediaKind : String) : String :=
  let extension := lowerAlphanum (lower extension)
  meetingScope settings owner ++ mediaFolder mediaKind ++ "/" ++ zeroPadded 6 sequence ++ "." ++
    if extension ≠ "" then extension else "webm"

def meetingFinalObjectKey (settings : Settings) (owner : MeetingOwner) : String :=
  meetingScope settings owner ++ "meeting.mp4"

def meetingThumbnailObjectKey (settings : Settings) (owner : MeetingOwner) : String :=
  meetingScope settings owner ++ "thumbnail.jpg"

def validateMeetingObjectKey (settings : Settings) (objectKey : String) (owner : MeetingOwner) :
    Except String String :=
  validateScope "S3 object key is outside the meeting recording scope"
    (meetingScope settings owner) objectKey

inductive AudioKey (settings : Settings) (lower : String → String) (owner : ConversationOwner) :
    String → Prop where
  | build {sequenceNumber : Int} {chunkId extension key : String} :
      buildConversationAudioObjectKey settings lower owner sequenceNumber chunkId extension =
          .ok key →
        AudioKey settings lower owner key

inductive MeetingKey (settings : Settings) (lower : String → String) (owner : MeetingOwner) :
    String → Prop where
  | chunk (sequence : Int) (extension mediaKind : String) :
      MeetingKey settings lower owner
        (meetingChunkObjectKey settings lower owner sequence extension mediaKind)
  | final : MeetingKey settings lower owner (meetingFinalObjectKey settings owner)
  | thumbnail : MeetingKey settings lower owner (meetingThumbnailObjectKey settings owner)

structure Usable (configured : String) : Prop where
  noBackslash : '\\' ∉ configured.toList
  noBlank : ∀ c, configured.toList.head? = some c → Text.isSpace c = false
  noParent : ".." ∉ Text.split '/' configured

/-- A key under a configured prefix is accepted for those owners whose parts of a key are the same,
and relative segments come from the prefix only. -/
structure Isolates {Owner : Type} (configured : String) (parts : Owner → List String)
    (validate : Owner → Except String String) (owner : Owner) (key : String) : Prop where
  accepted : ∀ other, validate other = .ok key ↔ Usable configured ∧ parts other = parts owner
  nothingElse : ∀ other value, validate other = .ok value → value = key
  segments : ∀ segment ∈ Text.split '/' key, segment = "." ∨ segment = ".." →
    segment ∈ Text.split '/' configured

end AiBuddy.Storage
