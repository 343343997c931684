import AiBuddy.Queue.JobLease.LogicalJobKey

/-!
# The publishers of stt.requested

A chunk of a conversation is registered once, either by `complete_audio_upload`
(`services/conversation/service.py:153`), which asks for its transcript itself, or
by `ingest_audio` (`:53`), whose event the audio worker forwards
(`workers/conversation_workers.py:313`). The finalizer asks again for a chunk whose
transcript got lost (`services/conversation/finalization.py:220`).
-/

namespace AiBuddy.Conversation

open Queue

def isHexDigit (c : Char) : Bool :=
  ('0' ≤ c && c ≤ '9') || ('a' ≤ c && c ≤ 'f') || ('A' ≤ c && c ≤ 'F')

/-- A `bson.ObjectId`, by the text that `str` gives. -/
structure ObjectId where
  text : String
  length_eq : text.toList.length = 24
  digits : ∀ c ∈ text.toList, isHexDigit c = true
  lower_eq : Text.lower text = text

def ObjectId.isValid (text : String) : Bool :=
  decide (text.toList.length = 24) && text.toList.all isHexDigit

/-- `AudioChunkMetadata`, `models.py:199`. Times are kept in their JSON form. -/
structure AudioChunkMetadata where
  conversationId : String
  userId : String
  spaceId : String
  chunkId : String
  sequenceNumber : Nat
  capturedAt : Option String := none
  durationMs : Option Nat := none
  filePath : Option String := none
  filename : String
  contentType : Option String := none
  storageProvider : String := "local"
  s3Bucket : Option String := none
  s3ObjectKey : Option String := none
  sizeBytes : Option Nat := none
  jobId : Option String := none
  createdAt : String

def optText : Option String → PyVal
  | none => .none
  | some text => .str text

def optNat : Option Nat → PyVal
  | none => .none
  | some n => .int n

def AudioChunkMetadata.modelDump (metadata : AudioChunkMetadata) : Payload :=
  [("conversationId", .str metadata.conversationId),
    ("userId", .str metadata.userId),
    ("spaceId", .str metadata.spaceId),
    ("chunkId", .str metadata.chunkId),
    ("sequenceNumber", .int metadata.sequenceNumber),
    ("capturedAt", optText metadata.capturedAt),
    ("durationMs", optNat metadata.durationMs),
    ("filePath", optText metadata.filePath),
    ("filename", .str metadata.filename),
    ("contentType", optText metadata.contentType),
    ("storageProvider", .str metadata.storageProvider),
    ("s3Bucket", optText metadata.s3Bucket),
    ("s3ObjectKey", optText metadata.s3ObjectKey),
    ("sizeBytes", optNat metadata.sizeBytes),
    ("jobId", optText metadata.jobId),
    ("createdAt", .str metadata.createdAt)]

/-- What the finalizer reads of a `TranscriptChunkDocument`. -/
structure TranscriptChunk where
  conversationId : ObjectId
  userId : String
  spaceId : String
  chunkId : String
  sequenceNumber : Nat
  audioFilePath : Option String

/-- What the finalizer reads of an `audio_chunks` document. -/
structure AudioChunk where
  filename : Option String
  contentType : Option String
  storageProvider : Option String
  s3Bucket : Option String
  s3ObjectKey : Option String
  filePath : Option String

/-- The validator of `spaceId`, and `_envelope_space_id`: no sentinel text, no blanks around. -/
def envelopeSpaceId (spaceId : String) : String :=
  let text := Text.strip spaceId
  if text = "" ∨ Text.lower text ∈ ["none", "null", "undefined"] then "" else text

structure Stamp where
  eventId : String
  createdAt : String

def stableJobId (conversationId : String) (sequenceNumber : Nat) (chunkId : String) : String :=
  conversationId ++ ":" ++ (sequenceNumber : Int).repr ++ ":" ++ chunkId

structure ChunkRequest where
  conversationId : String
  userId : String
  spaceId : String
  chunkId : String
  sequenceNumber : Nat
  conversation : ObjectId
  found : ObjectId.isValid conversationId = true ∧
    Text.lower conversationId = conversation.text

/-- The stored upload, as `head_object` and the validators report it. -/
structure StoredUpload where
  bucket : String
  objectKey : String
  sizeBytes : Nat
  contentType : String

def completeAudioUpload (request : ChunkRequest) (upload : StoredUpload) (stamp : Stamp) :
    EventEnvelope where
  eventId := stamp.eventId
  createdAt := stamp.createdAt
  eventType := "stt.requested"
  correlationId := request.conversationId
  userId := request.userId
  spaceId := envelopeSpaceId request.spaceId
  conversationId := request.conversationId
  payload :=
    [("jobId", .str (stableJobId request.conversationId request.sequenceNumber request.chunkId)),
      ("conversationId", .str request.conversationId),
      ("userId", .str request.userId),
      ("spaceId", .str request.spaceId),
      ("chunkId", .str request.chunkId),
      ("sequenceNumber", .int request.sequenceNumber),
      ("storageProvider", .str "s3"),
      ("bucket", .str upload.bucket),
      ("objectKey", .str upload.objectKey),
      ("contentType", .str upload.contentType),
      ("sizeBytes", .int upload.sizeBytes)]

/-- The file that `ingest_audio` saved and the optional fields of the form. -/
structure SavedFile where
  filePath : String
  filename : String
  contentType : Option String
  capturedAt : Option String
  durationMs : Option Nat
  createdAt : String

/-- The metadata of `ingest_audio`, which has no job id. -/
def ingestMetadata (request : ChunkRequest) (file : SavedFile) : AudioChunkMetadata where
  conversationId := request.conversationId
  userId := request.userId
  spaceId := request.spaceId
  chunkId := request.chunkId
  sequenceNumber := request.sequenceNumber
  capturedAt := file.capturedAt
  durationMs := file.durationMs
  filePath := some file.filePath
  filename := file.filename
  contentType := file.contentType
  createdAt := file.createdAt

def ingestAudio (request : ChunkRequest) (file : SavedFile) (stamp : Stamp) : EventEnvelope where
  eventId := stamp.eventId
  createdAt := stamp.createdAt
  eventType := "audio.ingested"
  correlationId := request.conversationId
  userId := request.userId
  spaceId := envelopeSpaceId request.spaceId
  conversationId := request.conversationId
  payload := (ingestMetadata request file).modelDump

/-- `handle_audio_event`: the payload is passed on as it came. -/
def handleAudioEvent (event : EventEnvelope) (stamp : Stamp) : EventEnvelope where
  eventId := stamp.eventId
  createdAt := stamp.createdAt
  eventType := "stt.requested"
  correlationId := event.correlationId
  causationId := some event.eventId
  userId := event.userId
  spaceId := envelopeSpaceId event.spaceId
  conversationId := event.conversationId
  payload := event.payload

/-- The storage code that the finalizer calls: `use_s3_storage`, `urlparse` of an `s3://` path,
the settings' bucket and `build_audio_object_key`. -/
structure AudioStorage where
  useS3 : Bool
  urlparse : String → String × String
  bucket : Option String
  buildAudioObjectKey : (userId spaceId sessionId jobId filename : String) → String

def orText (left : Option String) (right : String) : String :=
  match left with
  | none => right
  | some text => if text = "" then right else text

def audioReferencePayload (storage : AudioStorage) (audioFilePath : Option String) : Payload :=
  let value := Text.strip (orText audioFilePath "")
  if JobLease.startsWith value "s3://" then
    let (bucket, objectKey) := storage.urlparse value
    [("storageProvider", .str "s3"), ("bucket", .str bucket), ("objectKey", .str objectKey)]
  else [("filePath", .str value)]

def legacyS3ReferencePayload (storage : AudioStorage) (chunk : TranscriptChunk)
    (audioChunk : Option AudioChunk) : Payload :=
  let filename := orText (audioChunk.bind (·.filename)) (chunk.chunkId ++ ".audio")
  [("storageProvider", .str "s3"),
    ("bucket", optText storage.bucket),
    ("objectKey", .str (storage.buildAudioObjectKey chunk.userId chunk.spaceId
      chunk.conversationId.text chunk.chunkId filename))]

def sttPayloadAudioFields (storage : AudioStorage) (chunk : TranscriptChunk)
    (audioChunk : Option AudioChunk) : Payload :=
  match audioChunk with
  | some audio =>
    let payload : Payload :=
      [("filename", .str (orText audio.filename (chunk.chunkId ++ ".audio"))),
        ("contentType", .str (orText audio.contentType "audio/wav"))]
    if Text.lower (orText audio.storageProvider "") = "s3" ∨ (optText audio.s3Bucket).truthy ∨
        (optText audio.s3ObjectKey).truthy then
      payload ++ [("storageProvider", .str "s3"), ("bucket", optText audio.s3Bucket),
        ("objectKey", optText audio.s3ObjectKey)]
    else if storage.useS3 then payload ++ legacyS3ReferencePayload storage chunk (some audio)
    else
      payload ++ audioReferencePayload storage
        (if (optText audio.filePath).truthy then audio.filePath else chunk.audioFilePath)
  | none =>
    [("filename", .str (chunk.chunkId ++ ".audio")), ("contentType", .str "audio/wav")] ++
      if storage.useS3 then legacyS3ReferencePayload storage chunk none
      else audioReferencePayload storage chunk.audioFilePath

/-- The event that `_requeue_lost_stt` publishes for a lost chunk. -/
def requeueLostStt (storage : AudioStorage) (conversationId : String) (chunk : TranscriptChunk)
    (audioChunk : Option AudioChunk) (stamp : Stamp) : EventEnvelope where
  eventId := stamp.eventId
  createdAt := stamp.createdAt
  eventType := "stt.requested"
  correlationId := conversationId
  userId := chunk.userId
  spaceId := envelopeSpaceId chunk.spaceId
  conversationId := conversationId
  payload :=
    [("conversationId", .str chunk.conversationId.text),
      ("userId", .str chunk.userId),
      ("spaceId", .str (envelopeSpaceId chunk.spaceId)),
      ("chunkId", .str chunk.chunkId),
      ("sequenceNumber", .int chunk.sequenceNumber)] ++
    sttPayloadAudioFields storage chunk audioChunk

inductive Registration where
  | upload (upload : StoredUpload)
  | ingest (file : SavedFile)

/-- One publication of stt.requested for a chunk. The audio worker may see its event more than
once. A requeue reads the documents as they are by then and is asked for under some spelling
of the conversation id. -/
inductive Publication where
  | registered (stamp : Stamp)
  | forwarded (ingested stamp : Stamp)
  | requeued (storage : AudioStorage) (conversationId userId spaceId : String)
      (audioFilePath : Option String) (audioChunk : Option AudioChunk) (stamp : Stamp)

def Publication.event? (request : ChunkRequest) :
    Registration → Publication → Option EventEnvelope
  | .upload stored, .registered stamp => some (completeAudioUpload request stored stamp)
  | .ingest file, .forwarded ingested stamp =>
    some (handleAudioEvent (ingestAudio request file ingested) stamp)
  | _, .requeued storage conversationId userId spaceId audioFilePath audioChunk stamp =>
    some (requeueLostStt storage conversationId
      { conversationId := request.conversation
        userId := userId
        spaceId := spaceId
        chunkId := request.chunkId
        sequenceNumber := request.sequenceNumber
        audioFilePath := audioFilePath } audioChunk stamp)
  | _, _ => none

def sttRequests (request : ChunkRequest) (registration : Registration)
    (publications : List Publication) : List EventEnvelope :=
  publications.filterMap (Publication.event? request registration)

def Publication.isRequeue : Publication → Bool
  | .requeued .. => true
  | _ => false

def OneJob (events : List EventEnvelope) : Prop :=
  ∀ event ∈ events, ∀ other ∈ events,
    JobLease.logicalJobKey event = JobLease.logicalJobKey other

/-- A chunk is asked for by its registration and by the finalizer, and it was registered by an
upload, or under a spelling of the conversation id that is not the stored one. -/
def AskedTwice (request : ChunkRequest) (registration : Registration)
    (publications : List Publication) : Prop :=
  (∃ publication ∈ publications, publication.isRequeue = true) ∧
  (∃ publication ∈ publications, publication.isRequeue = false ∧
    (publication.event? request registration).isSome = true) ∧
  match registration with
  | .upload _ => True
  | .ingest _ => request.conversationId ≠ request.conversation.text

end AiBuddy.Conversation
