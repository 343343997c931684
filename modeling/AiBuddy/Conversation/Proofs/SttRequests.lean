import AiBuddy.Conversation.SttRequests
import AiBuddy.Queue.JobLease.Ownership

/-!
# The logical keys of one chunk's requests

A request that carries a job id is keyed by it, the others are keyed by
conversation, sequence number and chunk id.
-/

namespace AiBuddy.Conversation

open Queue Queue.JobLease

theorem isSpace_of_isHexDigit {c : Char} (h : isHexDigit c = true) : Text.isSpace c = false := by
  have hrange : 48 ≤ c.toNat ∧ c.toNat ≤ 102 := by
    simp only [isHexDigit, Bool.or_eq_true, Bool.and_eq_true, decide_eq_true_eq, Char.le_def,
      UInt32.le_iff_toNat_le] at h
    have hvals : ('0' : Char).val.toNat = 48 ∧ ('9' : Char).val.toNat = 57 ∧
        ('a' : Char).val.toNat = 97 ∧ ('f' : Char).val.toNat = 102 ∧
        ('A' : Char).val.toNat = 65 ∧ ('F' : Char).val.toNat = 70 := by decide
    unfold Char.toNat
    omega
  simp only [Text.isSpace, Bool.or_eq_false_iff, Bool.and_eq_false_iff, decide_eq_false_iff_not,
    beq_eq_false_iff_ne]
  omega

theorem field_of_hex {text : String} (hlength : text.toList.length = 24)
    (hdigits : ∀ c ∈ text.toList, isHexDigit c = true) :
    clean (.str text) = text ∧ field (.str text) = text := by
  have hspace : ∀ c ∈ text.toList, Text.isSpace c = false :=
    fun c hc => isSpace_of_isHexDigit (hdigits c hc)
  have hnotMem : ∀ c, isHexDigit c = false → c ∉ text.toList := by
    intro c hc hmem
    rw [hdigits c hmem] at hc
    cases hc
  have hne : text ≠ "" := by
    rintro rfl
    simp at hlength
  have hclean : clean (.str text) = text := by
    have hlower : Text.lower text ∉ ["none", "null", "undefined"] := by
      intro hmem
      have hlen : (Text.lower text).toList.length = 24 := by simp [Text.lower, hlength]
      simp only [List.mem_cons, List.not_mem_nil, or_false] at hmem
      rcases hmem with h | h | h <;> rw [h] at hlen <;> exact absurd hlen (by decide)
    simp only [clean, PyVal.truthy, PyVal.pyStr, hne, ne_eq, not_false_eq_true, decide_true,
      if_true,
      Text.strip_of_no_space hspace, if_neg hlower]
  refine ⟨hclean, ?_⟩
  rw [field, hclean, Text.replace_of_notMem (hnotMem '|' (by decide)),
    Text.replace_of_notMem (hnotMem '\n' (by decide)), Text.take_of_length_le (by omega)]

theorem stt_kind : field ((PyVal.str "stt.requested").or (.str "event")) 80 = "stt.requested" := by
  decide +kernel

theorem stt_ne_empty : ("stt.requested" = "") = False := by simp

theorem logicalJobKey_of_job {event : EventEnvelope} (hkind : event.eventType = "stt.requested")
    (hjob : clean (event.payload.get "jobId") ≠ "") :
    logicalJobKey event =
      "stt.requested" ++ "|job:" ++ field (.str (clean (event.payload.get "jobId"))) := by
  have hstart : startsWith "stt.requested" "conversation." = false := by decide
  unfold logicalJobKey
  rw [hkind, stt_kind]
  simp only [stt_ne_empty, ne_eq, not_false_eq_true, if_true, hjob, hstart, and_self]

def chunkKey (kind conversation : String) (sequenceNumber : Nat) (chunkId : String) : String :=
  let chunk := clean (.str chunkId)
  let suffix := if chunk ≠ "" then "|chunk:" ++ field (.str chunk) else ""
  kind ++ "|conversation:" ++ conversation ++ "|seq:" ++ field (.int sequenceNumber) ++ suffix

def earlierFields : List String := ["jobId", "windowId", "mindmapId", "documentId", "dateKey"]

variable {conversation chunkId : String} {sequenceNumber : Nat}

theorem logicalJobKey_of_sequence {event : EventEnvelope}
    (hkind : event.eventType = "stt.requested")
    (hearlier : ∀ name ∈ earlierFields, event.payload.get name = .none)
    (hconversation : event.payload.get "conversationId" = .str conversation)
    (hsequence : event.payload.get "sequenceNumber" = .int sequenceNumber)
    (hchunk : event.payload.get "chunkId" = .str chunkId)
    (hlength : conversation.toList.length = 24)
    (hdigits : ∀ c ∈ conversation.toList, isHexDigit c = true) :
    logicalJobKey event = chunkKey "stt.requested" conversation sequenceNumber chunkId := by
  have hnone : clean .none = "" := by decide
  have hne : conversation ≠ "" := by
    rintro rfl
    simp at hlength
  have hor : (PyVal.str conversation).or (.str event.conversationId) = .str conversation := by
    simp [PyVal.or, PyVal.truthy, hne]
  obtain ⟨hclean, hfield⟩ := field_of_hex hlength hdigits
  have hsequenceOf : sequenceOf event.payload = .int sequenceNumber := by
    simp [sequenceOf, hsequence]
  have hstrip : Text.strip (PyVal.int sequenceNumber).pyStr ≠ "" := by
    simp only [PyVal.pyStr]
    rw [Text.strip_of_no_space (fun _ => Text.isSpace_of_mem_repr)]
    exact Text.repr_ne_empty _
  have hgoal : startsWith "stt.requested" "goal." = false := by decide
  have hserial : "stt.requested" ∉ conversationSerialTypes := by simp [conversationSerialTypes]
  simp only [earlierFields, List.forall_mem_cons] at hearlier
  obtain ⟨hjob, hwindow, hmindmap, hdocument, hdate, -⟩ := hearlier
  unfold logicalJobKey
  rw [hkind, stt_kind]
  have hkindNe : ("stt.requested" : String) ≠ "" := by decide
  simp only [if_pos hkindNe, hjob, hwindow, hmindmap, hdocument, hdate, hnone, hconversation, hor,
    hclean, hsequenceOf, hchunk]
  -- no rule before the sequence number applies
  rw [if_neg (fun h => h.1 rfl), if_neg (fun h => h rfl), if_neg (fun h => h rfl),
    if_neg (fun h => h rfl), if_neg (fun h => h.1 rfl), if_neg (by rw [hgoal]; simp),
    if_neg (fun h => hserial h.1), if_pos ⟨by simp, hne, hstrip⟩, hfield, chunkKey]

variable {stamp : Stamp}

section Publishers

variable (request : ChunkRequest)

theorem request_digits : ∀ c ∈ request.conversationId.toList, isHexDigit c = true := by
  have h := request.found.1
  simp only [ObjectId.isValid, Bool.and_eq_true, List.all_eq_true] at h
  exact h.2

theorem request_length : request.conversationId.toList.length = 24 := by
  have h := request.found.1
  simp only [ObjectId.isValid, Bool.and_eq_true, decide_eq_true_eq] at h
  exact h.1

theorem clean_stableJobId : clean (.str (stableJobId request.conversationId request.sequenceNumber
    request.chunkId)) ≠ "" := by
  have hmem : ':' ∈ (stableJobId request.conversationId request.sequenceNumber
      request.chunkId).toList := by simp [stableJobId]
  generalize stableJobId request.conversationId request.sequenceNumber request.chunkId =
    jobId at hmem
  have hne : jobId ≠ "" := by
    rintro rfl
    simp at hmem
  have hstrip : ':' ∈ (Text.strip jobId).toList := Text.mem_strip hmem (by decide)
  have hlower : ':' ∈ (Text.lower (Text.strip jobId)).toList := by
    rw [Text.lower, String.toList_ofList]
    exact List.mem_map.mpr ⟨':', hstrip, by decide⟩
  simp only [clean, PyVal.truthy, PyVal.pyStr, hne, ne_eq, not_false_eq_true, decide_true, if_true]
  split
  · rename_i hsentinel
    simp only [List.mem_cons, List.not_mem_nil, or_false] at hsentinel
    rcases hsentinel with h | h | h <;> rw [h] at hlower <;> exact absurd hlower (by decide)
  · intro hempty
    rw [hempty] at hstrip
    simp at hstrip

def uploadJobId : String :=
  field (.str (clean (.str (stableJobId request.conversationId request.sequenceNumber
    request.chunkId))))

theorem completeAudioUpload_key {upload : StoredUpload} :
    logicalJobKey (completeAudioUpload request upload stamp) =
      "stt.requested" ++ "|job:" ++ uploadJobId request := by
  have hget : (completeAudioUpload request upload stamp).payload.get "jobId" =
      .str (stableJobId request.conversationId request.sequenceNumber request.chunkId) := by
    simp [completeAudioUpload, Payload.get]
  have hjob := logicalJobKey_of_job rfl
    (by rw [hget]; exact clean_stableJobId request)
  rw [hjob, hget, uploadJobId]

theorem handleAudioEvent_key {file : SavedFile} {ingested : Stamp} :
    logicalJobKey (handleAudioEvent (ingestAudio request file ingested) stamp) =
      chunkKey "stt.requested" request.conversationId request.sequenceNumber request.chunkId := by
  refine logicalJobKey_of_sequence rfl ?_ ?_ ?_ ?_ (request_length request) (request_digits request)
  · simp [earlierFields, handleAudioEvent, ingestAudio, AudioChunkMetadata.modelDump,
      ingestMetadata, Payload.get, List.lookup_cons, optText]
  all_goals
    simp [handleAudioEvent, ingestAudio, AudioChunkMetadata.modelDump, ingestMetadata, Payload.get,
      List.lookup_cons]

def audioFieldNames : List String :=
  ["filename", "contentType", "storageProvider", "bucket", "objectKey", "filePath"]

theorem mem_audioFieldNames {storage : AudioStorage} {chunk : TranscriptChunk}
    {audioChunk : Option AudioChunk} :
    ∀ pair ∈ sttPayloadAudioFields storage chunk audioChunk, pair.1 ∈ audioFieldNames := by
  have href : ∀ path, ∀ pair ∈ audioReferencePayload storage path, pair.1 ∈ audioFieldNames := by
    intro path
    simp only [audioReferencePayload]
    split <;> simp [audioFieldNames]
  have hlegacy : ∀ audio, ∀ pair ∈ legacyS3ReferencePayload storage chunk audio,
      pair.1 ∈ audioFieldNames := by
    intro audio
    simp [legacyS3ReferencePayload, audioFieldNames]
  have hhead : ∀ filename contentType : PyVal,
      ∀ pair ∈ ([("filename", filename), ("contentType", contentType)] : Payload),
        pair.1 ∈ audioFieldNames := by
    simp [audioFieldNames]
  unfold sttPayloadAudioFields
  intro pair hpair
  cases audioChunk with
  | none =>
    simp only at hpair
    rcases List.mem_append.mp hpair with h | h
    · exact hhead _ _ pair h
    · split at h
      · exact hlegacy _ pair h
      · exact href _ pair h
  | some audio =>
    simp only at hpair
    split at hpair
    · rcases List.mem_append.mp hpair with h | h
      · exact hhead _ _ pair h
      · simp only [List.mem_cons, List.not_mem_nil, or_false] at h
        rcases h with rfl | rfl | rfl <;> simp [audioFieldNames]
    · split at hpair <;> rcases List.mem_append.mp hpair with h | h
      · exact hhead _ _ pair h
      · exact hlegacy _ pair h
      · exact hhead _ _ pair h
      · exact href _ pair h

theorem lookup_audioFields (storage : AudioStorage) (chunk : TranscriptChunk)
    (audioChunk : Option AudioChunk) {name : String} (h : name ∈ earlierFields) :
    (sttPayloadAudioFields storage chunk audioChunk).lookup name = none := by
  rw [List.lookup_eq_none_iff]
  intro pair hpair
  have hname := mem_audioFieldNames pair hpair
  rw [bne_iff_ne]
  rintro rfl
  simp only [earlierFields, audioFieldNames, List.mem_cons, List.not_mem_nil, or_false] at h hname
  rcases h with h | h | h | h | h <;> rw [h] at hname <;> simp at hname

theorem requeueLostStt_key {storage : AudioStorage} {conversationId : String}
    {chunk : TranscriptChunk} {audioChunk : Option AudioChunk} :
    logicalJobKey (requeueLostStt storage conversationId chunk audioChunk stamp) =
      chunkKey "stt.requested" chunk.conversationId.text chunk.sequenceNumber chunk.chunkId := by
  refine logicalJobKey_of_sequence rfl ?_ ?_ ?_ ?_ chunk.conversationId.length_eq
    chunk.conversationId.digits
  · intro name hname
    have haudio := lookup_audioFields storage chunk audioChunk hname
    simp only [earlierFields, List.mem_cons, List.not_mem_nil, or_false] at hname
    rcases hname with rfl | rfl | rfl | rfl | rfl <;>
      simp [requeueLostStt, Payload.get, List.lookup_cons, haudio]
  all_goals simp [requeueLostStt, Payload.get, List.lookup_cons]

end Publishers

theorem chunkKey_inj {kind conversation' : String}
    (h : chunkKey kind conversation sequenceNumber chunkId =
      chunkKey kind conversation' sequenceNumber chunkId) :
    conversation = conversation' := by
  have hlist := congrArg String.toList h
  exact String.toList_injective (by simpa [chunkKey] using hlist)

theorem job_ne_chunkKey {kind jobId : String} :
    kind ++ "|job:" ++ jobId ≠ chunkKey kind conversation sequenceNumber chunkId := by
  intro h
  have hlist := congrArg String.toList h
  simp [chunkKey] at hlist

section Chunk

variable {request : ChunkRequest} {registration : Registration} {event : EventEnvelope}

theorem requeue_key {publication : Publication} (hrequeue : publication.isRequeue = true)
    (hevent : publication.event? request registration = some event) :
    logicalJobKey event = chunkKey "stt.requested" request.conversation.text
      request.sequenceNumber request.chunkId := by
  cases publication with
  | registered | forwarded => simp [Publication.isRequeue] at hrequeue
  | requeued =>
    cases registration <;> (cases hevent; rw [requeueLostStt_key])

def Registration.key (request : ChunkRequest) : Registration → String
  | .upload _ => "stt.requested" ++ "|job:" ++ uploadJobId request
  | .ingest _ => chunkKey "stt.requested" request.conversationId request.sequenceNumber
      request.chunkId

theorem registration_key {publication : Publication} (hrequeue : publication.isRequeue = false)
    (hevent : publication.event? request registration = some event) :
    logicalJobKey event = registration.key request := by
  cases registration with
  | upload stored =>
    cases publication with
    | registered stamp =>
      rw [← Option.some.inj hevent, completeAudioUpload_key]
      rfl
    | forwarded => cases hevent
    | requeued => simp [Publication.isRequeue] at hrequeue
  | ingest file =>
    cases publication with
    | registered => cases hevent
    | forwarded ingested stamp =>
      rw [← Option.some.inj hevent, handleAudioEvent_key]
      rfl
    | requeued => simp [Publication.isRequeue] at hrequeue

theorem registration_key_eq_iff :
    registration.key request = chunkKey "stt.requested" request.conversation.text
      request.sequenceNumber request.chunkId ↔
    ¬ match registration with
      | .upload _ => True
      | .ingest _ => request.conversationId ≠ request.conversation.text := by
  cases registration with
  | upload =>
    simp only [not_true_eq_false, iff_false]
    exact job_ne_chunkKey
  | ingest =>
    simp only [ne_eq, not_not]
    constructor
    · exact chunkKey_inj
    · intro h
      simp only [Registration.key, h]

/-- All requests of a chunk are one job unless it is asked for twice in two ways. -/
theorem oneJob_iff (publications : List Publication) :
    OneJob (sttRequests request registration publications) ↔
      ¬ AskedTwice request registration publications := by
  constructor
  · rintro hone ⟨⟨requeue, hmem, hrequeue⟩, ⟨first, hfirstMem, hfirst, hsome⟩, hother⟩
    obtain ⟨event, hevent⟩ := Option.isSome_iff_exists.mp hsome
    obtain ⟨other, hotherEvent⟩ : ∃ other, requeue.event? request registration = some other := by
      cases requeue with
      | registered | forwarded => simp [Publication.isRequeue] at hrequeue
      | requeued => cases registration <;> exact ⟨_, rfl⟩
    have hkeys := hone event (List.mem_filterMap.mpr ⟨first, hfirstMem, hevent⟩)
      other (List.mem_filterMap.mpr ⟨requeue, hmem, hotherEvent⟩)
    rw [registration_key hfirst hevent, requeue_key hrequeue hotherEvent] at hkeys
    exact registration_key_eq_iff.mp hkeys hother
  · intro hnot
    have hmixed : ∀ requeue ∈ publications, requeue.isRequeue = true →
        ∀ first ∈ publications, first.isRequeue = false →
          ∀ event, first.event? request registration = some event →
            registration.key request = chunkKey "stt.requested" request.conversation.text
              request.sequenceNumber request.chunkId := by
      intro requeue hmem hrequeue first hfirstMem hfirst event hevent
      refine registration_key_eq_iff.mpr
        (fun hother => hnot ⟨⟨requeue, hmem, hrequeue⟩, ?_, hother⟩)
      exact ⟨first, hfirstMem, hfirst, by simp [hevent]⟩
    intro event hevent other hother
    obtain ⟨p, hp, hpEvent⟩ := List.mem_filterMap.mp hevent
    obtain ⟨q, hq, hqEvent⟩ := List.mem_filterMap.mp hother
    cases hpRequeue : p.isRequeue <;> cases hqRequeue : q.isRequeue
    · rw [registration_key hpRequeue hpEvent, registration_key hqRequeue hqEvent]
    · rw [registration_key hpRequeue hpEvent, requeue_key hqRequeue hqEvent]
      exact hmixed q hq hqRequeue p hp hpRequeue event hpEvent
    · rw [requeue_key hpRequeue hpEvent, registration_key hqRequeue hqEvent]
      exact (hmixed p hp hpRequeue q hq hqRequeue other hqEvent).symm
    · rw [requeue_key hpRequeue hpEvent, requeue_key hqRequeue hqEvent]

end Chunk

/-! An uploaded chunk that the finalizer asks for again while its first request is worked on. -/

def sampleRequest : ChunkRequest where
  conversationId := "65f0c0ffee65f0c0ffee65f0"
  userId := "u1"
  spaceId := "s1"
  chunkId := "c1"
  sequenceNumber := 3
  conversation :=
    ⟨"65f0c0ffee65f0c0ffee65f0", by decide, List.all_eq_true.mp (by decide), by decide⟩
  found := by decide

def sampleUpload : StoredUpload := ⟨"audio", "conversations/c1.wav", 4096, "audio/wav"⟩

def sampleStorage : AudioStorage := ⟨true, fun _ => ("", ""), some "audio", fun _ _ _ _ _ => ""⟩

def sampleFirst : EventEnvelope := completeAudioUpload sampleRequest sampleUpload ⟨"e1", ""⟩

def sampleAgain : EventEnvelope :=
  requeueLostStt sampleStorage sampleRequest.conversationId
    ⟨sampleRequest.conversation, "u1", "s1", "c1", 3, none⟩ none ⟨"e2", ""⟩

/-- The keyspace after worker `w1` took the first request. -/
def sampleLeased : Redis.Db Key :=
  ((Call.acquire sampleFirst "w1" "1-0").eval defaultLeaseSettings 0 ⟨0, fun _ => none⟩).2

/-- Two workers lease the two requests of one chunk at the same time. -/
theorem upload_then_requeue_two_leases :
    sttRequests sampleRequest (.upload sampleUpload)
        [.registered ⟨"e1", ""⟩,
          .requeued sampleStorage sampleRequest.conversationId "u1" "s1" none none ⟨"e2", ""⟩] =
      [sampleFirst, sampleAgain] ∧
    ¬ OneJob [sampleFirst, sampleAgain] ∧
    ((Call.acquire sampleFirst "w1" "1-0").eval {} 0 ⟨0, fun _ => none⟩).1 =
      .ok (.decision "run" "1" "w1") ∧
    ((Call.acquire sampleAgain "w2" "2-0").eval {} 0 sampleLeased).1 =
      .ok (.decision "run" "2" "w2") := by
  refine ⟨rfl, ?_, by decide +kernel, by decide +kernel⟩
  intro hone
  have hkeys := hone sampleFirst (by simp) sampleAgain (by simp)
  exact absurd hkeys (by decide +kernel)

end AiBuddy.Conversation
