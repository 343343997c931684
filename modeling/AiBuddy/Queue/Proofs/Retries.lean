import AiBuddy.Misc.Words
import AiBuddy.Queue.JobLease.LogicalJobKey

/-!
# The key of a retried event

A retry copy keeps the key, as the key does not read the attempt. The relay's copy has a new id, so
it keeps the key exactly where the rule that applies does not read the id.
-/

namespace AiBuddy.Queue

open JobLease

variable {event : EventEnvelope} {newId : String}

theorem IsUuid.ne_empty (h : IsUuid newId) : newId ≠ "" := by
  intro hempty
  have hlength := h.length
  rw [hempty] at hlength
  simp at hlength

theorem IsUuid.notSpace (h : IsUuid newId) {c : Char} (hc : c ∈ newId.toList) :
    Text.isSpace c = false ∧ c ≠ '|' ∧ c ≠ '\n' := by
  have hrange : (48 ≤ c.toNat ∧ c.toNat ≤ 57) ∨ (97 ≤ c.toNat ∧ c.toNat ≤ 102) ∨ c.toNat = 45 := by
    rcases h.digits c hc with hdigit | hletter | rfl
    · have hbounds := Bool.and_eq_true_iff.mp hdigit
      exact .inl ⟨of_decide_eq_true hbounds.1, of_decide_eq_true hbounds.2⟩
    · exact .inr (.inl hletter)
    · exact .inr (.inr rfl)
  refine ⟨?_, ?_, ?_⟩
  · simp only [Text.isSpace, Bool.or_eq_false_iff, Bool.and_eq_false_iff, decide_eq_false_iff_not,
      beq_eq_false_iff_ne, ne_eq]
    omega
  · rintro rfl
    simp at hrange
  · rintro rfl
    simp at hrange

theorem IsUuid.clean (h : IsUuid newId) : JobLease.clean (.str newId) = newId := by
  have hlower : Text.lower newId ∉ ["none", "null", "undefined"] := by
    intro hmem
    have hlength : (Text.lower newId).toList.length = 36 := by simp [Text.lower, h.length]
    simp only [List.mem_cons, List.not_mem_nil, or_false] at hmem
    rcases hmem with heq | heq | heq <;> rw [heq] at hlength <;> simp at hlength
  unfold JobLease.clean
  simp only [PyVal.truthy, PyVal.pyStr, h.ne_empty, ne_eq, not_false_eq_true, decide_true, if_true]
  rw [Text.strip_of_no_space fun c hc => (h.notSpace hc).1, if_neg hlower]

theorem IsUuid.field (h : IsUuid newId) : JobLease.field (.str newId) = newId := by
  unfold JobLease.field
  rw [h.clean, Text.replace_of_notMem fun hbar => (h.notSpace hbar).2.1 rfl,
    Text.replace_of_notMem fun hbreak => (h.notSpace hbreak).2.2 rfl,
    Text.take_of_length_le (by rw [h.length]; decide)]

theorem clean_clean {value : PyVal} :
    JobLease.clean (.str (JobLease.clean value)) = JobLease.clean value := by
  have hstrip : ∀ text : String, Text.strip (Text.strip text) = Text.strip text := by
    intro text
    by_cases hempty : (Text.strip text).toList = []
    · rw [String.toList_eq_nil_iff.mp hempty]
      rfl
    · apply String.toList_injective
      rw [Text.toList_strip, Text.trim_of_trimmed _ hempty]
      rw [Text.toList_strip]
      exact Text.trimmed_trim _
  have hcases : JobLease.clean value = "" ∨
      JobLease.clean value = Text.strip (if value.truthy then value.pyStr else "") ∧
        Text.lower (JobLease.clean value) ∉ ["none", "null", "undefined"] := by
    unfold JobLease.clean
    by_cases hlower : Text.lower (Text.strip (if value.truthy then value.pyStr else "")) ∈
        ["none", "null", "undefined"]
    · exact .inl (if_pos hlower)
    · rw [if_neg hlower]
      exact .inr ⟨rfl, hlower⟩
  rcases hcases with hempty | ⟨htext, hlower⟩
  · rw [hempty]
    decide
  · by_cases hne : JobLease.clean value = ""
    · rw [hne]
      decide
    · have hagain : Text.strip (JobLease.clean value) = JobLease.clean value := by
        rw [htext, hstrip]
      rw [JobLease.clean, PyVal.truthy, PyVal.pyStr, if_pos (decide_eq_true hne), hagain,
        if_neg hlower]

theorem field_clean {value : PyVal} :
    JobLease.field (.str (JobLease.clean value)) = JobLease.field value := by
  rw [JobLease.field, clean_clean, JobLease.field]

theorem stampOrId_relay : stampOrId (event.relay newId) =
    if isoStamp event ≠ "" then isoStamp event else field (.str newId) := rfl

theorem stampOrId_relay_of_stamp (h : isoStamp event ≠ "") :
    stampOrId (event.relay newId) = stampOrId event := by
  rw [stampOrId_relay, if_pos h, stampOrId, if_pos h]

variable {payload : Payload}

theorem withGeneration_congr {kind base : String} {other : EventEnvelope}
    (h : (truthy (payload.get "reprocess") || contains (Text.lower (clean (payload.get "source")))
      "reprocess") = true → stampOrId other = stampOrId event) :
    withGeneration kind base payload other = withGeneration kind base payload event := by
  unfold withGeneration
  by_cases hredo : (truthy (payload.get "reprocess") ||
      contains (Text.lower (clean (payload.get "source"))) "reprocess") = true
  · simp only [hredo, if_true, h hredo]
  · simp only [hredo, Bool.false_eq_true, if_false]

theorem stampOrId_of_withGeneration_eq {kind base : String} {other : EventEnvelope}
    (hredo : (truthy (payload.get "reprocess") || contains
      (Text.lower (clean (payload.get "source"))) "reprocess") = true)
    (h : withGeneration kind base payload other = withGeneration kind base payload event) :
    stampOrId other = stampOrId event := by
  unfold withGeneration at h
  simp only [hredo, if_true] at h
  split at h
  · exact (String.append_right_inj _).mp
      ((String.append_left_inj _).mp ((String.append_left_inj _).mp h))
  · exact (String.append_right_inj _).mp h

theorem relay_keeps (h : namedByEventId event = false) :
    logicalJobKey (event.relay newId) = logicalJobKey event := by
  have hgeneration : ∀ kind base : String, redoneById event = false →
      withGeneration kind base event.payload (event.relay newId) =
        withGeneration kind base event.payload event := by
    intro kind base hredone
    refine withGeneration_congr fun hredo => stampOrId_relay_of_stamp ?_
    rw [redoneById, hredo, Bool.true_and] at hredone
    exact of_decide_eq_false hredone
  unfold namedByEventId at h
  unfold logicalJobKey
  dsimp only [EventEnvelope.relay] at h ⊢
  generalize (if field ((PyVal.str event.eventType).or (.str "event")) 80 ≠ "" then
    field ((PyVal.str event.eventType).or (.str "event")) 80 else "event") = kind at h ⊢
  generalize clean ((event.payload.get "conversationId").or (.str event.conversationId)) =
    conversation at h ⊢
  -- one case for each rule of the key
  refine ite_congr rfl (fun _ => rfl) fun hjob => ?_
  rw [if_neg hjob] at h
  refine ite_congr rfl (fun hwindow => ?_) fun hwindow => ?_
  · rw [if_pos hwindow] at h
    exact hgeneration _ _ h
  rw [if_neg hwindow] at h
  refine ite_congr rfl (fun _ => rfl) fun hmindmap => ?_
  rw [if_neg hmindmap] at h
  refine ite_congr rfl (fun _ => rfl) fun hdocument => ?_
  rw [if_neg hdocument] at h
  refine ite_congr rfl (fun hbriefing => ?_) fun hbriefing => ?_
  · rw [if_pos hbriefing] at h
    refine ite_congr rfl (fun hforced => ?_) fun _ => rfl
    rw [hforced, Bool.true_and] at h
    exact congrArg _ (stampOrId_relay_of_stamp (of_decide_eq_false h))
  rw [if_neg hbriefing] at h
  refine ite_congr rfl (fun hgoal => ?_) fun hgoal => ?_
  · rw [if_pos hgoal] at h
    rw [if_pos (of_decide_eq_false h), if_pos (of_decide_eq_false h)]
  rw [if_neg hgoal] at h
  refine ite_congr rfl (fun hserial => ?_) fun hserial => ?_
  · rw [if_pos hserial] at h
    exact hgeneration _ _ h
  rw [if_neg hserial] at h
  refine ite_congr rfl (fun _ => rfl) fun hsequence => ?_
  rw [if_neg hsequence] at h
  refine ite_congr rfl (fun _ => rfl) fun hconversation => ?_
  rw [if_neg hconversation] at h
  cases h

structure NewId (event : EventEnvelope) (newId : String) : Prop where
  uuid : IsUuid newId
  differs : newId ≠ JobLease.field (.str event.eventId)

theorem NewId.field_or_ne (hnew : NewId event newId) :
    field ((PyVal.str newId).or (.str "unknown")) ≠
      field ((PyVal.str event.eventId).or (.str "unknown")) := by
  have hor : ∀ text : String, text ≠ "" → (PyVal.str text).or (.str "unknown") = .str text := by
    intro text htext
    simp [PyVal.or, PyVal.truthy, htext]
  rw [hor newId hnew.uuid.ne_empty, hnew.uuid.field]
  by_cases hempty : event.eventId = ""
  · rw [hempty]
    intro heq
    have hlength := hnew.uuid.length
    rw [heq] at hlength
    revert hlength
    decide +kernel
  · rw [hor event.eventId hempty]
    exact hnew.differs

theorem relay_changes (hnew : NewId event newId) (h : namedByEventId event = true) :
    logicalJobKey (event.relay newId) ≠ logicalJobKey event := by
  have hstamp : isoStamp event = "" → stampOrId (event.relay newId) ≠ stampOrId event := by
    intro hiso
    rw [stampOrId_relay, if_neg (not_not_intro hiso), stampOrId, if_neg (not_not_intro hiso),
      hnew.uuid.field]
    exact hnew.differs
  have hgeneration : ∀ kind base : String, redoneById event = true →
      withGeneration kind base event.payload (event.relay newId) ≠
        withGeneration kind base event.payload event := by
    intro kind base hredone heq
    rw [redoneById, Bool.and_eq_true, decide_eq_true_eq] at hredone
    exact hstamp hredone.2 (stampOrId_of_withGeneration_eq hredone.1 heq)
  unfold namedByEventId at h
  unfold logicalJobKey
  dsimp only [EventEnvelope.relay] at h ⊢
  generalize (if field ((PyVal.str event.eventType).or (.str "event")) 80 ≠ "" then
    field ((PyVal.str event.eventType).or (.str "event")) 80 else "event") = kind at h ⊢
  generalize clean ((event.payload.get "conversationId").or (.str event.conversationId)) =
    conversation at h ⊢
  by_cases hjob : clean (event.payload.get "jobId") ≠ "" ∧
      startsWith kind "conversation." = false
  · rw [if_pos hjob] at h
    cases h
  rw [if_neg hjob] at h
  rw [if_neg hjob, if_neg hjob]
  by_cases hwindow : clean (event.payload.get "windowId") ≠ ""
  · rw [if_pos hwindow] at h
    rw [if_pos hwindow, if_pos hwindow]
    exact hgeneration _ _ h
  rw [if_neg hwindow] at h
  rw [if_neg hwindow, if_neg hwindow]
  by_cases hmindmap : clean (event.payload.get "mindmapId") ≠ ""
  · rw [if_pos hmindmap] at h
    cases h
  rw [if_neg hmindmap] at h
  rw [if_neg hmindmap, if_neg hmindmap]
  by_cases hdocument : clean (event.payload.get "documentId") ≠ ""
  · rw [if_pos hdocument] at h
    cases h
  rw [if_neg hdocument] at h
  rw [if_neg hdocument, if_neg hdocument]
  by_cases hbriefing : clean (event.payload.get "dateKey") ≠ "" ∧
      clean (.str event.userId) ≠ "" ∧ contains kind "briefing" = true
  · rw [if_pos hbriefing, Bool.and_eq_true, decide_eq_true_eq] at h
    rw [if_pos hbriefing, if_pos hbriefing, if_pos h.1, if_pos h.1]
    exact fun heq => hstamp h.2 ((String.append_right_inj _).mp heq)
  rw [if_neg hbriefing] at h
  rw [if_neg hbriefing, if_neg hbriefing]
  by_cases hgoal : startsWith kind "goal." = true
  · rw [if_pos hgoal, decide_eq_true_eq] at h
    rw [if_pos hgoal, if_pos hgoal, if_neg (not_not_intro h), if_neg (not_not_intro h), field_clean,
      field_clean, hnew.uuid.field]
    exact fun heq => hnew.differs ((String.append_right_inj _).mp heq)
  rw [if_neg hgoal] at h
  rw [if_neg hgoal, if_neg hgoal]
  by_cases hserial : kind ∈ conversationSerialTypes ∧ conversation ≠ ""
  · rw [if_pos hserial] at h
    rw [if_pos hserial, if_pos hserial]
    exact hgeneration _ _ h
  rw [if_neg hserial] at h
  rw [if_neg hserial, if_neg hserial]
  by_cases hsequence : sequenceOf event.payload ≠ .none ∧ conversation ≠ "" ∧
      Text.strip (sequenceOf event.payload).pyStr ≠ ""
  · rw [if_pos hsequence] at h
    cases h
  rw [if_neg hsequence] at h
  rw [if_neg hsequence, if_neg hsequence]
  by_cases hconversation : conversation ≠ "" ∧ startsWith kind "conversation." = true
  · rw [if_pos hconversation] at h
    cases h
  rw [if_neg hconversation, if_neg hconversation]
  intro heq
  exact hnew.field_or_ne ((String.append_right_inj _).mp heq)

theorem retry_keeps {event : EventEnvelope} : logicalJobKey event.retry = logicalJobKey event := rfl

theorem namedByEventId_retry {event : EventEnvelope} :
    namedByEventId event.retry = namedByEventId event := rfl

theorem copies_keep {relayed : List String} (h : namedByEventId event = false) :
    ∀ copy ∈ event.copies relayed, logicalJobKey copy = logicalJobKey event := by
  induction relayed generalizing event with
  | nil =>
    simp only [EventEnvelope.copies, List.mem_singleton, forall_eq]
    exact retry_keeps
  | cons newId rest ih =>
    have hretry : namedByEventId event.retry = false := h
    have hcopy : namedByEventId (event.retry.relay newId) = false := h
    have hrelay : logicalJobKey (event.retry.relay newId) = logicalJobKey event :=
      (relay_keeps hretry).trans retry_keeps
    have hrest := ih hcopy
    simp only [EventEnvelope.copies, List.forall_mem_cons]
    exact ⟨retry_keeps, hrelay, fun copy hcopy => (hrest copy hcopy).trans hrelay⟩

/-- Every copy of an event that is relayed at least once has the key of the event, exactly where the
rule of the key that applies does not read the event id. -/
theorem copies_keep_iff (newId : String) (relayed : List String) (hnew : NewId event newId) :
    (∀ copy ∈ event.copies (newId :: relayed), logicalJobKey copy = logicalJobKey event) ↔
      namedByEventId event = false := by
  refine ⟨fun hkeep => ?_, copies_keep⟩
  by_contra hnamed
  have hretry : NewId event.retry newId := ⟨hnew.uuid, hnew.differs⟩
  refine relay_changes hretry (by rw [namedByEventId_retry]; simpa using hnamed) ?_
  exact hkeep _ (by simp [EventEnvelope.copies])

def goalEvent (payload : Payload) : EventEnvelope where
  eventId := "5d1f0c9a-2b64-4f0e-9c1d-7a3e8b6f4012"
  eventType := "goal.plan.requested"
  correlationId := "g1"
  userId := "u1"
  spaceId := "s1"
  conversationId := ""
  payload := payload
  createdAt := "2026-01-05T10:00:00+00:00"

def relayId : String := "c07e5b12-91d8-4a6b-8f23-0e4d6a9b7c35"

theorem newId_relayId : NewId (goalEvent payload) relayId where
  uuid := ⟨by decide, List.forall_iff_forall_mem.mp (by decide +kernel)⟩
  differs := by
    have hfield : field (.str (goalEvent payload).eventId) =
        "5d1f0c9a-2b64-4f0e-9c1d-7a3e8b6f4012" := by
      change field (.str "5d1f0c9a-2b64-4f0e-9c1d-7a3e8b6f4012") = _
      decide +kernel
    rw [hfield]
    decide

/-- A goal event without a job id takes its key from the event id, which the relay replaces. -/
theorem goal_key_changes :
    ¬ ∀ copy ∈ (goalEvent [("goalId", .str "g1")]).copies [relayId],
      logicalJobKey copy = logicalJobKey (goalEvent [("goalId", .str "g1")]) := by
  intro hkeep
  have hcopy := hkeep ((goalEvent [("goalId", .str "g1")]).retry.relay relayId)
    (by simp [EventEnvelope.copies])
  revert hcopy
  decide +kernel

theorem copies_keep_iff_sample :
    (∀ copy ∈ (goalEvent [("goalId", .str "g1"), ("jobId", .str "j1")]).copies [relayId],
      logicalJobKey copy =
        logicalJobKey (goalEvent [("goalId", .str "g1"), ("jobId", .str "j1")])) ↔
      namedByEventId (goalEvent [("goalId", .str "g1"), ("jobId", .str "j1")]) = false :=
  copies_keep_iff relayId [] newId_relayId

end AiBuddy.Queue
