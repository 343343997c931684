import AiBuddy.Queue.JobLease.LogicalJobKey

/-!
# What a logical job key tells apart

A key is the event type followed by labelled fields. The fields hold no separator, so the key can
be read back: two keys are the same exactly where the event types, the fields that name the job
and those of its generation are the same, as `_field` writes them.
-/

namespace AiBuddy.Queue.JobLease

inductive Label where
  | job
  | window
  | mindmap
  | document
  | user
  | date
  | goal
  | conversation
  | seq
  | chunk
  | event
  | version
  | redo
  | source
  | force
  deriving DecidableEq

variable {label : Label}

namespace Label

def name : Label → String
  | job => "job"
  | window => "window"
  | mindmap => "mindmap"
  | document => "document"
  | user => "user"
  | date => "date"
  | goal => "goal"
  | conversation => "conversation"
  | seq => "seq"
  | chunk => "chunk"
  | event => "event"
  | version => "v"
  | redo => "redo"
  | source => "src"
  | force => "force"

def mark : Label → String
  | job => "|job:"
  | window => "|window:"
  | mindmap => "|mindmap:"
  | document => "|document:"
  | user => "|user:"
  | date => "|date:"
  | goal => "|goal:"
  | conversation => "|conversation:"
  | seq => "|seq:"
  | chunk => "|chunk:"
  | event => "|event:"
  | version => "|v:"
  | redo => "|redo:"
  | source => "|src:"
  | force => "|force:"

def ofGeneration : Label → Bool
  | version | redo | source | force => true
  | _ => false

theorem name_injective {a b : Label} (h : a.name = b.name) : a = b := by
  cases a <;> cases b <;> first | rfl | exact absurd h (by decide)

theorem toList_mark : label.mark.toList = '|' :: (label.name.toList ++ [':']) := by
  cases label <;> decide

theorem colon_notMem_name : ':' ∉ label.name.toList := by
  cases label <;> decide

theorem bar_notMem_name : '|' ∉ label.name.toList := by
  cases label <;> decide

end Label

def keyText (base : String) (fields : List (Label × String)) : String :=
  fields.foldl (fun base part => base ++ part.1.mark ++ part.2) base

def optional {α : Type} (label : Label) (value : α) (present : Prop) [Decidable present] :
    List (Label × α) :=
  if present then [(label, value)] else []

theorem forall_mem_optional {α : Type} {value : α} {present : Prop} [Decidable present]
    {p : Label → α → Prop} (h : p label value) :
    ∀ part ∈ optional label value present, p part.1 part.2 := by
  intro part hpart
  unfold optional at hpart
  split at hpart
  · rw [List.mem_singleton.mp hpart]
    exact h
  · cases hpart

variable {base : String}

theorem keyText_optional {value : String} {present : Prop} [Decidable present] :
    keyText base (optional label value present) =
      if present then base ++ label.mark ++ value else base := by
  unfold optional
  split <;> rfl

theorem keyText_append {front back : List (Label × String)} :
    keyText base (front ++ back) = keyText (keyText base front) back := by
  rw [keyText, List.foldl_append, keyText, keyText]

def fieldText (part : Label × String) : String := part.1.name ++ ":" ++ part.2

theorem fieldText_injective {part part' : Label × String} (h : fieldText part = fieldText part') :
    part = part' := by
  obtain ⟨label, value⟩ := part
  obtain ⟨label', value'⟩ := part'
  have hchars : label.name.toList ++ ':' :: value.toList =
      label'.name.toList ++ ':' :: value'.toList := by
    simpa [fieldText] using congrArg String.toList h
  have hsplit := congrArg (List.splitOn ':') hchars
  rw [List.splitOn_append_cons_self_of_not_mem (Label.colon_notMem_name),
    List.splitOn_append_cons_self_of_not_mem (Label.colon_notMem_name),
    List.cons.injEq] at hsplit
  obtain rfl := Label.name_injective (String.toList_inj.mp hsplit.1)
  have hvalue := List.append_cancel_left hchars
  rw [List.cons.injEq] at hvalue
  rw [String.toList_inj.mp hvalue.2]

theorem split_keyText {fields : List (Label × String)} (h : ∀ part ∈ fields, '|' ∉ part.2.toList) :
    Text.split '|' (keyText base fields) = Text.split '|' base ++ fields.map fieldText := by
  induction fields generalizing base with
  | nil => simp [keyText]
  | cons part rest ih =>
    have hpart : '|' ∉ (fieldText part).toList := by
      simp [fieldText, Label.bar_notMem_name, h part List.mem_cons_self]
    have hchars : (base ++ part.1.mark ++ part.2).toList =
        base.toList ++ '|' :: (fieldText part).toList := by
      simp [fieldText, Label.toList_mark]
    have hsplit : Text.split '|' (base ++ part.1.mark ++ part.2) =
        Text.split '|' base ++ [fieldText part] := by
      rw [Text.split, hchars, List.splitOn_append_cons_self, List.splitOn_eq_singleton hpart]
      simp [Text.split]
    rw [keyText, List.foldl_cons, ← keyText,
      ih fun other hother => h other (List.mem_cons_of_mem _ hother), hsplit]
    simp

theorem keyText_inj {base' : String} {fields fields' : List (Label × String)}
    (hbase : '|' ∉ base.toList) (hbase' : '|' ∉ base'.toList)
    (h : ∀ part ∈ fields, '|' ∉ part.2.toList) (h' : ∀ part ∈ fields', '|' ∉ part.2.toList) :
    keyText base fields = keyText base' fields' ↔ base = base' ∧ fields = fields' := by
  refine ⟨fun heq => ?_, fun ⟨heq, heq'⟩ => heq ▸ heq' ▸ rfl⟩
  have hsplit := congrArg (Text.split '|') heq
  rw [split_keyText h, split_keyText h', Text.split_singleton hbase, Text.split_singleton hbase',
    List.singleton_append, List.singleton_append, List.cons.injEq] at hsplit
  exact ⟨hsplit.1, List.map_injective_iff.mpr (fun _ _ => fieldText_injective) hsplit.2⟩

def kindOf (event : EventEnvelope) : String :=
  let kindField := field ((PyVal.str event.eventType).or (.str "event")) 80
  if kindField ≠ "" then kindField else "event"

/-- The fields of `_with_generation`. -/
def generationFields (event : EventEnvelope) : List (Label × String) :=
  let payload := event.payload
  let version := clean (payload.get "processingVersion")
  let source := Text.lower (clean (payload.get "source"))
  let sourceEvent := clean (payload.get "sourceEventId")
  optional .version (field (.str version)) (version ≠ "") ++
  optional .redo (stampOrId event)
    (truthy (payload.get "reprocess") || contains source "reprocess") ++
  optional .source (field (.str sourceEvent))
    (kindOf event = "conversation.schedule_extraction.requested" ∧ sourceEvent ≠ "")

/-- What names the job of an event, by the first rule whose fields are present, and what tells
the generations of the job apart. The values that name the job are trimmed and no placeholders. -/
def jobOf (event : EventEnvelope) : List (Label × PyVal) × List (Label × String) :=
  let payload := event.payload
  let kind := kindOf event
  let jobId := clean (payload.get "jobId")
  let windowId := clean (payload.get "windowId")
  let mindmapId := clean (payload.get "mindmapId")
  let documentId := clean (payload.get "documentId")
  let dateKey := clean (payload.get "dateKey")
  let userId := clean (.str event.userId)
  let conversation := clean ((payload.get "conversationId").or (.str event.conversationId))
  let sequence := sequenceOf payload
  if jobId ≠ "" ∧ startsWith kind "conversation." = false then ([(.job, .str jobId)], [])
  else if windowId ≠ "" then ([(.window, .str windowId)], generationFields event)
  else if mindmapId ≠ "" then ([(.mindmap, .str mindmapId)], [])
  else if documentId ≠ "" then ([(.document, .str documentId)], [])
  else if dateKey ≠ "" ∧ userId ≠ "" ∧ contains kind "briefing" then
    ([(.user, .str userId), (.date, .str dateKey)],
      optional .force (stampOrId event) (truthy (payload.get "forced")))
  else if startsWith kind "goal." then
    let goalId := clean (payload.get "goalId")
    let goalId := if goalId ≠ "" then goalId else conversation
    let goalJob := if jobId ≠ "" then jobId else clean (.str event.eventId)
    ([(.goal, .str goalId), (.job, .str goalJob)], [])
  else if kind ∈ conversationSerialTypes ∧ conversation ≠ "" then
    ([(.conversation, .str conversation)], generationFields event)
  else if sequence ≠ .none ∧ conversation ≠ "" ∧ Text.strip sequence.pyStr ≠ "" then
    let chunk := clean (payload.get "chunkId")
    ([(.conversation, .str conversation), (.seq, sequence)] ++
      optional .chunk (.str chunk) (chunk ≠ ""), [])
  else if conversation ≠ "" ∧ startsWith kind "conversation." then
    ([(.conversation, .str conversation)], [])
  else ([(.event, (PyVal.str event.eventId).or (.str "unknown"))], [])

def identityOf (event : EventEnvelope) : List (Label × PyVal) := (jobOf event).1

def generationOf (event : EventEnvelope) : List (Label × String) := (jobOf event).2

/-- The fields that name the job as `_field` writes them. -/
def written (identity : List (Label × PyVal)) : List (Label × String) :=
  identity.map fun part => (part.1, field part.2)

variable {event : EventEnvelope}

theorem bar_notMem_kindOf : '|' ∉ (kindOf event).toList := by
  unfold kindOf
  dsimp only
  split
  · exact bar_notMem_field _ _
  · decide

theorem bar_notMem_stampOrId : '|' ∉ (stampOrId event).toList := by
  unfold stampOrId isoStamp
  split <;> exact bar_notMem_field _ _

theorem bar_notMem_written {identity : List (Label × PyVal)} :
    ∀ part ∈ written identity, '|' ∉ part.2.toList := by
  intro part hpart
  obtain ⟨source, -, rfl⟩ := List.mem_map.mp hpart
  exact bar_notMem_field _ _

structure OfGeneration (label : Label) (value : String) : Prop where
  label : label.ofGeneration = true
  bar : '|' ∉ value.toList

theorem generationFields_spec : ∀ part ∈ generationFields event, OfGeneration part.1 part.2 := by
  intro part hpart
  unfold generationFields at hpart
  rcases List.mem_append.mp hpart with hpart | hpart
  · rcases List.mem_append.mp hpart with hpart | hpart
    · exact forall_mem_optional (p := OfGeneration) ⟨rfl, bar_notMem_field _ _⟩ part hpart
    · exact forall_mem_optional (p := OfGeneration) ⟨rfl, bar_notMem_stampOrId⟩ part hpart
  · exact forall_mem_optional (p := OfGeneration) ⟨rfl, bar_notMem_field _ _⟩ part hpart

theorem withGeneration_eq (event : EventEnvelope) (base : String) :
    withGeneration (kindOf event) base event.payload event =
      keyText base (generationFields event) := by
  unfold withGeneration generationFields
  dsimp only
  generalize clean (event.payload.get "processingVersion") = version
  generalize clean (event.payload.get "sourceEventId") = sourceEvent
  generalize (truthy (event.payload.get "reprocess") ||
    contains (Text.lower (clean (event.payload.get "source"))) "reprocess") = redo
  generalize field (.str version) = versionField
  generalize field (.str sourceEvent) = sourceField
  generalize stampOrId event = stamp
  rw [keyText_append, keyText_append, keyText_optional, keyText_optional, keyText_optional]
  rfl

def jobText (kind : String) (job : List (Label × PyVal) × List (Label × String)) : String :=
  keyText (keyText kind (written job.1)) job.2

theorem logicalJobKey_eq : logicalJobKey event = jobText (kindOf event) (jobOf event) := by
  have hkind : kindOf event = if field ((PyVal.str event.eventType).or (.str "event")) 80 ≠ "" then
      field ((PyVal.str event.eventType).or (.str "event")) 80 else "event" := rfl
  have hgeneration := withGeneration_eq event
  unfold jobOf logicalJobKey
  dsimp only
  rw [← hkind]
  simp only [hgeneration]
  generalize generationFields event = generation
  generalize kindOf event = kind
  generalize clean (event.payload.get "jobId") = jobId
  generalize clean (event.payload.get "windowId") = windowId
  generalize clean (event.payload.get "mindmapId") = mindmapId
  generalize clean (event.payload.get "documentId") = documentId
  generalize clean (event.payload.get "dateKey") = dateKey
  generalize clean (event.payload.get "goalId") = goalId
  generalize clean (event.payload.get "chunkId") = chunk
  generalize clean (.str event.userId) = userId
  generalize clean (.str event.eventId) = eventId
  generalize clean ((event.payload.get "conversationId").or (.str event.conversationId)) =
    conversation
  generalize sequenceOf event.payload = sequence
  generalize stampOrId event = stamp
  generalize (if goalId ≠ "" then goalId else conversation) = goal
  generalize (if jobId ≠ "" then jobId else eventId) = goalJob
  refine Eq.trans ?_ (apply_ite (jobText kind) _ _ _).symm
  refine ite_congr rfl (fun _ => rfl) fun _ => ?_
  refine Eq.trans ?_ (apply_ite (jobText kind) _ _ _).symm
  refine ite_congr rfl (fun _ => rfl) fun _ => ?_
  refine Eq.trans ?_ (apply_ite (jobText kind) _ _ _).symm
  refine ite_congr rfl (fun _ => rfl) fun _ => ?_
  refine Eq.trans ?_ (apply_ite (jobText kind) _ _ _).symm
  refine ite_congr rfl (fun _ => rfl) fun _ => ?_
  refine Eq.trans ?_ (apply_ite (jobText kind) _ _ _).symm
  refine ite_congr rfl (fun _ => ?_) fun _ => ?_
  · rw [jobText, keyText_optional]
    rfl
  refine Eq.trans ?_ (apply_ite (jobText kind) _ _ _).symm
  refine ite_congr rfl (fun _ => rfl) fun _ => ?_
  refine Eq.trans ?_ (apply_ite (jobText kind) _ _ _).symm
  refine ite_congr rfl (fun _ => rfl) fun _ => ?_
  refine Eq.trans ?_ (apply_ite (jobText kind) _ _ _).symm
  refine ite_congr rfl (fun _ => ?_) fun _ => ?_
  · unfold optional
    split <;> simp [jobText, keyText, written, Label.mark, String.append_assoc]
  refine Eq.trans ?_ (apply_ite (jobText kind) _ _ _).symm
  exact ite_congr rfl (fun _ => rfl) fun _ => rfl

structure Separated (job : List (Label × PyVal) × List (Label × String)) : Prop where
  names : ∀ part ∈ job.1, part.1.ofGeneration = false
  generation : ∀ part ∈ job.2, OfGeneration part.1 part.2

theorem separated_jobOf : Separated (jobOf event) := by
  have hite : ∀ {c : Prop} [Decidable c] {a b : List (Label × PyVal) × List (Label × String)},
      Separated a → Separated b → Separated (if c then a else b) := by
    intro c _ a b ha hb
    split
    · exact ha
    · exact hb
  have hnames : ∀ {names : List (Label × PyVal)},
      (names.all fun part => !part.1.ofGeneration) = true → Separated (names, []) := by
    intro names hall
    refine ⟨fun part hpart => ?_, fun part hpart => absurd hpart List.not_mem_nil⟩
    simpa using List.all_eq_true.mp hall part hpart
  have hone : ∀ {label : Label} {value : PyVal}, label.ofGeneration = false →
      Separated ([(label, value)], generationFields event) := by
    intro label value hlabel
    refine ⟨fun part hpart => ?_, generationFields_spec⟩
    rw [List.mem_singleton.mp hpart]
    exact hlabel
  unfold jobOf
  dsimp only
  refine hite (hnames rfl) (hite (hone rfl) (hite (hnames rfl) (hite (hnames rfl) (hite ?_
    (hite (hnames rfl) (hite (hone rfl) (hite ?_ (hite (hnames rfl) (hnames rfl)))))))))
  · refine ⟨fun part hpart => ?_, fun part hpart => ?_⟩
    · rcases List.mem_cons.mp hpart with rfl | hpart
      · rfl
      · rw [List.mem_singleton.mp hpart]
        rfl
    · dsimp only at hpart
      exact forall_mem_optional (p := OfGeneration) ⟨rfl, bar_notMem_stampOrId⟩ part hpart
  · refine ⟨fun part hpart => ?_, fun part hpart => absurd hpart List.not_mem_nil⟩
    rcases List.mem_append.mp hpart with hpart | hpart
    · rcases List.mem_cons.mp hpart with rfl | hpart
      · rfl
      · rw [List.mem_singleton.mp hpart]
        rfl
    · exact forall_mem_optional (p := fun label _ => label.ofGeneration = false) rfl part hpart

/-- Two events have one key exactly where they are of one type, what names their jobs is the same
as `_field` writes it, and so is their generation. -/
theorem same_key_iff (first second : EventEnvelope) :
    logicalJobKey first = logicalJobKey second ↔
      kindOf first = kindOf second ∧
      written (identityOf first) = written (identityOf second) ∧
      generationOf first = generationOf second := by
  have htext : ∀ event, logicalJobKey event =
      keyText (kindOf event) (written (identityOf event) ++ generationOf event) := by
    intro event
    rw [logicalJobKey_eq, keyText_append, jobText, identityOf, generationOf]
  have hbar : ∀ event, ∀ part ∈ written (identityOf event) ++ generationOf event,
      '|' ∉ part.2.toList := by
    intro event part hpart
    rcases List.mem_append.mp hpart with hpart | hpart
    · exact bar_notMem_written part hpart
    · exact ((separated_jobOf).generation part hpart).bar
  -- the labels say where the name of the job ends
  have hnames : ∀ event, (written (identityOf event) ++ generationOf event).filter
      (fun part => !part.1.ofGeneration) = written (identityOf event) := by
    intro event
    rw [List.filter_append, List.filter_eq_self.mpr, List.filter_eq_nil_iff.mpr, List.append_nil]
    · intro part hpart
      simp [((separated_jobOf).generation part hpart).label]
    · intro part hpart
      obtain ⟨source, hsource, rfl⟩ := List.mem_map.mp hpart
      simp [(separated_jobOf).names source hsource]
  rw [htext, htext, keyText_inj bar_notMem_kindOf bar_notMem_kindOf (hbar first)
    (hbar second)]
  constructor
  · rintro ⟨hkind, hfields⟩
    have hidentity := congrArg (List.filter fun part => !part.1.ofGeneration) hfields
    rw [hnames, hnames] at hidentity
    rw [hidentity] at hfields
    exact ⟨hkind, hidentity, List.append_cancel_left hfields⟩
  · rintro ⟨hkind, hidentity, hgeneration⟩
    exact ⟨hkind, by rw [hidentity, hgeneration]⟩

/-- The sanitiser maps two job ids to one field. -/
theorem shared_job_key :
    let event (jobId : String) : EventEnvelope :=
      { eventId := "e1", eventType := "document.generate.requested", correlationId := "c1"
        userId := "u1", spaceId := "s1", conversationId := "m1"
        payload := [("jobId", .str jobId)], createdAt := "2026-01-01T00:00:00+00:00" }
    identityOf (event "a|b") ≠ identityOf (event "a_b") ∧
      generationOf (event "a|b") = generationOf (event "a_b") ∧
      logicalJobKey (event "a|b") = logicalJobKey (event "a_b") := by
  decide +kernel

end AiBuddy.Queue.JobLease
