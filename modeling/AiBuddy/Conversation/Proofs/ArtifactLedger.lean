import AiBuddy.Conversation.Proofs.ArtifactResolver

/-!
# The lifecycle of artifacts

Every orderly decision keeps the lifecycle, and so does every run of batches whose
decisions are orderly. A decision that is not can leave an active artifact with the
operation that completed it.
-/

namespace AiBuddy.Conversation

open Keyed

theorem Source.artifact_extracted (identity : String → String) (topic : Option String)
    (window : ExtractedWindow) (source : Source) (id : String) :
    Extracted (source.artifact identity topic window id) := by
  cases source with
  | unit source => exact ⟨rfl, nofun, nofun⟩
  | note source => exact ⟨rfl, nofun, nofun⟩
  | decision source => exact ⟨rfl, nofun, nofun⟩
  | issue source => exact ⟨rfl, nofun, nofun⟩
  | task source =>
    refine ⟨rfl, fun h => ?_, fun h => ?_⟩
    · have hoperation : source.operation = .complete := Option.some.inj h
      show statusForOperation (some source.operation) = .completed
      rw [hoperation]
      rfl
    · have hoperation : source.operation = .cancel := Option.some.inj h
      show statusForOperation (some source.operation) = .cancelled
      rw [hoperation]
      rfl

variable {artifact : MeetingArtifactDocument}

theorem mem_of_mem_dedupe {artifacts : List MeetingArtifactDocument} :
    ∀ {seen : List String}, artifact ∈ dedupeNewArtifacts artifacts seen →
      artifact ∈ artifacts := by
  induction artifacts with
  | nil =>
    intro seen h
    exact h
  | cons first rest ih =>
    intro seen h
    unfold dedupeNewArtifacts at h
    split at h
    · exact List.mem_cons_of_mem _ (ih h)
    · rcases List.mem_cons.mp h with rfl | hrest
      · exact List.mem_cons_self
      · exact List.mem_cons_of_mem _ (ih hrest)

theorem artifactsFromWindow_extracted {identity : String → String}
    {publish : WindowExtractionResult → String → WindowExtractionResult}
    {window : ExtractedWindow} {extraction : WindowExtractionResult} {ids : List String} :
    ∀ artifact ∈ artifactsFromWindow identity publish window extraction ids,
      Extracted artifact := by
  intro artifact hmem
  have hbuilt := (List.mem_filter.mp (mem_of_mem_dedupe hmem)).1
  rw [List.zipWith_eq_zipWith_take_min, ← List.map_uncurry_zip_eq_zipWith] at hbuilt
  obtain ⟨⟨source, id⟩, -, rfl⟩ := List.mem_map.mp hbuilt
  exact source.artifact_extracted identity _ window id

structure Sound (marks : String → Mark) (artifact : MeetingArtifactDocument) : Prop where
  linked : artifact.supersededBy.isSome = true ↔ artifact.status = .superseded
  closed : marks artifact.id = .closed →
    (artifact.operation = some .complete → artifact.status = .completed) ∧
      (artifact.operation = some .cancel → artifact.status = .cancelled)
  reactivated : marks artifact.id = .reactivated →
    closing artifact.operation = false ∧
      (artifact.status = .active ∨ artifact.status = .superseded)

theorem Lifecycle.sound {ledger : Ledger} (h : Lifecycle ledger)
    (hmem : artifact ∈ ledger.artifacts) :
    Sound ledger.marks artifact :=
  ⟨h.linked artifact hmem, h.closed artifact hmem, h.reactivated artifact hmem⟩

theorem Sound.congr {marks marks' : String → Mark} (h : Sound marks artifact)
    (hmarks : marks' artifact.id = marks artifact.id) :
    Sound marks' artifact :=
  ⟨h.linked, hmarks ▸ h.closed, hmarks ▸ h.reactivated⟩

theorem Sound.of_untouched {marks : String → Mark} (hby : artifact.supersededBy = none)
    (hstatus : artifact.status ≠ .superseded) (hmark : marks artifact.id = .untouched) :
    Sound marks artifact := by
  refine ⟨?_, ?_, ?_⟩
  · simp [hby, hstatus]
  · intro h
    rw [hmark] at h
    cases h
  · intro h
    rw [hmark] at h
    cases h

theorem Lifecycle.of_sound {ledger : Ledger} (hnodup : (idsOf ledger.artifacts).Nodup)
    (hsound : ∀ artifact ∈ ledger.artifacts, Sound ledger.marks artifact)
    (hback : ∀ artifact ∈ ledger.artifacts, ∀ id, artifact.supersededBy = some id →
      ∃ successor ∈ ledger.artifacts,
        successor.id = id ∧ successor.supersedes = some artifact.id) : Lifecycle ledger :=
  ⟨hnodup, fun artifact h => (hsound artifact h).linked, hback,
    fun artifact h => (hsound artifact h).closed, fun artifact h => (hsound artifact h).reactivated⟩

section Step

variable {ledger : Ledger} {marks : String → Mark} {target changed : MeetingArtifactDocument}

theorem Lifecycle.replace (h : Lifecycle ledger) {added : List MeetingArtifactDocument}
    (hmem : target ∈ ledger.artifacts) (hid : changed.id = target.id)
    (hsupersedes : changed.supersedes = target.supersedes)
    (hnodup : (idsOf (replaceOrAppend MeetingArtifactDocument.id changed ledger.artifacts ++
      added)).Nodup)
    (hmarks : ∀ artifact ∈ ledger.artifacts, artifact.id ≠ target.id →
      marks artifact.id = ledger.marks artifact.id)
    (hchanged : Sound marks changed)
    (hback : changed.supersededBy = target.supersededBy ∨
      ∃ new ∈ added, changed.supersededBy = some new.id ∧ new.supersedes = some changed.id)
    (hadded : ∀ new ∈ added, Sound marks new ∧ new.supersededBy = none) :
    Lifecycle
      { artifacts := replaceOrAppend MeetingArtifactDocument.id changed ledger.artifacts ++ added
        marks := marks } := by
  -- an artifact of the old list that another one names still is there to be named
  have hnamed : ∀ artifact ∈ ledger.artifacts, ∀ id, artifact.supersededBy = some id →
      ∃ successor ∈ replaceOrAppend MeetingArtifactDocument.id changed ledger.artifacts ++ added,
        successor.id = id ∧ successor.supersedes = some artifact.id := by
    intro artifact hartifact id hby
    obtain ⟨successor, hsuccessor, hsuccessorId, hnames⟩ := h.back artifact hartifact id hby
    by_cases hsame : successor.id = changed.id
    · have heq : successor = target := eq_of_key h.distinct hsuccessor hmem (hsame.trans hid)
      refine ⟨changed, List.mem_append_left _ (mem_replaceOrAppend_self changed _), ?_, ?_⟩
      · rw [← hsame, hsuccessorId]
      · rw [hsupersedes, ← heq, hnames]
    · exact ⟨successor, List.mem_append_left _ (mem_replaceOrAppend_of_ne hsuccessor hsame),
        hsuccessorId, hnames⟩
  apply Lifecycle.of_sound hnodup
  · intro artifact hartifact
    rcases List.mem_append.mp hartifact with hold | hnew
    · rcases mem_replaceOrAppend h.distinct hold with rfl | ⟨hold, hne⟩
      · exact hchanged
      · exact (h.sound hold).congr (hmarks artifact hold (hid ▸ hne))
    · exact (hadded artifact hnew).1
  · intro artifact hartifact id hby
    rcases List.mem_append.mp hartifact with hold | hnew
    · rcases mem_replaceOrAppend h.distinct hold with rfl | ⟨hold, -⟩
      · rcases hback with hsame | ⟨new, hnew, hnewBy, hnames⟩
        · rw [hid]
          exact hnamed target hmem id (hsame ▸ hby)
        · refine ⟨new, List.mem_append_right _ hnew, ?_, hnames⟩
          exact Option.some.inj (hnewBy.symm.trans hby)
      · exact hnamed artifact hold id hby
    · rw [(hadded artifact hnew).2] at hby
      cases hby

theorem Lifecycle.change (h : Lifecycle ledger) (hmem : target ∈ ledger.artifacts)
    (hid : changed.id = target.id) (hsupersedes : changed.supersedes = target.supersedes)
    (hmarks : ∀ artifact ∈ ledger.artifacts, artifact.id ≠ target.id →
      marks artifact.id = ledger.marks artifact.id)
    (hchanged : Sound marks changed) (hby : changed.supersededBy = target.supersededBy) :
    Lifecycle
      { artifacts := replaceOrAppend MeetingArtifactDocument.id changed ledger.artifacts
        marks := marks } := by
  have hnodup : (idsOf (replaceOrAppend MeetingArtifactDocument.id changed ledger.artifacts ++
      [])).Nodup := by
    rw [List.append_nil, idsOf_replace hmem hid]
    exact h.distinct
  have hreplaced := h.replace hmem hid hsupersedes hnodup hmarks hchanged (.inl hby)
    (fun new hnew => absurd hnew List.not_mem_nil)
  rw [List.append_nil] at hreplaced
  exact hreplaced

theorem Lifecycle.append (h : Lifecycle ledger) {new : MeetingArtifactDocument}
    (hnodup : (idsOf (ledger.artifacts ++ [new])).Nodup)
    (hmarks : ∀ artifact ∈ ledger.artifacts, marks artifact.id = ledger.marks artifact.id)
    (hnew : Sound marks new) (hby : new.supersededBy = none) :
    Lifecycle { artifacts := ledger.artifacts ++ [new], marks := marks } := by
  apply Lifecycle.of_sound hnodup
  · intro artifact hartifact
    rcases List.mem_append.mp hartifact with hold | hlast
    · exact (h.sound hold).congr (hmarks artifact hold)
    · exact List.mem_singleton.mp hlast ▸ hnew
  · intro artifact hartifact id hnames
    rcases List.mem_append.mp hartifact with hold | hlast
    · obtain ⟨successor, hsuccessor, hrest⟩ := h.back artifact hold id hnames
      exact ⟨successor, List.mem_append_left _ hsuccessor, hrest⟩
    · rw [List.mem_singleton.mp hlast, hby] at hnames
      cases hnames

theorem Sound.of_closed (hmark : marks changed.id = .closed)
    (hby : changed.supersededBy.isSome = false) (hstatus : changed.status ≠ .superseded)
    (hcomplete : changed.operation = some .complete → changed.status = .completed)
    (hcancel : changed.operation = some .cancel → changed.status = .cancelled) :
    Sound marks changed := by
  refine ⟨?_, fun _ => ⟨hcomplete, hcancel⟩, ?_⟩
  · simp [hby, hstatus]
  · intro h
    rw [hmark] at h
    cases h

end Step

theorem Lifecycle.not_superseded {ledger : Ledger} (h : Lifecycle ledger)
    {target : MeetingArtifactDocument} (hmem : target ∈ ledger.artifacts)
    (hstatus : target.status ≠ .superseded) : target.supersededBy.isSome = false := by
  rw [← Bool.not_eq_true, h.linked target hmem]
  exact hstatus

variable {unicode : Text.Unicode}

theorem Applied.lifecycle {ledger : Ledger} {item : MeetingArtifactDocument}
    {action : ReconcileAction} {result : List MeetingArtifactDocument}
    {matched : Option MeetingArtifactDocument}
    (happlied : Applied unicode ledger.artifacts item action result matched)
    (hmem : ∀ target, matched = some target → target ∈ ledger.artifacts)
    (hfresh : item.id ∉ idsOf ledger.artifacts) (hextracted : Extracted item)
    (horderly : Orderly (outcome action item matched.isSome) item matched ledger.marks)
    (h : Lifecycle ledger) :
    Lifecycle
      { artifacts := result
        marks := marksAfter (outcome action item matched.isSome) item matched ledger.marks } := by
  have hids := happlied.ids hmem
  have hnodup : (idsOf result).Nodup := nodup_after h.distinct hfresh hids
  have hother : ∀ artifact ∈ ledger.artifacts, artifact.id ≠ item.id := by
    intro artifact hartifact hsame
    exact hfresh (hsame ▸ List.mem_map_of_mem hartifact)
  cases happlied with
  | skipped kind list =>
    subst list
    simp only [Option.isSome_none, kind, marksAfter]
    exact h
  | created matched new kind same status operation list =>
    subst list
    rw [kind] at horderly ⊢
    have hstatus : new.status ≠ .superseded := by
      rw [status]
      exact horderly
    have hby : new.supersededBy = none := same.supersededBy.trans hextracted.supersededBy
    refine h.append hnodup (fun artifact hartifact => ?_) (.of_untouched hby hstatus ?_) hby
    · exact if_neg (hother artifact hartifact)
    · exact if_pos same.id
  | cancelled target incoming kind same list =>
    subst list
    rw [Option.isSome_some, kind] at horderly ⊢
    have hnot := h.not_superseded (hmem target rfl) horderly
    refine h.change (hmem target rfl) rfl rfl ?_ ?_ ?_
    · exact fun artifact _ hne => if_neg hne
    · exact .of_closed (if_pos rfl) hnot nofun nofun (fun _ => rfl)
    · rfl
  | completed target incoming kind same list =>
    subst list
    rw [Option.isSome_some, kind] at horderly ⊢
    have hnot := h.not_superseded (hmem target rfl) horderly
    refine h.change (hmem target rfl) rfl rfl ?_ ?_ ?_
    · exact fun artifact _ hne => if_neg hne
    · exact .of_closed (if_pos rfl) hnot nofun (fun _ => rfl) nofun
    · rfl
  | updated target incoming kind same list =>
    subst list
    rw [Option.isSome_some, kind] at horderly ⊢
    obtain ⟨hstatus, hopen⟩ := horderly
    have hnot := h.not_superseded (hmem target rfl) hstatus
    refine h.change (hmem target rfl) rfl rfl ?_ ?_ ?_
    · exact fun artifact _ hne => if_neg hne
    · refine ⟨?_, ?_, fun _ => ⟨hopen, .inl rfl⟩⟩
      · exact iff_of_false (ne_true_of_eq_false hnot) nofun
      · intro hclosed
        have hmark : marksAfter .updated item (some target) ledger.marks target.id =
          .reactivated := if_pos rfl
        cases hmark.symm.trans hclosed
    · rfl
  | superseded target incoming kind same list =>
    subst list
    rw [Option.isSome_some, kind] at horderly ⊢
    have hmark : ∀ artifact : MeetingArtifactDocument, artifact ∈ ledger.artifacts →
        marksAfter .superseded item (some target) ledger.marks artifact.id =
          ledger.marks artifact.id := fun artifact hartifact => if_neg (hother artifact hartifact)
    refine h.replace (hmem target rfl) rfl rfl hnodup
      (fun artifact hartifact _ => hmark artifact hartifact) ?_ ?_ ?_
    · refine ⟨iff_of_true rfl rfl, ?_, ?_⟩
      · intro hclosed
        exact absurd ((hmark target (hmem target rfl)).symm.trans hclosed) horderly
      · intro hreactivated
        have hsound := h.sound (hmem target rfl)
        exact ⟨(hsound.reactivated ((hmark target (hmem target rfl)).symm.trans hreactivated)).1,
          .inr rfl⟩
    · exact .inr ⟨successor target incoming, List.mem_singleton_self _, rfl, rfl⟩
    · intro new hnew
      rw [List.mem_singleton.mp hnew]
      have hby : (successor target incoming).supersededBy = none :=
        same.supersededBy.trans hextracted.supersededBy
      exact ⟨.of_untouched hby nofun (if_pos same.id), hby⟩
  | related target incoming kind same list =>
    subst list
    rw [Option.isSome_some, kind] at horderly ⊢
    have hmark : ∀ artifact : MeetingArtifactDocument, artifact ∈ ledger.artifacts →
        marksAfter .related item (some target) ledger.marks artifact.id =
          ledger.marks artifact.id := fun artifact hartifact => if_neg (hother artifact hartifact)
    have hsound := (h.sound (hmem target rfl)).congr (hmark target (hmem target rfl))
    refine h.replace (hmem target rfl) rfl rfl hnodup
      (fun artifact hartifact _ => hmark artifact hartifact) ?_ ?_ ?_
    · exact ⟨hsound.linked, hsound.closed, hsound.reactivated⟩
    · exact .inl rfl
    · intro new hnew
      rw [List.mem_singleton.mp hnew]
      have hby : (relatedIncoming target incoming).supersededBy = none :=
        same.supersededBy.trans hextracted.supersededBy
      exact ⟨.of_untouched hby nofun (if_pos same.id), hby⟩

theorem decideFrom_lifecycle {decisions : List ArtifactReconcileDecision}
    {incoming : List MeetingArtifactDocument} :
    ∀ (index : Nat) (ledger : Ledger), (idsOf incoming).Nodup →
      (∀ item ∈ incoming, item.id ∉ idsOf ledger.artifacts) →
      (∀ item ∈ incoming, Extracted item) →
      OrderlyFrom unicode decisions index incoming ledger → Lifecycle ledger →
      Lifecycle (ledger.decideFrom unicode decisions index incoming) := by
  induction incoming with
  | nil =>
    intro index ledger _ _ _ _ h
    exact h
  | cons first rest ih =>
    intro index ledger hincoming hfresh hextracted horderly h
    obtain ⟨hfirst, hrest⟩ := List.nodup_cons.mp hincoming
    obtain ⟨horderlyFirst, horderlyRest⟩ := horderly
    have hnew := hfresh first List.mem_cons_self
    have happlied := applyDecision_applied unicode decisions index hnew
    have hmem : ∀ target, findById ledger.artifacts (targetAt decisions index) = some target →
        target ∈ ledger.artifacts := fun target hfound => (findById_eq_some hfound).1
    apply ih (index + 1) (ledger.decide unicode decisions index first) hrest
    · intro item hitem
      apply fresh_after (hfresh item (List.mem_cons_of_mem _ hitem)) _ (happlied.ids hmem)
      exact fun hsame => hfirst (hsame ▸ List.mem_map_of_mem hitem)
    · exact fun item hitem => hextracted item (List.mem_cons_of_mem _ hitem)
    · exact horderlyRest
    · exact happlied.lifecycle hmem hnew (hextracted first List.mem_cons_self) horderlyFirst h

theorem decideFrom_artifacts {decisions : List ArtifactReconcileDecision}
    {incoming : List MeetingArtifactDocument} :
    ∀ (index : Nat) (ledger : Ledger),
      (ledger.decideFrom unicode decisions index incoming).artifacts =
        applyFrom unicode decisions index incoming ledger.artifacts := by
  induction incoming with
  | nil =>
    intro index ledger
    rfl
  | cons first rest ih =>
    intro index ledger
    exact ih (index + 1) (ledger.decide unicode decisions index first)

theorem taskOperation_open (hopen : closing artifact.operation = false)
    (hstatus : artifact.status = .active ∨ artifact.status = .superseded) :
    taskOperation artifact ≠ .complete ∧ taskOperation artifact ≠ .cancel := by
  unfold taskOperation
  cases hop : artifact.operation with
  | some operation =>
    rw [hop] at hopen
    cases operation with
    | complete => cases hopen
    | cancel => cases hopen
    | create => exact ⟨nofun, nofun⟩
    | update => exact ⟨nofun, nofun⟩
    | noAction => exact ⟨nofun, nofun⟩
    | needsConfirmation => exact ⟨nofun, nofun⟩
  | none =>
    have hdone : artifact.status ≠ .completed ∧
        ¬ (artifact.status = .rejected ∨ artifact.status = .cancelled) := by
      rcases hstatus with h | h
      · rw [h]
        decide
      · rw [h]
        decide
    simp only [if_neg hdone.1, if_neg hdone.2]
    split_ifs
    · exact ⟨nofun, nofun⟩
    · exact ⟨nofun, nofun⟩
    · exact ⟨nofun, nofun⟩

theorem Lifecycle.task {ledger : Ledger} (h : Lifecycle ledger)
    (hmem : artifact ∈ ledger.artifacts) (hmark : ledger.marks artifact.id = .reactivated)
    {fingerprint : ExtractedTask → String} {conversationId : String} {task : ExtractedTask}
    (htask : artifactToTask fingerprint artifact conversationId = some task) :
    task.operation ≠ .complete ∧ task.operation ≠ .cancel := by
  obtain ⟨hopen, hstatus⟩ := h.reactivated artifact hmem hmark
  have hoperation : task.operation = taskOperation artifact := by
    unfold artifactToTask at htask
    split at htask
    · cases htask
    · cases htask
      rfl
  rw [hoperation]
  exact taskOperation_open hopen hstatus

/-- Over any sequence of batches of newly extracted artifacts whose decisions are orderly, the
ledger is that of `apply_llm_decisions`, it keeps the lifecycle, and no reactivated artifact is
published as completed or cancelled. -/
theorem batches_keep_lifecycle (unicode : Text.Unicode) (fingerprint : ExtractedTask → String)
    (conversationId : String) (ledger : Ledger) (batches : List Batch) (h : Lifecycle ledger)
    (hfresh : FreshRun unicode batches ledger) (horderly : OrderlyRun unicode batches ledger) :
    let final := batches.foldl (Ledger.apply unicode) ledger
    final.artifacts = batches.foldl (fun artifacts batch =>
      applyLlmDecisions unicode artifacts batch.incoming batch.decisions) ledger.artifacts ∧
    Lifecycle final ∧
    ∀ artifact ∈ final.artifacts, final.marks artifact.id = .reactivated →
      ∀ task, artifactToTask fingerprint artifact conversationId = some task →
        task.operation ≠ .complete ∧ task.operation ≠ .cancel := by
  induction batches generalizing ledger with
  | nil => exact ⟨rfl, h, fun artifact hmem hmark task htask => h.task hmem hmark htask⟩
  | cons batch rest ih =>
    obtain ⟨hbatch, hfreshRest⟩ := hfresh
    obtain ⟨horderlyBatch, horderlyRest⟩ := horderly
    have hnext : Lifecycle (ledger.apply unicode batch) :=
      decideFrom_lifecycle 0 ledger hbatch.distinct
        hbatch.fresh hbatch.extracted horderlyBatch h
    have hartifacts : (ledger.apply unicode batch).artifacts =
        applyLlmDecisions unicode ledger.artifacts batch.incoming batch.decisions :=
      decideFrom_artifacts 0 ledger
    have hrun := ih (ledger.apply unicode batch) hnext hfreshRest horderlyRest
    rw [hartifacts] at hrun
    exact hrun

def sampleLedger : Ledger :=
  { artifacts := [sampleArtifact "a1" .create]
    marks := fun _ => .untouched }

def sampleBatch (id : String) (operation : Operation) (action : ReconcileAction)
    (target : String) : Batch :=
  { incoming := [sampleArtifact id operation]
    decisions := [{ incomingIndex := 0, action := action, targetArtifactId := some target }] }

theorem sampleLedger_lifecycle : Lifecycle sampleLedger := by
  apply Lifecycle.of_sound (by decide)
  · intro artifact hmem
    rw [List.mem_singleton.mp hmem]
    exact .of_untouched rfl nofun rfl
  · intro artifact hmem id hby
    rw [List.mem_singleton.mp hmem] at hby
    cases hby

theorem batches_keep_lifecycle_sample :
    Lifecycle ([sampleBatch "b1" .create .completeExisting "a1"].foldl
      (Ledger.apply sampleUnicode) sampleLedger) := by
  refine (batches_keep_lifecycle sampleUnicode (fun _ => "") "c1" sampleLedger
    [sampleBatch "b1" .create .completeExisting "a1"] sampleLedger_lifecycle ⟨?_, trivial⟩
    ⟨⟨?_, trivial⟩, trivial⟩).2.1
  · refine ⟨by decide, by decide, ?_⟩
    intro item hitem
    rw [List.mem_singleton.mp hitem]
    exact ⟨rfl, nofun, nofun⟩
  · exact nofun

/-- Completing a task and updating it later leaves the completing operation on an active task,
which is published as completed. -/
theorem update_keeps_complete :
    let final := [sampleBatch "b1" .create .completeExisting "a1",
      sampleBatch "b2" .create .updateExisting "a1"].foldl (Ledger.apply sampleUnicode)
        sampleLedger
    Lifecycle sampleLedger ∧
    FreshRun sampleUnicode [sampleBatch "b1" .create .completeExisting "a1",
      sampleBatch "b2" .create .updateExisting "a1"] sampleLedger ∧
    final.artifacts.map (fun artifact => (artifact.id, artifact.status, artifact.operation)) =
      [("a1", .active, some .complete)] ∧
    (final.artifacts.filterMap (fun artifact =>
      artifactToTask (fun _ => "") artifact "c1")).map ExtractedTask.operation = [.complete] ∧
    ¬ Lifecycle final := by
  refine ⟨sampleLedger_lifecycle, ⟨⟨by decide, by decide +kernel, ?_⟩,
    ⟨by decide, by decide +kernel, ?_⟩, trivial⟩, by decide +kernel, by decide +kernel, ?_⟩
  · intro item hitem
    rw [List.mem_singleton.mp hitem]
    exact ⟨rfl, nofun, nofun⟩
  · intro item hitem
    rw [List.mem_singleton.mp hitem]
    exact ⟨rfl, nofun, nofun⟩
  · intro h
    have hopen := (h.reactivated _ List.mem_cons_self (by decide +kernel)).1
    exact absurd hopen (by decide +kernel)

end AiBuddy.Conversation
