import AiBuddy.MeetingPipeline.Composer

/-!
# Citations from the recovery of actions to the outline

Which candidates are cited after `unique_task_claims`, `recover_unpublished_notes` and
`compose_artifacts`. A citation gets lost in two places only: with a task that is left out because
another one is taken for the same work, and with a note that stands behind the twelfth of its
group.
-/

namespace AiBuddy.MeetingPipeline

open EventPipeline

variable (host : Host) (letters : Letters) (ledger : CandidateLedger)
  (meetingSequences : Int → Bool) (discarded : List String)

def Cited (candidateId : String) (artifacts : List ArtifactClaim) : Prop :=
  ∃ claim ∈ artifacts, claim.cites candidateId

def Repeated (claims : List ArtifactClaim) (task : ArtifactClaim) : Prop :=
  ∃ before after, claims = before ++ task :: after ∧ task.kind = .task ∧
    taskAlreadyPublished host task ((uniqueTaskClaims host before).filter (·.kind = .task)) = true

def noteGroups (artifacts : List ArtifactClaim) : List (List ArtifactClaim) :=
  Groups.unionGroups (relatedNotes host (compositionProfile host ledger artifacts))
    (distinctNotes host letters ledger meetingSequences artifacts)

structure CitationsSafe (claims : List ArtifactClaim) : Prop where
  tasks : ∀ task, Repeated host claims task → ∀ candidateId, task.cites candidateId →
    Cited candidateId (recoverUnpublishedNotes host ledger meetingSequences
      (uniqueTaskClaims host claims) discarded) ∨
    Cited candidateId (composedTasks host letters ledger meetingSequences
      (recoverUnpublishedNotes host ledger meetingSequences (uniqueTaskClaims host claims)
        discarded))
  notes : ∀ group ∈ noteGroups host letters ledger meetingSequences
      (recoverUnpublishedNotes host ledger meetingSequences (uniqueTaskClaims host claims)
        discarded),
    ∀ note ∈ group.drop maxCluster, ∀ candidateId, note.cites candidateId →
      Cited candidateId claims →
      Cited candidateId (composedTasks host letters ledger meetingSequences
        (recoverUnpublishedNotes host ledger meetingSequences (uniqueTaskClaims host claims)
          discarded)) ∨
      ∃ other ∈ noteGroups host letters ledger meetingSequences
        (recoverUnpublishedNotes host ledger meetingSequences (uniqueTaskClaims host claims)
          discarded), Cited candidateId (other.take maxCluster)

@[simp] theorem mem_appendNew {α : Type} [DecidableEq α] {values more : List α} {value : α} :
    value ∈ appendNew values more ↔ value ∈ values ∨ value ∈ more := by
  unfold appendNew
  induction more generalizing values with
  | nil => simp
  | cons first rest ih =>
    rw [List.foldl_cons, ih]
    by_cases hfirst : first ∈ values
    · rw [if_pos hfirst, List.mem_cons]
      refine ⟨Or.imp_right .inr, ?_⟩
      rintro (hold | rfl | hrest)
      · exact .inl hold
      · exact .inl hfirst
      · exact .inr hrest
    · rw [if_neg hfirst, List.mem_append, List.mem_singleton, List.mem_cons, or_assoc]

variable {candidateId : String} {artifacts : List ArtifactClaim}

theorem Cited.mono {more : List ArtifactClaim} (h : Cited candidateId artifacts)
    (hsub : artifacts ⊆ more) : Cited candidateId more := by
  obtain ⟨claim, hclaim, hcites⟩ := h
  exact ⟨claim, hsub hclaim, hcites⟩

theorem cited_append {left right : List ArtifactClaim} :
    Cited candidateId (left ++ right) ↔ Cited candidateId left ∨ Cited candidateId right := by
  constructor
  · intro h
    obtain ⟨claim, hclaim, hcites⟩ := h
    rcases List.mem_append.mp hclaim with hleft | hright
    · exact .inl ⟨claim, hleft, hcites⟩
    · exact .inr ⟨claim, hright, hcites⟩
  · intro h
    rcases h with hleft | hright
    · exact hleft.mono (List.subset_append_left _ _)
    · exact hright.mono (List.subset_append_right _ _)

def seenAfter (seen claims : List ArtifactClaim) : List ArtifactClaim :=
  seen ++ (uniqueFrom host seen claims).filter (·.kind = .task)

theorem mem_uniqueFrom {seen claims : List ArtifactClaim} {claim : ArtifactClaim}
    (h : claim ∈ claims) :
    claim ∈ uniqueFrom host seen claims ∨
      ∃ before after, claims = before ++ claim :: after ∧ claim.kind = .task ∧
        taskAlreadyPublished host claim (seenAfter host seen before) = true := by
  induction claims generalizing seen with
  | nil => cases h
  | cons first rest ih =>
    -- the rest is read with the tasks seen after the first claim
    have later : ∀ {next : List ArtifactClaim}, next = seenAfter host seen [first] →
        (∃ before after, rest = before ++ claim :: after ∧ claim.kind = .task ∧
          taskAlreadyPublished host claim (seenAfter host next before) = true) →
        ∃ before after, first :: rest = before ++ claim :: after ∧ claim.kind = .task ∧
          taskAlreadyPublished host claim (seenAfter host seen before) = true := by
      rintro next rfl ⟨before, after, rfl, hkind, hpublished⟩
      refine ⟨first :: before, after, rfl, hkind, ?_⟩
      have hseen : seenAfter host (seenAfter host seen [first]) before =
          seenAfter host seen (first :: before) := by
        unfold seenAfter
        by_cases hfirst : first.kind = .task
        · by_cases hrepeat : taskAlreadyPublished host first seen = true
          · simp [uniqueFrom, hfirst, hrepeat]
          · simp [uniqueFrom, hfirst, hrepeat]
        · simp [uniqueFrom, hfirst]
      rwa [← hseen]
    rw [uniqueFrom]
    by_cases hkind : first.kind = .task
    · rw [if_pos hkind]
      by_cases hrepeat : taskAlreadyPublished host first seen = true
      · rw [if_pos hrepeat]
        have hnext : seen = seenAfter host seen [first] := by
          simp [seenAfter, uniqueFrom, hkind, hrepeat]
        rcases List.mem_cons.mp h with rfl | hrest
        · exact .inr ⟨[], rest, rfl, hkind, by simpa [seenAfter, uniqueFrom] using hrepeat⟩
        · exact (ih hrest).imp_right (later hnext)
      · rw [if_neg hrepeat]
        have hnext : seen ++ [first] = seenAfter host seen [first] := by
          simp [seenAfter, uniqueFrom, hkind, hrepeat]
        rcases List.mem_cons.mp h with rfl | hrest
        · exact .inl List.mem_cons_self
        · exact (ih hrest).imp (List.mem_cons_of_mem _) (later hnext)
    · rw [if_neg hkind]
      have hnext : seen = seenAfter host seen [first] := by
        simp [seenAfter, uniqueFrom, hkind]
      rcases List.mem_cons.mp h with rfl | hrest
      · exact .inl List.mem_cons_self
      · exact (ih hrest).imp (List.mem_cons_of_mem _) (later hnext)

theorem kept_or_repeated {claims : List ArtifactClaim} {claim : ArtifactClaim}
    (h : claim ∈ claims) : claim ∈ uniqueTaskClaims host claims ∨ Repeated host claims claim := by
  refine (mem_uniqueFrom host h).imp_right ?_
  rintro ⟨before, after, heq, hkind, hpublished⟩
  exact ⟨before, after, heq, hkind, by simpa [seenAfter, uniqueTaskClaims] using hpublished⟩

theorem recoverCandidate_cited {state : Recovery} {candidate : MeetingCandidate}
    (h : Cited candidateId state.recovered) :
    Cited candidateId (recoverCandidate host ledger meetingSequences state candidate).recovered :=
      by
  unfold recoverCandidate
  dsimp only
  by_cases hcited : candidate.candidateId ∈ state.citedByNotes
  · rwa [if_pos hcited]
  · rw [if_neg hcited]
    by_cases hpublished : memoryAlreadyPublished host candidate.meaning state.recovered = true
    · rwa [if_pos hpublished]
    · rw [if_neg hpublished]
      cases topicNoteIndex host candidate state.recovered with
      | some target =>
        obtain ⟨claim, hclaim, hcites⟩ := h
        obtain ⟨i, hi, rfl⟩ := List.mem_iff_getElem.mp hclaim
        have hlength : i < (state.recovered.modify target fun note =>
            appendToNote host ledger meetingSequences note candidate).length := by simpa using hi
        refine ⟨_, List.getElem_mem hlength, ?_⟩
        rw [List.getElem_modify]
        by_cases htarget : target = i
        · rw [if_pos htarget]
          exact mem_appendNew.mpr (.inl hcites)
        · rwa [if_neg htarget]
      | none =>
        cases noteFromCandidate ledger meetingSequences candidate state.offset with
        | none => exact h
        | some claim => exact h.mono (List.subset_append_left _ _)

theorem recover_cited (h : Cited candidateId artifacts) :
    Cited candidateId
      (recoverUnpublishedNotes host ledger meetingSequences artifacts discarded) := by
  unfold recoverUnpublishedNotes
  generalize hstart : (⟨artifacts, citedBy .note artifacts, 0⟩ : Recovery) = state
  have hstate : Cited candidateId state.recovered := by rwa [← hstart]
  clear hstart
  generalize unpublishedCandidates host ledger artifacts discarded = pending
  induction pending generalizing state with
  | nil => exact hstate
  | cons candidate rest ih =>
    exact ih _ (recoverCandidate_cited host ledger meetingSequences hstate)

variable {task : ArtifactClaim}

theorem enrichFrom_sourceIds {candidates : List MeetingCandidate} {gathered : Enrichment}
    (h : candidateId ∈ gathered.sourceIds) :
    candidateId ∈ (enrichFrom host meetingSequences task candidates gathered).sourceIds := by
  induction candidates generalizing gathered with
  | nil => exact h
  | cons candidate rest ih =>
    rw [enrichFrom]
    dsimp only
    have hnext : candidateId ∈ appendNew gathered.sourceIds [candidate.candidateId] :=
      mem_appendNew.mpr (.inl h)
    split
    · exact ih h
    · split
      · exact hnext
      · exact ih hnext

variable {profile : TokenProfile}

theorem enrichTask_sources (h : relatedContext host ledger profile task = []) :
    (enrichTask host letters ledger meetingSequences profile task).sourceCandidateIds =
      task.sourceCandidateIds := by
  unfold enrichTask
  dsimp only
  rw [if_pos h]
  split_ifs <;> rfl

theorem enrichTask_cites (h : task.cites candidateId) :
    (enrichTask host letters ledger meetingSequences profile task).cites candidateId := by
  by_cases hcontext : relatedContext host ledger profile task = []
  · rwa [ArtifactClaim.cites, enrichTask_sources host letters ledger meetingSequences hcontext]
  unfold enrichTask
  generalize relatedContext host ledger profile task = context at hcontext ⊢
  by_cases hshallow : isShallow host task.title task.body = false
  · rwa [if_pos hshallow]
  · rw [if_neg hshallow]
    dsimp only
    rw [if_neg hcontext]
    have hgathered : candidateId ∈ (enrichFrom host meetingSequences task context
        ⟨[], task.sourceCandidateIds, task.evidenceSequences⟩).sourceIds :=
      enrichFrom_sourceIds host meetingSequences (by simpa only [ArtifactClaim.cites] using h)
    generalize enrichFrom host meetingSequences task context
      ⟨[], task.sourceCandidateIds, task.evidenceSequences⟩ = gathered at hgathered ⊢
    generalize composeBody host letters task.title task.body gathered.extras = body
    by_cases hsame : body = normalizeText task.body ∧
        gathered.sourceIds = task.sourceCandidateIds
    · rwa [if_pos hsame]
    · rw [if_neg hsame]
      simpa only [ArtifactClaim.cites] using hgathered

theorem composedTasks_cited (htask : task ∈ artifacts) (hkind : task.kind = .task)
    (h : task.cites candidateId) :
    Cited candidateId (composedTasks host letters ledger meetingSequences artifacts) :=
  ⟨_, List.mem_map_of_mem (List.mem_filter.mpr ⟨htask, by simpa using hkind⟩),
    enrichTask_cites host letters ledger meetingSequences h⟩

theorem restated_cited {tasks : List ArtifactClaim} {note : ArtifactClaim}
    (h : restatesTask host profile tasks note = true) (hcites : note.cites candidateId) :
    Cited candidateId tasks := by
  simp only [restatesTask, List.any_eq_true, List.all_eq_true, Bool.and_eq_true,
    decide_eq_true_eq] at h
  obtain ⟨-, task, htask, hsources, -⟩ := h
  exact ⟨task, htask, hsources candidateId hcites⟩

theorem mergeOrdered_cites {first : ArtifactClaim} {rest : List ArtifactClaim} :
    (mergeOrdered host letters first rest).cites candidateId ↔
      Cited candidateId (first :: rest) := by
  simp only [mergeOrdered, ArtifactClaim.cites, mem_appendNew, List.not_mem_nil, false_or,
    List.mem_flatMap, Cited]

theorem mergeGroup_cited {group : List ArtifactClaim} :
    Cited candidateId (mergeGroup host letters group) ↔
      Cited candidateId (group.take maxCluster) := by
  unfold mergeGroup
  match group with
  | [] => simp
  | [note] => simp [maxCluster]
  | first :: second :: rest =>
    have hperm := List.perm_insertionSort
      (fun a b : ArtifactClaim => a.firstEvidence ≤ b.firstEvidence)
      ((first :: second :: rest).take maxCluster)
    dsimp only
    generalize ((first :: second :: rest).take maxCluster).insertionSort
      (fun a b => a.firstEvidence ≤ b.firstEvidence) = ordered at hperm ⊢
    cases ordered with
    | nil =>
      rw [List.nil_perm.mp hperm]
    | cons lead others =>
      have hone : Cited candidateId [mergeOrdered host letters lead others] ↔
          (mergeOrdered host letters lead others).cites candidateId := by
        simp only [Cited, List.mem_singleton, exists_eq_left]
      exact (hone.trans (mergeOrdered_cites host letters)).trans
        ⟨fun h => h.mono hperm.subset, fun h => h.mono hperm.symm.subset⟩

theorem clusterNotes_cited {notes : List ArtifactClaim} :
    Cited candidateId (clusterNotes host letters profile notes) ↔
      ∃ group ∈ Groups.unionGroups (relatedNotes host profile) notes,
        Cited candidateId (group.take maxCluster) := by
  have hperm := Groups.perm_unionGroups (relatedNotes host profile) notes
  unfold clusterNotes
  by_cases hlength : notes.length ≤ 1
  · rw [if_pos hlength]
    have hshort : ∀ group ∈ Groups.unionGroups (relatedNotes host profile) notes,
        group.take maxCluster = group := by
      intro group hgroup
      refine List.take_of_length_le ?_
      have hle := (List.sublist_flatten_of_mem hgroup).length_le
      rw [hperm.length_eq] at hle
      exact hle.trans (hlength.trans (by decide))
    constructor
    · intro h
      obtain ⟨claim, hclaim, hcites⟩ := h
      obtain ⟨group, hgroup, hmem⟩ := List.mem_flatten.mp (hperm.symm.subset hclaim)
      exact ⟨group, hgroup, claim, by rwa [hshort group hgroup], hcites⟩
    · intro h
      obtain ⟨group, hgroup, claim, hclaim, hcites⟩ := h
      rw [hshort group hgroup] at hclaim
      exact ⟨claim, hperm.subset (List.mem_flatten_of_mem hgroup hclaim), hcites⟩
  · rw [if_neg hlength]
    constructor
    · intro h
      obtain ⟨claim, hclaim, hcites⟩ := h
      obtain ⟨group, hgroup, hmem⟩ := List.mem_flatMap.mp hclaim
      exact ⟨group, hgroup, (mergeGroup_cited host letters).mp ⟨claim, hmem, hcites⟩⟩
    · intro h
      obtain ⟨group, hgroup, hcited⟩ := h
      obtain ⟨claim, hclaim, hcites⟩ := (mergeGroup_cited host letters).mpr hcited
      exact ⟨claim, List.mem_flatMap.mpr ⟨group, hgroup, hclaim⟩, hcites⟩

theorem composeArtifacts_cited :
    Cited candidateId (composeArtifacts host letters ledger meetingSequences artifacts) ↔
      Cited candidateId (composedTasks host letters ledger meetingSequences artifacts) ∨
        ∃ group ∈ noteGroups host letters ledger meetingSequences artifacts,
          Cited candidateId (group.take maxCluster) := by
  rw [composeArtifacts, cited_append, clusterNotes_cited]
  rfl

theorem composeArtifacts_keeps (h : Cited candidateId artifacts) :
    Cited candidateId (composeArtifacts host letters ledger meetingSequences artifacts) ∨
      ∃ group ∈ noteGroups host letters ledger meetingSequences artifacts,
        Cited candidateId (group.drop maxCluster) := by
  obtain ⟨claim, hclaim, hcites⟩ := h
  rw [composeArtifacts_cited]
  cases hkind : claim.kind with
  | task =>
    exact .inl (.inl (composedTasks_cited host letters ledger meetingSequences hclaim hkind hcites))
  | note =>
    by_cases hrestates : restatesTask host (compositionProfile host ledger artifacts)
        (composedTasks host letters ledger meetingSequences artifacts) claim = true
    · exact .inl (.inl (restated_cited host hrestates hcites))
    · have hdistinct : claim ∈ distinctNotes host letters ledger meetingSequences artifacts := by
        simp only [distinctNotes, List.mem_filter, hclaim, hkind, true_and, decide_true,
          Bool.not_eq_true']
        simpa using hrestates
      obtain ⟨group, hgroup, hmem⟩ := List.mem_flatten.mp
        ((Groups.perm_unionGroups _ _).symm.subset hdistinct)
      rw [← List.take_append_drop maxCluster group] at hmem
      rcases List.mem_append.mp hmem with htake | hdrop
      · exact .inl (.inr ⟨group, hgroup, claim, htake, hcites⟩)
      · exact .inr ⟨group, hgroup, claim, hdrop, hcites⟩

def parserHost : Host where
  casefold := Text.lower
  casefold_empty := EventPipeline.lower_empty
  isWord c := c.isAlphanum
  digest text := text
  cosine _ _ := 0

def plainLetters : Letters where
  isLower := Char.isLower
  upper c := .singleton c.toUpper

def parserLedger : CandidateLedger where
  candidates :=
    [{ candidateId := "a", kind := .action, meaning := "Ship the parser"
       evidenceSequences := [1] },
     { candidateId := "b", kind := .action, meaning := "Write the tests"
       evidenceSequences := [2] }]
  named := by decide
  distinct := by decide

def parserTasks : List ArtifactClaim :=
  [{ artifactKey := "t1", kind := .task, title := "Ship the parser"
     body := "Release the rewritten parser to every customer in May"
     sourceCandidateIds := ["a"], evidenceSequences := [1] },
   { artifactKey := "t2", kind := .task, title := "Write the tests"
     body := "Cover the error paths of the new reader with regression tests"
     sourceCandidateIds := ["a", "b"], evidenceSequences := [1, 2] }]

end AiBuddy.MeetingPipeline
