import AiBuddy.MeetingPipeline.Proofs.Verifier

/-!
# Accepted artifacts and the reviews behind them

From the rows of one batch to the whole of `verify` and the persistence gate.
-/

namespace AiBuddy.MeetingPipeline

variable {casefold : String → String} {replies : Replies}
variable {sequenceText : Int → Option String} {budget : Nat}

structure SentAs (sequenceText : Int → Option String) (sent : ReviewItem)
    (artifact : VerifiedArtifact) : Prop where
  artifactKey : artifact.artifactKey = sent.artifactKey
  title : artifact.title = sent.title
  body : artifact.body = sent.body
  acceptanceCriteria : artifact.acceptanceCriteria = sent.acceptanceCriteria.getD ""
  evidence : artifact.evidenceSequences.map
    (fun sequence => (sequence, (sequenceText sequence).getD "")) = sent.evidence

structure Supports (casefold : String → String) (row : VerifierItem)
    (artifact : VerifiedArtifact) : Prop where
  verdict : row.verdict = .supported
  owner : artifact.owner ≠ none → row.fieldSupport.owner = true ∧
    ∀ field ∈ row.unsupportedFields, Text.strip field ≠ "" → casefold field ≠ "owner"
  dueDate : artifact.dueDate ≠ none → row.fieldSupport.dueDate = true ∧
    ∀ field ∈ row.unsupportedFields, Text.strip field ≠ "" →
      casefold field ≠ "duedate" ∧ casefold field ≠ "duedatetext"

/-- The artifact is as the last review request for its claim sent it, and a row of the reply to
that request, which speaks for the claim, supports it. -/
def Published (speaksFor : List ReviewItem → List VerifierItem → String → VerifierItem → Prop)
    (casefold : String → String) (sequenceText : Int → Option String) (log : List Call)
    (artifact : VerifiedArtifact) : Prop :=
  ∃ request items sent row,
    lastReview log artifact.artifactKey = some (request, .items items) ∧
      sent ∈ request ∧ SentAs sequenceText sent artifact ∧
      row ∈ items ∧ speaksFor request items artifact.artifactKey row ∧
      Supports casefold row artifact

/-- A split batch does not mix its halves up for a claim: no reply to a request for part of the
batch without the claim has a row with the claim's key. -/
def KeptApart (sequenceText : Int → Option String) (budget : Nat) (artifacts : List ArtifactClaim)
    (log : List Call) (key : String) : Prop :=
  ∀ batch ∈ sizeBatches sequenceText budget artifacts, key ∈ batch.map (·.artifactKey) →
    (batch.map (reviewItem sequenceText), ReviewReply.error) ∈ reviews log →
      ¬ KeyElsewhere sequenceText log batch key

variable {claim : ArtifactClaim}

theorem sentAs_applyVerdict {row : Option VerifierItem} :
    SentAs sequenceText (reviewItem sequenceText claim)
      (applyFieldSupport (applyVerdict casefold claim row)) where
  artifactKey := rfl
  title := rfl
  body := rfl
  acceptanceCriteria := by
    by_cases h : claim.acceptanceCriteria = "" <;>
      simp [applyFieldSupport, applyVerdict, reviewItem, h]
  evidence := rfl

variable {row : VerifierItem}

theorem notMem_folded {name : String} (h : name ∉ (unsupportedOf row).map casefold) :
    ∀ field ∈ row.unsupportedFields, Text.strip field ≠ "" → casefold field ≠ name := by
  intro field hfield hblank heq
  refine h (heq ▸ List.mem_map_of_mem (List.mem_filter.mpr ⟨hfield, ?_⟩))
  simpa using hblank

theorem supportOf_owner (h : (supportOf casefold row).owner = some true) :
    row.fieldSupport.owner = true ∧
      ∀ field ∈ row.unsupportedFields, Text.strip field ≠ "" → casefold field ≠ "owner" := by
  unfold supportOf at h
  dsimp only at h
  split at h
  · cases h
  next hmem => exact ⟨Option.some.inj h, notMem_folded hmem⟩

theorem supportOf_dueDate (h : (supportOf casefold row).dueDate = some true) :
    row.fieldSupport.dueDate = true ∧
      ∀ field ∈ row.unsupportedFields, Text.strip field ≠ "" →
        casefold field ≠ "duedate" ∧ casefold field ≠ "duedatetext" := by
  unfold supportOf at h
  dsimp only at h
  split at h
  · cases h
  next hmem =>
    rw [not_or] at hmem
    exact ⟨Option.some.inj h, fun field hfield hblank =>
      ⟨notMem_folded hmem.1 field hfield hblank, notMem_folded hmem.2 field hfield hblank⟩⟩

theorem supports_applyVerdict (h : row.verdict = .supported) :
    Supports casefold row (applyFieldSupport (applyVerdict casefold claim (some row))) where
  verdict := h
  owner hkept := by
    by_cases howner : (supportOf casefold row).owner = some true
    · exact supportOf_owner howner
    · exact absurd (if_neg howner) hkept
  dueDate hkept := by
    by_cases hdue : (supportOf casefold row).dueDate = some true
    · exact supportOf_dueDate hdue
    · exact absurd (if_neg hdue) hkept

theorem row_of_supported {row : Option VerifierItem}
    (h : (applyFieldSupport (applyVerdict casefold claim row)).verdict = .supported) :
    ∃ found, row = some found ∧ found.verdict = .supported := by
  cases row with
  | none => cases h
  | some found => exact ⟨found, rfl, h⟩

variable {log : List Call}

theorem Tied.published (h : Tied sequenceText log claim row) (hverdict : row.verdict = .supported) :
    Published MatchedRow casefold sequenceText log
      (applyFieldSupport (applyVerdict casefold claim (some row))) := by
  obtain ⟨request, items, hlast, hsent, hrow, hmatched⟩ := h
  exact ⟨request, items, _, row, hlast, hsent, sentAs_applyVerdict, hrow, hmatched,
    supports_applyVerdict hverdict⟩

variable {later : List Call} {artifact : VerifiedArtifact}

theorem Published.of_lastReview_eq (h : Published MatchedRow casefold sequenceText log artifact)
    (heq : lastReview later artifact.artifactKey = lastReview log artifact.artifactKey) :
    Published MatchedRow casefold sequenceText later artifact := by
  rwa [Published, heq]

theorem Published.repaired (h : Published MatchedRow casefold sequenceText log artifact) :
    Published MatchedRow casefold sequenceText log { artifact with repaired := true } := by
  obtain ⟨request, items, sent, row, hlast, hsent, hsentAs, hrow, hmatched, hsupports⟩ := h
  exact ⟨request, items, sent, row, hlast, hsent,
    ⟨hsentAs.artifactKey, hsentAs.title, hsentAs.body, hsentAs.acceptanceCriteria,
      hsentAs.evidence⟩, hrow, hmatched,
    ⟨hsupports.verdict, hsupports.owner, hsupports.dueDate⟩⟩

theorem flatten_sizeBatchesFrom {current rest : List ArtifactClaim} {size : Nat} :
    (sizeBatchesFrom sequenceText budget current size rest).flatten = current ++ rest := by
  induction rest generalizing current size with
  | nil =>
    rw [sizeBatchesFrom]
    split
    next h => simp [h]
    next => simp
  | cons item rest ih =>
    rw [sizeBatchesFrom]
    split
    · rw [List.flatten_cons, ih, List.singleton_append]
    · rw [ih, List.append_assoc, List.singleton_append]

theorem flatten_sizeBatches {artifacts : List ArtifactClaim} :
    (sizeBatches sequenceText budget artifacts).flatten = artifacts :=
  flatten_sizeBatchesFrom

theorem verifyBatches_spec {batches : List (List ArtifactClaim)}
    {verified : List VerifiedArtifact} (hnodup : (batches.flatten.map (·.artifactKey)).Nodup)
    (h : verifyBatches casefold replies sequenceText batches log = some (verified, later)) :
    Reviewed (batches.flatten.map (·.artifactKey)) log later ∧
      verified.map (·.artifactKey) = batches.flatten.map (·.artifactKey) ∧
      ∀ artifact ∈ verified, artifact.verdict = .supported →
        Published MatchedRow casefold sequenceText later artifact ∨
          ∃ batch ∈ batches, artifact.artifactKey ∈ batch.map (·.artifactKey) ∧
            (batch.map (reviewItem sequenceText), ReviewReply.error) ∈ reviews later ∧
            KeyElsewhere sequenceText later batch artifact.artifactKey := by
  induction batches generalizing verified log with
  | nil =>
    rw [verifyBatches, Option.some.injEq, Prod.mk.injEq] at h
    obtain ⟨rfl, rfl⟩ := h
    exact ⟨.refl _ _, rfl, by simp⟩
  | cons batch rest ih =>
    rw [verifyBatches] at h
    simp only [Option.bind_eq_some_iff, Option.map_eq_some_iff, Prod.exists, Prod.mk.injEq] at h
    obtain ⟨rows, middle, hbatch, others, last, hrest, rfl, rfl⟩ := h
    rw [List.flatten_cons, List.map_append] at hnodup ⊢
    obtain ⟨hnodupBatch, hnodupRest, hapart⟩ := List.nodup_append.mp hnodup
    obtain ⟨hreviewed, hrows, -⟩ := reviewResilient_spec hnodupBatch hbatch
    obtain ⟨hreviewedRest, hkeys, hothers⟩ := ih hnodupRest hrest
    refine ⟨(hreviewed.mono (List.subset_append_left _ _)).trans
      (hreviewedRest.mono (List.subset_append_right _ _)), ?_, ?_⟩
    · rw [List.map_append, hkeys, List.map_map]
      rfl
    · intro artifact hartifact hverdict
      rcases List.mem_append.mp hartifact with hin | hin
      · obtain ⟨claim, hclaim, rfl⟩ := List.mem_map.mp hin
        obtain ⟨row, hrow, hsupported⟩ := row_of_supported hverdict
        have hkey : claim.artifactKey ∈ batch.map (·.artifactKey) := List.mem_map_of_mem hclaim
        have hlast : lastReview last claim.artifactKey = lastReview middle claim.artifactKey :=
          hreviewedRest.frame _ fun hmem => hapart _ hkey _ hmem rfl
        rw [hrow]
        rcases hrows claim hclaim row hrow with htied | ⟨hsplit, helse⟩
        · exact .inl ((htied.of_lastReview_eq hlast).published hsupported)
        · exact .inr ⟨batch, List.mem_cons_self, hkey,
            reviews_subset hreviewedRest.extends_log hsplit,
            helse.mono hreviewedRest.extends_log (List.Subset.refl _)⟩
      · refine (hothers artifact hin hverdict).imp_right ?_
        rintro ⟨other, hother, hmixed⟩
        exact ⟨other, List.mem_cons_of_mem _ hother, hmixed⟩

theorem llmRepair_reviewed {item : VerifiedArtifact} {log : List Call} :
    (llmRepair replies item log).1.artifactKey = item.artifactKey ∧
      Reviewed [] log (llmRepair replies item log).2 := by
  refine ⟨?_, List.prefix_append _ _, fun key _ => lastReview_append_repair _ _ _ _⟩
  unfold llmRepair
  cases replies.repair log.length <;> rfl

theorem repairOnce_spec {item once : VerifiedArtifact}
    (h : repairOnce casefold replies sequenceText item log = some (once, later)) :
    once.artifactKey = item.artifactKey ∧ Reviewed [item.artifactKey] log later ∧
      (once.verdict = .supported → Published MatchedRow casefold sequenceText later once) := by
  unfold repairOnce at h
  dsimp only at h
  generalize hrepaired : (if needsRepair item then
    llmRepair replies (applyFieldSupport (stripUnsupportedMetadata casefold item)) log
    else (applyFieldSupport (stripUnsupportedMetadata casefold item), log)) = repaired at h
  have hcase : repaired.1.artifactKey = item.artifactKey ∧ Reviewed [] log repaired.2 := by
    rw [← hrepaired]
    split
    · exact llmRepair_reviewed
    · exact ⟨rfl, .refl _ _⟩
  obtain ⟨hkey, hreviewed⟩ := hcase
  cases hreply : replies.review repaired.2.length with
  | error => simp [hreply] at h
  | hardError => simp [hreply] at h
  | items items =>
    simp only [hreply, Option.some.injEq, Prod.mk.injEq] at h
    obtain ⟨rfl, rfl⟩ := h
    have hcall : Reviewed [repaired.1.artifactKey] repaired.2
        (repaired.2 ++ [reviewCall replies sequenceText repaired.2 [repaired.1.toClaim]]) :=
      .of_call [repaired.1.toClaim] repaired.2
    refine ⟨?_, (hreviewed.mono (List.nil_subset _)).trans (hkey ▸ hcall), ?_⟩
    · rw [← hkey, afterRepair]
      dsimp only
      split <;> rfl
    · intro hverdict
      rw [afterRepair] at hverdict ⊢
      dsimp only at hverdict ⊢
      split at hverdict
      next hsupported =>
        rw [if_pos hsupported]
        obtain ⟨row, hrow, hrowVerdict⟩ := row_of_supported hsupported
        have htied : Tied sequenceText
            (repaired.2 ++ [reviewCall replies sequenceText repaired.2 [repaired.1.toClaim]])
            repaired.1.toClaim row := by
          refine ⟨_, items, ?_, List.mem_singleton_self _, List.mem_of_mem_head? hrow,
            .inl (.inr rfl)⟩
          rw [lastReview_append_reviewCall, if_pos (by simp), hreply]
          rfl
        rw [hrow]
        exact (htied.published hrowVerdict).repaired
      next => cases hverdict

theorem repairPartial_spec {items out : List VerifiedArtifact}
    (hnodup : (items.map (·.artifactKey)).Nodup)
    (h : repairPartial casefold replies sequenceText items log = some (out, later)) :
    Reviewed (items.map (·.artifactKey)) log later ∧
      ∀ artifact ∈ out, artifact.verdict = .supported →
        Published MatchedRow casefold sequenceText later artifact ∨
          artifact ∈ items ∧
            lastReview later artifact.artifactKey = lastReview log artifact.artifactKey := by
  induction items generalizing out log with
  | nil =>
    rw [repairPartial, Option.some.injEq, Prod.mk.injEq] at h
    obtain ⟨rfl, rfl⟩ := h
    exact ⟨.refl _ _, by simp⟩
  | cons item rest ih =>
    rw [List.map_cons, List.nodup_cons] at hnodup
    rw [List.map_cons]
    have hapart : ∀ artifact ∈ rest, artifact.artifactKey ≠ item.artifactKey :=
      fun artifact hmem heq => hnodup.1 (heq ▸ List.mem_map_of_mem hmem)
    rw [repairPartial] at h
    split at h
    · simp only [Option.bind_eq_some_iff, Option.map_eq_some_iff, Prod.exists, Prod.mk.injEq] at h
      obtain ⟨once, middle, honce, others, last, hrest, rfl, rfl⟩ := h
      obtain ⟨hkey, hreviewed, hpublished⟩ := repairOnce_spec honce
      obtain ⟨hreviewedRest, hothers⟩ := ih hnodup.2 hrest
      refine ⟨(hreviewed.mono (by simp)).trans (hreviewedRest.mono (List.subset_cons_self _ _)), ?_⟩
      intro artifact hartifact hverdict
      rcases List.mem_cons.mp hartifact with rfl | hin
      · exact .inl ((hpublished hverdict).of_lastReview_eq
          (hreviewedRest.frame _ (hkey ▸ hnodup.1)))
      · refine (hothers artifact hin hverdict).imp_right ?_
        rintro ⟨hmem, hlast⟩
        refine ⟨List.mem_cons_of_mem _ hmem, hlast.trans (hreviewed.frame _ ?_)⟩
        rw [List.mem_singleton]
        exact hapart artifact hmem
    · simp only [Option.map_eq_some_iff, Prod.exists, Prod.mk.injEq] at h
      obtain ⟨others, last, hrest, rfl, rfl⟩ := h
      obtain ⟨hreviewedRest, hothers⟩ := ih hnodup.2 hrest
      refine ⟨hreviewedRest.mono (List.subset_cons_self _ _), ?_⟩
      intro artifact hartifact hverdict
      rcases List.mem_cons.mp hartifact with rfl | hin
      · exact .inr ⟨List.mem_cons_self, hreviewedRest.frame _ hnodup.1⟩
      · refine (hothers artifact hin hverdict).imp_right ?_
        rintro ⟨hmem, hlast⟩
        exact ⟨List.mem_cons_of_mem _ hmem, hlast⟩

theorem mem_applyInvariantGate {ledger : CandidateLedger} {conversationId : String}
    {artifacts : List VerifiedArtifact}
    (h : artifact ∈ (applyInvariantGate sequenceText ledger conversationId artifacts).1) :
    artifact ∈ artifacts ∧ artifact.verdict = .supported := by
  obtain ⟨hmem, hready⟩ := List.mem_filter.mp h
  refine ⟨hmem, ?_⟩
  by_contra hverdict
  rw [persistenceReady, if_pos hverdict] at hready
  cases hready

/-- Every accepted artifact is as its last review request sent it, and it is supported by a row
that carries its key, by the row of a request for its claim alone, or by the foreign row at the
place of its claim. -/
theorem accepted_published {ledger : CandidateLedger} {conversationId : String}
    {artifacts : List ArtifactClaim} {verified : List VerifiedArtifact} {log : List Call}
    {artifact : VerifiedArtifact} (hkeys : (artifacts.map (·.artifactKey)).Nodup)
    (hrun : verify casefold replies sequenceText budget artifacts = some (verified, log))
    (haccepted : artifact ∈ (applyInvariantGate sequenceText ledger conversationId verified).1)
    (hapart : KeptApart sequenceText budget artifacts log artifact.artifactKey) :
    Published MatchedRow casefold sequenceText log artifact := by
  obtain ⟨hmem, hverdict⟩ := mem_applyInvariantGate haccepted
  rw [verify, Option.bind_eq_some_iff] at hrun
  obtain ⟨⟨reviewed, middle⟩, hbatches, hrepairs⟩ := hrun
  have hnodup :
      ((sizeBatches sequenceText budget artifacts).flatten.map (·.artifactKey)).Nodup := by
    rwa [flatten_sizeBatches]
  obtain ⟨-, hreviewedKeys, hreviewed⟩ := verifyBatches_spec hnodup hbatches
  obtain ⟨hafter, hout⟩ := repairPartial_spec (hreviewedKeys ▸ hnodup) hrepairs
  rcases hout artifact hmem hverdict with hpublished | ⟨hin, hlast⟩
  · exact hpublished
  rcases hreviewed artifact hin hverdict with hpublished | ⟨batch, hbatch, hkey, hsplit, helse⟩
  · exact hpublished.of_lastReview_eq hlast
  · exact absurd (helse.mono hafter.extends_log (List.Subset.refl _))
      (hapart batch hbatch hkey (reviews_subset hafter.extends_log hsplit))

def sampleClaims : List ArtifactClaim :=
  [{ artifactKey := "t1", kind := .task, title := "Ship it"
     sourceCandidateIds := ["C"], evidenceSequences := [1] },
   { artifactKey := "t2", kind := .task, title := "Test it"
     sourceCandidateIds := ["C"], evidenceSequences := [1] }]

def sampleItems : List VerifierItem :=
  [⟨"t1", .supported, [], ⟨true, true, true, true⟩, ""⟩,
   ⟨"t9", .supported, [], ⟨true, true, true, true⟩, ""⟩]

def sampleReplies : Replies := ⟨fun _ => .items sampleItems, fun _ => .error⟩

def sampleText (sequence : Int) : Option String :=
  if sequence = 1 then some "ship and test it" else none

def sampleLedger : CandidateLedger :=
  CandidateLedger.empty.append { candidateId := "C", meaning := "ship", evidenceSequences := [1] }

def sampleVerified : List VerifiedArtifact :=
  (sampleClaims.zip sampleItems).map fun pair =>
    applyFieldSupport (applyVerdict Text.lower pair.1 (some pair.2))

def sampleLog : List Call :=
  [.review (sampleClaims.map (reviewItem sampleText)) (.items sampleItems)]

theorem verify_sampleClaims :
    verify Text.lower sampleReplies sampleText 14000 sampleClaims =
      some (sampleVerified, sampleLog) := by
  have hbatches : sizeBatches sampleText 14000 sampleClaims = [sampleClaims] := by decide
  have hreview : ∃ rows, reviewResilient sampleReplies sampleText sampleClaims [] =
      some (rows, sampleLog) ∧ rows "t1" = sampleItems[0]? ∧ rows "t2" = sampleItems[1]? := by
    rw [reviewResilient]
    exact ⟨_, rfl, by decide, by decide⟩
  obtain ⟨rows, hrows, hfirst, hsecond⟩ := hreview
  have hverified : sampleClaims.map (fun claim =>
      applyFieldSupport (applyVerdict Text.lower claim (rows claim.artifactKey))) =
        sampleVerified := by
    rw [sampleClaims, List.map_cons, List.map_cons, hfirst, hsecond]
    rfl
  rw [verify, hbatches, verifyBatches, hrows, Option.bind_some, verifyBatches, Option.map_some,
    Option.bind_some, hverified]
  rfl

/-- The second task is published, by the row at its place. -/
theorem accepted_published_sample :
    Published MatchedRow Text.lower sampleText sampleLog sampleVerified[1] := by
  have hmem : sampleVerified[1] ∈
      (applyInvariantGate sampleText sampleLedger "conv" sampleVerified).1 := by decide
  refine accepted_published (by decide) verify_sampleClaims hmem ?_
  intro batch _ _ hsplit
  simp [reviews, sampleLog] at hsplit

/-- A row with the key of no claim is taken for the claim that has no row. -/
theorem stray_row_accepted :
    ∃ verified log, verify Text.lower sampleReplies sampleText 14000 sampleClaims =
        some (verified, log) ∧ (sampleClaims.map (·.artifactKey)).Nodup ∧
      ∃ artifact ∈ (applyInvariantGate sampleText sampleLedger "conv" verified).1,
        ¬ Published OwnRow Text.lower sampleText log artifact := by
  refine ⟨_, _, verify_sampleClaims, by decide, sampleVerified[1], by decide, ?_⟩
  rintro ⟨request, items, sent, row, hlast, -, -, hrow, hown, -⟩
  have hreview : lastReview sampleLog "t2" =
      some (sampleClaims.map (reviewItem sampleText), .items sampleItems) := by decide
  have heq := hlast.symm.trans hreview
  simp only [Option.some.injEq, Prod.mk.injEq, ReviewReply.items.injEq] at heq
  obtain ⟨rfl, rfl⟩ := heq
  have hnone : ∀ row ∈ sampleItems, ¬ (row.artifactKey = "t2" ∨ sampleClaims.length = 1) := by
    decide
  exact hnone row hrow hown

end AiBuddy.MeetingPipeline
