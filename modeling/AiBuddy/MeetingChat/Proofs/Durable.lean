import AiBuddy.MeetingChat.Index
import AiBuddy.MeetingChat.Proofs.Chunks

/-!
# The windows hold every segment

No segment is lost where `build_chunks` groups a transcript, whatever is carried over.
-/

namespace AiBuddy.MeetingChat

theorem contains_intercalate {part : String} {parts : List String} {separator : String}
    (h : part ∈ parts) : Text.contains part (separator.intercalate parts) = true := by
  rw [Text.contains, decide_eq_true_eq]
  induction parts with
  | nil => cases h
  | cons first rest ih =>
    cases rest with
    | nil =>
      obtain rfl := List.mem_singleton.mp h
      rw [String.intercalate_singleton]
    | cons second rest =>
      rw [String.intercalate_cons_cons, String.toList_append, String.toList_append]
      rcases List.mem_cons.mp h with rfl | h
      · exact (List.prefix_append part.toList _).isInfix.trans
          (List.prefix_append _ _).isInfix
      · exact (ih h).trans (List.suffix_append _ _).isInfix

theorem contains_chunkOf {segment : TranscriptSegment} {window : List TranscriptSegment}
    {index : Nat} (h : segment ∈ window) :
    Text.contains (segmentLine segment) (chunkOf index window).text = true :=
  contains_intercalate (List.mem_map_of_mem h)

theorem covers_buildChunks (maxChars : Int) (segments : List TranscriptSegment) :
    Covers (buildChunks maxChars segments) segments := by
  intro segment hsegment
  have hadded : segment ∈ (windows maxChars segments).flatMap Overlap.Block.fresh := by
    rwa [windows, Overlap.fresh_blocks]
  obtain ⟨window, hwindow, hfresh⟩ := List.mem_flatMap.mp hadded
  obtain ⟨index, hindex, rfl⟩ := List.mem_iff_getElem.mp hwindow
  rw [buildChunks_eq]
  exact ⟨_, List.mem_mapIdx.mpr ⟨index, hindex, rfl⟩,
    contains_chunkOf (List.mem_append_right _ hfresh)⟩

variable {chunks : List MeetingChunk} {segments : List TranscriptSegment}

theorem Covers.mono {chunks' : List MeetingChunk} {segments' : List TranscriptSegment}
    (h : Covers chunks segments) (hchunks : chunks ⊆ chunks') (hsegments : segments' ⊆ segments) :
    Covers chunks' segments' := by
  intro segment hsegment
  obtain ⟨chunk, hchunk, hcontains⟩ := h segment (hsegments hsegment)
  exact ⟨chunk, hchunks hchunk, hcontains⟩

end AiBuddy.MeetingChat

/-!
## What is kept of a transcript

A corpus has the text of every copy that was saved before its call, where calls begin with nothing
or with everything that was saved, and points are listed only when none or all of it are there.
-/

namespace AiBuddy.MeetingChat

open Program

variable {meeting : Meeting} {s s' : State}

structure Kept (meeting : Meeting) (s : State) : Prop where
  document : s.saved ≠ [] → ∃ state, s.document = some state ∧ state.userId = meeting.userId ∧
    ∀ copy ∈ s.saved, Covers state.textChunks copy
  durable : Durable s
  began : ∀ returned ∈ s.returned, returned.1 ≤ s.saved.length

def Moves (meeting : Meeting) (s s' : State) : Prop :=
  s.saved <+: s'.saved ∧ (Kept meeting s → Kept meeting s')

theorem Moves.refl (s : State) : Moves meeting s s := ⟨List.prefix_rfl, id⟩

theorem Moves.trans (s₁ s₂ s₃ : State) (h : Moves meeting s₁ s₂) (h' : Moves meeting s₂ s₃) :
    Moves meeting s₁ s₃ := ⟨h.1.trans h'.1, h'.2 ∘ h.2⟩

theorem moves_of_eq (hdocument : s'.document = s.document) (hsaved : s'.saved = s.saved)
    (hreturned : s'.returned = s.returned) : Moves meeting s s' := by
  refine ⟨by rw [hsaved], fun h => ⟨?_, ?_, ?_⟩⟩
  · rw [hsaved, hdocument]
    exact h.document
  · intro returned hmem
    rw [hreturned] at hmem
    rw [hsaved]
    exact h.durable returned hmem
  · rw [hreturned, hsaved]
    exact h.began

theorem moves_update {change : IndexState → IndexState}
    (hchange : ∀ state, (change state).textChunks = state.textChunks) :
    Moves meeting s (s.update meeting change) := by
  refine ⟨List.prefix_rfl, fun h => ⟨fun hsaved => ?_, h.durable, h.began⟩⟩
  obtain ⟨state, hstate, -, hcovers⟩ := h.document hsaved
  refine ⟨_, rfl, rfl, fun copy hcopy => ?_⟩
  change Covers (change (s.document.getD _)).textChunks copy
  rw [hchange, hstate]
  exact hcovers copy hcopy

variable {fingerprint : String}

theorem moves_saveText (hsegments : ∀ copy ∈ s.saved, copy ⊆ segments)
    (hchunks : Covers chunks segments) :
    Moves meeting s (s.saveText meeting segments chunks fingerprint) := by
  refine ⟨List.prefix_append _ _, fun h => ⟨fun _ => ⟨_, rfl, rfl, fun copy hcopy => ?_⟩, ?_, ?_⟩⟩
  · rcases List.mem_append.mp hcopy with hcopy | hcopy
    · exact hchunks.mono (List.Subset.refl _) (hsegments copy hcopy)
    · rw [List.mem_singleton.mp hcopy]
      exact hchunks
  · intro returned hmem copy hcopy
    refine h.durable returned hmem copy ?_
    rwa [State.saveText, List.take_append_of_le_length (h.began returned hmem)] at hcopy
  · intro returned hmem
    exact (h.began returned hmem).trans (List.prefix_append _ _).length_le

theorem moves_answer {began : Nat} {corpus : MeetingCorpus} (hbegan : began ≤ s.saved.length)
    (hcorpus : ∀ copy ∈ s.saved.take began, Covers corpus.chunks copy) :
    Moves meeting s (s.answer began corpus) := by
  refine ⟨List.prefix_rfl, fun h => ⟨h.document, ?_, ?_⟩⟩
  · intro returned hmem
    rcases List.mem_cons.mp hmem with rfl | hmem
    · exact hcorpus
    · exact h.durable returned hmem
  · intro returned hmem
    rcases List.mem_cons.mp hmem with rfl | hmem
    · exact hbegan
    · exact h.began returned hmem

theorem moves_recordFailure {now : Int} :
    Moves meeting s (s.recordFailure meeting fingerprint now) := moves_update fun _ => rfl

theorem moves_complete : Moves meeting s (s.complete meeting fingerprint) := moves_update fun _ =>
    rfl

theorem moves_comes {run : State → State} {reply : Except Fault Unit}
    (hrun : Moves meeting s (run s)) (h : Comes run s reply s') : Moves meeting s s' := by
  rcases h with ⟨-, rfl⟩ | ⟨fault, -, rfl | rfl⟩
  · exact hrun
  · exact .refl _
  · exact hrun

theorem moves_elsewhere (h : Elsewhere s s') : Moves meeting s s' := by
  obtain ⟨raw, rfl⟩ := h
  exact moves_of_eq rfl rfl rfl

def Working {β : Type} (command : IndexCommand β) : Prop :=
  match command with
  | .saveText segments chunks _ => Covers chunks segments
  | .answer _ _ => False
  | _ => True

theorem moves_working {β : Type} {command : IndexCommand β} {reply : β} (h : Working command)
    (hstep : conditioned meeting (whole meeting) command s reply s') : Moves meeting s s' := by
  obtain ⟨hwhole, hstep⟩ := hstep
  cases command with
  | load => exact hstep.2 ▸ .refl _
  | begin segments => exact hstep.2 ▸ .refl _
  | utcNow => exact hstep ▸ .refl _
  | findState => exact hstep.2 ▸ .refl _
  | findCopy => exact hstep.2 ▸ .refl _
  | saveText segments chunks fingerprint => exact moves_comes (moves_saveText hwhole h) hstep
  | recordFailure fingerprint now => exact moves_comes moves_recordFailure hstep
  | ensureCollection => exact hstep ▸ .refl _
  | embed batch => exact hstep ▸ .refl _
  | deletePoints => exact moves_comes (moves_of_eq rfl rfl rfl) hstep
  | upsert batch =>
    rcases hstep with ⟨-, rfl⟩ | ⟨fault, written, -, rfl⟩
    · exact moves_of_eq rfl rfl rfl
    · exact moves_of_eq rfl rfl rfl
  | complete fingerprint => exact moves_comes moves_complete hstep
  | scroll before offset => exact hstep.2 ▸ .refl _
  | answer began corpus => exact h.elim

variable {α : Type}

theorem issues_call {command : IndexCommand (Except Fault α)} (h : Working command) :
    (call command).run.Issues Working := ⟨h, fun _ => trivial⟩

theorem issues_ask {command : IndexCommand α} (h : Working command) :
    (ask command).run.Issues Working := ⟨h, fun _ => trivial⟩

theorem issues_embedAll {parts : List (List MeetingChunk)} :
    (embedAll parts).run.Issues Working := by
  induction parts with
  | nil => trivial
  | cons batch rest ih =>
    exact Issues.raising_bind (issues_call trivial) fun _ =>
      Issues.raising_bind ih fun _ => trivial

theorem issues_upsertAll {parts : List (List MeetingChunk)} :
    (upsertAll parts).run.Issues Working := by
  induction parts with
  | nil => trivial
  | cons batch rest ih => exact Issues.raising_bind (issues_call trivial) fun _ => ih

theorem issues_index {chunks : List MeetingChunk} {fingerprint : String} :
    (index chunks fingerprint).run.Issues Working := by
  refine Issues.raising_bind (issues_call trivial) fun _ => ?_
  refine Issues.raising_bind issues_embedAll fun _ => ?_
  refine Issues.raising_bind (issues_call trivial) fun _ => ?_
  exact Issues.raising_bind issues_upsertAll fun _ => issues_call trivial

theorem issues_loadState {command : IndexCommand (Except Fault (Option IndexState))}
    (h : Working command) : (loadState command).run.Issues Working := by
  refine Issues.attempt_bind (issues_call h) ?_
  rintro (fault | state)
  · trivial
  · trivial

theorem issues_recentIndexFailure {state : Option IndexState} {fingerprint : String} :
    (recentIndexFailure state fingerprint).run.Issues Working := by
  unfold recentIndexFailure
  split
  · trivial
  · split
    · trivial
    · exact Issues.raising_bind (issues_ask trivial) fun _ => trivial

theorem issues_recordIndexFailure {fingerprint : String} :
    (recordIndexFailure fingerprint).run.Issues Working :=
  Issues.raising_bind (issues_ask trivial) fun _ =>
    Issues.attempt_bind (issues_call trivial) fun _ => trivial

structure Knows (meeting : Meeting) (copies : List (List TranscriptSegment)) (s : State) :
    Prop where
  saved : copies <+: s.saved
  kept : Kept meeting s

theorem Knows.moves {copies : List (List TranscriptSegment)} (h : Knows meeting copies s)
    (hmoves : Moves meeting s s') : Knows meeting copies s' :=
  ⟨h.saved.trans hmoves.1, hmoves.2 h.kept⟩

abbrev SafeCall {α : Type} (meeting : Meeting) (post : α → State → Prop)
    (prog : Program IndexCommand α) (s : State) : Prop :=
  Safe (conditioned meeting (whole meeting)) (Moves meeting) (fun _ => Moves meeting) post prog s

variable {fuel : Nat}

section Known

variable {copies : List (List TranscriptSegment)}

theorem safe_quiet {prog : Program IndexCommand α} (hknows : Knows meeting copies s)
    (h : prog.Issues Working) :
    SafeCall meeting (fun _ s' => Knows meeting copies s') prog s := by
  have hsafe : SafeCall meeting (fun _ s' => Moves meeting s s') prog s :=
    Issues.safe_along Moves.refl Moves.trans (fun _ _ h => h)
      (fun command s reply s' hworking hstep =>
        ⟨moves_working hworking hstep, moves_working hworking hstep⟩) h s
  exact hsafe.mono fun _ s' hmoves => hknows.moves hmoves

theorem safe_call {command : IndexCommand (Except Fault α)} {post : Except Fault α → State → Prop}
    (hknows : Knows meeting copies s) (hworking : Working command)
    (hpost : ∀ s₁ reply s₂, Knows meeting copies s₁ → Knows meeting copies s₂ →
      conditioned meeting (whole meeting) command s₁ reply s₂ → post reply s₂) :
    SafeCall meeting post (call command).run s := by
  refine Safe.issue fun s₁ reply s₂ hrely hstep => ⟨moves_working hworking hstep, ?_⟩
  have hbefore := hknows.moves hrely
  exact hpost s₁ reply s₂ hbefore (hbefore.moves (moves_working hworking hstep)) hstep

def CoversAll (copies : List (List TranscriptSegment)) (chunks : List MeetingChunk) : Prop :=
  ∀ copy ∈ copies, Covers chunks copy

theorem mem_pointsFrom {offset : Option Nat} {chunk : MeetingChunk}
    (h : chunk ∈ s.pointsFrom meeting offset) : chunk ∈ s.points :=
  List.mem_of_mem_filter ((List.mem_insertionSort _).mp h)

def Listed (copies : List (List TranscriptSegment)) (chunks : List MeetingChunk) : Prop :=
  chunks = [] ∨ CoversAll copies chunks

theorem listed_of_last {before : List MeetingChunk} {offset : Option Nat}
    (hknows : Knows meeting copies s)
    (hbefore : ∀ chunk ∈ before, chunk ∈ s.points)
    (hpast : ∀ chunk ∈ s.points, chunk ∉ s.pointsFrom meeting offset → chunk ∈ before)
    (hpoints : s.points = [] ∨ ∀ copy ∈ s.saved, Covers s.points copy)
    (hlast : (s.page meeting offset).2 = none) :
    Listed copies (before ++ (s.page meeting offset).1) := by
  have hdrop : (s.pointsFrom meeting offset).drop pageSize = [] :=
    List.head?_eq_none_iff.mp (Option.map_eq_none_iff.mp hlast)
  have hpage : (s.page meeting offset).1 = s.pointsFrom meeting offset :=
    List.take_of_length_le (List.drop_eq_nil_iff.mp hdrop)
  rw [hpage]
  rcases hpoints with hnone | hcovers
  · left
    rw [List.append_eq_nil_iff]
    refine ⟨List.eq_nil_iff_forall_not_mem.mpr fun chunk hchunk => ?_,
      List.eq_nil_iff_forall_not_mem.mpr fun chunk hchunk => ?_⟩
    · exact List.not_mem_nil (hnone ▸ hbefore chunk hchunk)
    · exact List.not_mem_nil (hnone ▸ mem_pointsFrom hchunk)
  · right
    intro copy hcopy
    refine (hcovers copy (hknows.saved.subset hcopy)).mono ?_ (List.Subset.refl _)
    intro chunk hchunk
    by_cases hlisted : chunk ∈ s.pointsFrom meeting offset
    · exact List.mem_append_right _ hlisted
    · exact List.mem_append_left _ (hpast chunk hchunk hlisted)

def ListedBy (meeting : Meeting) (copies : List (List TranscriptSegment))
    (outcome : Except Fault (Option (List MeetingChunk))) (s : State) : Prop :=
  Knows meeting copies s ∧ ∀ chunks, outcome = .ok (some chunks) → Listed copies chunks

theorem safe_scrollAll (fuel : Nat) (before : List MeetingChunk) (offset : Option Nat)
    (hknows : Knows meeting copies s) :
    SafeCall meeting (ListedBy meeting copies) (scrollAll fuel before offset).run s := by
  induction fuel generalizing before offset s with
  | zero => exact ⟨hknows, nofun⟩
  | succ fuel ih =>
    refine Safe.raising_bind (safe_call hknows trivial ?_)
    rintro s₁ (fault | ⟨records, next⟩) s₂ hbefore hafter ⟨⟨hseen, hpast, hpoints⟩, hreads, rfl⟩
    · exact ⟨hafter, nofun⟩
    · rcases hreads with hpage | ⟨fault, hfault⟩
      · have hlisted := listed_of_last hbefore hseen hpast hpoints
        rw [← Except.ok.inj hpage] at hlisted
        cases next with
        | none =>
          refine ⟨hafter, ?_⟩
          rintro chunks ⟨⟩
          exact hlisted rfl
        | some next => exact ih (before ++ records) (some next) hafter
      · cases hfault

theorem listed_byIndex (h : Listed copies chunks) : Listed copies (byIndex chunks) := by
  rcases h with rfl | hcovers
  · exact .inl rfl
  · refine .inr fun copy hcopy => (hcovers copy hcopy).mono ?_ (List.Subset.refl _)
    exact fun chunk hchunk => (List.mem_insertionSort _).mpr hchunk

theorem safe_loadStoredChunks (hknows : Knows meeting copies s) :
    SafeCall meeting (ListedBy meeting copies) (loadStoredChunks fuel).run s := by
  refine Safe.attempt_bind ?_
  refine (Safe.raising_bind (safe_call hknows trivial ?_) :
    SafeCall meeting _ (listPoints fuel).run s)
  rintro s₁ (fault | ⟨⟩) s₂ - hafter -
  · refine ⟨hafter, ?_⟩
    rintro chunks ⟨⟩
    exact .inl rfl
  · refine (safe_scrollAll fuel [] none hafter).mono ?_
    rintro (fault | chunks) s₃ ⟨hlater, hlisted⟩
    · refine ⟨hlater, ?_⟩
      rintro chunks ⟨⟩
      exact .inl rfl
    · refine ⟨hlater, fun sorted hsorted => ?_⟩
      obtain ⟨chunks, rfl, rfl⟩ := Option.map_eq_some_iff.mp (Except.ok.inj hsorted)
      exact listed_byIndex (hlisted chunks rfl)

def CoveredBy (meeting : Meeting) (copies : List (List TranscriptSegment))
    (outcome : Except Fault (Option MeetingCorpus)) (s : State) : Prop :=
  Knows meeting copies s ∧
    ∀ corpus, outcome = .ok (some corpus) → CoversAll copies corpus.chunks

theorem Knows.textCopy (hknows : Knows meeting copies s) :
    CoversAll copies (textOf meeting s.document) := by
  intro copy hcopy
  have hmem := hknows.saved.subset hcopy
  obtain ⟨state, hdocument, huser, hcovers⟩ := hknows.kept.document (List.ne_nil_of_mem hmem)
  rw [hdocument, textOf, if_neg fun hne => hne huser]
  exact hcovers copy hmem

theorem safe_loadTextCopy (hknows : Knows meeting copies s) :
    SafeCall meeting (fun outcome s' => Knows meeting copies s' ∧
      ∀ chunks, outcome = .ok chunks → CoversAll copies chunks) (loadTextCopy meeting).run s := by
  refine Safe.raising_bind ?_
  refine (Safe.attempt_bind (safe_call hknows trivial ?_) :
    SafeCall meeting _ (loadState .findCopy).run s)
  rintro s₁ reply s₂ - hafter ⟨⟨found, rfl⟩, hreads, rfl⟩
  have hfound : found = s₂.document := by
    rcases hreads with hreply | ⟨fault, hfault⟩
    · exact Except.ok.inj hreply
    · cases hfault
  refine ⟨hafter, ?_⟩
  rintro chunks ⟨⟩
  exact hfound ▸ hafter.textCopy

theorem safe_ensureStored (hknows : Knows meeting copies s) :
    SafeCall meeting (CoveredBy meeting copies) (ensureStored fuel meeting).run s := by
  refine Safe.raising_bind ((safe_loadStoredChunks hknows).mono ?_)
  rintro (fault | _ | _ | ⟨chunk, chunks⟩) s₁ ⟨hlater, hlisted⟩
  · exact ⟨hlater, nofun⟩
  · exact ⟨hlater, nofun⟩
  · refine Safe.raising_bind ((safe_loadTextCopy hlater).mono ?_)
    rintro (fault | saved) s₂ ⟨hlatest, hcopy⟩
    · exact ⟨hlatest, nofun⟩
    · refine ⟨hlatest, ?_⟩
      rintro corpus ⟨⟩
      exact hcopy saved rfl
  · refine ⟨hlater, ?_⟩
    rintro corpus ⟨⟩
    exact (hlisted _ rfl).resolve_left (List.cons_ne_nil _ _)

def AnswersWith (meeting : Meeting) (copies : List (List TranscriptSegment))
    (chunks : List MeetingChunk) (outcome : Except Fault MeetingCorpus) (s : State) : Prop :=
  Knows meeting copies s ∧ ∀ corpus, outcome = .ok corpus → corpus.chunks = chunks

theorem answersWith_error {fault : Fault} (hknows : Knows meeting copies s) :
    AnswersWith meeting copies chunks (.error fault) s :=
  ⟨hknows, nofun⟩

theorem answersWith_ok {vectorReady : Bool} (hknows : Knows meeting copies s) :
    AnswersWith meeting copies chunks (.ok { chunks := chunks, vectorReady := vectorReady }) s := by
  refine ⟨hknows, ?_⟩
  rintro corpus ⟨⟩
  rfl

theorem safe_tryIndex (state : Option IndexState) (chunks : List MeetingChunk)
    (fingerprint : String) (hknows : Knows meeting copies s) :
    SafeCall meeting (AnswersWith meeting copies chunks)
      (tryIndex state chunks fingerprint).run s := by
  refine Safe.raising_bind
    ((safe_quiet hknows issues_recentIndexFailure).mono ?_)
  rintro (fault | recent) s₁ hknows
  · exact answersWith_error hknows
  · dsimp only [afterOk]
    split
    · exact answersWith_ok hknows
    · refine Safe.attempt_bind ((safe_quiet hknows issues_index).mono ?_)
      rintro (fault | ⟨⟩) s₂ hknows
      · refine Safe.raising_bind
          ((safe_quiet hknows issues_recordIndexFailure).mono ?_)
        rintro (fault | ⟨⟩) s₃ hknows
        · exact answersWith_error hknows
        · exact answersWith_ok hknows
      · exact answersWith_ok hknows

theorem safe_ensureIndexed (hchunks : Covers chunks segments) {fingerprint : String}
    (hknows : Knows meeting copies s) :
    SafeCall meeting (AnswersWith meeting copies chunks)
      (ensureIndexed segments chunks fingerprint).run s := by
  have hload : (loadState .findState).run.Issues Working := issues_loadState trivial
  have hsave : (call (.saveText segments chunks fingerprint)).run.Issues Working :=
    issues_call hchunks
  refine Safe.raising_bind ((safe_quiet hknows hload).mono ?_)
  rintro (fault | state) s₁ hknows
  · exact answersWith_error hknows
  · dsimp only [afterOk]
    split
    · exact answersWith_ok hknows
    · split
      · refine Safe.raising_bind (Safe.attempt_bind ((safe_quiet hknows hsave).mono ?_))
        exact fun outcome s₂ hknows => safe_tryIndex state chunks fingerprint hknows
      · exact safe_tryIndex state chunks fingerprint hknows

theorem safe_ensureCorpus (hsegments : segments = [] ∨ ∀ copy ∈ copies, copy ⊆ segments)
    (hknows : Knows meeting copies s) :
    SafeCall meeting (CoveredBy meeting copies) (ensureCorpus fuel meeting segments).run s := by
  unfold ensureCorpus
  have hcovers := covers_buildChunks meeting.chunkChars segments
  split
  · exact safe_ensureStored hknows
  · next chunk chunks hchunks =>
    rw [hchunks] at hcovers
    refine Safe.raising_bind ((safe_ensureIndexed hcovers hknows).mono ?_)
    rintro (fault | corpus) s₁ ⟨hlater, hcorpus⟩
    · exact ⟨hlater, nofun⟩
    · refine ⟨hlater, ?_⟩
      rintro corpus' ⟨⟩ copy hcopy
      rw [hcorpus corpus rfl]
      rcases hsegments with rfl | hsubset
      · cases hchunks
      · exact hcovers.mono (List.Subset.refl _) (hsubset copy hcopy)

end Known

theorem safe_ask {command : IndexCommand α} {post : Except Fault α → State → Prop}
    (hpost : ∀ s₁ reply s₂, Moves meeting s s₁ →
      conditioned meeting (whole meeting) command s₁ reply s₂ → Moves meeting s₁ s₂ ∧
      post (.ok reply) s₂) :
    SafeCall meeting post (ask command).run s :=
  Safe.issue_bind hpost

theorem safe_corpusCall (hkept : Kept meeting s) :
    SafeCall meeting (fun _ _ => True) (corpusCall fuel meeting).run s := by
  have hload : (ask .load).run.Issues Working := issues_ask trivial
  have hnothing : Knows meeting [] s := ⟨List.nil_prefix, hkept⟩
  refine Safe.raising_bind ((safe_quiet hnothing hload).mono ?_)
  rintro (fault | segments) s₁ hloaded
  · trivial
  refine Safe.raising_bind (safe_ask ?_)
  rintro s₂ began s₃ hrely ⟨hwhole, rfl, rfl⟩
  have hknows : Knows meeting s₃.saved s₃ := ⟨List.prefix_rfl, (hloaded.moves hrely).kept⟩
  refine ⟨.refl _, Safe.raising_bind ((safe_ensureCorpus hwhole hknows).mono ?_)⟩
  rintro (fault | _ | corpus) s₄ ⟨hlater, hcorpus⟩
  · trivial
  · trivial
  · refine safe_ask fun s₅ reply s₆ hrely hstep => ⟨?_, trivial⟩
    obtain ⟨-, rfl⟩ := hstep
    have hsaved := (hlater.moves hrely).saved
    refine moves_answer hsaved.length_le ?_
    rw [← List.prefix_iff_eq_take.mp hsaved]
    exact hcorpus corpus rfl

def sampleMeeting : Meeting where
  userId := "u1"
  chunkChars := 1200
  fingerprint chunks := "\n".intercalate (chunks.map MeetingChunk.text)
  pointId := id

def sampleRaw (documentId text : String) (sequence startTimeMs : Int) : RawChunk where
  documentId := documentId
  sequenceNumber := some sequence
  startTimeMs := some startTimeMs
  rawText := some text

def sampleRecorded : State where
  raw := [sampleRaw "d1" "hello" 0 0, sampleRaw "d2" "goodbye" 1 20000]

def indexAnswer (meeting : Meeting) {β : Type} (command : IndexCommand β) (s : State) : β × State :=
  match β, command with
  | _, .load => (loadSegments s.raw, s)
  | _, .begin _ => (s.saved.length, s)
  | _, .utcNow => (0, s)
  | _, .findState => (.ok s.document, s)
  | _, .findCopy => (.ok s.document, s)
  | _, .saveText segments chunks fingerprint =>
    (.ok (), s.saveText meeting segments chunks fingerprint)
  | _, .recordFailure fingerprint now => (.ok (), s.recordFailure meeting fingerprint now)
  | _, .ensureCollection => (.ok (), s)
  | _, .embed batch => (.ok batch.length, s)
  | _, .deletePoints => (.ok (), s.deletePoints)
  | _, .upsert batch => (.ok (), s.upsert batch)
  | _, .complete fingerprint => (.ok (), s.complete meeting fingerprint)
  | _, .scroll _ offset => (.ok (s.page meeting offset), s)
  | _, .answer began corpus => ((), s.answer began corpus)

theorem performs_indexAnswer {β : Type} {command : IndexCommand β} {s : State} :
    performs meeting command s (indexAnswer meeting command s).1
      (indexAnswer meeting command s).2 := by
  cases command with
  | load => exact ⟨rfl, rfl⟩
  | begin segments => exact ⟨rfl, rfl⟩
  | findState => exact ⟨.inl rfl, rfl⟩
  | findCopy => exact ⟨.inl rfl, rfl⟩
  | saveText segments chunks fingerprint => exact .inl ⟨rfl, rfl⟩
  | recordFailure fingerprint now => exact .inl ⟨rfl, rfl⟩
  | deletePoints => exact .inl ⟨rfl, rfl⟩
  | upsert batch => exact .inl ⟨rfl, rfl⟩
  | complete fingerprint => exact .inl ⟨rfl, rfl⟩
  | scroll before offset => exact ⟨.inl rfl, rfl⟩
  | _ => rfl

/-- The condition `whole`, as a test. -/
def checkWhole (meeting : Meeting) {β : Type} (command : IndexCommand β) (s : State) : Bool :=
  match command with
  | .begin segments => segments = [] ∨ ∀ copy ∈ s.saved, copy ⊆ segments
  | .saveText segments _ _ => ∀ copy ∈ s.saved, copy ⊆ segments
  | .scroll before offset =>
    (∀ chunk ∈ before, chunk ∈ s.points) ∧
      (∀ chunk ∈ s.points, chunk ∉ s.pointsFrom meeting offset → chunk ∈ before) ∧
      (s.points = [] ∨ ∀ copy ∈ s.saved, Covers s.points copy)
  | _ => true

theorem whole_of_check {β : Type} (command : IndexCommand β) (s : State)
    (h : checkWhole meeting command s = true) :
    whole meeting command s (indexAnswer meeting command s).1 := by
  cases command with
  | begin segments =>
    change segments = [] ∨ _
    exact of_decide_eq_true h
  | saveText segments chunks fingerprint =>
    change ∀ copy ∈ s.saved, copy ⊆ segments
    exact of_decide_eq_true h
  | scroll before offset =>
    change (∀ chunk ∈ before, chunk ∈ s.points) ∧ _ ∧ _
    exact of_decide_eq_true h
  | findCopy => exact ⟨s.document, rfl⟩
  | _ => trivial

def callOn (pool : IndexPool) : IndexPool :=
  Pool.turns (indexAnswer sampleMeeting) (List.replicate 12 0)
    ⟨(corpusCall 1 sampleMeeting).run :: pool.threads, pool.shared⟩

def expired (expire : List RawChunk → List RawChunk) (pool : IndexPool) : IndexPool :=
  ⟨pool.threads, { pool.shared with raw := expire pool.shared.raw }⟩

def callsAround (expire : List RawChunk → List RawChunk) (start : State) : IndexPool :=
  callOn (expired expire (callOn ⟨[], start⟩))

def callPasses (check : ∀ {β : Type}, IndexCommand β → State → Bool) (pool : IndexPool) : Bool :=
  Pool.turnsPass (indexAnswer sampleMeeting) check (List.replicate 12 0)
    ⟨(corpusCall 1 sampleMeeting).run :: pool.threads, pool.shared⟩

section Sample

variable {condition : Condition} {check : ∀ {β : Type}, IndexCommand β → State → Bool}

theorem callOn_run
    (hcheck : ∀ {β : Type} (command : IndexCommand β) s, check command s = true →
      condition command s (indexAnswer sampleMeeting command s).1)
    {pool : IndexPool} (hpasses : callPasses check pool = true) :
    Relation.ReflTransGen
      (Pool.Step (conditioned sampleMeeting condition) (Calls sampleMeeting) Elsewhere)
      pool (callOn pool) :=
  .head (.spawn ⟨1, rfl⟩) (Pool.turns_run check
    (fun command s h => ⟨hcheck command s h, performs_indexAnswer⟩) _ _ hpasses)

theorem expired_step (expire : List RawChunk → List RawChunk) (pool : IndexPool) :
    Pool.Step (conditioned sampleMeeting condition) (Calls sampleMeeting) Elsewhere pool
      (expired expire pool) := .env ⟨_, rfl⟩

theorem callsAround_run (hcheck : ∀ {β : Type} (command : IndexCommand β) s,
      check command s = true → condition command s (indexAnswer sampleMeeting command s).1)
    (expire : List RawChunk → List RawChunk) (start : State)
    (hfirst : callPasses check ⟨[], start⟩ = true)
    (hsecond : callPasses check (expired expire (callOn ⟨[], start⟩)) = true) :
    IndexRun sampleMeeting condition start (callsAround expire start) := by
  have hcall := callOn_run hcheck hfirst
  have hexpired := hcall.tail (expired_step expire (callOn ⟨[], start⟩))
  exact hexpired.trans (callOn_run hcheck hsecond)

end Sample

end AiBuddy.MeetingChat
