import AiBuddy.Conversation.Finalization

/-!
# Every expected sequence is counted once

A chunk is resolved, waits or is retried, and an expected sequence without a chunk is missing. A
sequence that may be skipped and has no exclusion reason is resolved, and has no text.
-/

namespace AiBuddy.Conversation.Session

variable {settings : Settings} {chunks : List Chunk} {chunk : Chunk}

def numbersOf (kind : Chunk → Bool) (chunks : List Chunk) : List Nat :=
  (chunks.filter kind).map Chunk.sequenceNumber

def Chunk.resolved (settings : Settings) (chunk : Chunk) : Bool :=
  chunk.sttStatus = .completed || isTerminalFailedChunk settings.workerMaxRetries chunk

theorem countP_waiting (chunks : List Chunk) :
    (chunks.countP fun chunk => chunk.sttStatus = .pending) +
        (chunks.countP fun chunk => chunk.sttStatus = .processing) =
      chunks.countP Chunk.waiting := by
  induction chunks with
  | nil => rfl
  | cons chunk chunks ih =>
    simp only [List.countP_cons, ← ih]
    cases hstatus : chunk.sttStatus <;> simp [Chunk.waiting, hstatus] <;> omega

theorem countP_resolved (settings : Settings) (chunks : List Chunk) :
    (chunks.countP fun chunk => chunk.sttStatus = .completed && chunk.useful) +
        (chunks.countP fun chunk => chunk.sttStatus = .completed && !chunk.useful) +
        chunks.countP (isTerminalFailedChunk settings.workerMaxRetries) =
      chunks.countP (Chunk.resolved settings) := by
  induction chunks with
  | nil => rfl
  | cons chunk chunks ih =>
    simp only [List.countP_cons, ← ih]
    by_cases hstatus : chunk.sttStatus = .completed
    · cases huseful : chunk.useful <;>
        simp [Chunk.resolved, isTerminalFailedChunk, hstatus] <;> omega
    · simp [Chunk.resolved, hstatus]
      omega

theorem perm_kinds (settings : Settings) (chunks : List Chunk) :
    (chunks.filter (Chunk.resolved settings) ++ chunks.filter Chunk.waiting ++
      chunks.filter (Chunk.retryableFailed settings)).Perm chunks := by
  have hwaiting : ∀ chunk : Chunk, (chunk.waiting && !chunk.resolved settings) = chunk.waiting := by
    intro chunk
    cases hstatus : chunk.sttStatus <;>
      simp [Chunk.waiting, Chunk.resolved, isTerminalFailedChunk, hstatus]
  have hretryable : ∀ chunk : Chunk,
      (!chunk.waiting && !chunk.resolved settings) = chunk.retryableFailed settings := by
    intro chunk
    cases hstatus : chunk.sttStatus <;>
      simp [Chunk.waiting, Chunk.resolved, Chunk.retryableFailed, isTerminalFailedChunk, hstatus]
  have hopen := List.filter_append_perm Chunk.waiting
    (chunks.filter fun chunk => !chunk.resolved settings)
  simp only [List.filter_filter, hwaiting, hretryable] at hopen
  rw [List.append_assoc]
  exact (hopen.append_left _).trans (List.filter_append_perm (Chunk.resolved settings) chunks)

theorem perm_missing {present : List Nat} {expectedLast : Int} {firstSequence : Nat}
    (hdistinct : present.Nodup)
    (hinside : ∀ number ∈ present, firstSequence ≤ number ∧ (number : Int) ≤ expectedLast) :
    (present ++ detectMissingSequences present expectedLast firstSequence).Perm
      (List.range' firstSequence (expectedLast + 1 - firstSequence).toNat) := by
  have hmissing := (List.nodup_range' (s := firstSequence)
    (n := (expectedLast + 1 - firstSequence).toNat)).filter (· ∉ present)
  refine (List.perm_ext_iff_of_nodup (hdistinct.append hmissing ?_) List.nodup_range').mpr ?_
  · intro number hpresent hmem
    simp_all
  · intro number
    simp only [List.mem_append, List.mem_filter, List.mem_range'_1,
      decide_eq_true_eq]
    by_cases hpresent : number ∈ present
    · have := hinside number hpresent
      simp only [hpresent, true_or, true_iff]
      omega
    · simp [hpresent]

/-- The kinds of the chunks and the missing numbers share out what is expected. What may be skipped
is resolved without a text, or excluded. -/
theorem sessionReadiness_classifies (settings : Settings) (now : Int)
    (conversation : ConversationDocument) (expectedLast : Int) (chunks : List Chunk)
    (hdistinct : (chunks.map Chunk.sequenceNumber).Nodup)
    (hinside : ∀ chunk ∈ chunks, conversation.firstSequence ≤ chunk.sequenceNumber ∧
      (chunk.sequenceNumber : Int) ≤ expectedLast) :
    let readiness := sessionReadiness settings now conversation expectedLast chunks
    let accounting := readiness.accounting
    (numbersOf (Chunk.resolved settings) chunks ++ numbersOf Chunk.waiting chunks ++
        numbersOf (Chunk.retryableFailed settings) chunks ++ accounting.missingSequences).Perm
      (List.range' conversation.firstSequence accounting.expectedSequences) ∧
    accounting.terminalSequences + accounting.pendingSequences + accounting.retryingSequences +
        (if missingSequencesAreTerminal settings now conversation then 0
          else accounting.missingSequences.length) = accounting.expectedSequences ∧
    ∀ chunk ∈ chunks, chunk.sequenceNumber ∈ readiness.skippable → chunk.excluded = false →
      chunk.waiting = false ∧ chunk.retryableFailed settings = false ∧
        ¬(chunk.sttStatus = .completed ∧ chunk.useful = true) := by
  have hnumbers : ∀ number ∈ chunks.map Chunk.sequenceNumber,
      conversation.firstSequence ≤ number ∧ (number : Int) ≤ expectedLast := by
    simpa using hinside
  have hkinds := (perm_kinds settings chunks).map Chunk.sequenceNumber
  rw [List.map_append, List.map_append] at hkinds
  have hall := (hkinds.append_right _).trans (perm_missing hdistinct hnumbers)
  have hexpected : (expectedLast + 1 - conversation.firstSequence).toNat =
      (expectedLast - conversation.firstSequence + 1).toNat := by
    congr 1
    omega
  rw [hexpected] at hall
  refine ⟨hall, ?_, fun chunk hchunk hskippable hexcluded => ?_⟩
  · have hlength := hall.length_eq
    simp only [List.length_append, List.length_map, List.length_range',
      ← List.countP_eq_length_filter] at hlength
    have hresolved := countP_resolved settings chunks
    have hwaiting := countP_waiting chunks
    simp only [sessionReadiness]
    split <;> omega
  · rw [sessionReadiness, List.mem_append] at hskippable
    have hderived : chunk.derivedSkippable settings = true := by
      rcases hskippable with hmem | hmissing
      · obtain ⟨other, hother, hsame⟩ := List.mem_map.mp hmem
        obtain ⟨hother, hderived⟩ := List.mem_filter.mp hother
        exact Keyed.eq_of_key hdistinct hother hchunk hsame ▸ hderived
      · split at hmissing
        · have habsent := (List.mem_filter.mp hmissing).2
          exact absurd (List.mem_map_of_mem hchunk) (by simpa using habsent)
        · cases hmissing
    clear hinside hskippable hnumbers hkinds hall
    rw [Chunk.derivedSkippable, hexcluded, Bool.false_or] at hderived
    cases hstatus : chunk.sttStatus <;>
      simp_all [Chunk.waiting, Chunk.retryableFailed] <;> simp_all [isTerminalFailedChunk]

def excludedPending : Chunk :=
  { chunkId := "chunk-0", sequenceNumber := 0, exclusionReason := some "empty_transcript"
    updatedAt := 0 }

theorem sessionReadiness_classifies_sample :
    (numbersOf (Chunk.resolved {}) [excludedPending] ++ numbersOf Chunk.waiting [excludedPending] ++
        numbersOf (Chunk.retryableFailed {}) [excludedPending] ++
        (sessionReadiness {} 0 {} 0 [excludedPending]).accounting.missingSequences).Perm
      (List.range' ({} : ConversationDocument).firstSequence
        (sessionReadiness {} 0 {} 0 [excludedPending]).accounting.expectedSequences) :=
  (sessionReadiness_classifies {} 0 {} 0 [excludedPending] (by decide) (by decide)).1

/-- It may be skipped. -/
theorem excluded_pending_skippable :
    ([excludedPending].map Chunk.sequenceNumber).Nodup ∧
      (∀ chunk ∈ [excludedPending], ({} : ConversationDocument).firstSequence ≤
        chunk.sequenceNumber ∧ (chunk.sequenceNumber : Int) ≤ 0) ∧
      excludedPending.sequenceNumber ∈ (sessionReadiness {} 0 {} 0 [excludedPending]).skippable ∧
      excludedPending.waiting = true := by
  decide

end AiBuddy.Conversation.Session
