import AiBuddy.Conversation.Windowing
import Mathlib.Data.List.Chain
import AiBuddy.Misc.Words

/-!
# What the loop of `build_ready_windows` keeps

The chunks that it reads come in the order of their numbers. Every chunk with a text is owned by
one window or waits in the window under way, every chunk without one is skipped by one window or
waits, and a window that is closed hands on a part of its last chunks.
-/

namespace AiBuddy.Conversation.Session

def Increasing (chunks : List Chunk) : Prop :=
  chunks.Pairwise fun first later => first.sequenceNumber < later.sequenceNumber

def usefulNumbers (chunks : List Chunk) : List Nat :=
  (chunks.filter Chunk.useful).map Chunk.sequenceNumber

def blankNumbers (chunks : List Chunk) : List Nat :=
  (chunks.filter fun chunk => !chunk.useful).map Chunk.sequenceNumber

variable {chunks : List Chunk}

theorem Increasing.map_sequenceNumber (h : Increasing chunks) :
    (chunks.map Chunk.sequenceNumber).Pairwise (· < ·) := List.pairwise_map.mpr h

theorem Increasing.sublist {some : List Chunk} (h : Increasing chunks)
    (hsome : some.Sublist chunks) : Increasing some := List.Pairwise.sublist hsome h

theorem increasing_nil : Increasing [] := List.Pairwise.nil

theorem Increasing.usefulNumbers (h : Increasing chunks) :
    (usefulNumbers chunks).Pairwise (· < ·) :=
  (h.sublist List.filter_sublist).map_sequenceNumber

theorem Increasing.blankNumbers (h : Increasing chunks) : (blankNumbers chunks).Pairwise (· < ·) :=
  (h.sublist List.filter_sublist).map_sequenceNumber

theorem usefulNumbers_append (front back : List Chunk) :
    usefulNumbers (front ++ back) = usefulNumbers front ++ usefulNumbers back := by
  rw [usefulNumbers, List.filter_append, List.map_append]
  rfl

theorem blankNumbers_append (front back : List Chunk) :
    blankNumbers (front ++ back) = blankNumbers front ++ blankNumbers back := by
  rw [blankNumbers, List.filter_append, List.map_append]
  rfl

variable {chunk : Chunk}

theorem usefulNumbers_of_useful (h : chunk.useful = true) :
    usefulNumbers [chunk] = [chunk.sequenceNumber] := by
  rw [usefulNumbers, List.filter_cons_of_pos h]
  rfl

theorem usefulNumbers_of_blank (h : chunk.useful = false) : usefulNumbers [chunk] = [] := by
  rw [usefulNumbers, List.filter_cons_of_neg (by rw [h]; exact Bool.false_ne_true)]
  rfl

theorem blankNumbers_of_useful (h : chunk.useful = true) : blankNumbers [chunk] = [] := by
  rw [blankNumbers, List.filter_cons_of_neg (by rw [h]; exact Bool.false_ne_true)]
  rfl

theorem blankNumbers_of_blank (h : chunk.useful = false) :
    blankNumbers [chunk] = [chunk.sequenceNumber] := by
  rw [blankNumbers, List.filter_cons_of_pos (by rw [h]; rfl)]
  rfl

theorem reachableFrom_spec (chunks : List Chunk) (skippable : List Nat) (count expected : Nat) :
    Increasing (reachableFrom chunks skippable count expected) ∧
      ∀ chunk ∈ reachableFrom chunks skippable count expected,
        expected ≤ chunk.sequenceNumber ∧ chunk ∈ chunks := by
  induction count generalizing expected with
  | zero => exact ⟨increasing_nil, fun _ hmem => absurd hmem List.not_mem_nil⟩
  | succ count ih =>
    obtain ⟨hincreasing, hmem⟩ := ih (expected + 1)
    rw [reachableFrom]
    split
    · next chunk hfind =>
      obtain ⟨hchunk, hnumber⟩ := Keyed.find?_eq_some hfind
      refine ⟨.cons ?_ hincreasing, ?_⟩
      · intro later hlater
        have hle := (hmem later hlater).1
        omega
      · rw [List.forall_mem_cons]
        refine ⟨⟨hnumber.ge, List.mem_reverse.mp hchunk⟩, fun later hlater => ?_⟩
        exact ⟨Nat.le_of_succ_le (hmem later hlater).1, (hmem later hlater).2⟩
    · split
      · exact ⟨hincreasing, fun later hlater =>
          ⟨Nat.le_of_succ_le (hmem later hlater).1, (hmem later hlater).2⟩⟩
      · exact ⟨increasing_nil, fun _ hmem => absurd hmem List.not_mem_nil⟩

theorem increasing_reachable (chunks : List Chunk) (skippable : List Nat) :
    Increasing (reachableSemanticPrefix chunks skippable) :=
  (reachableFrom_spec _ _ _ _).1

theorem mem_of_mem_reachable {skippable : List Nat}
    (h : chunk ∈ reachableSemanticPrefix chunks skippable) : chunk ∈ chunks :=
  Keyed.mem_sort.mp ((reachableFrom_spec _ _ _ _).2 chunk h).2

theorem uniqueFrom_spec (seen : List Nat) (chunks : List Chunk) :
    (uniqueFrom seen chunks).Sublist chunks ∧
      ∀ chunk ∈ uniqueFrom seen chunks, chunk.sequenceNumber ∉ seen := by
  induction chunks generalizing seen with
  | nil => exact ⟨.slnil, fun _ hmem => absurd hmem List.not_mem_nil⟩
  | cons chunk rest ih =>
    rw [uniqueFrom]
    split
    · exact ⟨(ih seen).1.cons chunk, (ih seen).2⟩
    · next hnew =>
      obtain ⟨hsublist, hunseen⟩ := ih (chunk.sequenceNumber :: seen)
      refine ⟨hsublist.cons_cons chunk, ?_⟩
      rw [List.forall_mem_cons]
      exact ⟨hnew, fun later hlater hseen => hunseen later hlater (List.mem_cons_of_mem _ hseen)⟩

theorem increasing_uniqueFrom {seen : List Nat}
    (h : chunks.Pairwise fun first later => first.sequenceNumber ≤ later.sequenceNumber) :
    Increasing (uniqueFrom seen chunks) := by
  induction chunks generalizing seen with
  | nil => exact increasing_nil
  | cons chunk rest ih =>
    obtain ⟨hfirst, hrest⟩ := List.pairwise_cons.mp h
    rw [uniqueFrom]
    split
    · exact ih hrest
    · obtain ⟨hsublist, hunseen⟩ := uniqueFrom_spec (chunk.sequenceNumber :: seen) rest
      refine .cons (fun later hlater => ?_) (ih hrest)
      have hne := hunseen later hlater
      rw [List.mem_cons, not_or] at hne
      exact Nat.lt_of_le_of_ne (hfirst later (hsublist.subset hlater)) (Ne.symm hne.1)

theorem increasing_orderedUnique (chunks : List Chunk) : Increasing (orderedUnique chunks) :=
  increasing_uniqueFrom (Keyed.sorted_sort chunks)

theorem mem_of_mem_orderedUnique (h : chunk ∈ orderedUnique chunks) : chunk ∈ chunks :=
  Keyed.mem_sort.mp ((uniqueFrom_spec _ _).1.subset h)

variable (settings : Settings) (conversation : ConversationDocument)

theorem tailFrom_eq (tokenBudget total : Nat) (tail chunks : List Chunk) :
    ∃ taken left, chunks = taken ++ left ∧
      tailFrom settings tokenBudget total tail chunks = taken.reverse ++ tail := by
  induction chunks generalizing total tail with
  | nil => exact ⟨[], [], rfl, rfl⟩
  | cons chunk rest ih =>
    rw [tailFrom]
    split
    · exact ⟨[chunk], rest, rfl, rfl⟩
    · obtain ⟨taken, left, rfl, heq⟩ :=
        ih (total + settings.estimateTokens chunk.usefulText) (chunk :: tail)
      refine ⟨chunk :: taken, left, rfl, ?_⟩
      rw [heq, List.reverse_cons, List.append_assoc]
      rfl

theorem tailChunks_suffix (h : ∀ chunk ∈ chunks, chunk.useful = true) {tokenBudget : Nat} :
    tailChunks settings chunks tokenBudget <:+ chunks := by
  unfold tailChunks
  rw [List.filter_eq_self.mpr h]
  dsimp only
  split
  · exact List.nil_suffix
  · obtain ⟨taken, left, hchunks, heq⟩ := tailFrom_eq settings tokenBudget 0 [] chunks.reverse
    rw [heq, List.append_nil]
    refine ⟨left.reverse, ?_⟩
    rw [← List.reverse_append, ← hchunks, List.reverse_reverse]

def Building.closing? (building : Building) (chunk : Chunk) : Option CloseReason :=
  if chunk.useful then
    building.reason? settings
      (settings.estimateTokens
        (line chunk (normalizeChunkText settings.lower chunk.usefulText building.previousText)))
      chunk.durationMs
  else none

def Building.makeRoom (building : Building) (chunk : Chunk) : Building :=
  match building.closing? settings chunk with
  | some reason => building.flush settings conversation reason false
  | none => building

theorem ownedExists_iff {building : Building}
    (h : ∀ chunk ∈ building.current, chunk.useful = true) :
    building.ownedExists = true ↔ building.owned ≠ [] := by
  unfold Building.ownedExists Building.owned
  rw [List.filter_eq_self.mpr h, List.any_eq_true, Ne, List.filter_eq_nil_iff]
  push Not
  constructor
  · rintro ⟨chunk, hmem, howned⟩
    refine ⟨chunk.sequenceNumber, List.mem_map_of_mem hmem, ?_⟩
    exact (Bool.and_eq_true_iff.mp howned).2
  · rintro ⟨number, hnumber, howned⟩
    obtain ⟨chunk, hmem, rfl⟩ := List.mem_map.mp hnumber
    exact ⟨chunk, hmem, Bool.and_eq_true_iff.mpr ⟨h chunk hmem, howned⟩⟩

variable {settings} in
theorem ownedExists_of_reason {building : Building} {tokens duration : Nat} {reason : CloseReason}
    (h : building.reason? settings tokens duration = some reason) :
    building.ownedExists = true := by
  unfold Building.reason? at h
  cases howned : building.ownedExists with
  | true => rfl
  | false =>
    rw [howned] at h
    simp only [Bool.false_and, Bool.false_eq_true, if_false] at h
    cases h

variable {settings} in
theorem ownedExists_of_closing {building : Building} {reason : CloseReason}
    (h : building.closing? settings chunk = some reason) : building.ownedExists = true := by
  unfold Building.closing? at h
  split at h
  · exact ownedExists_of_reason h
  · cases h

def Building.handedOn (building : Building) (finalPartial : Bool) : List Chunk :=
  if finalPartial then []
  else tailChunks settings building.current settings.overlapTokenBudget

theorem flush_eq {building : Building} (reason : CloseReason) (finalPartial : Bool)
    (huseful : ∀ chunk ∈ building.current, chunk.useful = true)
    (howned : building.ownedExists = true) :
    building.flush settings conversation reason finalPartial =
      { building with
        windows := building.windows ++
          [building.close settings conversation reason finalPartial
            (building.handedOn settings finalPartial)]
        index := building.index + 1
        current := building.handedOn settings finalPartial
        overlapIds := (building.handedOn settings finalPartial).map Chunk.sequenceNumber
        skippedInCurrent := []
        currentTokens := usefulTokenCount settings (building.handedOn settings finalPartial)
        currentUsefulDuration := totalDuration (building.handedOn settings finalPartial)
        currentWallClock := totalDuration (building.handedOn settings finalPartial)
        previousText :=
          lastUsefulText settings.lower (building.handedOn settings finalPartial) } := by
  have hne : building.owned ≠ [] := (ownedExists_iff huseful).mp howned
  have hcurrent : building.current.filter Chunk.useful ≠ [] := by
    intro hnil
    apply hne
    rw [Building.owned, hnil]
    rfl
  unfold Building.flush
  dsimp only
  rw [if_neg hcurrent, if_neg hne, List.filter_eq_self.mpr huseful]
  rfl

theorem step_of_blank {building : Building} (h : chunk.useful = false) :
    building.step settings conversation chunk =
      { building with pendingEmpties := building.pendingEmpties ++ [chunk] } := by
  rw [Building.step, if_neg (by rw [h]; exact Bool.false_ne_true)]

def Building.countedText (building : Building) (chunk : Chunk) : String :=
  normalizeChunkText settings.lower chunk.usefulText building.previousText

theorem step_eq {building : Building} (h : chunk.useful = true) :
    building.step settings conversation chunk =
      (building.makeRoom settings conversation chunk).takeEmpties.append chunk
        (building.countedText settings chunk)
        (settings.estimateTokens (line chunk (building.countedText settings chunk))) := by
  rw [Building.step, if_pos h, Building.makeRoom, Building.closing?, if_pos h]
  rfl

theorem step_of_useful {building : Building} (h : chunk.useful = true) :
    ∃ text tokens, building.step settings conversation chunk =
      (building.makeRoom settings conversation chunk).takeEmpties.append chunk text tokens :=
  ⟨_, _, step_eq settings conversation h⟩

/-- The chunks of the window under way have a text, come in order, and are of the overlap or were
read by the loop, as those are whose numbers the overlap set holds. -/
structure UnderWay (seen : List Chunk) (building : Building) : Prop where
  useful : ∀ chunk ∈ building.current, chunk.useful = true
  increasing : Increasing building.current
  current_seen : ∀ chunk ∈ building.current, chunk ∈ seen
  overlap_seen : ∀ id ∈ building.overlapIds, id ∈ seen.map Chunk.sequenceNumber

theorem UnderWay.start {overlapChunks : List Chunk}
    (huseful : ∀ chunk ∈ overlapChunks, chunk.useful = true)
    (hincreasing : Increasing overlapChunks) (startIndex : Nat) :
    UnderWay overlapChunks (Building.start settings overlapChunks startIndex) :=
  ⟨huseful, hincreasing, fun _ h => h, fun _ h => h⟩

theorem owned_start (overlapChunks : List Chunk) (startIndex : Nat) :
    (Building.start settings overlapChunks startIndex).owned = [] := by
  refine List.filter_eq_nil_iff.mpr fun number hnumber => ?_
  rw [decide_eq_true_eq, not_not]
  obtain ⟨chunk, hmem, rfl⟩ := List.mem_map.mp hnumber
  exact List.mem_map_of_mem (List.mem_of_mem_filter hmem)

variable {seen : List Chunk} {building : Building}

theorem handedOn_suffix (h : ∀ chunk ∈ building.current, chunk.useful = true)
    (finalPartial : Bool) : building.handedOn settings finalPartial <:+ building.current := by
  cases finalPartial with
  | true => exact List.nil_suffix
  | false => exact tailChunks_suffix settings h

theorem UnderWay.flush (h : UnderWay seen building) (howned : building.ownedExists = true)
    (reason : CloseReason) (finalPartial : Bool) :
    UnderWay seen (building.flush settings conversation reason finalPartial) := by
  have hsuffix := handedOn_suffix settings h.useful finalPartial
  rw [flush_eq settings conversation reason finalPartial h.useful howned]
  refine ⟨fun chunk hmem => h.useful chunk (hsuffix.subset hmem),
    h.increasing.sublist hsuffix.sublist,
    fun chunk hmem => h.current_seen chunk (hsuffix.subset hmem), fun id hid => ?_⟩
  obtain ⟨chunk, hmem, rfl⟩ := List.mem_map.mp hid
  exact List.mem_map_of_mem (h.current_seen chunk (hsuffix.subset hmem))

theorem UnderWay.append (h : UnderWay seen building) (huseful : chunk.useful = true)
    (hafter : ∀ before ∈ seen, before.sequenceNumber < chunk.sequenceNumber) (text : String)
    (tokens : Nat) :
    UnderWay (seen ++ [chunk]) (building.takeEmpties.append chunk text tokens) where
  useful := by
    intro item hitem
    rcases List.mem_append.mp hitem with hmem | hmem
    · exact h.useful item hmem
    · rw [List.mem_singleton.mp hmem]
      exact huseful
  increasing := by
    refine List.pairwise_append.mpr ⟨h.increasing, List.pairwise_singleton _ _, ?_⟩
    intro item hitem later hlater
    rw [List.mem_singleton.mp hlater]
    exact hafter item (h.current_seen item hitem)
  current_seen := by
    intro item hitem
    rcases List.mem_append.mp hitem with hmem | hmem
    · exact List.mem_append_left _ (h.current_seen item hmem)
    · exact List.mem_append_right _ hmem
  overlap_seen := by
    intro id hid
    rw [List.map_append]
    exact List.mem_append_left _ (h.overlap_seen id hid)

theorem UnderWay.blank (h : UnderWay seen building) (chunk : Chunk) :
    UnderWay (seen ++ [chunk])
      { building with pendingEmpties := building.pendingEmpties ++ [chunk] } := by
  refine ⟨h.useful, h.increasing, fun item hitem => ?_, fun id hid => ?_⟩
  · exact List.mem_append_left _ (h.current_seen item hitem)
  · rw [List.map_append]
    exact List.mem_append_left _ (h.overlap_seen id hid)

theorem owned_flush (huseful : ∀ chunk ∈ building.current, chunk.useful = true)
    (howned : building.ownedExists = true) (reason : CloseReason) (finalPartial : Bool) :
    (building.flush settings conversation reason finalPartial).owned = [] := by
  rw [flush_eq settings conversation reason finalPartial huseful howned, Building.owned,
    List.filter_eq_nil_iff]
  intro number hnumber
  obtain ⟨chunk, hmem, rfl⟩ := List.mem_map.mp hnumber
  rw [decide_eq_true_eq, not_not]
  exact List.mem_map_of_mem (List.mem_of_mem_filter hmem)

theorem UnderWay.owned_append (h : UnderWay seen building) (huseful : chunk.useful = true)
    (hafter : ∀ before ∈ seen, before.sequenceNumber < chunk.sequenceNumber) (text : String)
    (tokens : Nat) :
    (building.takeEmpties.append chunk text tokens).owned =
      building.owned ++ [chunk.sequenceNumber] := by
  have hnew : chunk.sequenceNumber ∉ building.overlapIds := by
    intro hid
    obtain ⟨before, hbefore, hsame⟩ := List.mem_map.mp (h.overlap_seen _ hid)
    exact absurd hsame (Nat.ne_of_lt (hafter before hbefore))
  rw [Building.owned, Building.owned]
  change (((building.current ++ [chunk]).filter Chunk.useful).map Chunk.sequenceNumber).filter
    (· ∉ building.overlapIds) = _
  have hkept : [chunk.sequenceNumber].filter (· ∉ building.overlapIds) = [chunk.sequenceNumber] :=
    List.filter_cons_of_pos (by simpa using hnew)
  rw [List.filter_append, List.map_append, List.filter_append, List.filter_cons_of_pos huseful,
    List.filter_nil, List.map_singleton, hkept]

theorem UnderWay.makeRoom (h : UnderWay seen building) (chunk : Chunk) :
    UnderWay seen (building.makeRoom settings conversation chunk) := by
  unfold Building.makeRoom
  split
  · next reason hclosing =>
    exact h.flush settings conversation (ownedExists_of_closing hclosing) reason false
  · exact h

theorem UnderWay.step (h : UnderWay seen building)
    (hafter : ∀ before ∈ seen, before.sequenceNumber < chunk.sequenceNumber) :
    UnderWay (seen ++ [chunk]) (building.step settings conversation chunk) := by
  cases huseful : chunk.useful with
  | false =>
    rw [step_of_blank settings conversation huseful]
    exact h.blank chunk
  | true =>
    obtain ⟨text, tokens, heq⟩ := step_of_useful settings conversation huseful
    rw [heq]
    exact (h.makeRoom settings conversation chunk).append huseful hafter text tokens

theorem UnderWay.run {Inv : List Chunk → Building → Prop}
    (hstep : ∀ {seen building chunk}, UnderWay seen building →
      (∀ before ∈ seen, before.sequenceNumber < chunk.sequenceNumber) → Inv seen building →
      Inv (seen ++ [chunk]) (building.step settings conversation chunk))
    {rest : List Chunk} (h : UnderWay seen building) (hinv : Inv seen building)
    (hincreasing : Increasing (seen ++ rest)) :
    UnderWay (seen ++ rest) (rest.foldl (Building.step settings conversation) building) ∧
      Inv (seen ++ rest) (rest.foldl (Building.step settings conversation) building) := by
  induction rest generalizing seen building with
  | nil =>
    rw [List.append_nil]
    exact ⟨h, hinv⟩
  | cons chunk rest ih =>
    have hafter : ∀ before ∈ seen, before.sequenceNumber < chunk.sequenceNumber :=
      fun before hbefore =>
        (List.pairwise_append.mp hincreasing).2.2 before hbefore chunk List.mem_cons_self
    have hsplit : seen ++ chunk :: rest = (seen ++ [chunk]) ++ rest := by
      rw [List.append_assoc, List.singleton_append]
    rw [List.foldl_cons, hsplit]
    rw [hsplit] at hincreasing
    exact ih (h.step settings conversation hafter) (hstep h hafter hinv) hincreasing

theorem finish_cases (building : Building) (forceFinal : Bool) :
    (building.ownedExists = false ∧
      building.finish settings conversation forceFinal = building) ∨
    (building.takeEmpties.ownedExists = true ∧ ∃ reason finalPartial,
      building.finish settings conversation forceFinal =
        building.takeEmpties.flush settings conversation reason finalPartial) ∨
    (building.ownedExists = true ∧ forceFinal = false ∧
      building.finish settings conversation forceFinal = building.takeEmpties) := by
  unfold Building.finish
  split
  · next howned =>
    dsimp only
    split
    · exact .inr (.inl ⟨howned, _, _, rfl⟩)
    · next hnot =>
      have hforce : forceFinal = false := by
        rw [Bool.or_eq_true, not_or, Bool.not_eq_true] at hnot
        exact hnot.1
      split
      · exact .inr (.inl ⟨howned, _, _, rfl⟩)
      · exact .inr (.inr ⟨howned, hforce, rfl⟩)
  · next hnone => exact .inl ⟨Bool.eq_false_iff.mpr hnone, rfl⟩

def overlapOf (overlapPrefix : List Chunk) : List Chunk :=
  (orderedUnique overlapPrefix).filter Chunk.useful

theorem increasing_overlap_append_reachable {overlapPrefix : List Chunk}
    (hbelow : ∀ before ∈ overlapPrefix, ∀ chunk ∈ chunks, before.sequenceNumber <
      chunk.sequenceNumber)
    (skippable : List Nat) :
    Increasing (overlapOf overlapPrefix ++
      reachableSemanticPrefix (ordered chunks) skippable) := by
  refine List.pairwise_append.mpr ⟨?_, increasing_reachable _ _, ?_⟩
  · exact (increasing_orderedUnique overlapPrefix).sublist List.filter_sublist
  · intro before hbefore chunk hchunk
    exact hbelow before (mem_of_mem_orderedUnique (List.mem_of_mem_filter hbefore)) chunk
      (Keyed.mem_sort.mp (mem_of_mem_reachable hchunk))

def spoken (sequence : Nat) (text : String) : Chunk where
  chunkId := toString sequence
  sequenceNumber := sequence
  rawText := some text
  sttStatus := .completed
  updatedAt := 0

end AiBuddy.Conversation.Session

/-!
## What `normalize_chunk_text` removes

The part that is removed from the front of a text is found somewhere in the last characters of the
text before. It need not be where that text ends, so a phrase that is said again goes as well.
-/

namespace AiBuddy.Conversation.Session

/-- The text after `_SPACE_RE.sub(" ", text).strip()`. -/
def collapsed (text : String) : List Char := (Text.strip (Text.collapseSpaces text)).toList

/-- The characters that `lstrip` takes after the part that is removed. -/
def separators : List Char := [' ', ',', '.', '-']

theorem overlapSize_spec {lowered previous : List Char} {limit size : Nat}
    (h : overlapSize lowered previous limit = some size) :
    8 ≤ size ∧ size ≤ limit ∧ lowered.take size <:+: previous := by
  induction limit with
  | zero => cases h
  | succ limit ih =>
    rw [overlapSize] at h
    split at h
    · cases h
    · next hlong =>
      split at h
      · next hfound =>
        cases h
        exact ⟨Nat.not_lt.mp hlong, Nat.le_refl _, hfound.2⟩
      · obtain ⟨hmin, hmax, hinside⟩ := ih h
        exact ⟨hmin, Nat.le_succ_of_le hmax, hinside⟩

theorem normalizeChunkText_cases (lower : List Char → List Char) (text previousText : String) :
    normalizeChunkText lower text previousText = .ofList (collapsed text) ∨
      ∃ size, 8 ≤ size ∧ size ≤ min 80 (collapsed text).length ∧
        (lower (collapsed text)).take size <:+: lower (previousTail previousText) ∧
        normalizeChunkText lower text previousText =
          .ofList (((collapsed text).drop size).dropWhile (· ∈ separators)) := by
  unfold normalizeChunkText
  dsimp only
  split
  · next size hsize =>
    obtain ⟨hmin, hmax, hinside⟩ := overlapSize_spec hsize
    exact .inr ⟨size, hmin, hmax, hinside, rfl⟩
  · exact .inl rfl

/-- A text stays as it is after white space was collapsed, or loses a first part of 8 to 80
characters and the separators behind it. As many lowered characters as were removed are in the
lowered last 120 characters of the previous text, and where characters are lowered one by one these
are the part that was removed. -/
theorem removed_is_repeated (lower : List Char → List Char) (text previousText : String) :
    normalizeChunkText lower text previousText = .ofList (collapsed text) ∨
      ∃ removed between left, collapsed text = removed ++ between ++ left ∧
        8 ≤ removed.length ∧ removed.length ≤ 80 ∧
        (lower (collapsed text)).take removed.length <:+: lower (previousTail previousText) ∧
        (∀ f : Char → Char, lower = List.map f →
          removed.map f <:+: (previousTail previousText).map f) ∧
        (∀ c ∈ between, c ∈ separators) ∧ (∀ c ∈ left.head?, c ∉ separators) ∧
        normalizeChunkText lower text previousText = .ofList left := by
  rcases normalizeChunkText_cases lower text previousText with
    hsame | ⟨size, hmin, hmax, hinside, heq⟩
  · exact .inl hsame
  · have hlength : ((collapsed text).take size).length = size := by
      rw [List.length_take]
      omega
    refine .inr ⟨(collapsed text).take size,
      ((collapsed text).drop size).takeWhile (· ∈ separators),
      ((collapsed text).drop size).dropWhile (· ∈ separators), ?_, ?_, ?_, ?_, ?_, ?_, ?_, heq⟩
    · rw [List.append_assoc, List.takeWhile_append_dropWhile, List.take_append_drop]
    · rw [hlength]
      exact hmin
    · rw [hlength]
      omega
    · rw [hlength]
      exact hinside
    · rintro f rfl
      rw [List.map_take]
      exact hinside
    · intro c hc
      simpa using List.mem_takeWhile_imp hc
    · intro c hc
      have hhead := List.head?_dropWhile_not (· ∈ separators) ((collapsed text).drop size)
      rw [Option.mem_def.mp hc] at hhead
      simpa using hhead

def spokenCore (cs : List Char) : List Char :=
  ((cs.map Char.toLower).reverse.dropWhile fun c => !c.isAlphanum).reverse

theorem spokenCore_append {removed between : List Char} (h : ∀ c ∈ between, c ∈ separators) :
    spokenCore (removed ++ between) = spokenCore removed := by
  have hdrop : ∀ c ∈ (between.map Char.toLower).reverse, (!c.isAlphanum) = true := by
    intro c hc
    obtain ⟨d, hd, rfl⟩ := List.mem_map.mp (List.mem_reverse.mp hc)
    have hmem := h d hd
    simp only [separators, List.mem_cons, List.not_mem_nil, or_false] at hmem
    rcases hmem with rfl | rfl | rfl | rfl <;> rfl
  rw [spokenCore, List.map_append, List.reverse_append, List.dropWhile_append_of_pos hdrop]
  rfl

/-- The speaker thanks twice. The second time goes, although the text before goes on after it. -/
theorem repeated_phrase_removed :
    normalizeChunkText (List.map Char.toLower) "thank you so much everyone"
        "thank you so much for coming today" = "everyone" ∧
      ∀ removed between : List Char,
        collapsed "thank you so much everyone" = removed ++ between ++ "everyone".toList →
        (∀ c ∈ between, c ∈ separators) →
        ¬spokenCore removed <:+ spokenCore "thank you so much for coming today".toList := by
  refine ⟨by decide +kernel, fun removed between hsplit hbetween => ?_⟩
  have hfront : "thank you so much ".toList ++ "everyone".toList =
      removed ++ between ++ "everyone".toList := by
    rw [← hsplit]
    decide +kernel
  rw [← spokenCore_append hbetween, ← List.append_cancel_right hfront]
  decide +kernel

end AiBuddy.Conversation.Session
