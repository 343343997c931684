import AiBuddy.Conversation.Proofs.WindowTokens

/-!
# A call that goes on after the last window

The loop that starts with what a window hands on does as the loop that closed this window, except
that it reads the text of the first chunk after that overlap, and the other after the chunk before.
-/

namespace AiBuddy.Conversation.Session

structure Outcome where
  owned : List Nat
  text : String
  sequenceStart : Nat
  sequenceEnd : Nat

structure Shown where
  outcome : Outcome
  overlapSequenceStart : Option Nat

def BuiltWindow.outcome (built : BuiltWindow) : Outcome where
  owned := built.ownedSequenceNumbers
  text := built.window.text
  sequenceStart := built.window.sequenceStart
  sequenceEnd := built.window.sequenceEnd

def BuiltWindow.shown (built : BuiltWindow) : Shown where
  outcome := built.outcome
  overlapSequenceStart := built.window.overlapSequenceStart

def Building.shown (settings : Settings) (building : Building) (finalPartial : Bool) : Shown :=
  let useful := building.current.filter Chunk.useful
  let sequenceNumbers := useful.map Chunk.sequenceNumber
  { outcome :=
      { owned := building.owned
        text := windowText settings.lower useful
        sequenceStart := sequenceNumbers.headD 0
        sequenceEnd := sequenceNumbers.getLastD 0 }
    overlapSequenceStart :=
      (building.handedOn settings finalPartial).head?.map Chunk.sequenceNumber }

def Building.waiting (building : Building) (blanks : List Chunk) : Building :=
  { building with pendingEmpties := building.pendingEmpties ++ blanks }

/-- The windows of the loop are those of another loop after some that were closed `earlier`, and
the windows under way are the same. -/
structure Follows (earlier : List Shown)
    (building other : Building) : Prop where
  useful : ∀ chunk ∈ building.current, chunk.useful = true
  current : building.current = other.current
  overlapIds : building.overlapIds = other.overlapIds
  currentTokens : building.currentTokens = other.currentTokens
  currentUsefulDuration : building.currentUsefulDuration = other.currentUsefulDuration
  previousText : building.previousText = other.previousText
  windows : building.windows.map BuiltWindow.shown =
    earlier ++ other.windows.map BuiltWindow.shown

variable {chunk : Chunk}

variable {reason : CloseReason} {finalPartial : Bool}

section Following

variable {settings : Settings} {conversation : ConversationDocument} {building other : Building}
  {earlier : List Shown}

theorem close_shown :
    (building.close settings conversation reason finalPartial
      (building.handedOn settings finalPartial)).shown = building.shown settings finalPartial := by
  unfold Building.close BuiltWindow.shown BuiltWindow.outcome Building.shown
  with_reducible rfl

variable (settings conversation) in
theorem flush_shown (huseful : ∀ chunk ∈ building.current, chunk.useful = true)
    (howned : building.ownedExists = true) (reason : CloseReason) (finalPartial : Bool) :
    (building.flush settings conversation reason finalPartial).windows.map BuiltWindow.shown =
      building.windows.map BuiltWindow.shown ++ [building.shown settings finalPartial] := by
  rw [flush_eq settings conversation reason finalPartial huseful howned, List.map_append,
    List.map_singleton, close_shown]

section

variable (h : Follows earlier building other)

include h

theorem Follows.ownedExists : building.ownedExists = other.ownedExists := by
  rw [Building.ownedExists, Building.ownedExists, h.current, h.overlapIds]

theorem Follows.handedOn (finalPartial : Bool) :
    building.handedOn settings finalPartial = other.handedOn settings finalPartial := by
  rw [Building.handedOn, Building.handedOn, h.current]

theorem Follows.shown (finalPartial : Bool) :
    building.shown settings finalPartial = other.shown settings finalPartial := by
  rw [Building.shown, Building.shown, Building.owned, Building.owned, h.handedOn, h.current,
    h.overlapIds]

theorem Follows.countedText (chunk : Chunk) :
    building.countedText settings chunk = other.countedText settings chunk := by
  rw [Building.countedText, Building.countedText, h.previousText]

theorem Follows.closing? (hsparse : settings.sparseWindowMaxWallClockMs = 0) (chunk : Chunk) :
    building.closing? settings chunk = other.closing? settings chunk := by
  have hnone : ¬settings.sparseWindowMaxWallClockMs > 0 := by omega
  unfold Building.closing? Building.reason?
  rw [h.previousText, h.ownedExists, h.currentTokens, h.currentUsefulDuration]
  simp only [hnone, decide_false, Bool.and_false, Bool.false_and]

theorem Follows.flush (howned : building.ownedExists = true) (reason : CloseReason)
    (finalPartial : Bool) :
    Follows earlier (building.flush settings conversation reason finalPartial)
      (other.flush settings conversation reason finalPartial) := by
  have huseful : ∀ chunk ∈ other.current, chunk.useful = true := by
    rw [← h.current]
    exact h.useful
  have howned' : other.ownedExists = true := h.ownedExists.symm.trans howned
  have hsuffix := handedOn_suffix settings h.useful finalPartial
  have hwindows : (building.flush settings conversation reason finalPartial).windows.map
      BuiltWindow.shown = earlier ++
        (other.flush settings conversation reason finalPartial).windows.map BuiltWindow.shown := by
    rw [flush_shown settings conversation h.useful howned,
      flush_shown settings conversation huseful howned', h.windows, h.shown,
      List.append_assoc]
  rw [flush_eq settings conversation reason finalPartial h.useful howned,
    flush_eq settings conversation reason finalPartial huseful howned'] at hwindows ⊢
  rw [h.handedOn] at hwindows hsuffix ⊢
  exact ⟨fun chunk hmem => h.useful chunk (hsuffix.subset hmem), rfl, rfl, rfl, rfl, rfl, hwindows⟩

theorem Follows.waitingLeft (blanks : List Chunk) :
    Follows earlier (building.waiting blanks) other :=
  ⟨h.useful, h.current, h.overlapIds, h.currentTokens, h.currentUsefulDuration, h.previousText,
    h.windows⟩

theorem Follows.waitingRight (blanks : List Chunk) :
    Follows earlier building (other.waiting blanks) :=
  ⟨h.useful, h.current, h.overlapIds, h.currentTokens, h.currentUsefulDuration, h.previousText,
    h.windows⟩

theorem Follows.takeEmpties : Follows earlier building.takeEmpties other.takeEmpties :=
  ⟨h.useful, h.current, h.overlapIds, h.currentTokens, h.currentUsefulDuration, h.previousText,
    h.windows⟩

theorem Follows.append (huseful : chunk.useful = true) (text : String) (tokens : Nat) :
    Follows earlier (building.append chunk text tokens) (other.append chunk text tokens) where
  useful := by
    intro item hitem
    rcases List.mem_append.mp hitem with hmem | hmem
    · exact h.useful item hmem
    · rw [List.mem_singleton.mp hmem]
      exact huseful
  current := congrArg (· ++ [chunk]) h.current
  overlapIds := h.overlapIds
  currentTokens := congrArg (· + tokens) h.currentTokens
  currentUsefulDuration := congrArg (· + chunk.durationMs) h.currentUsefulDuration
  previousText := rfl
  windows := h.windows

section

variable (hsparse : settings.sparseWindowMaxWallClockMs = 0)

include hsparse

theorem Follows.makeRoom (chunk : Chunk) :
    Follows earlier (building.makeRoom settings conversation chunk)
      (other.makeRoom settings conversation chunk) := by
  rw [Building.makeRoom, Building.makeRoom, ← h.closing? hsparse]
  split
  · next reason hclosing => exact h.flush (ownedExists_of_closing hclosing) reason false
  · exact h

theorem Follows.step (chunk : Chunk) :
    Follows earlier (building.step settings conversation chunk)
      (other.step settings conversation chunk) := by
  cases huseful : chunk.useful with
  | false =>
    rw [step_of_blank settings conversation huseful, step_of_blank settings conversation huseful]
    exact (h.waitingLeft [chunk]).waitingRight [chunk]
  | true =>
    rw [step_eq settings conversation huseful, step_eq settings conversation huseful,
      h.countedText]
    exact (h.makeRoom hsparse chunk).takeEmpties.append huseful _ _

theorem Follows.run (rest : List Chunk) :
    Follows earlier (rest.foldl (Building.step settings conversation) building)
      (rest.foldl (Building.step settings conversation) other) := by
  induction rest generalizing building other with
  | nil => exact h
  | cons chunk rest ih =>
    rw [List.foldl_cons, List.foldl_cons]
    exact ih (h.step hsparse chunk)

end

end

theorem finish_shown (hsparse : settings.sparseWindowMaxWallClockMs = 0)
    (huseful : ∀ chunk ∈ building.current, chunk.useful = true) {forceFinal : Bool} :
    (building.finish settings conversation forceFinal).windows.map BuiltWindow.shown =
      building.windows.map BuiltWindow.shown ++
        if building.ownedExists &&
            (forceFinal || building.currentTokens ≥ settings.semanticWindowTokenTarget) then
          [building.shown settings forceFinal]
        else [] := by
  have hnone : ¬settings.sparseWindowMaxWallClockMs > 0 := by omega
  cases howned : building.ownedExists with
  | false =>
    rw [Building.finish, howned, if_neg Bool.false_ne_true, Bool.false_and,
      if_neg Bool.false_ne_true, List.append_nil]
  | true =>
    rw [Building.finish, howned, if_pos rfl, Bool.true_and]
    dsimp only
    have hflush := fun reason => @flush_shown settings conversation building.takeEmpties huseful
      howned reason forceFinal
    change (if forceFinal || building.currentTokens ≥ settings.semanticWindowTokenTarget then _
      else _ : Building).windows.map BuiltWindow.shown = _
    split
    · exact hflush _
    · simp only [hnone, decide_false, Bool.and_false, Bool.false_and, Bool.false_eq_true, if_false,
        List.append_nil]
      rfl

variable (conversation) in
theorem Follows.finish (h : Follows earlier building other)
    (hsparse : settings.sparseWindowMaxWallClockMs = 0) (forceFinal : Bool) :
    (building.finish settings conversation forceFinal).windows.map BuiltWindow.shown =
      earlier ++
        (other.finish settings conversation forceFinal).windows.map BuiltWindow.shown := by
  have huseful : ∀ chunk ∈ other.current, chunk.useful = true := by
    rw [← h.current]
    exact h.useful
  rw [finish_shown hsparse h.useful, finish_shown hsparse huseful, h.windows, h.ownedExists,
    h.currentTokens, h.shown, List.append_assoc]

end Following

variable (settings : Settings) (conversation : ConversationDocument)

def loop (chunks : List Chunk) : Building :=
  chunks.foldl (Building.step settings conversation) (Building.start settings [] 0)

variable {front : List Chunk}

theorem loop_append {rest : List Chunk} :
    loop settings conversation (front ++ rest) =
      rest.foldl (Building.step settings conversation) (loop settings conversation front) :=
  List.foldl_append

theorem foldl_blank {blanks : List Chunk} (h : ∀ chunk ∈ blanks, chunk.useful = false)
    {building : Building} :
    blanks.foldl (Building.step settings conversation) building = building.waiting blanks := by
  induction blanks generalizing building with
  | nil => rw [List.foldl_nil, Building.waiting, List.append_nil]
  | cons chunk rest ih =>
    rw [List.forall_mem_cons] at h
    rw [List.foldl_cons, step_of_blank settings conversation h.1, ih h.2, Building.waiting,
      List.append_assoc]
    rfl

structure ReadUp (seen : List Chunk) (building : Building) : Prop where
  pending_blank : ∀ chunk ∈ building.pendingEmpties, chunk.useful = false
  used : ∃ used, seen = used ++ building.pendingEmpties ∧
    used.getLast? = building.current.getLast?
  suffix : building.current <:+ seen.filter Chunk.useful

variable {settings conversation} {seen : List Chunk} {building : Building}

theorem ReadUp.append (h : ReadUp seen building) (huseful : chunk.useful = true) (text : String)
    (tokens : Nat) :
    ReadUp (seen ++ [chunk]) (building.takeEmpties.append chunk text tokens) := by
  refine ⟨fun _ hmem => absurd hmem List.not_mem_nil, ⟨seen ++ [chunk], ?_, ?_⟩, ?_⟩
  · exact (List.append_nil _).symm
  · change (seen ++ [chunk]).getLast? = (building.current ++ [chunk]).getLast?
    rw [List.getLast?_concat, List.getLast?_concat]
  · change building.current ++ [chunk] <:+ _
    rw [List.filter_append, List.filter_cons_of_pos huseful, List.filter_nil]
    obtain ⟨front, hfront⟩ := h.suffix
    refine ⟨front, ?_⟩
    rw [← List.append_assoc, hfront]

theorem ReadUp.step (hunderWay : UnderWay seen building) (h : ReadUp seen building) :
    ReadUp (seen ++ [chunk]) (building.step settings conversation chunk) := by
  cases huseful : chunk.useful with
  | false =>
    obtain ⟨used, hseen, hlast⟩ := h.used
    rw [step_of_blank settings conversation huseful]
    refine ⟨fun item hitem => ?_, ⟨used, ?_, hlast⟩, ?_⟩
    · rcases List.mem_append.mp hitem with hmem | hmem
      · exact h.pending_blank item hmem
      · rw [List.mem_singleton.mp hmem]
        exact huseful
    · dsimp only
      rw [hseen, List.append_assoc]
    · rw [List.filter_append, List.filter_cons_of_neg (by rw [huseful]; exact Bool.false_ne_true),
        List.filter_nil, List.append_nil]
      exact h.suffix
  | true =>
    rw [step_eq settings conversation huseful, Building.makeRoom]
    generalize building.countedText settings chunk = text
    generalize settings.estimateTokens (line chunk text) = tokens
    split
    · next reason hclosing =>
      -- What the flush leaves under way is a last part of what was.
      have howned := ownedExists_of_closing hclosing
      have hsuffix := handedOn_suffix settings hunderWay.useful false
      rw [flush_eq settings conversation reason false hunderWay.useful howned]
      refine ⟨fun _ hmem => absurd hmem List.not_mem_nil, ⟨seen ++ [chunk], ?_, ?_⟩, ?_⟩
      · exact (List.append_nil _).symm
      · change (seen ++ [chunk]).getLast? =
          (building.handedOn settings false ++ [chunk]).getLast?
        rw [List.getLast?_concat, List.getLast?_concat]
      · change building.handedOn settings false ++ [chunk] <:+ _
        rw [List.filter_append, List.filter_cons_of_pos huseful, List.filter_nil]
        obtain ⟨front, hfront⟩ := hsuffix.trans h.suffix
        refine ⟨front, ?_⟩
        rw [← List.append_assoc, hfront]
    · exact h.append huseful text tokens

variable {chunks : List Chunk}

theorem underWay_loop (h : Increasing chunks) :
    UnderWay chunks (loop settings conversation chunks) ∧
      ReadUp chunks (loop settings conversation chunks) := by
  have hstart : UnderWay [] (Building.start settings [] 0) :=
    UnderWay.start settings (fun _ hmem => absurd hmem List.not_mem_nil) increasing_nil 0
  have hread : ReadUp [] (Building.start settings [] 0) :=
    ⟨fun _ hmem => absurd hmem List.not_mem_nil, ⟨[], rfl, rfl⟩, List.nil_suffix⟩
  exact UnderWay.run settings conversation
    (fun hunderWay _ hinv => ReadUp.step hunderWay hinv) hstart hread h

def ClosesNext (settings : Settings) (building : Building) (rest : List Chunk) : Prop :=
  building.currentTokens ≥ settings.semanticWindowTokenTarget ∨
    ∃ blanks chunk more, rest = blanks ++ chunk :: more ∧
      (∀ blank ∈ blanks, blank.useful = false) ∧ building.closing? settings chunk ≠ none

variable {rest : List Chunk}

theorem ClosesNext.append (h : ClosesNext settings building rest) (more : List Chunk) :
    ClosesNext settings building (rest ++ more) := by
  rcases h with hfull | ⟨blanks, chunk, later, rfl, hblank, hclosing⟩
  · exact .inl hfull
  · refine .inr ⟨blanks, chunk, later ++ more, ?_, hblank, hclosing⟩
    rw [List.append_assoc, List.cons_append]

def LastClosed (settings : Settings) (conversation : ConversationDocument) (chunks : List Chunk)
    (windows : List Shown) : Prop :=
  windows = [] ∨ ∃ front rest, chunks = front ++ rest ∧
    (loop settings conversation front).ownedExists = true ∧
    windows = (loop settings conversation front).windows.map BuiltWindow.shown ++
      [(loop settings conversation front).shown settings false] ∧
    ClosesNext settings (loop settings conversation front) rest

theorem LastClosed.append {windows : List Shown}
    (h : LastClosed settings conversation chunks windows) (more : List Chunk) :
    LastClosed settings conversation (chunks ++ more) windows := by
  rcases h with hnone | ⟨front, rest, rfl, howned, hwindows, hnext⟩
  · exact .inl hnone
  · exact .inr ⟨front, rest ++ more, List.append_assoc _ _ _, howned, hwindows, hnext.append more⟩

variable (settings conversation) in
theorem lastClosed_loop (h : Increasing chunks) :
    LastClosed settings conversation chunks
      ((loop settings conversation chunks).windows.map BuiltWindow.shown) := by
  induction chunks using List.reverseRecOn with
  | nil => exact .inl rfl
  | append_singleton chunks chunk ih =>
    have hincreasing := h.sublist (List.sublist_append_left chunks [chunk])
    have hunderWay := (@underWay_loop settings conversation chunks hincreasing).1
    have hbefore := ih hincreasing
    rw [loop_append, List.foldl_cons, List.foldl_nil]
    cases huseful : chunk.useful with
    | false =>
      rw [step_of_blank settings conversation huseful]
      exact hbefore.append [chunk]
    | true =>
      rw [step_eq settings conversation huseful, Building.makeRoom]
      cases hclosing : (loop settings conversation chunks).closing? settings chunk with
      | none => exact hbefore.append [chunk]
      | some reason =>
        have howned := ownedExists_of_closing hclosing
        refine .inr ⟨chunks, [chunk], rfl, howned, ?_, .inr ⟨[], chunk, [], rfl, ?_, ?_⟩⟩
        · exact flush_shown settings conversation hunderWay.useful howned reason false
        · exact fun _ hmem => absurd hmem List.not_mem_nil
        · rw [hclosing]
          exact Option.some_ne_none _

def windowsOver (settings : Settings) (conversation : ConversationDocument) (chunks : List Chunk)
    (forceFinal : Bool) : List BuiltWindow :=
  ((loop settings conversation chunks).finish settings conversation forceFinal).windows

variable (conversation) in
theorem lastClosed_windowsOver (hsparse : settings.sparseWindowMaxWallClockMs = 0)
    (h : Increasing chunks) :
    LastClosed settings conversation chunks
      ((windowsOver settings conversation chunks false).map BuiltWindow.shown) := by
  rw [windowsOver, finish_shown hsparse (underWay_loop h).1.useful]
  split
  · next hclosed =>
    rw [Bool.false_or, Bool.and_eq_true_iff, decide_eq_true_eq] at hclosed
    exact .inr ⟨chunks, [], (List.append_nil _).symm, hclosed.1, rfl, .inl hclosed.2⟩
  · rw [List.append_nil]
    exact lastClosed_loop settings conversation h

variable (settings) in
theorem estimateTokens_line_pos (chunk : Chunk) (text : String) :
    0 < settings.estimateTokens (line chunk text) := by
  have hblank : Text.strip (line chunk text) ≠ "" := by
    intro hempty
    have hwords := congrArg (fun stripped => Text.wordsOf (String.toList stripped)) hempty
    rw [Text.wordsOf_strip] at hwords
    exact wordsOf_line hwords
  rw [Settings.estimateTokens, if_neg hblank]
  split
  · exact Nat.lt_of_lt_of_le Nat.zero_lt_one (Nat.le_max_left _ _)
  · exact Nat.lt_of_lt_of_le Nat.zero_lt_one
      ((Nat.le_max_left _ _).trans (Nat.le_max_right _ _))

theorem closing?_of_full (huseful : chunk.useful = true) (howned : building.ownedExists = true)
    (hfull : building.currentTokens ≥ settings.semanticWindowTokenTarget) :
    building.closing? settings chunk ≠ none := by
  intro hnone
  have hroom := room_of_not_closing huseful hnone howned
  have hpos := estimateTokens_line_pos settings chunk
    (building.countedText settings chunk)
  omega

theorem ClosesNext.cases (h : ClosesNext settings building rest)
    (howned : building.ownedExists = true) :
    (building.currentTokens ≥ settings.semanticWindowTokenTarget ∧
      ∀ chunk ∈ rest, chunk.useful = false) ∨
    ∃ blanks chunk more, rest = blanks ++ chunk :: more ∧
      (∀ blank ∈ blanks, blank.useful = false) ∧ building.closing? settings chunk ≠ none := by
  rcases h with hfull | hcloses
  · by_cases hblank : ∀ chunk ∈ rest, chunk.useful = false
    · exact .inl ⟨hfull, hblank⟩
    · have hdrop : rest.dropWhile (fun chunk => !chunk.useful) ≠ [] := by
        rw [Ne, List.dropWhile_eq_nil_iff]
        intro hall
        exact hblank fun chunk hmem => by simpa using hall chunk hmem
      obtain ⟨chunk, more, heq⟩ := List.exists_cons_of_ne_nil hdrop
      have huseful : chunk.useful = true := by
        have hhead := List.head?_dropWhile_not (fun chunk => !Chunk.useful chunk) rest
        rw [heq] at hhead
        simpa using hhead
      refine .inr ⟨rest.takeWhile (fun chunk => !chunk.useful), chunk, more, ?_, ?_,
        closing?_of_full huseful howned hfull⟩
      · rw [← heq, List.takeWhile_append_dropWhile]
      · intro blank hmem
        simpa using List.mem_takeWhile_imp hmem
  · exact .inr hcloses

variable (settings) in
theorem ownedExists_start {overlapChunks : List Chunk}
    (huseful : ∀ chunk ∈ overlapChunks, chunk.useful = true) (startIndex : Nat) :
    (Building.start settings overlapChunks startIndex).ownedExists = false := by
  rw [← Bool.not_eq_true, ownedExists_iff huseful, not_not]
  exact owned_start settings overlapChunks startIndex

theorem Follows.self (huseful : ∀ chunk ∈ building.current, chunk.useful = true) :
    Follows [] building building := ⟨huseful, rfl, rfl, rfl, rfl, rfl, rfl⟩

variable (settings conversation) in
theorem follows_start (huseful : ∀ chunk ∈ building.current, chunk.useful = true)
    (howned : building.ownedExists = true) (reason : CloseReason) (startIndex : Nat) :
    Follows (building.windows.map BuiltWindow.shown ++ [building.shown settings false])
      (building.flush settings conversation reason false)
      (Building.start settings (building.handedOn settings false) startIndex) := by
  have hwindows := flush_shown settings conversation huseful howned reason false
  have hsuffix := handedOn_suffix settings huseful false
  rw [flush_eq settings conversation reason false huseful howned] at hwindows ⊢
  exact ⟨fun chunk hmem => huseful chunk (hsuffix.subset hmem), rfl, rfl, rfl, rfl, rfl,
    hwindows.trans (List.append_nil _).symm⟩

theorem Follows.step_start {other : Building} {earlier : List Shown}
    (h : Follows earlier (building.flush settings conversation reason false) other)
    (hnone : other.ownedExists = false)
    (hclosing : building.closing? settings chunk = some reason)
    (hcounted : (building.makeRoom settings conversation chunk).countedText settings chunk =
      building.countedText settings chunk) :
    Follows earlier (building.step settings conversation chunk)
      (other.step settings conversation chunk) := by
  have hchunk : chunk.useful = true := by
    rw [Building.closing?] at hclosing
    split at hclosing
    · next huseful => exact huseful
    · cases hclosing
  have hroom : building.makeRoom settings conversation chunk =
      building.flush settings conversation reason false := by
    rw [Building.makeRoom, hclosing]
  have hjoins : other.makeRoom settings conversation chunk = other := by
    have hstays : other.closing? settings chunk = none := by
      cases hcase : other.closing? settings chunk with
      | none => rfl
      | some reason => exact absurd (ownedExists_of_closing hcase) (by rw [hnone]; decide)
    rw [Building.makeRoom, hstays]
  rw [step_eq settings conversation hchunk, step_eq settings conversation hchunk, hjoins,
    ← h.countedText, ← hcounted, hroom]
  exact h.takeEmpties.append hchunk _ _

/-- Whenever the loop closes a window, the chunk that comes then has the text that it was counted
with also after the chunks that the window hands on. -/
def CountedAgain (settings : Settings) (conversation : ConversationDocument) (building : Building) :
    List Chunk → Prop
  | [] => True
  | chunk :: rest =>
    (building.makeRoom settings conversation chunk).countedText settings chunk =
        building.countedText settings chunk ∧
      CountedAgain settings conversation (building.step settings conversation chunk) rest

theorem CountedAgain.of_append (h : CountedAgain settings conversation building (front ++ rest)) :
    CountedAgain settings conversation building front ∧
      CountedAgain settings conversation
        (front.foldl (Building.step settings conversation) building) rest := by
  induction front generalizing building with
  | nil => exact ⟨trivial, h⟩
  | cons chunk front ih =>
    rw [List.cons_append, CountedAgain] at h
    rw [List.foldl_cons, CountedAgain, and_assoc]
    exact ⟨h.1, ih h.2⟩

/-- The windows of a call that starts with what `closed` hands on. -/
def resumed (settings : Settings) (conversation : ConversationDocument) (closed : Building)
    (startIndex : Nat) (chunks : List Chunk) (forceFinal : Bool) : List BuiltWindow :=
  ((chunks.foldl (Building.step settings conversation)
    (Building.start settings (closed.handedOn settings false) startIndex)).finish settings
      conversation forceFinal).windows

section Resuming

variable {closed : Building} {blanks : List Chunk}

theorem handedOn_waiting :
    (closed.waiting blanks).handedOn settings finalPartial =
      closed.handedOn settings finalPartial := by
  unfold Building.handedOn Building.waiting
  with_reducible rfl

theorem shown_waiting :
    (closed.waiting blanks).shown settings finalPartial = closed.shown settings finalPartial :=
      by
  unfold Building.shown Building.owned Building.handedOn Building.waiting
  with_reducible rfl

section

variable (hsparse : settings.sparseWindowMaxWallClockMs = 0)

include hsparse

theorem resumed_blank (huseful : ∀ chunk ∈ closed.current, chunk.useful = true) {startIndex : Nat}
    (hblank : ∀ chunk ∈ blanks, chunk.useful = false) {forceFinal : Bool} :
    (resumed settings conversation closed startIndex blanks forceFinal).map BuiltWindow.shown =
      [] := by
  have hsuffix := handedOn_suffix settings huseful false
  have htail : ∀ chunk ∈ closed.handedOn settings false, chunk.useful = true :=
    fun chunk hmem => huseful chunk (hsuffix.subset hmem)
  have hnone := ownedExists_start settings htail startIndex
  unfold resumed
  generalize hstart : Building.start settings (closed.handedOn settings false) startIndex = start
    at hnone ⊢
  have hcurrent : ∀ chunk ∈ (start.waiting blanks).current, chunk.useful = true := by
    rw [← hstart]
    exact htail
  have hwindows : (start.waiting blanks).windows = [] := by
    rw [← hstart]
    rfl
  have hwaiting : (start.waiting blanks).ownedExists = false := hnone
  rw [foldl_blank settings conversation hblank, finish_shown hsparse hcurrent, hwaiting, hwindows]
  rfl

theorem resumed_closing (huseful : ∀ chunk ∈ closed.current, chunk.useful = true)
    (hpending : ∀ chunk ∈ closed.pendingEmpties ++ blanks, chunk.useful = false)
    (startIndex : Nat) (hclosing : (closed.waiting blanks).closing? settings chunk = some reason)
    (hcounted : ((closed.waiting blanks).makeRoom settings conversation chunk).countedText settings
      chunk = (closed.waiting blanks).countedText settings chunk)
    (more : List Chunk) (forceFinal : Bool) :
    ((more.foldl (Building.step settings conversation)
        ((closed.waiting blanks).step settings conversation chunk)).finish settings conversation
          forceFinal).windows.map BuiltWindow.shown =
      closed.windows.map BuiltWindow.shown ++ [closed.shown settings false] ++
        (resumed settings conversation closed startIndex
          (closed.pendingEmpties ++ blanks ++ chunk :: more) forceFinal).map
            BuiltWindow.shown := by
  have hsuffix := handedOn_suffix settings huseful false
  have htail : ∀ chunk ∈ closed.handedOn settings false, chunk.useful = true :=
    fun chunk hmem => huseful chunk (hsuffix.subset hmem)
  have hnone := ownedExists_start settings htail startIndex
  have hwaiting : ∀ chunk ∈ (closed.waiting blanks).current, chunk.useful = true := huseful
  have hstart := follows_start settings conversation hwaiting (ownedExists_of_closing hclosing)
    reason startIndex
  rw [handedOn_waiting, shown_waiting] at hstart
  unfold resumed
  rw [List.foldl_append, foldl_blank settings conversation hpending, List.foldl_cons]
  generalize Building.start settings (closed.handedOn settings false) startIndex = start
    at hnone hstart ⊢
  have hother : (start.waiting (closed.pendingEmpties ++ blanks)).ownedExists = false := hnone
  have hstep := (hstart.waitingRight (closed.pendingEmpties ++ blanks)).step_start hother hclosing
    hcounted
  exact (hstep.run hsparse more).finish conversation hsparse forceFinal

/-- A call that starts with what the last window hands on closes the windows that one call over
all chunks closes after it. A forced call shows the last window of the one call, and not where an
overlap after it would start. -/
theorem resumed_windows (hincreasing : Increasing (front ++ rest))
    (hcounted : CountedAgain settings conversation (Building.start settings [] 0) (front ++ rest))
    (hclosed : loop settings conversation front = closed) (howned : closed.ownedExists = true)
    (hnext : ClosesNext settings closed rest) (startIndex : Nat) (forceFinal : Bool) :
    (forceFinal = false →
      (windowsOver settings conversation (front ++ rest) forceFinal).map BuiltWindow.shown =
        closed.windows.map BuiltWindow.shown ++ [closed.shown settings false] ++
          (resumed settings conversation closed startIndex (closed.pendingEmpties ++ rest)
            forceFinal).map BuiltWindow.shown) ∧
    ((windowsOver settings conversation (front ++ rest) forceFinal).map BuiltWindow.shown).map
        Shown.outcome =
      (closed.windows.map BuiltWindow.shown ++ [closed.shown settings false] ++
        (resumed settings conversation closed startIndex (closed.pendingEmpties ++ rest)
          forceFinal).map BuiltWindow.shown).map Shown.outcome := by
  obtain ⟨hunderWay, hread⟩ := @underWay_loop settings conversation front
    (hincreasing.sublist (List.sublist_append_left _ _))
  have hlater := hcounted.of_append.2
  rw [← loop, hclosed] at hlater
  rw [windowsOver, loop_append, hclosed]
  rw [hclosed] at hunderWay hread
  have hpending : ∀ blanks : List Chunk, (∀ chunk ∈ blanks, chunk.useful = false) →
      ∀ chunk ∈ closed.pendingEmpties ++ blanks, chunk.useful = false := by
    intro blanks hblank chunk hmem
    rcases List.mem_append.mp hmem with hmem | hmem
    · exact hread.pending_blank chunk hmem
    · exact hblank chunk hmem
  rcases hnext.cases howned with ⟨hfull, hblank⟩ | ⟨blanks, chunk, more, rfl, hblank, hcloses⟩
  · -- No chunk follows that could join a window.
    have hone : (closed.waiting rest).ownedExists = true := howned
    have htokens : (closed.waiting rest).currentTokens ≥ settings.semanticWindowTokenTarget := hfull
    have huseful : ∀ chunk ∈ (closed.waiting rest).current, chunk.useful = true :=
      hunderWay.useful
    have hwindows : (closed.waiting rest).windows = closed.windows := rfl
    rw [resumed_blank hsparse hunderWay.useful (hpending rest hblank), List.append_nil,
      foldl_blank settings conversation hblank, finish_shown hsparse huseful, hone, hwindows,
      if_pos (by simpa using .inr htokens), shown_waiting]
    constructor
    · intro hforce
      rw [hforce]
    · rw [List.map_append, List.map_append]
      rfl
  · -- The first chunk that follows closes the window in the one call.
    rw [List.foldl_append, List.foldl_cons, foldl_blank settings conversation hblank]
    have hcountedChunk := hlater.of_append.2.1
    rw [foldl_blank settings conversation hblank] at hcountedChunk
    have hsame : (closed.waiting blanks).closing? settings chunk =
        closed.closing? settings chunk :=
      ((Follows.self hunderWay.useful).waitingLeft blanks).closing? hsparse chunk
    obtain ⟨reason, hreason⟩ := Option.ne_none_iff_exists'.mp hcloses
    have heq := resumed_closing hsparse hunderWay.useful (hpending blanks hblank) startIndex
      (hsame.trans hreason) hcountedChunk more forceFinal
    rw [← List.append_assoc, heq]
    exact ⟨fun _ => rfl, rfl⟩

end

end Resuming

end AiBuddy.Conversation.Session
