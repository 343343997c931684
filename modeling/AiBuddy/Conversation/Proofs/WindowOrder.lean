import AiBuddy.Conversation.Proofs.Windowing

/-!
# The order of the windows

Windows are listed by `sequenceStart` (`repository.py:602`). The numbers that windows end with
increase. The numbers that they start with increase as long as no window hands on all of its
chunks, which the overlap budget may ask for: that window and the next start with one chunk.
-/

namespace AiBuddy.Conversation.Session

variable (settings : Settings) (conversation : ConversationDocument)

def tokensOf (chunks : List Chunk) : Nat :=
  (chunks.map fun chunk => settings.estimateTokens chunk.usefulText).sum

def Building.LeavesFirst (building : Building) : Prop :=
  settings.overlapTokenBudget ≤ tokensOf settings (building.current.drop 1)

theorem tailFrom_append_first (tokenBudget : Nat) (first : Chunk) (total : Nat)
    (tail chunks : List Chunk) (htotal : total < tokenBudget) :
    (total + tokensOf settings chunks < tokenBudget →
      tailFrom settings tokenBudget total tail (chunks ++ [first]) =
        first :: (chunks.reverse ++ tail)) ∧
    (tokenBudget ≤ total + tokensOf settings chunks →
      ∃ taken left, chunks = taken ++ left ∧
        tailFrom settings tokenBudget total tail (chunks ++ [first]) = taken.reverse ++ tail) := by
  induction chunks generalizing total tail with
  | nil =>
    refine ⟨fun _ => ?_, fun hle => absurd hle (Nat.not_le.mpr htotal)⟩
    rw [List.nil_append, tailFrom]
    split <;> rfl
  | cons chunk rest ih =>
    rw [tokensOf, List.map_cons, List.sum_cons, ← Nat.add_assoc, ← tokensOf, List.cons_append,
      tailFrom]
    split
    · next hreached =>
      exact ⟨fun hlt => absurd hlt (by omega), fun _ => ⟨[chunk], rest, rfl, rfl⟩⟩
    · next hbelow =>
      obtain ⟨hall, hsome⟩ := ih (total + settings.estimateTokens chunk.usefulText) (chunk :: tail)
        (Nat.not_le.mp hbelow)
      refine ⟨fun hlt => ?_, fun hle => ?_⟩
      · rw [hall hlt, List.reverse_cons, List.append_assoc, List.singleton_append]
      · obtain ⟨taken, left, rfl, heq⟩ := hsome hle
        refine ⟨chunk :: taken, left, rfl, ?_⟩
        rw [heq, List.reverse_cons, List.append_assoc, List.singleton_append]

variable {rest : List Chunk}

theorem handedOn_cons {building : Building} {first : Chunk}
    (hcurrent : building.current = first :: rest)
    (huseful : ∀ chunk ∈ building.current, chunk.useful = true) :
    (building.LeavesFirst settings → building.handedOn settings false <:+ rest) ∧
      (¬building.LeavesFirst settings → building.handedOn settings false = first :: rest) := by
  unfold Building.LeavesFirst Building.handedOn tailChunks
  rw [if_neg Bool.false_ne_true, List.filter_eq_self.mpr huseful, hcurrent, List.drop_one,
    List.tail_cons]
  dsimp only
  by_cases hzero : settings.overlapTokenBudget = 0
  · rw [if_pos (.inl hzero), hzero]
    exact ⟨fun _ => List.nil_suffix, fun hnot => absurd (Nat.zero_le _) hnot⟩
  · have hne : ¬(settings.overlapTokenBudget = 0 ∨ first :: rest = []) :=
      not_or.mpr ⟨hzero, List.cons_ne_nil _ _⟩
    obtain ⟨hall, hsome⟩ := tailFrom_append_first settings settings.overlapTokenBudget first 0 []
      rest.reverse (Nat.pos_of_ne_zero hzero)
    rw [tokensOf, List.map_reverse, List.sum_reverse, ← tokensOf, Nat.zero_add] at hall hsome
    rw [if_neg hne, List.reverse_cons]
    refine ⟨fun hle => ?_, fun hnot => ?_⟩
    · obtain ⟨taken, left, hrest, heq⟩ := hsome hle
      refine ⟨left.reverse, ?_⟩
      rw [heq, List.append_nil, ← List.reverse_append, ← hrest, List.reverse_reverse]
    · rw [hall (Nat.not_le.mp hnot), List.append_nil, List.reverse_reverse]

def Building.starts (building : Building) : List Nat :=
  building.windows.map (·.window.sequenceStart) ++
    (building.current.take 1).map Chunk.sequenceNumber

def FirstsLeftBehind (building : Building) : List Chunk → Prop
  | [] => True
  | chunk :: rest =>
    (building.closing? settings chunk ≠ none → building.LeavesFirst settings) ∧
      FirstsLeftBehind (building.step settings conversation chunk) rest

variable {settings} {conversation} {seen : List Chunk} {building : Building}

theorem current_ne_nil (howned : building.owned ≠ []) : building.current ≠ [] := by
  intro hnil
  apply howned
  rw [Building.owned, hnil]
  rfl

theorem pairwise_concat_lt {numbers : List Nat} {last next : Nat} :
    (numbers ++ [last] ++ [next]).Pairwise (· < ·) ↔
      (numbers ++ [last]).Pairwise (· < ·) ∧ last < next := by
  rw [List.pairwise_append]
  constructor
  · rintro ⟨hnumbers, -, hnext⟩
    exact ⟨hnumbers, hnext last (List.mem_append_right _ List.mem_cons_self) next
      List.mem_cons_self⟩
  · rintro ⟨hnumbers, hnext⟩
    refine ⟨hnumbers, List.pairwise_singleton _ _, fun number hnumber other hother => ?_⟩
    rw [List.mem_singleton.mp hother]
    rcases List.mem_append.mp hnumber with hmem | hmem
    · have hlast := (List.pairwise_append.mp hnumbers).2.2 number hmem last List.mem_cons_self
      exact hlast.trans hnext
    · rw [List.mem_singleton.mp hmem]
      exact hnext

theorem close_sequenceStart {first : Chunk} {tail : List Chunk} {reason : CloseReason}
    {finalPartial : Bool} (hcurrent : building.current = first :: rest)
    (huseful : ∀ chunk ∈ building.current, chunk.useful = true) :
    (building.close settings conversation reason finalPartial tail).window.sequenceStart =
      first.sequenceNumber := by
  unfold Building.close
  rw [List.filter_eq_self.mpr huseful, hcurrent]
  rfl

theorem close_sequenceEnd {tail : List Chunk} {reason : CloseReason} {finalPartial : Bool}
    (huseful : ∀ chunk ∈ building.current, chunk.useful = true) :
    (building.close settings conversation reason finalPartial tail).window.sequenceEnd =
      (building.current.map Chunk.sequenceNumber).getLastD 0 := by
  unfold Building.close
  rw [List.filter_eq_self.mpr huseful]

variable (settings conversation) in
theorem starts_flush (huseful : ∀ chunk ∈ building.current, chunk.useful = true)
    (howned : building.ownedExists = true) (reason : CloseReason) (finalPartial : Bool) :
    (building.flush settings conversation reason finalPartial).windows.map
      (·.window.sequenceStart) = building.starts := by
  rw [flush_eq settings conversation reason finalPartial huseful howned]
  dsimp only
  cases hcurrent : building.current with
  | nil => exact absurd hcurrent (current_ne_nil ((ownedExists_iff huseful).mp howned))
  | cons first rest =>
    rw [List.map_append, List.map_singleton, Building.starts, hcurrent]
    rw [close_sequenceStart hcurrent huseful]
    rfl

variable {chunk : Chunk}

theorem starts_step (hunderWay : UnderWay seen building)
    (hafter : ∀ before ∈ seen, before.sequenceNumber < chunk.sequenceNumber)
    (howns : building.windows ≠ [] → building.owned ≠ []) :
    (building.step settings conversation chunk).starts.Pairwise (· < ·) ↔
      building.starts.Pairwise (· < ·) ∧
        (building.closing? settings chunk ≠ none → building.LeavesFirst settings) := by
  cases huseful : chunk.useful with
  | false =>
    have hnone : building.closing? settings chunk = none := by
      rw [Building.closing?, huseful]
      rfl
    rw [step_of_blank settings conversation huseful, hnone]
    exact ⟨fun h => ⟨h, fun hne => absurd rfl hne⟩, fun h => h.1⟩
  | true =>
    obtain ⟨text, tokens, heq⟩ := step_of_useful settings conversation huseful
    rw [heq, Building.makeRoom]
    cases hclosing : building.closing? settings chunk with
    | none =>
      have hsame : (building.takeEmpties.append chunk text tokens).starts.Pairwise (· < ·) ↔
          building.starts.Pairwise (· < ·) := by
        change (building.windows.map (·.window.sequenceStart) ++
          ((building.current ++ [chunk]).take 1).map Chunk.sequenceNumber).Pairwise _ ↔ _
        cases hcurrent : building.current with
        | cons first rest =>
          rw [Building.starts, hcurrent]
          exact Iff.rfl
        | nil =>
          have hwindows : building.windows = [] := by
            by_contra hne
            exact current_ne_nil (howns hne) hcurrent
          rw [Building.starts, hcurrent, hwindows]
          exact ⟨fun _ => .nil, fun _ => List.pairwise_singleton _ _⟩
      exact ⟨fun h => ⟨hsame.mp h, fun hne => absurd rfl hne⟩, fun h => hsame.mpr h.1⟩
    | some reason =>
      have howned := ownedExists_of_closing hclosing
      cases hcurrent : building.current with
      | nil => exact absurd hcurrent (current_ne_nil ((ownedExists_iff hunderWay.useful).mp howned))
      | cons first rest =>
        obtain ⟨hleft, hkept⟩ := handedOn_cons settings hcurrent hunderWay.useful
        have hfirst : first.sequenceNumber < chunk.sequenceNumber := by
          refine hafter first (hunderWay.current_seen first ?_)
          rw [hcurrent]
          exact List.mem_cons_self
        have hrest : ∀ later ∈ rest, first.sequenceNumber < later.sequenceNumber := by
          have hincreasing := hunderWay.increasing
          rw [hcurrent] at hincreasing
          exact (List.pairwise_cons.mp hincreasing).1
        have hstarts : building.starts =
            building.windows.map (·.window.sequenceStart) ++ [first.sequenceNumber] := by
          rw [Building.starts, hcurrent]
          rfl
        have hnext : ∃ next, ((building.flush settings conversation reason
            false).takeEmpties.append chunk text tokens).starts = building.starts ++ [next] ∧
            (first.sequenceNumber < next ↔ building.LeavesFirst settings) := by
          have hwindows := starts_flush settings conversation hunderWay.useful howned reason false
          have hhanded : (building.flush settings conversation reason false).current =
              building.handedOn settings false := by
            rw [flush_eq settings conversation reason false hunderWay.useful howned]
          change ∃ next, (building.flush settings conversation reason false).windows.map
            (·.window.sequenceStart) ++ (((building.flush settings conversation reason
              false).current ++ [chunk]).take 1).map Chunk.sequenceNumber = _ ∧ _
          rw [hwindows, hhanded]
          by_cases hleaves : building.LeavesFirst settings
          · cases htail : building.handedOn settings false with
            | nil => exact ⟨_, rfl, iff_of_true hfirst hleaves⟩
            | cons next others =>
              have hmem : next ∈ rest := (hleft hleaves).subset (htail ▸ List.mem_cons_self)
              exact ⟨_, rfl, iff_of_true (hrest next hmem) hleaves⟩
          · rw [hkept hleaves]
            exact ⟨_, rfl, iff_of_false (Nat.lt_irrefl _) hleaves⟩
        obtain ⟨next, hadded, hiff⟩ := hnext
        dsimp only
        rw [hadded, hstarts, pairwise_concat_lt, hiff, ← hstarts]
        exact and_congr_right fun _ => ⟨fun h _ => h, fun h => h (Option.some_ne_none _)⟩

/-- The windows end with numbers that were read, each before the next and before what the window
under way owns, which is something as soon as a window was closed. -/
structure Ended (seen : List Chunk) (building : Building) : Prop where
  owns : building.windows ≠ [] → building.owned ≠ []
  ends : (building.windows.map (·.window.sequenceEnd)).Pairwise (· < ·)
  ends_seen : ∀ built ∈ building.windows,
    built.window.sequenceEnd ∈ seen.map Chunk.sequenceNumber
  ends_before : ∀ built ∈ building.windows, ∀ number ∈ building.owned,
    built.window.sequenceEnd < number

theorem Increasing.le_getLastD {chunks : List Chunk} (h : Increasing chunks)
    (hmem : chunk ∈ chunks) :
    chunk.sequenceNumber ≤ (chunks.map Chunk.sequenceNumber).getLastD 0 := by
  obtain ⟨front, last, rfl⟩ :=
    (List.eq_nil_or_concat' chunks).resolve_left (List.ne_nil_of_mem hmem)
  rw [List.map_append, List.map_singleton, List.getLastD_concat]
  rcases List.mem_append.mp hmem with hfront | hlast
  · exact ((List.pairwise_append.mp h).2.2 chunk hfront last List.mem_cons_self).le
  · rw [List.mem_singleton.mp hlast]

theorem getLastD_mem {chunks : List Chunk} (hne : chunks ≠ []) :
    (chunks.map Chunk.sequenceNumber).getLastD 0 ∈ chunks.map Chunk.sequenceNumber := by
  obtain ⟨front, last, rfl⟩ := (List.eq_nil_or_concat' chunks).resolve_left hne
  rw [List.map_append, List.map_singleton, List.getLastD_concat]
  exact List.mem_append_right _ List.mem_cons_self

variable (settings conversation) in
theorem Ended.flush (h : Ended seen building) (hunderWay : UnderWay seen building)
    (howned : building.ownedExists = true) (reason : CloseReason) (finalPartial : Bool) :
    ((building.flush settings conversation reason finalPartial).windows.map
      (·.window.sequenceEnd)).Pairwise (· < ·) ∧
      ∀ built ∈ (building.flush settings conversation reason finalPartial).windows,
        built.window.sequenceEnd ∈ seen.map Chunk.sequenceNumber := by
  have hne := (ownedExists_iff hunderWay.useful).mp howned
  obtain ⟨number, hnumber⟩ := List.exists_mem_of_ne_nil _ hne
  obtain ⟨chunk, hchunk, rfl⟩ := List.mem_map.mp (List.mem_of_mem_filter hnumber)
  have hlast := hunderWay.increasing.le_getLastD (List.mem_of_mem_filter hchunk)
  rw [flush_eq settings conversation reason finalPartial hunderWay.useful howned]
  dsimp only
  constructor
  · rw [List.map_append, List.map_singleton, close_sequenceEnd hunderWay.useful]
    refine List.pairwise_append.mpr ⟨h.ends, List.pairwise_singleton _ _, ?_⟩
    intro before hbefore last hmem
    obtain ⟨built, hbuilt, rfl⟩ := List.mem_map.mp hbefore
    rw [List.mem_singleton.mp hmem]
    exact (h.ends_before built hbuilt _ hnumber).trans_le hlast
  · intro built hbuilt
    rcases List.mem_append.mp hbuilt with hbefore | hnew
    · exact h.ends_seen built hbefore
    · rw [List.mem_singleton.mp hnew, close_sequenceEnd hunderWay.useful]
      obtain ⟨last, hmem, hsame⟩ := List.mem_map.mp (getLastD_mem (current_ne_nil hne))
      rw [← hsame]
      exact List.mem_map_of_mem (hunderWay.current_seen last hmem)

theorem Ended.append (hunderWay : UnderWay seen building)
    (hends : (building.windows.map (·.window.sequenceEnd)).Pairwise (· < ·))
    (hseen : ∀ built ∈ building.windows, built.window.sequenceEnd ∈ seen.map Chunk.sequenceNumber)
    (hbefore : ∀ built ∈ building.windows, ∀ number ∈ building.owned, built.window.sequenceEnd <
      number)
    (huseful : chunk.useful = true)
    (hafter : ∀ before ∈ seen, before.sequenceNumber < chunk.sequenceNumber) (text : String)
    (tokens : Nat) : Ended (seen ++ [chunk]) (building.takeEmpties.append chunk text tokens) := by
  have howned := hunderWay.owned_append huseful hafter text tokens
  refine ⟨fun _ => ?_, hends, fun built hbuilt => ?_, fun built hbuilt number hnumber => ?_⟩
  · rw [howned]
    exact List.append_ne_nil_of_right_ne_nil _ (List.cons_ne_nil _ _)
  · rw [List.map_append]
    exact List.mem_append_left _ (hseen built hbuilt)
  · rw [howned] at hnumber
    rcases List.mem_append.mp hnumber with hold | hnew
    · exact hbefore built hbuilt number hold
    · obtain ⟨last, hlast, hsame⟩ := List.mem_map.mp (hseen built hbuilt)
      rw [List.mem_singleton.mp hnew, ← hsame]
      exact hafter last hlast

theorem Ended.step (hunderWay : UnderWay seen building)
    (hafter : ∀ before ∈ seen, before.sequenceNumber < chunk.sequenceNumber)
    (h : Ended seen building) :
    Ended (seen ++ [chunk]) (building.step settings conversation chunk) := by
  cases huseful : chunk.useful with
  | false =>
    rw [step_of_blank settings conversation huseful]
    refine ⟨h.owns, h.ends, fun built hbuilt => ?_, h.ends_before⟩
    rw [List.map_append]
    exact List.mem_append_left _ (h.ends_seen built hbuilt)
  | true =>
    obtain ⟨text, tokens, heq⟩ := step_of_useful settings conversation huseful
    have hroom := hunderWay.makeRoom settings conversation chunk
    rw [heq]
    unfold Building.makeRoom at hroom ⊢
    split at hroom
    · next reason hclosing =>
      have howned := ownedExists_of_closing hclosing
      obtain ⟨hends, hseen⟩ := h.flush settings conversation hunderWay howned reason false
      refine Ended.append hroom hends hseen (fun built _ number hnumber => ?_) huseful hafter text
        tokens
      rw [owned_flush settings conversation hunderWay.useful howned] at hnumber
      exact absurd hnumber List.not_mem_nil
    · exact Ended.append hroom h.ends h.ends_seen h.ends_before huseful hafter text tokens

variable (settings conversation) in
theorem starts_run (hunderWay : UnderWay seen building) (hended : Ended seen building)
    (hincreasing : Increasing (seen ++ rest)) :
    (rest.foldl (Building.step settings conversation) building).starts.Pairwise (· < ·) ↔
      building.starts.Pairwise (· < ·) ∧ FirstsLeftBehind settings conversation building rest := by
  induction rest generalizing seen building with
  | nil => exact ⟨fun h => ⟨h, trivial⟩, fun h => h.1⟩
  | cons chunk rest ih =>
    have hafter : ∀ before ∈ seen, before.sequenceNumber < chunk.sequenceNumber :=
      fun before hbefore =>
        (List.pairwise_append.mp hincreasing).2.2 before hbefore chunk List.mem_cons_self
    rw [← List.singleton_append, ← List.append_assoc] at hincreasing
    rw [List.foldl_cons, FirstsLeftBehind, ← and_assoc,
      ← starts_step hunderWay hafter hended.owns]
    exact ih (hunderWay.step settings conversation hafter) (Ended.step hunderWay hafter hended)
      hincreasing

structure InOrder (windows : List BuiltWindow) : Prop where
  ends : (windows.map (·.window.sequenceEnd)).Pairwise (· < ·)
  starts : (windows.map (·.window.sequenceStart)).Pairwise (· < ·)
  listed : ∀ stored : List Window, stored.Perm (windows.map BuiltWindow.window) →
    stored.Pairwise (fun window later => window.sequenceStart ≤ later.sequenceStart) →
    stored = windows.map BuiltWindow.window
  highest : ∀ last ∈ windows.getLast?, ∀ built ∈ windows,
    built.window.sequenceEnd ≤ last.window.sequenceEnd

theorem inOrder_of_pairwise {windows : List BuiltWindow}
    (hends : (windows.map (·.window.sequenceEnd)).Pairwise (· < ·))
    (hstarts : (windows.map (·.window.sequenceStart)).Pairwise (· < ·)) : InOrder windows where
  ends := hends
  starts := hstarts
  listed := by
    intro stored hperm hstored
    have hbuilt : (windows.map BuiltWindow.window).Pairwise
        fun window later => window.sequenceStart < later.sequenceStart :=
      List.pairwise_map.mpr (List.pairwise_map.mp hstarts)
    have hdistinct : ((windows.map BuiltWindow.window).map Window.sequenceStart).Nodup :=
      List.pairwise_map.mpr (hbuilt.imp Nat.ne_of_lt)
    refine hperm.eq_of_pairwise (fun window later hwindow hlater hle hge => ?_) hstored
      (hbuilt.imp Nat.le_of_lt)
    exact Keyed.eq_of_key hdistinct (hperm.mem_iff.mp hwindow) hlater (Nat.le_antisymm hle hge)
  highest := by
    intro last hlast built hbuilt
    obtain ⟨front, rfl⟩ := List.getLast?_eq_some_iff.mp hlast
    rcases List.mem_append.mp hbuilt with hfront | hmem
    · rw [List.map_append] at hends
      exact ((List.pairwise_append.mp hends).2.2 _ (List.mem_map_of_mem hfront) _
        List.mem_cons_self).le
    · rw [List.mem_singleton.mp hmem]

theorem inOrder_finish (hunderWay : UnderWay seen building) (hended : Ended seen building)
    (hstarts : building.starts.Pairwise (· < ·)) {forceFinal : Bool} :
    InOrder (building.finish settings conversation forceFinal).windows := by
  have hwindows : (building.windows.map (·.window.sequenceStart)).Pairwise (· < ·) :=
    hstarts.sublist (List.sublist_append_left _ _)
  rcases finish_cases settings conversation building forceFinal with
    ⟨-, heq⟩ | ⟨howned, reason, finalPartial, heq⟩ | ⟨-, -, heq⟩
  · rw [heq]
    exact inOrder_of_pairwise hended.ends hwindows
  · have huseful : ∀ chunk ∈ building.takeEmpties.current, chunk.useful = true := hunderWay.useful
    have hunderWay' : UnderWay seen building.takeEmpties :=
      ⟨huseful, hunderWay.increasing, hunderWay.current_seen, hunderWay.overlap_seen⟩
    have hended' : Ended seen building.takeEmpties :=
      ⟨hended.owns, hended.ends, hended.ends_seen, hended.ends_before⟩
    have hends := (hended'.flush settings conversation hunderWay' howned reason
      finalPartial).1
    rw [heq]
    refine inOrder_of_pairwise hends ?_
    rw [starts_flush settings conversation huseful howned]
    exact hstarts
  · rw [heq]
    exact inOrder_of_pairwise hended.ends hwindows

theorem starts_of_inOrder_finish (hunderWay : UnderWay seen building) (hended : Ended seen building)
    (h : InOrder (building.finish settings conversation true).windows) :
    building.starts.Pairwise (· < ·) := by
  rcases finish_cases settings conversation building true with
    ⟨hnone, -⟩ | ⟨howned, reason, finalPartial, heq⟩ | ⟨-, hforce, -⟩
  · have hwindows : building.windows = [] := by
      by_contra hne
      rw [(ownedExists_iff hunderWay.useful).mpr (hended.owns hne)] at hnone
      cases hnone
    rw [Building.starts, hwindows]
    cases building.current with
    | nil => exact .nil
    | cons first rest => exact List.pairwise_singleton _ _
  · have huseful : ∀ chunk ∈ building.takeEmpties.current, chunk.useful = true := hunderWay.useful
    have hstarts := h.starts
    rw [heq, starts_flush settings conversation huseful howned] at hstarts
    exact hstarts
  · cases hforce

/-- With an overlap that comes before the chunks, the windows of a call, with or without a forced
last one, are in order if and only if whenever the loop closes a window the tokens of its chunks
after the first reach the overlap budget. -/
theorem inOrder_iff (settings : Settings) (conversation : ConversationDocument)
    (chunks overlapPrefix : List Chunk) (startIndex : Nat) (skippable : List Nat)
    (hbelow : ∀ before ∈ overlapPrefix, ∀ chunk ∈ chunks,
      before.sequenceNumber < chunk.sequenceNumber) :
    (∀ forceFinal, InOrder (buildReadyWindows settings conversation chunks startIndex forceFinal
      overlapPrefix skippable)) ↔
      FirstsLeftBehind settings conversation
        (Building.start settings (overlapOf overlapPrefix) startIndex)
        (reachableSemanticPrefix (ordered chunks) skippable) := by
  have huseful : ∀ chunk ∈ overlapOf overlapPrefix, chunk.useful = true :=
    fun chunk hmem => List.of_mem_filter hmem
  have hincreasing : Increasing (overlapOf overlapPrefix) :=
    (increasing_orderedUnique overlapPrefix).sublist List.filter_sublist
  have hunderWay := UnderWay.start settings huseful hincreasing startIndex
  have hended : Ended (overlapOf overlapPrefix)
      (Building.start settings (overlapOf overlapPrefix) startIndex) :=
    ⟨fun hne => absurd rfl hne, .nil, fun _ h => absurd h List.not_mem_nil,
      fun _ h => absurd h List.not_mem_nil⟩
  have hseen := increasing_overlap_append_reachable hbelow skippable
  unfold buildReadyWindows
  dsimp only
  split
  · next hnone =>
    rw [hnone]
    exact iff_of_true (fun _ => inOrder_of_pairwise .nil .nil) trivial
  · obtain ⟨hrun, hendedRun⟩ := UnderWay.run settings conversation
      (fun hunderWay hafter hinv => Ended.step hunderWay hafter hinv) hunderWay hended hseen
    have hstart : (Building.start settings (overlapOf overlapPrefix) startIndex).starts.Pairwise
        (· < ·) := by
      change (((overlapOf overlapPrefix).take 1).map Chunk.sequenceNumber).Pairwise _
      cases overlapOf overlapPrefix with
      | nil => exact .nil
      | cons first rest => exact List.pairwise_singleton _ _
    have hstarts := starts_run settings conversation hunderWay hended hseen
    rw [and_iff_right hstart] at hstarts
    refine Iff.trans ⟨fun h => ?_, fun h forceFinal => ?_⟩ hstarts
    · exact starts_of_inOrder_finish hrun hendedRun (h true)
    · exact inOrder_finish hrun hendedRun h

theorem inOrder_sample :
    InOrder (buildReadyWindows {} {} [spoken 1 "we left"] 1 true [spoken 0 "and then"] []) := by
  refine (inOrder_iff {} {} [spoken 1 "we left"] [spoken 0 "and then"] 1 [] (by decide)).mpr ?_ true
  have hreachable : reachableSemanticPrefix (ordered [spoken 1 "we left"]) [] =
      [spoken 1 "we left"] := by decide
  rw [hreachable]
  refine ⟨fun hclosing => absurd ?_ hclosing, trivial⟩
  decide +kernel

def longChunks : List Chunk :=
  [{ spoken 0 "hello there" with endTimeMs := some 2400000 },
    { spoken 1 "good bye" with endTimeMs := some 2400000 }]

/-- The first makes a window of few tokens, all of which the second window takes over. -/
theorem windows_start_together :
    (buildReadyWindows {} {} longChunks 0 true [] []).map (·.window.sequenceStart) = [0, 0] ∧
      (buildReadyWindows {} {} longChunks 0 true [] []).map (·.window.sequenceEnd) = [0, 1] ∧
      ¬InOrder (buildReadyWindows {} {} longChunks 0 true [] []) := by
  have hstarts : (buildReadyWindows {} {} longChunks 0 true [] []).map
      (·.window.sequenceStart) = [0, 0] := by decide +kernel
  refine ⟨hstarts, by decide +kernel, fun h => ?_⟩
  have hordered := h.starts
  rw [hstarts] at hordered
  exact absurd hordered (by decide)

end AiBuddy.Conversation.Session
