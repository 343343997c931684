import AiBuddy.MeetingPipeline.Proofs.WindowCoverage

/-!
# Every turn has one owner

What the windows own, in their order, are the ids of the turns that are not blank, in increasing
order, where the fragments of one oversize turn count once. A window that owns several turns is not
over the maximum.
-/

namespace AiBuddy.MeetingPipeline

variable {encode : Option (String → Option Nat)} {host : EventPipeline.Host}
variable {conversationId : String} {sizes : WindowSizes}

/-- `ids` are what the windows own, one after the other. The windows of the fragments of one
oversize turn own its id, which counts once. -/
inductive OwnedOnce (oversize : Int → Prop) : List ExtractionWindow → List Int → Prop where
  | nil : OwnedOnce oversize [] []
  | window {windows : List ExtractionWindow} {ids : List Int} (window : ExtractionWindow) :
      OwnedOnce oversize windows ids → window.ownedSequenceIds ≠ [] →
      OwnedOnce oversize (windows ++ [window]) (ids ++ window.ownedSequenceIds)
  | fragments {windows : List ExtractionWindow} {ids : List Int} {id : Int}
      (fragments : List ExtractionWindow) :
      OwnedOnce oversize windows ids → oversize id → fragments ≠ [] →
      (∀ window ∈ fragments, window.ownedSequenceIds = [id]) →
      OwnedOnce oversize (windows ++ fragments) (ids ++ [id])

variable {id : Int}

namespace OwnedOnce

variable {oversize : Int → Prop} {windows : List ExtractionWindow} {ids : List Int}

theorem mem (h : OwnedOnce oversize windows ids) (hid : id ∈ ids) :
    ∃ window ∈ windows, id ∈ window.ownedSequenceIds := by
  induction h with
  | nil => cases hid
  | window window _ _ ih =>
    rcases List.mem_append.mp hid with hold | hnew
    · obtain ⟨other, hother, hmem⟩ := ih hold
      exact ⟨other, List.mem_append_left _ hother, hmem⟩
    · exact ⟨window, List.mem_append_right _ (List.mem_singleton_self _), hnew⟩
  | fragments fragments _ _ hne howned ih =>
    rcases List.mem_append.mp hid with hold | hnew
    · obtain ⟨other, hother, hmem⟩ := ih hold
      exact ⟨other, List.mem_append_left _ hother, hmem⟩
    · obtain ⟨window, hwindow⟩ := List.exists_mem_of_ne_nil fragments hne
      exact ⟨window, List.mem_append_right _ hwindow, howned window hwindow ▸ hnew⟩

theorem last (h : OwnedOnce oversize windows ids) (hid : id ∈ ids.getLast?) :
    ∃ window ∈ windows.getLast?, id ∈ window.ownedSequenceIds := by
  cases h with
  | nil => cases hid
  | window window _ hne =>
    rw [List.getLast?_append_of_ne_nil _ hne] at hid
    exact ⟨window, by simp, List.mem_of_getLast? hid⟩
  | fragments fragments _ _ hne howned =>
    rw [List.getLast?_concat] at hid
    refine ⟨fragments.getLast hne, ?_, ?_⟩
    · rw [List.getLast?_append_of_ne_nil _ hne, List.getLast?_eq_some_getLast hne]
      rfl
    · rw [howned _ (List.getLast_mem hne), Option.some.inj hid]
      exact List.mem_singleton_self _

end OwnedOnce

variable (encode host conversationId sizes) in
theorem flush_waiting (state : WindowState) (waiting : List TranscriptTurn)
    (hcurrent : state.current = state.overlap ++ waiting)
    (huseful : ∀ turn ∈ state.current, turn.isUseful = true) (hwaiting : waiting ≠ [])
    (hapart : ∀ turn ∈ waiting, turn.sequenceId ∉ state.overlapIds) :
    ∃ window, window.sequenceIds = state.current.map (·.sequenceId) ∧
      window.ownedSequenceIds = waiting.map (·.sequenceId) ∧
      window.tokenCount = tokenTotal encode state.current ∧
      flush encode host conversationId sizes state =
        { windows := state.windows ++ [window]
          overlap := tailForOverlap encode state.current sizes.overlapBudget
          current := tailForOverlap encode state.current sizes.overlapBudget
          currentTokens := tokenTotal encode
            (tailForOverlap encode state.current sizes.overlapBudget) } := by
  have hfilter : state.current.filter (·.isUseful) = state.current :=
    List.filter_eq_self.mpr huseful
  have howned : (state.current.map (·.sequenceId)).filter (· ∉ state.overlapIds) =
      waiting.map (·.sequenceId) := by
    rw [hcurrent, List.map_append, List.filter_append]
    have hnone : (state.overlap.map (·.sequenceId)).filter (· ∉ state.overlapIds) = [] :=
      List.filter_eq_nil_iff.mpr fun id hid => by simpa [WindowState.overlapIds] using hid
    have hall : (waiting.map (·.sequenceId)).filter (· ∉ state.overlapIds) =
        waiting.map (·.sequenceId) := by
      refine List.filter_eq_self.mpr fun id hid => ?_
      obtain ⟨turn, hturn, rfl⟩ := List.mem_map.mp hid
      exact decide_eq_true (hapart turn hturn)
    rw [hnone, hall, List.nil_append]
  obtain ⟨turn, hturn⟩ := List.exists_mem_of_ne_nil waiting hwaiting
  have hmem : turn ∈ state.current := hcurrent ▸ List.mem_append_right _ hturn
  unfold flush
  rw [hfilter]
  generalize state.current = current at hmem howned
  cases current with
  | nil => cases hmem
  | cons first rest =>
    dsimp only
    rw [if_neg fun hall => hapart turn hturn (hall turn hmem)]
    exact ⟨_, rfl, howned, rfl, rfl⟩

theorem flushFragments_of_overlap {fragments : List TranscriptTurn} {state : WindowState}
    (hcurrent : state.current = state.overlap)
    (htokens : state.currentTokens = tokenTotal encode state.overlap)
    (huseful : ∀ fragment ∈ fragments, fragment.isUseful = true)
    (hids : ∀ fragment ∈ fragments, fragment.sequenceId ∈ state.overlapIds) :
    fragments.foldl (flushFragment encode host conversationId sizes) state = state := by
  induction fragments with
  | nil => rfl
  | cons fragment rest ih =>
    rw [List.forall_mem_cons] at huseful hids
    have hfilter : [fragment].filter (·.isUseful) = [fragment] := by simp [huseful.1]
    have hstep : flushFragment encode host conversationId sizes state fragment = state := by
      unfold flushFragment flush
      rw [hfilter]
      dsimp only
      have hall : ∀ turn ∈ [fragment], turn.sequenceId ∈ state.overlapIds :=
        fun turn hturn => (List.mem_singleton.mp hturn) ▸ hids.1
      refine (if_pos hall).trans ?_
      obtain ⟨windows, overlap, current, tokens⟩ := state
      obtain rfl : current = overlap := hcurrent
      obtain rfl : tokens = tokenTotal encode current := htokens
      rfl
    rw [List.foldl_cons, hstep]
    exact ih huseful.2 hids.2

variable (encode host conversationId sizes) in
theorem flushFragments_owned {fragments : List TranscriptTurn} (state : WindowState)
    (hne : fragments ≠ []) (hoverlap : state.overlap = [])
    (huseful : ∀ fragment ∈ fragments, fragment.isUseful = true)
    (hid : ∀ fragment ∈ fragments, fragment.sequenceId = id) :
    ∃ windows overlap, windows ≠ [] ∧
      (∀ window ∈ windows, window.sequenceIds = [id] ∧ window.ownedSequenceIds = [id]) ∧
      overlap ⊆ fragments ∧
      fragments.foldl (flushFragment encode host conversationId sizes) state =
        { windows := state.windows ++ windows, overlap, current := overlap
          currentTokens := tokenTotal encode overlap } := by
  induction fragments generalizing state with
  | nil => exact absurd rfl hne
  | cons fragment rest ih =>
    rw [List.forall_mem_cons] at huseful hid
    have hflush := flush_waiting encode host conversationId sizes { state with
        current := [fragment], currentTokens := usefulTokenCount encode fragment } [fragment]
      (by rw [hoverlap, List.nil_append]) (by simpa using huseful.1) (List.cons_ne_nil _ _)
      (by simp [WindowState.overlapIds, hoverlap])
    obtain ⟨window, hids, howned, -, hflush⟩ := hflush
    have hown : window.sequenceIds = [id] ∧ window.ownedSequenceIds = [id] :=
      ⟨by rw [hids, ← hid.1]; rfl, by rw [howned, ← hid.1]; rfl⟩
    have htail : tailForOverlap encode [fragment] sizes.overlapBudget ⊆ fragment :: rest :=
      fun turn hturn => List.mem_cons.mpr
        (.inl (List.mem_singleton.mp (tailForOverlap_subset _ _ hturn)))
    rw [List.foldl_cons, flushFragment, hflush]
    by_cases hlast : rest = []
    · subst hlast
      exact ⟨[window], _, List.cons_ne_nil _ _, by simpa using hown, htail, rfl⟩
    · by_cases hbudget : sizes.overlapBudget = 0
      · rw [tailForOverlap_of_zero _ hbudget]
        obtain ⟨windows, overlap, -, howns, hsubset, hfold⟩ :=
          ih ⟨state.windows ++ [window], [], [], tokenTotal encode []⟩ hlast rfl huseful.2 hid.2
        refine ⟨window :: windows, overlap, List.cons_ne_nil _ _, ?_, ?_, ?_⟩
        · exact List.forall_mem_cons.mpr ⟨hown, howns⟩
        · exact fun turn hturn => List.mem_cons_of_mem _ (hsubset hturn)
        · rw [hfold, List.append_assoc]
          rfl
      · refine ⟨[window], _, List.cons_ne_nil _ _, by simpa using hown, htail, ?_⟩
        -- The overlap is the first fragment, so nothing owns the later ones.
        obtain ⟨first, hfirst⟩ := List.exists_mem_of_ne_nil _
          (@tailForOverlap_ne_nil encode _ _ (List.cons_ne_nil fragment []) hbudget)
        have hfirstId : first.sequenceId = id :=
          (List.mem_singleton.mp (tailForOverlap_subset _ _ hfirst)) ▸ hid.1
        refine flushFragments_of_overlap rfl rfl huseful.2 fun other hother => ?_
        rw [hid.2 other hother, ← hfirstId]
        exact List.mem_map_of_mem hfirst

/-- The state of the loop after the turns `done`: the overlap, then the turns that wait for the
window that will own them. -/
structure Owning (encode : Option (String → Option Nat)) (sizes : WindowSizes)
    (oversize : Int → Prop) (done : List TranscriptTurn) (state : WindowState)
    (waiting : List TranscriptTurn) (owned : List Int) : Prop where
  current : state.current = state.overlap ++ waiting
  tokens : state.currentTokens = tokenTotal encode state.current
  useful : ∀ turn ∈ state.current, turn.isUseful = true
  overlap : ∀ turn ∈ state.overlap, turn.sequenceId ∈ done.map (·.sequenceId)
  apart : ∀ turn ∈ waiting, turn.sequenceId ∉ state.overlapIds
  once : OwnedOnce oversize state.windows owned
  ids : owned ++ waiting.map (·.sequenceId) = done.map (·.sequenceId)
  fits : 2 ≤ waiting.length → state.currentTokens ≤ sizes.maximum
  counted : ∀ window ∈ state.windows, 2 ≤ window.ownedSequenceIds.length →
    window.tokenCount ≤ sizes.maximum
  listed : ∀ window ∈ state.windows, ∀ id ∈ window.sequenceIds, id ∈ done.map (·.sequenceId)
  owns : ∀ window ∈ state.windows, window.ownedSequenceIds ⊆ window.sequenceIds

variable {oversize : Int → Prop} {done waiting : List TranscriptTurn} {state : WindowState}
  {owned : List Int}

variable (encode sizes oversize) in
theorem Owning.start : Owning encode sizes oversize [] {} [] [] :=
  ⟨rfl, rfl, by simp, by simp, by simp, .nil, rfl, by simp, by simp, by simp, by simp⟩

theorem Owning.ownedExists (h : Owning encode sizes oversize done state waiting owned) :
    state.ownedExists = true ↔ waiting ≠ [] := by
  rw [WindowState.ownedExists, h.current, List.any_append, Bool.or_eq_true, List.any_eq_true,
    List.any_eq_true]
  constructor
  · rintro (⟨turn, hturn, hnot⟩ | ⟨turn, hturn, -⟩)
    · exact absurd (List.mem_map_of_mem hturn) (of_decide_eq_true hnot)
    · exact List.ne_nil_of_mem hturn
  · intro hne
    obtain ⟨turn, hturn⟩ := List.exists_mem_of_ne_nil waiting hne
    exact .inr ⟨turn, hturn, decide_eq_true (h.apart turn hturn)⟩

variable (host conversationId) in
theorem Owning.flush (h : Owning encode sizes oversize done state waiting owned)
    (hwaiting : waiting ≠ []) :
    Owning encode sizes oversize done (flush encode host conversationId sizes state) []
      (done.map (·.sequenceId)) := by
  obtain ⟨window, hids, howned, hcount, hflush⟩ :=
    flush_waiting encode host conversationId sizes state waiting h.current h.useful hwaiting h.apart
  have htail : tailForOverlap encode state.current sizes.overlapBudget ⊆ state.current :=
    tailForOverlap_subset _ _
  have hdone : ∀ turn ∈ state.current, turn.sequenceId ∈ done.map (·.sequenceId) := by
    intro turn hturn
    rw [h.current] at hturn
    rcases List.mem_append.mp hturn with hoverlap | hwaits
    · exact h.overlap turn hoverlap
    · rw [← h.ids]
      exact List.mem_append_right _ (List.mem_map_of_mem hwaits)
  rw [hflush]
  constructor
  · exact (List.append_nil _).symm
  · rfl
  · exact fun turn hturn => h.useful turn (htail hturn)
  · exact fun turn hturn => hdone turn (htail hturn)
  · exact fun turn hturn => absurd hturn List.not_mem_nil
  · rw [← h.ids, ← howned]
    exact h.once.window window (by rw [howned]; simpa using hwaiting)
  · exact List.append_nil _
  · exact fun htwo => absurd htwo (by simp)
  · rw [List.forall_mem_append]
    refine ⟨h.counted, fun other hother htwo => ?_⟩
    rw [List.mem_singleton.mp hother] at htwo ⊢
    rw [hcount, ← h.tokens]
    exact h.fits (by simpa [howned] using htwo)
  · rw [List.forall_mem_append]
    refine ⟨h.listed, fun other hother id hid => ?_⟩
    rw [List.mem_singleton.mp hother, hids] at hid
    obtain ⟨turn, hturn, rfl⟩ := List.mem_map.mp hid
    exact hdone turn hturn
  · rw [List.forall_mem_append]
    refine ⟨h.owns, fun other hother => ?_⟩
    rw [List.mem_singleton.mp hother, hids, howned, h.current, List.map_append]
    exact List.subset_append_right _ _

variable (host conversationId) in
theorem Owning.makeRoom (h : Owning encode sizes oversize done state waiting owned)
    (tokens : Nat) :
    ∃ waiting owned, Owning encode sizes oversize done
        (makeRoom encode host conversationId sizes state tokens) waiting owned ∧
      (waiting ≠ [] → (AiBuddy.MeetingPipeline.makeRoom encode host conversationId sizes state
        tokens).currentTokens + tokens ≤ sizes.maximum) := by
  unfold AiBuddy.MeetingPipeline.makeRoom
  split
  case isTrue hroom =>
    exact ⟨[], _, h.flush host conversationId (h.ownedExists.mp hroom.1),
      fun hne => absurd rfl hne⟩
  case isFalse hroom =>
    split
    case isTrue htarget =>
      exact ⟨[], _, h.flush host conversationId (h.ownedExists.mp htarget.1),
        fun hne => absurd rfl hne⟩
    case isFalse =>
      refine ⟨waiting, owned, h, fun hne => ?_⟩
      by_contra hover
      exact hroom ⟨h.ownedExists.mpr hne, by omega⟩

theorem tokenTotal_append (turns more : List TranscriptTurn) :
    tokenTotal encode (turns ++ more) = tokenTotal encode turns + tokenTotal encode more := by
  rw [tokenTotal, List.map_append, List.sum_append, tokenTotal, tokenTotal]

variable {turn : TranscriptTurn}

theorem Owning.push (h : Owning encode sizes oversize done state waiting owned)
    (huseful : turn.isUseful = true) (hnew : turn.sequenceId ∉ done.map (·.sequenceId))
    (hroom : waiting ≠ [] → state.currentTokens + usefulTokenCount encode turn ≤ sizes.maximum) :
    Owning encode sizes oversize (done ++ [turn])
      { state with
        current := state.current ++ [turn]
        currentTokens := state.currentTokens + usefulTokenCount encode turn }
      (waiting ++ [turn]) owned := by
  have hold : ∀ id ∈ done.map (·.sequenceId), id ∈ (done ++ [turn]).map (·.sequenceId) := by
    intro id hid
    rw [List.map_append]
    exact List.mem_append_left _ hid
  constructor
  · rw [h.current, List.append_assoc]
  · rw [tokenTotal_append, ← h.tokens]
    simp [tokenTotal]
  · exact List.forall_mem_append.mpr ⟨h.useful, by simpa using huseful⟩
  · exact fun other hother => hold _ (h.overlap other hother)
  · refine List.forall_mem_append.mpr ⟨h.apart, fun other hother hmem => ?_⟩
    rw [List.mem_singleton.mp hother] at hmem
    obtain ⟨same, hsame, heq⟩ := List.mem_map.mp hmem
    exact hnew (heq ▸ h.overlap same hsame)
  · exact h.once
  · rw [List.map_append, ← List.append_assoc, h.ids, List.map_append]
  · intro htwo
    refine hroom fun hnil => ?_
    rw [hnil] at htwo
    exact absurd htwo (by simp)
  · exact h.counted
  · exact fun window hwindow id hid => hold id (h.listed window hwindow id hid)
  · exact h.owns

variable (host conversationId) in
theorem Owning.split (h : Owning encode sizes oversize done state waiting owned)
    (hempty : state.current = []) (huseful : turn.isUseful = true)
    (hlong : oversize turn.sequenceId) :
    Owning encode sizes oversize (done ++ [turn])
      ((splitOversizeTurn encode sizes.maximum turn).foldl
        (flushFragment encode host conversationId sizes) state) []
      ((done ++ [turn]).map (·.sequenceId)) := by
  have hnone : state.overlap = [] ∧ waiting = [] := by
    rw [h.current] at hempty
    exact List.append_eq_nil_iff.mp hempty
  obtain ⟨hne, hfragments⟩ := splitOversizeTurn_spec encode sizes.maximum huseful
  obtain ⟨windows, overlap, hwindows, howns, hsubset, hfold⟩ :=
    flushFragments_owned encode host conversationId sizes state hne hnone.1
      (fun fragment hmem => (hfragments fragment hmem).1)
      fun fragment hmem => (hfragments fragment hmem).2
  have hthis : turn.sequenceId ∈ (done ++ [turn]).map (·.sequenceId) :=
    List.mem_map_of_mem (List.mem_append_right _ (List.mem_singleton_self _))
  have hids : owned = done.map (·.sequenceId) := by
    rw [← h.ids, hnone.2, List.map_nil, List.append_nil]
  rw [hfold]
  constructor
  · exact (List.append_nil _).symm
  · rfl
  · exact fun item hitem => (hfragments item (hsubset hitem)).1
  · exact fun item hitem => (hfragments item (hsubset hitem)).2 ▸ hthis
  · exact fun item hitem => absurd hitem List.not_mem_nil
  · rw [List.map_append, ← hids]
    exact h.once.fragments windows hlong hwindows fun window hwindow => (howns window hwindow).2
  · exact List.append_nil _
  · exact fun htwo => absurd htwo (by simp)
  · refine List.forall_mem_append.mpr ⟨h.counted, fun window hwindow htwo => ?_⟩
    rw [(howns window hwindow).2] at htwo
    exact absurd htwo (by simp)
  · refine List.forall_mem_append.mpr ⟨fun window hwindow id hid => ?_,
      fun window hwindow id hid => ?_⟩
    · rw [List.map_append]
      exact List.mem_append_left _ (h.listed window hwindow id hid)
    · rw [(howns window hwindow).1, List.mem_singleton] at hid
      exact hid ▸ hthis
  · refine List.forall_mem_append.mpr ⟨h.owns, fun window hwindow => ?_⟩
    rw [(howns window hwindow).1, (howns window hwindow).2]
    exact List.Subset.refl _

variable (host conversationId) in
theorem Owning.addTurn (h : Owning encode sizes oversize done state waiting owned)
    (huseful : turn.isUseful = true) (hnew : turn.sequenceId ∉ done.map (·.sequenceId))
    (hlong : sizes.maximum < usefulTokenCount encode turn → oversize turn.sequenceId) :
    ∃ waiting owned, Owning encode sizes oversize (done ++ [turn])
      (addTurn encode host conversationId sizes state turn) waiting owned := by
  obtain ⟨waits, owns, hroom, hfits⟩ :=
    h.makeRoom host conversationId (usefulTokenCount encode turn)
  unfold AiBuddy.MeetingPipeline.addTurn
  dsimp only
  rw [if_neg (usefulTokenCount_ne_zero huseful)]
  split
  case isTrue hsplit => exact ⟨[], _, hroom.split host conversationId hsplit.2 huseful
    (hlong hsplit.1)⟩
  case isFalse => exact ⟨_, _, hroom.push huseful hnew hfits⟩

variable (host conversationId) in
theorem Owning.foldl {rest : List TranscriptTurn}
    (h : Owning encode sizes oversize done state waiting owned)
    (huseful : ∀ turn ∈ rest, turn.isUseful = true)
    (hids : ((done ++ rest).map (·.sequenceId)).Nodup)
    (hlong : ∀ turn ∈ rest, sizes.maximum < usefulTokenCount encode turn →
      oversize turn.sequenceId) :
    ∃ waiting owned, Owning encode sizes oversize (done ++ rest)
      (rest.foldl (AiBuddy.MeetingPipeline.addTurn encode host conversationId sizes) state)
      waiting owned := by
  induction rest generalizing done state waiting owned with
  | nil => exact ⟨waiting, owned, by simpa using h⟩
  | cons turn rest ih =>
    rw [List.forall_mem_cons] at huseful hlong
    have hnew : turn.sequenceId ∉ done.map (·.sequenceId) := by
      rw [List.map_append, List.nodup_append] at hids
      intro hmem
      exact hids.2.2 _ hmem _ List.mem_cons_self rfl
    obtain ⟨waits, owns, hstep⟩ := h.addTurn host conversationId huseful.1 hnew hlong.1
    rw [List.foldl_cons]
    have heq : done ++ turn :: rest = (done ++ [turn]) ++ rest := by simp
    rw [heq] at hids ⊢
    exact ih hstep huseful.2 hids hlong.2

theorem packTurns_owned (encode : Option (String → Option Nat)) (host : EventPipeline.Host)
    (conversationId : String) (sizes : WindowSizes) (oversize : Int → Prop)
    {useful : List TranscriptTurn} (huseful : ∀ turn ∈ useful, turn.isUseful = true)
    (hids : (useful.map (·.sequenceId)).Nodup)
    (hlong : ∀ turn ∈ useful, sizes.maximum < usefulTokenCount encode turn →
      oversize turn.sequenceId) :
    ∃ state, Owning encode sizes oversize useful state [] (useful.map (·.sequenceId)) ∧
      packTurns encode host conversationId sizes useful = state.windows := by
  obtain ⟨waiting, owned, h⟩ :=
    (Owning.start encode sizes oversize).foldl host conversationId huseful hids hlong
  rw [List.nil_append] at h
  unfold packTurns
  dsimp only
  generalize useful.foldl (AiBuddy.MeetingPipeline.addTurn encode host conversationId sizes) {} =
    state at h
  by_cases hwaiting : waiting = []
  · subst hwaiting
    have hnone : ¬ state.ownedExists = true := fun howned => h.ownedExists.mp howned rfl
    have howned : owned = useful.map (·.sequenceId) := by
      rw [← h.ids, List.map_nil, List.append_nil]
    rw [if_neg fun hboth => hnone hboth.1]
    exact ⟨state, howned ▸ h, rfl⟩
  · obtain ⟨turn, hturn⟩ := List.exists_mem_of_ne_nil waiting hwaiting
    have hmem : turn ∈ state.current := h.current ▸ List.mem_append_right _ hturn
    have hany : state.current.any (·.isUseful) = true :=
      List.any_eq_true.mpr ⟨turn, hmem, h.useful turn hmem⟩
    rw [if_pos ⟨h.ownedExists.mpr hwaiting, hany⟩]
    exact ⟨_, h.flush host conversationId hwaiting, rfl⟩

theorem usefulTurns_increasing {turns : List TranscriptTurn}
    (hids : (turns.map (·.sequenceId)).Nodup) :
    ((usefulTurns turns).map (·.sequenceId)).Pairwise (· < ·) := by
  have hsorted : (turns.insertionSort fun a b => a.sequenceId ≤ b.sequenceId).Pairwise
      fun a b => a.sequenceId ≤ b.sequenceId :=
    List.pairwise_insertionSort _ _
  have hnodup : ((turns.insertionSort fun a b => a.sequenceId ≤ b.sequenceId).map
      (·.sequenceId)).Nodup :=
    ((turns.perm_insertionSort _).map _).nodup_iff.mpr hids
  rw [List.pairwise_map]
  refine List.Pairwise.sublist List.filter_sublist ?_
  rw [List.Nodup, List.pairwise_map] at hnodup
  exact hsorted.imp₂ (fun a b hle hne => lt_of_le_of_ne hle hne) hnodup

/-- The windows of turns with distinct ids: no coverage error, each useful turn owned once in
increasing order, and no window over the maximum that owns several turns. -/
theorem buildExtractionWindows_owned (encode : Option (String → Option Nat))
    (host : EventPipeline.Host) (conversationId : String) (sizes : WindowSizes)
    (turns : List TranscriptTurn) (hids : (turns.map (·.sequenceId)).Nodup) :
    ∃ windows, buildExtractionWindows encode host conversationId sizes turns = .ok windows ∧
      OwnedOnce
        (fun id => ∃ turn ∈ turns, turn.sequenceId = id ∧
          sizes.maximum < usefulTokenCount encode turn)
        windows ((usefulTurns turns).map (·.sequenceId)) ∧
      ((usefulTurns turns).map (·.sequenceId)).Pairwise (· < ·) ∧
      ∀ window ∈ windows, 2 ≤ window.ownedSequenceIds.length →
        window.tokenCount ≤ sizes.maximum := by
  have hincreasing := usefulTurns_increasing hids
  have hnodup : ((usefulTurns turns).map (·.sequenceId)).Nodup :=
    hincreasing.imp fun hlt => ne_of_lt hlt
  obtain ⟨state, howning, hwindows⟩ := packTurns_owned encode host conversationId sizes
    (fun id => ∃ turn ∈ turns, turn.sequenceId = id ∧
      sizes.maximum < usefulTokenCount encode turn)
    (fun turn hturn => (mem_usefulTurns.mp hturn).2) hnodup
    fun turn hturn hlong => ⟨turn, (mem_usefulTurns.mp hturn).1, rfl, hlong⟩
  refine ⟨state.windows, ?_, howning.once, hincreasing, howning.counted⟩
  unfold buildExtractionWindows
  cases hturns : usefulTurns turns with
  | nil =>
    rw [← hwindows, hturns]
    rfl
  | cons first rest =>
    dsimp only
    rw [← hturns, hwindows, windowCoverageError_eq_none (by simp [hturns])]
    · intro id hid
      obtain ⟨window, hwindow, hmem⟩ := howning.once.mem hid
      exact List.mem_flatMap.mpr ⟨window, hwindow, howning.owns window hwindow hmem⟩
    · intro id hid
      obtain ⟨window, hwindow, hmem⟩ := List.mem_flatMap.mp hid
      exact howning.listed window hwindow id hmem
    · intro id hid
      obtain ⟨window, hwindow, hmem⟩ := howning.once.last hid
      exact ⟨window, hwindow, howning.owns window (List.mem_of_getLast? hwindow) hmem⟩

theorem buildExtractionWindows_owned_sample :
    ∃ windows, buildExtractionWindows none plainHost "" ⟨4, 8, 1⟩
        [⟨2, none, "we ship"⟩, ⟨1, none, "on monday"⟩] = .ok windows ∧
      OwnedOnce
        (fun id => ∃ turn ∈ [⟨2, none, "we ship"⟩, ⟨1, none, "on monday"⟩],
          turn.sequenceId = id ∧ 8 < usefulTokenCount none turn)
        windows ((usefulTurns [⟨2, none, "we ship"⟩, ⟨1, none, "on monday"⟩]).map
          (·.sequenceId)) ∧
      ((usefulTurns [⟨2, none, "we ship"⟩, ⟨1, none, "on monday"⟩]).map
        (·.sequenceId)).Pairwise (· < ·) ∧
      ∀ window ∈ windows, 2 ≤ window.ownedSequenceIds.length → window.tokenCount ≤ 8 :=
  buildExtractionWindows_owned none plainHost "" ⟨4, 8, 1⟩
    [⟨2, none, "we ship"⟩, ⟨1, none, "on monday"⟩] (by decide)

end AiBuddy.MeetingPipeline
