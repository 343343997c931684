import AiBuddy.MeetingPipeline.Verifier

/-!
# What the verifier publishes

An accepted artifact is what the last review request for its claim said, and the row that speaks
for it comes from the reply to that request. The log of calls is only looked at through
`lastReview`, so that a call about other claims is a frame condition.
-/

namespace AiBuddy.MeetingPipeline

variable {casefold : String → String} {replies : Replies}
variable {sequenceText : Int → Option String} {budget : Nat}

def reviews (log : List Call) : List (List ReviewItem × ReviewReply) :=
  log.filterMap fun call =>
    match call with
    | .review request reply => some (request, reply)
    | .repair _ _ => none

def lastReview (log : List Call) (key : String) : Option (List ReviewItem × ReviewReply) :=
  (reviews log).reverse.find? fun review => key ∈ review.1.map (·.artifactKey)

theorem reviews_append {log more : List Call} :
    reviews (log ++ more) = reviews log ++ reviews more := List.filterMap_append

variable {log later : List Call}

theorem reviews_subset (h : log <+: later) : reviews log ⊆ reviews later := by
  obtain ⟨more, rfl⟩ := h
  rw [reviews_append]
  exact List.subset_append_left _ _

@[simp] theorem lastReview_append_review (log : List Call) (request : List ReviewItem)
    (reply : ReviewReply) (key : String) :
    lastReview (log ++ [.review request reply]) key =
      if key ∈ request.map (·.artifactKey) then some (request, reply) else lastReview log key := by
  rw [lastReview, reviews_append, List.reverse_append]
  change List.find? _ ((request, reply) :: (reviews log).reverse) = _
  rw [List.find?_cons]
  by_cases h : key ∈ request.map (·.artifactKey)
  · rw [if_pos h, decide_eq_true h]
  · rw [if_neg h, decide_eq_false h]
    rfl

@[simp] theorem lastReview_append_repair (log : List Call) (item : VerifiedArtifact)
    (reply : RepairReply) (key : String) :
    lastReview (log ++ [.repair item reply]) key = lastReview log key := by
  simp [lastReview, reviews]

theorem map_reviewItem_artifactKey {batch : List ArtifactClaim} :
    (batch.map (reviewItem sequenceText)).map (·.artifactKey) = batch.map (·.artifactKey) := by
  rw [List.map_map]
  rfl

theorem lastReview_append_reviewCall (log prev : List Call) (batch : List ArtifactClaim)
    (key : String) :
    lastReview (log ++ [reviewCall replies sequenceText prev batch]) key =
      if key ∈ batch.map (·.artifactKey) then
        some (batch.map (reviewItem sequenceText), replies.review prev.length)
      else lastReview log key := by
  rw [reviewCall, lastReview_append_review, map_reviewItem_artifactKey]

def OwnRow (request : List ReviewItem) (_items : List VerifierItem) (key : String)
    (row : VerifierItem) : Prop :=
  row.artifactKey = key ∨ request.length = 1

def unanswered (request : List ReviewItem) (items : List VerifierItem) : List ReviewItem :=
  request.filter fun sent => sent.artifactKey ∉ items.map (·.artifactKey)

def foreignRows (request : List ReviewItem) (items : List VerifierItem) : List VerifierItem :=
  items.filter fun item => item.artifactKey ∉ request.map (·.artifactKey)

/-- The row is the claim's own, or the reply leaves out as many of the request's claims as it has
foreign rows, and the row stands among these where the claim stands among those. -/
def MatchedRow (request : List ReviewItem) (items : List VerifierItem) (key : String)
    (row : VerifierItem) : Prop :=
  OwnRow request items key row ∨
    (foreignRows request items).length = (unanswered request items).length ∧
      ∃ i : Nat, (unanswered request items)[i]?.map (·.artifactKey) = some key ∧
        (foreignRows request items)[i]? = some row

def Tied (sequenceText : Int → Option String) (log : List Call) (claim : ArtifactClaim)
    (row : VerifierItem) : Prop :=
  ∃ request items, lastReview log claim.artifactKey = some (request, .items items) ∧
    reviewItem sequenceText claim ∈ request ∧ row ∈ items ∧
    MatchedRow request items claim.artifactKey row

theorem Tied.of_lastReview_eq {claim : ArtifactClaim} {row : VerifierItem}
    (h : Tied sequenceText log claim row)
    (heq : lastReview later claim.artifactKey = lastReview log claim.artifactKey) :
    Tied sequenceText later claim row := by
  rwa [Tied, heq]

def KeyElsewhere (sequenceText : Int → Option String) (log : List Call)
    (batch : List ArtifactClaim) (key : String) : Prop :=
  ∃ request items, (request, ReviewReply.items items) ∈ reviews log ∧
    request ⊆ batch.map (reviewItem sequenceText) ∧ key ∉ request.map (·.artifactKey) ∧
    key ∈ items.map (·.artifactKey)

variable {batch : List ArtifactClaim} {key : String}

theorem KeyElsewhere.mono {part : List ArtifactClaim} (h : KeyElsewhere sequenceText log part key)
    (hlog : log <+: later) (hpart : part ⊆ batch) :
    KeyElsewhere sequenceText later batch key := by
  obtain ⟨request, items, hmem, hsub, hkey, hrow⟩ := h
  exact ⟨request, items, reviews_subset hlog hmem, List.Subset.trans hsub (List.map_subset _ hpart),
    hkey,
    hrow⟩

variable {items : List VerifierItem}

theorem rowsOf_eq_some {row : VerifierItem} (h : rowsOf items key = some row) :
    row ∈ items ∧ row.artifactKey = key := by
  have hmem := List.mem_of_find?_eq_some h
  have hkey := List.find?_some h
  exact ⟨List.mem_reverse.mp hmem, by simpa using hkey⟩

theorem rowsOf_eq_none_iff : rowsOf items key = none ↔ key ∉ items.map (·.artifactKey) := by
  simp [rowsOf, List.find?_eq_none]

theorem map_missingClaims {batch : List ArtifactClaim} {items : List VerifierItem} :
    (missingClaims batch items).map (reviewItem sequenceText) =
      unanswered (batch.map (reviewItem sequenceText)) items := by
  have hsame : ∀ claim : ArtifactClaim,
      (rowsOf items claim.artifactKey).isNone =
        decide (claim.artifactKey ∉ items.map (·.artifactKey)) := by
    intro claim
    rw [Bool.eq_iff_iff, Option.isNone_iff_eq_none, rowsOf_eq_none_iff, decide_eq_true_eq]
  simp only [missingClaims, unanswered, hsame, List.filter_map]
  rfl

theorem strayItems_eq {batch : List ArtifactClaim} {items : List VerifierItem} :
    strayItems batch items = foreignRows (batch.map (reviewItem sequenceText)) items := by
  rw [strayItems, foreignRows, map_reviewItem_artifactKey]

variable {rows : Rows}

theorem foldl_setRow_of_notMem {pairs : List (ArtifactClaim × VerifierItem)}
    (h : key ∉ pairs.map (·.1.artifactKey)) :
    pairs.foldl (fun rows pair => setRow rows pair.1.artifactKey pair.2) rows key = rows key := by
  induction pairs generalizing rows with
  | nil => rfl
  | cons pair rest ih =>
    rw [List.map_cons, List.mem_cons, not_or] at h
    rw [List.foldl_cons, ih h.2, setRow, if_neg h.1]

theorem foldl_setRow_zip {claims : List ArtifactClaim}
    (hnodup : (claims.map (·.artifactKey)).Nodup) (hlength : items.length = claims.length)
    {claim : ArtifactClaim} (hclaim : claim ∈ claims) :
    ∃ i : Nat, claims[i]? = some claim ∧
      (claims.zip items).foldl (fun rows pair => setRow rows pair.1.artifactKey pair.2) rows
        claim.artifactKey = items[i]? := by
  induction claims generalizing items rows with
  | nil => simp at hclaim
  | cons first rest ih =>
    rw [List.map_cons, List.nodup_cons] at hnodup
    cases items with
    | nil => simp at hlength
    | cons item later =>
      have hlater : later.length = rest.length := by simpa using hlength
      rw [List.zip_cons_cons, List.foldl_cons]
      rcases List.mem_cons.mp hclaim with rfl | hrest
      · refine ⟨0, rfl, ?_⟩
        rw [foldl_setRow_of_notMem, setRow, if_pos rfl]
        · rfl
        · intro hmem
          obtain ⟨pair, hpair, hkey⟩ := List.mem_map.mp hmem
          exact hnodup.1 (hkey ▸ List.mem_map_of_mem (List.of_mem_zip hpair).1)
      · obtain ⟨i, hi, hrow⟩ :=
          @ih later (setRow rows first.artifactKey item) hnodup.2 hlater hrest
        exact ⟨i + 1, by simpa using hi, by simpa using hrow⟩

structure Reviewed (keys : List String) (log later : List Call) : Prop where
  extends_log : log <+: later
  frame : ∀ key, key ∉ keys → lastReview later key = lastReview log key

theorem Reviewed.refl (keys : List String) (log : List Call) : Reviewed keys log log :=
  ⟨List.prefix_rfl, fun _ _ => rfl⟩

theorem Reviewed.trans {keys : List String} {next : List Call} (h : Reviewed keys log next)
    (h' : Reviewed keys next later) : Reviewed keys log later :=
  ⟨h.extends_log.trans h'.extends_log, fun key hkey => (h'.frame key hkey).trans (h.frame key hkey)⟩

theorem Reviewed.mono {part keys : List String} (h : Reviewed part log later) (hsub : part ⊆ keys) :
    Reviewed keys log later :=
  ⟨h.extends_log, fun key hkey => h.frame key fun hmem => hkey (hsub hmem)⟩

theorem Reviewed.of_call (batch : List ArtifactClaim) (log : List Call) :
    Reviewed (batch.map (·.artifactKey)) log
      (log ++ [reviewCall replies sequenceText log batch]) :=
  ⟨List.prefix_append _ _, fun key hkey => by rw [lastReview_append_reviewCall, if_neg hkey]⟩

variable {settled : Rows}

theorem retryMissing_spec {missing : List ArtifactClaim}
    (hnodup : (missing.map (·.artifactKey)).Nodup)
    (h : retryMissing replies sequenceText missing rows log = some (settled, later)) :
    Reviewed (missing.map (·.artifactKey)) log later ∧
      (∀ key, key ∉ missing.map (·.artifactKey) → settled key = rows key) ∧
      ∀ claim ∈ missing, settled claim.artifactKey = rows claim.artifactKey ∨
        ∃ row, settled claim.artifactKey = some row ∧ Tied sequenceText later claim row := by
  induction missing generalizing rows log with
  | nil =>
    rw [retryMissing, Option.some.injEq, Prod.mk.injEq] at h
    obtain ⟨rfl, rfl⟩ := h
    exact ⟨.refl _ _, fun _ _ => rfl, by simp⟩
  | cons claim rest ih =>
    rw [List.map_cons, List.nodup_cons] at hnodup
    rw [retryMissing] at h
    have hfirst : Reviewed ((claim :: rest).map (·.artifactKey)) log
        (log ++ [reviewCall replies sequenceText log [claim]]) :=
      (Reviewed.of_call [claim] log).mono (by simp)
    -- The rest of the loop, from the rows that this claim's reply leaves.
    have hrest : ∀ kept : Rows,
        (∀ key, key ≠ claim.artifactKey → kept key = rows key) →
        retryMissing replies sequenceText rest kept
          (log ++ [reviewCall replies sequenceText log [claim]]) =
            some (settled, later) →
        (kept claim.artifactKey = rows claim.artifactKey ∨
          ∃ row, kept claim.artifactKey = some row ∧ Tied sequenceText
            (log ++ [reviewCall replies sequenceText log [claim]])
            claim row) →
        Reviewed ((claim :: rest).map (·.artifactKey)) log later ∧
          (∀ key, key ∉ (claim :: rest).map (·.artifactKey) → settled key = rows key) ∧
          ∀ other ∈ claim :: rest, settled other.artifactKey = rows other.artifactKey ∨
            ∃ row, settled other.artifactKey = some row ∧ Tied sequenceText later other row := by
      intro kept hkept hrun hclaim
      obtain ⟨hreviewed, hsame, hrows⟩ := ih hnodup.2 hrun
      refine ⟨hfirst.trans (hreviewed.mono (List.subset_cons_self _ _)), ?_, ?_⟩
      · intro key hkey
        rw [List.map_cons, List.mem_cons, not_or] at hkey
        rw [hsame key hkey.2, hkept key hkey.1]
      · intro other hother
        rcases List.mem_cons.mp hother with rfl | hmem
        · rw [hsame _ hnodup.1]
          refine hclaim.imp_right ?_
          rintro ⟨row, hrow, htied⟩
          exact ⟨row, hrow, htied.of_lastReview_eq (hreviewed.frame _ hnodup.1)⟩
        · have hne : other.artifactKey ≠ claim.artifactKey :=
            fun heq => hnodup.1 (heq ▸ List.mem_map_of_mem hmem)
          rw [← hkept _ hne]
          exact hrows other hmem
    cases hreply : replies.review log.length with
    | hardError => simp [hreply] at h
    | error =>
      rw [hreply] at h
      exact hrest rows (fun _ _ => rfl) h (.inl rfl)
    | items items =>
      cases items with
      | nil =>
        rw [hreply] at h
        exact hrest rows (fun _ _ => rfl) h (.inl rfl)
      | cons first more =>
        rw [hreply] at h
        refine hrest _ (fun key hkey => by rw [setRow, if_neg hkey]) h (.inr ⟨first, ?_, ?_⟩)
        · rw [setRow, if_pos rfl]
        · refine ⟨_, first :: more, ?_, List.mem_singleton_self _, by simp, .inl (.inr rfl)⟩
          rw [lastReview_append_reviewCall, if_pos (by simp), hreply]
          rfl

theorem settleReply_spec (hnodup : (batch.map (·.artifactKey)).Nodup)
    (hreply : replies.review log.length = .items items)
    (h : settleReply replies sequenceText batch items
      (log ++ [reviewCall replies sequenceText log batch]) = some (settled, later)) :
    Reviewed (batch.map (·.artifactKey))
        (log ++ [reviewCall replies sequenceText log batch]) later ∧
      (∀ claim ∈ batch, ∀ row, settled claim.artifactKey = some row →
        Tied sequenceText later claim row) ∧
      ∀ key, key ∉ batch.map (·.artifactKey) → settled key = rowsOf items key := by
  have hmissing : missingClaims batch items ⊆ batch := List.filter_subset_self _
  have hmissingNodup : ((missingClaims batch items).map (·.artifactKey)).Nodup :=
    hnodup.sublist (List.filter_sublist.map _)
  have hasked : ∀ claim ∈ batch, ∀ row,
      row ∈ items → MatchedRow (batch.map (reviewItem sequenceText)) items claim.artifactKey row →
        Tied sequenceText (log ++ [reviewCall replies sequenceText log batch]) claim row := by
    intro claim hclaim row hrow hmatched
    refine ⟨_, items, ?_, List.mem_map_of_mem hclaim, hrow, hmatched⟩
    rw [lastReview_append_reviewCall, if_pos (List.mem_map_of_mem hclaim), hreply]
  have hanswered : ∀ claim ∈ batch, claim ∉ missingClaims batch items →
      claim.artifactKey ∉ (missingClaims batch items).map (·.artifactKey) := by
    intro claim hclaim hnot hmem
    obtain ⟨other, hother, hkey⟩ := List.mem_map.mp hmem
    exact hnot (List.inj_on_of_nodup_map hnodup (hmissing hother) hclaim hkey ▸ hother)
  have hoff : ∀ key, key ∉ batch.map (·.artifactKey) →
      key ∉ (missingClaims batch items).map (·.artifactKey) :=
    fun key hkey hmem => hkey (List.map_subset _ hmissing hmem)
  have hown : ∀ claim ∈ batch, ∀ row, rowsOf items claim.artifactKey = some row →
      Tied sequenceText (log ++ [reviewCall replies sequenceText log batch]) claim row := by
    intro claim hclaim row hrow
    obtain ⟨hmem, hkey⟩ := rowsOf_eq_some hrow
    exact hasked claim hclaim row hmem (.inl (.inl hkey))
  unfold settleReply at h
  dsimp only at h
  split at h
  next hstray =>
    -- Rows of foreign keys stand in for the missing claims, position by position.
    rw [Option.some.injEq, Prod.mk.injEq] at h
    obtain ⟨rfl, rfl⟩ := h
    have hzip : ∀ key, key ∉ (missingClaims batch items).map (·.artifactKey) →
        key ∉ ((missingClaims batch items).zip (strayItems batch items)).map (·.1.artifactKey) := by
      intro key hkey hmem
      obtain ⟨pair, hpair, heq⟩ := List.mem_map.mp hmem
      exact hkey (heq ▸ List.mem_map_of_mem (List.of_mem_zip hpair).1)
    refine ⟨.refl _ _, ?_, ?_⟩
    · intro claim hclaim row hrow
      by_cases hmiss : claim ∈ missingClaims batch items
      · obtain ⟨i, hi, heq⟩ := foldl_setRow_zip hmissingNodup hstray.2 hmiss
        rw [heq] at hrow
        refine hasked claim hclaim row ?_ (.inr ⟨?_, i, ?_, ?_⟩)
        · exact List.mem_of_mem_filter (List.mem_of_getElem? hrow)
        · rw [← map_missingClaims, ← strayItems_eq, List.length_map, hstray.2]
        · rw [← map_missingClaims, List.getElem?_map, hi]
          rfl
        · rw [← strayItems_eq, hrow]
      · rw [foldl_setRow_of_notMem (hzip _ (hanswered claim hclaim hmiss))] at hrow
        exact hown claim hclaim row hrow
    · intro key hkey
      exact foldl_setRow_of_notMem (hzip key (hoff key hkey))
  next =>
    obtain ⟨hreviewed, hsame, hrows⟩ := retryMissing_spec hmissingNodup h
    refine ⟨hreviewed.mono (List.map_subset _ hmissing), ?_,
      fun key hkey => hsame key (hoff key hkey)⟩
    intro claim hclaim row hrow
    by_cases hmiss : claim ∈ missingClaims batch items
    · have hnone : rowsOf items claim.artifactKey = none := by
        simpa using (List.mem_filter.mp hmiss).2
      rcases hrows claim hmiss with heq | ⟨other, hother, htied⟩
      · rw [hrow, hnone] at heq
        cases heq
      · rw [hrow, Option.some.injEq] at hother
        exact hother ▸ htied
    · have hnotMem := hanswered claim hclaim hmiss
      rw [hsame _ hnotMem] at hrow
      exact (hown claim hclaim row hrow).of_lastReview_eq (hreviewed.frame _ hnotMem)

theorem mem_reviews_append_reviewCall {log : List Call} {batch : List ArtifactClaim} :
    (batch.map (reviewItem sequenceText), replies.review log.length) ∈
      reviews (log ++ [reviewCall replies sequenceText log batch]) := by
  rw [reviews_append]
  exact List.mem_append_right _ (List.mem_singleton_self _)

/-- A row comes from the reply to the last request for its claim. Only a batch that was split can
mix the halves up: one half's reply may have a row with the key of a claim of the other half. -/
theorem reviewResilient_spec (hnodup : (batch.map (·.artifactKey)).Nodup)
    (h : reviewResilient replies sequenceText batch log = some (settled, later)) :
    Reviewed (batch.map (·.artifactKey)) log later ∧
      (∀ claim ∈ batch, ∀ row, settled claim.artifactKey = some row →
        Tied sequenceText later claim row ∨
          ((batch.map (reviewItem sequenceText), ReviewReply.error) ∈ reviews later ∧
            KeyElsewhere sequenceText later batch claim.artifactKey)) ∧
      ∀ key, key ∉ batch.map (·.artifactKey) → ∀ row, settled key = some row →
        KeyElsewhere sequenceText later batch key := by
  induction hn : batch.length using Nat.strong_induction_on
    generalizing batch settled log later with
  | _ n ih =>
  have hcall : (batch.map (reviewItem sequenceText), replies.review log.length) ∈
      reviews (log ++ [reviewCall replies sequenceText log batch]) :=
    mem_reviews_append_reviewCall
  rw [reviewResilient] at h
  cases hreply : replies.review log.length with
  | hardError => simp [hreply] at h
  | items items =>
    simp only [hreply] at h
    obtain ⟨hreviewed, hrows, hoff⟩ := settleReply_spec hnodup hreply h
    refine ⟨(Reviewed.of_call batch log).trans hreviewed,
      fun claim hclaim row hrow => .inl (hrows claim hclaim row hrow), ?_⟩
    intro key hkey row hrow
    rw [hoff key hkey] at hrow
    obtain ⟨hmem, rfl⟩ := rowsOf_eq_some hrow
    refine ⟨_, items, reviews_subset hreviewed.extends_log (hreply ▸ hcall), List.Subset.refl _, ?_,
      List.mem_map_of_mem hmem⟩
    rwa [map_reviewItem_artifactKey]
  | error =>
    simp only [hreply] at h
    split at h
    · cases h
    next hlong =>
    simp only [Option.bind_eq_some_iff, Option.map_eq_some_iff, Prod.exists, Prod.mk.injEq] at h
    obtain ⟨leftRows, middle, hleft, rightRows, last, hright, rfl, rfl⟩ := h
    have hparts : (batch.take (batch.length / 2)) ++ batch.drop (batch.length / 2) = batch :=
      List.take_append_drop _ _
    have htake : batch.take (batch.length / 2) ⊆ batch := List.take_subset _ _
    have hdrop : batch.drop (batch.length / 2) ⊆ batch := List.drop_subset _ _
    have hkeys := hnodup
    rw [← hparts, List.map_append, List.nodup_append] at hkeys
    obtain ⟨hnodupLeft, hnodupRight, hapart⟩ := hkeys
    obtain ⟨hreviewedLeft, hrowsLeft, hoffLeft⟩ := ih (batch.take (batch.length / 2)).length
      (by rw [List.length_take]; omega) hnodupLeft hleft rfl
    obtain ⟨hreviewedRight, hrowsRight, hoffRight⟩ := ih (batch.drop (batch.length / 2)).length
      (by rw [List.length_drop]; omega) hnodupRight hright rfl
    have hlast := hreviewedLeft.extends_log.trans hreviewedRight.extends_log
    have hsplit : (batch.map (reviewItem sequenceText), ReviewReply.error) ∈ reviews last :=
      reviews_subset hlast (hreply ▸ hcall)
    have hfromLeft : ∀ key, KeyElsewhere sequenceText middle (batch.take (batch.length / 2)) key →
        KeyElsewhere sequenceText last batch key :=
      fun key helse => helse.mono hreviewedRight.extends_log htake
    have hfromRight : ∀ key, KeyElsewhere sequenceText last (batch.drop (batch.length / 2)) key →
        KeyElsewhere sequenceText last batch key :=
      fun key helse => helse.mono List.prefix_rfl hdrop
    refine ⟨(Reviewed.of_call batch log).trans
      ((hreviewedLeft.mono (List.map_subset _ htake)).trans
        (hreviewedRight.mono (List.map_subset _ hdrop))), ?_, ?_⟩
    · intro claim hclaim row hrow
      rw [Option.or_eq_some_iff] at hrow
      rw [← hparts] at hclaim
      rcases List.mem_append.mp hclaim with hin | hin
      · have hkey := List.mem_map_of_mem (f := (·.artifactKey)) hin
        have hnot : claim.artifactKey ∉ (batch.drop (batch.length / 2)).map (·.artifactKey) :=
          fun hmem => hapart _ hkey _ hmem rfl
        rcases hrow with hrow | ⟨-, hrow⟩
        · exact .inr ⟨hsplit, hfromRight _ (hoffRight _ hnot row hrow)⟩
        · rcases hrowsLeft claim hin row hrow with htied | ⟨-, helse⟩
          · exact .inl (htied.of_lastReview_eq (hreviewedRight.frame _ hnot))
          · exact .inr ⟨hsplit, hfromLeft _ helse⟩
      · have hkey := List.mem_map_of_mem (f := (·.artifactKey)) hin
        have hnot : claim.artifactKey ∉ (batch.take (batch.length / 2)).map (·.artifactKey) :=
          fun hmem => hapart _ hmem _ hkey rfl
        rcases hrow with hrow | ⟨-, hrow⟩
        · rcases hrowsRight claim hin row hrow with htied | ⟨-, helse⟩
          · exact .inl htied
          · exact .inr ⟨hsplit, hfromRight _ helse⟩
        · exact .inr ⟨hsplit, hfromLeft _ (hoffLeft _ hnot row hrow)⟩
    · intro key hkey row hrow
      have hnotLeft : key ∉ (batch.take (batch.length / 2)).map (·.artifactKey) :=
        fun hmem => hkey (List.map_subset _ htake hmem)
      have hnotRight : key ∉ (batch.drop (batch.length / 2)).map (·.artifactKey) :=
        fun hmem => hkey (List.map_subset _ hdrop hmem)
      rcases Option.or_eq_some_iff.mp hrow with hrow | ⟨-, hrow⟩
      · exact hfromRight key (hoffRight key hnotRight row hrow)
      · exact hfromLeft key (hoffLeft key hnotLeft row hrow)

end AiBuddy.MeetingPipeline
