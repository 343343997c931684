import AiBuddy.Queue.MongoFence.Proofs.SharedDocument

/-!
# When a fenced write is rejected

A fenced write is rejected exactly where its fenced filter accepts no document and the probe
finds a newer one. The probe finds the document that the filter names, except for a transcript
chunk and for the memory of a space.
-/

namespace AiBuddy.Queue.MongoFence

open Mongo Program JobLease

theorem identity_of_probe {base : BaseFilter} (hcovered : base.covered = true) {doc : Document}
    (h : (probeFilter base.filter).accepts doc = true) : base.identity.accepts doc = true := by
  have hfront : ∀ {front back : Filter}, Filter.accepts (front ++ back) doc = true →
      front.accepts doc = true := fun haccepts => (Filter.accepts_append haccepts).1
  cases base with
  | byId id guards => exact h
  | byIdAmong ids => exact h
  | transcriptChunk conversationIds sequenceNumber => cases hcovered
  | summary conversationId => exact h
  | spaceMemory userId spaceId => cases hcovered
  | byFingerprint fingerprint => exact h
  | briefing userId dateKey => exact h
  | goalEvidence goalId sourceType sourceId sourceRevision evidenceKey => exact hfront h
  | goalPeriod goalId periodType periodKey => exact hfront h
  | planVersion goalId version => exact hfront h
  | proposedPlan goalId version => exact hfront h
  | researchSession goalId operationId => exact hfront h

variable {choice : Nat} {α : Type}

variable {s : Store}

section Runs

variable {collides : Document → Document → Bool} {writeCall : WriteCall} {token : Int}
  {collection : Collection} {object : Option LeaseObject} {base : Filter}

theorem select_eq_none_iff {filter : Filter} :
    collection.select choice filter = none ↔ ¬ Found collection filter fun _ => true := by
  constructor
  · rintro hselect ⟨slot, doc, hdoc, haccepts, -⟩
    have hmem := Collection.mem_matching.mpr ⟨hdoc, haccepts⟩
    have hpos : 0 < (collection.matching filter).length := List.length_pos_of_mem hmem
    rw [Collection.select, List.getElem?_eq_none_iff] at hselect
    exact absurd (Nat.mod_lt choice hpos) (Nat.not_lt.mpr hselect)
  · intro hnone
    apply select_of_none
    intro slot doc hdoc
    by_contra haccepts
    exact hnone ⟨slot, doc, hdoc, by simpa using haccepts, rfl⟩

def Justified {α : Type} (collection : Collection) (base : Filter) (token : Int)
    (result : Except WriteError α) : Prop :=
  ∀ logicalKey reason, result = .error (.staleOwnership logicalKey reason) →
    Found collection (probeFilter base) (newer token)

theorem Justified.ok (value : α) : Justified collection base token (.ok value) :=
  fun _ _ heq => nomatch heq

theorem Justified.mongo (error : Mongo.Error) :
    Justified (α := α) collection base token (.error (.mongo error)) := by
  intro _ _ heq
  cases heq

theorem justified_probe :
    Safe (Remote.semantics (Mongo.Performed collides)) Eq (fun _ _ _ => True)
      (fun result s' => s' = s ∧ Justified s.collection base token result)
      (rejectIfNewer object base token).run s := by
  apply Safe.send_bind
  rintro _ reply s₂ rfl ⟨choice, hanswers⟩
  have hstate : s₂ = s := hanswers.state.elim id id
  subst hstate
  refine ⟨True.intro, fun existing hreply => ?_, fun error _ => ⟨rfl, Justified.mongo error⟩⟩
  subst hreply
  have hfound : (s₂.collection.select choice (probeFilter base)).map Prod.snd = existing :=
    Except.ok.inj (congrArg Prod.fst hanswers.of_ok)
  split
  · next hguard =>
    refine ⟨rfl, fun _ _ _ => ?_⟩
    rw [Bool.and_eq_true, decide_eq_true_eq] at hguard
    obtain ⟨doc, rfl⟩ := Option.isSome_iff_exists.mp hguard.1
    obtain ⟨⟨slot, found⟩, hselect, rfl⟩ := Option.map_eq_some_iff.mp hfound
    obtain ⟨hdoc, haccepts⟩ := Collection.select_eq_some hselect
    exact ⟨slot, found, hdoc, haccepts, decide_eq_true hguard.2⟩
  · exact ⟨rfl, Justified.ok ()⟩

theorem state_of_error {command : Mongo.Command α} {error : Mongo.Error}
    (h : (command.run collides choice s).1 = .error error) :
    (command.run collides choice s).2 = s := by
  have hwrite : ∀ {filter : Filter} {update : Update} {upsert : Bool},
      (s.write collides choice filter update upsert).1 = .error error →
        (s.write collides choice filter update upsert).2 = s := by
    intro filter update upsert hfailed
    unfold Store.write at hfailed ⊢
    split at hfailed
    · next hconflicts => rw [if_pos hconflicts]
    · next hconflicts =>
      rw [if_neg hconflicts]
      cases hselect : s.collection.select choice filter with
      | some found =>
        simp only [hselect] at hfailed ⊢
        split at hfailed
        · next hclash => rw [if_pos hclash]
        · cases hfailed
      | none =>
        simp only [hselect] at hfailed ⊢
        split at hfailed
        · next hupsert =>
          rw [if_pos hupsert]
          split at hfailed
          · next hclash => rw [if_pos hclash]
          · cases hfailed
        · next hupsert => rw [if_neg hupsert]
  have hmapped : ∀ {β γ : Type} {written : Except Mongo.Error β} {f : β → γ},
      written.map f = .error error → written = .error error := by
    rintro β γ (failed | value) f hfailed
    · exact congrArg Except.error (Except.error.inj hfailed)
    · cases hfailed
  cases command with
  | findOne filter => rfl
  | updateOne filter update upsert => exact hwrite (hmapped h)
  | findOneAndUpdate filter update upsert returnAfter => exact hwrite (hmapped h)

theorem justified_upsert {command : Mongo.Command α} :
    Safe (Remote.semantics (Mongo.Performed collides)) Eq (fun _ _ _ => True)
      (fun result _ => Justified s.collection base token result)
      (upsertOrReject object base token command).run s := by
  apply Safe.attempt_bind
  apply Safe.send
  rintro _ reply s₂ rfl ⟨choice, hanswers⟩
  refine ⟨True.intro, ?_⟩
  cases reply with
  | ok value => exact Justified.ok value
  | error error =>
    dsimp only [Except.mapError]
    split
    · next hduplicate =>
      have hstate : s₂ = s := by
        generalize hreply : Except.error error = reply at hanswers
        cases hanswers with
        | answered => exact state_of_error hreply.symm
        | unsent =>
          cases hduplicate.symm.trans (congrArg WriteError.mongo (Except.error.inj hreply))
        | unheard =>
          cases hduplicate.symm.trans (congrArg WriteError.mongo (Except.error.inj hreply))
      subst hstate
      refine Safe.then justified_probe (fun _ s' _ => ?_) fun failure s' hprobe => ?_
      · exact Justified.mongo error
      · intro logicalKey reason heq
        exact hprobe.2 logicalKey reason (congrArg Except.error (Except.error.inj heq))
    · exact Justified.mongo error

theorem justified_rest {rest : Unit → Writing α}
    (hrest : ∀ s', s' = s → Safe (Remote.semantics (Mongo.Performed collides)) Eq
      (fun _ _ _ => True) (fun result _ => Justified s.collection base token result)
      (rest ()).run s') :
    Safe (Remote.semantics (Mongo.Performed collides)) Eq (fun _ _ _ => True)
      (fun result _ => Justified s.collection base token result)
      (rejectIfNewer object base token >>= rest).run s :=
  Safe.then justified_probe (fun _ s' hprobe => hrest s' hprobe.1) fun _ _ hprobe =>
    fun logicalKey reason heq =>
      hprobe.2 logicalKey reason (congrArg Except.error (Except.error.inj heq))

theorem write_ok {s' : Store} {filter : Filter} {update : Update}
    {found : Option (Option Document × Document)}
    (h : s.write collides choice filter update false = (.ok found, s')) :
    found = none ∧ s' = s ∧ ¬ Found s.collection filter (fun _ => true) ∨
      ∃ before after, found = some (some before, after) := by
  unfold Store.write at h
  split at h
  · cases h
  · cases hselect : s.collection.select choice filter with
    | some selected =>
      simp only [hselect] at h
      split at h
      · cases h
      · cases h
        exact .inr ⟨_, _, rfl⟩
    | none =>
      simp only [hselect, Bool.false_eq_true, if_false] at h
      cases h
      exact .inl ⟨rfl, rfl, select_eq_none_iff.mp hselect⟩

def Ended (collection : Collection) (base : Filter) (token : Int)
    (result : Except WriteError Unit) : Prop :=
  ∀ logicalKey reason, result = .error (.staleOwnership logicalKey reason) →
    ¬ Found collection (fencedFilter base token) (fun _ => true) ∧
      Found collection (probeFilter base) (newer token)

theorem Ended.of_justified {result : Except WriteError α}
    (hnone : ¬ Found collection (fencedFilter base token) fun _ => true)
    (h : Justified collection base token result) :
    Ended collection base token (result.map fun _ => ()) := by
  intro logicalKey reason heq
  cases result with
  | ok value => cases heq
  | error error =>
    exact ⟨hnone, h logicalKey reason (congrArg Except.error (Except.error.inj heq))⟩

theorem ended_rest {rest : Unit → Writing α}
    (hnone : ¬ Found collection (fencedFilter base token) fun _ => true)
    (hrest : Safe (Remote.semantics (Mongo.Performed collides)) Eq (fun _ _ _ => True)
      (fun result _ => Justified collection base token result) (rest ()).run ⟨collection, []⟩) :
    Safe (Remote.semantics (Mongo.Performed collides)) Eq (fun _ _ _ => True)
      (fun result _ => Ended collection base token result)
      ((rejectIfNewer object base token >>= rest).run >>= fun result =>
        .ret (result.map fun _ => ())) ⟨collection, []⟩ := by
  refine Safe.bind (Safe.mono ?_ fun result _ hend => Ended.of_justified hnone hend)
  apply justified_rest
  rintro _ rfl
  exact hrest

theorem safe_outcome (hlease : leaseFenceToken (some writeCall.object) = .ok (some token)) :
    Safe (Remote.semantics (Mongo.Performed collides)) Eq (fun _ _ _ => True)
      (fun result _ => Ended collection writeCall.base token result) writeCall.outcome
      ⟨collection, []⟩ := by
  have hreturned : ∀ {base : Filter} (s : Store),
      Safe (Remote.semantics (Mongo.Performed collides)) Eq (fun _ _ _ => True)
        (fun result _ => Ended collection base token result) (.ret (.ok ())) s :=
    fun _ _ _ heq => nomatch heq
  cases writeCall with
  | updateOne object base update upsert =>
    have htoken : leaseFenceToken (some object) = .ok (some token) := hlease
    rw [outcome_updateOne htoken]
    rintro _ reply s₂ rfl ⟨choice, hanswers⟩
    refine ⟨True.intro, ?_⟩
    cases reply with
    | error error =>
      intro _ _ heq
      cases heq
    | ok result =>
      have hrun := hanswers.of_ok
      rcases hwrite : Store.write collides choice (fencedFilter base token)
        (withFence update token) false ⟨collection, []⟩ with ⟨failed | found, s'⟩
      · simp only [Mongo.Command.run, hwrite] at hrun
        cases hrun
      · simp only [Mongo.Command.run, hwrite] at hrun
        cases hrun
        rcases write_ok hwrite with ⟨rfl, rfl, hnone⟩ | ⟨before, after, rfl⟩
        · apply ended_rest hnone
          cases upsert with
          | true => exact justified_upsert
          | false => exact Justified.ok _
        · exact hreturned _
  | findOneAndUpdate object base update upsert returnAfter =>
    have htoken : leaseFenceToken (some object) = .ok (some token) := hlease
    rw [outcome_findOneAndUpdate htoken]
    rintro _ reply s₂ rfl ⟨choice, hanswers⟩
    refine ⟨True.intro, ?_⟩
    cases reply with
    | error error =>
      intro _ _ heq
      cases heq
    | ok result =>
      have hrun := hanswers.of_ok
      rcases hwrite : Store.write collides choice (fencedFilter base token)
        (withFence update token) false ⟨collection, []⟩ with ⟨failed | found, s'⟩
      · simp only [Mongo.Command.run, hwrite] at hrun
        cases hrun
      · simp only [Mongo.Command.run, hwrite] at hrun
        cases hrun
        rcases write_ok hwrite with ⟨rfl, rfl, hnone⟩ | ⟨before, after, rfl⟩
        · apply ended_rest hnone
          cases upsert with
          | true => exact justified_upsert
          | false => exact Justified.ok _
        · cases returnAfter <;> exact hreturned _

theorem rejected_of_found (hlease : leaseFenceToken (some writeCall.object) = .ok (some token))
    (hconsistent : (withFence writeCall.update token).conflicts = false)
    (hnone : ¬ Found collection (fencedFilter writeCall.base token) fun _ => true)
    (hnewer : Found collection (probeFilter writeCall.base) (newer token)) :
    Rejected collides writeCall collection := by
  obtain ⟨slot, doc, hdoc, haccepts, hfence⟩ := hnewer
  obtain ⟨choice, hlt, hchoice⟩ :=
    List.getElem_of_mem (Collection.mem_matching.mpr ⟨hdoc, haccepts⟩)
  have hselect : collection.select choice (probeFilter writeCall.base) = some (slot, doc) := by
    rw [Collection.select, Nat.mod_eq_of_lt hlt, List.getElem?_eq_getElem hlt, hchoice]
  have hmiss : collection.select choice (fencedFilter writeCall.base token) = none :=
    select_eq_none_iff.mpr hnone
  have hguard : ((some doc).isSome && decide (documentFence (some doc) > token)) = true := by
    simpa [newer] using hfence
  have hanswered : ∀ {α : Type} (command : Mongo.Command α) (value : α),
      Command.run collides choice command ⟨collection, []⟩ = (.ok value, ⟨collection, []⟩) →
      Remote.semantics (Mongo.Performed collides) (.send command) ⟨collection, []⟩ (.ok value)
        ⟨collection, []⟩ := by
    intro α command value hrun
    have hanswer : Answers Mongo.Error.connection (Command.run collides choice command)
        ⟨collection, []⟩ _ _ := .answered
    rw [hrun] at hanswer
    exact ⟨choice, hanswer⟩
  have hprobe := hanswered (.findOne (probeFilter writeCall.base)) (some doc) (by
    rw [Mongo.Command.run, hselect]
    rfl)
  have hrejects : ∀ {α : Type} (rest : Unit → Writing α),
      ∃ key, Reach (Remote.semantics (Mongo.Performed collides)) Eq
        ((rejectIfNewer (some writeCall.object) writeCall.base token >>= rest).run >>=
          fun result => .ret (result.map fun _ => ())) ⟨collection, []⟩
        (.ret (.error (.staleOwnership key "stale_fence"))) ⟨collection, []⟩ := by
    intro α rest
    refine ⟨writeCall.object.lease.logicalKey, ?_⟩
    have hend : (ExceptT.bindCont rest =<< (ExceptT.bindCont (fun existing : Option Document =>
        (if existing.isSome && documentFence existing > token then
          throw (.staleOwnership (((some writeCall.object).map (·.lease.logicalKey)).getD "job")
            "stale_fence")
        else pure () : Writing Unit)) (.ok (some doc)))) >>= (fun result =>
          .ret (result.map fun _ => ())) =
        (.ret (.error (.staleOwnership writeCall.object.lease.logicalKey "stale_fence")) :
          Program (Remote Mongo.Error Mongo.Command) (Except WriteError Unit)) := by
      simp only [ExceptT.bindCont, hguard, if_true]
      rfl
    refine Reach.head hprobe ?_
    exact hend ▸ .refl
  have hwrite : Store.write collides choice (fencedFilter writeCall.base token)
      (withFence writeCall.update token) false ⟨collection, []⟩ =
        (.ok none, ⟨collection, []⟩) := by
    simp [Store.write, hconsistent, hmiss]
  cases writeCall with
  | updateOne object base update upsert =>
    have htoken : leaseFenceToken (some object) = .ok (some token) := hlease
    have hfirst := hanswered (.updateOne (fencedFilter base token) (withFence update token) false)
      ⟨0, false⟩ (by
        simp only [WriteCall.base, WriteCall.update] at hwrite
        simp [Mongo.Command.run, hwrite, Except.map, updateResult])
    obtain ⟨key, hreach⟩ := hrejects fun _ =>
      if upsert then
        upsertOrReject (some object) base token (.updateOne base (withFence update token) true)
      else pure ⟨0, false⟩
    refine ⟨key, ⟨collection, []⟩, ?_⟩
    rw [outcome_updateOne htoken]
    exact Reach.head hfirst hreach
  | findOneAndUpdate object base update upsert returnAfter =>
    have htoken : leaseFenceToken (some object) = .ok (some token) := hlease
    have hfirst := hanswered (.findOneAndUpdate (fencedFilter base token) (withFence update token)
      false returnAfter) none (by
        simp only [WriteCall.base, WriteCall.update] at hwrite
        simp [Mongo.Command.run, hwrite, Except.map, returned])
    obtain ⟨key, hreach⟩ := hrejects fun _ =>
      if upsert then
        upsertOrReject (some object) base token
          (.findOneAndUpdate base (withFence update token) true returnAfter)
      else pure none
    refine ⟨key, ⟨collection, []⟩, ?_⟩
    rw [outcome_findOneAndUpdate htoken]
    exact Reach.head hfirst hreach

theorem rejected_iff (hlease : leaseFenceToken (some writeCall.object) = .ok (some token))
    (hconsistent : (withFence writeCall.update token).conflicts = false) :
    Rejected collides writeCall collection ↔
      ¬ Found collection (fencedFilter writeCall.base token) (fun _ => true) ∧
        Found collection (probeFilter writeCall.base) (newer token) := by
  constructor
  · rintro ⟨logicalKey, s', hreach⟩
    have hsafe : Safe (Remote.semantics (Mongo.Performed collides)) Eq (fun _ _ _ => True)
        (fun result _ => Ended collection writeCall.base token result) writeCall.outcome
        ⟨collection, []⟩ := safe_outcome hlease
    have hend := hsafe.returned (fun _ _ _ hsame hsame' => hsame.trans hsame') (fun _ => rfl)
      (fun _ _ _ hend _ => hend) hreach
    exact hend logicalKey "stale_fence" rfl
  · rintro ⟨hnone, hnewer⟩
    exact rejected_of_found hlease hconsistent hnone hnewer

end Runs

def sampleChunks : Collection :=
  ⟨[some [("conversationId", .str "c1"), ("sequenceNumber", .int 1), ("sttStatus", .str "PENDING"),
      (fenceField, .int 9)],
    some [("conversationId", .str "c1"), ("sequenceNumber", .int 2),
      ("sttStatus", .str "COMPLETED"), (fenceField, .int 3)]]⟩

/-- `complete_transcript_chunk` of an attempt with a token. -/
def sampleCompletion (sequenceNumber : Int) (token : Int) : WriteCall :=
  .updateOne
    { lease :=
        { logicalKey := "stt.requested|conversation:c1|seq:" ++ sequenceNumber.repr
          owner := "worker-1"
          token := token.repr
          messageId := "1-0"
          eventId := "e1"
          eventType := "stt.requested"
          retryCount := 0 } }
    (BaseFilter.transcriptChunk [.str "c1"] sequenceNumber).filter
    { set := [("rawText", .str "hello"), ("sttStatus", .str "COMPLETED")] } false

end AiBuddy.Queue.MongoFence
