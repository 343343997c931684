import AiBuddy.Queue.Consumer.Deliveries

/-!
# What a delivery writes

What a task may write follows from what it has been told, whatever Redis and the handler answer: a
copy of the event is for a failure, and an acknowledgement is for a copy, a completion marker or a
confirmed owner.
-/

namespace AiBuddy.Queue.Consumer

open Program Redis JobLease

/-- Any command may be answered anything. -/
def hears : Semantics Command (List Fact) :=
  fun command told reply told' => told' = facts command reply ++ told

/-- What a copy of the event is for. -/
def Failed (told : List Fact) : Prop :=
  .unparsed ∈ told ∨ (.raised ∈ told ∧ .unlost ∈ told) ∨
    (.returned ∈ told ∧ .ackFailed ∈ told ∧ ∃ logicalKey, .owner logicalKey ∈ told)

def Settled (told : List Fact) : Prop :=
  .copyAnswered ∈ told ∨ (∃ logicalKey, .completed logicalKey ∈ told) ∨
    (.returned ∈ told ∧ ∃ logicalKey, .owner logicalKey ∈ told)

structure Contract (told : List Fact) : Prop where
  copied : .copied ∈ told → Failed told
  acknowledged : .acknowledged ∈ told → Settled told

/-- The entry that a task is about. One of the retry stream is copied without a failure. -/
structure Entry where
  messageId : Nat
  parsed : Option EventEnvelope
  limit : Int
  isRetry : Bool := false

/-- The lease is for the job of the entry. -/
def Entry.Leases (entry : Entry) (lease : Lease) : Prop :=
  ∃ event, entry.parsed = some event ∧ lease.logicalKey = logicalJobKey event

/-- A copy with an `attempt` that the consumers allow. -/
def CopyWithin (limit : Int) (origin copy : EventEnvelope) : Prop :=
  CopyOf origin copy ∧ copy.attempt ≤ max origin.attempt limit

def Entry.Copies (entry : Entry) (added : Option EventEnvelope) : Prop :=
  ∀ event, entry.parsed = some event → ∃ copy, added = some copy ∧ CopyWithin entry.limit event copy

def May {β : Type} (entry : Entry) (told : List Fact) : Command β → Prop
  | .script (.acquire event _ _) => entry.parsed = some event
  | .script (.renew lease) => entry.Leases lease
  | .script (.complete lease) => .owner lease.logicalKey ∈ told
  | .xadd _ added => (entry.isRetry ∨ Failed told) ∧ entry.Copies added
  | .xack messageId | .xdel _ messageId => messageId = entry.messageId ∧ Settled told
  | _ => True

variable {told told' : List Fact} {host : Host} {entry : Entry} {event : EventEnvelope}
  {lease : Lease}

theorem Failed.mono (h : Failed told) (hsub : told ⊆ told') : Failed told' :=
  h.imp (fun h => hsub h) <| Or.imp (fun h => ⟨hsub h.1, hsub h.2⟩)
    fun ⟨hreturned, hfailed, logicalKey, howner⟩ =>
      ⟨hsub hreturned, hsub hfailed, logicalKey, hsub howner⟩

theorem Settled.mono (h : Settled told) (hsub : told ⊆ told') : Settled told' :=
  h.imp (fun h => hsub h) <| Or.imp (fun ⟨logicalKey, h⟩ => ⟨logicalKey, hsub h⟩)
    fun ⟨hreturned, logicalKey, howner⟩ => ⟨hsub hreturned, logicalKey, hsub howner⟩

theorem May.mono {β : Type} {command : Command β} (h : May entry told command)
    (hsub : told ⊆ told') : May entry told' command := by
  cases command with
  | script called =>
    cases called with
    | complete lease => exact hsub h
    | acquire | renew | release => exact h
  | xadd => exact h.imp_left (Or.imp_right fun hfailed => hfailed.mono hsub)
  | xack | xdel => exact h.imp_right fun hsettled => hsettled.mono hsub
  | handle | lost | settled | lose | preserve | onDeadLetter => trivial

theorem scriptFacts_eq {called : Call} {reply : Except Fault Reply} {fact : Fact}
    (h : fact ∈ scriptFacts called reply) :
    ∃ logicalKey, fact = .completed logicalKey ∨ fact = .owner logicalKey := by
  unfold scriptFacts at h
  split at h
  · split at h
    · exact ⟨_, .inl (List.mem_singleton.mp h)⟩
    · cases h
  · exact ⟨_, .inr (List.mem_singleton.mp h)⟩
  · cases h

/-- What is written is what the command may write. -/
theorem May.written {β : Type} {command : Command β} (hmay : May entry told command)
    (hentry : entry.isRetry = false) (reply : β) :
    (.copied ∈ facts command reply → Failed told) ∧
      (.acknowledged ∈ facts command reply → Settled told) := by
  cases command with
  | xadd => exact ⟨fun _ => hmay.1.resolve_left (by simp [hentry]), by simp [facts]⟩
  | xack => exact ⟨by simp [facts], fun _ => hmay.2⟩
  | script =>
    refine ⟨fun h => ?_, fun h => ?_⟩ <;> obtain ⟨_, h | h⟩ := scriptFacts_eq h <;> cases h
  | handle => rcases reply with error | _ <;> simp [facts, handleFacts]
  | lost => cases reply <;> simp [facts]
  | settled | lose | preserve | xdel | onDeadLetter => simp [facts]

theorem Contract.hears {β : Type} {command : Command β} (h : Contract told)
    (hmay : May entry told command) (hentry : entry.isRetry = false) (reply : β) :
    Contract (facts command reply ++ told) := by
  have hsub : told ⊆ facts command reply ++ told := List.subset_append_right _ _
  obtain ⟨hcopied, hacknowledged⟩ := hmay.written hentry reply
  refine ⟨fun hfact => ?_, fun hfact => ?_⟩
  · exact ((List.mem_append.mp hfact).elim hcopied h.copied).mono hsub
  · exact ((List.mem_append.mp hfact).elim hacknowledged h.acknowledged).mono hsub

/-- The task issues what it may, while the tasks of its entry are told more. -/
abbrev Obeys (entry : Entry) {α : Type} (post : Except Fault α → List Fact → Prop)
    (prog : Consuming α) (told : List Fact) : Prop :=
  Safe hears (· ⊆ ·)
    (fun command told told' =>
      May entry told command ∧ ∃ reply, told' = facts command reply ++ told)
    (fun outcome told' => told ⊆ told' ∧ post outcome told') prog.run told

section Rules

variable {α β : Type} {post : Except Fault β → List Fact → Prop}

theorem obeys_call {command : Command (Except Fault β)} (hmay : May entry told command)
    (h : ∀ reply told', facts command reply ⊆ told' → post reply told') :
    Obeys entry post (call command) told := by
  rintro told₁ reply _ hsub rfl
  exact ⟨⟨hmay.mono hsub, reply, rfl⟩, List.subset_append_of_subset_right _ hsub,
    h reply _ (List.subset_append_left _ _)⟩

theorem Obeys.ask {command : Command α} {f : α → Consuming β} (hmay : May entry told command)
    (hnext : ∀ reply told', told ⊆ told' → facts command reply ⊆ told' →
      Obeys entry post (f reply) told') :
    Obeys entry post (Consumer.ask command >>= f) told := by
  rintro told₁ reply _ hsub rfl
  refine ⟨⟨hmay.mono hsub, reply, rfl⟩, ?_⟩
  have hmore := List.subset_append_of_subset_right (facts command reply) hsub
  exact (hnext reply _ hmore (List.subset_append_left _ _)).mono fun _ _ hpost =>
    ⟨List.Subset.trans hmore hpost.1, hpost.2⟩

theorem Obeys.then {prog : Consuming α} {f : α → Consuming β}
    {middle : Except Fault α → List Fact → Prop} (h : Obeys entry middle prog told)
    (hok : ∀ value told', told ⊆ told' → middle (.ok value) told' →
      Obeys entry post (f value) told')
    (herror : ∀ error told', told ⊆ told' → middle (.error error) told' →
      post (.error error) told') :
    Obeys entry post (prog >>= f) told :=
  Safe.then h
    (fun value told' hmiddle => (hok value told' hmiddle.1 hmiddle.2).mono fun _ _ hpost =>
      ⟨List.Subset.trans hmiddle.1 hpost.1, hpost.2⟩)
    fun error told' hmiddle => ⟨hmiddle.1, herror error told' hmiddle.1 hmiddle.2⟩

theorem Obeys.attempt {prog : Consuming α} {f : Except Fault α → Consuming β}
    {middle : Except Fault α → List Fact → Prop} (h : Obeys entry middle prog told)
    (hnext : ∀ outcome told', told ⊆ told' → middle outcome told' →
      Obeys entry post (f outcome) told') :
    Obeys entry post (Program.attempt prog >>= f) told :=
  Safe.attempt_bind (h.mono fun outcome told' hmiddle =>
    (hnext outcome told' hmiddle.1 hmiddle.2).mono fun _ _ hpost =>
      ⟨List.Subset.trans hmiddle.1 hpost.1, hpost.2⟩)

theorem Obeys.weaken {post' : Except Fault β → List Fact → Prop} {prog : Consuming β}
    (h : Obeys entry post prog told) (hpost : ∀ outcome told', post outcome told' →
      post' outcome told') : Obeys entry post' prog told :=
  h.mono fun outcome told' hpost' => ⟨hpost'.1, hpost outcome told' hpost'.2⟩

theorem obeys_quiet {command : Command (Except Fault β)} (hmay : May entry told command) :
    Obeys entry (fun _ _ => True) (call command) told := obeys_call hmay fun _ _ _ => trivial

theorem obeys_return {outcome : Except Fault β} (h : post outcome told) :
    Obeys entry post (raising outcome) told := ⟨List.Subset.refl _, h⟩

theorem obeys_ask {command : Command β} (hmay : May entry told command) :
    Obeys entry (fun _ _ => True) (Consumer.ask command) told := by
  rintro told₁ reply _ hsub rfl
  exact ⟨⟨hmay.mono hsub, reply, rfl⟩, List.subset_append_of_subset_right _ hsub, trivial⟩

end Rules

/-- What `_ack_and_cleanup` leaves undone, it says. -/
def AckTold (outcome : Except Fault Unit) (told : List Fact) : Prop :=
  ∀ error, outcome = .error error → .ackFailed ∈ told

theorem obeys_ackAndCleanup (h : Settled told) :
    Obeys entry AckTold (ackAndCleanup host entry.messageId) told := by
  have hack : Obeys entry AckTold (call (.xack entry.messageId)) told :=
    obeys_call ⟨rfl, h⟩ fun reply told' hfacts error hreply => hfacts (by simp [facts, hreply])
  refine hack.then (fun _ told₁ hsub _ => ?_) fun _ _ _ h => h
  split
  · have hmay : May entry told₁ (.xdel .stream entry.messageId) := ⟨rfl, h.mono hsub⟩
    exact (obeys_quiet hmay).attempt fun _ _ _ _ => obeys_return nofun
  · exact obeys_return nofun

theorem obeys_xadd {destination : Destination} {added : Option EventEnvelope}
    (hmay : May entry told (.xadd destination added)) :
    Obeys entry (fun outcome told' => outcome = .ok () → .copyAnswered ∈ told')
      (call (.xadd destination added)) told :=
  obeys_call hmay fun reply told' hfacts hok => hfacts (by simp [facts, hok])

theorem CopyWithin.refl (limit : Int) (event : EventEnvelope) : CopyWithin limit event event :=
  ⟨rfl, Int.le_max_left _ _⟩

theorem CopyWithin.relay (limit : Int) (event : EventEnvelope) (newId : String) :
    CopyWithin limit event (event.relay newId) := ⟨rfl, Int.le_max_left _ _⟩

theorem CopyWithin.retry (hretries : host.maxRetries ≤ entry.limit) {error : Fault}
    (h : ¬ gaveUp host event error) : CopyWithin entry.limit event event.retry := by
  refine ⟨rfl, ?_⟩
  have hattempt : event.retry.attempt = event.attempt + 1 := rfl
  simp only [gaveUp, Bool.or_eq_true, decide_eq_true_eq, not_or] at h
  omega

theorem Entry.Copies.of {copy : EventEnvelope} (hparsed : entry.parsed = some event)
    (hcopy : CopyWithin entry.limit event copy) : entry.Copies (some copy) := by
  rintro other hother
  obtain rfl := Option.some.inj (hparsed.symm.trans hother)
  exact ⟨copy, rfl, hcopy⟩

theorem obeys_handleFailure {error : Fault} (hretries : host.maxRetries ≤ entry.limit)
    (h : Failed told) :
    Obeys entry (fun _ _ => True) (handleFailure host entry.messageId entry.parsed error) told := by
  have hacked : ∀ {told'}, Fact.copyAnswered ∈ told' →
      Obeys entry (fun _ _ => True) (ackAndCleanup host entry.messageId) told' := fun hcopied =>
    (obeys_ackAndCleanup (.inl hcopied)).weaken fun _ _ _ => trivial
  have hcopied : ∀ {destination added}, entry.Copies added → Obeys entry (fun outcome told' =>
      outcome = .ok () → .copyAnswered ∈ told') (call (.xadd destination added)) told :=
    fun hcopies => obeys_xadd ⟨.inr h, hcopies⟩
  unfold handleFailure
  split
  · next hparsed =>
    exact (hcopied (by simp [Entry.Copies, hparsed])).then (fun _ _ _ h₁ => hacked (h₁ rfl))
      fun _ _ _ _ => trivial
  · next event hparsed =>
    split
    · refine (hcopied (.of hparsed (.refl _ event))).then (fun _ _ _ h₁ => ?_)
        fun _ _ _ _ => trivial
      refine (hacked (h₁ rfl)).then (fun _ told₂ _ _ => ?_) fun _ _ _ _ => trivial
      split
      · exact Obeys.attempt (obeys_quiet trivial) fun _ _ _ _ => obeys_return trivial
      · exact obeys_return trivial
    · next hgaveUp =>
      exact (hcopied (.of hparsed (.retry hretries hgaveUp))).then
        (fun _ _ _ h₁ => hacked (h₁ rfl)) fun _ _ _ _ => trivial

theorem obeys_stillOwned (hlease : entry.Leases lease) :
    Obeys entry (fun outcome told' => ∃ owned, outcome = .ok owned ∧
      (owned = true → .owner lease.logicalKey ∈ told')) (stillOwned lease) told := by
  refine Obeys.ask trivial fun lost told₁ _ _ => ?_
  split
  · exact obeys_return ⟨false, rfl, nofun⟩
  have hrenew : Obeys entry (fun answer told' => answer = .ok (.flag 1) →
      .owner lease.logicalKey ∈ told') (call (.script (.renew lease))) told₁ :=
    obeys_call hlease fun reply told' hfacts hreply => hfacts (by simp [facts, scriptFacts, hreply])
  refine hrenew.attempt fun answer told₂ _ howner => ?_
  split
  · exact obeys_return ⟨_, rfl, fun howned => howner (by simpa using howned)⟩
  · exact Obeys.ask trivial fun _ _ _ _ => obeys_return ⟨false, rfl, nofun⟩

theorem obeys_rememberCompletion (howner : .owner lease.logicalKey ∈ told) :
    Obeys entry (fun outcome _ => ∃ stored, outcome = .ok stored) (rememberCompletion lease)
      told := by
  refine Obeys.ask trivial fun lost told₁ hsub _ => ?_
  split
  · exact obeys_return ⟨false, rfl⟩
  have hmay : May entry told₁ (.script (.complete lease)) := hsub howner
  refine (obeys_quiet hmay).attempt fun answer _ _ _ => ?_
  split
  · exact obeys_return ⟨true, rfl⟩
  · exact Obeys.ask trivial fun _ _ _ _ => obeys_return ⟨false, rfl⟩

/-- What the `except` clauses catch: an exception of the handler, or one of `XACK`. -/
def Caught (outcome : Except Fault Unit) (told : List Fact) : Prop :=
  ∀ error, outcome = .error error → (error.named = false → .raised ∈ told) ∨
    (.returned ∈ told ∧ .ackFailed ∈ told ∧ ∃ logicalKey, .owner logicalKey ∈ told)

theorem obeys_settle (hlease : entry.Leases lease) :
    Obeys entry Caught (settle host entry.messageId lease) told := by
  have hhandle : Obeys entry (fun outcome told' => (outcome = .ok () → .returned ∈ told') ∧
      ∀ error, outcome = .error error → error.named = false → .raised ∈ told')
      (call .handle) told := by
    refine obeys_call trivial ?_
    rintro (error | _) told' hfacts
    · refine ⟨fun h => (by cases h), fun _ hsame hnamed => ?_⟩
      cases hsame
      exact hfacts (by simp [facts, handleFacts, hnamed])
    · exact ⟨fun _ => hfacts (by simp [facts, handleFacts]), fun _ h => by cases h⟩
  refine hhandle.then (fun _ told₁ _ hreturned => ?_)
    fun error _ _ h _ hsame => .inl (Except.error.inj hsame ▸ h.2 _ rfl)
  refine Obeys.ask trivial fun lost told₂ hsub₂ _ => ?_
  split
  · exact obeys_return nofun
  refine (obeys_stillOwned hlease).then (fun owned told₃ hsub₃ howned => ?_) fun _ _ _ h => by
    obtain ⟨_, h, -⟩ := h
    cases h
  split
  case isFalse => exact obeys_return nofun
  case isTrue hown =>
    obtain ⟨_, hsame, howner⟩ := howned
    have howner : Fact.owner lease.logicalKey ∈ told₃ := howner (Except.ok.inj hsame ▸ hown)
    have hacked : ∀ {told₄}, told₃ ⊆ told₄ →
        Obeys entry Caught (ackAndCleanup host entry.messageId) told₄ := fun {told₄} hsub₄ => by
      have hdone : Fact.returned ∈ told₄ := hsub₄ (hsub₃ (hsub₂ (hreturned.1 rfl)))
      refine (obeys_ackAndCleanup (.inr (.inr ⟨hdone, _, hsub₄ howner⟩))).mono ?_
      rintro outcome told₅ ⟨hsub₅, hfailed⟩
      exact ⟨hsub₅, fun error hraised => .inr
        ⟨hsub₅ hdone, hfailed error hraised, _, hsub₅ (hsub₄ howner)⟩⟩
    refine Obeys.ask trivial fun settled told₄ hsub₄ _ => ?_
    split
    · refine (obeys_rememberCompletion (hsub₄ howner)).then (fun stored told₅ hsub₅ _ => ?_)
        fun _ _ _ h => by
          obtain ⟨_, h⟩ := h
          cases h
      split
      · exact hacked (List.Subset.trans hsub₄ hsub₅)
      · exact obeys_return nofun
    · exact hacked hsub₄

theorem obeys_guarded (hretries : host.maxRetries ≤ entry.limit)
    (hparsed : entry.parsed = some event) (hlease : entry.Leases lease) :
    Obeys entry (fun _ _ => True) (guarded host entry.messageId event lease) told := by
  refine (obeys_settle hlease).attempt fun outcome told₁ _ hcaught => ?_
  split
  · exact obeys_return trivial
  · exact obeys_ask trivial
  · exact obeys_ask trivial
  · exact Obeys.ask trivial fun _ _ _ _ => obeys_return trivial
  · next error hpending hstale hcancelled =>
    refine Obeys.ask trivial fun lost told₂ hsub hlost => ?_
    split
    · exact obeys_return trivial
    · next hunlost =>
      have hnamed : error.named = false := by
        cases error <;> simp_all [Fault.named]
      have hfailed : Failed told₂ := by
        refine .inr ((hcaught error rfl).imp (fun hraised => ?_) fun h => ?_)
        · exact ⟨hsub (hraised hnamed), hlost (by simp [facts, hunlost])⟩
        · exact ⟨hsub h.1, hsub h.2.1, h.2.2.imp fun _ howner => hsub howner⟩
      rw [← hparsed]
      exact obeys_handleFailure hretries hfailed

theorem obeys_processLeased (hretries : host.maxRetries ≤ entry.limit)
    (hparsed : entry.parsed = some event) (hlease : entry.Leases lease) :
    Obeys entry (fun _ _ => True) (processLeased host entry.messageId event lease) told := by
  refine (obeys_guarded hretries hparsed hlease).attempt fun outcome _ _ _ => ?_
  refine Obeys.ask trivial fun lost told₂ _ _ => ?_
  split
  · exact obeys_return trivial
  · exact Obeys.attempt (obeys_quiet trivial) fun _ _ _ _ => obeys_return trivial

theorem obeys_processMessage (hretries : host.maxRetries ≤ entry.limit)
    (hunparsed : entry.parsed = none → .unparsed ∈ told) :
    Obeys entry (fun _ _ => True) (processMessage host entry.messageId entry.parsed) told := by
  unfold processMessage
  split
  · next hparsed =>
    rw [← hparsed]
    exact obeys_handleFailure hretries (.inl (hunparsed hparsed))
  · next event hparsed =>
    have hacquire : Obeys entry (fun answer told' => ∀ action token seen,
        answer = .ok (.decision action token seen) → action = "completed" →
          .completed (logicalJobKey event) ∈ told')
        (call (.script (.acquire event host.consumerName entry.messageId.repr))) told :=
      obeys_call hparsed fun reply told' hfacts action token seen hreply haction =>
        hfacts (by simp [facts, scriptFacts, hreply, haction])
    refine hacquire.attempt fun answer told₁ _ hcompleted => ?_
    split
    · split
      · next haction =>
        have hsettled : Settled told₁ := .inr (.inl ⟨_, hcompleted _ _ _ rfl haction⟩)
        exact (obeys_ackAndCleanup hsettled).weaken fun _ _ _ => trivial
      split
      · exact obeys_processLeased hretries hparsed ⟨event, hparsed, by simp only [leaseFor]⟩
      · exact obeys_ask trivial
    · exact obeys_return trivial

theorem obeys_relayEntry {newId : String} (hparsed : entry.parsed = some event)
    (hretry : entry.isRetry) :
    Obeys entry (fun _ _ => True) (relayEntry entry.messageId event newId) told := by
  have hcopies : entry.Copies (some (event.relay newId)) := .of hparsed (.relay _ event newId)
  have hadd : Obeys entry _ (call (.xadd .stream (some (event.relay newId)))) told :=
    obeys_xadd ⟨.inl hretry, hcopies⟩
  refine hadd.then (fun _ told₁ _ hcopied => ?_) fun _ _ _ _ => trivial
  have hmay : May entry told₁ (.xdel .retry entry.messageId) := ⟨rfl, .inl (hcopied rfl)⟩
  exact obeys_quiet hmay

/-- What a delivery starts from. -/
def initially (parsed : Option EventEnvelope) : List Fact :=
  if parsed = none then [.unparsed] else []

/-- Whatever Redis and the handler answer, and wherever a delivery stops: it has copied the event
only for a payload that does not parse, for an exception of the handler while the lease was not
known to be lost, or for an exception of `XACK` after a confirmed success. It has acknowledged the
message only for a copy that was answered, a completion marker or a confirmed success. -/
theorem delivery_contract {messageId : Nat} {parsed : Option EventEnvelope}
    {prog : Program Command (Except Fault Unit)}
    (h : Reach hears Eq (processMessage host messageId parsed).run (initially parsed) prog told) :
    Contract told := by
  have hobeys : Obeys ⟨messageId, parsed, host.maxRetries, false⟩ (fun _ _ => True)
      (processMessage host messageId parsed) (initially parsed) :=
    obeys_processMessage (Int.le_refl _) fun hparsed => by
      simp [initially, show parsed = none from hparsed]
  have hstart : Contract (initially parsed) := by
    unfold initially
    split <;> exact ⟨by simp, by simp⟩
  have halone : Safe hears Eq _ (fun _ _ => True) (processMessage host messageId parsed).run
      (initially parsed) :=
    (hobeys.mono fun _ _ _ => trivial).narrow fun told _ heq => heq ▸ List.Subset.refl told
  refine halone.invariant Contract (fun _ _ _ h₁ h₂ => h₁.trans h₂) Eq.refl ?_ ?_ hstart h
  · rintro told _ hcontract rfl
    exact hcontract
  · rintro β command told _ hcontract ⟨hmay, reply, rfl⟩
    exact hcontract.hears hmay rfl reply

def sampleEvent : EventEnvelope where
  eventId := "e1"
  eventType := "transcript.window.ready"
  correlationId := "r1"
  userId := "u1"
  spaceId := "s1"
  conversationId := "c1"
  createdAt := "2024-01-01T00:00:00Z"

def sampleHost : Host where
  consumerName := "w1"
  maxRetries := 3

/-- The handler fails, and Redis carries out every command. -/
def failing {β : Type} (command : Command β) (told : List Fact) : β × List Fact :=
  let reply : β := match command with
    | .script _ => .ok (.decision "run" "1" "w1")
    | .handle => .error .other
    | .lost | .settled => false
    | .lose | .preserve => ()
    | .xadd .. | .xack _ | .xdel .. | .onDeadLetter => .ok ()
  (reply, facts command reply ++ told)

theorem delivery_contract_sample :
    Contract ((processMessage sampleHost 7 (some sampleEvent)).run.eval failing []).2 ∧
      ((processMessage sampleHost 7 (some sampleEvent)).run.eval failing []).2 =
        [.unlost, .acknowledged, .copied, .copyAnswered, .unlost, .raised] :=
  ⟨@delivery_contract _ _ _ (some sampleEvent) _ (reach_eval (fun _ _ => rfl) _ _), by decide⟩

end AiBuddy.Queue.Consumer
