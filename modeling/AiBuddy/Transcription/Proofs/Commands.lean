import AiBuddy.Conversation.Proofs.Counters
import AiBuddy.Transcription.Attempts

/-!
# The commands of attempts

What a command of a handler does to the documents and to the records of the attempts. Every command
leaves the records of other tokens as they are.
-/

namespace AiBuddy.Transcription

open Program Conversation Conversation.Session

variable {sequence token : Nat} {s s' : State}

def HandlerChunk (completing : Prop) (sequence : Nat) (accepts : Chunk → Bool)
    (change : Chunk → Chunk) : Prop :=
  (∃ label, ChunkUpdate label sequence accepts change) ∧
    (completing ∨ ∀ chunk, accepts chunk = true → (change chunk).sttStatus ≠ .completed)

def HandlerConversation (change : ConversationDocument → ConversationDocument) : Prop :=
  ∀ conversation, (change conversation).expectedLastSequence = conversation.expectedLastSequence ∧
    (change conversation).status = conversation.status

/-- A command that a handler or `handleFailure` issues. -/
def Allowed (completing : Prop) {β : Type} (command : AttemptCommand β) : Prop :=
  match command with
  | .acquire | .stillOwned => False
  | .repository command => Permits (HandlerChunk completing) HandlerConversation (.send command)
  | _ => True

abbrev HandlerMove (completing : Prop) : Session.State → Session.State → Prop :=
  Move (HandlerChunk completing) HandlerConversation fun _ _ => True

section Moves

variable {completing : Prop} {session session' : Session.State}

theorem completedIn_iff : completedIn sequence session = true ↔
    session.statusAt sequence = some .completed := decide_eq_true_iff

theorem expects_iff {conversation : Option ConversationDocument} : expects conversation = true ↔
    (conversation.bind ConversationDocument.expectedLastSequence).isSome = true := by
  cases conversation <;> rfl

theorem HandlerMove.completed (h : HandlerMove completing session session')
    (hcompleted : completedIn sequence session = true) :
    completedIn sequence session' = true := by
  rw [completedIn_iff] at hcompleted ⊢
  cases h with
  | nothing => exact hcompleted
  | chunk hupdate hfound =>
    rw [State.statusAt_updateChunk hfound]
    split
    · next hsame =>
      obtain ⟨⟨label, hlabel⟩, -⟩ := hupdate
      rw [hsame, State.statusAt_of_findChunk hfound] at hcompleted
      rw [hlabel.completed (State.accepts_of_findChunk hfound) (Option.some.inj hcompleted)]
    · exact hcompleted
  | inserted _ hnew => exact (State.statusAt_insertChunk hnew).mpr (.inr hcompleted)
  | conversation => exact hcompleted
  | windows hchunks =>
    rw [State.statusAt, hchunks]
    exact hcompleted

theorem HandlerMove.not_completed (h : HandlerMove False session session')
    (hopen : completedIn sequence session = false) : completedIn sequence session' = false := by
  rw [← Bool.not_eq_true, completedIn_iff] at hopen ⊢
  cases h with
  | nothing => exact hopen
  | chunk hupdate hfound =>
    rw [State.statusAt_updateChunk hfound]
    split
    · have hchange := hupdate.2.resolve_left id _ (State.accepts_of_findChunk hfound)
      exact fun hstatus => hchange (Option.some.inj hstatus)
    · exact hopen
  | inserted hpending hnew =>
    rw [State.statusAt_insertChunk hnew, hpending]
    rintro (⟨-, hstatus⟩ | hcompleted)
    · cases hstatus
    · exact hopen hcompleted
  | conversation => exact hopen
  | windows hchunks =>
    rw [State.statusAt, hchunks]
    exact hopen

theorem HandlerMove.conversation (h : HandlerMove completing session session') :
    expects session'.conversation = expects session.conversation ∧
      isClosed session'.conversation = isClosed session.conversation := by
  cases h with
  | nothing => exact ⟨rfl, rfl⟩
  | chunk => exact ⟨rfl, rfl⟩
  | inserted _ hnew =>
    rw [State.insertChunk, dif_neg hnew]
    exact ⟨rfl, rfl⟩
  | conversation hchange hconversation =>
    rw [hconversation]
    refine ⟨congrArg Option.isSome (hchange _).1, ?_⟩
    simp only [isClosed, Option.any_some, (hchange _).2]
  | windows _ hconversation =>
    rw [hconversation]
    exact ⟨rfl, rfl⟩

end Moves

inductive Effect (completing : Prop) (sequence token : Nat) (s : State) : State → Prop where
  | nothing : Effect completing sequence token s s
  | reached {session : Session.State} : HandlerMove completing s.session session →
      Effect completing sequence token s (s.reached sequence token session)
  | heard : Effect completing sequence token s
      (s.noted token fun record => { record with read := some s.session.conversation })
  | marked (update : Recording) :
      Effect completing sequence token s (s.markRecording token update)
  | counted : Effect completing sequence token s s.countProcessed
  | published (announcement : Announcement) :
      Effect completing sequence token s (s.publish token announcement)
  | remembered (stored : Bool) :
      Effect completing sequence token s { s with remembered := s.remembered || stored }
  | retried (attempt : Nat) : Effect completing sequence token s (s.retry attempt)
  | acknowledged (attempt : Nat) : Effect completing sequence token s (s.acknowledge attempt)

theorem reached_self : s.reached sequence token s.session = s := by
  have hrecords : s.recorded sequence token s.session = s.completers := by
    funext other
    refine if_neg ?_
    rintro ⟨-, -, hopen, hcompleted⟩
    rw [hopen] at hcompleted
    cases hcompleted
  rw [State.reached, hrecords]

theorem performed_getConversation {session session' : Session.State}
    {reply : Except Mongo.Error (Option ConversationDocument)}
    (h : Performed .getConversation session reply session') :
    session' = session ∧ ∀ conversation, reply = .ok conversation →
      conversation = session.conversation := by
  obtain ⟨choice, hanswers⟩ := h
  cases hanswers with
  | answered =>
    refine ⟨rfl, ?_⟩
    rintro conversation ⟨⟩
    rfl
  | unsent =>
    refine ⟨rfl, fun conversation herror => ?_⟩
    cases herror
  | unheard =>
    refine ⟨rfl, fun conversation herror => ?_⟩
    cases herror

variable {β : Type} {other : Nat} {change : Completer → Completer}

section Effects

variable {completing : Prop}

theorem effect_of_comes {run : State → State} {reply : Except Fault Unit}
    (h : Comes run s reply s') (hrun : Effect completing sequence token s (run s)) :
    Effect completing sequence token s s' := by
  rcases h with ⟨-, rfl⟩ | ⟨fault, -, rfl | rfl⟩
  · exact hrun
  · exact .nothing
  · exact hrun

theorem effect_of_performs {command : AttemptCommand β} {reply : β}
    (hcommand : Allowed completing command) (h : performs sequence token command s reply s') :
    Effect completing sequence token s s' := by
  cases command with
  | acquire => cases hcommand
  | stillOwned => cases hcommand
  | repository command =>
    obtain ⟨session, hperformed, rfl⟩ := h
    have hmove : HandlerMove completing s.session session :=
      move_of_performed hcommand trivial hperformed
    unfold State.heard
    split
    · next conversation =>
      obtain ⟨rfl, hreply⟩ := performed_getConversation hperformed
      rw [reached_self, hreply conversation rfl]
      exact .heard
    · exact .reached hmove
  | work stage => exact h ▸ .nothing
  | transcribe => exact h ▸ .nothing
  | markRecording update => exact effect_of_comes h (.marked update)
  | countProcessed => exact effect_of_comes h .counted
  | publish announcement => exact effect_of_comes h (.published announcement)
  | lost => exact h ▸ .nothing
  | remember => exact h ▸ .remembered reply
  | retry attempt => exact effect_of_comes h (.retried attempt)
  | deadLetter => exact h ▸ .nothing
  | acknowledge attempt => exact effect_of_comes h (.acknowledged attempt)

@[simp] theorem noted_self (change : Completer → Completer) :
    (s.noted token change).completers token = (s.completers token).map fun record =>
      if record.returned then record else change record := if_pos rfl

theorem noted_other (h : other ≠ token) :
    (s.noted token change).completers other = s.completers other := if_neg h

theorem reached_other {session : Session.State} (h : other ≠ token) :
    (s.reached sequence token session).completers other = s.completers other :=
  if_neg fun hsame => h hsame.1

theorem Effect.apart (h : Effect completing sequence token s s') :
    s'.tokens = s.tokens ∧
      ∀ other, other ≠ token → s'.completers other = s.completers other := by
  cases h with
  | nothing => exact ⟨rfl, fun _ _ => rfl⟩
  | reached => exact ⟨rfl, fun _ hne => reached_other hne⟩
  | heard => exact ⟨rfl, fun _ hne => noted_other hne⟩
  | marked => exact ⟨rfl, fun _ hne => noted_other hne⟩
  | counted => exact ⟨rfl, fun _ _ => rfl⟩
  | published => exact ⟨rfl, fun _ hne => noted_other hne⟩
  | remembered => exact ⟨rfl, fun _ _ => rfl⟩
  | retried => exact ⟨rfl, fun _ _ => rfl⟩
  | acknowledged => exact ⟨rfl, fun _ _ => rfl⟩

theorem reached_record {session : Session.State} {record : Completer}
    (h : (s.reached sequence token session).completers other = some record) :
    s.completers other = some record ∨
      completedIn sequence s.session = false ∧ completedIn sequence session = true ∧
        record = { expected := expects session.conversation } := by
  have h' : s.recorded sequence token session other = some record := h
  unfold State.recorded at h'
  split at h'
  · next hnew => exact .inr ⟨hnew.2.2.1, hnew.2.2.2, (Option.some.inj h').symm⟩
  · exact .inl h'

theorem Effect.unrecorded (h : Effect False sequence token s s')
    (hnone : s.completers token = none) : s'.completers token = none := by
  have noted : ∀ change, (s.noted token change).completers token = none := by
    intro change
    rw [noted_self, hnone]
    rfl
  cases h with
  | nothing => exact hnone
  | @reached session hmove =>
    refine (if_neg ?_).trans hnone
    rintro ⟨-, -, hbefore, hafter⟩
    rw [hmove.not_completed hbefore] at hafter
    cases hafter
  | heard => exact noted _
  | marked => exact noted _
  | counted => exact hnone
  | published => exact noted _
  | remembered => exact hnone
  | retried => exact hnone
  | acknowledged => exact hnone

end Effects
theorem Allowed.weaken {completing : Prop} {command : AttemptCommand β}
    (h : Allowed completing command) : Allowed True command := by
  cases command with
  | acquire => cases h
  | stillOwned => cases h
  | repository command =>
    exact Permits.mono h (fun _ _ _ hchunk => ⟨hchunk.1, .inl trivial⟩) fun _ hchange => hchange
  | _ => trivial
variable {label : SessionLabel}

section Issued

variable {job : Job}

theorem issues_permitted {α : Type} {completing : Prop} {prog : Operating α}
    (h : prog.run.Issues (Permits (HandlerChunk completing) HandlerConversation)) :
    (repository prog).run.Issues (Allowed completing) := by
  refine Issues.bind (h.hoist ?_) fun _ => trivial
  rintro β ⟨command⟩ hcommand
  exact hcommand

theorem handlerConversation_of {change : ConversationDocument → ConversationDocument}
    (h : ConversationUpdate label change) :
    HandlerConversation change := by
  intro conversation
  cases h with
  | record => exact ⟨rfl, rfl⟩
  | complete => exact ⟨rfl, rfl⟩
  | fail => exact ⟨rfl, rfl⟩

theorem not_completing {accepts : Chunk → Bool} {change : Chunk → Chunk}
    (h : ChunkUpdate label sequence accepts change)
    (hlabel : (∃ k, label = .mark k) ∨ ∃ k counting, label = .fail k counting) {chunk : Chunk} :
    (change chunk).sttStatus ≠ .completed := by
  cases h with
  | mark => exact nofun
  | fail => exact nofun
  | complete => rcases hlabel with ⟨_, hlabel⟩ | ⟨_, _, hlabel⟩ <;> cases hlabel
  | reclaim => exact nofun
  | exclude => rcases hlabel with ⟨_, hlabel⟩ | ⟨_, _, hlabel⟩ <;> cases hlabel
  | assign => rcases hlabel with ⟨_, hlabel⟩ | ⟨_, _, hlabel⟩ <;> cases hlabel

theorem issues_labelled {α : Type} {completing : Prop} {prog : Operating α}
    (h : prog.run.Issues (SessionCommand label))
    (hlabel : completing ∨ (∃ k, label = .mark k) ∨ ∃ k counting, label = .fail k counting) :
    (repository prog).run.Issues (Allowed completing) := by
  refine issues_permitted (h.mono fun command hcommand => hcommand.mono ?_ ?_)
  · exact fun sequence accepts change hupdate =>
      ⟨⟨label, hupdate⟩, hlabel.imp id fun hne chunk _ => not_completing hupdate hne⟩
  · exact fun change hchange => handlerConversation_of hchange

theorem issues_call {α : Type} {completing : Prop} {command : AttemptCommand (Except Fault α)}
    (h : Allowed completing command) : (call command).run.Issues (Allowed completing) :=
  ⟨h, fun _ => trivial⟩

theorem issues_ask {α : Type} {completing : Prop} {command : AttemptCommand α}
    (h : Allowed completing command) : (ask command).run.Issues (Allowed completing) :=
  ⟨h, fun _ => trivial⟩

theorem issues_read {α : Type} {completing : Prop} {command : Command α}
    (h : Permits (HandlerChunk completing) HandlerConversation (.send command)) :
    (repository (sent command)).run.Issues (Allowed completing) :=
  issues_permitted (Issues.send h)

theorem issues_failTranscriptChunk (request : Failure) :
    (repository (failTranscriptChunk request)).run.Issues (Allowed False) := by
  refine issues_permitted (Issues.raising_bind (Issues.send trivial) fun existing => ?_)
  rcases existing with _ | existing
  · trivial
  · refine (issues_failExisting request existing).mono fun command hcommand => hcommand.mono ?_ ?_
    · exact fun sequence accepts change hupdate =>
        ⟨⟨_, hupdate⟩, .inr fun chunk _ => not_completing hupdate (.inr ⟨_, _, rfl⟩)⟩
    · exact fun change hchange => handlerConversation_of hchange

theorem issues_publishFinalizationIfStopped :
    publishFinalizationIfStopped.run.Issues (Allowed False) := by
  refine Issues.raising_bind (issues_read trivial) fun conversation => ?_
  split
  · exact issues_call trivial
  · trivial

theorem issues_recordSttSequenceFailure (delivery : Delivery) (fault : Fault)
    (existing : Option Chunk) (retryExhausted : Bool) :
    (recordSttSequenceFailure job delivery fault existing retryExhausted).run.Issues
      (Allowed False) := by
  refine Issues.raising_bind (issues_failTranscriptChunk _) fun _ => ?_
  split
  · exact issues_publishFinalizationIfStopped
  · trivial

theorem issues_handleFailure (delivery : Delivery) (fault : Fault) :
    (handleFailure job delivery fault).run.Issues (Allowed False) := by
  unfold handleFailure
  split
  · refine Issues.raising_bind (issues_call trivial) fun _ => ?_
    refine Issues.raising_bind (issues_call trivial) fun _ => ?_
    refine Issues.attempt_bind ?_ fun _ => trivial
    unfold handleSttDeadLetter
    split
    · refine Issues.raising_bind (issues_read trivial) fun existing => ?_
      exact issues_recordSttSequenceFailure _ _ _ _
    · trivial
  · exact Issues.raising_bind (issues_call trivial) fun _ => issues_call trivial

end Issued

end AiBuddy.Transcription

/-!
## What attempts know

An attempt knows the record of its token, which no other attempt changes.
-/

namespace AiBuddy.Transcription

open Program Conversation Conversation.Session

variable {sequence token : Nat} {s s' : State}

abbrev Held := Nat × Option Completer

def Unused (s : State) : Prop := ∀ token, s.tokens < token → s.completers token = none

structure Kept (inv : State → Prop) (holdings : List Held) (s : State) : Prop where
  state : inv s
  distinct : holdings.Pairwise fun held other => held.1 = other.1 → held.1 = 0
  records : ∀ held ∈ holdings, held.1 ≠ 0 → s.completers held.1 = held.2
  bound : ∀ held ∈ holdings, held.1 ≤ s.tokens
  fresh : Unused s

theorem Kept.perm {inv : State → Prop} {holdings holdings' : List Held}
    (hperm : holdings.Perm holdings') (h : Kept inv holdings s) : Kept inv holdings' s where
  state := h.state
  distinct := (hperm.pairwise_iff fun hsame heq => heq ▸ hsame heq.symm).mp h.distinct
  records held hmem := h.records held (hperm.mem_iff.mpr hmem)
  bound held hmem := h.bound held (hperm.mem_iff.mpr hmem)
  fresh := h.fresh

theorem Kept.own {inv : State → Prop} {record : Option Completer} {others : List Held}
    (h : Kept inv ((token, record) :: others) s) (hstate : inv s') (htokens : s'.tokens = s.tokens)
    (happart : ∀ other, other ≠ token → s'.completers other = s.completers other) :
    Kept inv ((token, s'.completers token) :: others) s' := by
  obtain ⟨hfirst, hrest⟩ := List.pairwise_cons.mp h.distinct
  refine ⟨hstate, List.pairwise_cons.mpr ⟨hfirst, hrest⟩, ?_, ?_, ?_⟩
  · intro held hmem hne
    rcases List.mem_cons.mp hmem with rfl | hother
    · rfl
    · have hdifferent : held.1 ≠ token := fun hsame =>
        hne (hsame.trans (hfirst held hother hsame.symm))
      rw [happart _ hdifferent]
      exact h.records held (List.mem_cons_of_mem _ hother) hne
  · intro held hmem
    rw [htokens]
    rcases List.mem_cons.mp hmem with rfl | hother
    · exact h.bound (token, record) List.mem_cons_self
    · exact h.bound held (List.mem_cons_of_mem _ hother)
  · intro other hlt
    have hbound := h.bound _ List.mem_cons_self
    rw [htokens] at hlt
    rw [happart other fun hsame => Nat.not_lt_of_le hbound (hsame ▸ hlt)]
    exact h.fresh other hlt

def Keeps (condition : Condition) (sequence : Nat) (inv : State → Prop) : Prop :=
  ∀ {β : Type} (token : Nat) (command : AttemptCommand β) (s : State) (reply : β) (s' : State),
    Allowed True command → condition.attempts command s s' →
      performs sequence token command s reply s' → Unused s → inv s → inv s'

section Programs

variable {condition : Condition} {inv : State → Prop} {record : Option Completer} {α : Type}
theorem holds_issue {command : AttemptCommand β} {post : β → Held → Prop}
    (hkeeps : Keeps condition sequence inv) (hcommand : Allowed True command)
    (hpost : ∀ s reply s', (token ≠ 0 → s.completers token = record) →
      performs sequence token command s reply s' → post reply (token, s'.completers token)) :
    Holds (under token (conditioned condition sequence)) (Kept inv) post (token, record)
      (issue command) := by
  refine Holds.issue fun others s reply s' hkept hstep => ?_
  obtain ⟨htokens, happart⟩ := (effect_of_performs hcommand hstep.2).apart
  refine ⟨_, hkept.own (hkeeps token command s reply s' hcommand hstep.1 hstep.2
    hkept.fresh hkept.state)
    htokens happart, hpost s reply s' (fun hne => ?_) hstep.2⟩
  exact hkept.records _ List.mem_cons_self hne

theorem holds_quiet {prog : Program AttemptCommand α} (hkeeps : Keeps condition sequence inv)
    (hprog : prog.Issues (Allowed False)) (htoken : token ≠ 0) :
    Holds (under token (conditioned condition sequence)) (Kept inv)
      (fun _ held => held = (token, none)) (token, none) prog := by
  induction prog with
  | ret value => rfl
  | call command next ih =>
    refine Holds.issue_bind (f := next) fun others s reply s' hkept hstep => ?_
    have heffect := effect_of_performs hprog.1 hstep.2
    have hnone := heffect.unrecorded (hkept.records _ List.mem_cons_self htoken)
    have hown := hkept.own
      (hkeeps token command s reply s' hprog.1.weaken hstep.1 hstep.2
        hkept.fresh hkept.state)
      heffect.apart.1 heffect.apart.2
    rw [hnone] at hown
    exact ⟨_, hown, ih reply (hprog.2 reply)⟩

theorem holds_any {prog : Program AttemptCommand α} (hkeeps : Keeps condition sequence inv)
    (hprog : prog.Issues (Allowed True)) :
    Holds (under token (conditioned condition sequence)) (Kept inv)
      (fun _ held => held.1 = token) (token, record) prog := by
  induction prog generalizing record with
  | ret value => rfl
  | call command next ih =>
    refine Holds.issue_bind (f := next) fun others s reply s' hkept hstep => ?_
    have heffect := effect_of_performs hprog.1 hstep.2
    exact ⟨_, hkept.own (hkeeps token command s reply s' hprog.1 hstep.1 hstep.2
      hkept.fresh hkept.state)
      heffect.apart.1 heffect.apart.2, ih reply (hprog.2 reply)⟩

def Working (record : Option Completer) : Prop :=
  ∀ completer, record = some completer → completer.returned = false

theorem Working.map (h : Working record)
    (hchange : ∀ completer, (change completer).returned = completer.returned) :
    Working (record.map change) := by
  intro completer hcompleter
  obtain ⟨before, hbefore, rfl⟩ := Option.map_eq_some_iff.mp hcompleter
  rw [hchange]
  exact h before hbefore

theorem noted_working (h : Working (s.completers token)) :
    (s.noted token change).completers token = (s.completers token).map change := by
  rw [noted_self]
  refine Option.map_congr fun completer hcompleter => ?_
  rw [h completer hcompleter, if_neg Bool.false_ne_true]

theorem Effect.working {completing : Prop} (h : Effect completing sequence token s s')
    (hworking : Working (s.completers token)) : Working (s'.completers token) := by
  have noted : ∀ {change : Completer → Completer},
      (∀ completer, (change completer).returned = completer.returned) →
      Working ((s.noted token change).completers token) := by
    intro change hchange
    rw [noted_working hworking]
    exact hworking.map hchange
  cases h with
  | nothing => exact hworking
  | reached =>
    intro completer hcompleter
    rcases reached_record hcompleter with hbefore | ⟨-, -, rfl⟩
    · exact hworking completer hbefore
    · rfl
  | heard => exact noted fun _ => rfl
  | marked => exact noted fun _ => rfl
  | counted => exact hworking
  | published announcement =>
    refine noted fun completer => ?_
    cases announcement <;> rfl
  | remembered => exact hworking
  | retried => exact hworking
  | acknowledged => exact hworking

theorem holds_working {prog : Program AttemptCommand α} (hkeeps : Keeps condition sequence inv)
    (hprog : prog.Issues (Allowed True)) (htoken : token ≠ 0) (hworking : Working record) :
    Holds (under token (conditioned condition sequence)) (Kept inv)
      (fun _ held => held.1 = token ∧ Working held.2) (token, record) prog := by
  induction prog generalizing record with
  | ret value => exact ⟨rfl, hworking⟩
  | call command next ih =>
    refine Holds.issue_bind (f := next) fun others s reply s' hkept hstep => ?_
    have hrecord := hkept.records _ List.mem_cons_self htoken
    have heffect := effect_of_performs hprog.1 hstep.2
    exact ⟨_, hkept.own (hkeeps token command s reply s' hprog.1 hstep.1 hstep.2
      hkept.fresh hkept.state)
      heffect.apart.1 heffect.apart.2, ih reply (hprog.2 reply)
        (heffect.working (hrecord.symm ▸ hworking))⟩

theorem holds_call {command : AttemptCommand (Except Fault Unit)} {run : State → State}
    (hkeeps : Keeps condition sequence inv) (hcommand : Allowed True command) (htoken : token ≠ 0)
    (hcomes : ∀ s reply s', performs sequence token command s reply s' → Comes run s reply s')
    (hrun : ∀ s, s.completers token = record → (run s).completers token = record.map change) :
    Holds (under token (conditioned condition sequence)) (Kept inv)
      (fun outcome held => held.1 = token ∧ (outcome = .ok () → held.2 = record.map change))
      (token, record) (call command).run := by
  refine holds_issue hkeeps hcommand fun s reply s' hrecord hstep => ⟨rfl, ?_⟩
  rintro rfl
  rcases hcomes s _ s' hstep with ⟨-, rfl⟩ | ⟨fault, hfault, -⟩
  · exact hrun s (hrecord htoken)
  · cases hfault

theorem holds_publish {announcement : Announcement} (hkeeps : Keeps condition sequence inv)
    (htoken : token ≠ 0) (hworking : Working record) :
    Holds (under token (conditioned condition sequence)) (Kept inv)
      (fun outcome held => held.1 = token ∧
        (outcome = .ok () → held.2 = record.map (Completer.announce announcement)))
      (token, record) (call (.publish announcement)).run := by
  refine holds_call hkeeps trivial htoken (fun _ _ _ hstep => hstep) fun s hrecord => ?_
  have hnoted : (s.publish token announcement).completers token =
      (s.completers token).map (Completer.announce announcement) :=
    noted_working (hrecord.symm ▸ hworking)
  rw [hnoted, hrecord]

theorem repository_sent {command : Command α} :
    (repository (sent command)).run = issue (.repository command) >>= fun reply =>
      .ret (reply.mapError (Fault.repository ∘ .write ∘ .mongo)) := by
  refine congrArg (Program.call _) (funext fun reply => ?_)
  cases reply <;> rfl

theorem holds_getConversation (hkeeps : Keeps condition sequence inv) (htoken : token ≠ 0)
    (hworking : Working record) :
    Holds (under token (conditioned condition sequence)) (Kept inv)
      (fun outcome held => held.1 = token ∧ ∀ conversation, outcome = .ok conversation →
        held.2 = record.map fun completer => { completer with read := some conversation })
      (token, record) (repository (sent .getConversation)).run := by
  have hissue : Holds (under token (conditioned condition sequence)) (Kept inv)
      (fun reply held => held.1 = token ∧ ∀ conversation, reply = .ok conversation →
        held.2 = record.map fun completer => { completer with read := some conversation })
      (token, record) (issue (.repository .getConversation)) := by
    refine holds_issue hkeeps trivial fun s reply s' hrecord hstep => ⟨rfl, ?_⟩
    rintro conversation rfl
    obtain ⟨session, hperformed, rfl⟩ := hstep
    obtain ⟨rfl, -⟩ := performed_getConversation hperformed
    rw [State.heard]
    rw [reached_self, ← hrecord htoken]
    exact noted_working ((hrecord htoken).symm ▸ hworking)
  rw [repository_sent]
  refine hissue.then ?_
  rintro (error | conversation) held ⟨htoken', hheld⟩
  · refine ⟨htoken', fun conversation herror => ?_⟩
    cases herror
  · refine ⟨htoken', fun conversation hsame => hheld conversation ?_⟩
    obtain rfl := Except.ok.inj hsame
    rfl

end Programs

end AiBuddy.Transcription
