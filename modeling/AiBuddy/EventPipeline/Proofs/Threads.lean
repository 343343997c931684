import AiBuddy.EventPipeline.Threads

/-!
# Threads and their ids

Every event is in one thread whatever the scores and the verifier say. The ids of the threads
stay apart until an event founds a thread under an id that is taken.
-/

namespace AiBuddy.EventPipeline

variable {host : Host} {settings : ThreadSettings} {verifier : Option Verifier}

theorem Choice.settle_chosen (choice : Choice) (i : Nat) (score : Rat)
    (answer : Bool × ThreadRelation) :
    (choice.settle i score answer).chosen = choice.chosen ∨
      (choice.settle i score answer).chosen = some i := by
  unfold Choice.settle
  split
  · exact .inl rfl
  · exact .inl rfl
  · split
    · exact .inr rfl
    · exact .inl rfl

variable {event : AtomicEvent} {threads : List GlobalThread}

theorem considerThread_chosen {choice : Choice} {candidate : Nat × Rat}
    (h : ∀ i, choice.chosen = some i → i < threads.length) :
    ∀ i, (considerThread host verifier event threads choice candidate).chosen = some i →
      i < threads.length := by
  intro i hi
  unfold considerThread at hi
  split at hi
  · exact h i hi
  · next thread hthread =>
    dsimp only at hi
    generalize membership host verifier event thread candidate.2 choice.asked = found at hi
    rcases Choice.settle_chosen { choice with asked := choice.asked + found.2.toNat } candidate.1
      candidate.2 found.1 with hsame | hchosen
    · exact h i (hsame.symm.trans hi)
    · obtain rfl := Option.some.inj (hchosen.symm.trans hi)
      exact (List.getElem?_eq_some_iff.mp hthread).choose

variable {s : Linking}

theorem choose_lt {i : Nat} (h : (s.choose host settings verifier event).chosen = some i) :
    i < s.threads.length := by
  have hfold : ∀ (candidates : List (Nat × Rat)) (choice : Choice),
      (∀ i, choice.chosen = some i → i < s.threads.length) →
      ∀ i, (candidates.foldl (considerThread host verifier event s.threads) choice).chosen =
        some i → i < s.threads.length := by
    intro candidates
    induction candidates with
    | nil => exact fun choice hchoice => hchoice
    | cons candidate candidates ih =>
      exact fun choice hchoice => ih _ (considerThread_chosen hchoice)
  exact hfold _ _ (fun _ hnone => by cases hnone) i h

theorem link_cases {host : Host} {settings : ThreadSettings} {verifier : Option Verifier}
    {s : Linking} {event : AtomicEvent} :
    ∃ counted : Linking, counted.threads = s.threads ∧ counted.events = s.events ∧
      (((s.choose host settings verifier event).chosen = none ∧
          s.link host settings verifier event =
            counted.found host event (s.choose host settings verifier event)) ∨
        ∃ before thread after, s.threads = before ++ thread :: after ∧
          (s.choose host settings verifier event).chosen ≠ none ∧
          (s.link host settings verifier event).threads =
            before ++ attach host thread event :: after ∧
          (s.link host settings verifier event).events =
            s.events ++ [{ event with threadId := thread.threadId }]) := by
  refine ⟨{ s with comparisons := s.comparisons +
    if s.threads.length ≤ settings.topK then max s.threads.length 1 else settings.topK },
    rfl, rfl, ?_⟩
  cases hchosen : (s.choose host settings verifier event).chosen with
  | none =>
    refine .inl ⟨rfl, ?_⟩
    unfold Linking.link
    dsimp only
    rw [hchosen]
    rfl
  | some i =>
    have hlt := choose_lt hchosen
    have hget : s.threads[i]? = some s.threads[i] := List.getElem?_eq_getElem hlt
    have hlink : (s.link host settings verifier event).threads =
          s.threads.set i (attach host s.threads[i] event) ∧
        (s.link host settings verifier event).events =
          s.events ++ [{ event with threadId := s.threads[i].threadId }] := by
      unfold Linking.link
      dsimp only
      rw [hchosen, Option.bind_some, hget]
      exact ⟨rfl, rfl⟩
    refine .inr ⟨s.threads.take i, s.threads[i], s.threads.drop (i + 1), ?_, nofun, ?_, hlink.2⟩
    · rw [← List.drop_eq_getElem_cons, List.take_append_drop]
    · rw [hlink.1, List.set_eq_take_append_cons_drop, if_pos hlt]

structure Linked (s : Linking) : Prop where
  shares : (s.threads.flatMap GlobalThread.eventIds).Perm (s.events.map AtomicEvent.eventId)
  named : ∀ event ∈ s.events, ∃ thread ∈ s.threads,
    thread.threadId = event.threadId ∧ event.eventId ∈ thread.eventIds

variable {thread : GlobalThread}

theorem attach_eventIds (h : event.eventId ∉ thread.eventIds) :
    (attach host thread event).eventIds = thread.eventIds ++ [event.eventId] := by
  simp [attach, h]

variable {eventId : String}

theorem mem_attach_eventIds :
    eventId ∈ (attach host thread event).eventIds ↔
      eventId = event.eventId ∨ eventId ∈ thread.eventIds := by
  unfold attach
  dsimp only
  split
  · next hmem =>
    refine ⟨.inr, ?_⟩
    rintro (rfl | hold)
    · exact hmem
    · exact hold
  · rw [List.mem_append, List.mem_singleton, or_comm]

theorem Linked.link (h : Linked s) (hnew : event.eventId ∉ s.events.map AtomicEvent.eventId) :
    Linked (s.link host settings verifier event) := by
  obtain ⟨counted, hthreads, hevents, ⟨-, hlink⟩ | ⟨before, thread, after, hsplit, -, hlinked,
    hlinkedEvents⟩⟩ := link_cases
  · rw [hlink]
    constructor
    · simp only [Linking.found, hthreads, hevents, List.flatMap_append, List.map_append]
      exact h.shares.append (.refl _)
    · intro other hother
      simp only [Linking.found, hthreads, hevents, List.mem_append, List.mem_singleton] at hother ⊢
      rcases hother with hother | rfl
      · obtain ⟨thread, hthread, hnamed⟩ := h.named other hother
        exact ⟨thread, .inl hthread, hnamed⟩
      · exact ⟨newThread host event, .inr rfl, rfl, List.mem_singleton.mpr rfl⟩
  · have hfresh : event.eventId ∉ thread.eventIds := by
      intro hmem
      refine hnew (h.shares.subset ?_)
      rw [hsplit]
      exact List.mem_flatMap.mpr ⟨thread, by simp, hmem⟩
    constructor
    · have hshares := h.shares
      rw [hsplit] at hshares
      rw [hlinked, hlinkedEvents]
      simp only [List.flatMap_append, List.flatMap_cons, List.map_append, List.map_cons,
        List.map_nil, attach_eventIds hfresh] at hshares ⊢
      refine .trans ?_ (hshares.append (.refl _))
      rw [List.append_assoc, List.append_assoc, List.append_assoc]
      refine (List.Perm.refl _).append ((List.Perm.refl _).append ?_)
      exact List.perm_append_comm
    · intro other hother
      rw [hlinkedEvents, List.mem_append, List.mem_singleton] at hother
      rw [hlinked]
      rcases hother with hother | rfl
      · obtain ⟨owner, howner, hid, hmem⟩ := h.named other hother
        rw [hsplit, List.mem_append, List.mem_cons] at howner
        rcases howner with howner | rfl | howner
        · exact ⟨owner, by simp [howner], hid, hmem⟩
        · exact ⟨attach host owner event, by simp, hid, mem_attach_eventIds.mpr (.inr hmem)⟩
        · exact ⟨owner, by simp [howner], hid, hmem⟩
      · exact ⟨attach host thread event, by simp, rfl, mem_attach_eventIds.mpr (.inl rfl)⟩

theorem linkOrdered_concat {events : List AtomicEvent} {event : AtomicEvent} :
    linkOrdered host settings verifier (events ++ [event]) =
      (linkOrdered host settings verifier events).link host settings verifier event := by
  rw [linkOrdered, List.foldl_append]
  rfl

theorem linkOrdered_eventIds (host : Host) (settings : ThreadSettings)
    (verifier : Option Verifier) (events : List AtomicEvent) :
    (linkOrdered host settings verifier events).events.map AtomicEvent.eventId =
      events.map AtomicEvent.eventId := by
  induction events using List.reverseRecOn with
  | nil => rfl
  | append_singleton events event ih =>
    rw [linkOrdered_concat, List.map_append, ← ih]
    obtain ⟨counted, -, hevents, ⟨-, hlink⟩ | ⟨_, thread, _, -, -, -, hlink⟩⟩ :=
      link_cases
    · rw [hlink]
      simp [Linking.found, hevents]
    · simp [hlink]

variable {events : List AtomicEvent}

theorem linkOrdered_linked (hids : (events.map AtomicEvent.eventId).Nodup) :
    Linked (linkOrdered host settings verifier events) := by
  induction events using List.reverseRecOn with
  | nil => exact ⟨.refl _, fun _ hnone => absurd hnone List.not_mem_nil⟩
  | append_singleton events event ih =>
    rw [List.map_append, List.nodup_append] at hids
    obtain ⟨hbefore, -, hapart⟩ := hids
    rw [linkOrdered_concat]
    refine (ih hbefore).link ?_
    rw [linkOrdered_eventIds]
    exact fun hmem => hapart _ hmem _ List.mem_cons_self rfl

def Linking.Collides (host : Host) (settings : ThreadSettings) (verifier : Option Verifier)
    (s : Linking) (event : AtomicEvent) : Prop :=
  (s.choose host settings verifier event).chosen = none ∧
    newThreadId host event ∈ s.threads.map GlobalThread.threadId

theorem link_nodup_iff :
    ((s.link host settings verifier event).threads.map GlobalThread.threadId).Nodup ↔
      (s.threads.map GlobalThread.threadId).Nodup ∧
        ¬ s.Collides host settings verifier event := by
  unfold Linking.Collides
  obtain ⟨counted, hthreads, -, ⟨hchosen, hlink⟩ | ⟨before, thread, after, hsplit, hchosen, hlink,
    -⟩⟩ := link_cases
  · have hids : (s.link host settings verifier event).threads.map GlobalThread.threadId =
        s.threads.map GlobalThread.threadId ++ [newThreadId host event] := by
      rw [hlink, ← hthreads, Linking.found, List.map_append]
      rfl
    rw [hids, List.nodup_append_comm, List.singleton_append, List.nodup_cons, hchosen]
    simp [and_comm]
  · have hids : (s.link host settings verifier event).threads.map GlobalThread.threadId =
        s.threads.map GlobalThread.threadId := by
      rw [hlink, hsplit, List.map_append, List.map_append, List.map_cons, List.map_cons]
      rfl
    rw [hids]
    simp [hchosen]

theorem linkOrdered_nodup_iff :
    ((linkOrdered host settings verifier events).threads.map GlobalThread.threadId).Nodup ↔
      ∀ before event after, events = before ++ event :: after →
        ¬ (linkOrdered host settings verifier before).Collides host settings verifier event := by
  induction events using List.reverseRecOn with
  | nil => simp [linkOrdered]
  | append_singleton events last ih =>
    rw [linkOrdered_concat, link_nodup_iff, ih]
    constructor
    · rintro ⟨hearlier, hlast⟩ before event after hsplit
      rcases List.eq_nil_or_concat after with rfl | ⟨after, final, rfl⟩
      · obtain ⟨rfl, heq⟩ := List.append_inj' hsplit rfl
        obtain rfl := List.singleton_inj.mp heq
        exact hlast
      · rw [List.concat_eq_append, ← List.cons_append, ← List.append_assoc] at hsplit
        exact hearlier _ _ _ (List.append_inj_left' hsplit rfl)
    · intro hall
      refine ⟨fun before event after hsplit => ?_, hall events last [] rfl⟩
      exact hall before event (after ++ [last]) (by rw [hsplit, List.append_assoc]; rfl)

structure WellThreaded (events : List AtomicEvent) (s : Linking) : Prop where
  all : (s.events.map AtomicEvent.eventId).Perm (events.map AtomicEvent.eventId)
  one : ∀ event ∈ s.events,
    (s.threads.filter fun thread => event.eventId ∈ thread.eventIds).length = 1
  ids : (s.threads.map GlobalThread.threadId).Nodup
  named : ∀ event ∈ s.events, ∀ thread ∈ s.threads,
    thread.threadId = event.threadId ↔ event.eventId ∈ thread.eventIds

theorem filter_length_of_mem (hnodup : (threads.flatMap GlobalThread.eventIds).Nodup)
    (h : ∃ thread ∈ threads, eventId ∈ thread.eventIds) :
    (threads.filter fun thread => eventId ∈ thread.eventIds).length = 1 := by
  induction threads with
  | nil => simp at h
  | cons first rest ih =>
    rw [List.flatMap_cons, List.nodup_append] at hnodup
    obtain ⟨-, hrest, hapart⟩ := hnodup
    by_cases hfirst : eventId ∈ first.eventIds
    · have hnone : rest.filter (fun thread => eventId ∈ thread.eventIds) = [] := by
        rw [List.filter_eq_nil_iff]
        intro thread hthread hmem
        exact hapart _ hfirst _ (List.mem_flatMap.mpr ⟨thread, hthread, of_decide_eq_true hmem⟩) rfl
      rw [List.filter_cons_of_pos (by simpa using hfirst), hnone]
      rfl
    · rw [List.filter_cons_of_neg (by simpa using hfirst)]
      refine ih hrest ?_
      obtain ⟨thread, hthread, hmem⟩ := h
      rcases List.mem_cons.mp hthread with rfl | hthread
      · exact absurd hmem hfirst
      · exact ⟨thread, hthread, hmem⟩

theorem thread_unique (hnodup : (threads.flatMap GlobalThread.eventIds).Nodup)
    {other : GlobalThread} (hthread : thread ∈ threads) (hother : other ∈ threads)
    (hmem : eventId ∈ thread.eventIds) (hmem' : eventId ∈ other.eventIds) : thread = other := by
  have hone := filter_length_of_mem hnodup ⟨thread, hthread, hmem⟩
  obtain ⟨owner, howner⟩ := List.length_eq_one_iff.mp hone
  have hin : ∀ found ∈ threads, eventId ∈ found.eventIds → found = owner := by
    intro found hfound hcontains
    have hfiltered : found ∈ threads.filter fun thread => eventId ∈ thread.eventIds :=
      List.mem_filter.mpr ⟨hfound, by simpa using hcontains⟩
    rw [howner] at hfiltered
    exact List.mem_singleton.mp hfiltered
  rw [hin thread hthread hmem, hin other hother hmem']

theorem wellThreaded_iff (host : Host) (settings : ThreadSettings) (verifier : Option Verifier)
    (hids : (events.map AtomicEvent.eventId).Nodup) :
    WellThreaded events (linkOrdered host settings verifier events) ↔
      ((linkOrdered host settings verifier events).threads.map GlobalThread.threadId).Nodup := by
  refine ⟨WellThreaded.ids, fun hthreads => ?_⟩
  have hlinked : Linked (linkOrdered host settings verifier events) := linkOrdered_linked hids
  have hevents := linkOrdered_eventIds host settings verifier events
  have hshared : ((linkOrdered host settings verifier events).threads.flatMap
      GlobalThread.eventIds).Nodup := by
    rw [hlinked.shares.nodup_iff, hevents]
    exact hids
  refine ⟨by rw [hevents], fun event hevent => ?_, hthreads, fun event hevent thread hthread => ?_⟩
  · obtain ⟨thread, hthread, -, hmem⟩ := hlinked.named event hevent
    exact filter_length_of_mem hshared ⟨thread, hthread, hmem⟩
  · obtain ⟨owner, howner, hid, hmem⟩ := hlinked.named event hevent
    constructor
    · intro hnamed
      have hsame : thread = owner :=
        List.inj_on_of_nodup_map hthreads hthread howner (hnamed.trans hid.symm)
      rw [hsame]
      exact hmem
    · intro hcontains
      rw [thread_unique hshared hthread howner hcontains hmem]
      exact hid

theorem fillEmbeddings_eventIds {vectors : List (List Rat)} {filled : List AtomicEvent}
    (h : fillEmbeddings host vectors events = some filled) :
    filled.map AtomicEvent.eventId = events.map AtomicEvent.eventId := by
  induction events generalizing vectors filled with
  | nil =>
    obtain rfl : [] = filled := by simpa [fillEmbeddings] using h
    rfl
  | cons event events ih =>
    unfold fillEmbeddings at h
    dsimp only at h
    split at h
    · obtain ⟨rest, hrest, heq⟩ := Option.bind_eq_some_iff.mp h
      obtain rfl := Option.some.inj heq
      rw [List.map_cons, List.map_cons, ih hrest]
    · cases vectors with
      | nil => cases h
      | cons vector vectors =>
        obtain ⟨rest, hrest, heq⟩ := Option.bind_eq_some_iff.mp h
        obtain rfl := Option.some.inj heq
        rw [List.map_cons, List.map_cons, ih hrest]

theorem embedded_eventIds {embed : List String → List (List Rat)} {filled : List AtomicEvent}
    (h : embedded host embed events = some filled) :
    filled.map AtomicEvent.eventId = events.map AtomicEvent.eventId := by
  unfold embedded at h
  dsimp only at h
  split at h
  · rw [Option.some.inj h]
  · exact fillEmbeddings_eventIds h

/-- The threads and their ids are as they should be exactly when no event founds a thread while
one of the same id is there. -/
theorem well_threaded_iff_no_collision {embed : List String → List (List Rat)}
    {events filled : List AtomicEvent} (hembedded : embedded host embed events = some filled)
    (hids : (events.map AtomicEvent.eventId).Nodup) :
    ∃ result, linkGlobalThreads host settings verifier embed events = some result ∧
      (WellThreaded events result ↔ ∀ before event after,
        filled.insertionSort eventBefore = before ++ event :: after →
          ¬ (linkOrdered host settings verifier before).Collides host settings verifier event) := by
  refine ⟨linkOrdered host settings verifier (filled.insertionSort eventBefore), ?_, ?_⟩
  · rw [linkGlobalThreads, hembedded]
    rfl
  · have hperm : ((filled.insertionSort eventBefore).map AtomicEvent.eventId).Perm
        (events.map AtomicEvent.eventId) := by
      rw [← embedded_eventIds hembedded]
      exact (List.perm_insertionSort _ _).map _
    have hsorted := wellThreaded_iff host settings verifier (hperm.nodup_iff.mpr hids)
    rw [← linkOrdered_nodup_iff, ← hsorted]
    exact ⟨fun h => ⟨h.all.trans hperm.symm, h.one, h.ids, h.named⟩,
      fun h => ⟨h.all.trans hperm, h.one, h.ids, h.named⟩⟩

def reportHost : Host where
  casefold := Text.lower
  casefold_empty := lower_empty
  isWord c := c.isAlphanum || c = '_'
  digest text := text
  cosine left right := ((left.zip right).map fun pair => pair.1 * pair.2).sum

def reportSettings : ThreadSettings := ⟨8, 15 / 100, 72 / 100⟩

def reportEvents : List AtomicEvent :=
  [{  eventId := "E_1", kind := .request, meaning := "Send the report to Ravi.",
      object := some "report", entities := ["Ravi"], sequenceIds := [1], embedding := [1, 0],
      conversationId := "c" },
    { eventId := "E_2", kind := .issue, meaning := "The lab report is missing a page.",
      object := some "report", entities := ["Lab"], sequenceIds := [9], embedding := [0, 1],
      conversationId := "c" }]

theorem reports_share_thread_id :
    ∃ result, linkGlobalThreads reportHost reportSettings none (fun _ => []) reportEvents =
        some result ∧ (reportEvents.map AtomicEvent.eventId).Nodup ∧
      result.threads.map GlobalThread.threadId =
        ["THREAD_c|report", "THREAD_c|report"] ∧
      ¬ WellThreaded reportEvents result := by
  refine ⟨linkOrdered reportHost reportSettings none reportEvents, by decide +kernel,
    by decide +kernel, by decide +kernel, fun h => absurd h.ids (by decide +kernel)⟩

theorem well_threaded_iff_no_collision_sample :
    ∃ result, linkGlobalThreads reportHost reportSettings none (fun _ => []) reportEvents =
        some result ∧
      (WellThreaded reportEvents result ↔ ∀ before event after,
        reportEvents.insertionSort eventBefore = before ++ event :: after →
          ¬ (linkOrdered reportHost reportSettings none before).Collides reportHost reportSettings
            none event) :=
  well_threaded_iff_no_collision (by decide +kernel) (by decide +kernel)

end AiBuddy.EventPipeline
