import AiBuddy.Speech.Jobs

/-!
# A stored transcript

Each thread knows something of the log: an attempt, that it has the latest lease, that it has found
the hash not completed, and that it has stored no result yet; every thread, what it publishes or
deletes after. The log never shrinks, and only the attempt with the latest lease can store a result,
so what one thread knows is not undone by the others.
-/

namespace AiBuddy.Speech

open Program

/-! ## What a thread knows -/

inductive Stage where
  | idle
  | claimed (token : Nat)
  | working (token : Nat)
  | storing (token : Nat)
  | published
  | marked

def Stage.token? : Stage → Option Nat
  | claimed token | working token | storing token => some token
  | idle | published | marked => none

def Stage.Fits : Stage → State → Prop
  | idle, _ => True
  | claimed token, s => token ≤ s.token ∧ .saved token ∉ s.log
  | working token, s => token ≤ s.token ∧ .saved token ∉ s.log ∧ .began token ∈ s.log
  | storing token, s => token ≤ s.token ∧ .began token ∈ s.log
  | published, s => .published ∈ s.log
  | marked, s => .marked ∈ s.log

structure Sound (s : State) : Prop where
  saved_le : ∀ token, .saved token ∈ s.log → token ≤ s.token
  began_le : ∀ token, .began token ∈ s.log → token ≤ s.token
  done : s.done = true → .published ∈ s.log
  settled : s.settled = true → .marked ∈ s.log
  stored : ∀ hash, s.hash = some hash → hash.vectorStatus = some "stored" → .marked ∈ s.log
  acked : AckedAfterPublish s.log
  deleted : DeletedAfterMarker s.log

structure Kept (s : State) : Prop where
  began : ∀ began stored, .began began ∈ s.log → .saved stored ∈ s.log → began ≤ stored
  completed : ∀ token, .saved token ∈ s.log → s.Undeleted → s.Completed
  once : TranscribedOnce s.log

structure Goes (strict : Prop) (stages : List Stage) (s : State) : Prop where
  sound : Sound s
  kept : strict → Kept s
  tokens : (stages.filterMap Stage.token?).Nodup
  fits : ∀ stage ∈ stages, stage.Fits s

structure Moves (own : Option Nat) (s s' : State) : Prop where
  token : s.token ≤ s'.token
  log : ∃ new, s'.log = new ++ s.log ∧ ∀ token, .saved token ∈ new → own = some token

variable {strict : Prop} {stage stage' : Stage} {others : List Stage} {s s' : State}
  {token : Nat}

variable {own : Option Nat} {entry : Entry}

theorem Moves.mem (h : Moves own s s') (hmem : entry ∈ s.log) : entry ∈ s'.log := by
  obtain ⟨new, hlog, -⟩ := h.log
  rw [hlog]
  exact List.mem_append_right _ hmem

theorem Moves.notSaved (h : Moves own s s') (hne : own ≠ some token)
    (hsaved : .saved token ∉ s.log) : .saved token ∉ s'.log := by
  obtain ⟨new, hlog, hnew⟩ := h.log
  rw [hlog, List.mem_append, not_or]
  exact ⟨fun hmem => hne (hnew token hmem), hsaved⟩

theorem Stage.Fits.moves (hfits : stage.Fits s) (h : Moves own s s')
    (hne : ∀ token, stage.token? = some token → own ≠ some token) : stage.Fits s' := by
  cases stage with
  | idle => trivial
  | claimed token =>
    exact ⟨hfits.1.trans h.token, h.notSaved (hne token rfl) hfits.2⟩
  | working token =>
    exact ⟨hfits.1.trans h.token, h.notSaved (hne token rfl) hfits.2.1, h.mem hfits.2.2⟩
  | storing token => exact ⟨hfits.1.trans h.token, h.mem hfits.2⟩
  | published => exact h.mem hfits
  | marked => exact h.mem hfits

theorem Stage.Fits.token_le (hfits : stage.Fits s) (htoken : stage.token? = some token) :
    token ≤ s.token := by
  cases stage with
  | claimed => exact Option.some.inj htoken ▸ hfits.1
  | working => exact Option.some.inj htoken ▸ hfits.1
  | storing => exact Option.some.inj htoken ▸ hfits.1
  | idle => cases htoken
  | published => cases htoken
  | marked => cases htoken

theorem Goes.step (h : Goes strict (stage :: others) s) (hmoves : Moves stage.token? s s')
    (hsound : Sound s') (hkept : strict → Kept s') (hfits : stage'.Fits s')
    (htoken : ∀ token, stage'.token? = some token →
      stage.token? = some token ∨ s.token < token) : Goes strict (stage' :: others) s' := by
  obtain ⟨hothers, hne⟩ : (others.filterMap Stage.token?).Nodup ∧
      ∀ token, stage.token? = some token → token ∉ others.filterMap Stage.token? := by
    have htokens := h.tokens
    cases hown : stage.token? with
    | none =>
      rw [List.filterMap_cons_none hown] at htokens
      exact ⟨htokens, nofun⟩
    | some own =>
      rw [List.filterMap_cons_some hown, List.nodup_cons] at htokens
      exact ⟨htokens.2, fun token hsome => Option.some.inj hsome ▸ htokens.1⟩
  refine ⟨hsound, hkept, ?_, ?_⟩
  · cases hown : stage'.token? with
    | none => rwa [List.filterMap_cons_none hown]
    | some token =>
      rw [List.filterMap_cons_some hown, List.nodup_cons]
      refine ⟨?_, hothers⟩
      rcases htoken token hown with hsame | hlt
      · exact hne token hsame
      · intro hmem
        obtain ⟨other, hother, hsome⟩ := List.mem_filterMap.mp hmem
        have hle := (h.fits other (List.mem_cons_of_mem _ hother)).token_le hsome
        omega
  · intro other hother
    rcases List.mem_cons.mp hother with rfl | hother
    · exact hfits
    · refine (h.fits other (List.mem_cons_of_mem _ hother)).moves hmoves ?_
      intro token hsome hown
      exact hne token hown (List.mem_filterMap.mpr ⟨other, hother, hsome⟩)

theorem Goes.perm {stages stages' : List Stage} (hperm : stages.Perm stages')
    (h : Goes strict stages s) : Goes strict stages' s :=
  ⟨h.sound, h.kept, ((hperm.filterMap _).nodup_iff).mp h.tokens,
    fun stage hmem => h.fits stage (hperm.mem_iff.mpr hmem)⟩

/-! ## What a command adds to the log -/

def Entry.plain : Entry → Bool
  | .published | .marked | .recorded _ => true
  | _ => false

structure Calm (s s' : State) : Prop where
  token : s'.token = s.token
  log : ∃ new, (∀ entry ∈ new, entry.plain = true) ∧ s'.log = new ++ s.log
  done : s'.done = true → s.done = true ∨ .published ∈ s'.log
  settled : s'.settled = true → s.settled = true ∨ .marked ∈ s'.log
  stored : ∀ hash', s'.hash = some hash' → hash'.vectorStatus = some "stored" →
    (∃ hash, s.hash = some hash ∧ hash.vectorStatus = some "stored") ∨ .marked ∈ s'.log
  completed : s.Completed → s'.Completed

namespace Calm

section

variable (h : Calm s s')

include h

theorem moves (own : Option Nat) : Moves own s s' := by
  obtain ⟨new, hplain, hlog⟩ := h.log
  refine ⟨Nat.le_of_eq h.token.symm, new, hlog, fun token hmem => ?_⟩
  cases hplain _ hmem

theorem mem (hmem : entry ∈ s.log) : entry ∈ s'.log :=
  (h.moves none).mem hmem

theorem of_mem (hentry : entry.plain = false) (hmem : entry ∈ s'.log) : entry ∈ s.log := by
  obtain ⟨new, hplain, hlog⟩ := h.log
  rw [hlog] at hmem
  rcases List.mem_append.mp hmem with hnew | hold
  · rw [hplain _ hnew] at hentry
    cases hentry
  · exact hold

theorem always {p : Entry → List Entry → Prop} (hlog : Always p s.log)
    (hp : ∀ entry log, entry.plain = true → p entry log) : Always p s'.log := by
  obtain ⟨new, hplain, hnew⟩ := h.log
  rw [hnew]
  exact hlog.append fun entry hmem log => hp entry log (hplain entry hmem)

theorem undeleted (hs : s'.Undeleted) : s.Undeleted := by
  obtain ⟨new, -, hlog⟩ := h.log
  rw [State.Undeleted, hlog] at hs
  exact hs.earlier

theorem sound (hs : Sound s) : Sound s' where
  saved_le token hmem := h.token.symm ▸ hs.saved_le token (h.of_mem rfl hmem)
  began_le token hmem := h.token.symm ▸ hs.began_le token (h.of_mem rfl hmem)
  done hdone := (h.done hdone).elim (fun hold => h.mem (hs.done hold)) id
  settled hsettled := (h.settled hsettled).elim (fun hold => h.mem (hs.settled hold)) id
  stored hash' hsome hstored :=
    (h.stored hash' hsome hstored).elim
      (fun ⟨hash, hold, hstatus⟩ => h.mem (hs.stored hash hold hstatus)) id
  acked := h.always hs.acked fun entry log hplain heq => by
    rw [heq] at hplain
    cases hplain
  deleted := h.always hs.deleted fun entry log hplain heq => by
    rw [heq] at hplain
    cases hplain

theorem kept (hs : Kept s) : Kept s' where
  began began stored hbegan hstored :=
    hs.began began stored (h.of_mem rfl hbegan) (h.of_mem rfl hstored)
  completed token hsaved hundeleted :=
    h.completed (hs.completed token (h.of_mem rfl hsaved) (h.undeleted hundeleted))
  once := h.always hs.once fun entry log hplain token stored heq => by
    rcases heq with rfl | rfl
    · cases hplain
    · cases hplain

theorem goes (hgoes : Goes strict (stage :: others) s) (hfits : stage'.Fits s')
    (htoken : stage'.token? = stage.token? ∨ stage'.token? = none) :
    Goes strict (stage' :: others) s' := by
  refine hgoes.step (h.moves _) (h.sound hgoes.sound) (fun hstrict => h.kept (hgoes.kept hstrict))
    hfits fun token hsome => ?_
  rcases htoken with hsame | hnone
  · exact .inl (hsame ▸ hsome)
  · rw [hnone] at hsome
    cases hsome

theorem goes_same (hgoes : Goes strict (stage :: others) s) : Goes strict (stage :: others) s' := by
  have hfits := hgoes.fits stage List.mem_cons_self
  exact h.goes hgoes (hfits.moves (h.moves none) nofun) (.inl rfl)

end

end Calm

theorem Calm.refl (s : State) : Calm s s where
  token := rfl
  log := ⟨[], nofun, rfl⟩
  done := .inl
  settled := .inl
  stored hash hsome hstored := .inl ⟨hash, hsome, hstored⟩
  completed := id

theorem calm_add {entries : List Entry} (h : ∀ entry ∈ entries, entry.plain = true) :
    Calm s (s.add entries) where
  token := rfl
  log := ⟨entries, h, rfl⟩
  done := .inl
  settled := .inl
  stored hash hsome hstored := .inl ⟨hash, hsome, hstored⟩
  completed := id

/-! ## Moves of an attempt -/

def Begun (token : Nat) (stage : Stage) : Prop := stage = .working token ∨ stage = .storing token

theorem Begun.fits (h : Begun token stage) (hfits : stage.Fits s) :
    (Stage.storing token).Fits s := by
  rcases h with rfl | rfl
  · exact ⟨hfits.1, hfits.2.2⟩
  · exact hfits

theorem Kept.notSaved (h : Kept s) (hsound : Sound s) (hbegan : .began token ∈ s.log)
    (htoken : s.token = token) (hsaved : .saved token ∉ s.log) (stored : Nat) :
    .saved stored ∉ s.log := by
  intro hstored
  have hle := h.began token stored hbegan hstored
  have hlatest := hsound.saved_le stored hstored
  have hsame : stored = token := by omega
  exact hsaved (hsame ▸ hstored)

structure Enters (added : Option Entry) (s s' : State) : Prop where
  log : s'.log = added.toList ++ s.log
  token : s.token ≤ s'.token
  done : s'.done = true → s.done = true
  settled : s'.settled = true → s.settled = true
  stored : ∀ hash', s'.hash = some hash' → hash'.vectorStatus = some "stored" →
    ∃ hash, s.hash = some hash ∧ hash.vectorStatus = some "stored"

theorem enters_add {entry : Entry} : Enters (some entry) s (s.add [entry]) where
  log := rfl
  token := Nat.le_refl _
  done := id
  settled := id
  stored hash hsome hstored := ⟨hash, hsome, hstored⟩

namespace Enters

variable {added : Option Entry}

theorem mem (h : Enters added s s') (hmem : entry ∈ s.log) : entry ∈ s'.log := by
  rw [h.log]
  exact List.mem_append_right _ hmem

theorem mem_cases (h : Enters added s s') (hmem : entry ∈ s'.log) :
    added = some entry ∨ entry ∈ s.log := by
  rw [h.log, List.mem_append, Option.mem_toList] at hmem
  exact hmem

theorem of_mem (h : Enters added s s') (hne : added ≠ some entry) (hmem : entry ∈ s'.log) :
    entry ∈ s.log := (h.mem_cases hmem).resolve_left hne

theorem entered (h : Enters (some entry) s s') : entry ∈ s'.log := by
  rw [h.log]
  exact List.mem_cons_self

section

variable (h : Enters added s s')

include h

theorem always {p : Entry → List Entry → Prop} (hlog : Always p s.log)
    (hp : ∀ entry, added = some entry → p entry s.log) : Always p s'.log := by
  rw [h.log]
  cases added with
  | none => exact hlog
  | some entry => exact ⟨hp entry rfl, hlog⟩

theorem undeleted (hs : s'.Undeleted) : s.Undeleted := by
  rw [State.Undeleted, h.log] at hs
  exact hs.earlier

theorem moves (hown : ∀ token, added = some (.saved token) → own = some token) : Moves own s s' :=
  ⟨h.token, _, h.log, fun token hmem => hown token (Option.mem_toList.mp hmem)⟩

theorem sound (hs : Sound s)
    (hattempt : ∀ token, added = some (.saved token) ∨ added = some (.began token) →
      token ≤ s'.token)
    (hacked : added = some .acked → .published ∈ s.log)
    (hdeleted : added = some .deleted → .marked ∈ s.log) : Sound s' where
  saved_le token hmem := by
    rcases h.mem_cases hmem with hnew | hold
    · exact hattempt token (.inl hnew)
    · exact (hs.saved_le token hold).trans h.token
  began_le token hmem := by
    rcases h.mem_cases hmem with hnew | hold
    · exact hattempt token (.inr hnew)
    · exact (hs.began_le token hold).trans h.token
  done hdone := h.mem (hs.done (h.done hdone))
  settled hsettled := h.mem (hs.settled (h.settled hsettled))
  stored hash' hsome hstored := by
    obtain ⟨hash, hbefore, hstatus⟩ := h.stored hash' hsome hstored
    exact h.mem (hs.stored hash hbefore hstatus)
  acked := h.always hs.acked fun entry hentry heq => .inl (hacked (heq ▸ hentry))
  deleted := h.always hs.deleted fun entry hentry heq => .inl (hdeleted (heq ▸ hentry))

theorem kept (hs : Kept s)
    (hattempt : ∀ token, added ≠ some (.saved token) ∧ added ≠ some (.began token))
    (hcompleted : ∀ token, .saved token ∈ s.log → s'.Undeleted → s.Completed → s'.Completed)
    (honce : ∀ token stored, added = some (.transcribed token) ∨ added = some (.failed token) →
      .saved stored ∈ s.log → token ≤ stored) :
    Kept s' where
  began began stored hbegan hstored :=
    hs.began began stored (h.of_mem (hattempt began).2 hbegan)
      (h.of_mem (hattempt stored).1 hstored)
  completed token hsaved hundeleted := by
    have hbefore := h.of_mem (hattempt token).1 hsaved
    exact hcompleted token hbefore hundeleted
      (hs.completed token hbefore (h.undeleted hundeleted))
  once := h.always hs.once fun entry hentry token stored heq hstored => by
    refine honce token stored ?_ hstored
    rcases heq with rfl | rfl
    · exact .inl hentry
    · exact .inr hentry

theorem kept_of_none (hs : Kept s) (hnone : ∀ token, .saved token ∉ s.log)
    (hentry : ∀ token, added ≠ some (.saved token)) :
    Kept s' := by
  have hnone' : ∀ token, .saved token ∉ s'.log := fun token hmem =>
    hnone token (h.of_mem (hentry token) hmem)
  exact {
    began := fun _ stored _ hstored => absurd hstored (hnone' stored)
    completed := fun token hsaved _ => absurd hsaved (hnone' token)
    once := h.always hs.once fun _ _ _ stored _ hstored => absurd hstored (hnone stored) }

end

end Enters

theorem Goes.began (h : Goes strict (.claimed token :: others) s)
    (hcompleted : ¬ s.Completed) (hundeleted : strict → s.Undeleted) :
    Goes strict (.working token :: others) (s.add [.began token]) := by
  have hfits := h.fits _ List.mem_cons_self
  have henters : Enters (some (.began token)) s (s.add [.began token]) := enters_add
  have hmoves : Moves none s (s.add [.began token]) := henters.moves nofun
  have hstill := hfits.moves hmoves nofun
  refine h.step (henters.moves nofun) ?_ (fun hstrict => ?_)
    ⟨hstill.1, hstill.2, henters.entered⟩ fun _ hsome => .inl hsome
  · refine henters.sound h.sound (fun other hother => ?_) nofun nofun
    rcases hother with heq | heq
    · cases heq
    · obtain rfl := Entry.began.inj (Option.some.inj heq)
      exact hfits.1
  · have hkept := h.kept hstrict
    exact henters.kept_of_none hkept (fun stored hsaved =>
      hcompleted (hkept.completed stored hsaved (hundeleted hstrict))) nofun

theorem Goes.unstored {added : Option Entry} (h : Goes strict (stage :: others) s)
    (hbegun : Begun token stage) (htoken : s.token = token)
    (hsaved : strict → .saved token ∉ s.log) (henters : Enters added s s')
    (hentry : added = none ∨ added = some (.failed token)) :
    Goes strict (stage :: others) s' := by
  have hfits := hbegun.fits (h.fits _ List.mem_cons_self)
  have hnone : ∀ {entry : Entry}, entry ≠ .failed token → added ≠ some entry := by
    rintro entry hne rfl
    rcases hentry with heq | heq
    · cases heq
    · exact hne (Option.some.inj heq)
  have hmoves : Moves none s s' := henters.moves fun other heq => absurd heq (hnone nofun)
  refine h.step (henters.moves fun other heq => absurd heq (hnone nofun)) ?_ (fun hstrict => ?_)
    ((h.fits _ List.mem_cons_self).moves hmoves nofun) fun _ hsome => .inl hsome
  · exact henters.sound h.sound
      (fun other heq => heq.elim (absurd · (hnone nofun)) (absurd · (hnone nofun)))
      (absurd · (hnone nofun)) (absurd · (hnone nofun))
  · have hkept := h.kept hstrict
    exact henters.kept_of_none hkept
      (hkept.notSaved h.sound hfits.2 htoken (hsaved hstrict)) fun _ => hnone nofun

theorem Goes.saved (h : Goes strict (.working token :: others) s)
    (htoken : s.token = token) (henters : Enters (some (.saved token)) s s')
    (hcompleted : s'.Completed) : Goes strict (.storing token :: others) s' := by
  have hfits := h.fits _ List.mem_cons_self
  have hmoves : Moves (some token) s s' := henters.moves fun other heq => by
    rw [Entry.saved.inj (Option.some.inj heq)]
  refine h.step hmoves ?_ (fun hstrict => ?_)
    ⟨hfits.1.trans henters.token, henters.mem hfits.2.2⟩ fun _ hsome => .inl hsome
  · refine henters.sound h.sound (fun other hother => ?_) nofun nofun
    rcases hother with heq | heq
    · obtain rfl := Entry.saved.inj (Option.some.inj heq)
      exact hfits.1.trans henters.token
    · cases heq
  · have hkept := h.kept hstrict
    exact {
      began := fun other stored hbegan hstored => by
        have hbefore : .began other ∈ s.log := henters.of_mem nofun hbegan
        rcases henters.mem_cases hstored with heq | hold
        · obtain rfl := Entry.saved.inj (Option.some.inj heq)
          exact htoken ▸ h.sound.began_le other hbefore
        · exact hkept.began other stored hbefore hold
      completed := fun _ _ _ => hcompleted
      once := henters.always hkept.once fun entry heq other stored hother => by
        obtain rfl := Option.some.inj heq
        rcases hother with hother | hother
        · cases hother
        · cases hother }

theorem Goes.transcribed (h : Goes strict (.working token :: others) s) :
    Goes strict (.working token :: others) (s.add [.transcribed token]) := by
  have hfits := h.fits _ List.mem_cons_self
  have henters : Enters (some (.transcribed token)) s (s.add [.transcribed token]) := enters_add
  have hmoves : Moves none s (s.add [.transcribed token]) := henters.moves nofun
  refine h.step (henters.moves nofun) ?_ (fun hstrict => ?_) (hfits.moves hmoves nofun)
    fun _ hsome => .inl hsome
  · exact henters.sound h.sound (fun _ heq => heq.elim nofun nofun) nofun nofun
  · have hkept := h.kept hstrict
    refine henters.kept hkept (fun _ => ⟨nofun, nofun⟩) (fun _ _ _ hcompleted => hcompleted) ?_
    intro other stored heq hstored
    rcases heq with heq | heq
    · obtain rfl := Entry.transcribed.inj (Option.some.inj heq)
      exact hkept.began _ stored hfits.2.2 hstored
    · cases heq

theorem Goes.deleted (h : Goes strict (.marked :: others) s) :
    Goes strict (.marked :: others) ({ s with hash := none }.add [.deleted]) := by
  have hfits := h.fits _ List.mem_cons_self
  have henters : Enters (some .deleted) s ({ s with hash := none }.add [.deleted]) :=
    ⟨rfl, Nat.le_refl _, id, id, nofun⟩
  refine h.step (henters.moves nofun) ?_ (fun hstrict => ?_) (henters.mem hfits) nofun
  · exact henters.sound h.sound (fun _ heq => heq.elim nofun nofun) nofun fun _ => hfits
  · refine henters.kept (h.kept hstrict) (fun _ => ⟨nofun, nofun⟩) ?_ ?_
    · exact fun token hsaved hundeleted _ => absurd hsaved (hundeleted.1 rfl token)
    · exact fun _ _ heq => heq.elim nofun nofun

theorem Goes.claimed (h : Goes strict (.idle :: others) s) :
    Goes strict (.claimed (s.token + 1) :: others) { s with token := s.token + 1 } := by
  have henters : Enters none s { s with token := s.token + 1 } :=
    ⟨rfl, Nat.le_succ _, id, id, fun hash hsome hstored => ⟨hash, hsome, hstored⟩⟩
  refine h.step (henters.moves nofun) ?_ (fun hstrict => ?_) ⟨Nat.le_refl _, fun hmem => ?_⟩ ?_
  · exact henters.sound h.sound (fun _ heq => heq.elim nofun nofun) nofun nofun
  · exact henters.kept (h.kept hstrict) (fun _ => ⟨nofun, nofun⟩)
      (fun _ _ _ hcompleted => hcompleted) fun _ _ heq => heq.elim nofun nofun
  · exact absurd (h.sound.saved_le _ hmem) (Nat.not_succ_le_self _)
  · rintro token hsome
    obtain rfl := Option.some.inj hsome
    exact .inr (Nat.lt_succ_self _)

theorem Goes.acked (h : Goes strict (.published :: others) s) :
    Goes strict (.published :: others) (s.add [.acked]) := by
  have hfits := h.fits _ List.mem_cons_self
  have henters : Enters (some .acked) s (s.add [.acked]) := enters_add
  refine h.step (henters.moves nofun) ?_ (fun hstrict => ?_) (henters.mem hfits) nofun
  · exact henters.sound h.sound (fun _ heq => heq.elim nofun nofun) (fun _ => hfits) nofun
  · exact henters.kept (h.kept hstrict) (fun _ => ⟨nofun, nofun⟩)
      (fun _ _ _ hcompleted => hcompleted) fun _ _ heq => heq.elim nofun nofun

/-! ## Commands -/

variable {α β : Type}

variable {jobId : String} {job payload : Fields}

section Commands

variable {sem : Semantics (Remote Failure Command) State}

structure Follows (strict : Prop) (sem : Semantics (Remote Failure Command) State) : Prop where
  performed : ∀ {α : Type} (command : Command α) s reply s', sem (.send command) s reply s' →
    Performed command s reply s'
  spares : strict → ∀ {α : Type} (command : Command α) s reply s',
    sem (.send command) s reply s' → Spares command s s'

def Leased {α : Type} (command : Command α) (s : State) : Prop :=
  ∀ token command', command = .access (.speech token) command' → s.token = token

theorem holds_send {command : Command α} {post : Except Failure α → Stage → Prop}
    (hsem : Follows strict sem) (herror : ∀ error, post (.error error) stage)
    (h : ∀ outside others s, Goes strict (stage :: others) s → Leased command s →
      (strict → Spares command s (run outside command s).2) →
      ∃ stage', Goes strict (stage' :: others) (run outside command s).2 ∧
      post (run outside command s).1 stage' ∧ ∀ error, post (.error error) stage') :
    Holds sem (Goes strict) post stage (Program.send id command).run := by
  refine Holds.send fun others s reply s' hgoes hstep => ?_
  obtain ⟨hleased, outside, lost, hanswers⟩ := hsem.performed command s reply s' hstep
  have hsame : reply.mapError id = reply := by
    cases reply with
    | ok value => rfl
    | error error => rfl
  rw [hsame]
  have hspares := fun hstrict => hsem.spares hstrict command s reply s' hstep
  cases hanswers with
  | answered =>
    obtain ⟨stage', hgoes', hpost, -⟩ := h outside others s hgoes hleased hspares
    exact ⟨stage', hgoes', hpost⟩
  | unsent => exact ⟨stage, hgoes, herror lost⟩
  | unheard =>
    obtain ⟨stage', hgoes', -, hpost⟩ := h outside others s hgoes hleased hspares
    exact ⟨stage', hgoes', hpost lost⟩

def Ends {α : Type} (returned raised : Stage → Prop) : Except Failure α → Stage → Prop
  | .ok _, stage => returned stage
  | .error _, stage => raised stage

theorem holds_takes {command : Command α} {raised : Stage → Prop} (hsem : Follows strict sem)
    (hstage : raised stage) (hstage' : raised stage')
    (h : ∀ outside others s, Goes strict (stage :: others) s → Leased command s →
      (strict → Spares command s (run outside command s).2) →
      Goes strict (stage' :: others) (run outside command s).2) :
    Holds sem (Goes strict) (Ends (· = stage') raised) stage (Program.send id command).run := by
  refine holds_send hsem (fun _ => hstage) fun outside others s hgoes hleased hspares => ?_
  refine ⟨stage', h outside others s hgoes hleased hspares, ?_, fun _ => hstage'⟩
  cases (run outside command s).1 with
  | ok => rfl
  | error => exact hstage'

def Quiet {β : Type} : Remote Failure Command β → Prop
  | .send command => ∀ outside s, Calm s (run outside command s).2

theorem holds_quiet {prog : Program (Remote Failure Command) α} {post : α → Stage → Prop}
    (hsem : Follows strict sem) (h : prog.Issues Quiet) (hpost : ∀ value, post value stage) :
    Holds sem (Goes strict) post stage prog := by
  refine h.holds (fun command others s reply s' hquiet hgoes hstep => ?_) hpost
  cases command with
  | send command =>
    obtain ⟨-, outside, lost, hanswers⟩ := hsem.performed command s reply s' hstep
    rcases hanswers.state with rfl | rfl
    · exact hgoes
    · exact (hquiet outside s).goes_same hgoes

theorem stored_of_getD (h : (s.hash.getD .empty).vectorStatus = some "stored") :
    ∃ hash, s.hash = some hash ∧ hash.vectorStatus = some "stored" := by
  cases hhash : s.hash with
  | none =>
    rw [hhash] at h
    cases h
  | some hash =>
    rw [hhash] at h
    exact ⟨hash, rfl, h⟩

def plainAccess {α : Type} : Access α → Worker → Bool
  | .hgetall .job, .speech _ | .hset .processing, _ | .hset (.failed _), _
  | .hset (.completed _), _ | .delete, _ | .transcribe _ _ _, _ => false
  | _, _ => true

theorem quiet_access {command : Access α} {worker : Worker}
    (h : plainAccess command worker = true) : Quiet (.send (.access worker command)) := by
  intro outside s
  cases command with
  | hgetall reader =>
    cases reader with
    | event => exact .refl s
    | job =>
      cases worker with
      | speech => cases h
      | vector => exact .refl s
  | hset mapping =>
    cases mapping with
    | processing => cases h
    | failed => cases h
    | completed => cases h
    | vectorStored =>
      exact ⟨rfl, ⟨[.marked], by simp [Entry.plain], rfl⟩, .inl, .inl,
        fun _ _ _ => .inr List.mem_cons_self, fun ⟨hash, hsome, hstatus⟩ =>
          ⟨_, rfl, by simpa [Mapping.apply, hsome] using hstatus⟩⟩
    | vectorAttempts attempts =>
      refine ⟨rfl, ⟨[], nofun, rfl⟩, .inl, .inl, fun hash' hsome hstored => .inl ?_, ?_⟩
      · obtain rfl := Option.some.inj hsome
        exact stored_of_getD hstored
      · exact fun ⟨hash, hsome, hstatus⟩ =>
          ⟨_, rfl, by simpa [Mapping.apply, hsome] using hstatus⟩
  | setSettled =>
    exact ⟨rfl, ⟨[.marked], by simp [Entry.plain], rfl⟩, .inl, fun _ => .inr List.mem_cons_self,
      fun hash hsome hstored => .inl ⟨hash, hsome, hstored⟩, id⟩
  | publishVector => exact calm_add (by simp [Entry.plain])
  | recordFailure => exact calm_add (by simp [Entry.plain])
  | delete => cases h
  | transcribe => cases h
  | expire => exact .refl s
  | getSettled => exact .refl s
  | cleanupJobDir => exact .refl s
  | downloadFile => exact .refl s
  | deleteFile => exact .refl s
  | completeTranscriptChunk => exact .refl s
  | getConversation => exact .refl s
  | publishFinalization => exact .refl s
  | storeTranscript => exact .refl s

theorem issues_access {command : Access α} {worker : Worker}
    (h : plainAccess command worker = true) : (worker.send command).run.Issues Quiet :=
  Issues.send (quiet_access h)

/-! ## The speech worker -/

variable {worker : Worker}

theorem holds_checked {outcome : Except Failure α} {f : α → Working β}
    {post : Except Failure β → Stage → Prop}
    (herror : ∀ error, outcome = .error error → post (.error error) stage)
    (hok : ∀ value, outcome = .ok value → Holds sem (Goes strict) post stage (f value).run) :
    Holds sem (Goes strict) post stage (checked outcome >>= f).run := by
  cases outcome with
  | error error => exact herror error rfl
  | ok value => exact hok value rfl

section

variable (hsem : Follows strict sem)

include hsem

theorem holds_write {mapping : Mapping} {raised : Stage → Prop} (hstage' : raised stage')
    (h : Holds sem (Goes strict) (Ends (· = stage') raised) stage
      (worker.send (.hset mapping)).run) :
    Holds sem (Goes strict) (Ends (· = stage') raised) stage (worker.write mapping).run := by
  refine Holds.raising_then _ h ?_ fun _ _ herror => herror
  rintro _ _ rfl
  exact holds_quiet hsem (issues_access rfl) fun outcome => by
    cases outcome with
    | ok => rfl
    | error => exact hstage'

theorem holds_markJobProcessing :
    Holds sem (Goes strict) (Ends (· = .working token) (Begun token)) (.working token)
      (Worker.markJobProcessing (.speech token)).run := by
  refine holds_write hsem (.inl rfl) (holds_takes hsem (.inl rfl) (.inl rfl) ?_)
  intro outside others s hgoes hleased _
  have hfits := hgoes.fits _ List.mem_cons_self
  refine hgoes.unstored (.inl rfl) (hleased token _ rfl) (fun _ => hfits.2.1) ?_ (.inl rfl)
  exact ⟨rfl, Nat.le_refl _, id, id, fun hash' hsome hstored => by
    obtain rfl := Option.some.inj hsome
    exact stored_of_getD hstored⟩

theorem holds_markJobFailed (hbegun : Begun token stage) {error : String} :
    Holds sem (Goes strict) (Ends (· = stage) (Begun token)) stage
      (Worker.markJobFailed (.speech token) error).run := by
  refine holds_write hsem hbegun (holds_takes hsem hbegun hbegun ?_)
  intro outside others s hgoes hleased hspares
  refine hgoes.unstored hbegun (hleased token _ rfl) (fun hstrict hsaved => ?_) ?_ (.inr rfl)
  · have hsame := congrArg (fun s => s.log.length) ((hspares hstrict).1 rfl hsaved)
    exact absurd hsame (Nat.succ_ne_self _)
  · exact ⟨rfl, Nat.le_refl _, id, id, fun hash' hsome hstored => by
      obtain rfl := Option.some.inj hsome
      exact stored_of_getD hstored⟩

theorem holds_saveJobResult {result : Result} :
    Holds sem (Goes strict) (Ends (· = .storing token) (Begun token)) (.working token)
      (Worker.saveJobResult (.speech token) result).run := by
  refine holds_write hsem (.inr rfl) (holds_takes hsem (.inl rfl) (.inr rfl) ?_)
  intro outside others s hgoes hleased _
  refine hgoes.saved (hleased token _ rfl) ?_ ⟨_, rfl, rfl⟩
  exact ⟨rfl, Nat.le_refl _, id, id, fun hash' hsome hstored => by
    obtain rfl := Option.some.inj hsome
    exact stored_of_getD hstored⟩

theorem holds_publish (event : VectorEvent) :
    Holds sem (Goes strict) (Ends (· = .published) (· = stage)) stage
      (worker.send (.publishVector event)).run := by
  refine Holds.send fun others s reply s' hgoes hstep => ?_
  obtain ⟨-, outside, lost, hanswers⟩ := hsem.performed _ s reply s' hstep
  have hcalm : Calm s (s.add [.published]) := calm_add (by simp [Entry.plain])
  cases hanswers with
  | answered => exact ⟨.published, hcalm.goes hgoes List.mem_cons_self (.inr rfl), rfl⟩
  | unsent => exact ⟨stage, hgoes, rfl⟩
  | unheard => exact ⟨stage, hcalm.goes_same hgoes, rfl⟩

theorem holds_pushCompletedSpeechJob :
    Holds sem (Goes strict) (Ends (· = .published) (· = stage)) stage
      (worker.pushCompletedSpeechJob jobId).run := by
  have hread : plainAccess (.hgetall .event) worker = true := by
    cases worker with
    | speech => rfl
    | vector => rfl
  refine Holds.attempt_then (holds_quiet hsem (issues_access hread) fun _ => Eq.refl stage) ?_
  rintro (error | source) _ rfl
  · exact holds_publish hsem _
  · exact holds_publish hsem _

theorem holds_publishStage :
    Holds sem (Goes strict) (Ends (· = .published) (· = stage)) stage
      (Attempt.publishStage worker jobId).run := by
  refine Holds.attempt_then (holds_pushCompletedSpeechJob hsem) ?_
  rintro (error | value) h hends
  · cases error with
    | cutoverLocked => exact hends
    | _ => exact hends
  · exact hends

theorem holds_transcribe {filePath filename contentType : String} :
    Holds sem (Goes strict) (Ends (· = .working token) (Begun token)) (.working token)
      (Worker.send (.speech token) (.transcribe filePath filename contentType)).run :=
  holds_takes hsem (.inl rfl) (.inl rfl) fun _ _ _ hgoes _ _ => hgoes.transcribed

theorem holds_transcribeAndSave :
    Holds sem (Goes strict) (Ends (· = .published) (Begun token)) (.working token)
      (Attempt.transcribeAndSave (.speech token) jobId job).run := by
  refine holds_checked (fun _ _ => .inl rfl) fun _ _ => ?_
  refine Holds.raising_then _ (holds_markJobProcessing hsem) ?_ fun _ _ hbegun => hbegun
  rintro _ _ rfl
  refine Holds.raising_then _ (holds_transcribe hsem) ?_ fun _ _ hbegun => hbegun
  rintro result _ rfl
  refine Holds.raising_then _ (holds_saveJobResult hsem) ?_ fun _ _ hbegun => hbegun
  rintro _ _ rfl
  refine (holds_publishStage hsem).mono ?_
  rintro (error | value) h hends
  · exact .inr hends
  · exact hends

theorem holds_failed (hbegun : Begun token stage) (text : String) (error : Failure)
    (returned : Stage → Prop) :
    Holds sem (Goes strict) (Ends returned (Begun token)) stage
      (do Worker.markJobFailed (.speech token) text; throw error : Working α).run := by
  refine Holds.raising_then _ (holds_markJobFailed hsem hbegun) ?_ fun _ _ herror => herror
  rintro _ _ rfl
  exact hbegun

theorem holds_processLocalSpeechJob :
    Holds sem (Goes strict) (Ends (· = .published) (Begun token)) (.working token)
      (Attempt.processLocalSpeechJob (.speech token) jobId job).run := by
  refine Holds.attempt_then (holds_transcribeAndSave hsem) ?_
  rintro (error | value) h hends
  · cases error with
    | leavePending => exact hends
    | _ => exact holds_failed hsem hends _ _ _
  · exact hends

theorem holds_downloadAndProcess {path : String} :
    Holds sem (Goes strict) (Ends (· = .published) (Begun token)) (.working token)
      (Attempt.downloadAndProcess (.speech token) jobId path job).run := by
  have hquiet : ∀ {α : Type} {command : Access α}, plainAccess command (.speech token) = true →
      Holds sem (Goes strict) (Ends (· = .working token) (Begun token)) (.working token)
        (Worker.send (.speech token) command).run := fun h =>
    holds_quiet hsem (issues_access h) fun outcome => by
      cases outcome with
      | ok => rfl
      | error => exact .inl rfl
  refine Holds.raising_then _ (hquiet rfl) ?_ fun _ _ hbegun => hbegun
  rintro _ _ rfl
  refine Holds.raising_then _ (hquiet rfl) ?_ fun _ _ hbegun => hbegun
  rintro _ _ rfl
  exact holds_processLocalSpeechJob hsem

theorem holds_handleStorageError {outcome : Except Failure Unit}
    (hends : Ends (· = .published) (Begun token) outcome stage) :
    Holds sem (Goes strict) (Ends (· = .published) fun _ => True) stage
      (Attempt.handleStorageError (.speech token) outcome).run := by
  cases outcome with
  | ok => exact hends
  | error error =>
    have hfailed : ∀ text error', Holds sem (Goes strict) (Ends (· = .published) fun _ => True)
        stage (do Worker.markJobFailed (.speech token) text; throw error' : Working Unit).run :=
      fun text error' => (holds_failed hsem hends text error' _).mono fun result h hpost => by
        cases result with
        | ok => exact hpost
        | error => trivial
    cases error with
    | permanentStorage message => exact hfailed _ _
    | temporaryStorage message => exact hfailed _ _
    | _ => trivial

end

theorem issues_deleteProcessed :
    (Attempt.deleteProcessed (.speech token) job).run.Issues Quiet := by
  refine Issues.attempt_bind (issues_access rfl) fun outcome => ?_
  rcases outcome with error | value
  · cases error with
    | _ => trivial
  · trivial

theorem holds_processS3SpeechJob (hsem : Follows strict sem) {host : Host} :
    Holds sem (Goes strict) (Ends (· = .published) fun _ => True) (.working token)
      (Attempt.processS3SpeechJob host (.speech token) jobId job).run := by
  unfold Attempt.processS3SpeechJob
  split
  · exact (holds_failed hsem (.inl rfl) _ _ (· = .published)).mono fun result h hpost => by
      cases result with
      | ok => exact hpost
      | error => trivial
  · refine holds_checked (fun _ _ => trivial) fun path _ => ?_
    refine Holds.attempt_then (holds_downloadAndProcess hsem) ?_
    intro outcome h hends
    refine Holds.attempt_then (holds_handleStorageError hsem hends) ?_
    intro handled h hhandled
    refine Holds.attempt_then (holds_quiet hsem (issues_access rfl) fun _ => Eq.refl h) ?_
    rintro _ _ rfl
    refine holds_checked (fun _ _ => trivial) fun _ hok => ?_
    rw [hok] at hhandled
    split
    · exact holds_quiet hsem issues_deleteProcessed fun result => by
        cases result with
        | ok => exact hhandled
        | error => trivial
    · exact hhandled

theorem completed_iff : s.Completed ↔ s.hash.bind Hash.status = some "completed" := by
  rw [Option.bind_eq_some_iff]
  rfl

def afterRead (token : Nat) (existing : Option Hash) : Stage :=
  if existing.bind Hash.status = some "completed" then .claimed token else .working token

theorem holds_readJob (hsem : Follows strict sem) :
    Holds sem (Goes strict)
      (fun outcome h => ∀ existing, outcome = .ok existing → h = afterRead token existing)
      (.claimed token) (Worker.send (.speech token) (.hgetall .job)).run := by
  refine holds_send hsem (fun _ _ heq => nomatch heq) fun outside others s hgoes _ hspares => ?_
  by_cases hcompleted : s.Completed
  · have hsame : (run outside (.access (.speech token) (.hgetall .job)) s).2 = s := by
      show s.add (if s.Completed then [] else [.began token]) = s
      rw [if_pos hcompleted]
      rfl
    rw [hsame]
    refine ⟨.claimed token, hgoes, fun existing hread => ?_, fun _ _ heq => nomatch heq⟩
    obtain rfl : s.hash = existing := Except.ok.inj hread
    exact (if_pos (completed_iff.mp hcompleted)).symm
  · have hbegan : (run outside (.access (.speech token) (.hgetall .job)) s).2 =
        s.add [.began token] := by
      show s.add (if s.Completed then [] else [.began token]) = s.add [.began token]
      rw [if_neg hcompleted]
    rw [hbegan] at hspares ⊢
    have hundeleted : strict → s.Undeleted := by
      intro hstrict
      by_contra hdeleted
      have hlog := congrArg (fun s => s.log.length) ((hspares hstrict).2 rfl hdeleted)
      exact absurd hlog (Nat.succ_ne_self _)
    refine ⟨.working token, hgoes.began hcompleted hundeleted, fun existing hread => ?_,
      fun _ _ heq => nomatch heq⟩
    obtain rfl : s.hash = existing := Except.ok.inj hread
    exact (if_neg (mt completed_iff.mpr hcompleted)).symm

theorem holds_processSpeechJob (hsem : Follows strict sem) {host : Host} :
    Holds sem (Goes strict) (Ends (· = .published) fun _ => True) (.claimed token)
      (Attempt.processSpeechJob host (.speech token) payload).run := by
  unfold Attempt.processSpeechJob
  refine holds_checked (fun _ _ => True.intro) fun job _ => ?_
  refine Holds.raising_then _ (holds_readJob hsem) (fun existing h hread => ?_)
    fun _ _ _ => True.intro
  refine holds_checked (fun _ _ => True.intro) fun job _ => ?_
  have hstage := hread existing rfl
  unfold afterRead at hstage
  split
  · next hcompleted =>
    rw [if_pos hcompleted] at hstage
    subst hstage
    exact (holds_publishStage hsem).mono fun result h hends => by
      cases result with
      | ok => exact hends
      | error => exact True.intro
  · next hcompleted =>
    rw [if_neg hcompleted] at hstage
    subst hstage
    split
    · exact holds_processS3SpeechJob hsem
    · exact (holds_processLocalSpeechJob hsem).mono fun result h hends => by
        cases result with
        | ok => exact hends
        | error => exact True.intro

theorem holds_handleSpeechStreamEvent (hsem : Follows strict sem) {host : Host} :
    Holds sem (Goes strict) (Ends (· = .published) fun _ => True) (.claimed token)
      (Attempt.handleSpeechStreamEvent host (.speech token) payload).run := by
  refine Holds.attempt_then (holds_processSpeechJob hsem) ?_
  rintro (error | value) h hends
  · cases error with
    | _ => exact True.intro
  · exact hends

/-! ## The consumer -/

/-- What the consumer knows after `acquire_lease`. -/
def Acquired : Except Failure Decision → Stage → Prop
  | .ok (.run token), stage => stage = .claimed token
  | .ok .completed, stage => stage = .published
  | .ok .busy, _ => True
  | .error _, _ => True

section

variable (hsem : Follows strict sem)

include hsem

theorem holds_acquire : Holds sem (Goes strict) Acquired .idle (deliver .acquire).run := by
  refine holds_send hsem (fun _ => True.intro) fun outside others s hgoes _ _ => ?_
  by_cases hdone : s.done = true
  · have hrun : runDelivery outside .acquire s = (.ok .completed, s) := if_pos hdone
    show ∃ stage', Goes strict (stage' :: others) (runDelivery outside .acquire s).2 ∧
      Acquired (runDelivery outside .acquire s).1 stage' ∧ _
    rw [hrun]
    exact ⟨.published, (Calm.refl s).goes hgoes (hgoes.sound.done hdone) (.inr rfl), rfl,
      fun _ => True.intro⟩
  · by_cases hbusy : outside.busy = true
    · have hrun : runDelivery outside .acquire s = (.ok .busy, s) :=
        (if_neg hdone).trans (if_pos hbusy)
      show ∃ stage', Goes strict (stage' :: others) (runDelivery outside .acquire s).2 ∧
        Acquired (runDelivery outside .acquire s).1 stage' ∧ _
      rw [hrun]
      exact ⟨.idle, hgoes, True.intro, fun _ => True.intro⟩
    · have hrun : runDelivery outside .acquire s =
          (.ok (.run (s.token + 1)), { s with token := s.token + 1 }) :=
        (if_neg hdone).trans (if_neg hbusy)
      show ∃ stage', Goes strict (stage' :: others) (runDelivery outside .acquire s).2 ∧
        Acquired (runDelivery outside .acquire s).1 stage' ∧ _
      rw [hrun]
      exact ⟨.claimed (s.token + 1), hgoes.claimed, rfl, fun _ => True.intro⟩

theorem holds_ack : Holds sem (Goes strict) (fun _ _ => True) .published (deliver .ack).run :=
  holds_send hsem (fun _ => True.intro) fun _ _ _ hgoes _ _ =>
    ⟨.published, hgoes.acked, True.intro, fun _ => True.intro⟩

theorem holds_stillOwned :
    Holds sem (Goes strict) (fun _ h => h = stage) stage (deliver (.stillOwned token)).run :=
  holds_quiet hsem (Issues.send fun _ s => .refl s) fun _ => rfl

theorem holds_rememberCompletion :
    Holds sem (Goes strict) (fun _ h => h = .published) .published
      (deliver (.rememberCompletion token)).run := by
  refine holds_send hsem (fun _ => rfl) fun outside others s hgoes _ _ => ?_
  refine ⟨.published, ?_, rfl, fun _ => rfl⟩
  have hfits := hgoes.fits _ List.mem_cons_self
  show Goes strict _ (runDelivery outside (.rememberCompletion token) s).2
  by_cases htoken : s.token = token
  · have hrun : runDelivery outside (.rememberCompletion token) s =
        (.ok true, { s with done := true }) := if_pos htoken
    rw [hrun]
    have hcalm : Calm s { s with done := true } :=
      ⟨rfl, ⟨[], nofun, rfl⟩, fun _ => .inr hfits, .inl,
        fun hash hsome hstored => .inl ⟨hash, hsome, hstored⟩, id⟩
    exact hcalm.goes_same hgoes
  · have hrun : runDelivery outside (.rememberCompletion token) s = (.ok false, s) :=
      if_neg htoken
    rw [hrun]
    exact hgoes

theorem holds_processMessage {host : Host} :
    Holds sem (Goes strict) (fun _ _ => True) .idle (Attempt.processMessage host payload).run := by
  unfold Attempt.processMessage
  refine Holds.raising_then _ (holds_acquire hsem) ?_ fun _ _ _ => True.intro
  rintro (token | _ | _) h hacquired
  · obtain rfl : h = .claimed token := hacquired
    refine Holds.raising_then _ (holds_handleSpeechStreamEvent hsem) ?_
      fun _ _ _ => True.intro
    rintro _ _ rfl
    refine Holds.raising_then _ (holds_stillOwned hsem) ?_ fun _ _ _ => True.intro
    rintro owned _ rfl
    cases owned with
    | false => exact True.intro
    | true =>
      refine Holds.raising_then _ (holds_rememberCompletion hsem) ?_ fun _ _ _ => True.intro
      rintro remembered _ rfl
      cases remembered with
      | false => exact True.intro
      | true => exact holds_ack hsem
  · exact True.intro
  · obtain rfl : h = .published := hacquired
    exact holds_ack hsem

end

/-! ## The vector worker -/

theorem holds_markVectorStored (hsem : Follows strict sem) :
    Holds sem (Goes strict) (Ends (· = .marked) fun _ => True) stage
      (Worker.markVectorStored .vector).run := by
  have hmarked : Holds sem (Goes strict) (Ends (· = .marked) fun _ => True) stage
      (Worker.send .vector (.hset .vectorStored)).run :=
    holds_takes hsem True.intro True.intro fun outside others s hgoes _ _ => by
      have hquiet : Quiet (.send (.access .vector (.hset .vectorStored))) := quiet_access rfl
      exact (hquiet outside s).goes hgoes List.mem_cons_self (.inr rfl)
  refine Holds.raising_then _ (holds_write hsem True.intro hmarked) ?_ fun _ _ _ => True.intro
  rintro _ _ rfl
  exact holds_quiet hsem (issues_access rfl) fun outcome => by
    cases outcome with
    | ok => rfl
    | error => exact True.intro

theorem holds_delete (hsem : Follows strict sem) {post : Except Failure Unit → Stage → Prop}
    (hpost : ∀ outcome, post outcome .marked) :
    Holds sem (Goes strict) post .marked (Worker.send .vector .delete).run :=
  holds_send hsem (fun _ => hpost _) fun _ _ _ hgoes _ _ =>
    ⟨.marked, hgoes.deleted, hpost _, fun _ => hpost _⟩

theorem issues_completeChunk {host : Host} {job : Indexing.Completed} :
    (Indexing.completeChunk host job).run.Issues Quiet := by
  unfold Indexing.completeChunk
  split
  · exact True.intro
  · next number _ =>
    by_cases hskip : job.conversationId = "" ∨ job.isVectorRetry = true
    · rw [if_pos hskip]
      exact True.intro
    · rw [if_neg hskip]
      cases host.int? number with
      | none => exact True.intro
      | some sequenceNumber =>
        refine Issues.raising_bind (issues_access rfl) fun _ => ?_
        refine Issues.raising_bind (issues_access rfl) fun conversation => ?_
        split
        · exact issues_access rfl
        · exact True.intro

theorem issues_failed (retryCount : Nat) (job : Indexing.Completed) (error : Failure) :
    (Indexing.failed retryCount job error).run.Issues Quiet := by
  unfold Indexing.failed
  refine Issues.raising_bind (Issues.raising_bind (issues_access rfl) fun _ => issues_access rfl)
    fun _ => ?_
  split
  · refine Issues.raising_bind ?_ fun _ => True.intro
    exact Issues.attempt_bind (issues_access rfl) fun _ => True.intro
  · exact True.intro

theorem holds_storeTranscript (hsem : Follows strict sem) {job : Indexing.Completed} :
    Holds sem (Goes strict) (Ends (· = .marked) fun _ => True) stage
      (Indexing.storeTranscript job).run := by
  refine Holds.raising_then (fun _ _ => True)
    (holds_quiet hsem (issues_access rfl) fun _ => True.intro) ?_ fun _ _ _ => True.intro
  exact fun _ _ _ => holds_markVectorStored hsem

theorem holds_processReady (hsem : Follows strict sem) {host : Host} {retryCount : Nat}
    {job : Indexing.Completed} :
    Holds sem (Goes strict) (fun _ _ => True) stage
      (Indexing.processReady host retryCount job).run := by
  unfold Indexing.processReady
  dsimp only
  split
  · exact True.intro
  · refine Holds.raising_then (fun _ _ => True)
      (holds_quiet hsem issues_completeChunk fun _ => True.intro) (fun _ h _ => ?_)
      fun _ _ _ => True.intro
    split
    · refine Holds.raising_then _ (holds_markVectorStored hsem) ?_ fun _ _ _ => True.intro
      rintro _ _ rfl
      exact holds_delete hsem fun _ => True.intro
    · refine Holds.attempt_then (holds_storeTranscript hsem) ?_
      rintro (error | value) h hends
      · exact holds_quiet hsem (issues_failed retryCount job error) fun _ => True.intro
      · obtain rfl : h = .marked := hends
        exact holds_delete hsem fun _ => True.intro

def afterLook (job : Option Hash) : Stage :=
  if job.bind Hash.vectorStatus = some "stored" then .marked else .idle

theorem holds_look (hsem : Follows strict sem) :
    Holds sem (Goes strict) (fun outcome h => ∀ job, outcome = .ok job → h = afterLook job) .idle
      (Worker.send .vector (.hgetall .job)).run := by
  refine holds_send hsem (fun _ _ heq => nomatch heq) fun outside others s hgoes _ _ => ?_
  refine ⟨afterLook s.hash, ?_, fun job hread => ?_, fun _ _ heq => nomatch heq⟩
  · have hcalm : Calm s (run outside (.access .vector (.hgetall .job)) s).2 := .refl s
    unfold afterLook
    split
    · next hstored =>
      obtain ⟨hash, hsome, hstatus⟩ := Option.bind_eq_some_iff.mp hstored
      exact hcalm.goes hgoes (hgoes.sound.stored hash hsome hstatus) (.inr rfl)
    · exact hgoes
  · obtain rfl : s.hash = job := Except.ok.inj hread
    rfl

theorem holds_settled (hsem : Follows strict sem) :
    Holds sem (Goes strict)
      (fun outcome h => ∀ settled, outcome = .ok settled →
        h = if settled then .marked else stage) stage (Worker.send .vector .getSettled).run := by
  refine holds_send hsem (fun _ _ heq => nomatch heq) fun outside others s hgoes _ _ => ?_
  refine ⟨if s.settled then .marked else stage, ?_, fun settled hread => ?_,
    fun _ _ heq => nomatch heq⟩
  · have hcalm : Calm s (run outside (.access .vector .getSettled) s).2 := .refl s
    split
    · next hsettled => exact hcalm.goes hgoes (hgoes.sound.settled hsettled) (.inr rfl)
    · exact hgoes
  · obtain rfl : s.settled = settled := Except.ok.inj hread
    rfl

theorem holds_processCompletedSpeechJob (hsem : Follows strict sem) {host : Host}
    {retryCount : Nat} :
    Holds sem (Goes strict) (fun _ _ => True) .idle
      (Indexing.processCompletedSpeechJob host retryCount).run := by
  refine Holds.raising_then _ (holds_look hsem) (fun job h hlook => ?_) fun _ _ _ => True.intro
  obtain rfl := hlook job rfl
  refine Holds.raising_then _ (holds_settled hsem) (fun settled h hsettled => ?_)
    fun _ _ _ => True.intro
  have hstage := hsettled settled rfl
  split
  · next hmarked =>
    have hmarked' : h = .marked := by
      rw [hstage]
      rcases (Bool.or_eq_true _ _).mp hmarked with hsettled | hstored
      · exact if_pos hsettled
      · rw [afterLook, if_pos (of_decide_eq_true hstored), ite_self]
    subst hmarked'
    split
    · exact holds_delete hsem fun _ => True.intro
    · exact True.intro
  · cases job with
    | none => exact True.intro
    | some hash =>
      show Holds _ _ _ _ (ExceptT.run (if hash.status = some "completed" then _ else _))
      split
      · exact holds_processReady hsem
      · exact True.intro

end Commands

/-! ## Runs -/

section Runs

variable {host : Host} {start : State}
  {pool : Pool (Remote Failure Command) (Except Failure Unit) State}

theorem follows_semantics : Follows False semantics where
  performed _ _ _ _ h := h
  spares := False.elim

theorem follows_sparing : Follows True sparing where
  performed _ _ _ _ h := h.1
  spares _ _ _ _ _ _ h := h.2

theorem goes_start (h : Starts start) : Goes strict [] start where
  sound := {
    saved_le := fun token hmem => by rw [h.log] at hmem; cases hmem
    began_le := fun token hmem => by rw [h.log] at hmem; cases hmem
    done := fun hdone => by rw [h.done] at hdone; cases hdone
    settled := fun hsettled => by rw [h.settled] at hsettled; cases hsettled
    stored := fun hash hsome hstored => absurd hstored (h.hash hash hsome).2
    acked := by rw [h.log]; exact True.intro
    deleted := by rw [h.log]; exact True.intro }
  kept _ := {
    began := fun began stored hmem => by rw [h.log] at hmem; cases hmem
    completed := fun token hmem => by rw [h.log] at hmem; cases hmem
    once := by rw [h.log]; exact True.intro }
  tokens := List.nodup_nil
  fits := nofun

theorem SpeechRun.goes {sem : Semantics (Remote Failure Command) State}
    (hsem : Follows strict sem) (hstart : Starts start) (hrun : SpeechRun sem host start pool) :
    ∃ stages, Goes strict stages pool.shared := by
  have hspawn : ∀ stages s prog, Goes strict stages s →
      ((∃ payload, prog = (Attempt.processMessage host payload).run) ∨
        ∃ retryCount, prog = (Indexing.processCompletedSpeechJob host retryCount).run) →
      ∃ stage, Holds sem (Goes strict) (fun _ _ => True) stage prog ∧
        Goes strict (stage :: stages) s := by
    intro stages s prog h hprog
    have hidle : Goes strict (.idle :: stages) s := by
      refine ⟨h.sound, h.kept, h.tokens, fun stage hmem => ?_⟩
      rcases List.mem_cons.mp hmem with rfl | hmem
      · exact True.intro
      · exact h.fits stage hmem
    rcases hprog with ⟨payload, rfl⟩ | ⟨retryCount, rfl⟩
    · exact ⟨.idle, holds_processMessage hsem, hidle⟩
    · exact ⟨.idle, holds_processCompletedSpeechJob hsem, hidle⟩
  obtain ⟨stages, -, hgoes⟩ := Pool.Run.held (fun _ _ _ hperm h => h.perm hperm) hspawn
    (fun _ _ _ _ henv => henv.elim) (goes_start hstart) hrun
  exact ⟨stages, hgoes⟩

end Runs

/-! ## A run of one job -/

def sampleHost : Host where
  useS3Storage := false
  deleteAfterProcessing := false
  tempAudioPath _ := .ok "audio"
  int? _ := none

def samplePayload : Fields := fun name =>
  [("job_id", "j"), ("user_id", "u"), ("space_id", "s"), ("file_path", "a.wav"),
    ("filename", "a.wav"), ("content_type", "audio/wav")].lookup name

def sampleStart : State where
  hash := some { fields := samplePayload, status := some "queued" }

theorem sampleStart_starts : Starts sampleStart where
  hash hash hsome := by
    obtain rfl := Option.some.inj hsome
    exact ⟨by decide, nofun⟩
  settled := rfl
  done := rfl
  log := rfl

def sampleOutside : Outside where
  result := { transcript := "hello" }

def sampleThreads : Pool (Remote Failure Command) (Except Failure Unit) State where
  threads := [(Attempt.processMessage sampleHost samplePayload).run,
    (Indexing.processCompletedSpeechJob sampleHost 0).run]
  shared := sampleStart

def sampleEnd : Pool (Remote Failure Command) (Except Failure Unit) State :=
  sampleThreads.turns (Remote.answer (run sampleOutside)) (.replicate 12 0 ++ .replicate 7 1)

def spares : ∀ {β : Type}, Remote Failure Command β → State → Bool
  | _, .send (.access (.speech token) command), s =>
    s.token = token && !command.marksFailed && !s.log.contains .deleted
  | _, _, _ => true

theorem always_of_notMem {log : List Entry} (h : .deleted ∉ log) :
    Always (fun entry earlier => entry = .deleted → ∀ token, .saved token ∉ earlier) log := by
  induction log with
  | nil => exact True.intro
  | cons entry earlier ih =>
    rw [List.mem_cons, not_or] at h
    exact ⟨fun heq => absurd heq.symm h.1, ih h.2⟩

theorem sparing_of_spares (command : Remote Failure Command β) (s : State)
    (h : spares command s = true) :
    sparing command s (Remote.answer (run sampleOutside) command s).1
      (Remote.answer (run sampleOutside) command s).2 := by
  rcases command with @⟨α, command⟩
  cases command with
  | delivery command =>
    exact ⟨⟨nofun, sampleOutside, .other "", .answered⟩, True.intro⟩
  | access worker command =>
    cases worker with
    | vector => exact ⟨⟨nofun, sampleOutside, .other "", .answered⟩, True.intro⟩
    | speech token =>
      obtain ⟨⟨htoken, hfailed⟩, hdeleted⟩ :
          (s.token = token ∧ command.marksFailed = false) ∧ .deleted ∉ s.log := by
        simpa [spares] using h
      refine ⟨⟨fun token' command' heq => ?_, sampleOutside, .other "", .answered⟩, ?_, ?_⟩
      · cases heq
        exact htoken
      · exact fun htrue => absurd htrue (by rw [hfailed]; decide)
      · exact fun _ hundeleted => absurd (always_of_notMem hdeleted) hundeleted

theorem semantics_of_spares (command : Remote Failure Command β) (s : State)
    (h : spares command s = true) :
    semantics command s (Remote.answer (run sampleOutside) command s).1
      (Remote.answer (run sampleOutside) command s).2 := by
  have hspares := sparing_of_spares command s h
  rcases command with @⟨α, command⟩
  exact hspares.1

theorem sampleEnd_run : SpeechRun semantics sampleHost sampleStart sampleEnd ∧
    SpeechRun sparing sampleHost sampleStart sampleEnd := by
  refine ⟨?_, ?_⟩
  · have hspawned : SpeechRun semantics sampleHost sampleStart sampleThreads :=
      .tail (.single (.spawn (.inr ⟨0, rfl⟩))) (.spawn (.inl ⟨samplePayload, rfl⟩))
    exact hspawned.trans (Pool.turns_run spares semantics_of_spares _ _ (by decide +kernel))
  · have hspawned : SpeechRun sparing sampleHost sampleStart sampleThreads :=
      .tail (.single (.spawn (.inr ⟨0, rfl⟩))) (.spawn (.inl ⟨samplePayload, rfl⟩))
    exact hspawned.trans (Pool.turns_run spares sparing_of_spares _ _ (by decide +kernel))

def Access.publishes {α : Type} : Access α → Bool
  | .publishVector _ => true
  | _ => false

def Command.publishes {α : Type} : Command α → Bool
  | .access _ command => command.publishes
  | .delivery _ => false

def unpublished {β : Type} : Remote Failure Command β → State → β × State
  | .send command, s =>
    if command.publishes then (.error (.other "connection lost"), s)
    else run sampleOutside command s

def leased : ∀ {β : Type}, Remote Failure Command β → State → Bool
  | _, .send (.access (.speech token) _), s => s.token = token
  | _, _, _ => true

theorem semantics_of_leased (command : Remote Failure Command β) (s : State)
    (h : leased command s = true) :
    semantics command s (unpublished command s).1 (unpublished command s).2 := by
  rcases command with @⟨α, command⟩
  refine ⟨fun token command' heq => ?_, sampleOutside, .other "connection lost", ?_⟩
  · subst heq
    exact of_decide_eq_true h
  · unfold unpublished
    dsimp only
    split
    · exact .unsent
    · exact .answered

def sampleRedone : Pool (Remote Failure Command) (Except Failure Unit) State :=
  Pool.turns unpublished (.replicate 11 0 ++ .replicate 5 1)
    ⟨.replicate 2 (Attempt.processMessage sampleHost samplePayload).run, sampleStart⟩

theorem sampleRedone_log : sampleRedone.shared.log =
    [.transcribed 2, .began 2, .failed 1, .saved 1, .transcribed 1, .began 1] := by
  decide +kernel

/-- In every run the speech message is acknowledged only after a publication and the hash deleted
only after a marker; and where a stored result is spared, no later attempt transcribes the job
again or marks it as failed. -/
theorem saved_transcript_kept (host : Host) (start : State) (hstart : Starts start) :
    (∀ pool, SpeechRun semantics host start pool →
      AckedAfterPublish pool.shared.log ∧ DeletedAfterMarker pool.shared.log) ∧
    ∀ pool, SpeechRun sparing host start pool → TranscribedOnce pool.shared.log := by
  refine ⟨fun pool hrun => ?_, fun pool hrun => ?_⟩
  · obtain ⟨stages, hgoes⟩ := hrun.goes follows_semantics hstart
    exact ⟨hgoes.sound.acked, hgoes.sound.deleted⟩
  · obtain ⟨stages, hgoes⟩ := hrun.goes follows_sparing hstart
    exact (hgoes.kept True.intro).once

/-- A delivery that is answered throughout, and then a vector worker. -/
theorem saved_transcript_kept_sample :
    sampleEnd.shared.log = [.deleted, .marked, .marked, .acked, .published, .saved 1,
        .transcribed 1, .began 1] ∧
      AckedAfterPublish sampleEnd.shared.log ∧ DeletedAfterMarker sampleEnd.shared.log ∧
      TranscribedOnce sampleEnd.shared.log := by
  obtain ⟨hall, honce⟩ := saved_transcript_kept sampleHost sampleStart sampleStart_starts
  obtain ⟨hacked, hdeleted⟩ := hall sampleEnd sampleEnd_run.1
  exact ⟨by decide +kernel, hacked, hdeleted, honce sampleEnd sampleEnd_run.2⟩

/-- The result is stored, the publication of the vector event fails, the same handler marks the job
as failed, and the next delivery transcribes it again. -/
theorem transcribed_again : Starts sampleStart ∧
    SpeechRun semantics sampleHost sampleStart sampleRedone ∧
    ¬ TranscribedOnce sampleRedone.shared.log := by
  refine ⟨sampleStart_starts, ?_, fun h => ?_⟩
  · have hfirst : SpeechRun semantics sampleHost sampleStart
        ⟨[(Attempt.processMessage sampleHost samplePayload).run], sampleStart⟩ :=
      .single (.spawn (.inl ⟨samplePayload, rfl⟩))
    have hboth : SpeechRun semantics sampleHost sampleStart
        ⟨.replicate 2 (Attempt.processMessage sampleHost samplePayload).run, sampleStart⟩ :=
      hfirst.tail (.spawn (.inl ⟨samplePayload, rfl⟩))
    exact hboth.trans (Pool.turns_run leased semantics_of_leased _ _ (by decide +kernel))
  · rw [TranscribedOnce, sampleRedone_log] at h
    exact absurd (h.1 2 1 (.inl rfl) (by decide)) (by decide)

end AiBuddy.Speech
