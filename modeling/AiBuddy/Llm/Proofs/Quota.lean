import AiBuddy.Llm.Quota

/-!
# What the quota guard lets through

The day's limits hold in every run. The minute's limits hold in every run in which no call starts a
new day less than a minute after a reservation: the guard forgets the last minute at midnight.
-/

namespace AiBuddy.Llm

def MinuteBounded (quota : ProviderQuota) (granted : List Reservation) : Prop :=
  ∀ start, let inside := Sliding.within Reservation.now minuteSpan start granted
    (∀ rpm ∈ quota.rpm, inside.length ≤ rpm) ∧
      ∀ tpm ∈ quota.tpm, (inside.map (·.estimatedTokens)).sum ≤ tpm

def DayBounded (quota : ProviderQuota) (granted : List Reservation) : Prop :=
  ∀ day, let inside := granted.filter fun call => dayOf call.now = day
    (∀ rpd ∈ quota.rpd, inside.length ≤ rpd) ∧
      ∀ tpd ∈ quota.tpd, (inside.map (·.estimatedTokens)).sum ≤ tpd

def AcrossMidnight (earlier later : Reservation) : Prop :=
  dayOf earlier.now ≠ dayOf later.now ∧ later.now - minuteSpan ≤ earlier.now

def MidnightsClear (quotas : String → Option ProviderQuota) (key : String)
    (calls : List Reservation) : Prop :=
  ∀ before call after, calls = before ++ call :: after → call.key = key →
    ∀ earlier ∈ (reserveAll quotas before).on key, ¬ AcrossMidnight earlier call

/-- The counters of `window` are those of `before` without what has expired at `now`. -/
structure ExpiredOnly (before window : QuotaWindow) (now : Int) : Prop where
  day : window.day = dayOf now
  sameDay : before.day = dayOf now →
    window.dayRequests = before.dayRequests ∧ window.dayTokens = before.dayTokens ∧
    window.minuteRequests = before.minuteRequests.filter (now - minuteSpan ≤ ·) ∧
    window.minuteTokens = before.minuteTokens.filter (now - minuteSpan ≤ ·.1)
  newDay : before.day ≠ dayOf now → window = { day := dayOf now }

theorem minuteBounded_iff {quota : ProviderQuota} {granted : List Reservation} :
    MinuteBounded quota granted ↔
      (∀ rpm ∈ quota.rpm,
        Sliding.Bounded Reservation.now (fun _ => 1) minuteSpan rpm granted) ∧
      ∀ tpm ∈ quota.tpm,
        Sliding.Bounded Reservation.now (·.estimatedTokens) minuteSpan tpm granted := by
  simp only [MinuteBounded, Sliding.Bounded, Sliding.total_one]
  exact ⟨fun h => ⟨fun rpm hrpm start => (h start).1 rpm hrpm,
    fun tpm htpm start => (h start).2 tpm htpm⟩,
    fun h start => ⟨fun rpm hrpm => h.1 rpm hrpm start, fun tpm htpm => h.2 tpm htpm start⟩⟩

theorem dayOf_mono {a b : Int} (h : a ≤ b) : dayOf a ≤ dayOf b :=
  Int.ediv_le_ediv (by decide) h

/-- The entry of a reservation in `minute_tokens`. -/
def Reservation.entry (call : Reservation) : Int × Nat := (call.now, call.estimatedTokens)

/-- What the window keeps of the reservations `log`, up to `time`. -/
structure Follows (log : List Reservation) (time : Int) (window : QuotaWindow) : Prop where
  ordered : (log.map (·.now)).Pairwise (· ≤ ·)
  past : ∀ call ∈ log, call.now ≤ time
  requests : window.minuteRequests = window.minuteTokens.map Prod.fst
  recent : ∃ expired recent, log = expired ++ recent ∧
    window.minuteTokens = recent.map Reservation.entry
  dayRequests : window.dayRequests =
    (Sliding.during (fun call : Reservation => dayOf call.now) window.day log).length
  dayTokens : window.dayTokens = Sliding.total (·.estimatedTokens)
    (Sliding.during (fun call : Reservation => dayOf call.now) window.day log)
  today : window.day ≤ dayOf time
  days : ∀ call ∈ log, dayOf call.now ≤ window.day

/-- Only what is more than a minute old has left `minute_tokens`. -/
def MinuteKept (log : List Reservation) (time : Int) (window : QuotaWindow) : Prop :=
  ∃ expired recent, log = expired ++ recent ∧
    window.minuteTokens = recent.map Reservation.entry ∧
    ∀ call ∈ expired, call.now < time - minuteSpan

variable {log : List Reservation} {time now : Int} {window : QuotaWindow}

theorem Follows.later (h : Follows log time window) (htime : time ≤ now) :
    Follows log now window :=
  { h with
    past := fun call hcall => (h.past call hcall).trans htime
    today := h.today.trans (dayOf_mono htime) }

theorem MinuteKept.later (h : MinuteKept log time window) (htime : time ≤ now) :
    MinuteKept log now window := by
  obtain ⟨expired, recent, hlog, hrecent, hold⟩ := h
  exact ⟨expired, recent, hlog, hrecent, fun call hcall => by
    have := hold call hcall
    omega⟩

theorem follows_fresh {time : Int} : Follows [] time { day := dayOf time } :=
  ⟨.nil, by simp, rfl, ⟨[], [], rfl, rfl⟩, rfl, rfl, Int.le_refl _, by simp⟩

theorem resetIfNewDay_day {now : Int} : (window.resetIfNewDay now).day = dayOf now := by
  unfold QuotaWindow.resetIfNewDay
  split <;> trivial

theorem Follows.reset (h : Follows log now window) :
    Follows log now (window.resetIfNewDay now) := by
  unfold QuotaWindow.resetIfNewDay
  split
  case isTrue => exact h
  case isFalse hday =>
    have hbefore : ∀ call ∈ log, dayOf call.now < dayOf now := fun call hcall =>
      lt_of_le_of_lt (h.days call hcall) (lt_of_le_of_ne h.today hday)
    have hnone : Sliding.during (fun call : Reservation => dayOf call.now) (dayOf now) log = [] :=
      Sliding.during_eq_nil fun call hcall => ne_of_lt (hbefore call hcall)
    refine ⟨h.ordered, h.past, rfl, ⟨log, [], by simp, rfl⟩, ?_, ?_, Int.le_refl _, ?_⟩
    · rw [hnone]
      rfl
    · rw [hnone]
      rfl
    · exact fun call hcall => Int.le_of_lt (hbefore call hcall)

theorem MinuteKept.reset (hkept : MinuteKept log now window) (h : Follows log now window)
    (hclear : ∀ call ∈ log, dayOf call.now ≠ dayOf now → call.now < now - minuteSpan) :
    MinuteKept log now (window.resetIfNewDay now) := by
  unfold QuotaWindow.resetIfNewDay
  split
  case isTrue => exact hkept
  case isFalse hday =>
    refine ⟨log, [], by simp, rfl, fun call hcall => hclear call hcall ?_⟩
    exact ne_of_lt (lt_of_le_of_lt (h.days call hcall) (lt_of_le_of_ne h.today hday))

theorem exists_trimmed {recent : List Reservation}
    (hrecent : window.minuteTokens = recent.map Reservation.entry) {now : Int} :
    ∃ dropped kept, recent = dropped ++ kept ∧
      (window.trimMinute now).minuteTokens = kept.map Reservation.entry ∧
      ∀ call ∈ dropped, call.now < now - minuteSpan := by
  obtain ⟨dropped, hsplit, hdropped⟩ :=
    Sliding.exists_expired Reservation.now (now - minuteSpan) recent
  refine ⟨dropped, _, hsplit, ?_, hdropped⟩
  rw [QuotaWindow.trimMinute, hrecent, Sliding.expire, List.dropWhile_map]
  rfl

theorem Follows.trim (h : Follows log now window) : Follows log now (window.trimMinute now) := by
  obtain ⟨expired, recent, rfl, hrecent⟩ := h.recent
  obtain ⟨dropped, kept, rfl, hkept, -⟩ := exists_trimmed hrecent
  refine { h with requests := ?_, recent := ⟨expired ++ dropped, kept, by simp, hkept⟩ }
  rw [QuotaWindow.trimMinute, h.requests]
  exact Sliding.expire_map Prod.fst (now - minuteSpan) window.minuteTokens

theorem MinuteKept.trim (h : MinuteKept log now window) :
    MinuteKept log now (window.trimMinute now) := by
  obtain ⟨expired, recent, rfl, hrecent, hold⟩ := h
  obtain ⟨dropped, kept, rfl, hkept, hdropped⟩ := exists_trimmed hrecent
  refine ⟨expired ++ dropped, kept, by simp, hkept, fun call hcall => ?_⟩
  exact (List.mem_append.mp hcall).elim (hold call) (hdropped call)

theorem Follows.expiredOnly (h : Follows log now window) :
    ExpiredOnly window ((window.resetIfNewDay now).trimMinute now) now := by
  obtain ⟨expired, recent, rfl, hrecent⟩ := h.recent
  have hordered : (window.minuteTokens.map Prod.fst).Pairwise (· ≤ ·) := by
    have hsublist : (recent.map (·.now)).Sublist ((expired ++ recent).map (·.now)) :=
      (List.sublist_append_right expired recent).map _
    rw [hrecent, List.map_map]
    exact h.ordered.sublist hsublist
  refine ⟨resetIfNewDay_day, fun hday => ?_, fun hday => ?_⟩
  · rw [QuotaWindow.resetIfNewDay, if_pos hday]
    refine ⟨rfl, rfl, ?_, Sliding.expire_eq_filter _ hordered⟩
    have hid := Sliding.expire_eq_filter (now - minuteSpan)
      (show (window.minuteRequests.map id).Pairwise (· ≤ ·) by rwa [List.map_id, h.requests])
    exact hid
  · rw [QuotaWindow.resetIfNewDay, if_neg hday]
    rfl

variable {call : Reservation}

theorem Follows.record (h : Follows log now window) (hday : window.day = dayOf now)
    (hcall : call.now = now) :
    Follows (log ++ [call]) now (window.record now call.estimatedTokens) := by
  subst hcall
  obtain ⟨expired, recent, hlog, hrecent⟩ := h.recent
  have hduring : Sliding.during (fun call : Reservation => dayOf call.now) window.day
        (log ++ [call]) =
      Sliding.during (fun call : Reservation => dayOf call.now) window.day log ++ [call] := by
    rw [hday]
    exact Sliding.during_append_self (fun call : Reservation => dayOf call.now) log call
  constructor
  · rw [List.map_append]
    refine List.pairwise_append.mpr ⟨h.ordered, List.pairwise_singleton _ _, ?_⟩
    intro a ha b hb
    obtain ⟨earlier, hearlier, rfl⟩ := List.mem_map.mp ha
    rw [List.map_singleton, List.mem_singleton] at hb
    exact hb ▸ h.past earlier hearlier
  · intro other hother
    rcases List.mem_append.mp hother with hold | hnew
    · exact h.past other hold
    · exact (List.mem_singleton.mp hnew) ▸ Int.le_refl _
  · simp [QuotaWindow.record, h.requests]
  · refine ⟨expired, recent ++ [call], by rw [hlog, List.append_assoc], ?_⟩
    simp [QuotaWindow.record, hrecent, Reservation.entry]
  · rw [QuotaWindow.record_day, hduring, List.length_append, ← h.dayRequests, List.length_singleton]
    rfl
  · rw [QuotaWindow.record_day, hduring, Sliding.total_append, ← h.dayTokens,
      Sliding.total_singleton]
    rfl
  · exact h.today
  · intro other hother
    rcases List.mem_append.mp hother with hold | hnew
    · exact h.days other hold
    · exact (List.mem_singleton.mp hnew) ▸ hday.ge

theorem MinuteKept.record (h : MinuteKept log now window) (hcall : call.now = now) :
    MinuteKept (log ++ [call]) now (window.record now call.estimatedTokens) := by
  obtain ⟨expired, recent, hlog, hrecent, hold⟩ := h
  refine ⟨expired, recent ++ [call], by rw [hlog, List.append_assoc], ?_, hold⟩
  simp [QuotaWindow.record, hrecent, Reservation.entry, hcall]

theorem blocked_eq_none {key : String} {quota : ProviderQuota} {tokens : Nat}
    (h : window.blocked key quota tokens = none) :
    (∀ rpm ∈ quota.rpm, window.minuteRequests.length < rpm) ∧
    (∀ rpd ∈ quota.rpd, window.dayRequests < rpd) ∧
    (∀ tpm ∈ quota.tpm, window.minuteTokenTotal + tokens ≤ tpm) ∧
    ∀ tpd ∈ quota.tpd, window.dayTokens + tokens ≤ tpd := by
  have hfree : ∀ {limit : Option Nat} {used : Nat} {most : Nat}, most ∈ limit →
      ¬ limit.any (· ≤ used) = true → used < most := by
    intro limit used most hmost hany
    rw [Option.mem_def.mp hmost] at hany
    simpa using hany
  have hfits : ∀ {limit : Option Nat} {used : Nat} {most : Nat}, most ∈ limit →
      ¬ limit.any (· < used) = true → used ≤ most := by
    intro limit used most hmost hany
    rw [Option.mem_def.mp hmost] at hany
    simpa using hany
  unfold QuotaWindow.blocked at h
  split at h
  case isTrue => cases h
  case isFalse hrpm =>
    split at h
    case isTrue => cases h
    case isFalse hrpd =>
      split at h
      case isTrue => cases h
      case isFalse htpm =>
        split at h
        case isTrue => cases h
        case isFalse htpd =>
          exact ⟨fun _ hmem => hfree hmem hrpm, fun _ hmem => hfree hmem hrpd,
            fun _ hmem => hfits hmem htpm, fun _ hmem => hfits hmem htpd⟩

theorem DayBounded.record {key : String} {quota : ProviderQuota} (h : DayBounded quota log)
    (hfollows : Follows log now window) (hday : window.day = dayOf now) (hcall : call.now = now)
    (hfree : window.blocked key quota call.estimatedTokens = none) :
    DayBounded quota (log ++ [call]) := by
  obtain ⟨-, hrpd, -, htpd⟩ := blocked_eq_none hfree
  have hrequests := hfollows.dayRequests
  have htokens := hfollows.dayTokens
  intro day
  dsimp only
  by_cases htoday : dayOf call.now = day
  · have htoday' : window.day = day := by rw [hday, ← hcall, htoday]
    rw [htoday', Sliding.during] at hrequests htokens
    rw [List.filter_append, List.filter_cons, if_pos (decide_eq_true htoday), List.filter_nil,
      List.length_append, List.map_append, List.sum_append, ← hrequests]
    rw [Sliding.total] at htokens
    rw [← htokens]
    exact ⟨fun rpd hmem => hrpd rpd hmem, fun tpd hmem => by simpa using htpd tpd hmem⟩
  · rw [List.filter_append, List.filter_cons, if_neg (by simpa using htoday), List.filter_nil,
      List.append_nil]
    exact h day

theorem MinuteBounded.record {key : String} {quota : ProviderQuota} (h : MinuteBounded quota log)
    (hfollows : Follows log now window) (hkept : MinuteKept log now window)
    (hcall : call.now = now) (hfree : window.blocked key quota call.estimatedTokens = none) :
    MinuteBounded quota (log ++ [call]) := by
  obtain ⟨hrpm, -, htpm, -⟩ := blocked_eq_none hfree
  obtain ⟨expired, recent, rfl, hrecent, hold⟩ := hkept
  rw [← hcall] at hold
  rw [minuteBounded_iff] at h ⊢
  refine ⟨fun rpm hmem => (h.1 rpm hmem).append hold ?_,
    fun tpm hmem => (h.2 tpm hmem).append hold ?_⟩
  · have hcount := hrpm rpm hmem
    rw [hfollows.requests, hrecent, List.map_map, List.length_map] at hcount
    rw [Sliding.total_one]
    exact hcount
  · have htotal := htpm tpm hmem
    rw [QuotaWindow.minuteTokenTotal, hrecent, Sliding.total, List.map_map] at htotal
    exact htotal

structure Keeps (key : String) (quota : ProviderQuota) (time : Int) (run : QuotaRun) : Prop where
  untouched : run.guard.windows key = none → run.on key = []
  follows : ∀ window, run.guard.windows key = some window → Follows (run.on key) time window
  days : DayBounded quota (run.on key)

structure KeepsMinute (key : String) (quota : ProviderQuota) (time : Int) (run : QuotaRun) :
    Prop where
  kept : ∀ window, run.guard.windows key = some window → MinuteKept (run.on key) time window
  minutes : MinuteBounded quota (run.on key)

variable {quotas : String → Option ProviderQuota} {key : String} {quota : ProviderQuota}
  {run : QuotaRun}

theorem Keeps.later (h : Keeps key quota time run) (htime : time ≤ now) :
    Keeps key quota now run :=
  { h with follows := fun window hwindow => (h.follows window hwindow).later htime }

theorem KeepsMinute.later (h : KeepsMinute key quota time run) (htime : time ≤ now) :
    KeepsMinute key quota now run :=
  { h with kept := fun window hwindow => (h.kept window hwindow).later htime }

theorem Keeps.found (h : Keeps key quota now run) :
    Follows (run.on key) now (run.guard.window key now) := by
  unfold QuotaGuard.window
  cases hwindow : run.guard.windows key with
  | none => exact h.untouched hwindow ▸ follows_fresh
  | some window => exact h.follows window hwindow

theorem Keeps.current (h : Keeps key quota now run) :
    Follows (run.on key) now (run.guard.current key now) := h.found.reset.trim

theorem KeepsMinute.current (h : KeepsMinute key quota now run) (hkeeps : Keeps key quota now run)
    (hclear : ∀ call ∈ run.on key, dayOf call.now ≠ dayOf now → call.now < now - minuteSpan) :
    MinuteKept (run.on key) now (run.guard.current key now) := by
  have hwindow : MinuteKept (run.on key) now (run.guard.window key now) := by
    unfold QuotaGuard.window
    cases hwindow : run.guard.windows key with
    | none => exact ⟨[], [], hkeeps.untouched hwindow, rfl, by simp⟩
    | some window => exact h.kept window hwindow
  exact (hwindow.reset hkeeps.found hclear).trim

theorem current_day (guard : QuotaGuard) (key : String) (now : Int) :
    (guard.current key now).day = dayOf now := resetIfNewDay_day

variable (quotas run) in
theorem reserve_other (hkey : call.key ≠ key) :
    (run.reserve quotas call).guard.windows key = run.guard.windows key ∧
      (run.reserve quotas call).on key = run.on key := by
  refine ⟨?_, ?_⟩
  · unfold QuotaRun.reserve QuotaGuard.reserve
    cases quotas call.key with
    | none => rfl
    | some quota =>
      dsimp only
      split <;> exact if_neg (Ne.symm hkey)
  · have hgranted : ((run.granted ++ [call]).filter (·.key = key)) =
        run.granted.filter (·.key = key) := by
      simp [hkey]
    unfold QuotaRun.reserve QuotaRun.on
    generalize run.guard.reserve call.key (quotas call.key) call.estimatedTokens call.now = answer
    dsimp only
    split
    · exact hgranted
    · rfl

variable (run) in
theorem reserve_cases (hquota : quotas call.key = some quota) (hkey : call.key = key) :
    (∃ error, (run.guard.current key call.now).blocked key quota call.estimatedTokens =
          some error ∧
        (run.reserve quotas call).guard.windows key = some (run.guard.current key call.now) ∧
        (run.reserve quotas call).on key = run.on key) ∨
      (run.guard.current key call.now).blocked key quota call.estimatedTokens = none ∧
        (run.reserve quotas call).guard.windows key =
          some ((run.guard.current key call.now).record call.now call.estimatedTokens) ∧
        (run.reserve quotas call).on key = run.on key ++ [call] := by
  subst hkey
  unfold QuotaRun.reserve QuotaGuard.reserve QuotaRun.on
  rw [hquota]
  dsimp only
  cases hblocked : (run.guard.current call.key call.now).blocked call.key quota
      call.estimatedTokens with
  | some error => exact .inl ⟨error, rfl, if_pos rfl, rfl⟩
  | none => exact .inr ⟨rfl, if_pos rfl, by simp⟩

theorem Keeps.reserve (h : Keeps key quota time run) (hquota : quotas key = some quota)
    (htime : time ≤ call.now) :
    Keeps key quota call.now (run.reserve quotas call) := by
  have hnow := h.later htime
  by_cases hkey : call.key = key
  case neg =>
    obtain ⟨hwindows, hon⟩ := reserve_other quotas run hkey
    exact ⟨by rw [hwindows, hon]; exact hnow.untouched,
      by rw [hwindows, hon]; exact hnow.follows, by rw [hon]; exact hnow.days⟩
  case pos =>
    have hday := current_day run.guard key call.now
    rcases reserve_cases run (hkey ▸ hquota : quotas call.key = some quota) hkey with
      ⟨error, -, hwindow, hon⟩ | ⟨hfree, hwindow, hon⟩
    · refine ⟨fun hnone => by simp [hwindow] at hnone, fun window hsome => ?_,
        by rw [hon]; exact hnow.days⟩
      rw [hwindow, Option.some.injEq] at hsome
      rw [← hsome, hon]
      exact hnow.current
    · refine ⟨fun hnone => by simp [hwindow] at hnone, fun window hsome => ?_, ?_⟩
      · rw [hwindow, Option.some.injEq] at hsome
        rw [← hsome, hon]
        exact hnow.current.record hday rfl
      · rw [hon]
        exact hnow.days.record hnow.current hday rfl hfree

theorem KeepsMinute.reserve (h : KeepsMinute key quota time run)
    (hkeeps : Keeps key quota time run) (hquota : quotas key = some quota)
    (htime : time ≤ call.now)
    (hclear : call.key = key → ∀ earlier ∈ run.on key, ¬ AcrossMidnight earlier call) :
    KeepsMinute key quota call.now (run.reserve quotas call) := by
  have hnow := h.later htime
  have hkeepsNow := hkeeps.later htime
  by_cases hkey : call.key = key
  case neg =>
    obtain ⟨hwindows, hon⟩ := reserve_other quotas run hkey
    exact ⟨by rw [hwindows, hon]; exact hnow.kept, by rw [hon]; exact hnow.minutes⟩
  case pos =>
    have hkept := hnow.current hkeepsNow fun earlier hearlier hdays =>
      not_le.mp fun hyoung => hclear hkey earlier hearlier ⟨hdays, hyoung⟩
    rcases reserve_cases run (hkey ▸ hquota : quotas call.key = some quota) hkey with
      ⟨error, -, hwindow, hon⟩ | ⟨hfree, hwindow, hon⟩
    · refine ⟨fun window hsome => ?_, by rw [hon]; exact hnow.minutes⟩
      rw [hwindow, Option.some.injEq] at hsome
      rw [← hsome, hon]
      exact hkept
    · refine ⟨fun window hsome => ?_, ?_⟩
      · rw [hwindow, Option.some.injEq] at hsome
        rw [← hsome, hon]
        exact hkept.record rfl
      · rw [hon]
        exact hnow.minutes.record hkeepsNow.current hkept rfl hfree

theorem reserveAll_append (calls : List Reservation) (call : Reservation) :
    reserveAll quotas (calls ++ [call]) = (reserveAll quotas calls).reserve quotas call := by
  rw [reserveAll, List.foldl_append]
  rfl

def ClockForward (calls : List Reservation) : Prop := (calls.map (·.now)).Pairwise (· ≤ ·)

theorem ClockForward.concat {calls : List Reservation} (h : ClockForward (calls ++ [call])) :
    ClockForward calls ∧ ∀ earlier ∈ calls, earlier.now ≤ call.now := by
  rw [ClockForward, List.map_append, List.pairwise_append] at h
  exact ⟨h.1, fun earlier hearlier =>
    h.2.2 _ (List.mem_map_of_mem hearlier) _ (List.mem_singleton_self _)⟩

theorem keeps_nil (time : Int) : Keeps key quota time (reserveAll quotas []) := by
  refine ⟨fun _ => rfl, fun window hwindow => (nomatch hwindow), fun day => ?_⟩
  exact ⟨fun _ _ => Nat.zero_le _, fun _ _ => Nat.zero_le _⟩

theorem keepsMinute_nil (time : Int) : KeepsMinute key quota time (reserveAll quotas []) := by
  refine ⟨fun window hwindow => (nomatch hwindow), fun start => ?_⟩
  exact ⟨fun _ _ => Nat.zero_le _, fun _ _ => Nat.zero_le _⟩

theorem keeps_reserveAll (hquota : quotas key = some quota) (calls : List Reservation)
    (hclock : ClockForward calls) (time : Int) (htime : ∀ call ∈ calls, call.now ≤ time) :
    Keeps key quota time (reserveAll quotas calls) := by
  induction calls using List.reverseRecOn generalizing time with
  | nil => exact keeps_nil time
  | append_singleton calls call ih =>
    obtain ⟨hclock, hbefore⟩ := hclock.concat
    rw [reserveAll_append]
    exact ((ih hclock call.now hbefore).reserve hquota (Int.le_refl _)).later
      (htime call (List.mem_append_right _ (List.mem_singleton_self _)))

theorem keepsMinute_reserveAll (hquota : quotas key = some quota) (calls : List Reservation)
    (hclock : ClockForward calls) (hclear : MidnightsClear quotas key calls) (time : Int)
    (htime : ∀ call ∈ calls, call.now ≤ time) :
    KeepsMinute key quota time (reserveAll quotas calls) := by
  induction calls using List.reverseRecOn generalizing time with
  | nil => exact keepsMinute_nil time
  | append_singleton calls call ih =>
    obtain ⟨hforward, hbefore⟩ := hclock.concat
    have hearlier : MidnightsClear quotas key calls := fun before other after hsplit =>
      hclear before other (after ++ [call]) (by rw [hsplit, List.append_assoc, List.cons_append])
    rw [reserveAll_append]
    exact ((ih hforward hearlier call.now hbefore).reserve
      (keeps_reserveAll hquota calls hforward call.now hbefore) hquota (Int.le_refl _)
      (hclear calls call [] rfl)).later
      (htime call (List.mem_append_right _ (List.mem_singleton_self _)))

theorem rejected_expiredOnly {calls : List Reservation} (hquota : quotas key = some quota)
    (hclock : ClockForward calls) {tokens : Nat} (htime : ∀ call ∈ calls, call.now ≤ now)
    {error : QuotaError} {guard : QuotaGuard}
    (hrejected : (reserveAll quotas calls).guard.reserve key (quotas key) tokens now =
      (guard, some error)) :
    (∃ window, guard.windows key = some window ∧
      ExpiredOnly ((reserveAll quotas calls).guard.window key now) window now) ∧
    ∀ other, other ≠ key → guard.windows other = (reserveAll quotas calls).guard.windows other := by
  have hwindow := (keeps_reserveAll hquota calls hclock now htime).found
  unfold QuotaGuard.reserve at hrejected
  rw [hquota] at hrejected
  dsimp only at hrejected
  split at hrejected
  case h_1 =>
    obtain ⟨rfl, -⟩ := Prod.mk.inj hrejected
    exact ⟨⟨_, if_pos rfl, hwindow.expiredOnly⟩, fun other hother => if_neg hother⟩
  case h_2 => cases (Prod.mk.inj hrejected).2

/-- Where no midnight lies within a minute after a reservation, the granted reservations of a key
are within the limits of a minute in every interval; they are always within those of a day, and
what is rejected changes nothing. -/
theorem granted_within_quota (quotas : String → Option ProviderQuota) (key : String)
    (quota : ProviderQuota) (calls : List Reservation) (hquota : quotas key = some quota)
    (hclock : ClockForward calls) :
    (MidnightsClear quotas key calls → MinuteBounded quota ((reserveAll quotas calls).on key)) ∧
    DayBounded quota ((reserveAll quotas calls).on key) ∧
    ∀ now tokens error guard, (∀ call ∈ calls, call.now ≤ now) →
      (reserveAll quotas calls).guard.reserve key (quotas key) tokens now = (guard, some error) →
      (∃ window, guard.windows key = some window ∧
        ExpiredOnly ((reserveAll quotas calls).guard.window key now) window now) ∧
      ∀ other, other ≠ key →
        guard.windows other = (reserveAll quotas calls).guard.windows other := by
  -- Some instant is not before any call.
  obtain ⟨time, htime⟩ : ∃ time, ∀ call ∈ calls, call.now ≤ time := by
    induction calls using List.reverseRecOn with
    | nil => exact ⟨0, by simp⟩
    | append_singleton calls call =>
      refine ⟨call.now, fun other hother => ?_⟩
      rcases List.mem_append.mp hother with hold | hnew
      · exact hclock.concat.2 other hold
      · exact (List.mem_singleton.mp hnew) ▸ Int.le_refl _
  exact ⟨fun hclear => (keepsMinute_reserveAll hquota calls hclock hclear time htime).minutes,
    (keeps_reserveAll hquota calls hclock time htime).days,
    fun now tokens error guard hnow hrejected =>
      rejected_expiredOnly hquota hclock hnow hrejected⟩

def onePerMinute : String → Option ProviderQuota := fun _ => some { rpm := some 1 }

theorem granted_within_quota_sample :
    ClockForward [⟨"groq:llama", 0, 900⟩, ⟨"groq:llama", 30000000, 900⟩] ∧
    ((MidnightsClear onePerMinute "groq:llama"
        [⟨"groq:llama", 0, 900⟩, ⟨"groq:llama", 30000000, 900⟩] →
      MinuteBounded { rpm := some 1 } ((reserveAll onePerMinute
        [⟨"groq:llama", 0, 900⟩, ⟨"groq:llama", 30000000, 900⟩]).on "groq:llama")) ∧
    DayBounded { rpm := some 1 } ((reserveAll onePerMinute
      [⟨"groq:llama", 0, 900⟩, ⟨"groq:llama", 30000000, 900⟩]).on "groq:llama")) := by
  have hclock : ClockForward [⟨"groq:llama", 0, 900⟩, ⟨"groq:llama", 30000000, 900⟩] := by
    simp [ClockForward]
  have h := granted_within_quota onePerMinute "groq:llama" { rpm := some 1 } _ rfl hclock
  exact ⟨hclock, h.1, h.2.1⟩

def midnightCalls : List Reservation :=
  [⟨"groq:llama", 86399500000, 900⟩, ⟨"groq:llama", 86400500000, 900⟩]

/-- Two requests within a minute, where one is allowed. -/
theorem minute_forgotten_at_midnight :
    ClockForward midnightCalls ∧
    ¬ MinuteBounded { rpm := some 1 }
        ((reserveAll onePerMinute midnightCalls).on "groq:llama") := by
  have hgranted : (reserveAll onePerMinute midnightCalls).on "groq:llama" = midnightCalls := by
    decide
  refine ⟨by simp [ClockForward, midnightCalls], fun h => ?_⟩
  rw [hgranted] at h
  have hinside := (h 86399500000).1 1 rfl
  exact absurd hinside (by decide)

end AiBuddy.Llm
