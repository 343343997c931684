import AiBuddy.Reminders.Proofs.Times
import AiBuddy.ScheduleExtraction.Validation
import Mathlib.Data.List.Perm.Subperm

/-!
# What the validator keeps

The validator accounts for every candidate, and what it keeps is dated, confident and grounded.
-/

namespace AiBuddy.ScheduleExtraction

open Calendar (Date)
open Reminders ScheduledItem

variable {host : Host} {validator : CandidateValidator} {α κ : Type} [ScheduledItem α]

theorem length_filter_mem_comm {a b : List String} (ha : a.Nodup) (hb : b.Nodup) :
    (a.filter (· ∈ b)).length = (b.filter (· ∈ a)).length := by
  refine List.Perm.length_eq ((List.perm_ext_iff_of_nodup (ha.filter _) (hb.filter _)).mpr ?_)
  intro token
  simp only [List.mem_filter, decide_eq_true_eq]
  exact and_comm

theorem titlesSimilar_comm {left right : String} :
    titlesSimilar host left right = titlesSimilar host right left := by
  have hnodup : ∀ title, (titleTokens host title).Nodup :=
    fun title => Dedup.nodup_eraseDups _
  unfold titlesSimilar
  dsimp only
  refine if_congr or_comm (decide_eq_decide.mpr eq_comm) (if_congr or_comm rfl ?_)
  rw [length_filter_mem_comm (hnodup left) (hnodup right),
    Nat.add_comm (titleTokens host left).length]

theorem sameItem_comm (a b : α) : sameItem host a b = sameItem host b a := by
  unfold sameItem
  rw [titlesSimilar_comm]
  congr 1
  exact decide_eq_decide.mpr eq_comm

theorem step_cases {read : κ → Except DateError (Except DropReason α)} {merged after : Merged α}
    {candidate : κ} (h : Merged.step host read merged candidate = .ok after) :
    (∃ reason, read candidate = .ok (.error reason) ∧
        after = { merged with drops := merged.drops ++ [reason] }) ∨
      ∃ item, read candidate = .ok (.ok item) ∧ after = merged.add host item := by
  unfold Merged.step at h
  cases hread : read candidate with
  | error error =>
    rw [hread] at h
    cases h
  | ok answer =>
    rw [hread] at h
    cases answer with
    | error reason => exact .inl ⟨reason, rfl, (Except.ok.inj h).symm⟩
    | ok item => exact .inr ⟨item, rfl, (Except.ok.inj h).symm⟩

theorem mergeAll_append {read : κ → Except DateError (Except DropReason α)} {before : List κ}
    {candidate : κ} : mergeAll host read (before ++ [candidate]) =
      (mergeAll host read before).bind fun merged => merged.step host read candidate := by
  unfold mergeAll
  rw [List.foldlM_append]
  cases List.foldlM (Merged.step host read) {} before with
  | error error => rfl
  | ok merged =>
    change ((merged.step host read candidate).bind fun after => .ok after) = _
    cases hstep : merged.step host read candidate with
    | error error => simp [Except.bind, hstep]
    | ok after => simp [Except.bind, hstep]

theorem mergeAll_append_eq_ok {read : κ → Except DateError (Except DropReason α)}
    {before : List κ} {candidate : κ} {after : Merged α}
    (h : mergeAll host read (before ++ [candidate]) = .ok after) :
    ∃ merged, mergeAll host read before = .ok merged ∧
      merged.step host read candidate = .ok after := by
  rw [mergeAll_append] at h
  cases hbefore : mergeAll host read before with
  | error error =>
    rw [hbefore] at h
    cases h
  | ok merged =>
    rw [hbefore] at h
    exact ⟨merged, rfl, h⟩

theorem add_length {merged : Merged α} {item : α} :
    (merged.add host item).kept.length + (merged.add host item).drops.length =
      merged.kept.length + merged.drops.length + 1 := by
  have hlength := Dedup.length_merge (sameItem host) better merged.kept item
  unfold Merged.add
  dsimp only
  split at hlength <;> simp_all <;> omega

theorem mergeAll_length {read : κ → Except DateError (Except DropReason α)} {candidates : List κ}
    {merged : Merged α} (h : mergeAll host read candidates = .ok merged) :
    merged.kept.length + merged.drops.length = candidates.length := by
  induction candidates using List.reverseRecOn generalizing merged with
  | nil =>
    obtain rfl := Except.ok.inj h
    rfl
  | append_singleton before candidate ih =>
    obtain ⟨earlier, hearlier, hstep⟩ := mergeAll_append_eq_ok h
    rw [List.length_append, ← ih hearlier, List.length_singleton]
    rcases step_cases hstep with ⟨reason, -, rfl⟩ | ⟨item, -, rfl⟩
    · rw [List.length_append, List.length_singleton, Nat.add_assoc]
    · exact add_length

theorem mergeAll_read {read : κ → Except DateError (Except DropReason α)} {candidates : List κ}
    {merged : Merged α} (h : mergeAll host read candidates = .ok merged) :
    ∀ item ∈ merged.kept, ∃ candidate ∈ candidates, read candidate = .ok (.ok item) := by
  induction candidates using List.reverseRecOn generalizing merged with
  | nil =>
    obtain rfl := Except.ok.inj h
    exact fun item hitem => absurd hitem List.not_mem_nil
  | append_singleton before candidate ih =>
    obtain ⟨earlier, hearlier, hstep⟩ := mergeAll_append_eq_ok h
    intro item hitem
    have hold : item ∈ earlier.kept →
        ∃ other ∈ before ++ [candidate], read other = .ok (.ok item) := by
      intro hmem
      obtain ⟨other, hother, hread⟩ := ih hearlier item hmem
      exact ⟨other, List.mem_append_left _ hother, hread⟩
    rcases step_cases hstep with ⟨reason, -, rfl⟩ | ⟨new, hread, rfl⟩
    · exact hold hitem
    · rcases Dedup.mem_merge _ _ hitem with rfl | hmem
      · exact ⟨candidate, List.mem_append_right _ (List.mem_singleton_self _), hread⟩
      · exact hold hmem

def CleanMerges (host : Host) (read : κ → Except DateError (Except DropReason α))
    (candidates : List κ) : Prop :=
  ∀ before candidate after, candidates = before ++ candidate :: after →
    ∀ merged item, mergeAll host read before = .ok merged → read candidate = .ok (.ok item) →
      Dedup.Clean (sameItem host) better merged.kept item

theorem mergeAll_apart {read : κ → Except DateError (Except DropReason α)} {candidates : List κ}
    (hclean : CleanMerges host read candidates) {merged : Merged α}
    (h : mergeAll host read candidates = .ok merged) :
    merged.kept.Pairwise fun a b => sameItem host a b = false := by
  induction candidates using List.reverseRecOn generalizing merged with
  | nil =>
    obtain rfl := Except.ok.inj h
    exact .nil
  | append_singleton before candidate ih =>
    obtain ⟨earlier, hearlier, hstep⟩ := mergeAll_append_eq_ok h
    have hbefore : CleanMerges host read before := fun front other back hsplit =>
      hclean front other (back ++ [candidate])
        (by rw [hsplit, List.append_assoc, List.cons_append])
    have hapart := ih hbefore hearlier
    rcases step_cases hstep with ⟨reason, -, rfl⟩ | ⟨item, hread, rfl⟩
    · exact hapart
    · exact Dedup.pairwise_merge _ _ sameItem_comm hapart
        (hclean before candidate [] rfl earlier item hearlier hread)

theorem exists_mergeAll {read : κ → Except DateError (Except DropReason α)} {candidates : List κ}
    (h : ∀ candidate ∈ candidates, ∃ answer, read candidate = .ok answer) :
    ∃ merged, mergeAll host read candidates = .ok merged := by
  induction candidates using List.reverseRecOn with
  | nil => exact ⟨{}, rfl⟩
  | append_singleton before candidate ih =>
    obtain ⟨earlier, hearlier⟩ := ih fun other hother => h other (List.mem_append_left _ hother)
    obtain ⟨answer, hanswer⟩ := h candidate (List.mem_append_right _ (List.mem_singleton_self _))
    rw [mergeAll_append, hearlier]
    unfold Except.bind Merged.step
    dsimp only
    rw [hanswer]
    exact ⟨_, rfl⟩

variable {limit : Nat}

theorem cap_length {merged : Merged α} :
    (merged.cap limit).kept.length + (merged.cap limit).drops.length =
      merged.kept.length + merged.drops.length := by
  unfold Merged.cap
  split
  · rfl
  · dsimp only
    rw [List.length_take, List.length_append, List.length_map, List.length_drop,
      List.length_insertionSort]
    omega

theorem cap_subperm (merged : Merged α) (limit : Nat) :
    ∃ ranked, ranked.Perm merged.kept ∧ (merged.cap limit).kept.Sublist ranked := by
  unfold Merged.cap
  split
  · exact ⟨merged.kept, .refl _, .refl _⟩
  · exact ⟨_, List.perm_insertionSort _ _, List.take_sublist _ _⟩

theorem mem_of_mem_cap {merged : Merged α} {item : α} (h : item ∈ (merged.cap limit).kept) :
    item ∈ merged.kept := by
  obtain ⟨ranked, hperm, hsublist⟩ := cap_subperm merged limit
  exact hperm.mem_iff.mp (hsublist.subset h)

theorem cap_apart {merged : Merged α}
    (h : merged.kept.Pairwise fun a b => sameItem host a b = false) :
    (merged.cap limit).kept.Pairwise fun a b => sameItem host a b = false := by
  obtain ⟨ranked, hperm, hsublist⟩ := cap_subperm merged limit
  have hsymm : ∀ {a b : α}, sameItem host a b = false → sameItem host b a = false := by
    intro a b hab
    rwa [sameItem_comm]
  exact (hperm.symm.pairwise h hsymm).sublist hsublist

theorem resolveDate_range {dateKey dateText : String} {base value : Date}
    (h : resolveDate host dateKey dateText base = .ok (some value)) :
    base.toOrdinal ≤ value.toOrdinal ∧ value.toOrdinal ≤ base.toOrdinal + maxDaysAhead := by
  unfold resolveDate at h
  dsimp only at h
  split at h
  case h_1 => cases h
  case h_2 => cases h
  case h_3 resolved hresolved =>
    split at h
    case isTrue => cases h
    case isFalse hlow =>
      unfold addDays at h
      split at h
      case isFalse => cases h
      case isTrue =>
        have h := Except.ok.inj h
        dsimp only at h
        rw [Calendar.toOrdinal_ofOrdinal] at h
        split at h
        case isTrue => cases h
        case isFalse hhigh =>
          obtain rfl := Option.some.inj h
          exact ⟨by omega, by omega⟩

theorem common_spec {candidate : Candidate} {value : Date}
    (h : validator.common host candidate = .ok (.ok value)) :
    validator.minConfidence ≤ candidate.confidence ∧
      validator.grounds host candidate.evidence = true ∧
      validator.recordedAt.toOrdinal ≤ value.toOrdinal ∧
      value.toOrdinal ≤ validator.recordedAt.toOrdinal + maxDaysAhead := by
  unfold CandidateValidator.common at h
  split at h
  case isTrue => cases h
  case isFalse =>
    split at h
    case isTrue => cases h
    case isFalse hconfidence =>
      split at h
      case isTrue => cases h
      case isFalse hgrounded =>
        refine ⟨not_lt.mp hconfidence, not_not.mp hgrounded, ?_⟩
        cases hdate : resolveDate host candidate.dateKey candidate.dateText
          validator.recordedAt with
        | error error =>
          rw [hdate] at h
          cases h
        | ok date =>
          rw [hdate] at h
          cases date with
          | none => cases h
          | some date =>
            cases h
            exact resolveDate_range hdate

def ReadFrom (host : Host) (validator : CandidateValidator) (candidate : Candidate) (item : α) :
    Prop :=
  validator.common host candidate = .ok (.ok (date item)) ∧
    evidence item = Text.take 500 candidate.evidence ∧ confidence item = candidate.confidence

theorem readEvent_readFrom {candidate : EventCandidate} {item : ScheduledEvent}
    (h : validator.readEvent host candidate = .ok (.ok item)) :
    ReadFrom host validator candidate.toCandidate item ∧
      validator.eventOn host candidate item.date = .ok item := by
  unfold CandidateValidator.readEvent at h
  cases hcommon : validator.common host candidate.toCandidate with
  | error error =>
    rw [hcommon] at h
    cases h
  | ok answer =>
    rw [hcommon] at h
    cases answer with
    | error reason => cases Except.ok.inj h
    | ok value =>
      have hevent : validator.eventOn host candidate value = .ok item := Except.ok.inj h
      have hdate : item.date = value ∧ item.evidence = Text.take 500 candidate.evidence ∧
          item.confidence = candidate.confidence := by
        unfold CandidateValidator.eventOn at hevent
        dsimp only at hevent
        split at hevent
        · cases hevent
        · rw [← Except.ok.inj hevent]
          exact ⟨rfl, rfl, rfl⟩
      obtain ⟨rfl, hevidence, hconfidence⟩ := hdate
      exact ⟨⟨hcommon, hevidence, hconfidence⟩, hevent⟩

theorem readReminder_readFrom {candidate : ReminderCandidate} {item : ScheduledReminder}
    (h : validator.readReminder host candidate = .ok (.ok item)) :
    ReadFrom host validator candidate.toCandidate item := by
  unfold CandidateValidator.readReminder at h
  cases hcommon : validator.common host candidate.toCandidate with
  | error error =>
    rw [hcommon] at h
    cases h
  | ok answer =>
    rw [hcommon] at h
    cases answer with
    | error reason => cases Except.ok.inj h
    | ok value =>
      have hreminder : validator.reminderOn host candidate value = .ok item := Except.ok.inj h
      have hdate : item.date = value ∧ item.evidence = Text.take 500 candidate.evidence ∧
          item.confidence = candidate.confidence := by
        unfold CandidateValidator.reminderOn at hreminder
        dsimp only at hreminder
        split at hreminder
        · cases hreminder
        · rw [← Except.ok.inj hreminder]
          exact ⟨rfl, rfl, rfl⟩
      obtain ⟨rfl, hevidence, hconfidence⟩ := hdate
      exact ⟨hcommon, hevidence, hconfidence⟩

structure Accounts (host : Host) (validator : CandidateValidator) (candidates : Nat)
    (result : Merged α) : Prop where
  counted : result.kept.length + result.drops.length = candidates
  dated : ∀ item ∈ result.kept, validator.recordedAt.toOrdinal ≤ (date item).toOrdinal ∧
    (date item).toOrdinal ≤ validator.recordedAt.toOrdinal + maxDaysAhead
  confident : ∀ item ∈ result.kept, validator.minConfidence ≤ confidence item
  grounded : ∀ item ∈ result.kept, validator.grounds host (evidence item) = true
  apart : result.kept.Pairwise fun a b =>
    date a = date b → titlesSimilar host (title a) (title b) = false

/-- The candidates that `read` makes items of one after the other: no date raises, what grounds
the evidence is in its first 500 characters, and every merge is clean. -/
structure Sound (host : Host) (validator : CandidateValidator) (common : κ → Candidate)
    (read : κ → Except DateError (Except DropReason α)) (candidates : List κ) : Prop where
  dates : ∀ candidate ∈ candidates, ∀ error,
    validator.common host (common candidate) ≠ .error error
  evidence : ∀ candidate ∈ candidates,
    validator.grounds host (common candidate).evidence = true →
      validator.grounds host (Text.take 500 (common candidate).evidence) = true
  merges : CleanMerges host read candidates

theorem mergeAll_accounts {common : κ → Candidate}
    {read : κ → Except DateError (Except DropReason α)} {candidates : List κ}
    (h : Sound host validator common read candidates)
    (hanswers : ∀ candidate ∈ candidates,
      (∀ error, validator.common host (common candidate) ≠ .error error) →
      ∃ answer, read candidate = .ok answer)
    (hread : ∀ candidate item, read candidate = .ok (.ok item) →
      ReadFrom host validator (common candidate) item) :
    ∃ result, (mergeAll host read candidates).map (·.cap limit) = .ok result ∧
      Accounts host validator candidates.length result := by
  obtain ⟨merged, hmerged⟩ := exists_mergeAll fun candidate hcandidate =>
    hanswers candidate hcandidate (h.dates candidate hcandidate)
  have hfrom : ∀ item ∈ (merged.cap limit).kept, ∃ candidate ∈ candidates,
      ReadFrom host validator (common candidate) item := by
    intro item hitem
    obtain ⟨candidate, hcandidate, hitemRead⟩ :=
      mergeAll_read hmerged item (mem_of_mem_cap hitem)
    exact ⟨candidate, hcandidate, hread candidate item hitemRead⟩
  refine ⟨merged.cap limit, by rw [hmerged]; rfl, ?_⟩
  constructor
  · rw [cap_length, mergeAll_length hmerged]
  · intro item hitem
    obtain ⟨candidate, -, hcommon, -⟩ := hfrom item hitem
    exact (common_spec hcommon).2.2
  · intro item hitem
    obtain ⟨candidate, -, hcommon, -, hconfidence⟩ := hfrom item hitem
    exact hconfidence ▸ (common_spec hcommon).1
  · intro item hitem
    obtain ⟨candidate, hcandidate, hcommon, hevidence, -⟩ := hfrom item hitem
    exact hevidence ▸ h.evidence candidate hcandidate (common_spec hcommon).2.1
  · refine (cap_apart (mergeAll_apart h.merges hmerged)).imp fun hab hdate => ?_
    simpa [sameItem, hdate] using hab

def plainHost : Host where
  tables := asciiTables
  zones := ⟨fun _ => none, utc⟩
  fromIsoFormat := parseDateKey
  sha1 := id

def planValidator : CandidateValidator :=
  .make plainHost "c1" "budget review then launch plan" ⟨2026, 6, 1⟩ none (6 / 10) 20 0

def planned (title startTime : String) (confidence : Rat) : EventCandidate where
  title := title
  dateKey := "2026-06-05"
  startTime := startTime
  evidence := title
  confidence := confidence

def planCandidates : List EventCandidate :=
  [planned "budget review" "3:00 PM" (7 / 10), planned "launch plan" "3:00 PM" (7 / 10),
    planned "budget review launch plan" "3:00 PM" (9 / 10)]

theorem plan_titles :
    (planValidator.events plainHost planCandidates).toOption.map
      (fun result => result.kept.map fun item => (item.title, item.date)) =
      some [("budget review launch plan", ⟨2026, 6, 5⟩), ("launch plan", ⟨2026, 6, 5⟩)] := by
  decide +kernel

end AiBuddy.ScheduleExtraction

/-!
## When events end

An event ends after it starts, unless its end was made up across midnight.
-/

namespace AiBuddy.ScheduleExtraction

open Reminders

variable {host : Host} {validator : CandidateValidator}

def ScheduledEvent.EndsAfterStart (event : ScheduledEvent) : Prop :=
  ∃ start finish, minuteOfDay event.startTimeLabel = some start ∧
    minuteOfDay event.endTimeLabel = some finish ∧ start < finish

/-- The candidate says when it ends, later than it starts, or it starts so early that the span for
its kind ends before midnight. -/
def EndsInTime (host : Host) (candidate : EventCandidate) : Prop :=
  let start := (CandidateValidator.startOf host candidate).getD CandidateValidator.defaultEventTime
  (∃ finish ∈ normalizeTime host candidate.endTime, isAfter start finish = true) ∨
    ∀ minute ∈ minuteOfDay start, minute + CandidateValidator.spanOf candidate.kind < 24 * 60

def Label (label : String) : Prop :=
  ∃ hour minute, parseTimeLabel label = some (hour, minute) ∧ hour ≤ 23 ∧ minute ≤ 59

theorem label_format {hour minute : Nat} (hhour : hour ≤ 23) (hminute : minute ≤ 59) :
    Label (formatTimeLabel hour minute) :=
  ⟨hour, minute, parseTimeLabel_format hhour hminute, hhour, hminute⟩

theorem label_normalizeTime {text label : String} (h : normalizeTime host text = some label) :
    Label label := by
  unfold normalizeTime at h
  dsimp only at h
  split at h
  case isTrue => cases h
  case isFalse =>
    split at h
    case h_1 time htime =>
      obtain rfl := Option.some.inj h
      obtain ⟨hhour, hminute⟩ := parseTimeLabel_le htime
      exact label_format hhour hminute
    case h_2 =>
      obtain ⟨time, hread, -, hhour, hminute⟩ := parseTimeLabel_parseTime h
      exact ⟨time.1, time.2, hread, hhour, hminute⟩

variable (host) in
theorem label_start (candidate : EventCandidate) :
    Label ((CandidateValidator.startOf host candidate).getD
      CandidateValidator.defaultEventTime) := by
  cases hstart : CandidateValidator.startOf host candidate with
  | none => exact ⟨10, 0, by decide, by decide, by decide⟩
  | some start =>
    rcases Option.or_eq_some_iff.mp hstart with h | ⟨-, h⟩
    · exact label_normalizeTime h
    · exact label_normalizeTime h

theorem isAfter_iff {start finish : String} {a : Nat} (ha : minuteOfDay start = some a) :
    isAfter start finish = true ↔ ∃ b, minuteOfDay finish = some b ∧ a < b := by
  unfold minuteOfDay at ha ⊢
  obtain ⟨time, htime, rfl⟩ := Option.map_eq_some_iff.mp ha
  unfold isAfter
  rw [htime]
  cases parseTimeLabel finish with
  | none => simp
  | some other => simp

theorem minuteOfDay_addMinutes {label : String} (h : Label label) {minute : Nat}
    (hminute : minuteOfDay label = some minute) {minutes : Nat} :
    minuteOfDay (addMinutes label minutes) = some ((minute + minutes) % (24 * 60)) := by
  obtain ⟨hour, minuteOfHour, hread, -, -⟩ := h
  have hsum : minute = hour * 60 + minuteOfHour := by
    rw [minuteOfDay, hread] at hminute
    exact (Option.some.inj hminute).symm
  unfold addMinutes
  rw [hread]
  dsimp only
  rw [← hsum]
  generalize htotal : (minute + minutes) % (24 * 60) = total
  have hlt : total < 24 * 60 := htotal ▸ Nat.mod_lt _ (by decide)
  rw [minuteOfDay, parseTimeLabel_format (by omega) (by omega)]
  refine congrArg some ?_
  dsimp only
  omega

theorem endsAfterStart_iff {candidate : EventCandidate} {event : ScheduledEvent}
    (h : validator.readEvent host candidate = .ok (.ok event)) :
    event.EndsAfterStart ↔ EndsInTime host candidate := by
  have hevent := (readEvent_readFrom h).2
  unfold CandidateValidator.eventOn at hevent
  dsimp only at hevent
  split at hevent
  case isTrue => cases hevent
  case isFalse =>
    rw [← Except.ok.inj hevent]
    unfold ScheduledEvent.EndsAfterStart EndsInTime
    dsimp only
    have hstart := label_start host candidate
    generalize (CandidateValidator.startOf host candidate).getD
      CandidateValidator.defaultEventTime = start at hstart
    obtain ⟨a, ha⟩ : ∃ a, minuteOfDay start = some a := by
      obtain ⟨hour, minute, hread, -⟩ := hstart
      exact ⟨_, by rw [minuteOfDay, hread]; rfl⟩
    have hlt : a < 24 * 60 := by
      obtain ⟨hour, minute, hread, hhour, hminute⟩ := hstart
      rw [minuteOfDay, hread] at ha
      have := Option.some.inj ha
      dsimp only at this
      omega
    have hspan : 0 < CandidateValidator.spanOf candidate.kind ∧
        CandidateValidator.spanOf candidate.kind ≤ 60 := by
      unfold CandidateValidator.spanOf
      split <;> decide
    have hmade : (∃ b c, minuteOfDay start = some b ∧
          minuteOfDay (addMinutes start (CandidateValidator.spanOf candidate.kind)) = some c ∧
          b < c) ↔
        ∀ minute ∈ minuteOfDay start,
          minute + CandidateValidator.spanOf candidate.kind < 24 * 60 := by
      rw [minuteOfDay_addMinutes hstart ha, ha]
      constructor
      · rintro ⟨b, c, hb, hc, hbc⟩ minute hminute
        obtain rfl := Option.some.inj hb
        obtain rfl := Option.some.inj hc
        obtain rfl := Option.some.inj hminute
        omega
      · exact fun h => ⟨a, _, rfl, rfl, by have := h a rfl; omega⟩
    unfold CandidateValidator.endOf
    cases hend : normalizeTime host candidate.endTime with
    | none =>
      rw [hmade]
      exact ⟨.inr, fun h => h.resolve_left fun hfinish => nomatch hfinish.choose_spec.1⟩
    | some finish =>
      dsimp only
      by_cases hafter : isAfter start finish = true
      · obtain ⟨b, hb, hab⟩ := (isAfter_iff ha).mp hafter
        rw [if_pos hafter]
        exact ⟨fun _ => .inl ⟨finish, rfl, hafter⟩, fun _ => ⟨a, b, ha, hb, hab⟩⟩
      · rw [if_neg hafter, hmade]
        refine ⟨.inr, fun h => h.resolve_left ?_⟩
        rintro ⟨other, hother, hlater⟩
        rw [← Option.some.inj hother] at hlater
        exact hafter hlater

def Returned (host : Host) (validator : CandidateValidator) (candidates : List EventCandidate)
    (candidate : EventCandidate) : Prop :=
  ∃ result, validator.events host candidates = .ok result ∧ ∃ event ∈ result.kept,
    validator.readEvent host candidate = .ok (.ok event)

/-- Every returned event ends after it starts exactly if every candidate whose event is returned
ends in time. -/
theorem events_endAfterStart_iff (host : Host) (validator : CandidateValidator)
    (candidates : List EventCandidate) :
    (∀ result, validator.events host candidates = .ok result →
      ∀ event ∈ result.kept, event.EndsAfterStart) ↔
    ∀ candidate ∈ candidates, Returned host validator candidates candidate →
      EndsInTime host candidate := by
  constructor
  · rintro h candidate - ⟨result, hresult, event, hevent, hread⟩
    exact (endsAfterStart_iff hread).mp (h result hresult event hevent)
  · intro h result hresult event hevent
    have hresult' := hresult
    unfold CandidateValidator.events at hresult'
    cases hmerged : mergeAll host (validator.readEvent host) candidates with
    | error error =>
      rw [hmerged] at hresult'
      cases hresult'
    | ok merged =>
      rw [hmerged] at hresult'
      obtain rfl := Except.ok.inj hresult'
      obtain ⟨candidate, hcandidate, hread⟩ :=
        mergeAll_read hmerged event (mem_of_mem_cap hevent)
      exact (endsAfterStart_iff hread).mpr
        (h candidate hcandidate ⟨_, hresult, event, hevent, hread⟩)

theorem late_event_labels :
    (planValidator.events plainHost [planned "budget review" "11:30 PM" 1]).toOption.map
      (fun result => result.kept.map fun event => (event.startTimeLabel, event.endTimeLabel)) =
      some [("11:30 PM", "12:30 AM")] := by
  decide +kernel

/-- An event from 11:30 in the evening ends half an hour after midnight of the same day. -/
theorem event_ends_before_start :
    ¬ ∀ result, planValidator.events plainHost [planned "budget review" "11:30 PM" 1] =
      .ok result → ∀ event ∈ result.kept, event.EndsAfterStart := by
  intro h
  have hlabels := late_event_labels
  cases hresult : planValidator.events plainHost [planned "budget review" "11:30 PM" 1] with
  | error error =>
    rw [hresult] at hlabels
    cases hlabels
  | ok result =>
    rw [hresult] at hlabels
    have hkept : result.kept.map (fun event => (event.startTimeLabel, event.endTimeLabel)) =
        [("11:30 PM", "12:30 AM")] := Option.some.inj hlabels
    obtain ⟨event, hevent, hlabel⟩ := List.mem_map.mp
      (hkept.symm ▸ List.mem_singleton_self ("11:30 PM", "12:30 AM") :
        ("11:30 PM", "12:30 AM") ∈
          result.kept.map fun event => (event.startTimeLabel, event.endTimeLabel))
    obtain ⟨hstart, hfinish⟩ := Prod.mk.inj hlabel
    obtain ⟨start, finish, hreadStart, hreadFinish, hlt⟩ := h result hresult event hevent
    rw [hstart, show minuteOfDay "11:30 PM" = some 1410 by decide] at hreadStart
    rw [hfinish, show minuteOfDay "12:30 AM" = some 30 by decide] at hreadFinish
    obtain rfl := Option.some.inj hreadStart
    obtain rfl := Option.some.inj hreadFinish
    exact absurd hlt (by decide)

end AiBuddy.ScheduleExtraction
