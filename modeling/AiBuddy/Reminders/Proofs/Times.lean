import AiBuddy.Reminders.Proofs.Occurrence
import AiBuddy.Reminders.Dates

/-!
# Times that `parse_time` reads

The hour and the minute are those of a clock, and their label reads back as them.
-/

namespace AiBuddy.Reminders

open Regex

variable {tables : CharTables}

variable {a : Char}

theorem number_pair {b : Char} (ha : a.isDigit = true) (hb : b.isDigit = true) :
    number tables [a, b] = 10 * (a.toNat - 48) + (b.toNat - 48) := by
  simp [number, tables.digitValue_ascii a ha, tables.digitValue_ascii b hb]

theorem number_single (ha : a.isDigit = true) : number tables [a] = a.toNat - 48 := by
  simp [number, tables.digitValue_ascii a ha]

theorem number_pair_lt (ha : a.isDigit = true) {b : Char} :
    number tables [a, b] < 10 * (a.toNat - 48) + 10 := by
  have hb := tables.digitValue_lt b
  simp only [number, List.foldl_cons, List.foldl_nil, tables.digitValue_ascii a ha]
  omega

theorem take_of_tail {α : Type} {front back : List α} :
    (front ++ back).take ((front ++ back).length - back.length) = front := by
  simp

theorem mem_seq_two {p q : Char → Bool} {at_ stop : Cursor Char Part}
    (h : stop ∈ seq [one p, one q] at_) :
    ∃ a b, at_.rest = [a, b] ++ stop.rest ∧ p a = true ∧ q b = true ∧
      stop.groups = at_.groups := by
  obtain ⟨mid, hmid, hstop⟩ := mem_seq_cons.mp h
  obtain ⟨a, rest, hrest, ha, rfl⟩ := mem_one.mp hmid
  obtain ⟨last, hlast, hnil⟩ := mem_seq_cons.mp hstop
  obtain ⟨b, more, hmore, hb, rfl⟩ := mem_one.mp hlast
  rw [mem_seq_nil.mp hnil]
  refine ⟨a, b, ?_, ha, hb, rfl⟩
  rw [hrest]
  exact congrArg (a :: ·) hmore

theorem mem_seq_opt {p q : Char → Bool} {at_ stop : Cursor Char Part}
    (h : stop ∈ seq [opt (one p), one q] at_) :
    (stop ∈ seq [one p, one q] at_ ∨ ∃ b, at_.rest = [b] ++ stop.rest ∧ q b = true) ∧
      stop.groups = at_.groups := by
  obtain ⟨mid, hmid, hstop⟩ := mem_seq_cons.mp h
  obtain ⟨choice, hchoice, hmid⟩ := mem_alt.mp hmid
  rw [List.mem_cons, List.mem_singleton] at hchoice
  rcases hchoice with rfl | rfl
  · have htwo : stop ∈ seq [one p, one q] at_ := mem_seq_cons.mpr ⟨mid, hmid, hstop⟩
    exact ⟨.inl htwo, (mem_seq_two htwo).choose_spec.choose_spec.2.2.2⟩
  · rw [List.mem_singleton.mp hmid] at hstop
    obtain ⟨last, hlast, hnil⟩ := mem_seq_cons.mp hstop
    obtain ⟨b, more, hmore, hb, rfl⟩ := mem_one.mp hlast
    rw [mem_seq_nil.mp hnil]
    exact ⟨.inr ⟨b, hmore, hb⟩, rfl⟩

/-- What a pattern may read as a number of at most `most`. -/
def ReadsUpTo (tables : CharTables) (most : Nat) (p : DatePattern) : Prop :=
  ∀ at_, ∀ stop ∈ p at_,
    number tables (at_.rest.take (at_.rest.length - stop.rest.length)) ≤ most ∧
      stop.groups = at_.groups

theorem ReadsUpTo.alt {most : Nat} {choices : List DatePattern}
    (h : ∀ p ∈ choices, ReadsUpTo tables most p) : ReadsUpTo tables most (alt choices) := by
  intro at_ stop hstop
  obtain ⟨choice, hchoice, hmem⟩ := mem_alt.mp hstop
  exact h choice hchoice at_ stop hmem

theorem readsUpTo_pair {most : Nat} {as bs : List Char}
    (has : as.all Char.isDigit) (hbs : bs.all Char.isDigit)
    (h : as.all fun a => bs.all fun b => 10 * (a.toNat - 48) + (b.toNat - 48) ≤ most) :
    ReadsUpTo tables most (seq [oneOf as, oneOf bs]) := by
  intro at_ stop hstop
  obtain ⟨a, b, hrest, ha, hb, hgroups⟩ := mem_seq_two hstop
  have ha := of_decide_eq_true ha
  have hb := of_decide_eq_true hb
  have hread := of_decide_eq_true (List.all_eq_true.mp (List.all_eq_true.mp h a ha) b hb)
  rw [hrest, take_of_tail,
    number_pair (List.all_eq_true.mp has a ha) (List.all_eq_true.mp hbs b hb)]
  exact ⟨hread, hgroups⟩

theorem readsUpTo_digit {most : Nat} {as : List Char} (has : as.all Char.isDigit)
    (h : as.all fun a => 10 * (a.toNat - 48) + 9 ≤ most) :
    ReadsUpTo tables most (seq [oneOf as, digit tables]) := by
  intro at_ stop hstop
  obtain ⟨a, b, hrest, ha, -, hgroups⟩ := mem_seq_two hstop
  have ha := of_decide_eq_true ha
  have hlt : number tables [a, b] < 10 * (a.toNat - 48) + 10 :=
    number_pair_lt (List.all_eq_true.mp has a ha)
  have hle := of_decide_eq_true (List.all_eq_true.mp h a ha)
  rw [hrest, take_of_tail]
  exact ⟨by omega, hgroups⟩

theorem readsUpTo_nonzero {most : Nat} (hmost : 9 ≤ most) :
    ReadsUpTo tables most (seq [opt (oneOf ['0']), nonzero]) := by
  intro at_ stop hstop
  obtain ⟨hread, hgroups⟩ := mem_seq_opt hstop
  rcases hread with htwo | ⟨b, hrest, hb⟩
  · have hpair : ReadsUpTo tables 9 (seq [oneOf ['0'], nonzero]) :=
      readsUpTo_pair (by decide) (by decide) (by decide)
    exact ⟨((hpair at_ stop htwo).1).trans hmost, hgroups⟩
  · have hb := of_decide_eq_true hb
    have hdigit : ['1', '2', '3', '4', '5', '6', '7', '8', '9'].all fun b =>
        b.isDigit && decide (b.toNat - 48 ≤ 9) := by decide
    obtain ⟨hdigit, hle⟩ := Bool.and_eq_true_iff.mp (List.all_eq_true.mp hdigit b hb)
    rw [hrest, take_of_tail, number_single hdigit]
    exact ⟨(of_decide_eq_true hle).trans hmost, hgroups⟩

theorem readsUpTo_clockHour {more : List DatePattern}
    (hmore : ∀ p ∈ more, ReadsUpTo tables 23 p) :
    ReadsUpTo tables 23 (alt (clockHour ++ more)) := by
  refine ReadsUpTo.alt (List.forall_mem_append.mpr ⟨?_, hmore⟩)
  refine List.forall_mem_cons.mpr ⟨readsUpTo_pair (by decide) (by decide) (by decide), ?_⟩
  refine List.forall_mem_cons.mpr ⟨readsUpTo_pair (by decide) (by decide) (by decide), ?_⟩
  exact List.forall_mem_cons.mpr ⟨readsUpTo_nonzero (by decide), by simp⟩

/-- The hour is at most `most`, the minute at most 59. -/
def InRange (tables : CharTables) (most : Nat) (at_ : Cursor Char Part) : Prop :=
  (∀ text, at_.groups.lookup .hour = some text → number tables text ≤ most) ∧
    ∀ text, at_.groups.lookup .minute = some text → number tables text ≤ 59

variable {most : Nat}

theorem inRange_ofGroups : OfGroups (InRange tables most) := by
  intro a b hgroups ha
  unfold InRange at ha ⊢
  rwa [← hgroups]

theorem inRange_start (before rest : List Char) : InRange tables most ⟨before, rest, []⟩ :=
  ⟨fun _ h => (nomatch h), fun _ h => (nomatch h)⟩

theorem keeps_literal {letters : String} : Regex.Keeps (InRange tables most) (literal letters) :=
  keeps_seq fun p hp => by
    obtain ⟨letter, -, rfl⟩ := List.mem_map.mp hp
    exact keeps_one inRange_ofGroups _

theorem keeps_word {letters : String} : Regex.Keeps (InRange tables most) (word letters) :=
  keeps_seq fun p hp => by
    obtain ⟨letter, -, rfl⟩ := List.mem_map.mp hp
    exact keeps_one inRange_ofGroups _

theorem keeps_words {choices : List String} : Regex.Keeps (InRange tables most) (words choices) :=
  keeps_alt fun p hp => by
    obtain ⟨letters, -, rfl⟩ := List.mem_map.mp hp
    exact keeps_word

theorem keeps_oneOf {cs : List Char} : Regex.Keeps (InRange tables most) (oneOf cs) :=
  keeps_one inRange_ofGroups _

theorem keeps_blanks : Regex.Keeps (InRange tables most) blanks := keeps_many1 inRange_ofGroups _

theorem keeps_gap : Regex.Keeps (InRange tables most) gap := keeps_many inRange_ofGroups _

theorem keeps_otherGroup {name : Part} (hhour : name ≠ .hour) (hminute : name ≠ .minute)
    {p : DatePattern} (hp : Regex.Keeps (InRange tables most) p) :
    Regex.Keeps (InRange tables most) (group name p) := by
  refine keeps_group fun at_ hat stop hstop => ?_
  have hstop := hp at_ hat stop hstop
  refine ⟨fun text htext => ?_, fun text htext => ?_⟩
  · rw [List.lookup_cons, beq_eq_false_iff_ne.mpr hhour.symm] at htext
    exact hstop.1 text htext
  · rw [List.lookup_cons, beq_eq_false_iff_ne.mpr hminute.symm] at htext
    exact hstop.2 text htext

theorem keeps_hour {p : DatePattern} (hp : ReadsUpTo tables most p) :
    Regex.Keeps (InRange tables most) (group .hour p) := by
  refine keeps_group fun at_ hat stop hstop => ?_
  obtain ⟨hread, hgroups⟩ := hp at_ stop hstop
  rw [hgroups]
  refine ⟨fun text htext => ?_, fun text htext => ?_⟩
  · rw [List.lookup_cons_self, Option.some.injEq] at htext
    exact htext ▸ hread
  · exact hat.2 text htext

theorem keeps_clockMinute : Regex.Keeps (InRange tables most) (clockMinute tables) := by
  refine keeps_opt (keeps_seq ?_)
  refine List.forall_mem_cons.mpr ⟨keeps_oneOf, List.forall_mem_cons.mpr ⟨?_, by simp⟩⟩
  refine keeps_group fun at_ hat stop hstop => ?_
  have hminute : ReadsUpTo tables 59
      (seq [oneOf ['0', '1', '2', '3', '4', '5'], digit tables]) :=
    readsUpTo_digit (by decide) (by decide)
  obtain ⟨hread, hgroups⟩ := hminute at_ stop hstop
  rw [hgroups]
  refine ⟨fun text htext => ?_, fun text htext => ?_⟩
  · exact hat.1 text htext
  · rw [List.lookup_cons_self, Option.some.injEq] at htext
    exact htext ▸ hread

theorem numberOf_le {found : Found Char Part} (h : InRange tables most found.stop) :
    numberOf tables found .hour ≤ most ∧ numberOf tables found .minute ≤ 59 := by
  unfold numberOf Found.group?
  refine ⟨?_, ?_⟩
  · cases htext : found.stop.groups.lookup .hour with
    | none => exact Nat.zero_le _
    | some text => exact h.1 text htext
  · cases htext : found.stop.groups.lookup .minute with
    | none => exact Nat.zero_le _
    | some text => exact h.2 text htext

theorem keeps_hindiClock : Regex.Keeps (InRange tables 23) (hindiClock tables) := by
  have hperiod : ∀ name : Part, name ≠ .hour → name ≠ .minute →
      Regex.Keeps (InRange tables 23) (group name (words hindiPeriods)) :=
    fun name hhour hminute => keeps_otherGroup hhour hminute keeps_words
  have hbefore : Regex.Keeps (InRange tables 23)
      (opt (seq [group .periodBefore (words hindiPeriods), gap, opt (words ["ke", "ki", "को"]),
        gap])) := by
    refine keeps_opt (keeps_seq ?_)
    simp only [List.forall_mem_cons]
    exact ⟨hperiod _ (by decide) (by decide), keeps_gap, keeps_opt keeps_words, keeps_gap,
      by simp⟩
  have hafter : Regex.Keeps (InRange tables 23)
      (opt (seq [gap, group .periodAfter (words hindiPeriods)])) := by
    refine keeps_opt (keeps_seq ?_)
    simp only [List.forall_mem_cons]
    exact ⟨keeps_gap, hperiod _ (by decide) (by decide), by simp⟩
  have hhour : ReadsUpTo tables 23 (alt clockHour) := by
    rw [← List.append_nil clockHour]
    exact readsUpTo_clockHour (by simp)
  refine keeps_seq ?_
  simp only [List.forall_mem_cons]
  exact ⟨hbefore, keeps_hour hhour, keeps_clockMinute, keeps_gap, keeps_words, hafter, by simp⟩

theorem keeps_spokenClock : Regex.Keeps (InRange tables 12) (spokenClock tables) := by
  have hhour : ReadsUpTo tables 12
      (alt [seq [oneOf ['1'], oneOf ['0', '1', '2']], seq [opt (oneOf ['0']), nonzero]]) := by
    refine ReadsUpTo.alt ?_
    simp only [List.forall_mem_cons]
    exact ⟨readsUpTo_pair (by decide) (by decide) (by decide), readsUpTo_nonzero (by decide),
      by simp⟩
  have hthe : Regex.Keeps (InRange tables 12) (opt (seq [literal "in the", blanks])) := by
    refine keeps_opt (keeps_seq ?_)
    simp only [List.forall_mem_cons]
    exact ⟨keeps_literal, keeps_blanks, by simp⟩
  have hperiod : ∀ periods : List String,
      Regex.Keeps (InRange tables 12) (group .period (alt (periods.map literal))) := by
    intro periods
    refine keeps_otherGroup (by decide) (by decide) (keeps_alt fun p hp => ?_)
    obtain ⟨letters, -, rfl⟩ := List.mem_map.mp hp
    exact keeps_literal
  refine keeps_seq ?_
  simp only [List.forall_mem_cons]
  exact ⟨keeps_check _, keeps_hour hhour, keeps_clockMinute, keeps_blanks, hthe, hperiod _,
    keeps_check _, by simp⟩

variable {hour : Nat}

theorem hourForPeriod_le {hour24 : Nat} {period : String}
    (h : hourForPeriod hour period = some hour24) : hour24 ≤ 23 := by
  unfold hourForPeriod at h
  split at h
  case isTrue => cases h
  case isFalse hle =>
    split at h
    case isTrue =>
      obtain rfl := Option.some.inj h
      split <;> omega
    case isFalse =>
      split at h
      case isTrue =>
        obtain rfl := Option.some.inj h
        split <;> omega
      case isFalse =>
        obtain rfl := Option.some.inj h
        omega

theorem spokenHour_le (h : hour ≤ 12) (period : String) : spokenHour hour period ≤ 23 := by
  unfold spokenHour
  split
  · split <;> omega
  · split <;> omega

theorem meridiemHour_le {hour24 : Nat} {meridiem : List Char}
    (h : meridiemHour hour meridiem = some hour24) : hour24 ≤ 23 := by
  unfold meridiemHour at h
  split at h
  case isTrue => cases h
  case isFalse hle =>
    split at h
    · obtain rfl := Option.some.inj h
      split <;> omega
    · obtain rfl := Option.some.inj h
      split <;> omega

variable {text : String} {time : Nat × Nat}

theorem hindiTime_le {foldedText : List Char} (h : hindiTime tables text foldedText = some time) :
    time.1 ≤ 23 ∧ time.2 ≤ 59 := by
  unfold hindiTime at h
  obtain ⟨found, hfound, h⟩ := Option.bind_eq_some_iff.mp h
  obtain ⟨hour24, hhour, rfl⟩ := Option.map_eq_some_iff.mp h
  have hrange : InRange tables 23 found.stop := by
    rcases Option.or_eq_some_iff.mp hfound with h | ⟨-, h⟩
    · exact keeps_hindiClock.found inRange_start h
    · exact keeps_hindiClock.found inRange_start h
  exact ⟨hourForPeriod_le hhour, (numberOf_le hrange).2⟩

theorem clockTime_le (h : clockTime tables text = some time) : time.1 ≤ 23 ∧ time.2 ≤ 59 := by
  unfold clockTime at h
  obtain ⟨found, -, h⟩ := Option.bind_eq_some_iff.mp h
  dsimp only at h
  split at h
  case isTrue => cases h
  case isFalse hle =>
    rw [not_or] at hle
    split at h
    case isTrue =>
      obtain ⟨hour24, hhour, rfl⟩ := Option.map_eq_some_iff.mp h
      exact ⟨meridiemHour_le hhour, by omega⟩
    case isFalse =>
      obtain rfl := Option.some.inj h
      exact ⟨by omega, by omega⟩

theorem timeOfDay_le (h : timeOfDay tables text = some time) : time.1 ≤ 23 ∧ time.2 ≤ 59 := by
  unfold timeOfDay at h
  dsimp only at h
  split at h
  case isTrue => cases h
  case isFalse =>
    split at h
    case h_1 hindi hfound =>
      obtain rfl := Option.some.inj h
      exact hindiTime_le hfound
    case h_2 =>
      split at h
      case isTrue =>
        obtain rfl := Option.some.inj h
        decide
      case isFalse =>
        split at h
        case isTrue =>
          obtain rfl := Option.some.inj h
          decide
        case isFalse =>
          split at h
          case h_1 found hfound =>
            obtain rfl := Option.some.inj h
            have hrange := numberOf_le (keeps_spokenClock.found inRange_start hfound)
            exact ⟨spokenHour_le hrange.1 _, hrange.2⟩
          case h_2 =>
            split at h
            case isTrue => cases h
            case isFalse => exact clockTime_le h

theorem repr_hour12 : ∀ hour12 < 13, 0 < hour12 →
    Text.digits? (Nat.repr hour12).toList = some hour12 ∧
    (Nat.repr hour12).toList.head? ≠ some '0' ∧ ':' ∉ (Nat.repr hour12).toList ∧
    (Nat.repr hour12).toList.head?.any (fun c => !Text.isSpace c) = true := by decide

theorem strip_of_ends {first last : Char} {middle : List Char}
    (h : text.toList = first :: middle ++ [last]) (hfirst : Text.isSpace first = false)
    (hlast : Text.isSpace last = false) : Text.strip text = text := by
  have hfront : (first :: middle ++ [last]).dropWhile Text.isSpace = first :: middle ++ [last] := by
    rw [List.cons_append, List.dropWhile_cons, if_neg (by simp [hfirst])]
  have hback : (first :: middle ++ [last]).reverse.dropWhile Text.isSpace =
      (first :: middle ++ [last]).reverse := by
    rw [List.reverse_append, List.reverse_singleton, List.singleton_append,
      List.dropWhile_cons, if_neg (by simp [hlast])]
  rw [Text.strip, h, hfront, hback, List.reverse_reverse, ← h, String.ofList_toList]

theorem toList_formatTimeLabel {minute : Nat} :
    (formatTimeLabel hour minute).toList =
      (Nat.repr (if hour % 12 = 0 then 12 else hour % 12)).toList ++
        ':' :: ((twoDigits minute).toList ++ [' ', if hour < 12 then 'A' else 'P', 'M']) := by
  unfold formatTimeLabel
  dsimp only
  split <;> by_cases hmorning : hour < 12 <;> simp [hmorning]

theorem parseTimeLabel_format {minute : Nat} (hhour : hour ≤ 23) (hminute : minute ≤ 59) :
    parseTimeLabel (formatTimeLabel hour minute) = some (hour, minute) := by
  generalize hhour12 : (if hour % 12 = 0 then 12 else hour % 12) = hour12
  have hbounds : 0 < hour12 ∧ hour12 < 13 := by
    rw [← hhour12]
    split <;> omega
  obtain ⟨hdigits, hzero, hcolon, hspace⟩ := repr_hour12 hour12 hbounds.2 hbounds.1
  obtain ⟨hlength, hread⟩ := twoDigits_read minute (by omega)
  obtain ⟨tens, ones, hpair⟩ := List.length_eq_two.mp hlength
  rw [hpair] at hread
  have hlist : (formatTimeLabel hour minute).toList = (Nat.repr hour12).toList ++
      ':' :: tens :: ones :: [' ', if hour < 12 then 'A' else 'P', 'M'] := by
    rw [toList_formatTimeLabel, hhour12, hpair]
    rfl
  have hstrip : Text.strip (formatTimeLabel hour minute) = formatTimeLabel hour minute := by
    cases hrepr : (Nat.repr hour12).toList with
    | nil => simp [hrepr] at hspace
    | cons first more =>
      have hfirst : Text.isSpace first = false := by simpa [hrepr] using hspace
      have hends : (formatTimeLabel hour minute).toList =
          first :: (more ++ ':' :: tens :: ones :: [' ', if hour < 12 then 'A' else 'P']) ++
            ['M'] := by
        rw [hlist, hrepr]
        simp
      exact strip_of_ends hends hfirst (by decide)
  have hall : ∀ c ∈ (Nat.repr hour12).toList, (decide (c ≠ ':')) = true :=
    fun c hc => decide_eq_true fun heq => hcolon (heq ▸ hc)
  have hstop : decide (':' ≠ ':') = false := by decide
  have hblank : Text.isSpace ' ' = true := by decide
  unfold parseTimeLabel
  rw [hstrip, hlist]
  dsimp only
  rw [takeWhile_append_stop hall hstop, dropWhile_append_stop hall hstop, hdigits]
  simp only [Option.bind_eq_bind, Option.bind_some, hread]
  rw [guard, if_pos ⟨hbounds.1, by omega, hzero⟩, guard, if_pos hminute]
  by_cases hmorning : hour < 12
  · have hback : (if hour12 = 12 then 0 else hour12) = hour := by
      rw [← hhour12]
      split <;> split <;> omega
    simpa [hmorning, hblank] using hback
  · have hback : (if hour12 < 12 then hour12 + 12 else hour12) = hour := by
      rw [← hhour12]
      split <;> split <;> omega
    simpa [hmorning, hblank] using hback

theorem parseTimeLabel_parseTime {label : String} (h : parseTime tables text = some label) :
    ∃ time, parseTimeLabel label = some time ∧ label = formatTimeLabel time.1 time.2 ∧
      time.1 ≤ 23 ∧ time.2 ≤ 59 := by
  obtain ⟨time, htime, rfl⟩ := Option.map_eq_some_iff.mp h
  obtain ⟨hhour, hminute⟩ := timeOfDay_le htime
  exact ⟨time, parseTimeLabel_format hhour hminute, rfl, hhour, hminute⟩

end AiBuddy.Reminders
