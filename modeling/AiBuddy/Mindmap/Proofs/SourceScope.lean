import Mathlib.Data.List.Dedup
import Mathlib.Tactic.Tauto
import AiBuddy.Mindmap.SourceScope
import AiBuddy.Misc.Words

/-!
# Days and instants
-/

namespace AiBuddy.Mindmap

open Reminders (Zone second day ofCivil epochOrdinal)

theorem toNat_of_isDigit {c : Char} (h : c.isDigit = true) : 48 ≤ c.toNat ∧ c.toNat ≤ 57 :=
  Char.isDigit_iff_toNat.mp h

theorem digits?_spec {ds : List Char} {n : Nat} (h : Text.digits? ds = some n) :
    (∀ c ∈ ds, c.isDigit = true) ∧ n = Nat.ofDigitChars 10 ds 0 := by
  unfold Text.digits? at h
  split at h
  · cases h
  · next hds =>
    simp only [Bool.or_eq_true, Bool.not_eq_true', not_or, Bool.not_eq_false,
      List.all_eq_true] at hds
    exact ⟨hds.2, (Option.some.inj h).symm⟩

theorem ofDigitChars_lt {cs ds : List Char} (hcs : ∀ c ∈ cs, c.isDigit = true)
    (hds : ∀ d ∈ ds, d.isDigit = true) (hlength : cs.length = ds.length) {m n : Nat}
    (h : m < n ∨ m = n ∧ cs < ds) : Nat.ofDigitChars 10 cs m < Nat.ofDigitChars 10 ds n := by
  induction cs generalizing ds m n with
  | nil =>
    obtain rfl := List.eq_nil_of_length_eq_zero hlength.symm
    rcases h with hlt | ⟨-, hlt⟩
    · exact hlt
    · cases hlt
  | cons c cs ih =>
    obtain ⟨d, ds, rfl⟩ := List.exists_cons_of_length_eq_add_one hlength.symm
    rw [List.forall_mem_cons] at hcs hds
    have hc := toNat_of_isDigit hcs.1
    have hd := toNat_of_isDigit hds.1
    rw [Nat.ofDigitChars_cons, Nat.ofDigitChars_cons]
    refine ih hcs.2 hds.2 (Nat.succ.inj hlength) ?_
    have hzero : '0'.toNat = 48 := rfl
    rcases h with hlt | ⟨rfl, hlt⟩
    · exact .inl (by omega)
    · rcases List.cons_lt_cons_iff.mp hlt with hhead | ⟨rfl, htail⟩
      · have hless : c.toNat < d.toNat := hhead
        exact .inl (by omega)
      · exact .inr ⟨rfl, htail⟩

theorem append_lt_append_iff {cs ds rest rest' : List Char} (hlength : cs.length = ds.length) :
    cs ++ rest < ds ++ rest' ↔ cs < ds ∨ cs = ds ∧ rest < rest' := by
  induction cs generalizing ds with
  | nil =>
    obtain rfl := List.eq_nil_of_length_eq_zero hlength.symm
    simp
  | cons c cs ih =>
    obtain ⟨d, ds, rfl⟩ := List.exists_cons_of_length_eq_add_one hlength.symm
    rw [List.cons_append, List.cons_append, List.cons_lt_cons_iff, List.cons_lt_cons_iff,
      ih (Nat.succ.inj hlength), List.cons.injEq]
    tauto

theorem dateFields?_spec {key : String} {year month dayOfMonth : Nat}
    (h : dateFields? key = some (year, month, dayOfMonth)) :
    ∃ ys ms ds : List Char, key.toList = ys ++ ('-' :: (ms ++ '-' :: ds)) ∧ ys.length = 4 ∧
      ms.length = 2 ∧ ds.length = 2 ∧ Text.digits? ys = some year ∧
        Text.digits? ms = some month ∧ Text.digits? ds = some dayOfMonth := by
  unfold dateFields? at h
  split at h
  · next y₁ y₂ y₃ y₄ m₁ m₂ d₁ d₂ hkey =>
    obtain ⟨_, hyear, h⟩ := Option.bind_eq_some_iff.mp h
    obtain ⟨_, hmonth, h⟩ := Option.bind_eq_some_iff.mp h
    obtain ⟨_, hday, h⟩ := Option.bind_eq_some_iff.mp h
    obtain ⟨rfl, rfl, rfl⟩ : _ ∧ _ ∧ _ := by simpa using h
    exact ⟨_, _, _, hkey, rfl, rfl, rfl, hyear, hmonth, hday⟩
  · cases h

theorem digits?_lt {cs ds : List Char} {m n : Nat} (hm : Text.digits? cs = some m)
    (hn : Text.digits? ds = some n) (hlength : cs.length = ds.length) (h : cs < ds) : m < n := by
  obtain ⟨hcs, rfl⟩ := digits?_spec hm
  obtain ⟨hds, rfl⟩ := digits?_spec hn
  exact ofDigitChars_lt hcs hds hlength (.inr ⟨rfl, h⟩)

theorem fromIsoformat_spec {key : String} {date : Calendar.Date}
    (h : fromIsoformat key = some date) : date.Valid ∧ 1 ≤ date.year ∧
      ∃ year month dayOfMonth : Nat, date = ⟨year, month, dayOfMonth⟩ ∧
        dateFields? key = some (year, month, dayOfMonth) := by
  obtain ⟨⟨year, month, dayOfMonth⟩, hfields, h⟩ := Option.bind_eq_some_iff.mp h
  dsimp only at h
  split at h
  · next hvalid =>
    obtain rfl := Option.some.inj h
    exact ⟨hvalid.2, Int.ofNat_le.mpr hvalid.1, _, _, _, rfl, hfields⟩
  · cases h

theorem toOrdinal_lt_of_lt {a b : String} {date date' : Calendar.Date}
    (ha : fromIsoformat a = some date) (hb : fromIsoformat b = some date') (h : a < b) :
    date.toOrdinal < date'.toOrdinal := by
  obtain ⟨hvalid, -, year, month, dayOfMonth, rfl, hfields⟩ := fromIsoformat_spec ha
  obtain ⟨hvalid', -, year', month', dayOfMonth', rfl, hfields'⟩ := fromIsoformat_spec hb
  obtain ⟨ys, ms, ds, hkey, hys, hms, hds, hyear, hmonth, hday⟩ := dateFields?_spec hfields
  obtain ⟨ys', ms', ds', hkey', hys', hms', hds', hyear', hmonth', hday'⟩ :=
    dateFields?_spec hfields'
  refine Calendar.toOrdinal_lt hvalid hvalid' ?_
  rw [String.lt_iff_toList_lt, hkey, hkey', append_lt_append_iff (hys.trans hys'.symm),
    List.cons_lt_cons_iff, append_lt_append_iff (hms.trans hms'.symm), List.cons_lt_cons_iff] at h
  rcases h with hlt | ⟨rfl, hlt | ⟨-, hlt | ⟨rfl, hlt | ⟨-, hlt⟩⟩⟩⟩
  · exact .inl (Int.ofNat_lt.mpr (digits?_lt hyear hyear' (hys.trans hys'.symm) hlt))
  · exact absurd hlt (lt_irrefl _)
  · obtain rfl := Option.some.inj (hyear.symm.trans hyear')
    exact .inr ⟨rfl, .inl (digits?_lt hmonth hmonth' (hms.trans hms'.symm) hlt)⟩
  · exact absurd hlt (lt_irrefl _)
  · obtain rfl := Option.some.inj (hyear.symm.trans hyear')
    obtain rfl := Option.some.inj (hmonth.symm.trans hmonth')
    exact .inr ⟨rfl, .inr ⟨rfl, digits?_lt hday hday' (hds.trans hds'.symm) hlt⟩⟩

structure Ordered (windows : List Window) : Prop where
  forward : ∀ window ∈ windows, window.1 ≤ window.2
  apart : windows.Pairwise fun later earlier => earlier.2 ≤ later.1

def Within (windows : List Window) (value : Int) : Prop :=
  ∃ window ∈ windows, window.1 ≤ value ∧ value < window.2

variable {merged windows : List Window} {window : Window} {value : Int}

theorem within_cons : Within (window :: windows) value ↔
    (window.1 ≤ value ∧ value < window.2) ∨ Within windows value := by
  simp [Within]

theorem ordered_addWindow (h : Ordered merged) (hforward : window.1 ≤ window.2)
    (hlater : ∀ earlier ∈ merged, earlier.2 ≤ window.1) :
    Ordered (addWindow merged window) ∧
      (∀ earlier ∈ addWindow merged window, earlier.2 ≤ window.2) ∧
      ∀ value, Within (addWindow merged window) value ↔ Within (window :: merged) value := by
  unfold addWindow
  cases merged with
  | nil => exact ⟨⟨by simpa, by simp⟩, by simp, fun _ => Iff.rfl⟩
  | cons last rest =>
    obtain ⟨hlast, hrest⟩ := List.forall_mem_cons.mp hlater
    obtain ⟨hend, hends⟩ := List.forall_mem_cons.mp h.forward
    obtain ⟨hbefore, hapart⟩ := List.pairwise_cons.mp h.apart
    dsimp only
    split
    · next hmeet =>
      refine ⟨⟨?_, ?_⟩, ?_, fun value => ?_⟩
      · exact List.forall_mem_cons.mpr ⟨by dsimp only; omega, hends⟩
      · exact List.pairwise_cons.mpr ⟨hbefore, hapart⟩
      · refine List.forall_mem_cons.mpr ⟨le_rfl, fun earlier hmem => ?_⟩
        have := hrest earlier hmem
        omega
      · rw [within_cons, within_cons, within_cons, ← or_assoc]
        refine or_congr_left ?_
        dsimp only
        omega
    · refine ⟨⟨List.forall_mem_cons.mpr ⟨hforward, h.forward⟩,
        List.pairwise_cons.mpr ⟨hlater, h.apart⟩⟩, ?_, fun _ => Iff.rfl⟩
      refine List.forall_mem_cons.mpr ⟨le_rfl, fun earlier hmem => ?_⟩
      have := hlater earlier hmem
      omega

theorem ordered_foldl {windows merged : List Window} (h : Ordered merged)
    (hforward : ∀ window ∈ windows, window.1 ≤ window.2)
    (hlater : ∀ window ∈ windows, ∀ earlier ∈ merged, earlier.2 ≤ window.1)
    (hapart : windows.Pairwise fun earlier later => earlier.2 ≤ later.1) :
    Ordered (windows.foldl addWindow merged) ∧
      ∀ value, Within (windows.foldl addWindow merged) value ↔
        Within windows value ∨ Within merged value := by
  induction windows generalizing merged with
  | nil => exact ⟨h, fun value => by simp [Within]⟩
  | cons window windows ih =>
    rw [List.forall_mem_cons] at hforward hlater
    rw [List.pairwise_cons] at hapart
    obtain ⟨hordered, hends, hwithin⟩ := ordered_addWindow h hforward.1 hlater.1
    obtain ⟨hfold, hall⟩ := ih hordered hforward.2
      (fun next hnext earlier hmem => (hends earlier hmem).trans (hapart.1 next hnext)) hapart.2
    refine ⟨hfold, fun value => ?_⟩
    rw [List.foldl_cons, hall, hwithin, within_cons, within_cons]
    tauto

variable {zone : Zone}

def midnight (zone : Zone) (ordinal : Int) : Int :=
  zone.toUtc ((ordinal - epochOrdinal) * day) false

theorem ofCivil_midnight {date : Calendar.Date} :
    ofCivil date 0 0 0 = (date.toOrdinal - epochOrdinal) * day := by
  unfold ofCivil
  omega

theorem midnight_near (hbounded : ∀ wall, -86400 < zone.localOffset wall false ∧
      zone.localOffset wall false < 86400) (further : Int) :
    (further - 1) * day < midnight zone (epochOrdinal + further) ∧
      midnight zone (epochOrdinal + further) < (further + 1) * day := by
  have h := hbounded (further * day)
  have hmidnight : midnight zone (epochOrdinal + further) =
      further * day - zone.localOffset (further * day) false * second := by
    rw [midnight, Zone.toUtc, show epochOrdinal + further - epochOrdinal = further by omega]
  generalize zone.localOffset (further * day) false = offset at h hmidnight
  rw [hmidnight, Int.sub_mul, Int.add_mul, show day = 86400000000 from rfl,
    show second = 1000000 from rfl]
  omega

theorem exists_day (hbounded : ∀ wall, -86400 < zone.localOffset wall false ∧
      zone.localOffset wall false < 86400) (value : Int) :
    ∃ ordinal, midnight zone ordinal ≤ value ∧ value < midnight zone (ordinal + 1) := by
  have hvalue := Int.mul_ediv_add_emod value day
  have hrest := Int.emod_nonneg value (by decide : day ≠ 0)
  have hless := Int.emod_lt_of_pos value (by decide : 0 < day)
  generalize value / day = further at *
  have hlow := (midnight_near hbounded (further - 1)).2
  have hhigh := (midnight_near hbounded (further + 2)).1
  rw [Int.sub_add_cancel, Int.mul_comm] at hlow
  rw [show further + 2 - 1 = further + 1 by omega, Int.add_mul, Int.mul_comm, Int.one_mul] at hhigh
  by_cases h₁ : midnight zone (epochOrdinal + further) ≤ value
  · by_cases h₂ : midnight zone (epochOrdinal + further + 1) ≤ value
    · refine ⟨epochOrdinal + further + 1, h₂, ?_⟩
      rw [show epochOrdinal + further + 1 + 1 = epochOrdinal + (further + 2) by omega]
      omega
    · exact ⟨epochOrdinal + further, h₁, by omega⟩
  · refine ⟨epochOrdinal + (further - 1), by omega, ?_⟩
    rw [show epochOrdinal + (further - 1) + 1 = epochOrdinal + further by omega]
    omega

variable {host : ZoneHost} {date timeZone : Option String} {key : String}
  {dates raw cleaned selected : List String}

def Selected (keys : List String) (date : Calendar.Date) : Prop :=
  ∃ key ∈ keys, fromIsoformat key = some date

theorem strip_of_dateFields? (h : (dateFields? key).isSome) : Text.strip key = key ∧ key ≠ "" := by
  obtain ⟨⟨year, month, dayOfMonth⟩, hfields⟩ := Option.isSome_iff_exists.mp h
  obtain ⟨ys, ms, ds, hkey, hys, -, -, hyear, hmonth, hday⟩ := dateFields?_spec hfields
  refine ⟨Text.strip_of_no_space fun c hc => ?_, ?_⟩
  · have hdigit : ∀ {c : Char}, c.isDigit = true → Text.isSpace c = false := by
      intro c hc
      have hbounds := toNat_of_isDigit hc
      rw [← Bool.not_eq_true]
      intro hspace
      simp only [Text.isSpace, Bool.or_eq_true, Bool.and_eq_true, decide_eq_true_eq, beq_iff_eq]
        at hspace
      omega
    rw [hkey] at hc
    simp only [List.mem_append, List.mem_cons] at hc
    rcases hc with hc | rfl | hc | rfl | hc
    · exact hdigit ((digits?_spec hyear).1 c hc)
    · rfl
    · exact hdigit ((digits?_spec hmonth).1 c hc)
    · rfl
    · exact hdigit ((digits?_spec hday).1 c hc)
  · rintro rfl
    cases (List.append_eq_nil_iff.mp hkey.symm).2

theorem cleanFrom_spec (hvalid : ∀ key ∈ raw, (dateFields? key).isSome) (hnodup : cleaned.Nodup) :
    ∃ result, cleanFrom raw cleaned = .ok result ∧ result.Nodup ∧
      ∀ key, key ∈ result ↔ key ∈ cleaned ∨ key ∈ raw := by
  induction raw generalizing cleaned with
  | nil => exact ⟨cleaned, rfl, hnodup, fun key => by simp⟩
  | cons item raw ih =>
    obtain ⟨hitem, hraw⟩ := List.forall_mem_cons.mp hvalid
    obtain ⟨hstrip, hne⟩ := strip_of_dateFields? hitem
    rw [cleanFrom, hstrip]
    split
    · next hseen =>
      have hmem := hseen.resolve_left hne
      obtain ⟨result, hresult, hnodup', hiff⟩ := ih hraw hnodup
      refine ⟨result, hresult, hnodup', fun key => ?_⟩
      rw [hiff, List.mem_cons, @or_left_comm (key ∈ cleaned) (key = item)]
      exact (or_iff_right_of_imp fun heq => .inl (heq ▸ hmem)).symm
    · next hseen =>
      rw [not_or] at hseen
      rw [if_neg (by simp [Option.isSome_iff_ne_none.mp hitem])]
      have hnew : (cleaned ++ [item]).Nodup :=
        List.nodup_append_comm.mp (List.nodup_cons.mpr ⟨hseen.2, hnodup⟩)
      obtain ⟨result, hresult, hnodup', hiff⟩ := ih hraw hnew
      refine ⟨result, hresult, hnodup', fun key => ?_⟩
      rw [hiff, List.mem_append, List.mem_singleton, List.mem_cons, or_assoc]

theorem cleanDates_eq (hvalid : ∀ key ∈ rawDates date dates, (dateFields? key).isSome) :
    ∃ selected, selected.Pairwise (· < ·) ∧
      (∀ key, key ∈ selected ↔ key ∈ rawDates date dates) ∧
        ∀ date' dates', (∀ key, key ∈ rawDates date' dates' ↔ key ∈ rawDates date dates) →
          cleanDates date' dates' = .ok selected := by
  have hsorted : ∀ date' dates', (∀ key ∈ rawDates date' dates', (dateFields? key).isSome) →
      ∃ selected, selected.Pairwise (· < ·) ∧
        (∀ key, key ∈ selected ↔ key ∈ rawDates date' dates') ∧
          cleanDates date' dates' = .ok selected := by
    intro date' dates' hvalid
    obtain ⟨result, hresult, hnodup, hiff⟩ := cleanFrom_spec hvalid List.nodup_nil
    refine ⟨result.insertionSort (· ≤ ·), ?_, fun key => ?_, ?_⟩
    · have hle := List.pairwise_insertionSort (· ≤ ·) result
      have hdistinct := (List.perm_insertionSort (· ≤ ·) result).nodup_iff.mpr hnodup
      exact (hle.and hdistinct).imp fun h => lt_of_le_of_ne h.1 h.2
    · rw [List.mem_insertionSort, hiff]
      simp
    · rw [cleanDates, hresult]
      rfl
  obtain ⟨selected, hpairwise, hiff, -⟩ := hsorted date dates hvalid
  refine ⟨selected, hpairwise, hiff, fun date' dates' hsame => ?_⟩
  obtain ⟨selected', hpairwise', hiff', hclean⟩ := hsorted date' dates'
    fun key hkey => hvalid key ((hsame key).mp hkey)
  rw [hclean, hpairwise'.eq_of_mem_iff hpairwise fun key =>
    ((hiff' key).trans (hsame key)).trans (hiff key).symm]

def Bounded (zone : Zone) (ordinal : Int) : Prop :=
  Representable ((ordinal + 1 - epochOrdinal) * day) ∧ Representable (midnight zone ordinal) ∧
    Representable (midnight zone (ordinal + 1))

def dayWindow (zone : Zone) (ordinal : Int) : Window :=
  (midnight zone ordinal, midnight zone (ordinal + 1))

theorem localDayBoundsUtc_eq {date : Calendar.Date} (h : fromIsoformat key = some date) :
    (Bounded zone date.toOrdinal →
        localDayBoundsUtc zone key = .ok (dayWindow zone date.toOrdinal)) ∧
      (¬ Bounded zone date.toOrdinal → localDayBoundsUtc zone key = .error .overflowError) := by
  have hstop : ofCivil date 0 0 0 + day = (date.toOrdinal + 1 - epochOrdinal) * day := by
    rw [ofCivil_midnight, show date.toOrdinal + 1 - epochOrdinal =
      date.toOrdinal - epochOrdinal + 1 by omega, Int.add_mul, Int.one_mul]
  unfold localDayBoundsUtc
  rw [h]
  dsimp only
  rw [hstop, ofCivil_midnight]
  exact ⟨fun hbounded => if_pos hbounded, fun hbounded => if_neg hbounded⟩

def ordinals (keys : List String) : List Int :=
  (keys.filterMap fromIsoformat).map Calendar.Date.toOrdinal

theorem mem_ordinals {keys : List String} {ordinal : Int} :
    ordinal ∈ ordinals keys ↔ Selected keys (Calendar.ofOrdinal ordinal) := by
  simp only [ordinals, Selected, List.mem_map, List.mem_filterMap]
  constructor
  · rintro ⟨date, ⟨key, hkey, hdate⟩, rfl⟩
    rw [Calendar.ofOrdinal_toOrdinal (fromIsoformat_spec hdate).1]
    exact ⟨key, hkey, hdate⟩
  · rintro ⟨key, hkey, hdate⟩
    exact ⟨_, ⟨key, hkey, hdate⟩, Calendar.toOrdinal_ofOrdinal ordinal⟩

theorem ordinals_cons {date : Calendar.Date} (h : fromIsoformat key = some date) :
    ordinals (key :: selected) = date.toOrdinal :: ordinals selected := by
  rw [ordinals, List.filterMap_cons_some h]
  rfl

theorem mapM_bounds (hvalid : ∀ key ∈ selected, (fromIsoformat key).isSome) :
    selected.mapM (localDayBoundsUtc zone) = .ok windows ↔
      (∀ ordinal ∈ ordinals selected, Bounded zone ordinal) ∧
        windows = (ordinals selected).map (dayWindow zone) := by
  induction selected generalizing windows with
  | nil => exact ⟨fun h => ⟨by simp [ordinals], (Except.ok.inj h).symm⟩, fun h => h.2 ▸ rfl⟩
  | cons key selected ih =>
    obtain ⟨hkey, hrest⟩ := List.forall_mem_cons.mp hvalid
    obtain ⟨date, hdate⟩ := Option.isSome_iff_exists.mp hkey
    rw [ordinals_cons hdate, List.forall_mem_cons, List.map_cons, List.mapM_cons]
    by_cases hhead : Bounded zone date.toOrdinal
    · rw [(localDayBoundsUtc_eq hdate).1 hhead]
      cases hmap : selected.mapM (localDayBoundsUtc zone) with
      | error error =>
        constructor
        · intro h
          cases h
        · rintro ⟨⟨-, hall⟩, -⟩
          cases hmap.symm.trans ((ih hrest).mpr ⟨hall, rfl⟩)
      | ok rest =>
        obtain ⟨hall, rfl⟩ := (ih hrest).mp hmap
        constructor
        · rintro ⟨rfl⟩
          exact ⟨⟨hhead, hall⟩, rfl⟩
        · rintro ⟨-, rfl⟩
          rfl
    · rw [(localDayBoundsUtc_eq hdate).2 hhead]
      constructor
      · intro h
        cases h
      · exact fun h => absurd h.1.1 hhead

theorem pairwise_ordinals (hvalid : ∀ key ∈ selected, (fromIsoformat key).isSome)
    (h : selected.Pairwise (· < ·)) : (ordinals selected).Pairwise (· < ·) := by
  induction selected with
  | nil => exact List.Pairwise.nil
  | cons key selected ih =>
    obtain ⟨hkey, hrest⟩ := List.forall_mem_cons.mp hvalid
    obtain ⟨hlt, hpairwise⟩ := List.pairwise_cons.mp h
    obtain ⟨date, hdate⟩ := Option.isSome_iff_exists.mp hkey
    rw [ordinals_cons hdate, List.pairwise_cons]
    refine ⟨fun ordinal hmem => ?_, ih hrest hpairwise⟩
    obtain ⟨later, hlater, hdate'⟩ := mem_ordinals.mp hmem
    have hless := toOrdinal_lt_of_lt hdate hdate' (hlt later hlater)
    rwa [Calendar.toOrdinal_ofOrdinal] at hless

section Zones

variable (hforward : ∀ ordinal, midnight zone ordinal ≤ midnight zone (ordinal + 1))

include hforward

theorem midnight_le {first second : Int} (h : first ≤ second) :
    midnight zone first ≤ midnight zone second := by
  obtain ⟨n, rfl⟩ := Int.le.dest h
  induction n with
  | zero => simp
  | succ n ih =>
    rw [Int.natCast_add, ← Int.add_assoc]
    exact (ih (by omega)).trans (hforward _)

theorem dayWindows_spec {days : List Int} (h : days.Pairwise (· < ·)) :
    Ordered ((days.map (dayWindow zone)).foldl addWindow []) ∧
      ∀ value ordinal, midnight zone ordinal ≤ value → value < midnight zone (ordinal + 1) →
        (Within ((days.map (dayWindow zone)).foldl addWindow []) value ↔ ordinal ∈ days) := by
  have hapart : (days.map (dayWindow zone)).Pairwise fun earlier later => earlier.2 ≤ later.1 :=
    List.pairwise_map.mpr (h.imp fun hlt => midnight_le hforward hlt)
  have hproper : ∀ window ∈ days.map (dayWindow zone), window.1 ≤ window.2 := by
    intro window hmem
    obtain ⟨ordinal, -, rfl⟩ := List.mem_map.mp hmem
    exact hforward ordinal
  obtain ⟨hordered, hwithin⟩ := ordered_foldl ⟨by simp, List.Pairwise.nil⟩ hproper (by simp) hapart
  refine ⟨hordered, fun value ordinal hstart hstop => ?_⟩
  rw [hwithin]
  constructor
  · rintro (⟨_, hmem, hstart', hstop'⟩ | ⟨_, hnone, -⟩)
    · obtain ⟨other, hother, rfl⟩ := List.mem_map.mp hmem
      dsimp only [dayWindow] at hstart' hstop'
      rcases lt_trichotomy other ordinal with hlt | rfl | hgt
      · have hle := midnight_le hforward (Int.add_one_le_iff.mpr hlt)
        omega
      · exact hother
      · have hle := midnight_le hforward (Int.add_one_le_iff.mpr hgt)
        omega
    · cases hnone
  · exact fun hmem => .inl ⟨_, List.mem_map_of_mem hmem, hstart, hstop⟩

end Zones

/-- The scope of a request: its windows are in their order and hold the instants whose local date is
selected, it does not depend on the order and the repetitions of the dates, and it is the same once
it is stored. -/
structure DayScoped (host : ZoneHost) (zone : Zone) (date timeZone : Option String)
    (dates : List String) (scope : SourceScope) : Prop where
  parsed : parseSourceScope host (some "date") date timeZone dates = .ok scope
  ordered : Ordered scope.windows.reverse
  exact : ∀ value, Representable value →
    (Within scope.windows value ↔ Selected (rawDates date dates) (dateKeyFor zone value))
  independent : ∀ date' dates', (∀ key, key ∈ rawDates date' dates' ↔ key ∈ rawDates date dates) →
    parseSourceScope host (some "date") date' timeZone dates' = .ok scope
  stored : scopeFromStored host scope.asDocument = .ok scope

theorem zoneName_zoneName : zoneName (some (zoneName timeZone)) = zoneName timeZone := by
  have hstrip : Text.strip (zoneName timeZone) = zoneName timeZone ∧ zoneName timeZone ≠ "" := by
    unfold zoneName
    dsimp only
    split
    · exact ⟨by decide, by decide⟩
    · next hne =>
      refine ⟨String.toList_injective ?_, hne⟩
      rw [Text.toList_strip, Text.toList_strip]
      refine Text.trim_of_trimmed (Text.trimmed_trim _) fun hnil => hne ?_
      rw [← Text.toList_strip] at hnil
      exact String.toList_injective hnil
  generalize zoneName timeZone = name at hstrip
  rw [zoneName, Option.getD_some, hstrip.1]
  exact if_neg hstrip.2

theorem parseSourceScope_eq (hclean : cleanDates date dates = .ok selected) (hne : selected ≠ [])
    (hmany : selected.length ≤ 62) (hzone : resolveZone host (zoneName timeZone) = some zone) :
    parseSourceScope host (some "date") date timeZone dates =
      (mergedWindows zone selected).map fun windows =>
        { mode := "date", dates := selected, timeZone := zoneName timeZone, windows } := by
  have hmode : Text.lower (Text.strip ((some "date").getD "")) = "date" := by decide
  unfold parseSourceScope
  dsimp only
  rw [hmode, if_neg (by decide), if_neg (by decide), hclean]
  show scopeOf host timeZone selected = _
  rw [scopeOf, if_neg hne, if_neg (Nat.not_lt.mpr hmany), hzone]

/-- The windows follow the local dates exactly if the selected days begin and end within the years
1 to 9999 and, wherever the clock shows another date than the last one that has begun, both of them
are selected or neither is. -/
theorem dayScoped_iff (host : ZoneHost) (zone : Zone) (date timeZone : Option String)
    (dates : List String) (hvalid : ∀ key ∈ rawDates date dates, (fromIsoformat key).isSome)
    (hsome : rawDates date dates ≠ []) (hmany : (rawDates date dates).dedup.length ≤ 62)
    (hzone : resolveZone host (zoneName timeZone) = some zone)
    (hoffset : ∀ wall, -86400 < zone.localOffset wall false ∧ zone.localOffset wall false < 86400)
    (hforward : ∀ ordinal, midnight zone ordinal ≤ midnight zone (ordinal + 1)) :
    (∃ scope, DayScoped host zone date timeZone dates scope) ↔
      (∀ ordinal, Selected (rawDates date dates) (Calendar.ofOrdinal ordinal) →
        Bounded zone ordinal) ∧
      ∀ value ordinal, Representable value → midnight zone ordinal ≤ value →
        value < midnight zone (ordinal + 1) → Calendar.ofOrdinal ordinal ≠ dateKeyFor zone value →
          (Selected (rawDates date dates) (Calendar.ofOrdinal ordinal) ↔
            Selected (rawDates date dates) (dateKeyFor zone value)) := by
  have hfields : ∀ key ∈ rawDates date dates, (dateFields? key).isSome := by
    intro key hkey
    obtain ⟨_, hdate⟩ := Option.isSome_iff_exists.mp (hvalid key hkey)
    obtain ⟨-, -, _, _, _, -, hfields⟩ := fromIsoformat_spec hdate
    rw [hfields]
    rfl
  obtain ⟨selected, hpairwise, hmem, hclean⟩ := cleanDates_eq hfields
  have hkeys : ∀ key ∈ selected, (fromIsoformat key).isSome :=
    fun key hkey => hvalid key ((hmem key).mp hkey)
  have hselected : ∀ other, Selected selected other ↔ Selected (rawDates date dates) other :=
    fun other => exists_congr fun key => and_congr_left fun _ => hmem key
  have hne : selected ≠ [] := by
    rintro rfl
    obtain ⟨key, hkey⟩ := List.exists_mem_of_ne_nil _ hsome
    cases (hmem key).mpr hkey
  have hlength : selected.length ≤ 62 := by
    refine le_of_eq_of_le ?_ hmany
    have hnodup : selected.Nodup := hpairwise.imp fun hlt => ne_of_lt hlt
    refine ((List.perm_ext_iff_of_nodup hnodup (List.nodup_dedup _)).mpr fun key => ?_).length_eq
    rw [List.mem_dedup, hmem]
  have hparse : ∀ date' dates', (∀ key, key ∈ rawDates date' dates' ↔ key ∈ rawDates date dates) →
      parseSourceScope host (some "date") date' timeZone dates' =
        (mergedWindows zone selected).map fun windows =>
          { mode := "date", dates := selected, timeZone := zoneName timeZone, windows } :=
    fun date' dates' hsame => parseSourceScope_eq (hclean date' dates' hsame) hne hlength hzone
  obtain ⟨hordered, hwithin⟩ := dayWindows_spec hforward (pairwise_ordinals hkeys hpairwise)
  have hreverse : ∀ value,
      Within (((ordinals selected).map (dayWindow zone)).foldl addWindow []).reverse value ↔
        Within (((ordinals selected).map (dayWindow zone)).foldl addWindow []) value :=
    fun value => exists_congr fun window => and_congr_left fun _ => List.mem_reverse
  constructor
  · rintro ⟨scope, hscope⟩
    have hparsed := hscope.parsed
    rw [hparse date dates fun _ => Iff.rfl, mergedWindows] at hparsed
    cases hmap : selected.mapM (localDayBoundsUtc zone) with
    | error error =>
      rw [hmap] at hparsed
      cases hparsed
    | ok windows =>
      obtain ⟨hbounded, rfl⟩ := (mapM_bounds hkeys).mp hmap
      rw [hmap] at hparsed
      obtain rfl := Except.ok.inj hparsed
      refine ⟨fun ordinal hsel => hbounded ordinal (mem_ordinals.mpr ((hselected _).mpr hsel)), ?_⟩
      intro value ordinal hvalue hstart hstop _
      rw [← hscope.exact value hvalue, hreverse, hwithin value ordinal hstart hstop, mem_ordinals,
        hselected]
  · rintro ⟨hbounded, hclock⟩
    have hwindows : selected.mapM (localDayBoundsUtc zone) =
        .ok ((ordinals selected).map (dayWindow zone)) :=
      (mapM_bounds hkeys).mpr
        ⟨fun ordinal hday => hbounded ordinal ((hselected _).mp (mem_ordinals.mp hday)), rfl⟩
    have hok := hparse
    rw [mergedWindows, hwindows] at hok
    refine ⟨_, hok date dates fun _ => Iff.rfl, ?_, ?_, hok, ?_⟩
    · rw [List.reverse_reverse]
      exact hordered
    · intro value hvalue
      obtain ⟨ordinal, hstart, hstop⟩ := exists_day hoffset value
      rw [hreverse, hwithin value ordinal hstart hstop, mem_ordinals, hselected]
      by_cases hsame : Calendar.ofOrdinal ordinal = dateKeyFor zone value
      · rw [hsame]
      · exact hclock value ordinal hvalue hstart hstop hsame
    · have hstored : cleanDates none selected = .ok selected := by
        refine hclean none selected fun key => ?_
        rw [rawDates, Option.filter_none, Option.toList_none, List.append_nil, hmem]
      have hzone' : resolveZone host (zoneName (some (zoneName timeZone))) = some zone := by
        rw [zoneName_zoneName, hzone]
      have hagain := parseSourceScope_eq hstored hne hlength hzone'
      rw [zoneName_zoneName, mergedWindows, hwindows] at hagain
      rw [SourceScope.asDocument, if_neg (by simp [hne])]
      exact hagain

theorem dayScoped_iff_sample :
    (∃ scope, DayScoped ⟨fun _ => none, Text.lower⟩ ist none none ["2024-05-02", "2024-05-01"]
        scope) ↔
      (∀ ordinal, Selected ["2024-05-02", "2024-05-01"] (Calendar.ofOrdinal ordinal) →
        Bounded ist ordinal) ∧
      ∀ value ordinal, Representable value → midnight ist ordinal ≤ value →
        value < midnight ist (ordinal + 1) → Calendar.ofOrdinal ordinal ≠ dateKeyFor ist value →
          (Selected ["2024-05-02", "2024-05-01"] (Calendar.ofOrdinal ordinal) ↔
            Selected ["2024-05-02", "2024-05-01"] (dateKeyFor ist value)) :=
  dayScoped_iff ⟨fun _ => none, Text.lower⟩ ist none none ["2024-05-02", "2024-05-01"] (by decide)
    (by decide) (by decide) rfl (fun _ => by dsimp only [ist]; omega) fun ordinal => by
      rw [midnight, midnight, Zone.toUtc, Zone.toUtc, show day = 86400000000 from rfl]
      dsimp only [ist]
      omega

def stJohns : Zone where
  offsetAt value :=
    if value < ofCivil ⟨2006, 10, 29⟩ 2 31 0 then (-9000, false)
    else (-12600, value < ofCivil ⟨2006, 10, 29⟩ 3 31 0)
  localOffset wall fold :=
    if wall < ofCivil ⟨2006, 10, 29⟩ 0 1 0 - (if fold then 3600 * second else 0) then -9000
    else -12600

def stJohnsHost : ZoneHost where
  zoneInfo name := if name = "America/St_Johns" then some stJohns else none
  casefold := Text.lower

/-- A quarter to three in UTC belongs to the day, and the clock shows the evening before. -/
theorem evening_before_selected :
    resolveZone stJohnsHost (zoneName (some "America/St_Johns")) = some stJohns ∧
      ¬ ∃ scope, DayScoped stJohnsHost stJohns none (some "America/St_Johns") ["2006-10-29"]
        scope := by
  refine ⟨rfl, fun ⟨scope, hscope⟩ => ?_⟩
  have hparsed : parseSourceScope stJohnsHost (some "date") none (some "America/St_Johns")
      ["2006-10-29"] = .ok
        { mode := "date", dates := ["2006-10-29"], timeZone := "America/St_Johns"
          windows := [(ofCivil ⟨2006, 10, 29⟩ 2 30 0, ofCivil ⟨2006, 10, 30⟩ 3 30 0)] } := by
    decide +kernel
  obtain rfl := Except.ok.inj (hscope.parsed.symm.trans hparsed)
  obtain ⟨key, hkey, hdate⟩ := (hscope.exact (ofCivil ⟨2006, 10, 29⟩ 2 45 0) (by decide)).mp
    ⟨_, List.mem_singleton_self _, by decide⟩
  obtain rfl := List.mem_singleton.mp hkey
  revert hdate
  decide

end AiBuddy.Mindmap
