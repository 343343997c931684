import AiBuddy.Misc.Keyed
import AiBuddy.Misc.Text

/-!
# Preparing the transcripts of a day (`services/daily_briefing/prepare.py`)

`str.lower` and `estimate_tokens` are parameters, and the factor 0.9 is exact. Of an item only its
text and its times are kept.
-/

namespace AiBuddy.DailyBriefing

/-- A `datetime`, counted from a moment before all others of its kind: `datetime.min` is the naive
one at 0. -/
structure Timestamp where
  aware : Bool
  instant : Nat
  deriving DecidableEq

structure Item where
  text : Option String := none
  createdAt : Option Timestamp := none
  timestamp : Option Timestamp := none
  deriving DecidableEq

def Item.time (item : Item) : Timestamp :=
  ((item.createdAt).or item.timestamp).getD ⟨false, 0⟩

def normalizeText (lower : String → String) (value : String) : String :=
  lower (Text.collapseSpaces (Text.strip value))

def Item.stripped (item : Item) : String := Text.strip (item.text.getD "")

def Item.key (lower : String → String) (item : Item) : String := normalizeText lower item.stripped

/-- The loop of `filter_and_order_transcripts`, with the keys `seen` so far. -/
def filterFrom (lower : String → String) : List String → List Item → List Item
  | _, [] => []
  | seen, item :: items =>
    if item.stripped.length < 8 then filterFrom lower seen items
    else if item.key lower = "" ∨ item.key lower ∈ seen then filterFrom lower seen items
    else item :: filterFrom lower (item.key lower :: seen) items

/-- Two items whose times `sorted` cannot compare. -/
def Incomparable (items : List Item) : Prop :=
  ∃ item ∈ items, ∃ other ∈ items, item.time.aware ≠ other.time.aware

instance (items : List Item) : Decidable (Incomparable items) :=
  inferInstanceAs (Decidable (∃ _ ∈ _, ∃ _ ∈ _, _))

/-- `:23`. A sort compares times of both kinds where there are any. -/
def filterAndOrderTranscripts (lower : String → String) (items : List Item) :
    Except String (List Item) :=
  if Incomparable items then .error "can't compare offset-naive and offset-aware datetimes"
  else .ok (filterFrom lower [] (Keyed.sort (fun item => item.time.instant) items))

structure TranscriptWindow where
  index : Nat
  items : List Item
  tokenCount : Nat
  deriving DecidableEq

/-- The variables of the loop of `build_windows`. -/
structure Windowing where
  windows : List TranscriptWindow := []
  current : List Item := []
  currentTokens : Nat := 0
  index : Nat := 0

def Windowing.close (w : Windowing) : Windowing where
  windows := w.windows ++ [⟨w.index, w.current, w.currentTokens⟩]
  index := w.index + 1

/-- Whether the item starts another window, `:48`. -/
def Windowing.full (targetTokens maxTokens : Int) (w : Windowing) (tokens : Nat) : Bool :=
  w.current ≠ [] ∧ max targetTokens 1 < (w.currentTokens + tokens : Nat) ∧
    maxTokens * 9 < (w.currentTokens + tokens : Nat) * 10

/-- The rest of the body of the loop, `:53`. -/
def Windowing.place (maxTokens : Int) (w : Windowing) (item : Item) (tokens : Nat) : Windowing :=
  if maxTokens < tokens ∧ w.current = [] then
    { w with windows := w.windows ++ [⟨w.index, [item], tokens⟩], index := w.index + 1 }
  else
    let placed :=
      { w with current := w.current ++ [item], currentTokens := w.currentTokens + tokens }
    if maxTokens ≤ (placed.currentTokens : Int) then placed.close else placed

def Windowing.add (estimateTokens : String → Nat) (targetTokens maxTokens : Int) (w : Windowing)
    (item : Item) : Windowing :=
  let tokens := max 1 (estimateTokens (item.text.getD ""))
  (if w.full targetTokens maxTokens tokens then w.close else w).place maxTokens item tokens

def buildWindows (estimateTokens : String → Nat) (items : List Item)
    (targetTokens maxTokens : Int) : List TranscriptWindow :=
  let built := items.foldl (Windowing.add estimateTokens targetTokens maxTokens) {}
  if built.current = [] then built.windows else built.close.windows

end AiBuddy.DailyBriefing

/-!
## The transcripts of a day, once each and in windows

Items whose times are of one kind are put in order, and one is kept of each key that an item long
enough has. The windows over any items split them as they are.
-/

namespace AiBuddy.DailyBriefing

variable {lower : String → String} {item : Item} {items : List Item} {seen : List String}

def Item.Usable (lower : String → String) (item : Item) : Prop :=
  8 ≤ item.stripped.length ∧ item.key lower ≠ ""

instance (item : Item) : Decidable (item.Usable lower) := inferInstanceAs (Decidable (_ ∧ _))

theorem filterFrom_sublist : (filterFrom lower seen items).Sublist items := by
  fun_induction filterFrom lower seen items
  all_goals simp_all

theorem filterFrom_filterFrom :
    filterFrom lower seen (filterFrom lower seen items) = filterFrom lower seen items := by
  fun_induction filterFrom lower seen items
  all_goals grind [filterFrom]

theorem countP_filterFrom {key : String} :
    (filterFrom lower seen items).countP (·.key lower = key) =
      if key ∉ seen ∧ ∃ item ∈ items, item.Usable lower ∧ item.key lower = key then 1 else 0 := by
  fun_induction filterFrom lower seen items with
  | case1 => simp
  | case2 seen item items hshort ih =>
    have hnot : ¬item.Usable lower := fun h => by have := h.1; omega
    simp [ih, hnot]
  | case3 seen item items hlong hskip ih =>
    rw [ih]
    refine if_congr (and_congr_right fun hseen => ?_) rfl rfl
    rw [List.exists_mem_cons_iff]
    refine ⟨.inr, ?_⟩
    rintro (⟨husable, rfl⟩ | hlater)
    · exact (hskip.elim husable.2 hseen).elim
    · exact hlater
  | case4 seen item items hlong hkept ih =>
    rw [not_or] at hkept
    have husable : item.Usable lower := ⟨by omega, hkept.1⟩
    by_cases hkey : item.key lower = key
    · subst hkey
      simp [ih, husable, hkept.2]
    · have hne : key ≠ item.key lower := fun h => hkey h.symm
      simp [ih, hkey, hne]

structure Prepared (lower : String → String) (items kept : List Item) : Prop where
  returned : filterAndOrderTranscripts lower items = .ok kept
  idempotent : filterAndOrderTranscripts lower kept = .ok kept
  ordered : kept.Pairwise fun first later => first.time.instant ≤ later.time.instant
  chosen : ∀ item ∈ kept, item ∈ items
  keys : ∀ key, kept.countP (·.key lower = key) =
    if 8 ≤ key.length ∧ key ∈ items.map (·.key lower) then 1 else 0

theorem filterAndOrderTranscripts_spec (h : ¬Incomparable items) :
    ∃ kept, filterAndOrderTranscripts lower items = .ok kept ∧
      filterAndOrderTranscripts lower kept = .ok kept ∧
      (kept.Pairwise fun first later => first.time.instant ≤ later.time.instant) ∧
      (∀ item ∈ kept, item ∈ items) ∧
      ∀ key, kept.countP (·.key lower = key) =
        if ∃ item ∈ items, item.Usable lower ∧ item.key lower = key then 1 else 0 := by
  have hsub := @filterFrom_sublist lower (Keyed.sort (fun item => item.time.instant) items) []
  have hordered := (Keyed.sorted_sort items).sublist hsub
  have hchosen := fun item hmem => Keyed.mem_sort.mp (hsub.subset (a := item) hmem)
  refine ⟨_, if_neg h, ?_, hordered, hchosen, fun key => ?_⟩
  · rw [filterAndOrderTranscripts, if_neg, Keyed.sort_of_sorted hordered, filterFrom_filterFrom]
    rintro ⟨item, hitem, other, hother, hne⟩
    exact h ⟨item, hchosen item hitem, other, hchosen other hother, hne⟩
  · simp [countP_filterFrom, Keyed.mem_sort]

variable {targetTokens maxTokens : Int} {windows : List TranscriptWindow} {w : Windowing}

structure Partitions (targetTokens maxTokens : Int) (items : List Item)
    (windows : List TranscriptWindow) : Prop where
  items : windows.flatMap (·.items) = items
  indexes : windows.map (·.index) = List.range windows.length
  fits : ∀ window ∈ windows, 2 ≤ window.items.length →
    (window.tokenCount : Int) ≤ max targetTokens maxTokens

theorem Partitions.push (h : Partitions targetTokens maxTokens items windows)
    {window : TranscriptWindow} (hindex : window.index = windows.length)
    (hfits : 2 ≤ window.items.length → (window.tokenCount : Int) ≤ max targetTokens maxTokens) :
    Partitions targetTokens maxTokens (items ++ window.items) (windows ++ [window]) where
  items := by simp [h.items]
  indexes := by simp [h.indexes, hindex, List.range_succ]
  fits := by
    intro other hother
    rcases List.mem_append.mp hother with hold | hnew
    · exact h.fits other hold
    · rw [List.mem_singleton.mp hnew]
      exact hfits

structure Windowing.Reads (targetTokens maxTokens : Int) (w : Windowing) (items : List Item) :
    Prop where
  windows : ∃ front, items = front ++ w.current ∧
    Partitions targetTokens maxTokens front w.windows
  index : w.index = w.windows.length
  fits : 2 ≤ w.current.length → (w.currentTokens : Int) ≤ max targetTokens maxTokens
  counted : w.current ≠ [] → 1 ≤ w.currentTokens

theorem Windowing.Reads.close (h : w.Reads targetTokens maxTokens items) :
    w.close.Reads targetTokens maxTokens items := by
  obtain ⟨front, rfl, hfront⟩ := h.windows
  have hpush := @Partitions.push _ _ _ _ hfront ⟨w.index, w.current, w.currentTokens⟩ h.index h.fits
  exact ⟨⟨_, (List.append_nil _).symm, hpush⟩, by simp [close, h.index], by simp [close],
    by simp [close]⟩

theorem Windowing.Reads.place {tokens : Nat} (h : w.Reads targetTokens maxTokens items)
    (hfull : w.full targetTokens maxTokens tokens = false) (htokens : 1 ≤ tokens) :
    (w.place maxTokens item tokens).Reads targetTokens maxTokens (items ++ [item]) := by
  obtain ⟨front, rfl, hfront⟩ := h.windows
  unfold Windowing.place
  split
  · next halone =>
    have hpush := @Partitions.push _ _ _ _ hfront ⟨w.index, [item], tokens⟩ h.index (by simp)
    exact ⟨⟨front ++ [item], by simp [halone.2], hpush⟩, by simp [h.index], by simp [halone.2],
      by simp [halone.2]⟩
  · have hplaced : Windowing.Reads targetTokens maxTokens
        { w with current := w.current ++ [item], currentTokens := w.currentTokens + tokens }
        (front ++ w.current ++ [item]) := by
      refine ⟨⟨front, List.append_assoc _ _ _, hfront⟩, h.index, fun hlong => ?_, fun _ => ?_⟩
      · have hne : w.current ≠ [] := by
          rintro hnil
          simp [hnil] at hlong
        have hcounted := h.counted hne
        simp only [Windowing.full, hne, ne_eq, not_false_eq_true, true_and,
          decide_eq_false_iff_not, not_and] at hfull
        dsimp only
        omega
      · exact Nat.le_add_left_of_le htokens
    dsimp only
    split
    · exact hplaced.close
    · exact hplaced

theorem Windowing.Reads.add (estimateTokens : String → Nat)
    (h : w.Reads targetTokens maxTokens items) (item : Item) :
    (w.add estimateTokens targetTokens maxTokens item).Reads targetTokens maxTokens
      (items ++ [item]) := by
  have htokens : 1 ≤ max 1 (estimateTokens (item.text.getD "")) := Nat.le_max_left _ _
  unfold Windowing.add
  dsimp only
  cases hfull : w.full targetTokens maxTokens (max 1 (estimateTokens (item.text.getD ""))) with
  | true => exact h.close.place (by simp [Windowing.full, Windowing.close]) htokens
  | false => exact h.place hfull htokens

theorem buildWindows_partitions {estimateTokens : String → Nat} {items : List Item}
    {targetTokens maxTokens : Int} :
    Partitions targetTokens maxTokens items
      (buildWindows estimateTokens items targetTokens maxTokens) := by
  have hread : ∀ (rest before : List Item) (w : Windowing),
      w.Reads targetTokens maxTokens before →
      (rest.foldl (Windowing.add estimateTokens targetTokens maxTokens) w).Reads targetTokens
        maxTokens (before ++ rest) := by
    intro rest
    induction rest with
    | nil => simp
    | cons item rest ih =>
      intro before w h
      simpa using ih _ _ (h.add estimateTokens item)
  have hbuilt := hread items [] {} ⟨⟨[], rfl, rfl, rfl, by simp⟩, rfl, by simp, by simp⟩
  rw [List.nil_append] at hbuilt
  unfold buildWindows
  dsimp only
  split
  · next hnone =>
    obtain ⟨front, hitems, hfront⟩ := hbuilt.windows
    rw [hnone, List.append_nil] at hitems
    exact hitems ▸ hfront
  · obtain ⟨front, hitems, hfront⟩ := hbuilt.close.windows
    rw [Windowing.close, List.append_nil] at hitems
    exact hitems ▸ hfront

/-- The items are prepared as they should be exactly where their times are of one kind, and a key
has at least eight characters where an item that is long enough has it. -/
theorem prepared_iff (lower : String → String) (estimateTokens : String → Nat)
    (items : List Item) :
    ((∃ kept, Prepared lower items kept) ∧
      ∀ (list : List Item) (targetTokens maxTokens : Int),
        Partitions targetTokens maxTokens list
          (buildWindows estimateTokens list targetTokens maxTokens)) ↔
      ¬Incomparable items ∧ ∀ key ∈ items.map (·.key lower),
        (8 ≤ key.length ↔ ∃ item ∈ items, item.Usable lower ∧ item.key lower = key) := by
  rw [and_iff_left fun list targetTokens maxTokens =>
    buildWindows_partitions]
  by_cases hmixed : Incomparable items
  · refine iff_of_false ?_ fun h => h.1 hmixed
    rintro ⟨kept, hkept⟩
    have hreturned := hkept.returned
    rw [filterAndOrderTranscripts, if_pos hmixed] at hreturned
    cases hreturned
  · obtain ⟨kept, hreturned, hidempotent, hordered, hchosen, hkeys⟩ :=
      @filterAndOrderTranscripts_spec lower items hmixed
    constructor
    · rintro ⟨kept', hkept⟩
      obtain rfl := Except.ok.inj (hreturned.symm.trans hkept.returned)
      refine ⟨hmixed, fun key hkey => ?_⟩
      have hcount := (hkeys key).symm.trans (hkept.keys key)
      simp only [hkey, and_true] at hcount
      refine ⟨fun hlong => ?_, fun hhas => ?_⟩
      · by_contra hnone
        simp [hnone, hlong] at hcount
      · by_contra hshort
        simp [hhas, hshort] at hcount
    · rintro ⟨-, hlong⟩
      refine ⟨kept, hreturned, hidempotent, hordered, hchosen, fun key => ?_⟩
      rw [hkeys key]
      refine if_congr ⟨?_, fun h => (hlong key h.2).mp h.1⟩ rfl rfl
      rintro ⟨item, hitem, husable, rfl⟩
      have hmem := List.mem_map_of_mem (f := (·.key lower)) hitem
      exact ⟨(hlong _ hmem).mpr ⟨item, hitem, husable, rfl⟩, hmem⟩

def sampleItems : List Item :=
  [{ text := some "first note", createdAt := some ⟨true, 5⟩ }, { text := some "second note" }]

/-- The sort of these items raises. -/
theorem times_not_compared :
    filterAndOrderTranscripts id sampleItems =
      .error "can't compare offset-naive and offset-aware datetimes" := by
  decide +kernel

end AiBuddy.DailyBriefing
