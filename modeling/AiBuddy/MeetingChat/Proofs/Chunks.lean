import AiBuddy.Misc.Overlap
import AiBuddy.MeetingChat.Transcript

/-!
# Chunks of a transcript, and the lines they give back

`build_chunks` cuts the segments into windows that overlap in at most one of them, and
`_dedupe_overlap` takes the overlap away again by the texts of the lines.
-/

namespace AiBuddy.MeetingChat

open Overlap

def segmentLines (segment : TranscriptSegment) : List String :=
  Text.split '\n' (segmentLine segment)

/-- The size of a window, `index.py:84`. -/
def windowSize (window : List TranscriptSegment) : Nat := (window.map Windowing.lineSize).sum

def cut (maxChars : Int) (window : List TranscriptSegment) (segment : TranscriptSegment) :
    Option Bool :=
  if maxChars < (windowSize window + Windowing.lineSize segment : Nat) then
    some (window.getLast?.any fun last => (last.text.toList.length : Int) < maxChars / 2)
  else none

/-- The windows of `build_chunks`. -/
def windows (maxChars : Int) (segments : List TranscriptSegment) :
    List (Block TranscriptSegment) :=
  blocks (cut maxChars) segments

section Windows

variable {maxChars : Int} {segments : List TranscriptSegment}

@[simp] theorem windowSize_append (window : List TranscriptSegment) (segment : TranscriptSegment) :
    windowSize (window ++ [segment]) = windowSize window + Windowing.lineSize segment := by
  simp [windowSize]

theorem emit_foldl (w : Windowing) (block : Block TranscriptSegment) (hne : block.items ≠ [])
    (hwindow : w.window = block.items) (hsize : w.size = windowSize block.items) :
    (segments.foldl (Windowing.add maxChars) w).emit =
      w.chunks ++ (cutFrom (cut maxChars) block segments).mapIdx fun index window =>
        chunkOf (w.chunks.length + index) window.items := by
  induction segments generalizing w block with
  | nil => simp [cutFrom, Windowing.emit, hwindow, hne]
  | cons segment segments ih =>
    rw [List.foldl_cons]
    by_cases hover : maxChars < (windowSize block.items + Windowing.lineSize segment : Nat)
    · obtain ⟨last, hlast⟩ : ∃ last, block.items.getLast? = some last :=
        ⟨_, List.getLast?_eq_some_getLast hne⟩
      have hcut : cut maxChars block.items segment =
          some (decide ((last.text.toList.length : Int) < maxChars / 2)) := by
        simp only [cut, if_pos hover, hlast, Option.any_some]
      have hcarry : w.carry maxChars = (block.next
          (decide ((last.text.toList.length : Int) < maxChars / 2)) segment).carried := by
        simp only [Windowing.carry, hwindow, Block.next, hlast, Option.toList_some]
        by_cases hshort : (last.text.toList.length : Int) < maxChars / 2 <;> simp [hshort]
      have hadd : w.add maxChars segment =
          { chunks := w.emit
            window := w.carry maxChars ++ [segment]
            size := ((w.carry maxChars).map Windowing.lineSize).sum +
              Windowing.lineSize segment } := by
        rw [Windowing.add, if_pos]
        simpa [hwindow, hne, hsize] using hover
      have hemit : w.emit = w.chunks ++ [chunkOf w.chunks.length block.items] := by
        simp [Windowing.emit, hwindow, hne]
      rw [hadd, ih _ (block.next _ segment) (by simp [Block.items, Block.next])
        (by rw [hcarry]; rfl) (by rw [hcarry, ← windowSize, ← windowSize_append]; rfl), cutFrom,
          hcut]
      simp [hemit, List.mapIdx_cons, Nat.add_assoc, Nat.add_comm 1]
    · have hadd : w.add maxChars segment =
          { w with
            window := w.window ++ [segment]
            size := w.size + Windowing.lineSize segment } := by
        rw [Windowing.add, if_neg]
        simpa [hsize] using fun _ => hover
      rw [hadd, ih _ (block.add segment) (by simp) (by simp [hwindow]) (by simp [hsize]), cutFrom,
        cut, if_neg hover]

theorem buildChunks_eq : buildChunks maxChars segments =
    (windows maxChars segments).mapIdx fun index window => chunkOf index window.items := by
  cases segments with
  | nil => rfl
  | cons segment segments =>
    have hfirst : Windowing.add maxChars {} segment =
        { window := [segment], size := Windowing.lineSize segment } := by
      simp [Windowing.add]
    rw [buildChunks, List.foldl_cons, hfirst,
      emit_foldl _ ⟨[], [segment]⟩ (by simp [Block.items]) rfl (by simp [windowSize, Block.items])]
    simp [windows, blocks]

theorem lines_chunkOf (index : Nat) {window : List TranscriptSegment} (h : window ≠ []) :
    (chunkOf index window).lines = window.flatMap segmentLines := by
  have hne : window.map segmentLine ≠ [] := by simpa using h
  have hjoin := Text.split_intercalate '\n' hne
  rw [MeetingChunk.lines, chunkOf, show "\n" = String.singleton '\n' from rfl, hjoin,
    List.flatMap_map]
  rfl

end Windows

/-- The lines that are left of the windows after `first`. -/
def keptAfter (first : Block TranscriptSegment) : List (Block TranscriptSegment) → List String
  | [] => []
  | second :: rest =>
    (second.items.flatMap segmentLines).filter (· ∉ first.items.flatMap segmentLines) ++
      keptAfter second rest

def NoneRepeats (first second : Block TranscriptSegment) : Prop :=
  ∀ line ∈ second.fresh.flatMap segmentLines, line ∉ first.items.flatMap segmentLines

theorem lines_join {lines : List String} (hne : lines ≠ []) (chunk : MeetingChunk)
    (hlines : ∀ line ∈ lines, '\n' ∉ line.toList) :
    ({ chunk with text := "\n".intercalate lines } : MeetingChunk).lines = lines := by
  have hsplit : lines.map (Text.split '\n') = lines.map fun line => [line] :=
    List.map_congr_left fun line hline => Text.split_singleton (hlines line hline)
  rw [MeetingChunk.lines, show "\n" = String.singleton '\n' from rfl,
    Text.split_intercalate '\n' hne, List.flatMap_def, hsplit, ← List.flatMap_def,
    List.flatMap_singleton']

theorem lines_add (d : Deduping) (chunk : MeetingChunk) :
    (d.add chunk).result.flatMap MeetingChunk.lines = d.result.flatMap MeetingChunk.lines ++
      if d.previousIndex.any (fun previous => chunk.index = previous + 1) then
        chunk.lines.filter (· ∉ d.previousLines)
      else chunk.lines := by
  have hlines : ∀ lines ⊆ chunk.lines, (if lines.isEmpty then d.result
      else d.result ++ [{ chunk with text := "\n".intercalate lines }]).flatMap
        MeetingChunk.lines = d.result.flatMap MeetingChunk.lines ++ lines := by
    intro lines hsubset
    cases lines with
    | nil => simp
    | cons line lines =>
      have hjoin := lines_join (List.cons_ne_nil line lines) chunk fun other hother =>
        Text.notMem_of_mem_split (hsubset hother)
      simp [hjoin]
  unfold Deduping.add
  split
  · exact hlines _ (List.filter_subset_self _)
  · exact hlines _ (List.Subset.refl _)

theorem flatMap_dedupe (windows : List (Block TranscriptSegment))
    (first : Block TranscriptSegment) (d : Deduping) (start : Nat)
    (hprevious : d.previousLines = first.items.flatMap segmentLines)
    (hindex : d.previousIndex = some start) (hne : ∀ window ∈ windows, window.items ≠ []) :
    ((windows.mapIdx fun index window => chunkOf (start + 1 + index) window.items).foldl
      Deduping.add d).result.flatMap MeetingChunk.lines =
      d.result.flatMap MeetingChunk.lines ++ keptAfter first windows := by
  induction windows generalizing first d start with
  | nil => simp [keptAfter]
  | cons second rest ih =>
    have hlines := lines_chunkOf (start + 1) (hne second List.mem_cons_self)
    have hadd := lines_add d (chunkOf (start + 1) second.items)
    rw [hindex, hlines, hprevious, Option.any_some, if_pos (by simp [chunkOf])] at hadd
    have hrest := ih second (d.add (chunkOf (start + 1) second.items)) (start + 1) hlines rfl
      fun window hwindow => hne window (List.mem_cons_of_mem _ hwindow)
    rw [List.mapIdx_cons, List.foldl_cons]
    simp only [Nat.add_zero, Nat.add_comm _ 1, ← Nat.add_assoc] at hrest ⊢
    rw [hrest]
    simp only [Nat.add_comm 1] at hadd ⊢
    rw [hadd, keptAfter, List.append_assoc]

variable {first : Block TranscriptSegment}

theorem filter_items {second : Block TranscriptSegment} (h : Follows first second) :
    (second.items.flatMap segmentLines).filter (· ∉ first.items.flatMap segmentLines) =
      (second.fresh.flatMap segmentLines).filter (· ∉ first.items.flatMap segmentLines) := by
  have hcarried : (second.carried.flatMap segmentLines).filter
      (· ∉ first.items.flatMap segmentLines) = [] := by
    refine List.filter_eq_nil_iff.mpr fun line hline => ?_
    obtain ⟨segment, hsegment, hline⟩ := List.mem_flatMap.mp hline
    simpa using ⟨segment, h.carried_subset_items hsegment, hline⟩
  rw [show second.items = second.carried ++ second.fresh from rfl, List.flatMap_append,
    List.filter_append, hcarried, List.nil_append]

theorem length_keptAfter_le {rest : List (Block TranscriptSegment)}
    (hchain : (first :: rest).IsChain Follows) :
    (keptAfter first rest).length ≤
      ((rest.flatMap Block.fresh).flatMap segmentLines).length := by
  induction rest generalizing first with
  | nil => simp [keptAfter]
  | cons second rest ih =>
    obtain ⟨hfollows, hrest⟩ := List.isChain_cons_cons.mp hchain
    have hfilter := List.length_filter_le (fun line => decide
      (line ∉ first.items.flatMap segmentLines)) (second.fresh.flatMap segmentLines)
    have hlater := ih hrest
    rw [keptAfter, filter_items hfollows, List.flatMap_cons, List.flatMap_append,
      List.length_append, List.length_append]
    omega

theorem keptAfter_eq_iff {rest : List (Block TranscriptSegment)}
    (hchain : (first :: rest).IsChain Follows) :
    keptAfter first rest = (rest.flatMap Block.fresh).flatMap segmentLines ↔
      (first :: rest).IsChain NoneRepeats := by
  induction rest generalizing first with
  | nil => simp [keptAfter]
  | cons second rest ih =>
    obtain ⟨hfollows, hrest⟩ := List.isChain_cons_cons.mp hchain
    have hle := length_keptAfter_le hrest
    have hfilter := List.length_filter_le (fun line => decide
      (line ∉ first.items.flatMap segmentLines)) (second.fresh.flatMap segmentLines)
    rw [keptAfter, filter_items hfollows, List.flatMap_cons, List.flatMap_append,
      List.isChain_cons_cons, ← ih hrest]
    have hnone : (second.fresh.flatMap segmentLines).filter
        (· ∉ first.items.flatMap segmentLines) = second.fresh.flatMap segmentLines ↔
          NoneRepeats first second := by
      simp [List.filter_eq_self, NoneRepeats]
    rw [← hnone]
    constructor
    · intro heq
      have hlength := congrArg List.length heq
      rw [List.length_append, List.length_append] at hlength
      exact List.append_inj heq (by omega)
    · rintro ⟨hfirst, hlater⟩
      rw [hfirst, hlater]

def CarriesLittle (maxChars : Int) (window : Block TranscriptSegment) : Prop :=
  ∀ last ∈ window.carried, ∀ segment ∈ window.fresh.head?,
    (Windowing.lineSize last + Windowing.lineSize segment : Nat) ≤ maxChars

def SizeWithin (maxChars : Int) (window : Block TranscriptSegment) : Prop :=
  2 ≤ window.items.length → (windowSize window.items : Int) ≤ maxChars

theorem sizeWithin_iff {maxChars : Int} {segments : List TranscriptSegment} :
    ∀ window ∈ windows maxChars segments,
      SizeWithin maxChars window ↔ CarriesLittle maxChars window := by
  have hwindows : ∀ window ∈ windows maxChars segments, window.carried.length ≤ 1 ∧
      window.fresh ≠ [] ∧ (SizeWithin maxChars window ↔ CarriesLittle maxChars window) := by
    refine forall_blocks ?_ ?_ ?_ segments
    · intro segment
      simp [SizeWithin, CarriesLittle, Block.items]
    · rintro ⟨carried, fresh⟩ segment ⟨hcarried, hfresh, -⟩ hcut
      have hsize : ((windowSize (carried ++ fresh) + Windowing.lineSize segment : Nat) : Int) ≤
          maxChars := by
        by_contra hover
        rw [Block.items, cut, if_pos (not_le.mp hover)] at hcut
        cases hcut
      refine ⟨hcarried, by simp [Block.add], iff_of_true ?_ ?_⟩
      · intro _
        rwa [Block.items_add, windowSize_append]
      · rcases carried with _ | ⟨last, _ | ⟨second, rest⟩⟩
        · simp [CarriesLittle, Block.add]
        · obtain ⟨next, more, rfl⟩ := List.exists_cons_of_ne_nil hfresh
          simp only [CarriesLittle, Block.add, windowSize, List.map_append, List.sum_append,
            List.map_cons, List.sum_cons, List.mem_singleton, List.cons_append, List.head?_cons,
            Option.mem_some_iff, forall_eq, forall_eq', List.map_nil, List.sum_nil] at hsize ⊢
          omega
        · simp at hcarried
    · intro block segment carries _ _
      rcases block.next_eq carries segment with heq | ⟨last, -, heq⟩
      · simp [heq, SizeWithin, CarriesLittle, Block.items]
      · simp [heq, SizeWithin, CarriesLittle, Block.items, windowSize]
  exact fun window h => (hwindows window h).2.2

structure RoundTrips (maxChars : Int) (segments : List TranscriptSegment) : Prop where
  lines : (dedupeOverlap (buildChunks maxChars segments)).flatMap MeetingChunk.lines =
    segments.flatMap segmentLines
  indexes : (buildChunks maxChars segments).map MeetingChunk.index =
    List.range (buildChunks maxChars segments).length
  /-- The chunks are those of the windows, and each segment is added to one window. -/
  chunks : buildChunks maxChars segments =
    (windows maxChars segments).mapIdx fun index window => chunkOf index window.items
  once : (windows maxChars segments).flatMap Block.fresh = segments
  /-- Two windows that follow each other share at most the last segment of the first. -/
  shared : (windows maxChars segments).IsChain Follows
  sizes : ∀ window ∈ windows maxChars segments, SizeWithin maxChars window

theorem flatMap_dedupeOverlap {windows : List (Block TranscriptSegment)}
    (hchain : windows.IsChain Follows) (hfirst : ∀ window ∈ windows.head?, window.carried = [])
    (hfresh : ∀ window ∈ windows, window.fresh ≠ []) :
    (dedupeOverlap (windows.mapIdx fun index window => chunkOf index window.items)).flatMap
        MeetingChunk.lines = (windows.flatMap Block.fresh).flatMap segmentLines ↔
      windows.IsChain NoneRepeats := by
  cases windows with
  | nil => exact iff_of_true rfl .nil
  | cons first rest =>
    have hitems : ∀ window ∈ first :: rest, window.items ≠ [] := fun window hwindow => by
      simp [Block.items, hfresh window hwindow]
    have hlines := lines_chunkOf 0 (hitems first List.mem_cons_self)
    have hkept := flatMap_dedupe rest first (Deduping.add {} (chunkOf 0 first.items)) 0 hlines rfl
      fun window hwindow => hitems window (List.mem_cons_of_mem _ hwindow)
    have hadd := lines_add {} (chunkOf 0 first.items)
    rw [hlines, Option.any_none, if_neg (by simp), List.flatMap_nil, List.nil_append] at hadd
    simp only [Nat.zero_add, Nat.add_comm 1, hadd] at hkept
    have hall : first.items = first.fresh := by simp [Block.items, hfirst first rfl]
    rw [dedupeOverlap, List.mapIdx_cons, List.foldl_cons, hkept, hall, List.flatMap_cons,
      List.flatMap_append, List.append_cancel_left_eq]
    exact keptAfter_eq_iff hchain

/-- The round trip holds exactly where no window repeats a line of the window before it, and none
takes a segment over that is too large beside its own first. -/
theorem roundTrips_iff (maxChars : Int) (segments : List TranscriptSegment) :
    RoundTrips maxChars segments ↔ (windows maxChars segments).IsChain NoneRepeats ∧
      ∀ window ∈ windows maxChars segments, CarriesLittle maxChars window := by
  have hchain : (blocks (cut maxChars) segments).IsChain Follows := chain_blocks segments
  have hlines := flatMap_dedupeOverlap hchain
    (carried_head segments) (fresh_ne_nil segments)
  rw [fresh_blocks, ← windows, ← buildChunks_eq] at hlines
  constructor
  · intro h
    exact ⟨hlines.mp h.lines, fun window hwindow =>
      (sizeWithin_iff window hwindow).mp (h.sizes window hwindow)⟩
  · rintro ⟨hrepeats, hcarries⟩
    exact
      { lines := hlines.mpr hrepeats
        indexes := by
          rw [buildChunks_eq]
          refine List.ext_getElem (by simp) fun i _ _ => ?_
          simp [chunkOf]
        chunks := buildChunks_eq
        once := fresh_blocks segments
        shared := chain_blocks segments
        sizes := fun window hwindow =>
          (sizeWithin_iff window hwindow).mpr (hcarries window hwindow) }

def untimed (text : String) : TranscriptSegment where
  id := "s"
  text := text
  startMs := none
  endMs := none
  speaker := none
  sequence := 0

theorem repeated_line_lost : ¬ RoundTrips 60 (List.replicate 3 (untimed "yes")) := fun h =>
  absurd h.lines (by decide +kernel)

end AiBuddy.MeetingChat
