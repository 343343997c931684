import AiBuddy.Conversation.Proofs.WindowOrder

/-!
# Chunks that a call reads to the end

Where no number is missing that may not be skipped, `_reachable_semantic_prefix` keeps all chunks,
and so it does for the first or the last part of them.
-/

namespace AiBuddy.Conversation.Session

variable {chunks : List Chunk}

theorem Increasing.eq_of_mem_iff {others : List Chunk} (h : Increasing chunks)
    (hothers : Increasing others) (hmem : ∀ chunk, chunk ∈ chunks ↔ chunk ∈ others) :
    chunks = others := by
  have hnodup : ∀ {some : List Chunk}, Increasing some → some.Nodup := by
    intro some hsome
    refine List.Pairwise.imp ?_ hsome
    rintro first later hlt rfl
    exact absurd hlt (Nat.lt_irrefl _)
  have hperm : chunks.Perm others :=
    (List.perm_ext_iff_of_nodup (hnodup h) (hnodup hothers)).mpr hmem
  refine hperm.eq_of_pairwise (fun first later _ _ hlt hgt => ?_) h hothers
  exact absurd (Nat.lt_trans hlt hgt) (Nat.lt_irrefl _)

theorem Increasing.eq_of_number (h : Increasing chunks) {chunk other : Chunk}
    (hchunk : chunk ∈ chunks) (hother : other ∈ chunks)
    (hsame : chunk.sequenceNumber = other.sequenceNumber) : chunk = other :=
  Keyed.eq_of_key (h.map_sequenceNumber.imp Nat.ne_of_lt) hchunk hother hsame

theorem increasing_ordered (h : (chunks.map Chunk.sequenceNumber).Nodup) :
    Increasing (ordered chunks) := by
  have hnodup : ((ordered chunks).map Chunk.sequenceNumber).Nodup :=
    (List.Perm.nodup_iff ((Keyed.perm_sort chunks).map _)).mpr h
  have hsorted : (ordered chunks).Pairwise fun first later =>
      first.sequenceNumber ≤ later.sequenceNumber := Keyed.sorted_sort chunks
  refine (hsorted.and (List.pairwise_map.mp hnodup)).imp fun hboth => ?_
  exact Nat.lt_of_le_of_ne hboth.1 hboth.2

theorem ordered_of_increasing (h : Increasing chunks) : ordered chunks = chunks :=
    Keyed.sort_of_sorted (h.imp fun hlt => hlt.le)

theorem ordered_eq_of_mem_iff {others : List Chunk} (h : (chunks.map Chunk.sequenceNumber).Nodup)
    (hothers : Increasing others) (hmem : ∀ chunk, chunk ∈ chunks ↔ chunk ∈ others) :
    ordered chunks = others :=
  (increasing_ordered h).eq_of_mem_iff hothers fun chunk => by
    rw [ordered, Keyed.mem_sort]
    exact hmem chunk

theorem uniqueFrom_of_increasing (h : Increasing chunks) {seen : List Nat}
    (hnew : ∀ chunk ∈ chunks, chunk.sequenceNumber ∉ seen) : uniqueFrom seen chunks = chunks := by
  induction chunks generalizing seen with
  | nil => rfl
  | cons chunk rest ih =>
    obtain ⟨hfirst, hrest⟩ := List.pairwise_cons.mp h
    rw [List.forall_mem_cons] at hnew
    rw [uniqueFrom, if_neg hnew.1, ih hrest fun later hlater hseen => ?_]
    rcases List.mem_cons.mp hseen with hsame | hseen
    · exact absurd hsame (Nat.ne_of_gt (hfirst later hlater))
    · exact hnew.2 later hlater hseen

def Unbroken (skippable : List Nat) (chunks : List Chunk) : Prop :=
  ∀ first ∈ chunks, ∀ last ∈ chunks, ∀ number,
    first.sequenceNumber < number → number < last.sequenceNumber →
      number ∈ chunks.map Chunk.sequenceNumber ∨ number ∈ skippable

variable {skippable : List Nat}

theorem mem_reachableFrom (h : Increasing chunks) {chunk : Chunk} (hchunk : chunk ∈ chunks)
    (count expected : Nat)
    (hcovered : ∀ number, expected ≤ number → number < expected + count →
      number ∈ chunks.map Chunk.sequenceNumber ∨ number ∈ skippable)
    (hfrom : expected ≤ chunk.sequenceNumber) (hbelow : chunk.sequenceNumber < expected + count) :
    chunk ∈ reachableFrom chunks skippable count expected := by
  induction count generalizing expected with
  | zero => omega
  | succ count ih =>
    have hnext : chunk.sequenceNumber ≠ expected →
        chunk ∈ reachableFrom chunks skippable count (expected + 1) := fun hne =>
      ih (expected + 1) (fun number hge hlt => hcovered number (by omega) (by omega)) (by omega)
        (by omega)
    rw [reachableFrom]
    split
    · next found hfind =>
      obtain ⟨hfound, hnumber⟩ := Keyed.find?_eq_some hfind
      by_cases hsame : chunk.sequenceNumber = expected
      · have heq : chunk = found :=
          h.eq_of_number hchunk (List.mem_reverse.mp hfound) (hsame.trans hnumber.symm)
        rw [heq]
        exact List.mem_cons_self
      · exact List.mem_cons_of_mem _ (hnext hsame)
    · next hfind =>
      have hnone : expected ∉ chunks.map Chunk.sequenceNumber := by
        have hreverse := Keyed.find?_eq_none hfind
        rwa [List.map_reverse, List.mem_reverse] at hreverse
      have hne : chunk.sequenceNumber ≠ expected := by
        rintro rfl
        exact hnone (List.mem_map_of_mem hchunk)
      rw [if_pos ((hcovered expected (Nat.le_refl _) (by omega)).resolve_left hnone)]
      exact hnext hne

theorem reachable_of_unbroken (h : Increasing chunks) (hunbroken : Unbroken skippable chunks) :
    reachableSemanticPrefix chunks skippable = chunks := by
  refine (increasing_reachable chunks skippable).eq_of_mem_iff h fun chunk =>
    ⟨mem_of_mem_reachable, fun hchunk => ?_⟩
  obtain ⟨front, last, hlast⟩ :=
    (List.eq_nil_or_concat' chunks).resolve_left (List.ne_nil_of_mem hchunk)
  cases hfirst : chunks with
  | nil =>
    rw [hfirst] at hchunk
    exact absurd hchunk List.not_mem_nil
  | cons first rest =>
    have hfirst_mem : first ∈ chunks := by
      rw [hfirst]
      exact List.mem_cons_self
    have hlast_mem : last ∈ chunks := by
      rw [hlast]
      exact List.mem_append_right _ List.mem_cons_self
    have hge : first.sequenceNumber ≤ chunk.sequenceNumber := by
      rw [hfirst] at hchunk h
      rcases List.mem_cons.mp hchunk with rfl | hlater
      · exact Nat.le_refl _
      · exact ((List.pairwise_cons.mp h).1 chunk hlater).le
    have hle : chunk.sequenceNumber ≤ last.sequenceNumber := by
      have hmax := h.le_getLastD hchunk
      rwa [hlast, List.map_append, List.map_singleton, List.getLastD_concat] at hmax
    have hhead : (chunks.map Chunk.sequenceNumber).headD 0 = first.sequenceNumber := by
      rw [hfirst]
      rfl
    have hend : (chunks.map Chunk.sequenceNumber).getLastD 0 = last.sequenceNumber := by
      rw [hlast, List.map_append, List.map_singleton, List.getLastD_concat]
    rw [← hfirst, reachableSemanticPrefix, ordered_of_increasing h,
      if_neg (List.ne_nil_of_mem hchunk), hhead, hend]
    refine mem_reachableFrom h hchunk _ _ (fun number hnumber hbelow => ?_) hge (by omega)
    rcases Nat.eq_or_lt_of_le hnumber with rfl | hafter
    · exact .inl (List.mem_map_of_mem hfirst_mem)
    · rcases Nat.eq_or_lt_of_le (show number ≤ last.sequenceNumber by omega) with rfl | hbefore
      · exact .inl (List.mem_map_of_mem hlast_mem)
      · exact hunbroken first hfirst_mem last hlast_mem number hafter hbefore

theorem Unbroken.of_between {some : List Chunk} (h : Unbroken skippable chunks)
    (hsome : ∀ chunk ∈ some, chunk ∈ chunks)
    (hbetween : ∀ first ∈ some, ∀ last ∈ some, ∀ chunk ∈ chunks, first.sequenceNumber <
      chunk.sequenceNumber → chunk.sequenceNumber < last.sequenceNumber → chunk ∈ some) :
    Unbroken skippable some := by
  intro first hfirst last hlast number hafter hbefore
  rcases h first (hsome first hfirst) last (hsome last hlast) number hafter hbefore with
    hnumber | hskip
  · obtain ⟨chunk, hchunk, rfl⟩ := List.mem_map.mp hnumber
    exact .inl (List.mem_map_of_mem (hbetween first hfirst last hlast chunk hchunk hafter hbefore))
  · exact .inr hskip

theorem Unbroken.front {front rest : List Chunk} (hincreasing : Increasing (front ++ rest))
    (h : Unbroken skippable (front ++ rest)) :
    Unbroken skippable front := by
  refine h.of_between (fun chunk hmem => List.mem_append_left _ hmem) ?_
  intro first _ last hlast chunk hchunk _ hbefore
  rcases List.mem_append.mp hchunk with hmem | hmem
  · exact hmem
  · have hafter := (List.pairwise_append.mp hincreasing).2.2 last hlast chunk hmem
    omega

theorem Unbroken.back {front rest : List Chunk} (hincreasing : Increasing (front ++ rest))
    (h : Unbroken skippable (front ++ rest)) :
    Unbroken skippable rest := by
  refine h.of_between (fun chunk hmem => List.mem_append_right _ hmem) ?_
  intro first hfirst last _ chunk hchunk hafter _
  rcases List.mem_append.mp hchunk with hmem | hmem
  · have hbefore := (List.pairwise_append.mp hincreasing).2.2 chunk hmem first hfirst
    omega
  · exact hmem

end AiBuddy.Conversation.Session
