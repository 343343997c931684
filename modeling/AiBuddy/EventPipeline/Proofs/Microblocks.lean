import AiBuddy.Misc.Overlap
import AiBuddy.EventPipeline.Microblocks

/-!
# Micro-blocks cover the records

The loop of `build_micro_blocks` cuts the records into blocks that overlap in at most one record,
whatever the scores are. A record that would make a block too large is never joined to it.
-/

namespace AiBuddy.EventPipeline

open Conversation.Session (Settings map_toLower_nil)
open Overlap

variable {host : Host} {tokenizer : Settings} {settings : MicroblockSettings}
  {score : Turn → Turn → Rat}

section Loop

variable (host : Host) (tokenizer : Settings)

def tokensOf (turns : List Turn) : Nat :=
  (turns.map fun turn => tokenCount tokenizer turn.rawText).sum

def cutBefore (settings : MicroblockSettings) (score : Turn → Turn → Rat) (current : List Turn)
    (next : Turn) : Option Bool :=
  boundary settings current.length (tokensOf tokenizer current) (tokenCount tokenizer next.rawText)
    (score (current.getLastD next) next) (namedEntityConflictBlock host current next)

def toBuilt (block : Block Turn) : BuiltBlock :=
  blockFromIndices host tokenizer block.items (block.carried.map fun turn => turn.sequenceId)

end Loop

@[simp] theorem tokensOf_append (turns : List Turn) (next : Turn) :
    tokensOf tokenizer (turns ++ [next]) =
      tokensOf tokenizer turns + tokenCount tokenizer next.rawText := by simp [tokensOf]

theorem flush_foldl (b : Blocking) (block : Block Turn) (hne : block.items ≠ [])
    (hcurrent : b.current = block.items)
    (htokens : b.currentTokens = tokensOf tokenizer block.items)
    (hpending : b.pendingOverlap = block.carried.map fun turn => turn.sequenceId)
    (turns : List Turn) :
    ((turns.foldl (Blocking.add host tokenizer settings score) b).flush host tokenizer
      none).blocks = b.blocks ++
        (cutFrom (cutBefore host tokenizer settings score) block turns).map
          (toBuilt host tokenizer) := by
  induction turns generalizing b block with
  | nil => simp [cutFrom, Blocking.flush, hcurrent, hne, hpending, toBuilt]
  | cons next turns ih =>
    have hcut : boundary settings b.current.length b.currentTokens
        (tokenCount tokenizer next.rawText) (score (b.current.getLastD next) next)
        (namedEntityConflictBlock host b.current next) =
          cutBefore host tokenizer settings score block.items next := by
      rw [cutBefore, hcurrent, htokens]
    have hflush : b.blocks ++ [blockFromIndices host tokenizer b.current b.pendingOverlap] =
        b.blocks ++ [toBuilt host tokenizer block] := by
      rw [hcurrent, hpending, toBuilt]
    obtain ⟨last, hlast⟩ : ∃ last, block.items.getLast? = some last :=
      ⟨_, List.getLast?_eq_some_getLast hne⟩
    rw [List.foldl_cons, Blocking.add, hcut, cutFrom]
    cases cutBefore host tokenizer settings score block.items next with
    | none =>
      exact ih _ (block.add next) (by simp) (by simp [hcurrent]) (by simp [htokens]) hpending
    | some carries =>
      rw [← hcurrent] at hne
      cases carries with
      | false =>
        dsimp only
        rw [ih _ (block.next false next) (by simp [Block.items, Block.next])]
        · simp [Blocking.flush, hne, hflush]
        · simp [Blocking.flush, hne, Block.items, Block.next]
        · simp [Blocking.flush, hne, Block.items, Block.next, tokensOf]
        · simp [Blocking.flush, hne, Block.next]
      | true =>
        have hnext : block.next true next = ⟨[last], [next]⟩ := by
          simp only [Block.next, hlast]
          rfl
        rw [← hcurrent] at hlast
        dsimp only
        rw [hnext, ih _ ⟨[last], [next]⟩ (by simp [Block.items])]
        · simp [Blocking.flush, hne, hlast, hflush]
        · simp [Blocking.flush, hne, hlast, Block.items]
        · simp [Blocking.flush, hne, hlast, Block.items, tokensOf]
        · simp [Blocking.flush, hne, hlast]

theorem buildMicroBlocks_eq {turns : List Turn} :
    buildMicroBlocks host tokenizer settings score turns =
      (blocks (cutBefore host tokenizer settings score) turns).map (toBuilt host tokenizer) := by
  cases turns with
  | nil => rfl
  | cons first rest =>
    exact flush_foldl _ ⟨[], [first]⟩ (by simp [Block.items]) rfl (by simp [tokensOf, Block.items])
      rfl rest

theorem boundary_fits {turns currentTokens nextTokens : Nat} {value : Rat} {conflict : Bool}
    (h : boundary settings turns currentTokens nextTokens value conflict ≠ some false) :
    ((turns + 1 : Nat) : Int) ≤ settings.maxTurns ∧
      ((currentTokens + nextTokens : Nat) : Int) ≤ settings.maxTokens := by
  by_contra hover
  have hmax : (decide (settings.maxTurns < turns + 1) ||
      decide (settings.maxTokens < currentTokens + nextTokens)) = true := by
    simp only [Bool.or_eq_true, decide_eq_true_eq]
    omega
  refine h ?_
  simp only [boundary, hmax, Bool.true_or, if_true, Bool.not_true, Bool.and_false, Bool.false_and]

theorem limits_blocks (hmax : 1 ≤ settings.maxTurns) (turns : List Turn) :
    ∀ block ∈ blocks (cutBefore host tokenizer settings score) turns, block.fresh ≠ [] ∧
      (block.items.length : Int) ≤ settings.maxTurns ∧
      (2 ≤ block.items.length → (tokensOf tokenizer block.items : Int) ≤ settings.maxTokens) := by
  refine forall_blocks ?_ ?_ ?_ turns
  · intro first
    refine ⟨List.cons_ne_nil _ _, hmax, fun htwo => ?_⟩
    rw [Block.items, List.nil_append, List.length_singleton] at htwo
    omega
  · intro block next h hcut
    obtain ⟨hturns, htokens⟩ := boundary_fits (by rw [← cutBefore, hcut]; simp)
    rw [Block.items_add, List.length_append, List.length_singleton, tokensOf_append]
    exact ⟨by simp [Block.add], hturns, fun _ => htokens⟩
  · rintro block next carries ⟨hfresh, -, -⟩ hcut
    rcases block.next_eq carries next with heq | ⟨last, hlast, heq⟩
    · rw [heq, Block.items, List.nil_append, List.length_singleton]
      exact ⟨List.cons_ne_nil _ _, hmax, fun htwo => by omega⟩
    · have hcarries : carries = true := by
        cases carries with
        | true => rfl
        | false => simp [Block.next] at heq
      obtain ⟨hturns, htokens⟩ := boundary_fits (by rw [← cutBefore, hcut, hcarries]; simp)
      obtain ⟨front, hfront⟩ := List.getLast?_eq_some_iff.mp hlast
      rw [hfront] at hturns htokens
      simp only [List.length_append, List.length_singleton, tokensOf_append] at hturns htokens
      rw [heq]
      simp only [Block.items, tokensOf, List.cons_append, List.nil_append, List.length_cons,
        List.length_nil, List.map_cons, List.sum_cons, List.map_nil, List.sum_nil]
      exact ⟨by simp, by omega, fun _ => by omega⟩

def BuiltBlock.span (block : BuiltBlock) : Block Int :=
  ⟨block.overlapSequenceIds, block.sequenceIds.drop block.overlapSequenceIds.length⟩

section Coverage

variable (tokenizer : Settings)

/-- The `token_count` of the record with a sequence id. -/
def tokensAt (turns : List Turn) (sequenceId : Int) : Nat :=
  ((Keyed.find? (fun turn : Turn => turn.sequenceId) sequenceId turns).map fun turn =>
    tokenCount tokenizer turn.rawText).getD 0

structure MicroBlocked (settings : MicroblockSettings) (turns : List Turn)
    (built : List BuiltBlock) : Prop where
  overlaps : ∀ block ∈ built, block.overlapSequenceIds <+: block.sequenceIds
  inOrder : (built.map BuiltBlock.span).flatMap Block.fresh = turns.map fun turn => turn.sequenceId
  placed : ∀ turn ∈ turns, Placed (built.map BuiltBlock.span) turn.sequenceId
  apart : built.IsChain fun first second => ¬ second.sequenceIds ⊆ first.sequenceIds
  turnLimit : ∀ block ∈ built, (block.sequenceIds.length : Int) ≤ settings.maxTurns
  tokenLimit : ∀ block ∈ built, 2 ≤ block.sequenceIds.length →
    ((block.sequenceIds.map (tokensAt tokenizer turns)).sum : Int) ≤ settings.maxTokens

end Coverage

variable {block : Block Turn}

theorem sequenceIds_toBuilt : (toBuilt host tokenizer block).sequenceIds =
    block.items.map fun turn => turn.sequenceId := rfl

theorem overlap_toBuilt : (toBuilt host tokenizer block).overlapSequenceIds =
    block.carried.map fun turn => turn.sequenceId := by
  refine List.filter_eq_self.mpr fun sequenceId h => decide_eq_true ?_
  rw [Block.items, List.map_append]
  exact List.mem_append_left _ h

theorem span_toBuilt :
    (toBuilt host tokenizer block).span = block.map fun turn => turn.sequenceId := by
  simp [BuiltBlock.span, overlap_toBuilt, sequenceIds_toBuilt, Block.items, Block.map]

theorem sum_tokensAt {turns part : List Turn}
    (hdistinct : (turns.map fun turn => turn.sequenceId).Nodup) (hpart : part ⊆ turns) :
    ((part.map fun turn => turn.sequenceId).map (tokensAt tokenizer turns)).sum =
      tokensOf tokenizer part := by
  rw [List.map_map, tokensOf]
  refine congrArg List.sum (List.map_congr_left fun turn hturn => ?_)
  have hfound := (Keyed.find?_eq_some_iff hdistinct).mpr ⟨hpart hturn, rfl⟩
  rw [Function.comp_apply, tokensAt, hfound, Option.map_some, Option.getD_some]

theorem buildMicroBlocks_blocked (host : Host) (tokenizer : Settings)
    (settings : MicroblockSettings) (hmax : 1 ≤ settings.maxTurns) (score : Turn → Turn → Rat)
    (turns : List Turn) (hdistinct : (turns.map fun turn => turn.sequenceId).Nodup) :
    MicroBlocked tokenizer settings turns
      (buildMicroBlocks host tokenizer settings score turns) := by
  have hlimits := @limits_blocks host tokenizer settings score hmax turns
  have hspans : (buildMicroBlocks host tokenizer settings score turns).map BuiltBlock.span =
      (blocks (cutBefore host tokenizer settings score) turns).map
        (Block.map fun turn => turn.sequenceId) := by
    rw [buildMicroBlocks_eq, List.map_map]
    exact List.map_congr_left fun block _ => span_toBuilt
  have hfresh := @fresh_map_blocks _ _ (cutBefore host tokenizer settings score)
    (fun turn : Turn => turn.sequenceId) turns
  have hchain := @chain_map_blocks _ _ (cutBefore host tokenizer settings score)
    (fun turn : Turn => turn.sequenceId) turns
  have hstarts := @starts_map_blocks _ _ (cutBefore host tokenizer settings score)
    (fun turn : Turn => turn.sequenceId) turns
  rw [← hspans] at hfresh hchain hstarts
  have hbuilt : ∀ block ∈ buildMicroBlocks host tokenizer settings score turns,
      ∃ part ∈ blocks (cutBefore host tokenizer settings score) turns,
        toBuilt host tokenizer part = block := by
    rw [buildMicroBlocks_eq]
    exact fun block hblock => List.mem_map.mp hblock
  refine ⟨?_, hfresh, ?_, ?_, ?_, ?_⟩
  · intro block hblock
    obtain ⟨part, -, rfl⟩ := hbuilt block hblock
    rw [overlap_toBuilt, sequenceIds_toBuilt, Block.items, List.map_append]
    exact List.prefix_append _ _
  · intro turn hturn
    refine placed hchain hstarts (hfresh ▸ hdistinct) ?_
    rw [hfresh]
    exact List.mem_map_of_mem hturn
  · have hapart := apart hchain hstarts (hfresh ▸ hdistinct)
    rw [hspans, List.isChain_map] at hapart
    rw [buildMicroBlocks_eq, List.isChain_map]
    refine hapart.imp fun first second h => ?_
    rwa [sequenceIds_toBuilt, sequenceIds_toBuilt, ← Block.items_map, ← Block.items_map]
  · intro block hblock
    obtain ⟨part, hpart, rfl⟩ := hbuilt block hblock
    simpa [sequenceIds_toBuilt] using (hlimits part hpart).2.1
  · intro block hblock htwo
    obtain ⟨part, hpart, rfl⟩ := hbuilt block hblock
    rw [sequenceIds_toBuilt] at htwo ⊢
    rw [sum_tokensAt hdistinct (infix_blocks turns part hpart).subset]
    exact (hlimits part hpart).2.2 (by simpa using htwo)

def threeTurns : List Turn :=
  [0, 1, 2].map fun sequenceId =>
    { sequenceId, sourceId := "c", rawText := "", sessionId := "s" }

/-- Two records close a block at a low score, and the second opens the next one. -/
theorem buildMicroBlocks_blocked_sample :
    let host : Host := ⟨Text.lower, lower_empty, Char.isAlphanum, id, fun _ _ => 0⟩
    let built := buildMicroBlocks host {} {} (fun _ _ => 3 / 10) threeTurns
    MicroBlocked {} {} threeTurns built ∧
      built.map (fun block => (block.overlapSequenceIds, block.sequenceIds)) =
        [([], [0, 1]), ([1], [1, 2])] :=
  ⟨buildMicroBlocks_blocked _ _ _ (by decide) _ _ (by decide), by decide +kernel⟩

end AiBuddy.EventPipeline
