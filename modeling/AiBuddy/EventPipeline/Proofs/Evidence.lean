import AiBuddy.EventPipeline.Events

/-!
# Where the sequences of an event come from

A span is kept if one of its ends is in the topic, and is then read from end to end. Every other
way to a sequence stays in the topic, apart from the blocks that are searched for an antecedent.
-/

namespace AiBuddy.EventPipeline

open Conversation

variable {host : Host} {lines : Int → String} {topic : LocalTopic} {blocks : List MicroBlock}
  {item : AtomicEventLLMItem}

def LocalTopic.Has (topic : LocalTopic) (lines : Int → String) (sequence : Int) : Prop :=
  sequence ∈ topic.sequenceIds ∧ lines sequence ≠ ""

def LocalTopic.Covers (topic : LocalTopic) (lines : Int → String) (span : EvidenceSpan) : Prop :=
  ∀ sequence, span.sequenceStart ≤ sequence → sequence ≤ span.sequenceEnd →
    topic.Has lines sequence

def LocalTopic.Strays (topic : LocalTopic) (host : Host) (lines : Int → String)
    (span : EvidenceSpan) : Prop :=
  (groundSpan host lines topic.sequenceIds span).isSome = true ∧ ¬ topic.Covers lines span

variable {span : EvidenceSpan}

theorem groundSpan_ends {allowed : List Int} {grounded : EvidenceSpan}
    (h : groundSpan host lines allowed span = some grounded) :
    grounded.sequenceStart = span.sequenceStart ∧ grounded.sequenceEnd = span.sequenceEnd := by
  unfold groundSpan at h
  dsimp only at h
  split at h
  · cases h
  · split at h
    · cases h
    · split at h
      · obtain rfl := Option.some.inj h
        exact ⟨rfl, rfl⟩
      · obtain rfl := Option.some.inj h
        exact ⟨rfl, rfl⟩

theorem covers_congr {other : EvidenceSpan}
    (h : other.sequenceStart = span.sequenceStart ∧ other.sequenceEnd = span.sequenceEnd) :
    topic.Covers lines other ↔ topic.Covers lines span := by
  unfold LocalTopic.Covers
  rw [h.1, h.2]

theorem groundEvidence_covers_iff {spans : List EvidenceSpan} :
    (∀ span ∈ groundEvidence host lines topic.sequenceIds spans, topic.Covers lines span) ↔
      ∀ span ∈ spans, ¬ topic.Strays host lines span := by
  unfold groundEvidence LocalTopic.Strays
  simp only [List.mem_eraseDups, List.mem_filterMap]
  constructor
  · rintro hall span hspan ⟨hkept, hnot⟩
    obtain ⟨grounded, hgrounded⟩ := Option.isSome_iff_exists.mp hkept
    exact hnot ((covers_congr (groundSpan_ends hgrounded)).mp
      (hall grounded ⟨span, hspan, hgrounded⟩))
  · rintro hall grounded ⟨span, hspan, hgrounded⟩
    rw [covers_congr (groundSpan_ends hgrounded)]
    by_contra hnot
    exact hall span hspan ⟨Option.isSome_iff_exists.mpr ⟨grounded, hgrounded⟩, hnot⟩

theorem covers_lineSpan {sequence : Int} :
    topic.Covers lines (lineSpan lines sequence) ↔ topic.Has lines sequence := by
  constructor
  · exact fun h => h sequence le_rfl le_rfl
  · intro h other hstart hend
    obtain rfl : other = sequence := le_antisymm hend hstart
    exact h

theorem evidenceFromMeaning_covers {meaning : String} {signal : Option ActionSignalLLMItem}
    (h : span ∈ evidenceFromMeaning host lines meaning signal topic) :
    topic.Covers lines span := by
  obtain ⟨sequence, hsequence, rfl⟩ := List.mem_map.mp h
  have hscored := (List.mem_insertionSort _).mp (List.mem_of_mem_take hsequence)
  obtain ⟨hmem, hkept⟩ := List.mem_filter.mp hscored
  exact covers_lineSpan.mpr ⟨hmem, (of_decide_eq_true hkept).1⟩

variable {text : String}

theorem casefoldText_ne_empty (h : casefoldText host text ≠ "") : text ≠ "" := by
  rintro rfl
  exact h host.casefold_empty

theorem spansForTokens_covers (h : span ∈ spansForTokens host lines text topic.sequenceIds) :
    topic.Covers lines span := by
  unfold spansForTokens at h
  dsimp only at h
  split at h
  · cases h
  · obtain ⟨sequence, hsequence, rfl⟩ := List.mem_map.mp h
    obtain ⟨hmem, hkept⟩ := List.mem_filter.mp hsequence
    exact covers_lineSpan.mpr
      ⟨hmem, casefoldText_ne_empty (of_decide_eq_true hkept).1⟩

inductive ObjectSource (topic : LocalTopic) (lines : Int → String)
    (fieldSpans : List EvidenceSpan) (object : ObjectGrounding) : Prop where
  | nowhere (hspans : object.spans = []) (hgrounding : object.grounding ≠ some .localCoreference)
  | field (hspans : object.spans = fieldSpans)
      (hgrounding : object.grounding ≠ some .localCoreference)
  | topic (hcovers : ∀ span ∈ object.spans, topic.Covers lines span)
      (hgrounding : object.grounding ≠ some .localCoreference)
  | nearby (sequence : Int) (htext : lines sequence ≠ "")
      (hspans : object.spans = [lineSpan lines sequence])
      (hgrounding : object.grounding = some .localCoreference)

theorem antecedentPhrase_line {line : String} {phrase : String}
    (h : antecedentPhrase host line = some phrase) : line ≠ "" := by
  rintro rfl
  have hnone : contentTokens host "" = [] := rfl
  simp [antecedentPhrase, hnone] at h

theorem antecedents_line {seen : List String} {sequences : List Int} {found : String × Int}
    (h : found ∈ antecedents host lines seen sequences) : lines found.2 ≠ "" := by
  induction sequences generalizing seen with
  | nil => cases h
  | cons sequence rest ih =>
    unfold antecedents at h
    split at h
    · exact ih h
    · next phrase hphrase =>
      split at h
      · exact ih h
      · rcases List.mem_cons.mp h with rfl | hlater
        · exact antecedentPhrase_line hphrase
        · exact ih hlater

theorem resolvePronounLocally_line {events : List Int} {found : String × EvidenceSpan}
    (h : resolvePronounLocally host lines blocks events = some found) :
    ∃ sequence, lines sequence ≠ "" ∧ found.2 = lineSpan lines sequence := by
  unfold resolvePronounLocally at h
  split at h
  · next phrase sequence hfound =>
    obtain rfl := Option.some.inj h
    have hmem : (phrase, sequence) ∈ antecedents host lines []
        (localAntecedentSequences host blocks events) := by
      rw [hfound]
      exact List.mem_cons_self
    exact ⟨sequence, antecedents_line hmem, rfl⟩
  · cases h

variable {fieldSpans : List EvidenceSpan}

theorem ObjectSource.of_resolved {events : List Int} {found : String × EvidenceSpan}
    (h : resolvePronounLocally host lines blocks events = some found) :
    ObjectSource topic lines fieldSpans (.resolved found) := by
  obtain ⟨sequence, htext, hspan⟩ := resolvePronounLocally_line h
  exact .nearby sequence htext (congrArg (fun span => [span]) hspan) rfl

theorem ObjectSource.of_abstain {actionable : Bool} {grounding : Option Grounding}
    (h : grounding ≠ some .localCoreference) :
    ObjectSource topic lines fieldSpans (.abstain actionable grounding) := .nowhere rfl h

theorem objectGroundingInScope_spans {evidence spans : List EvidenceSpan}
    (h : objectGroundingInScope host lines text fieldSpans evidence topic =
      (some .explicit, spans)) :
    spans = fieldSpans ∨ ∀ span ∈ spans, topic.Covers lines span := by
  have hspans : ∀ words,
      (if fieldSpans ≠ [] then fieldSpans else spansForTokens host lines words topic.sequenceIds) =
        fieldSpans ∨ ∀ span ∈ (if fieldSpans ≠ [] then fieldSpans
          else spansForTokens host lines words topic.sequenceIds), topic.Covers lines span := by
    intro words
    split
    · exact .inl rfl
    · exact .inr fun span => spansForTokens_covers
  unfold objectGroundingInScope at h
  dsimp only at h
  split at h
  · obtain rfl := congrArg Prod.snd h
    exact hspans _
  · split at h
    · cases h
    · split at h
      · cases h
      · split at h
        · obtain rfl := congrArg Prod.snd h
          exact hspans _
        · cases h

theorem groundActionObject_source (value : Option String) (fieldSpans evidence : List EvidenceSpan)
    (events : List Int) (actionable : Bool) (claimed : Option String) :
    ObjectSource topic lines fieldSpans (groundActionObject host lines value fieldSpans evidence
      topic blocks events actionable claimed) := by
  unfold groundActionObject
  dsimp only
  split
  · split
    · next spans hscope =>
      rcases objectGroundingInScope_spans hscope with hfield | hcovers
      · exact .field hfield nofun
      · exact .topic hcovers nofun
    · exact .of_abstain nofun
    · split
      · split
        · next hfound => exact .of_resolved hfound
        · exact .of_abstain nofun
      · exact .of_abstain nofun
  · split
    · next hfound => exact .of_resolved hfound
    · split
      · exact .of_abstain nofun
      · split
        · exact .of_abstain nofun
        · exact .of_abstain nofun

theorem itemObject_covers_iff :
    (∀ span ∈ (itemObject host lines topic blocks item).spans, topic.Covers lines span) ↔
      ((itemObject host lines topic blocks item).spans =
          (materializeFieldEvidence host lines item.fieldEvidence topic.sequenceIds).actionObject →
        ∀ field, item.fieldEvidence = some field →
          ∀ span ∈ field.actionObject, ¬ topic.Strays host lines span) ∧
      ((itemObject host lines topic blocks item).grounding = some .localCoreference →
        ∀ span ∈ (itemObject host lines topic blocks item).spans,
          span.sequenceStart ∈ topic.sequenceIds) := by
  have hsource : ObjectSource topic lines
      (materializeFieldEvidence host lines item.fieldEvidence topic.sequenceIds).actionObject
      (itemObject host lines topic blocks item) := by
    unfold itemObject
    exact groundActionObject_source ..
  generalize itemObject host lines topic blocks item = object at hsource ⊢
  have hfield : (∀ span ∈ (materializeFieldEvidence host lines item.fieldEvidence
      topic.sequenceIds).actionObject, topic.Covers lines span) ↔
        ∀ field, item.fieldEvidence = some field →
          ∀ span ∈ field.actionObject, ¬ topic.Strays host lines span := by
    cases item.fieldEvidence with
    | none => simp [materializeFieldEvidence]
    | some field => simpa [materializeFieldEvidence] using groundEvidence_covers_iff
  constructor
  · intro hcovers
    refine ⟨fun hspans => hfield.mp (hspans ▸ hcovers), fun hgrounding span hspan => ?_⟩
    cases hsource with
    | nowhere hspans hother => exact absurd hgrounding hother
    | field hspans hother => exact absurd hgrounding hother
    | topic _ hother => exact absurd hgrounding hother
    | nearby sequence htext hspans _ =>
      have hline : span = lineSpan lines sequence := by
        rw [hspans] at hspan
        exact List.mem_singleton.mp hspan
      have hhas := hcovers span hspan
      rw [hline, covers_lineSpan] at hhas
      rw [hline]
      exact hhas.1
  · rintro ⟨hown, hantecedent⟩ span hspan
    cases hsource with
    | nowhere hspans _ =>
      rw [hspans] at hspan
      cases hspan
    | field hspans _ =>
      rw [hspans] at hspan
      exact hfield.mpr (hown hspans) span hspan
    | topic hcovers _ => exact hcovers span hspan
    | nearby sequence htext hspans hgrounding =>
      have hin := hantecedent hgrounding span hspan
      have hline : span = lineSpan lines sequence := by
        rw [hspans] at hspan
        exact List.mem_singleton.mp hspan
      rw [hline] at hin ⊢
      exact covers_lineSpan.mpr ⟨hin, htext⟩

def usedSpans (host : Host) (lines : Int → String) (topic : LocalTopic)
    (item : AtomicEventLLMItem) : List EvidenceSpan :=
  if groundEvidence host lines topic.sequenceIds item.evidence ≠ [] then item.evidence
  else (item.fieldEvidence.map FieldEvidence.all).getD []

theorem itemEvidence_covers_iff :
    (∀ span ∈ itemEvidence host lines topic item, topic.Covers lines span) ↔
      ∀ span ∈ usedSpans host lines topic item, ¬ topic.Strays host lines span := by
  unfold itemEvidence usedSpans
  dsimp only
  split
  · exact groundEvidence_covers_iff
  · cases item.fieldEvidence with
    | none =>
      rw [if_neg (by simp)]
      exact ⟨fun _ _ hspan => absurd hspan List.not_mem_nil, fun _ _ => evidenceFromMeaning_covers⟩
    | some field =>
      have hfield : (∀ span ∈ groundEvidence host lines topic.sequenceIds field.all,
          topic.Covers lines span) ↔ ∀ span ∈ field.all, ¬ topic.Strays host lines span :=
        groundEvidence_covers_iff
      dsimp only [Option.map_some, Option.getD_some]
      split
      · exact hfield
      · next hnone =>
        rw [ne_eq, not_not] at hnone
        rw [← hfield, hnone]
        exact ⟨fun _ _ hspan => absurd hspan List.not_mem_nil,
          fun _ _ => evidenceFromMeaning_covers⟩

theorem mem_mergeSpans {existing extra : List EvidenceSpan} :
    span ∈ mergeSpans existing extra ↔ span ∈ existing ∨ span ∈ extra := by
  unfold mergeSpans
  rw [List.mem_append, List.mem_filter, List.mem_eraseDups, decide_eq_true_eq]
  constructor
  · rintro (hexisting | ⟨hextra, -⟩)
    · exact .inl hexisting
    · exact .inr hextra
  · rintro (hexisting | hextra)
    · exact .inl hexisting
    · by_cases hexisting : span ∈ existing
      · exact .inl hexisting
      · exact .inr ⟨hextra, hexisting⟩

def AtomicEvent.WithinTopic (event : AtomicEvent) (topic : LocalTopic) (lines : Int → String) :
    Prop :=
  (∀ sequence ∈ event.sequenceIds, topic.Has lines sequence) ∧
    ∀ sequence ∈ evidenceSequenceIds event.evidence, topic.Has lines sequence

theorem materializeEvent_within_iff {canonicalize : String → String → Option String}
    {conversationId : String} :
    (materializeEvent host lines canonicalize topic blocks conversationId item).WithinTopic topic
        lines ↔
      (∀ span ∈ itemEvidence host lines topic item, topic.Covers lines span) ∧
        ∀ span ∈ (itemObject host lines topic blocks item).spans, topic.Covers lines span := by
  have hids : ∀ sequence, sequence ∈ itemSequences host lines topic blocks item ↔
      ∃ span, (span ∈ itemEvidence host lines topic item ∨
        span ∈ (itemObject host lines topic blocks item).spans) ∧
          span.sequenceStart ≤ sequence ∧ sequence ≤ span.sequenceEnd := by
    intro sequence
    unfold itemSequences
    rw [List.mem_eraseDups, List.mem_append, mem_evidenceSequenceIds, List.mem_flatMap]
    simp only [mem_spanSequences]
    constructor
    · rintro (⟨span, hspan, hin⟩ | ⟨span, hspan, hin⟩)
      · exact ⟨span, .inl hspan, hin⟩
      · exact ⟨span, .inr hspan, hin⟩
    · rintro ⟨span, hspan | hspan, hin⟩
      · exact .inl ⟨span, hspan, hin⟩
      · exact .inr ⟨span, hspan, hin⟩
  have hevidence : ∀ sequence, sequence ∈ evidenceSequenceIds (materializeEvent host lines
      canonicalize topic blocks conversationId item).evidence ↔
        sequence ∈ itemSequences host lines topic blocks item := by
    intro sequence
    rw [hids, mem_evidenceSequenceIds]
    simp only [materializeEvent, mem_mergeSpans]
  constructor
  · rintro ⟨hwithin, -⟩
    exact ⟨fun span hspan sequence hstart hend =>
        hwithin sequence ((hids sequence).mpr ⟨span, .inl hspan, hstart, hend⟩),
      fun span hspan sequence hstart hend =>
        hwithin sequence ((hids sequence).mpr ⟨span, .inr hspan, hstart, hend⟩)⟩
  · rintro ⟨hown, hobject⟩
    have hall : ∀ sequence ∈ itemSequences host lines topic blocks item,
        topic.Has lines sequence := by
      intro sequence hsequence
      obtain ⟨span, hspan | hspan, hstart, hend⟩ := (hids sequence).mp hsequence
      · exact hown span hspan sequence hstart hend
      · exact hobject span hspan sequence hstart hend
    exact ⟨hall, fun sequence hsequence => hall sequence ((hevidence sequence).mp hsequence)⟩

/-- Nothing that an item rests on leaves the topic: not the spans of its evidence, not those of
its object's field where the object rests on them, and not the line that explains a pronoun. -/
structure ItemStays (host : Host) (lines : Int → String) (topic : LocalTopic)
    (blocks : List MicroBlock) (item : AtomicEventLLMItem) : Prop where
  evidence : ∀ span ∈ usedSpans host lines topic item, ¬ topic.Strays host lines span
  object : (itemObject host lines topic blocks item).spans =
      (materializeFieldEvidence host lines item.fieldEvidence topic.sequenceIds).actionObject →
    ∀ field, item.fieldEvidence = some field →
      ∀ span ∈ field.actionObject, ¬ topic.Strays host lines span
  antecedent : (itemObject host lines topic blocks item).grounding = some .localCoreference →
    ∀ span ∈ (itemObject host lines topic blocks item).spans,
      span.sequenceStart ∈ topic.sequenceIds

/-- Every event is within its topic exactly where nothing that an item rests on leaves it. -/
theorem events_within_topic_iff {canonicalize : String → String → Option String}
    {response : List AtomicEventLLMItem} {conversationId : String} :
    (∀ event ∈ materializeEvents host lines canonicalize response topic blocks conversationId,
        event.WithinTopic topic lines) ↔
      ∀ item ∈ response, yieldsEvent host lines topic item = true →
        ItemStays host lines topic blocks item := by
  have hitem : ∀ item, (materializeEvent host lines canonicalize topic blocks conversationId
      item).WithinTopic topic lines ↔ ItemStays host lines topic blocks item := by
    intro item
    rw [materializeEvent_within_iff, itemEvidence_covers_iff, itemObject_covers_iff]
    exact ⟨fun ⟨hevidence, hobject, hantecedent⟩ => ⟨hevidence, hobject, hantecedent⟩,
      fun h => ⟨h.evidence, h.object, h.antecedent⟩⟩
  unfold materializeEvents
  rw [List.forall_mem_map]
  simp only [List.mem_filter, hitem, and_imp]

def deployHost : Host where
  casefold := Text.lower
  casefold_empty := lower_empty
  isWord c := c.isAlphanum || c = '_'
  digest text := text
  cosine _ _ := 0

def deployLines : Int → String
  | 1 => "We deploy on Friday"
  | 2 => "Lunch was late"
  | 3 => "The deploy needs a rollback plan"
  | _ => ""

def deployTopic : LocalTopic := ⟨"T_1", [1, 3]⟩

def deployItem : AtomicEventLLMItem where
  meaning := "The deploy on Friday needs a rollback plan."
  evidence := [⟨1, 3, "We deploy on Friday"⟩]

/-- The event of a span from 1 to 3 has sequence 2, of another topic. -/
theorem span_crosses_other_topic :
    (materializeEvents deployHost deployLines (fun _ _ => none) [deployItem] deployTopic [] "c").map
        AtomicEvent.sequenceIds = [[1, 2, 3]] ∧
      ¬ ∀ event ∈ materializeEvents deployHost deployLines (fun _ _ => none) [deployItem]
        deployTopic [] "c", event.WithinTopic deployTopic deployLines := by
  have hids : (materializeEvents deployHost deployLines (fun _ _ => none) [deployItem] deployTopic
      [] "c").map AtomicEvent.sequenceIds = [[1, 2, 3]] := by decide +kernel
  refine ⟨hids, fun hall => ?_⟩
  obtain ⟨event, hevent, hsequences⟩ := List.mem_map.mp (hids ▸ List.mem_cons_self :
    [1, 2, 3] ∈ (materializeEvents deployHost deployLines (fun _ _ => none) [deployItem]
      deployTopic [] "c").map AtomicEvent.sequenceIds)
  have htwo := ((hall event hevent).1 2 (by rw [hsequences]; decide)).1
  exact absurd htwo (by decide)

end AiBuddy.EventPipeline
