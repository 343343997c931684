import Mathlib.Algebra.Field.Rat
import Mathlib.Algebra.Order.Ring.Unbundled.Rat
import AiBuddy.Conversation.Artifacts

/-!
# Text helpers of the event pipeline

`services/conversation/event_pipeline/textutil.py`. A token set is a list without duplicates,
and a similarity is an exact fraction. A missing embedding is the empty one, as the source
treats them alike.
-/

namespace AiBuddy.EventPipeline

open Conversation

/-- What the host's libraries compute: `str.casefold`, the class `\w`, the first 16 hexadecimal
digits of SHA-256, and the quotient of `cosine_similarity` with its square root. -/
structure Host where
  casefold : String → String
  casefold_empty : casefold "" = ""
  isWord : Char → Bool
  digest : String → String
  cosine : List Rat → List Rat → Rat

theorem lower_empty : Text.lower "" = "" := rfl

variable (host : Host)

def orText (first second : String) : String := if first = "" then second else first

def stopWords : List String :=
  Text.fields ("a an the and or to of in on for with from is are was were be been being " ++
    "it this that these those we you they i he she them our your their " ++
    "ka ki ke hai hain ho hoga hogi tha thi the mein me se ko par bhi toh " ++
    "ya aur ok hmm uh um yeah yes no na haan theek wait so then but if not " ++
    "just like also only very more some any can will would should could")

def normalizeText (text : String) : String := Text.strip (Text.collapseSpaces text)

def casefoldText (text : String) : String := host.casefold (normalizeText text)

/-- The two classes of `_TOKEN_RE`. -/
def tokenClass (c : Char) : Option Bool :=
  if c.isAlphanum then some true
  else if 0x900 ≤ c.toNat ∧ c.toNat ≤ 0x97f then some false
  else none

def tokenize (text : String) : List String :=
  ((text.toList.splitBy fun c d => tokenClass c = tokenClass d).filter
    (fun run => run.any fun c => (tokenClass c).isSome)).map String.ofList

def contentTokens (text : String) : List String :=
  (tokenize text).filter fun token => host.casefold token ∉ stopWords ∧ 1 < token.length

/-- `{token.casefold() for token in content_tokens(text)}`. -/
def tokenSet (text : String) : List String :=
  ((contentTokens host text).map host.casefold).eraseDups

def jaccard (left right : List String) : Rat :=
  if left = [] ∨ right = [] then 0
  else (left.filter (· ∈ right)).length /
    (left.length + (right.filter (· ∉ left)).length : Nat)

def tokenJaccard (left right : String) : Rat := jaccard (tokenSet host left) (tokenSet host right)

def cosineSimilarity (left right : List Rat) : Rat :=
  if left = [] ∨ right = [] ∨ left.length ≠ right.length then 0 else host.cosine left right

/-- `mean_vector(vectors)`. Vectors of another length than the first are left
out. -/
def meanVector (vectors : List (List Rat)) : List Rat :=
  match vectors.filter (· ≠ []) with
  | [] => []
  | first :: rest =>
    let usable := first :: rest.filter (fun vector => vector.length = first.length)
    (List.range first.length).map fun i =>
      (usable.map fun vector => vector.getD i 0).sum / usable.length

def stableId (label : String) (parts : List String) : String :=
  label ++ "_" ++ host.digest ("|".intercalate (parts.map (casefoldText host)))

/-- The three shapes of `_ENTITY_RE`; `S3`, `GPT` and `OpenCV` have one of
them. -/
def isEntityShape (run : String) : Bool :=
  let chars := run.toList
  let acronym :=
    2 ≤ (chars.takeWhile Char.isUpper).length && (chars.dropWhile Char.isUpper).all Char.isDigit
  let camel :=
    match chars with
    | first :: rest =>
      first.isUpper && (rest.takeWhile Char.isLower).length ≠ 0 &&
        (match rest.dropWhile Char.isLower with
        | next :: tail => next.isUpper && tail.all Char.isAlphanum
        | [] => false)
    | [] => false
  let numbered :=
    (chars.takeWhile Char.isAlpha).length ≠ 0 &&
      (match chars.dropWhile Char.isAlpha with
      | next :: tail => next.isDigit && tail.all Char.isAlphanum
      | [] => false)
  acronym || camel || numbered

/-- `str.isdigit` for one character of a token. -/
def isDigitChar (c : Char) : Bool := c.isDigit || (0x966 ≤ c.toNat && c.toNat ≤ 0x96f)

/-- `extract_entities(text)`. A match of `_ENTITY_RE` is a whole run of `\w`. -/
def extractEntities (text : String) : List String :=
  let value := normalizeText text
  let collect := fun (skip : String → Bool) (found : List String × List String) (item : String) =>
    if host.casefold item ∈ found.2 ∨ skip item then found
    else (found.1 ++ [item], host.casefold item :: found.2)
  let entities := ((Text.runs host.isWord value).filter isEntityShape).foldl
    (collect fun item => host.casefold item ∈ stopWords) ([], [])
  ((contentTokens host value).foldl
    (collect fun token => token.toList.all isDigitChar ||
      !((token.toList.take 1).any Char.isUpper || token.toList.any isDigitChar)) entities).1

def spanSequences (span : EvidenceSpan) : List Int :=
  (List.range (span.sequenceEnd + 1 - span.sequenceStart).toNat).map fun i : Nat =>
    span.sequenceStart + i

def evidenceSequenceIds (evidence : List EvidenceSpan) : List Int :=
  (evidence.flatMap spanSequences).eraseDups

theorem mem_spanSequences {span : EvidenceSpan} {sequence : Int} :
    sequence ∈ spanSequences span ↔
      span.sequenceStart ≤ sequence ∧ sequence ≤ span.sequenceEnd := by
  unfold spanSequences
  rw [List.mem_map]
  constructor
  · rintro ⟨i, hi, rfl⟩
    have := List.mem_range.mp hi
    omega
  · rintro ⟨hstart, hend⟩
    exact ⟨(sequence - span.sequenceStart).toNat, List.mem_range.mpr (by omega), by omega⟩

theorem mem_evidenceSequenceIds {evidence : List EvidenceSpan} {sequence : Int} :
    sequence ∈ evidenceSequenceIds evidence ↔
      ∃ span ∈ evidence, span.sequenceStart ≤ sequence ∧ sequence ≤ span.sequenceEnd := by
  simp only [evidenceSequenceIds, List.mem_eraseDups, List.mem_flatMap, mem_spanSequences]

end AiBuddy.EventPipeline
