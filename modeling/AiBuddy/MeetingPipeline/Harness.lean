import AiBuddy.EventPipeline.TextUtil
import AiBuddy.Misc.Pattern

/-!
# Text helpers of the meeting harness

`services/conversation/meeting_pipeline/harness.py`: cleaned texts, topics, and the token statistics
of a meeting.
-/

namespace AiBuddy.MeetingPipeline

open EventPipeline

def cleanInline (text : String) : String := " ".intercalate (Text.fields text)

/-- The class of `_INLINE_SPACE_RE`. -/
def isInlineSpace (c : Char) : Bool :=
  c = ' ' || c = '\t' || c = '\x0c' || c = '\x0b' || c = '\u00a0'

/-- `_INLINE_SPACE_RE.sub(" ", text)`; the flag says that the last character was such a space. -/
def squeezeInline : Bool → List Char → List Char
  | _, [] => []
  | afterSpace, c :: cs =>
    if isInlineSpace c then
      if afterSpace then squeezeInline true cs else ' ' :: squeezeInline true cs
    else c :: squeezeInline false cs

/-- `text.replace("\r\n", "\n").replace("\r", "\n")`. -/
def unixNewlines : List Char → List Char
  | '\r' :: '\n' :: cs => '\n' :: unixNewlines cs
  | '\r' :: cs => '\n' :: unixNewlines cs
  | c :: cs => c :: unixNewlines cs
  | [] => []

/-- The bullet characters of `_BULLET_RE`. -/
def bulletChars : List Char := ['-', '*', '•', '·', '▪', '◦', '‣', 'o']

/-- What follows the marker that `_BULLET_RE` finds at the start of a line. -/
def afterBullet? (line : List Char) : Option (List Char) :=
  let marked := line.dropWhile Text.isSpace
  let rest := match marked with
    | c :: cs => if c ∈ bulletChars then some cs else none
    | [] => none
  let numbered := match marked.takeWhile Char.isDigit, marked.dropWhile Char.isDigit with
    | _ :: _, c :: cs => if c = '.' ∨ c = ')' then some cs else none
    | _, _ => none
  (rest.or numbered).bind fun cs =>
    match cs with
    | c :: _ => if Text.isSpace c then some (cs.dropWhile Text.isSpace) else none
    | [] => none

/-- The body of the loop of `clean_multiline`: the lines so far, and whether the
last one was blank. -/
def cleanLine (state : List String × Bool) (raw : String) : List String × Bool :=
  let line := Text.strip (.ofList (squeezeInline false raw.toList))
  if line = "" then
    (if state.1 ≠ [] ∧ state.2 = false then state.1 ++ [""] else state.1, true)
  else
    let shown := match afterBullet? line.toList with
      | some rest => "- " ++ Text.strip (.ofList rest)
      | none => line
    (state.1 ++ [shown], false)

def cleanMultiline (text : String) : String :=
  let raw := Text.split '\n' (.ofList (unixNewlines text.toList))
  let lines := (raw.foldl cleanLine ([], false)).1
  "\n".intercalate (lines.reverse.dropWhile (· = "")).reverse

example : cleanMultiline "Plan:\r\n\r\n\r\n  1)  ship\tit \r\n• test\n\n" =
    "Plan:\n\n- ship it\n- test" := by decide

variable (host : Host)

def stripOf (margins : List Char) (text : String) : String :=
  let inner := text.toList.dropWhile (· ∈ margins)
  .ofList (inner.reverse.dropWhile (· ∈ margins)).reverse

def topicMargins : List Char := [' ', '.', ':', ';', ',', '-', '–', '—']

def orNone (text : String) : Option String := if text = "" then none else some text

def normalizeTopic (value : Option String) : Option String :=
  orNone (Text.take 80 (stripOf topicMargins (cleanInline (value.getD ""))))

def topicKey (value : Option String) : String :=
  " ".intercalate
    ((tokenSet host ((normalizeTopic value).getD "")).insertionSort fun a b => a ≤ b)

def sameTopic (left right : Option String) : Bool :=
  let a := topicKey host left
  let b := topicKey host right
  if a = "" ∨ b = "" then false
  else if a = b then true
  else
    let leftSet := (Text.fields a).eraseDups
    let rightSet := (Text.fields b).eraseDups
    let smaller := min leftSet.length rightSet.length
    2 ≤ smaller ∧ (8 / 10 : Rat) ≤ ((leftSet.filter (· ∈ rightSet)).length : Rat) / smaller

/-- `TokenProfile`: the token sets of the texts. -/
structure TokenProfile where
  docs : List (List String)
deriving DecidableEq

/-- `TokenProfile(texts)`. -/
def TokenProfile.ofTexts (texts : List String) : TokenProfile :=
  ⟨(texts.filter (· ≠ "")).map (tokenSet host)⟩

/-- `token in self.generic`, `:127`. -/
def TokenProfile.isGeneric (profile : TokenProfile) (token : String) : Bool :=
  max 3 (profile.docs.length / 5) ≤ profile.docs.countP (token ∈ ·)

def isSpeakerToken (token : String) : Bool :=
  ["speaker", "spk", "participant"].any fun label =>
    (Text.dropLetters label.toList token.toList).any (·.all isDigitChar)

def isDigits (token : String) : Bool := token ≠ "" ∧ token.toList.all isDigitChar

def TokenProfile.distinctive (profile : TokenProfile) (text : String) : List String :=
  (tokenSet host text).filter fun token =>
    !profile.isGeneric token && !isDigits token && !isSpeakerToken token

def TokenProfile.jaccard (profile : TokenProfile) (left right : String) : Rat :=
  EventPipeline.jaccard (profile.distinctive host left) (profile.distinctive host right)

end AiBuddy.MeetingPipeline
