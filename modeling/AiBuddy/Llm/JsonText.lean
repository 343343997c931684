import AiBuddy.Misc.Json
import AiBuddy.Misc.Pattern

/-!
# The JSON text of an answer

`services/llm/openai_compatible.py`: how the text of a model's answer is cleaned, how an object is
found in it, and how a text that was cut off is closed. A text is its list of characters.
-/

namespace AiBuddy.Llm

/-- `<think>[\s\S]*?</think>` at the start of a text. -/
def thinkSpan? : List Char → Option (List Char) :=
  Text.span? (Text.dropLetters "<think>".toList) (Text.dropLetters "</think>".toList)

/-- `(?:redacted_)?reasoning\|?>`. -/
def reasoningName? (cs : List Char) : Option (List Char) :=
  (Text.dropLetters "reasoning".toList (Text.dropOptional "redacted_".toList cs)).bind fun named =>
    Text.dropLetters ['>'] (Text.dropOne (· = '|') named)

/-- `<\|?(?:redacted_)?reasoning\|?>`. -/
def reasoningOpening? (cs : List Char) : Option (List Char) :=
  (Text.dropLetters ['<'] cs).bind fun cs => reasoningName? (Text.dropOne (· = '|') cs)

/-- `<\|?/(?:redacted_)?reasoning\|?>`. -/
def reasoningClosing? (cs : List Char) : Option (List Char) :=
  (Text.dropLetters ['<'] cs).bind fun cs =>
    (Text.dropLetters ['/'] (Text.dropOne (· = '|') cs)).bind reasoningName?

def reasoningSpan? : List Char → Option (List Char) :=
  Text.span? reasoningOpening? reasoningClosing?

/-- The group of "```(?:json)?\s*([\s\S]*?)```" at the start of a text. -/
def fenceAt? (cs : List Char) : Option (List Char) :=
  (Text.dropLetters "```".toList cs).bind fun opened =>
    (Text.until? (Text.dropLetters "```".toList)
      ((Text.dropOptional "json".toList opened).dropWhile Text.isSpace)).map (·.1)

def removePrefix (front cs : List Char) : List Char :=
  if front.isPrefixOf cs then cs.drop front.length else cs

def removeSuffix (back cs : List Char) : List Char :=
  if back.isSuffixOf cs then cs.take (cs.length - back.length) else cs

/-- The class `[\x00-\x08\x0b\x0c\x0e-\x1f]`. -/
def isControl (c : Char) : Bool :=
  c.toNat ≤ 8 || c.toNat = 11 || c.toNat = 12 || (14 ≤ c.toNat && c.toNat ≤ 31)

def unfenced (cs : List Char) : List Char :=
  match Text.search? fenceAt? cs with
  | some group => Text.trim group
  | none =>
    Text.trim (removeSuffix "```".toList
      (removePrefix "```".toList (removePrefix "```json".toList cs)))

def sanitizeJsonText (content : List Char) : List Char :=
  (unfenced (Text.removeMatches reasoningSpan?
    (Text.removeMatches thinkSpan? (Text.trim content)))).filter fun c => !isControl c

/-- Where a scan stands: `in_string` and `escaped`. -/
inductive Place
  | outside
  | inString
  | escaped
  deriving DecidableEq

def Place.next : Place → Char → Place
  | .outside, c => if c = '"' then .inString else .outside
  | .inString, c => if c = '\\' then .escaped else if c = '"' then .outside else .inString
  | .escaped, _ => .inString

def depthAfter (depth : Nat) : Place → Char → Nat
  | .outside, c => if c = '{' then depth + 1 else if c = '}' then depth - 1 else depth
  | _, _ => depth

/-- The loop of `_extract_json_object`, up to the brace that closes. -/
def objectFrom (depth : Nat) (place : Place) : List Char → Option (List Char)
  | [] => none
  | c :: cs =>
    if place = .outside ∧ c = '}' ∧ depth - 1 = 0 then some [c]
    else (objectFrom (depthAfter depth place c) (place.next c) cs).map (c :: ·)

def extractJsonObject (content : List Char) : Option (List Char) :=
  objectFrom 0 .outside (content.dropWhile (· ≠ '{'))

/-- The brackets to come after a character, the innermost first; `none` where one does not fit. -/
def stackAfter (stack : List Char) : Place → Char → Option (List Char)
  | .outside, c =>
    if c = '{' then some ('}' :: stack)
    else if c = '[' then some (']' :: stack)
    else if c = '}' ∨ c = ']' then if stack.head? = some c then some stack.tail else none
    else some stack
  | _, _ => some stack

def openBrackets (stack : List Char) (place : Place) : List Char → Option (List Char × Place)
  | [] => some (stack, place)
  | c :: cs => (stackAfter stack place c).bind fun stack => openBrackets stack (place.next c) cs

/-- `re.sub(r",\s*$", "", text)`. -/
def dropTrailingComma (cs : List Char) : List Char :=
  if (Text.trimEnd cs).getLast? = some ',' then (Text.trimEnd cs).dropLast else cs

def closeString : Place → List Char
  | .outside => []
  | .inString => ['"']
  | .escaped => ['\\', '"']

def closeTruncatedJson (content : List Char) : Option (List Char) :=
  let snippet := content.dropWhile (· ≠ '{')
  if snippet = [] then none
  else
    (openBrackets [] .outside snippet).bind fun (stack, place) =>
      let repaired := dropTrailingComma (snippet ++ closeString place) ++ stack
      if (Json.loads repaired).isSome then some repaired else none

/-- The payload of `_load_json_payload(content)`. -/
def loadJsonPayload (content : List Char) : Option Json.Value :=
  (Json.loads content).or
    (((extractJsonObject content).or (closeTruncatedJson content)).bind Json.loads)

example : sanitizeJsonText "<think>a</THINK> ```json\n\x7b\"a\": 1\x7d\n```".toList =
    "\x7b\"a\": 1\x7d".toList := by decide +kernel

example : closeTruncatedJson "x \x7b\"a\": [1, \x7b\"b\": \"c, \\".toList =
    some "\x7b\"a\": [1, \x7b\"b\": \"c, \\\\\"\x7d]\x7d".toList := by decide +kernel

end AiBuddy.Llm
