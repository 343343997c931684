import AiBuddy.Llm.JsonText

/-!
# Assistant messages

`services/llm/openai_compatible.py`: the text that `generate` takes from the message of a provider's
reply. The conversions of Python's runtime are a parameter.
-/

namespace AiBuddy.Llm

open Json (Value Items Members)

structure Python where
  /-- `str(value)` of a value that is not a string. -/
  str : Value → String
  /-- `json.dumps(value, ensure_ascii=False)` of a dict. -/
  dumps : Members → String
  casefold : String → String
  isZero : String → Bool
  /-- `int(value)`; `none` where it raises. -/
  int : Value → Option Int

variable (python : Python)

def Python.text : Value → String
  | .str text => text
  | value => python.str value

def Python.truthy : Value → Bool
  | .null => false
  | .bool b => b
  | .int n => n ≠ 0
  | .float literal => !python.isZero literal
  | .str text => text ≠ ""
  | .arr items => items ≠ .nil
  | .obj members => members ≠ .nil

def Python.or (value other : Value) : Value := if python.truthy value then value else other

def get (members : Members) (name : String) : Value := (members.get? name).getD .null

/-- The entry of a name, as `dict.get` finds it, with its truth and its texts. -/
def entryOf (name : String) : List (String × Bool × List String) → Bool × List String
  | [] => (false, [])
  | (other, entry) :: rest =>
    if rest.any (·.1 = name) then entryOf name rest
    else if other = name then entry else (false, [])

mutual

def flattenChunkText : Value → List String
  | .null => []
  | .str text => if text = "" then [] else [text]
  | .arr items => flattenItems items
  | .obj members =>
    let entries := flattenMembers members
    if (entryOf "text" entries).1 then (entryOf "text" entries).2
    else if (entryOf "content" entries).1 then (entryOf "content" entries).2
    else (entryOf "thinking" entries).2
  | value => [python.str value]

def flattenItems : Items → List String
  | .nil => []
  | .cons head tail => flattenChunkText head ++ flattenItems tail

/-- What `_flatten_chunk_text` gives for each member. -/
def flattenMembers : Members → List (String × Bool × List String)
  | .nil => []
  | .cons name value rest =>
    (name, python.truthy value, flattenChunkText value) :: flattenMembers rest

end

mutual

/-- `_split_content_chunks(content)`: answers and thinking. -/
def splitContentChunks : Value → List String × List String
  | .null => ([], [])
  | .str text => (if text = "" then [] else [text], [])
  | .arr items => splitItems items
  | .obj members =>
    let kind := python.casefold (python.text (python.or (get members "type") (.str "")))
    if kind ∈ ["thinking", "reasoning", "think"] then
      ([], flattenChunkText python (python.or (get members "thinking")
        (python.or (get members "text") (get members "content"))))
    else
      (flattenChunkText python ((members.get? "text").getD (get members "content")), [])
  | value => ([python.str value], [])

def splitItems : Items → List String × List String
  | .nil => ([], [])
  | .cons head tail =>
    ((splitContentChunks head).1 ++ (splitItems tail).1,
      (splitContentChunks head).2 ++ (splitItems tail).2)

end

/-- The texts of one item of `_reasoning_detail_texts`. -/
def detailTexts : Value → List String
  | .obj item =>
    let text := python.or (get item "text") (python.or (get item "content") (get item "summary"))
    if python.truthy text then [python.text text] else []
  | item => if python.truthy item then [python.text item] else []

def reasoningDetailTexts (message : Members) : List String :=
  match get message "reasoning_details" with
  | .arr items => items.toList.flatMap (detailTexts python)
  | _ => []

/-- The text of one call of `_tool_call_argument_texts`; `none` where it raises, for a `function`
that is not a dict. -/
def callTexts : Value → Option (List String)
  | .obj call =>
    match python.or (get call "function") (.obj .nil) with
    | .obj function =>
      match get function "arguments" with
      | .obj arguments => some [python.dumps arguments]
      | arguments => some (if python.truthy arguments then [python.text arguments] else [])
    | _ => none
  | _ => some []

/-- `_tool_call_argument_texts(message)`. The characters of a string and
the keys of a dict are no calls; a number cannot be iterated. -/
def toolCallArgumentTexts (message : Members) : Option (List String) :=
  match python.or (get message "tool_calls") (.arr .nil) with
  | .arr items => (items.toList.mapM (callTexts python)).map List.flatten
  | .str _ => some []
  | .obj _ => some []
  | _ => none

/-- `reasoning_source` of `_assistant_message_text`. -/
def reasoningSource (message : Members) : Value :=
  if get message "reasoning_content" ∈ [.null, .str ""] then get message "reasoning"
  else get message "reasoning_content"

/-- The answers and the thinking of `content` and of the reasoning, in the order of their use. -/
def spokenTexts (message : Members) : List String :=
  let content := splitContentChunks python (get message "content")
  let reasoning := splitContentChunks python (reasoningSource message)
  content.1 ++ reasoning.1 ++ content.2 ++ reasoning.2

def messageParts (message : Members) (arguments : List String) : List String :=
  spokenTexts python message ++ reasoningDetailTexts python message ++ arguments

def candidatesOf (parts : List String) : List (List Char) :=
  ((parts.filter (· ≠ "")).map fun part => sanitizeJsonText part.toList).filter (· ≠ [])

def jsonIn (candidate : List Char) : Option (List Char) :=
  if (Json.loads candidate).isSome then some candidate
  else (extractJsonObject candidate).filter fun extracted => (Json.loads extracted).isSome

def hasText (raw : String) : Bool := Text.strip raw ≠ ""

/-- `_assistant_message_text(message)`; `none` where it raises. -/
def assistantMessageText (message : Members) : Option String :=
  (toolCallArgumentTexts python message).map fun arguments =>
    let candidates := candidatesOf (messageParts python message arguments)
    ((candidates.findSome? jsonIn).map String.ofList).or
      (((candidates.findSome? closeTruncatedJson).map String.ofList).or
        ((arguments.find? hasText).or ((spokenTexts python message).find? hasText))) |>.getD ""

/-- The failure reasons of `schema_adapter.py:9`. -/
inductive FailureReason
  | quotaUnavailable
  | rateLimited
  | httpError
  | structuredSchemaUnsupported
  | malformedJson
  | schemaValidationFailed
  | schemaEcho
  | incompleteStructuredOutput
  | providerTimeout
  | asyncLifecycleError
  deriving DecidableEq

/-- What `generate` can raise: an `LLMProviderError`, with the reason that `classify_llm_failure`
finds, or another exception. -/
inductive CallError
  | provider (reason : FailureReason)
  | raised
  deriving DecidableEq

structure LLMResponse where
  content : String
  promptTokens : Int
  completionTokens : Int
  totalTokens : Int
  finishReason : Option String
  deriving DecidableEq

/-- `value.get(name) or {}`, where the next step needs a dict. -/
def dictAt (members : Members) (name : String) : Except CallError Members :=
  match python.or (get members name) (.obj .nil) with
  | .obj value => .ok value
  | _ => .error .raised

/-- The data of a reply and `choices[0]`, `:131`. -/
def choiceOf (reply : Value) : Except CallError (Members × Members) :=
  match reply with
  | .obj data =>
    if python.truthy (get data "error") then .error (.provider .httpError)
    else
      match python.or (get data "choices") (.arr .nil) with
      | .arr (.cons (.obj choice) _) => .ok (data, choice)
      | .arr (.cons _ _) => .ok (data, .nil)
      | .arr .nil => .error (.provider .httpError)
      | .str _ => .ok (data, .nil)
      | _ => .error .raised
  | _ => .error .raised

/-- `int(usage.get(name) or 0)`. -/
def countAt (usage : Members) (name : String) : Except CallError Int :=
  match python.int (python.or (get usage name) (.int 0)) with
  | some count => .ok count
  | none => .error .raised

/-- The response that `generate` builds, `:142`. -/
def responseOf (data choice : Members) (content : String) : Except CallError LLMResponse :=
  let finish := python.text (python.or (get choice "finish_reason") (.str ""))
  if !hasText content && finish ∉ ["tool_calls", "function_call"] then
    .error (.provider .httpError)
  else do
    let usage ← dictAt python data "usage"
    let promptTokens ← countAt python usage "prompt_tokens"
    let completionTokens ← countAt python usage "completion_tokens"
    let totalTokens ← countAt python usage "total_tokens"
    .ok { content, promptTokens, completionTokens, totalTokens,
          finishReason := if finish = "" then none else some finish }

def messageOf (reply : Value) : Except CallError Members := do
  let (_, choice) ← choiceOf python reply
  dictAt python choice "message"

/-- `OpenAICompatibleProvider.generate` from the decoded reply on. -/
def generate (reply : Value) : Except CallError LLMResponse := do
  let (data, choice) ← choiceOf python reply
  let message ← dictAt python choice "message"
  match assistantMessageText python message with
  | some content => responseOf python data choice content
  | none => .error .raised

end AiBuddy.Llm
