import Mathlib.Data.List.Basic
import Mathlib.Data.List.TakeWhile
import Mathlib.Data.Nat.Digits.Defs

/-!
# JSON texts

The grammar of JSON texts as relations between characters and values, and a decoder that follows
Python's `json.loads`. The numbers `NaN`, `Infinity` and `-Infinity` are read, as Python reads them.
A number with a fraction or an exponent keeps its literal.
-/

namespace Json

mutual

inductive Value
  | null
  | bool (b : Bool)
  | int (n : Int)
  | float (literal : String)
  | str (text : String)
  | arr (items : Items)
  | obj (members : Members)

inductive Items
  | nil
  | cons (head : Value) (tail : Items)

inductive Members
  | nil
  | cons (name : String) (value : Value) (rest : Members)

end

deriving instance DecidableEq for Value, Items, Members

def Members.get? (name : String) : Members → Option Value
  | .nil => none
  | .cons other value rest => (rest.get? name).or (if other = name then some value else none)

def Items.toList : Items → List Value
  | .nil => []
  | .cons head tail => head :: tail.toList

def isBlank (c : Char) : Bool := c = ' ' || c = '\t' || c = '\n' || c = '\r'

def Blank (cs : List Char) : Prop := ∀ c ∈ cs, isBlank c = true

def Digits (cs : List Char) : Prop := cs ≠ [] ∧ ∀ c ∈ cs, c.isDigit = true

/-- `0`, or digits that do not begin with a zero. -/
def IsInteger (cs : List Char) : Prop := cs = ['0'] ∨ Digits cs ∧ cs.head? ≠ some '0'

def IsFraction (cs : List Char) : Prop := cs = [] ∨ ∃ ds, cs = '.' :: ds ∧ Digits ds

def IsSign (cs : List Char) : Prop := cs = [] ∨ cs = ['+'] ∨ cs = ['-']

def IsExponent (cs : List Char) : Prop :=
  cs = [] ∨ ∃ e sign ds, cs = e :: (sign ++ ds) ∧ (e = 'e' ∨ e = 'E') ∧ IsSign sign ∧ Digits ds

def IsNumber (cs : List Char) : Prop :=
  ∃ minus integer fraction exponent, cs = minus ++ (integer ++ (fraction ++ exponent)) ∧
    (minus = [] ∨ minus = ['-']) ∧ IsInteger integer ∧ IsFraction fraction ∧ IsExponent exponent

def intOf : List Char → Int
  | '-' :: ds => -(Nat.ofDigitChars 10 ds 0 : Int)
  | ds => (Nat.ofDigitChars 10 ds 0 : Int)

def numberValue (cs : List Char) : Value :=
  if cs.all (fun c => c.isDigit || c = '-') then .int (intOf cs) else .float (.ofList cs)

def literals : List (List Char × Value) :=
  [("null".toList, .null), ("true".toList, .bool true), ("false".toList, .bool false),
    ("NaN".toList, .float "NaN"), ("Infinity".toList, .float "Infinity"),
    ("-Infinity".toList, .float "-Infinity")]

def escapeOf (c : Char) : Option Char :=
  match c with
  | '"' => some '"'
  | '\\' => some '\\'
  | '/' => some '/'
  | 'b' => some '\x08'
  | 'f' => some '\x0c'
  | 'n' => some '\n'
  | 'r' => some '\r'
  | 't' => some '\t'
  | _ => none

def hexDigit (c : Char) : Option Nat :=
  if c.isDigit then some (c.toNat - 48)
  else if 'a' ≤ c ∧ c ≤ 'f' then some (c.toNat - 87)
  else if 'A' ≤ c ∧ c ≤ 'F' then some (c.toNat - 55)
  else none

def hexOf (a b c d : Char) : Option Nat :=
  (hexDigit a).bind fun a => (hexDigit b).bind fun b => (hexDigit c).bind fun c =>
    (hexDigit d).map fun d => ((a * 16 + b) * 16 + c) * 16 + d

inductive Body : List Char → List Nat → Prop
  | nil : Body [] []
  | plain {c : Char} {cs : List Char} {units : List Nat} (hquote : c ≠ '"') (hslash : c ≠ '\\')
      (hcontrol : 32 ≤ c.toNat) : Body cs units → Body (c :: cs) (c.toNat :: units)
  | escape {e c : Char} {cs : List Char} {units : List Nat} (h : escapeOf e = some c) :
      Body cs units → Body ('\\' :: e :: cs) (c.toNat :: units)
  | unicode {a b c d : Char} {cs : List Char} {unit : Nat} {units : List Nat}
      (h : hexOf a b c d = some unit) :
      Body cs units → Body ('\\' :: 'u' :: a :: b :: c :: d :: cs) (unit :: units)

/-- The text of code units: a surrogate pair is one character, a lone surrogate is replaced. -/
def joinUnits : List Nat → List Char
  | high :: low :: units =>
    if 0xd800 ≤ high ∧ high < 0xdc00 ∧ 0xdc00 ≤ low ∧ low < 0xe000 then
      .ofNat (0x10000 + (high - 0xd800) * 0x400 + (low - 0xdc00)) :: joinUnits units
    else (if 0xd800 ≤ high ∧ high < 0xe000 then '\ufffd' else .ofNat high) :: joinUnits
      (low :: units)
  | [unit] => [if 0xd800 ≤ unit ∧ unit < 0xe000 then '\ufffd' else .ofNat unit]
  | [] => []

def textOf (units : List Nat) : String := .ofList (joinUnits units)

mutual

/-- The characters are a JSON text of the value, without white space around it. -/
inductive Renders : List Char → Value → Prop
  | literal {cs : List Char} {v : Value} (h : (cs, v) ∈ literals) : Renders cs v
  | number {cs : List Char} (h : IsNumber cs) : Renders cs (numberValue cs)
  | string {body : List Char} {units : List Nat} (h : Body body units) :
      Renders ('"' :: (body ++ ['"'])) (.str (textOf units))
  | emptyArray {blank : List Char} (h : Blank blank) : Renders ('[' :: (blank ++ [']'])) (.arr .nil)
  | array {cs : List Char} {items : Items} (h : RendersItems cs items) :
      Renders ('[' :: (cs ++ [']'])) (.arr items)
  | emptyObject {blank : List Char} (h : Blank blank) : Renders ('{' :: (blank ++ ['}']))
    (.obj .nil)
  | object {cs : List Char} {members : Members} (h : RendersMembers cs members) :
      Renders ('{' :: (cs ++ ['}'])) (.obj members)

inductive RendersItems : List Char → Items → Prop
  | last {before cs after : List Char} {v : Value} (hbefore : Blank before) (h : Renders cs v)
      (hafter : Blank after) : RendersItems (before ++ (cs ++ after)) (.cons v .nil)
  | more {before cs after rest : List Char} {v : Value} {items : Items} (hbefore : Blank before)
      (h : Renders cs v) (hafter : Blank after) (hrest : RendersItems rest items) :
      RendersItems (before ++ (cs ++ (after ++ ',' :: rest))) (.cons v items)

/-- The characters are the members of an object, with commas between them. -/
inductive RendersMembers : List Char → Members → Prop
  | last {before name colon between cs after : List Char} {units : List Nat} {v : Value}
      (hbefore : Blank before) (hname : Body name units) (hcolon : Blank colon)
      (hbetween : Blank between) (h : Renders cs v) (hafter : Blank after) :
      RendersMembers (before ++ ('"' :: (name ++ '"' :: (colon ++ ':' :: (between ++
        (cs ++ after)))))) (.cons (textOf units) v .nil)
  | more {before name colon between cs after rest : List Char} {units : List Nat} {v : Value}
      {members : Members} (hbefore : Blank before) (hname : Body name units) (hcolon : Blank colon)
      (hbetween : Blank between) (h : Renders cs v) (hafter : Blank after)
      (hrest : RendersMembers rest members) :
      RendersMembers (before ++ ('"' :: (name ++ '"' :: (colon ++ ':' :: (between ++
        (cs ++ (after ++ ',' :: rest))))))) (.cons (textOf units) v members)

end

def skipBlank (cs : List Char) : List Char := cs.dropWhile isBlank

/-- `0`, or the digits, of an integer. -/
def integer? (cs : List Char) : Option (List Char × List Char) :=
  match cs with
  | '0' :: rest => some (['0'], rest)
  | c :: _ => if c.isDigit then some (cs.takeWhile Char.isDigit, cs.dropWhile Char.isDigit)
    else none
  | [] => none

def fraction (cs : List Char) : List Char × List Char :=
  match cs with
  | '.' :: rest =>
    if rest.takeWhile Char.isDigit = [] then ([], cs)
    else ('.' :: rest.takeWhile Char.isDigit, rest.dropWhile Char.isDigit)
  | _ => ([], cs)

def sign (cs : List Char) : List Char × List Char :=
  match cs with
  | c :: rest => if c = '+' ∨ c = '-' then ([c], rest) else ([], cs)
  | [] => ([], [])

def exponent (cs : List Char) : List Char × List Char :=
  match cs with
  | e :: rest =>
    let signed := sign rest
    if (e = 'e' ∨ e = 'E') ∧ signed.2.takeWhile Char.isDigit ≠ [] then
      (e :: (signed.1 ++ signed.2.takeWhile Char.isDigit), signed.2.dropWhile Char.isDigit)
    else ([], cs)
  | [] => ([], [])

def minus (cs : List Char) : List Char × List Char :=
  match cs with
  | '-' :: rest => (['-'], rest)
  | _ => ([], cs)

def number? (cs : List Char) : Option (List Char × List Char) :=
  (integer? (minus cs).2).map fun int =>
    ((minus cs).1 ++ (int.1 ++ ((fraction int.2).1 ++ (exponent (fraction int.2).2).1)),
      (exponent (fraction int.2).2).2)

def literal? (cs : List Char) : Option (Value × List Char) :=
  (literals.find? fun literal => literal.1.isPrefixOf cs).map fun literal =>
    (literal.2, cs.drop literal.1.length)

def body? : List Char → Option (List Nat × List Char)
  | [] => none
  | '"' :: cs => some ([], cs)
  | '\\' :: 'u' :: a :: b :: c :: d :: cs =>
    (hexOf a b c d).bind fun unit => (body? cs).map fun rest => (unit :: rest.1, rest.2)
  | '\\' :: e :: cs =>
    (escapeOf e).bind fun c => (body? cs).map fun rest => (c.toNat :: rest.1, rest.2)
  | c :: cs =>
    if c.toNat < 32 ∨ c = '\\' then none
    else (body? cs).map fun rest => (c.toNat :: rest.1, rest.2)

mutual

def value? : Nat → List Char → Option (Value × List Char)
  | 0, _ => none
  | fuel + 1, cs =>
    match cs with
    | '"' :: cs => (body? cs).map fun body => (.str (textOf body.1), body.2)
    | '[' :: cs =>
      match skipBlank cs with
      | ']' :: rest => some (.arr .nil, rest)
      | _ => (items? fuel cs).map fun items => (.arr items.1, items.2)
    | '{' :: cs =>
      match skipBlank cs with
      | '}' :: rest => some (.obj .nil, rest)
      | _ => (members? fuel cs).map fun members => (.obj members.1, members.2)
    | cs => (literal? cs).or ((number? cs).map fun number => (numberValue number.1, number.2))

def items? : Nat → List Char → Option (Items × List Char)
  | 0, _ => none
  | fuel + 1, cs =>
    (value? fuel (skipBlank cs)).bind fun found =>
      match skipBlank found.2 with
      | ',' :: rest => (items? fuel rest).map fun items => (.cons found.1 items.1, items.2)
      | ']' :: rest => some (.cons found.1 .nil, rest)
      | _ => none

def members? : Nat → List Char → Option (Members × List Char)
  | 0, _ => none
  | fuel + 1, cs =>
    match skipBlank cs with
    | '"' :: cs =>
      (body? cs).bind fun name =>
        match skipBlank name.2 with
        | ':' :: cs =>
          (value? fuel (skipBlank cs)).bind fun found =>
            match skipBlank found.2 with
            | ',' :: rest =>
              (members? fuel rest).map fun members =>
                (.cons (textOf name.1) found.1 members.1, members.2)
            | '}' :: rest => some (.cons (textOf name.1) found.1 .nil, rest)
            | _ => none
        | _ => none
    | _ => none

end

/-- Python `json.loads(text)` on characters; `none` is a `JSONDecodeError`. -/
def loads (cs : List Char) : Option Value :=
  if cs.head? = some '\ufeff' then none
  else
    (value? (2 * cs.length + 1) (skipBlank cs)).bind fun found =>
      if skipBlank found.2 = [] then some found.1 else none

example : loads "\x7b\"a\": [1, -2.50e1], \"b\" : \"\\u00e9\\n\"\x7d".toList =
    some (.obj (.cons "a" (.arr (.cons (.int 1) (.cons (.float "-2.50e1") .nil)))
      (.cons "b" (.str "é\n") .nil))) := by decide +kernel

end Json
