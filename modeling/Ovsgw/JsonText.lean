/-
  **JSON as text** (`lib/json.c`): `json_to_string`, the character-level lexer,
  the pushdown parser behind it, and `json_equal`.

  The two conversions between a `double` and its decimal text belong to the C
  library and are parameters here.
-/
import Ovsgw.CString
import Ovsgw.Uuid
import Mathlib.Data.List.Sort

namespace Ovsgw

/-! ## 1. Reals -/

/-- `%.*g` with `DBL_DIG` and `str_to_double`, on the bits of a `double`. -/
structure Doubles where
  format : BitVec 64 → List Char
  strToDouble : List Char → Option (BitVec 64)

/-! ## 2. The serializer -/

structure SerializeFlags where
  pretty : Bool := false
  sort : Bool := false
deriving DecidableEq

def charsEscaping (c : Char) : List Char :=
  if c = '\x08' then ['\\', 'b']
  else if c = '\t' then ['\\', 't']
  else if c = '\n' then ['\\', 'n']
  else if c = '\x0c' then ['\\', 'f']
  else if c = '\r' then ['\\', 'r']
  else if c.toNat < 0x20 then '\\' :: 'u' :: hexits 4 c.toNat
  else if c = '"' then ['\\', '"']
  else if c = '\\' then ['\\', '\\']
  else [c]

def jsonSerializeString (s : List Char) : List Char :=
  '"' :: (cstr s).flatMap charsEscaping ++ ['"']

def spacesPerLevel : Nat := 2

def indentLine (f : SerializeFlags) (depth : Nat) : List Char :=
  if f.pretty then '\n' :: List.replicate (spacesPerLevel * depth) ' ' else []

/-- `shash_sort`, by `strcmp` of the names; what a member carries is arbitrary. -/
def shashSort {α : Type} (members : List (String × α)) : List (String × α) :=
  members.insertionSort fun a b => a.1 ≤ b.1

def memberOrder {α : Type} (f : SerializeFlags) (members : List (String × α)) :
    List (String × α) :=
  if f.sort then shashSort members else members

/-- The loop over the members or the elements: every one but the first comes
    after a comma and `indent_line`. -/
def commaSeparated (f : SerializeFlags) (depth : Nat) (texts : List (List Char)) : List Char :=
  List.intercalate (',' :: indentLine f depth) texts

/-- `json_serialize_object_member`, without the comma. -/
def jsonSerializeObjectMember (f : SerializeFlags) (member : String × List Char) : List Char :=
  jsonSerializeString member.1.toList ++
    ':' :: ((if f.pretty then [' '] else []) ++ member.2)

mutual

/-- `json_serialize`, with `json_serialize_object` and `json_serialize_array`. -/
def jsonSerialize (d : Doubles) (f : SerializeFlags) : Nat → Json → List Char
  | _, .null => "null".toList
  | _, .bool false => "false".toList
  | _, .bool true => "true".toList
  | depth, .object members =>
    let texts := memberTexts d f (depth + 1) members
    '\x7b' :: (indentLine f (depth + 1) ++
      (commaSeparated f (depth + 1)
        ((memberOrder f texts).map (jsonSerializeObjectMember f)) ++
      ['\x7d']))
  | depth, .array elems =>
    let texts := elemTexts d f (depth + 1) elems
    '[' :: ((if texts = [] then [] else indentLine f (depth + 1)) ++
      (commaSeparated f (depth + 1) texts ++ [']']))
  | _, .integer i => decimal i
  | _, .real bits => d.format bits
  | _, .string s => jsonSerializeString s.toList

def elemTexts (d : Doubles) (f : SerializeFlags) : Nat → List Json → List (List Char)
  | _, [] => []
  | depth, elem :: elems => jsonSerialize d f depth elem :: elemTexts d f depth elems

def memberTexts (d : Doubles) (f : SerializeFlags) :
    Nat → List (String × Json) → List (String × List Char)
  | _, [] => []
  | depth, (name, value) :: members =>
    (name, jsonSerialize d f depth value) :: memberTexts d f depth members

end

def jsonToString (d : Doubles) (json : Json) (f : SerializeFlags) : List Char :=
  jsonSerialize d f 0 json

/-! ## 3. Equality -/

/-- `a == b` on two `double`s: a NaN differs from itself, the two zeros are equal. -/
def doubleEqual (a b : BitVec 64) : Bool :=
  let isNan (x : BitVec 64) := 0x7ff0000000000000#64 < x &&& 0x7fffffffffffffff#64
  !isNan a && !isNan b && (a = b || (a ||| b) &&& 0x7fffffffffffffff#64 = 0)

mutual

/-- `json_equal`, on two values that are not one and the same in memory. -/
def jsonEqual : Json → Json → Bool
  | .object a, .object b => a.length == b.length && jsonEqualObject a b
  | .array a, .array b => jsonEqualArray a b
  | .string a, .string b => a == b
  | .null, .null => true
  | .bool a, .bool b => a == b
  | .integer a, .integer b => a == b
  | .real a, .real b => doubleEqual a b
  | _, _ => false

/-- The loop of `json_equal_object`. -/
def jsonEqualObject : List (String × Json) → List (String × Json) → Bool
  | [], _ => true
  | (name, value) :: a, b =>
    (match b.lookup name with
      | none => false
      | some other => jsonEqual value other) && jsonEqualObject a b

def jsonEqualArray : List Json → List Json → Bool
  | [], [] => true
  | x :: a, y :: b => jsonEqual x y && jsonEqualArray a b
  | _, _ => false

end

/-! ## 4. Numbers -/

inductive JsonToken where
  | beginArray | endArray | beginObject | endObject | nameSeparator | valueSeparator
  | false | null | true
  | integer (i : Int)
  | real (bits : BitVec 64)
  | string (s : List Char)

/-- The local variables of `json_lex_number` that its loops build up. -/
structure Decimal where
  significand : Nat := 0
  pow10 : Int := 0
  imprecise : Bool := false

def Decimal.addInteger (n : Decimal) (c : Char) : Decimal :=
  if n.significand ≤ ullongMax / 10 then
    { n with significand := u64 (n.significand * 10 + digitValue c) }
  else
    { n with pow10 := n.pow10 + 1, imprecise := n.imprecise || c != '0' }

def Decimal.addFraction (n : Decimal) (c : Char) : Decimal :=
  if n.significand ≤ ullongMax / 10 then
    { n with
      significand := u64 (n.significand * 10 + digitValue c)
      pow10 := n.pow10 - 1 }
  else
    { n with imprecise := n.imprecise || c != '0' }

def lexIntegerPart (cp : List Char) : Except String (Decimal × List Char) :=
  if cp.head? = some '0' then
    if startsWithDigit cp.tail then .error "leading zeros not allowed"
    else .ok ({}, cp.tail)
  else if startsWithDigit cp then
    .ok ((cp.takeWhile Char.isDigit).foldl Decimal.addInteger {}, cp.dropWhile Char.isDigit)
  else .error "'-' must be followed by digit"

def lexFraction (n : Decimal) (cp : List Char) : Except String (Decimal × List Char) :=
  if cp.head? = some '.' then
    if startsWithDigit cp.tail then
      .ok ((cp.tail.takeWhile Char.isDigit).foldl Decimal.addFraction n,
        cp.tail.dropWhile Char.isDigit)
    else .error "decimal point must be followed by digit"
  else .ok (n, cp)

/-- The digits of an exponent, `none` when they reach the limit. -/
def lexExponentDigits : Nat → List Char → Option Nat
  | exponent, [] => some exponent
  | exponent, c :: cs =>
    if exponent ≥ intMax / 10 then none
    else lexExponentDigits (exponent * 10 + digitValue c) cs

def lexExponent (n : Decimal) (cp : List Char) : Except String (Decimal × List Char) :=
  if cp.head? = some 'e' ∨ cp.head? = some 'E' then
    let negativeExponent := cp.tail.head? = some '-'
    let cp := if cp.tail.head? = some '+' ∨ negativeExponent then cp.tail.tail else cp.tail
    if startsWithDigit cp then
      match lexExponentDigits 0 (cp.takeWhile Char.isDigit) with
      | none => .error "exponent outside valid range"
      | some exponent =>
        let rest := cp.dropWhile Char.isDigit
        if negativeExponent then
          if n.pow10 < -(intMax + 1 : Int) + exponent then .error "exponent outside valid range"
          else .ok ({ n with pow10 := n.pow10 - exponent }, rest)
        else if n.pow10 > (intMax : Int) - exponent then .error "exponent outside valid range"
        else .ok ({ n with pow10 := n.pow10 + exponent }, rest)
    else .error "exponent must contain at least one digit"
  else .ok (n, cp)

/-- Moves a positive power of ten into the significand while it fits. -/
def scaleUp : Nat → Nat → Nat × Nat
  | significand, 0 => (significand, 0)
  | significand, pow10 + 1 =>
    if significand < ullongMax / 10 then scaleUp (significand * 10) pow10
    else (significand, pow10 + 1)

/-- Takes trailing zeros off the significand while the power of ten is negative. -/
def scaleDown : Nat → Nat → Nat × Nat
  | significand, 0 => (significand, 0)
  | significand, pow10 + 1 =>
    if significand % 10 = 0 then scaleDown (significand / 10) pow10
    else (significand, pow10 + 1)

/-- The two scaling loops; the second number is zero when no power of ten is left. -/
def Decimal.scale (n : Decimal) : Nat × Nat :=
  if n.pow10 < 0 then scaleDown n.significand n.pow10.natAbs
  else scaleUp n.significand n.pow10.natAbs

/-- The token of a number once its text is read, an integer where one can hold it. -/
def numberToken (d : Doubles) (text : List Char) (negative : Bool) (n : Decimal) :
    Except String JsonToken :=
  if n.significand = 0 then .ok (.integer 0)
  else if !n.imprecise && n.scale.2 == 0 &&
      decide (n.scale.1 ≤ if negative then llongMax + 1 else llongMax) then
    .ok (.integer (if negative then -(n.scale.1 : Int) else n.scale.1))
  else
    match d.strToDouble text with
    | none => .error "number outside valid range"
    -- Negative zero is suppressed.
    | some bits => .ok (.real (if bits &&& 0x7fffffffffffffff#64 = 0 then 0 else bits))

/-- `json_lex_number`, on the text in the buffer. -/
def jsonLexNumber (d : Doubles) (text : List Char) : Except String JsonToken := do
  let negative := decide (text.head? = some '-')
  let (n, cp) ← lexIntegerPart (if negative then text.tail else text)
  let (n, cp) ← lexFraction n cp
  let (n, cp) ← lexExponent n cp
  if cp = [] then numberToken d text negative n else .error "syntax error in number"

def jsonLexKeyword (text : List Char) : Except String JsonToken :=
  if text = "false".toList then .ok .false
  else if text = "true".toList then .ok .true
  else if text = "null".toList then .ok .null
  else .error ("invalid keyword '" ++ String.ofList text ++ "'")

/-! ## 5. Quoted strings -/

/-- `ds_put_utf8`: the bytes of a code point. -/
def utf8Bytes (uc : Nat) : List Char :=
  let byte (n : Nat) := Char.ofNat n
  if uc ≤ 0x7f then [byte uc]
  else if uc ≤ 0x7ff then [byte (0xc0 + uc / 2 ^ 6), byte (0x80 + uc % 2 ^ 6)]
  else if uc ≤ 0xffff then
    [byte (0xe0 + uc / 2 ^ 12), byte (0x80 + uc / 2 ^ 6 % 2 ^ 6), byte (0x80 + uc % 2 ^ 6)]
  else if uc ≤ 0x10ffff then
    [byte (0xf0 + uc / 2 ^ 18), byte (0x80 + uc / 2 ^ 12 % 2 ^ 6),
      byte (0x80 + uc / 2 ^ 6 % 2 ^ 6), byte (0x80 + uc % 2 ^ 6)]
  -- The code point of REPLACEMENT CHARACTER.
  else [byte 0xef, byte 0xbf, byte 0xbd]

def utf16DecodeSurrogatePair (leading trailing : Nat) : Nat :=
  (leading / 2 ^ 6 % 16 + 1) * 2 ^ 16 + leading % 2 ^ 6 * 2 ^ 10 + trailing % 2 ^ 10

def jsonLex4hex (cp : List Char) : Except String Nat :=
  if cp.length < 4 then .error "quoted string ends within \\u escape"
  else
    match hexitsValue cp 4 with
    | none => .error "malformed \\u escape"
    | some value =>
      if value = 0 then .error "null bytes not supported in quoted strings" else .ok value

/-- `json_lex_unicode`: the bytes of the escaped character and the number of
    characters its escape takes after the `u`. -/
def jsonLexUnicode (cp : List Char) : Except String (List Char × Nat) := do
  let c0 ← jsonLex4hex cp
  if ¬(0xd800 ≤ c0 ∧ c0 ≤ 0xdbff) then return (utf8Bytes c0, 4)
  if cp[4]? ≠ some '\\' ∨ cp[5]? ≠ some 'u' then
    throw "malformed escaped surrogate pair"
  let c1 ← jsonLex4hex (cp.drop 6)
  if ¬(0xdc00 ≤ c1 ∧ c1 ≤ 0xdfff) then
    throw "second half of escaped surrogate pair is not trailing surrogate"
  return (utf8Bytes (utf16DecodeSurrogatePair c0 c1), 10)

def simpleEscape (c : Char) : Option Char :=
  if c = '"' ∨ c = '\\' ∨ c = '/' then some c
  else if c = 'b' then some '\x08'
  else if c = 'f' then some '\x0c'
  else if c = 'n' then some '\n'
  else if c = 'r' then some '\r'
  else if c = 't' then some '\t'
  else none

/-- The loop of `json_string_unescape`; `out` is what it has put out so far. -/
def unescapeLoop (out input : List Char) : Except String (List Char) :=
  match input with
  | [] => .ok out
  | c :: cs =>
    if c = '"' then .error "quoted string may not include unescaped \""
    else if c ≠ '\\' then unescapeLoop (out ++ [c]) cs
    else
      match cs with
      | [] => .error "quoted string may not end with backslash"
      | e :: cs =>
        match simpleEscape e with
        | some c => unescapeLoop (out ++ [c]) cs
        | none =>
          if e = 'u' then
            match jsonLexUnicode cs with
            | .error message => .error message
            | .ok (bytes, n) => unescapeLoop (out ++ bytes) (cs.drop n)
          else .error ("bad escape \\" ++ String.singleton e)
termination_by input.length
decreasing_by all_goals simp +arith [List.length_drop]

def jsonStringUnescape (input : List Char) : Except String (List Char) := unescapeLoop [] input

def jsonLexString (raw : List Char) : Except String JsonToken :=
  if '\\' ∈ raw then (jsonStringUnescape raw).map .string else .ok (.string raw)

/-! ## 6. The parser -/

inductive JsonLexState where
  | start | number | keyword | string | escape
deriving DecidableEq

inductive JsonParseState where
  | start | «end»
  | objectInit | objectName | objectColon | objectValue | objectNext
  | arrayInit | arrayValue | arrayNext
deriving DecidableEq

/-- Where in its input the parser is, for error messages. -/
structure Position where
  lineNumber : Nat := 0
  columnNumber : Nat := 0
  byteNumber : Nat := 0

def Position.next (q : Position) (c : Char) : Position :=
  if c = '\n' then ⟨q.lineNumber + 1, 0, q.byteNumber + 1⟩
  else ⟨q.lineNumber, q.columnNumber + 1, q.byteNumber + 1⟩

/-- `struct json_parser_node`.  The source puts a nested object or array into
    the one around it, through a pointer, before its contents are known; here it
    is put there when it is complete, under the name that it keeps in `slot`. -/
structure JsonParserNode where
  slot : Option (List Char)
  json : Json

structure JsonParser where
  trailer : Bool
  lexState : JsonLexState := .start
  buffer : List Char := []
  position : Position := {}
  parseState : JsonParseState := .start
  stack : List JsonParserNode := []
  memberName : Option (List Char) := none
  done : Bool := false
  error : Option String := none

def jsonMaxHeight : Nat := 1000

/-- `json_error`: the first error is kept. -/
def jsonError (p : JsonParser) (message : String) : JsonParser :=
  if p.error.isSome then p
  else
    { p with
      error := some ("line " ++ toString p.position.lineNumber ++ ", column " ++
        toString p.position.columnNumber ++ ", byte " ++ toString p.position.byteNumber ++
        ": " ++ message)
      done := true }

def shashReplace (members : List (String × Json)) (name : String) (value : Json) :
    List (String × Json) :=
  if members.any (·.1 == name) then
    members.map fun m => if m.1 == name then (name, value) else m
  else Json.put members name value

def JsonParserNode.put (node : JsonParserNode) (name : Option (List Char)) (value : Json) :
    JsonParserNode :=
  match node.json with
  | .object members =>
    { node with json := .object (shashReplace members (String.ofList (name.getD [])) value) }
  | .array elems => { node with json := .array (elems ++ [value]) }
  | _ => node

def jsonParserPutValue (p : JsonParser) (value : Json) : JsonParser :=
  match p.stack with
  | [] => p
  | node :: below =>
    { p with
      stack := node.put p.memberName value :: below
      memberName := none }

def jsonParserPush (p : JsonParser) (newJson : Json) (newState : JsonParseState) : JsonParser :=
  if p.stack.length < jsonMaxHeight then
    { p with
      stack := ⟨p.memberName, newJson⟩ :: p.stack
      memberName := none
      parseState := newState }
  else jsonError p ("input exceeds maximum nesting depth " ++ toString jsonMaxHeight)

def jsonParserPushObject (p : JsonParser) : JsonParser := jsonParserPush p (.object []) .objectInit

def jsonParserPushArray (p : JsonParser) : JsonParser := jsonParserPush p (.array []) .arrayInit

/-- The state after a complete value in the given container. -/
def JsonParserNode.nextState (node : JsonParserNode) : JsonParseState :=
  match node.json with
  | .array _ => .arrayNext
  | _ => .objectNext

def jsonParserPop (p : JsonParser) : JsonParser :=
  match p.stack with
  | node :: parent :: below =>
    { p with
      stack := parent.put node.slot node.json :: below
      parseState := parent.nextState }
  | _ => { p with parseState := .end, done := p.done || !p.trailer }

def jsonParseValue (p : JsonParser) (token : JsonToken) (nextState : JsonParseState) :
    JsonParser :=
  let put (value : Json) := { jsonParserPutValue p value with parseState := nextState }
  match token with
  | .false => put (.bool false)
  | .null => put .null
  | .true => put (.bool true)
  | .beginObject => jsonParserPushObject p
  | .beginArray => jsonParserPushArray p
  | .integer i => put (.integer i)
  | .real bits => put (.real bits)
  | .string s => put (.string (String.ofList s))
  | _ => jsonError p "syntax error expecting value"

/-- An object's member name, in `JSON_PARSE_OBJECT_NAME`. -/
def jsonParseName (p : JsonParser) (token : JsonToken) : JsonParser :=
  match token with
  | .string s => { p with memberName := some s, parseState := .objectColon }
  | _ => jsonError p "syntax error parsing object expecting string"

/-- The switch of `json_parser_input`. -/
def jsonParserStep (p : JsonParser) (token : JsonToken) : JsonParser :=
  match p.parseState, token with
  | .start, .beginObject => jsonParserPushObject p
  | .start, .beginArray => jsonParserPushArray p
  | .start, _ => jsonError p "syntax error at beginning of input"
  | .end, _ => jsonError p "trailing garbage at end of input"
  | .objectInit, .endObject => jsonParserPop p
  | .objectInit, _ => jsonParseName p token
  | .objectName, _ => jsonParseName p token
  | .objectColon, .nameSeparator => { p with parseState := .objectValue }
  | .objectColon, _ => jsonError p "syntax error parsing object expecting ':'"
  | .objectValue, _ => jsonParseValue p token .objectNext
  | .objectNext, .valueSeparator => { p with parseState := .objectName }
  | .objectNext, .endObject => jsonParserPop p
  | .objectNext, _ => jsonError p "syntax error expecting '\x7d' or ','"
  | .arrayInit, .endArray => jsonParserPop p
  | .arrayInit, _ => jsonParseValue p token .arrayNext
  | .arrayValue, _ => jsonParseValue p token .arrayNext
  | .arrayNext, .valueSeparator => { p with parseState := .arrayValue }
  | .arrayNext, .endArray => jsonParserPop p
  | .arrayNext, _ => jsonError p "syntax error expecting ']' or ','"

def jsonParserInput (p : JsonParser) (token : JsonToken) : JsonParser :=
  { jsonParserStep p token with lexState := .start, buffer := [] }

/-- What the lexer does at the end of a token: passes it on or reports an error. -/
def inputToken (p : JsonParser) (token : Except String JsonToken) : JsonParser :=
  match token with
  | .ok token => jsonParserInput p token
  | .error message => jsonError p message

def putChar (p : JsonParser) (c : Char) : JsonParser := { p with buffer := p.buffer ++ [c] }

def punctuation (c : Char) : Option JsonToken :=
  if c = '[' then some .beginArray
  else if c = '\x7b' then some .beginObject
  else if c = ']' then some .endArray
  else if c = '\x7d' then some .endObject
  else if c = ':' then some .nameSeparator
  else if c = ',' then some .valueSeparator
  else none

def isBlank (c : Char) : Bool := c == ' ' || c == '\t' || c == '\n' || c == '\r'

/-- `strchr(".0123456789eE-+", c)`, which finds the null byte too. -/
def isNumberChar (c : Char) : Bool :=
  c.isDigit || c == '.' || c == 'e' || c == 'E' || c == '-' || c == '+' || c == nul

/-- `json_lex_input` in `JSON_LEX_START`. -/
def jsonLexStart (p : JsonParser) (c : Char) : JsonParser :=
  if isBlank c then p
  else if c.isLower then putChar { p with lexState := .keyword } c
  else if c = '-' ∨ c.isDigit then putChar { p with lexState := .number } c
  else if c = '"' then { p with lexState := .string }
  else
    match punctuation c with
    | some token => jsonParserInput p token
    | none =>
      if 0x20 ≤ c.toNat ∧ c.toNat < 0x7f then
        jsonError p ("invalid character '" ++ String.singleton c ++ "'")
      else
        jsonError p ("invalid character U+" ++ String.ofList (hexits 4 c.toNat))

/-- `json_lex_input`; the flag says whether `c` was taken. -/
def jsonLexInput (d : Doubles) (p : JsonParser) (c : Char) : JsonParser × Bool :=
  match p.lexState with
  | .start => (jsonLexStart p c, true)
  | .keyword =>
    if c.isAlpha then (putChar p c, true) else (inputToken p (jsonLexKeyword (cstr p.buffer)), false)
  | .number =>
    if isNumberChar c then (putChar p c, true)
    else (inputToken p (jsonLexNumber d (cstr p.buffer)), false)
  | .string =>
    if c = '\\' then (putChar { p with lexState := .escape } c, true)
    else if c = '"' then (inputToken p (jsonLexString (cstr p.buffer)), true)
    else if c.toNat < 0x20 then
      (jsonError p ("U+" ++ (String.ofList (hexits 4 c.toNat)).toUpper ++
        " must be escaped in quoted string"), true)
    else (putChar p c, true)
  | .escape => (putChar { p with lexState := .string } c, true)

def JsonParser.advance (p : JsonParser) (c : Char) : JsonParser :=
  { p with position := p.position.next c }

/-- `json_parser_feed`: the parser and the characters it did not take.  A
    character that ends a number or a keyword is not taken with it and is read
    again, at the start of a token, where every character is taken. -/
def jsonParserFeed (d : Doubles) (p : JsonParser) : List Char → JsonParser × List Char
  | [] => (p, [])
  | c :: cs =>
    if p.done then (p, c :: cs)
    else
      match jsonLexInput d p c with
      | (p, true) => jsonParserFeed d (p.advance c) cs
      | (p, false) =>
        if p.done then (p, c :: cs)
        else jsonParserFeed d ((jsonLexInput d p c).1.advance c) cs

/-- `json_parser_finish`; `none` is a failed assertion. -/
def jsonParserFinish (d : Doubles) (p : JsonParser) : Option Json :=
  let p :=
    match p.lexState with
    | .start => p
    | .string | .escape => jsonError p "unexpected end of input in quoted string"
    | .number | .keyword => (jsonLexInput d p ' ').1
  let p :=
    match p.parseState with
    | .start => jsonError p "empty input stream"
    | .end => p
    | _ => jsonError p "unexpected end of input"
  match p.error, p.stack with
  | some message, _ => some (.string message)
  | none, [node] => some node.json
  | none, _ => none

def jsonParserCreate (trailer : Bool) : JsonParser := { trailer }

def jsonFromString (d : Doubles) (string : List Char) : Option Json :=
  jsonParserFinish d (jsonParserFeed d (jsonParserCreate true) (cstr string)).1

end Ovsgw
