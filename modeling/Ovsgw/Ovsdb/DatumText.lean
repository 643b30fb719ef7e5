/-
  **Data as text** (`lib/ovsdb-data.c`): `ovsdb_datum_to_string`,
  `ovsdb_datum_from_string` and the constraints on atoms that the latter checks.

  Error messages are strings, as in the source.  A symbol table is the function
  from the name of a symbol to the UUID that the table has for it.
-/
import Ovsgw.JsonText
import Ovsgw.OvsdbParser
import Ovsgw.Ovsdb.Types

namespace Ovsgw.Ovsdb

open List
open String (ofList)

/-! ## 1. Printing -/

/-- Whether `c` may stand in a string without quotes, after its first character. -/
def isWordChar (c : Char) : Bool :=
  c.isAlpha || c.isDigit || c == '_' || c == '-' || c == '.'

def stringNeedsQuotes (s : List Char) : Bool :=
  match s with
  | [] => true
  | c :: cs =>
    !(c.isAlpha || c == '_') || !cs.all isWordChar ||
      s == "true".toList || s == "false".toList || (uuidFromString (ofList s)).isSome

def Atom.toText (d : Doubles) : Atom → List Char
  | .integer i => decimal i
  | .real bits => d.format bits
  | .boolean b => if b then "true".toList else "false".toList
  | .string s => if stringNeedsQuotes s.toList then jsonSerializeString s.toList else s.toList
  | .uuid u => uuidChars u

def Element.toText (d : Doubles) (type : OvsdbType) (e : Element) : List Char :=
  e.key.toText d ++
    if type.isMap then '=' :: (e.value.map (Atom.toText d)).getD [] else []

def startDelim (type : OvsdbType) : Char := if type.isMap then '\x7b' else '['

def endDelim (type : OvsdbType) : Char := if type.isMap then '\x7d' else ']'

def Datum.toText (d : Doubles) (type : OvsdbType) (datum : Datum) : List Char :=
  let elements := List.intercalate [',', ' '] (datum.map (Element.toText d type))
  if type.nMax > 1 ∨ datum = [] then startDelim type :: (elements ++ [endDelim type])
  else elements

/-! ## 2. Constraints -/

/-- The rows of `seqs`: the ranges of the bytes of one character. -/
def utf8Sequences : List (List (Nat × Nat)) :=
  [[(0x01, 0x7f)],
   [(0xc2, 0xdf), (0x80, 0xbf)],
   [(0xe0, 0xe0), (0xa0, 0xbf), (0x80, 0xbf)],
   [(0xe1, 0xec), (0x80, 0xbf), (0x80, 0xbf)],
   [(0xed, 0xed), (0x80, 0x9f), (0x80, 0xbf)],
   [(0xee, 0xef), (0x80, 0xbf), (0x80, 0xbf)],
   [(0xf0, 0xf0), (0x90, 0xbf), (0x80, 0xbf), (0x80, 0xbf)],
   [(0xf1, 0xf3), (0x80, 0xbf), (0x80, 0xbf), (0x80, 0xbf)],
   [(0xf4, 0xf4), (0x80, 0x8f), (0x80, 0xbf), (0x80, 0xbf)]]

/-- `lookup_utf8_sequence`: the ranges of the bytes after `c`. -/
def lookupUtf8Sequence (c : Nat) : Option (List (Nat × Nat)) :=
  (utf8Sequences.find? fun seq => seq.head?.any fun o => o.1 ≤ c && c ≤ o.2).map List.tail

def invalidUtf8Sequence (bytes : List Nat) : String :=
  "invalid UTF-8 sequence" ++
    String.join (bytes.map fun c => " 0x" ++ ofList (hexits 2 c))

/-- How many bytes of the sequence have been seen at the first one that is out
    of its range; the end of the string is a null byte. -/
def badOctet : List (Nat × Nat) → List Nat → Nat → Option Nat
  | [], _, _ => none
  | (low, high) :: octets, s, i =>
    let c := s.headD 0
    if c < low ∨ c > high then some (i + 1) else badOctet octets s.tail (i + 1)

/-- `utf8_validate`: the number of characters or an error message. -/
def utf8Validate (s : List Nat) : Except String Nat :=
  match s with
  | [] => .ok 0
  | c :: cs =>
    if c < 0x80 then (utf8Validate cs).map (· + 1)
    else
      match lookupUtf8Sequence c with
      | none => .error (invalidUtf8Sequence [c])
      | some octets =>
        match badOctet octets cs 1 with
        | some n => .error (invalidUtf8Sequence ((c :: cs ++ [0]).take n))
        | none => (utf8Validate (cs.drop octets.length)).map (· + 1)
termination_by s.length
decreasing_by all_goals simp +arith [List.length_drop]

/-- An error with the tag of a violated constraint. -/
def constraintViolation (details : String) : OvsdbError :=
  { tag := "constraint violation", details }

def checkStringConstraints (s : String) (base : BaseType) : Option OvsdbError :=
  match utf8Validate (s.toList.map Char.toNat) with
  | .error msg => some (constraintViolation ("not a valid UTF-8 string: " ++ msg))
  | .ok nChars =>
    if nChars < base.minLen then
      some (constraintViolation ("\"" ++ s ++ "\" length " ++ toString nChars ++
        " is less than minimum allowed length " ++ toString base.minLen))
    else if nChars > base.maxLen then
      some (constraintViolation ("\"" ++ s ++ "\" length " ++ toString nChars ++
        " is greater than maximum allowed length " ++ toString base.maxLen))
    else none

/-- A value that is not between the bounds of its type.  The bounds and the
    value are already printed; a bound that is the default one is not named. -/
def rangeViolation (value low high : String) (hasLow hasHigh : Bool) : OvsdbError :=
  if hasLow then
    if hasHigh then
      constraintViolation (value ++ " is not in the valid range " ++ low ++ " to " ++ high ++
        " (inclusive)")
    else constraintViolation (value ++ " is less than minimum allowed value " ++ low)
  else constraintViolation (value ++ " is greater than maximum allowed value " ++ high)

def doubleLe (a b : BitVec 64) : Bool :=
  !isNan a && !isNan b && doubleOrder a ≤ doubleOrder b

/-- The constraints of `ovsdb_atom_check_constraints` that depend on the type. -/
def checkTypeConstraints (d : Doubles) (atom : Atom) (base : BaseType) : Option OvsdbError :=
  match atom with
  | .integer i =>
    if base.minInteger ≤ i ∧ i ≤ base.maxInteger then none
    else
      some (rangeViolation (ofList (decimal i)) (ofList (decimal base.minInteger))
        (ofList (decimal base.maxInteger)) (base.minInteger != -(llongMax : Int) - 1)
        (base.maxInteger != llongMax))
  | .real x =>
    if doubleLe base.minReal x && doubleLe x base.maxReal then none
    else
      some (rangeViolation (ofList (d.format x)) (ofList (d.format base.minReal))
        (ofList (d.format base.maxReal))
        (!doubleEqual base.minReal 0xffefffffffffffff#64)
        (!doubleEqual base.maxReal 0x7fefffffffffffff#64))
  | .string s => checkStringConstraints s base
  | .boolean _ | .uuid _ => none

def atomCheckConstraints (d : Doubles) (atom : Atom) (base : BaseType) : Option OvsdbError :=
  match base.enum with
  | some valid =>
    if (valid.findKey atom).isNone then
      some (constraintViolation (ofList (atom.toText d) ++
        " is not one of the allowed values (" ++
        ofList (valid.toText d (enumType base.type)) ++ ")"))
    else checkTypeConstraints d atom base
  | none => checkTypeConstraints d atom base

/-! ## 3. Parsing -/

def tokenIsDelim (c : Char) : Bool :=
  c ∈ [':', '=', ',', ' ', '[', ']', '\x7b', '\x7d', '!', '<', '>', nul]

/-- The loop of `ovsdb_token_parse`: the token and the text after it. -/
def tokenLoop (s : List Char) (out : List Char) (inQuotes : Bool) :
    List Char → Except String (List Char × List Char)
  | [] =>
    if inQuotes then
      .error (ofList s ++ ": quoted string extends past end of argument")
    else .ok (out, [])
  | '\\' :: [] => .error (ofList s ++ ": backslash at end of argument")
  | '\\' :: e :: p => tokenLoop s (out ++ if inQuotes then ['\\', e] else [e]) inQuotes p
  | c :: p =>
    if !inQuotes && tokenIsDelim c then .ok (out, c :: p)
    else tokenLoop s (out ++ [c]) (if c = '"' then !inQuotes else inQuotes) p

def tokenParse (s : List Char) : Except String (List Char × List Char) := tokenLoop s [] false s

/-- A function from the name of a symbol to the UUID that stands for it. -/
abbrev SymbolTable := List Char → Uuid

/-- `"` and `s` and `"` and the rest of a message. -/
def quoted (s : List Char) (rest : String) : String := "\"" ++ ofList s ++ "\"" ++ rest

def stringFromText (s : List Char) : Except String Atom :=
  if s = [] then
    .error ("An empty string is not valid as input; " ++ "use \"\" to represent the empty string")
  else if s.head? = some '"' then
    if s.length < 2 ∨ s.getLast? ≠ some '"' then
      .error (ofList s ++ ": missing quote at end of quoted string")
    else
      match jsonStringUnescape s.tail.dropLast with
      | .ok string => .ok (.string (ofList string))
      | .error message => .error (ofList s ++ ": " ++ message)
  else .ok (.string (ofList s))

def booleanFromText (s : List Char) : Except String Atom :=
  if s ∈ ["true".toList, "yes".toList, "on".toList, "1".toList] then .ok (.boolean true)
  else if s ∈ ["false".toList, "no".toList, "off".toList, "0".toList] then .ok (.boolean false)
  else .error (quoted s " is not a valid boolean (use \"true\" or \"false\")")

/-- The case `OVSDB_TYPE_INTEGER` of `ovsdb_atom_from_string__`, with the end of
    the range if the text is one and one is allowed. -/
def integerFromText (rangeAllowed : Bool) (s : List Char) : Except String (Atom × Option Int) :=
  match if rangeAllowed then strToLlongRange s else none with
  | some (integer, last) =>
    if last < integer then
      .error (quoted s " is not a valid range. Range end cannot be before start.")
    else .ok (.integer integer, some last)
  | none =>
    match strToLlong s with
    | some integer => .ok (.integer integer, none)
    | none => .error (quoted s " is not a valid integer or range")

def atomFromTextUnchecked (d : Doubles) (symtab : SymbolTable) (rangeAllowed : Bool)
    (type : AtomicType) (s : List Char) : Except String (Atom × Option Int) :=
  match type with
  | .integer => integerFromText rangeAllowed s
  | .real =>
    match d.strToDouble s with
    | some bits =>
      .ok (.real (if bits &&& 0x7fffffffffffffff#64 = 0 then 0 else bits), none)
    | none => .error (quoted s " is not a valid real number")
  | .boolean => (booleanFromText s).map (·, none)
  | .string => (stringFromText s).map (·, none)
  | .uuid =>
    if s.head? = some '@' then .ok (.uuid (symtab s), none)
    else
      match uuidFromString (ofList s) with
      | some u => .ok (.uuid u, none)
      | none => .error (quoted s " is not a valid UUID")
  -- Not reached: no key and no value that is parsed has this type.
  | .void => .error ""

def maxAtomRangeSize : Nat := 4096

def atomRangeCheckSize (first last : Int) : Option OvsdbError :=
  if (last - first) % (ullongMax + 1) ≥ maxAtomRangeSize then
    some (constraintViolation ("Range \"" ++ ofList (decimal first) ++ "-" ++
      ofList (decimal last) ++ "\" is too big. Maximum allowed size is " ++
      toString maxAtomRangeSize ++ "."))
  else none

/-- The first violated constraint among the integers of a range after its first. -/
def rangeCheckEnum (d : Doubles) (base : BaseType) (first last : Int) : Option OvsdbError :=
  (List.range (last - first).toNat).findSome? fun k =>
    atomCheckConstraints d (.integer (first + 1 + k)) base

def rangeCheck (d : Doubles) (base : BaseType) (first last : Int) : Option OvsdbError :=
  (if base.enum.isSome then rangeCheckEnum d base first last
  else atomCheckConstraints d (.integer last) base).or (atomRangeCheckSize first last)

/-- `ovsdb_error_to_string`, for an error without an `errno`. -/
def ovsdbErrorToString (d : Doubles) (error : OvsdbError) : String :=
  (match error.json with
    | some json =>
      "syntax \"" ++ ofList (jsonToString d json ⟨false, true⟩) ++ "\": "
    | none => "") ++ error.tag ++ ": " ++ error.details

/-- The constraints that `ovsdb_atom_from_string` checks on what it parsed. -/
def parsedCheck (d : Doubles) (base : BaseType) : Atom × Option Int → Option OvsdbError
  | (atom, none) => atomCheckConstraints d atom base
  | (.integer first, some last) =>
    (atomCheckConstraints d (.integer first) base).or (rangeCheck d base first last)
  | (atom, some _) => atomCheckConstraints d atom base

/-- `ovsdb_atom_from_string`: the atom, and the last integer of the range if the text is one. -/
def atomFromText (d : Doubles) (symtab : SymbolTable) (rangeAllowed : Bool) (base : BaseType)
    (s : List Char) : Except String (Atom × Option Int) :=
  match atomFromTextUnchecked d symtab rangeAllowed base.type s with
  | .error msg => .error msg
  | .ok parsed =>
    match parsedCheck d base parsed with
    | some error => .error (ovsdbErrorToString d error)
    | none => .ok parsed

def skipSpaces (p : List Char) : List Char := p.dropWhile isSpace

/-- `parse_atom_token`, with the text after the token. -/
def parseAtomToken (d : Doubles) (symtab : SymbolTable) (rangeAllowed : Bool) (base : BaseType)
    (s : List Char) : Except String ((Atom × Option Int) × List Char) :=
  match tokenParse s with
  | .error e => .error e
  | .ok (token, s) => (atomFromText d symtab rangeAllowed base token).map (·, s)

/-- What `parse_key_value` parses: the key, the last key if the text is a range
    of them, and the value in a map. -/
structure KeyValue where
  key : Atom
  rangeEnd : Option Int
  value : Option Atom

/-- The character that a message shows for the rest of a text. -/
def headText (s : List Char) : String := ofList (s.take 1)

/-- The part of `parse_key_value` after the key of a pair. -/
def parseValue (d : Doubles) (symtab : SymbolTable) (type : OvsdbType) (start : List Char)
    (key : Atom) (rangeEnd : Option Int) (s : List Char) : Except String (KeyValue × List Char) :=
  if s.head? = some '=' then
    match parseAtomToken d symtab false type.value (skipSpaces s.tail) with
    | .error e => .error e
    | .ok ((value, _), s) => .ok (⟨key, rangeEnd, some value⟩, s)
  else
    .error (ofList start ++ ": syntax error at \"" ++ headText s ++ "\" expecting \"=\"")

def parseKeyValue (d : Doubles) (symtab : SymbolTable) (type : OvsdbType) (start : List Char) :
    Except String (KeyValue × List Char) :=
  match parseAtomToken d symtab true type.key start with
  | .error e => .error e
  | .ok ((key, rangeEnd), s) =>
    if type.value.type = .void then .ok (⟨key, rangeEnd, none⟩, s)
    else parseValue d symtab type start key rangeEnd (skipSpaces s)

/-- `ovsdb_datum_add_unsafe`.  The keys of a range have no values: the source
    leaves those of a map uninitialized. -/
def addUnsafe (datum : Datum) (kv : KeyValue) : Datum :=
  match kv.key, kv.rangeEnd with
  | .integer first, some last =>
    datum ++ (List.range (last - first + 1).toNat).map fun k => ⟨.integer (first + k), none⟩
  | key, _ => datum ++ [⟨key, kv.value⟩]

/-- A comma and the white space around it, both optional. -/
def skipComma (p : List Char) : List Char :=
  if (skipSpaces p).head? = some ',' then skipSpaces (skipSpaces p).tail else skipSpaces p

theorem length_skipSpaces_le (p : List Char) : (skipSpaces p).length ≤ p.length :=
  (dropWhile_sublist _).length_le

theorem length_skipComma_le (p : List Char) : (skipComma p).length ≤ p.length := by
  have hspaces := length_skipSpaces_le p
  rw [skipComma]
  split
  · have htail := length_skipSpaces_le (skipSpaces p).tail
    rw [length_tail] at htail
    omega
  · exact hspaces

variable {p rest s token : List Char}

theorem tokenLoop_length {out : List Char} {inQuotes : Bool}
    (h : tokenLoop s out inQuotes p = .ok (token, rest)) : rest.length ≤ p.length := by
  fun_induction tokenLoop s out inQuotes p with
  | case1 => cases h
  | case2 =>
    cases h
    exact Nat.le_refl _
  | case3 => cases h
  | case4 out inQuotes e p ih =>
    have := ih h
    simp only [length_cons]
    omega
  | case5 =>
    cases h
    exact Nat.le_refl _
  | case6 out inQuotes c p _ _ _ ih =>
    have := ih h
    simp only [length_cons]
    omega

theorem tokenParse_length (hp : p ≠ [])
    (hdelim : p.head?.any tokenIsDelim = false) (h : tokenParse p = .ok (token, rest)) :
    rest.length < p.length := by
  rw [tokenParse, tokenLoop.eq_def] at h
  split at h
  · exact absurd rfl hp
  · cases h
  · have := tokenLoop_length h
    simp only [length_cons]
    omega
  next c p _ _ =>
    have hc : tokenIsDelim c = false := hdelim
    rw [hc] at h
    have := tokenLoop_length h
    simp only [length_cons]
    omega

variable {d : Doubles} {symtab : SymbolTable} {type : OvsdbType} {kv : KeyValue}

theorem tokenParse_of_parseAtomToken {rangeAllowed : Bool}
    {base : BaseType} {parsed : Atom × Option Int}
    (h : parseAtomToken d symtab rangeAllowed base s = .ok (parsed, rest)) :
    ∃ token, tokenParse s = .ok (token, rest) ∧
      atomFromText d symtab rangeAllowed base token = .ok parsed := by
  rw [parseAtomToken] at h
  split at h
  · cases h
  next token s' htoken =>
    cases hatom : atomFromText d symtab rangeAllowed base token with
    | error e =>
      rw [hatom] at h
      cases h
    | ok parsed' =>
      rw [hatom] at h
      cases h
      exact ⟨token, htoken, hatom⟩

/-- What `parse_key_value` has read: a token for the key and, in a map, one for the value. -/
theorem tokens_of_parseKeyValue (h : parseKeyValue d symtab type p = .ok (kv, rest)) :
    ∃ token s, tokenParse p = .ok (token, s) ∧
      atomFromText d symtab true type.key token = .ok (kv.key, kv.rangeEnd) ∧
      (type.isMap = false ∧ kv.value = none ∧ s = rest ∨
        type.isMap = true ∧ ∃ token' value last,
          tokenParse (skipSpaces (skipSpaces s).tail) = .ok (token', rest) ∧
          atomFromText d symtab false type.value token' = .ok (value, last) ∧
          kv.value = some value) := by
  rw [parseKeyValue] at h
  split at h
  · cases h
  next key rangeEnd s heq =>
    obtain ⟨token, htoken, hatom⟩ := tokenParse_of_parseAtomToken heq
    refine ⟨token, s, htoken, ?_⟩
    split at h
    next hvoid =>
      cases h
      exact ⟨hatom, .inl ⟨by simp [OvsdbType.isMap, hvoid], rfl, rfl⟩⟩
    next hvalue =>
      rw [parseValue] at h
      split at h
      · split at h
        · cases h
        next value last rest hparsed =>
          cases h
          obtain ⟨token', htoken', hatom'⟩ := tokenParse_of_parseAtomToken hparsed
          exact ⟨hatom, .inr ⟨by simp [OvsdbType.isMap, hvalue], token', value, last, htoken',
            hatom', rfl⟩⟩
      · cases h

/-- `parse_key_value` takes at least one character. -/
theorem parseKeyValue_length (hp : p ≠ []) (hdelim : p.head?.any tokenIsDelim = false)
    (h : parseKeyValue d symtab type p = .ok (kv, rest)) : rest.length < p.length := by
  obtain ⟨token, s, htoken, -, hrest⟩ := tokens_of_parseKeyValue h
  have hkey := tokenParse_length hp hdelim htoken
  rcases hrest with ⟨-, -, rfl⟩ | ⟨-, token', value, last, htoken', -⟩
  · exact hkey
  · have hspaces := length_skipSpaces_le s
    have htail := length_skipSpaces_le (skipSpaces s).tail
    have hvalue := tokenLoop_length htoken'
    rw [length_tail] at htail
    omega

/-- The loop of `ovsdb_datum_from_string`: the datum and the text at which it stops. -/
def datumLoop (d : Doubles) (symtab : SymbolTable) (type : OvsdbType) (s : List Char)
    (stop : Option Char) (datum : Datum) (p : List Char) : Except String (Datum × List Char) :=
  if hp : p = [] ∨ p.head? = stop then .ok (datum, p)
  else if hdelim : p.head?.any tokenIsDelim = true then
    .error (ofList s ++ ": unexpected \"" ++ headText p ++ "\" parsing " ++ type.toEnglish)
  else
    match h : parseKeyValue d symtab type p with
    | .error e => .error e
    | .ok (kv, rest) => datumLoop d symtab type s stop (addUnsafe datum kv) (skipComma rest)
termination_by p.length
decreasing_by
  have hlt := parseKeyValue_length (fun hnil => hp (.inl hnil)) (by simpa using hdelim) h
  exact Nat.lt_of_le_of_lt (length_skipComma_le rest) hlt

/-- `pair(s)` or `value(s)`, in messages about the size of a datum. -/
def sizeNoun (type : OvsdbType) : String := if type.isMap then "pair(s)" else "value(s)"

/-- The end of `ovsdb_datum_from_string`, on a datum that was parsed. -/
def datumFinish (type : OvsdbType) (s : List Char) (datum : Datum) : Except String Datum :=
  if datum.length < type.nMin then
    .error (ofList s ++ ": " ++ toString datum.length ++ " " ++ sizeNoun type ++
      " specified but the minimum number is " ++ toString type.nMin)
  else if datum.length > type.nMax then
    .error (ofList s ++ ": " ++ toString datum.length ++ " " ++ sizeNoun type ++
      " specified but the maximum number is " ++ toString type.nMax)
  else
    match datum.sort with
    | some sorted => .ok sorted
    | none =>
      .error (ofList s ++ if type.isMap then ": map contains duplicate key"
        else ": set contains duplicate value")

/-- `ovsdb_datum_from_string` after the character that opens the datum, if there
    is one; `stop` is the one that closes it. -/
def datumBody (d : Doubles) (symtab : SymbolTable) (type : OvsdbType) (s : List Char)
    (stop : Option Char) (p : List Char) : Except String Datum := do
  let (datum, p) ← datumLoop d symtab type s stop [] p
  if p.head? ≠ stop then
    throw (ofList s ++ ": missing \"" ++ ofList stop.toList ++ "\" at end of data")
  if stop.isSome ∧ skipSpaces p.tail ≠ [] then
    throw (ofList s ++ ": trailing garbage after \"" ++ ofList stop.toList ++ "\"")
  datumFinish type s datum

def datumFromText (d : Doubles) (symtab : SymbolTable) (type : OvsdbType) (s : List Char) :
    Except String Datum :=
  let p := skipSpaces s
  if p.head? = some (startDelim type) then
    datumBody d symtab type s (some (endDelim type)) (skipSpaces p.tail)
  else if p = [] then
    .error (if type.isMap then "use \"\x7b\x7d\" to specify the empty map"
      else "use \"[]\" to specify the empty set")
  else datumBody d symtab type s none p

end Ovsgw.Ovsdb
