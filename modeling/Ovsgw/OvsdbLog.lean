/-
  **The log file** (`ovsdb/log.c`): how `ovsdb_log_write` lays out a record and
  how `ovsdb_log_open` and `ovsdb_log_read` find it again.

  A file is the list of its bytes and a stream is a file with a position in it.  Reading fails only
  at the end of the file; a call that writes is given what the operating system answers.  SHA-1 is a
  parameter: nothing here depends on which function of the bytes it is.
-/
import Ovsgw.JsonText
import Ovsgw.OvsdbParser

namespace Ovsgw

/-! ## 1. Headers -/

/-- A SHA-1 digest: its 20 bytes, most significant first. -/
abbrev Sha1 := BitVec 160

def sha1Hex (sha1 : Sha1) : List Char := hexits 40 sha1.toNat

def sha1FromHex (hex : List Char) : Option Sha1 := (hexitsValue hex 40).map (BitVec.ofNat 160)

/-- The functions of other libraries that the log uses. -/
structure LogLib where
  doubles : Doubles
  sha1 : List Char → Sha1

/-- What `parse_header` finds in a header line. -/
structure Header where
  magic : List Char
  length : Nat
  sha1 : Sha1

def headerLead : List Char := "OVSDB ".toList

def parseLengthAndHash (magic s : List Char) : Option Header :=
  let (length, p) := strtoul s
  if length = 0 ∨ length = ullongMax ∨ p.head? ≠ some ' ' then none
  else
    match sha1FromHex p.tail with
    | none => none
    | some sha1 =>
      if (p.tail.drop 40).head? = some '\n' then some { magic, length, sha1 } else none

/-- `parse_header`: the header, and the line as `parse_header` leaves it, which
    ends after the magic once it has found that. -/
def parseHeader (header : List Char) : Option Header × List Char :=
  let rest := header.drop headerLead.length
  let magic := rest.takeWhile (· != ' ')
  let afterMagic := rest.dropWhile (· != ' ')
  if ¬headerLead.isPrefixOf header ∨ afterMagic = [] then (none, header)
  else (parseLengthAndHash magic afterMagic.tail, headerLead ++ magic)

/-- `is_magic_ok`, for a needle of one word. -/
def isMagicOkLoop (needle haystack : List Char) : Bool :=
  if needle.isPrefixOf haystack ∧ (haystack[needle.length]?.all (· == '|')) then true
  else
    match h : haystack.dropWhile (· != '|') with
    | [] => false
    | _ :: haystack => isMagicOkLoop needle haystack
termination_by haystack.length
decreasing_by
  rename_i old _ _
  have hle := (List.dropWhile_sublist (· != '|') (l := old)).length_le
  rw [h, List.length_cons] at hle
  omega

def isMagicOk (needle haystack : List Char) : Bool :=
  if '|' ∈ needle then false else isMagicOkLoop needle haystack

/-! ## 2. The log -/

/-- `enum ovsdb_log_state`; a log becomes `OVSDB_LOG_BROKEN` only when it is
    replaced, which is not modelled. -/
inductive OvsdbLogState where
  | read | readError | write | writeError
deriving DecidableEq

/-- `struct ovsdb_log`.  The stream is the file with the position in it. -/
structure OvsdbLog where
  state : OvsdbLogState := .read
  error : Option OvsdbError := none
  prevOffset : Nat := 0
  offset : Nat := 0
  displayName : String
  magic : List Char
  file : List Char
  position : Nat := 0

def headerSize : Nat := 128

/-- `fgets`: the line, with its new-line if it fits, or `none` at the end of the file. -/
def fgets (size : Nat) (stream : List Char) : Option (List Char) :=
  let chunk := stream.take (size - 1)
  let line := chunk.takeWhile (· != '\n')
  if stream = [] then none else some (chunk.take (line.length + 1))

/-- `ovsdb_log_open` on a file that could be opened and locked. -/
def ovsdbLogOpen (name : String) (magic file : List Char) : Except OvsdbError OvsdbLog :=
  match fgets headerSize file with
  | none =>
    if '|' ∈ magic then .error (ovsdbError (name ++ ": cannot identify file type"))
    else .ok { displayName := name, magic, file }
  | some header =>
    match (parseHeader (cstr header)).1 with
    | none => .error (ovsdbError (name ++ ": unexpected file format"))
    | some h =>
      if isMagicOk h.magic magic then .ok { displayName := name, magic := h.magic, file }
      else .error (ovsdbError (name ++ ": cannot identify file type"))

def bufsiz : Nat := 8192

/-- The loop of `parse_body`: what was fed to the parser and the hash, or how
    many bytes were still wanted when the file ended. -/
def parseBodyLoop (d : Doubles) (length : Nat) (stream data : List Char) (parser : JsonParser) :
    Except Nat (List Char × JsonParser) :=
  if length = 0 then .ok (data, parser)
  else
    let chunk := min length bufsiz
    let input := stream.take chunk
    if input.length ≠ chunk then .error length
    else
      parseBodyLoop d (length - chunk) (stream.drop chunk) (data ++ input)
        (jsonParserFeed d parser input).1
termination_by length
decreasing_by
  have : 0 < bufsiz := by decide
  omega

def eof : Int := -1

/-- What a number of bytes at an offset is called in an error message. -/
def bytesAt (log : OvsdbLog) (length offset : Nat) : String :=
  log.displayName ++ ": " ++ toString length ++ " bytes starting at offset " ++ toString offset

/-- `parse_body`: the SHA-1 of the body and the JSON in it; an inner `none` is a
    failed assertion. -/
def parseBody (lib : LogLib) (log : OvsdbLog) (offset length : Nat) (stream : List Char) :
    Except OvsdbError (Sha1 × Option Json) :=
  match parseBodyLoop lib.doubles length stream [] (jsonParserCreate true) with
  | .error length =>
    .error (ovsdbIoError eof (log.displayName ++ ": error reading " ++ toString length ++
      " bytes starting at offset " ++ toString offset))
  | .ok (data, parser) => .ok (lib.sha1 data, jsonParserFinish lib.doubles parser)

/-- The error exit of `ovsdb_log_read`. -/
def readFailed (log : OvsdbLog) (error : OvsdbError) :
    OvsdbLog × Except OvsdbError (Option Json) :=
  ({ log with state := .readError, error := some error }, .error error)

/-- The checks of `ovsdb_log_read` on a body that was read. -/
def checkBody (log : OvsdbLog) (h : Header) (dataOffset : Nat) (actual : Sha1) (json : Json) :
    Except OvsdbError Json :=
  if h.sha1 ≠ actual then
    .error (ovsdbSyntaxError none (bytesAt log h.length dataOffset ++ " have SHA-1 hash " ++
      String.ofList (sha1Hex actual) ++ " but should have hash " ++
      String.ofList (sha1Hex h.sha1)))
  else
    match json with
    | .string message =>
      .error (ovsdbSyntaxError none (bytesAt log h.length dataOffset ++
        " are not valid JSON (" ++ message ++ ")"))
    | .object members => .ok (.object members)
    | _ =>
      .error (ovsdbSyntaxError none (bytesAt log h.length dataOffset ++ " are not a JSON object"))

/-- The error of `ovsdb_log_read` for a header line that cannot be parsed. -/
def headerError (log : OvsdbLog) (header : List Char) : OvsdbError :=
  ovsdbSyntaxError none (log.displayName ++ ": parse error at offset " ++ toString log.offset ++
    " in header line \"" ++ String.ofList (header.takeWhile (· != '\n')) ++ "\"")

/-- The end of `ovsdb_log_read`: the record is accepted if its body is. -/
def acceptBody (log : OvsdbLog) (h : Header) (dataOffset bodyPosition : Nat) (actual : Sha1)
    (json : Json) : OvsdbLog × Except OvsdbError (Option Json) :=
  match checkBody log h dataOffset actual json with
  | .error error => readFailed log error
  | .ok json =>
    ({ log with
      prevOffset := log.offset
      offset := dataOffset + h.length
      position := bodyPosition + h.length }, .ok (some json))

/-- `ovsdb_log_read` after the header. -/
def readBody (lib : LogLib) (log : OvsdbLog) (h : Header) (dataOffset bodyPosition : Nat) :
    Option (OvsdbLog × Except OvsdbError (Option Json)) :=
  match parseBody lib log dataOffset h.length (log.file.drop bodyPosition) with
  | .error error => some (readFailed log error)
  | .ok (_, none) => none
  | .ok (actual, some json) => some (acceptBody log h dataOffset bodyPosition actual json)

/-- `ovsdb_log_read` in `OVSDB_LOG_READ`, after `fgets`. -/
def readRecord (lib : LogLib) (log : OvsdbLog) (line : List Char) :
    Option (OvsdbLog × Except OvsdbError (Option Json)) :=
  match parseHeader (cstr line) with
  | (none, header) => some (readFailed log (headerError log header))
  | (some h, header) =>
    if h.magic ≠ log.magic then some (readFailed log (headerError log header))
    else readBody lib log h (log.offset + (cstr line).length) (log.position + line.length)

/-- `ovsdb_log_read`; the record is `none` at the end of the file.  The outer
    `none` is a failed assertion. -/
def ovsdbLogRead (lib : LogLib) (log : OvsdbLog) :
    Option (OvsdbLog × Except OvsdbError (Option Json)) :=
  match log.state with
  | .readError | .writeError =>
    match log.error with
    | some error => some (log, .error error)
    | none => some (log, .ok none)
  | .write => some (log, .ok none)
  | .read =>
    match fgets headerSize (log.file.drop log.position) with
    | none => some (log, .ok none)
    | some line => readRecord lib log line

/-! ## 3. Writing -/

/-- What the operating system answers to the calls of one `ovsdb_log_write`: an
    error number for each one that fails. -/
structure WriteResult where
  seek : Option Int := none
  truncate : Option Int := none
  write : Option Int := none

def ovsdbLogTruncate (os : WriteResult) (log : OvsdbLog) : OvsdbLog × Option OvsdbError :=
  match os.seek, os.truncate with
  | some errno, _ =>
    ({ log with state := .write },
      some (ovsdbIoError errno (log.displayName ++ ": cannot seek to offset " ++
        toString log.offset)))
  | none, some errno =>
    ({ log with state := .write, position := log.offset },
      some (ovsdbIoError errno (log.displayName ++ ": cannot truncate to length " ++
        toString log.offset)))
  | none, none =>
    ({ log with state := .write, position := log.offset, file := log.file.take log.offset }, none)

/-- The data line of `ovsdb_log_compose_record`. -/
def composeData (lib : LogLib) (json : Json) : List Char := jsonToString lib.doubles json {} ++ ['\n']

/-- The header line of `ovsdb_log_compose_record` for a data line. -/
def composeHeader (lib : LogLib) (magic data : List Char) : List Char :=
  headerLead ++ (magic ++ (' ' :: (Nat.toDigits 10 data.length ++
    (' ' :: (sha1Hex (lib.sha1 data) ++ ['\n'])))))

/-- `ovsdb_log_compose_record`, header and data one after the other. -/
def ovsdbLogComposeRecord (lib : LogLib) (json : Json) (magic : List Char) : List Char :=
  let data := composeData lib json
  composeHeader lib magic data ++ data

/-- `ovsdb_log_write` in `OVSDB_LOG_WRITE`. -/
def writeRecord (lib : LogLib) (os : WriteResult) (log : OvsdbLog) (json : Json) :
    OvsdbLog × Option OvsdbError :=
  match json with
  | .object _ | .array _ =>
    let record := ovsdbLogComposeRecord lib json log.magic
    match os.write with
    | some errno =>
      let error := ovsdbIoError errno (log.displayName ++ ": write failed")
      ({ log with file := log.file.take log.offset, error := some error, state := .writeError },
        some error)
    | none =>
      ({ log with
        file := log.file.take log.position ++ record ++ log.file.drop (log.position + record.length)
        position := log.position + record.length
        offset := log.offset + record.length }, none)
  | _ => (log, some { tag := "internal error", details := "bad JSON type" })

def ovsdbLogWrite (lib : LogLib) (os : WriteResult) (log : OvsdbLog) (json : Json) :
    OvsdbLog × Option OvsdbError :=
  match log.state with
  | .write => writeRecord lib os log json
  | .read | .readError | .writeError =>
    match ovsdbLogTruncate os log with
    | (log, some error) => ({ log with error := some error, state := .writeError }, some error)
    | (log, none) => writeRecord lib os { log with error := none } json

end Ovsgw
