/-
  **`struct ovsdb_parser`** (`lib/ovsdb-parser.c`) and the part of
  `struct ovsdb_error` (`lib/ovsdb-error.c`) that it builds.

  A parser remembers the first error and goes on: the functions that read
  members return a null value and the caller only looks at the error at the
  end.  So a parsing function is a state transformer, not a failing one.
-/
import Ovsgw.Json

namespace Ovsgw

open List

/-! ## 1. Errors -/

/-- `struct ovsdb_error`.  The member `json` is the value whose text C stores in `syntax`. -/
structure OvsdbError where
  tag : String := "ovsdb error"
  details : String
  json : Option Json := none
  errno : Int := 0

/-- `ovsdb_error` with a null tag. -/
def ovsdbError (details : String) : OvsdbError := { details }

/-- `ovsdb_syntax_error` with a null tag. -/
def ovsdbSyntaxError (json : Option Json) (details : String) : OvsdbError :=
  { tag := "syntax error", details, json }

def ovsdbIoError (errno : Int) (details : String) : OvsdbError :=
  { tag := "I/O error", details, errno }

/-- `ovsdb_wrap_error`, for an error with details. -/
def ovsdbWrapError (error : OvsdbError) (msg : String) : OvsdbError :=
  { error with details := msg ++ ": " ++ error.details }

/-! ## 2. The parser -/

inductive JsonType where
  | null
  | false
  | true
  | object
  | array
  | integer
  | real
  | string
deriving DecidableEq, Repr

def Json.type : Json → JsonType
  | .null => .null
  | .bool b => if b then .true else .false
  | .object _ => .object
  | .array _ => .array
  | .integer _ => .integer
  | .real _ => .real
  | .string _ => .string

/-- `enum ovsdb_parser_types` as the set of its bits. -/
structure ParserTypes where
  types : List JsonType
  id : Bool := .false
  optional : Bool := .false

def ovsdbParserIsId (s : String) : Bool :=
  match s.toList with
  | [] => .false
  | c :: cs => (c.isAlpha || c == '_') && cs.all fun c => c.isAlpha || c.isDigit || c == '_'

def Json.isId : Json → Bool
  | .string s => ovsdbParserIsId s
  | _ => .false

def OP_ANY : List JsonType :=
  [.null, .false, .true, .object, .array, .integer, .real, .string]

/-- `struct ovsdb_parser`.  `json` holds the members of the object. -/
structure OvsdbParser where
  name : String
  used : List String := []
  json : Option (List (String × Json))
  error : Option OvsdbError := none

/-- A function that parses with a `struct ovsdb_parser`. -/
abbrev Parse := StateM OvsdbParser

/-- `ovsdb_parser_put_error`; a null `error` changes nothing. -/
def ovsdbParserPutError (error : Option OvsdbError) : Parse Unit :=
  modify fun p => { p with error := p.error.or error }

def ovsdbParserRaiseError (message : String) : Parse Unit := do
  let p ← get
  ovsdbParserPutError (some
    (ovsdbSyntaxError (p.json.map Json.object) ("Parsing " ++ p.name ++ " failed: " ++ message)))

def ovsdbParserInit (json : Option Json) (name : String) : OvsdbParser :=
  match json with
  | some (.object members) => { name, json := some members }
  | _ => ((ovsdbParserRaiseError "Object expected.").run { name, json := none }).2

def ovsdbParserMember (name : String) (types : ParserTypes) : Parse (Option Json) := do
  match (← get).json with
  | none => return none
  | some members =>
    match members.lookup name with
    | none =>
      if ¬ types.optional then
        ovsdbParserRaiseError ("Required '" ++ name ++ "' member is missing.")
      return none
    | some value =>
      if value.type ∈ types.types ∨ types.id ∧ value.isId then
        modify fun p => { p with used := p.used.insert name }
        return some value
      else
        ovsdbParserRaiseError ("Type mismatch for member '" ++ name ++ "'.")
        return none

/-- What `ovsdb_parser_finish` says about members that nobody asked for. -/
def unusedMessage (name : String) (nUnused : Nat) : String :=
  if nUnused > 1 then
    "Member '" ++ name ++ "' and " ++ toString (nUnused - 1) ++ " other member"
      ++ (if nUnused > 2 then "s" else "") ++ " are present but not allowed here."
  else
    "Member '" ++ name ++ "' is present but not allowed here."

def ovsdbParserFinish : Parse (Option OvsdbError) := do
  let p ← get
  if p.error.isNone then
    let members := p.json.getD []
    let nUnused := members.length - p.used.length
    if nUnused ≠ 0 then
      match members.find? (fun member => member.1 ∉ p.used) with
      | some member => ovsdbParserRaiseError (unusedMessage member.1 nUnused)
      | none => pure ()
  return (← get).error

/-- The result of parsing `json` with `body`: its value if there is no error. -/
def ovsdbParse (name : String) (json : Json) (body : Parse α) : Except OvsdbError α :=
  let (a, p) := body.run (ovsdbParserInit (some json) name)
  match (ovsdbParserFinish.run p).1 with
  | none => .ok a
  | some error => .error error

/-! ## 3. Reading exactly some members -/

/-- The parser of an object before any error, with the members read so far. -/
def OvsdbParser.reading (name : String) (members : List (String × Json))
    (used : List String) : OvsdbParser :=
  { name, used, json := some members }

/-- The members read so far, after asking for an optional one. -/
def noteUsed (present : Bool) (name : String) (used : List String) : List String :=
  if present then used.insert name else used

/-- On an object with the given members, `m` reads those in `names`, raises no
    error and returns `a`. -/
def Reads (members : List (String × Json)) (m : Parse α) (a : α) (names : List String) : Prop :=
  ∀ title used, (names ++ used).Nodup →
    m.run (.reading title members used) =
      pure (a, .reading title members (names.reverse ++ used))

namespace Reads

variable {members : List (String × Json)} {name : String} {types : ParserTypes}

theorem pure (a : α) : Reads members (pure a) a [] := fun _ _ _ => rfl

variable {a : α} {m : Parse α} {names names' : List String}

theorem bind {f : α → Parse β} {b : β}
    (hm : Reads members m a names) (hf : Reads members (f a) b names') :
    Reads members (m >>= f) b (names ++ names') := by
  intro title used hnodup
  have hperm : (names ++ names' ++ used).Perm (names' ++ (names.reverse ++ used)) := by
    rw [append_assoc]
    refine perm_append_comm_assoc names names' used |>.trans ?_
    exact ((reverse_perm names).symm.append_right used).append_left names'
  have hfirst : (names ++ used).Nodup := by
    have hsub : (names ++ used).Sublist (names ++ names' ++ used) :=
      (sublist_append_left names names').append_right used
    exact hnodup.sublist hsub
  rw [StateT.run_bind, hm title used hfirst, pure_bind]
  show (f a).run _ = _
  rw [hf title _ (hperm.nodup_iff.mp hnodup), reverse_append, append_assoc]

theorem map (f : α → β) (hm : Reads members m a names) : Reads members (f <$> m) (f a) names := by
  intro title used hnodup
  rw [StateT.run_map, hm title used hnodup]
  rfl

theorem names_eq
    (h : Reads members m a names) (heq : names = names') : Reads members m a names' := heq ▸ h

theorem member {value : Option Json} (h : members.lookup name = value)
    (htype : ∀ json, value = some json → json.type ∈ types.types)
    (hoptional : value = none → types.optional = true) :
    Reads members (ovsdbParserMember name types) value (if value.isSome then [name] else []) := by
  intro title used hnodup
  cases value with
  | none => simp [ovsdbParserMember, OvsdbParser.reading, h, hoptional rfl]
  | some json =>
    have hnew : name ∉ used := (nodup_cons.mp hnodup).1
    simp [ovsdbParserMember, OvsdbParser.reading, h, htype json rfl, insert_of_not_mem hnew]

theorem present {value : Json} (h : members.lookup name = some value)
    (htype : value.type ∈ types.types) :
    Reads members (ovsdbParserMember name types) (some value) [name] :=
  member h (by rintro _ ⟨⟩; exact htype) nofun

theorem absent (h : members.lookup name = none) (hoptional : types.optional = true) :
    Reads members (ovsdbParserMember name types) none [] :=
  member h nofun fun _ => hoptional

theorem ovsdbParse (h : Reads members m a names)
    (hnodup : names.Nodup) (hlen : members.length ≤ names.length) (title : String) :
    Ovsgw.ovsdbParse title (.object members) m = .ok a := by
  have hinit : ovsdbParserInit (some (.object members)) title = .reading title members [] := rfl
  have hrun := h title [] (by simpa using hnodup)
  rw [append_nil] at hrun
  have hfinish : ovsdbParserFinish.run (.reading title members names.reverse) =
      Pure.pure (none, .reading title members names.reverse) := by
    simp [ovsdbParserFinish, OvsdbParser.reading, Nat.sub_eq_zero_of_le hlen]
  rw [Ovsgw.ovsdbParse, hinit, hrun]
  show (match (ovsdbParserFinish.run (.reading title members names.reverse)).1 with
    | none => Except.ok a
    | some error => .error error) = _
  rw [hfinish]
  rfl

end Reads

/-! ## 4. What a parse can return -/

/-- Every value that `m` returns satisfies `Q`, with or without an error. -/
def Returns (m : Parse α) (Q : α → Prop) : Prop := ∀ p, Q (m.run p).1

variable {a : α}

theorem Returns.pure {Q : α → Prop} (h : Q a) : Returns (pure a) Q := fun _ => h

variable {f : α → Parse β} {Q : β → Prop} {m : Parse α}

theorem Returns.bind {P : α → Prop}
    (hm : Returns m P) (hf : ∀ a, P a → Returns (f a) Q) : Returns (m >>= f) Q :=
  fun p => hf _ (hm p) _

theorem Returns.skip (hf : ∀ a, Returns (f a) Q) : Returns (m >>= f) Q :=
  fun _ => hf _ _

theorem Returns.of_ovsdbParse {title : String} {json : Json} {body : Parse α} {Q : α → Prop}
    (hbody : Returns body Q) (h : ovsdbParse title json body = .ok a) : Q a := by
  have hvalue := hbody (ovsdbParserInit (some json) title)
  unfold ovsdbParse at h
  split at h
  next a' p hrun =>
    rw [hrun] at hvalue
    split at h
    · cases h
      exact hvalue
    · cases h

end Ovsgw
