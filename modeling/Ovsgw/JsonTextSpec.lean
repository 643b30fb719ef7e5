/-
  **Printed JSON is read back.**

  The parser is followed from one point of its input to the next: `Takes` says that a text leads
  from one parser state to another whatever comes after it, and `TakesValue` says the same of a text
  that ends only at a delimiter, as a number does.  An induction over the value then turns its
  printed form into a single step that puts the value where the parser expected one.
-/
import Ovsgw.JsonNumber
import Ovsgw.Lib.Lists

namespace Ovsgw

open List

/-! ## 1. Values that can be printed -/

/-- Induction over a JSON value, its elements and its members. -/
@[elab_as_elim]
theorem Json.induction {P : Json → Prop} (null : P .null) (bool : ∀ b, P (.bool b))
    (integer : ∀ i, P (.integer i)) (real : ∀ bits, P (.real bits)) (string : ∀ s, P (.string s))
    (array : ∀ elems, (∀ e ∈ elems, P e) → P (.array elems))
    (object : ∀ members, (∀ m ∈ members, P m.2) → P (.object members)) (j : Json) : P j := by
  refine @Json.rec P (fun elems => ∀ e ∈ elems, P e) (fun members => ∀ m ∈ members, P m.2)
    (fun m => P m.2) null bool integer real string array object ?_ ?_ ?_ ?_ ?_ j
  · intro e he
    cases he
  · intro e es he hes
    exact forall_mem_cons.mpr ⟨he, hes⟩
  · intro m hm
    cases hm
  · intro m ms hm hms
    exact forall_mem_cons.mpr ⟨hm, hms⟩
  · intro name value hvalue
    exact hvalue

/-- The values whose text can be read back: no real, no string or name with a
    null byte in it, integers in the range of their C type, and objects in which
    each name occurs once, as in a `shash`. -/
inductive Json.Plain : Json → Prop
  | null : Plain .null
  | bool (b : Bool) : Plain (.bool b)
  | integer {i : Int} (h : IsLongLong i) : Plain (.integer i)
  | string {s : String} (h : nul ∉ s.toList) : Plain (.string s)
  | array {elems : List Json} (h : ∀ e ∈ elems, e.Plain) : Plain (.array elems)
  | object {members : List (String × Json)} (distinct : (members.map Prod.fst).Nodup)
      (names : ∀ m ∈ members, nul ∉ m.1.toList) (h : ∀ m ∈ members, m.2.Plain) :
      Plain (.object members)

def Json.IsContainer : Json → Prop
  | .array _ | .object _ => True
  | _ => False

mutual

def Json.nesting : Json → Nat
  | .array elems => Json.nestingElems elems + 1
  | .object members => Json.nestingMembers members + 1
  | _ => 0

def Json.nestingElems : List Json → Nat
  | [] => 0
  | elem :: elems => max elem.nesting (Json.nestingElems elems)

def Json.nestingMembers : List (String × Json) → Nat
  | [] => 0
  | (_, value) :: members => max value.nesting (Json.nestingMembers members)

end

variable {elems : List Json}

theorem Json.nesting_le_elems {e : Json} (h : e ∈ elems) : e.nesting ≤ Json.nestingElems elems :=
  Lists.le_of_mem (fun _ _ => rfl) h

variable {members : List (String × Json)}

theorem Json.nesting_le_members {m : String × Json}
    (h : m ∈ members) : m.2.nesting ≤ Json.nestingMembers members :=
  Lists.le_of_mem (g := fun m : String × Json => m.2.nesting) (fun _ _ => rfl) h

mutual

/-- The value as a text printed with the given flags lists it: with `JSSF_SORT`
    the members of every object are in the order of their names. -/
def Json.arrange (f : SerializeFlags) : Json → Json
  | .array elems => .array (Json.arrangeElems f elems)
  | .object members => .object (memberOrder f (Json.arrangeMembers f members))
  | j => j

def Json.arrangeElems (f : SerializeFlags) : List Json → List Json
  | [] => []
  | elem :: elems => elem.arrange f :: Json.arrangeElems f elems

def Json.arrangeMembers (f : SerializeFlags) : List (String × Json) → List (String × Json)
  | [] => []
  | (name, value) :: members => (name, value.arrange f) :: Json.arrangeMembers f members

end

variable {json : Json}

section
variable (d : Doubles) (f : SerializeFlags) (depth : Nat) {α : Type}

theorem elemTexts_eq : elemTexts d f depth elems = elems.map (jsonSerialize d f depth) := by
  induction elems with
  | nil => rfl
  | cons e elems ih => rw [elemTexts, ih, map_cons]

theorem memberTexts_eq (members : List (String × Json)) :
    memberTexts d f depth members = members.map (Prod.map id (jsonSerialize d f depth)) := by
  induction members with
  | nil => rfl
  | cons m members ih =>
    rw [memberTexts, ih, map_cons]
    rfl

theorem Json.arrangeElems_eq : Json.arrangeElems f elems = elems.map (Json.arrange f) := by
  induction elems with
  | nil => rfl
  | cons e elems ih => rw [Json.arrangeElems, ih, map_cons]

theorem Json.arrangeMembers_eq (members : List (String × Json)) :
    Json.arrangeMembers f members = members.map (Prod.map id (Json.arrange f)) := by
  induction members with
  | nil => rfl
  | cons m members ih =>
    rw [Json.arrangeMembers, ih, map_cons]
    rfl

theorem memberOrder_map {β : Type} (g : α → β) (members : List (String × α)) :
    memberOrder f (members.map (Prod.map id g)) = (memberOrder f members).map (Prod.map id g) := by
  rw [memberOrder, memberOrder]
  split
  · exact (map_insertionSort (fun a b : String × α => a.1 ≤ b.1)
      (fun a b : String × β => a.1 ≤ b.1) (Prod.map id g) members fun _ _ _ _ => Iff.rfl).symm
  · rfl

theorem memberOrder_perm (members : List (String × α)) : (memberOrder f members).Perm members := by
  rw [memberOrder]
  split
  · exact perm_insertionSort _ members
  · exact Perm.refl members

end

/-! ## 2. The text of a token -/

variable {cs : List Char}

theorem noWrap_of_lt {v : Nat} (h : Nat.ofDigitChars 10 cs v < 2 ^ 64) : NoWrap v cs := by
  induction cs generalizing v with
  | nil => trivial
  | cons c cs ih =>
    have hle := (le_ofDigitChars cs (10 * v + digitValue c)).trans_lt h
    refine ⟨fun hv => ?_, ih h⟩
    simp only [ullongMax] at hv
    omega

variable {n : Nat} {i : Int}

theorem jsonLexNumber_decimal (d : Doubles) (h : IsLongLong i) :
    jsonLexNumber d (decimal i) = .ok (.integer i) := by
  let t : NumberText := { negative := decide (i < 0), integer := Nat.toDigits 10 i.natAbs }
  have hvalid : t.Valid := by
    refine ⟨Nat.toDigits_ne_nil, fun hzero => ?_, fun c hc => ?_, .inl ⟨rfl, rfl⟩⟩
    · rcases Nat.eq_zero_or_pos i.natAbs with hi | hi
      · exact congrArg (Nat.toDigits 10) hi
      · exact absurd hzero (head_toDigits_ne_zero hi)
    · exact isDigit_toDigits (by simpa [t] using hc)
  have hdigits : Nat.ofDigitChars 10 (t.integer ++ t.fraction) 0 = i.natAbs := by simp [t]
  have hwrapped : t.wrapped = i.natAbs := by
    refine (wrappedDigits_eq (noWrap_of_lt ?_)).trans hdigits
    simp only [IsLongLong, llongMax] at h
    omega
  have htext : t.text = decimal i := by
    by_cases hneg : i < 0 <;> simp [NumberText.text, t, decimal, hneg]
  rcases jsonLexNumber_text hvalid d with ⟨-, hmark⟩ | ⟨hread, -⟩
  · exact absurd rfl hmark.1
  · rw [← htext, hread]
    refine ((NumberText.reads hvalid).integer_iff d t.text t.negative i).mpr ⟨h, ?_⟩
    rw [hwrapped, show t.power = 0 by simp [t, NumberText.power, NumberText.signedExponent],
      Nat.cast_natAbs]
    by_cases hneg : i < 0
    · simp [t, hneg, abs_of_neg hneg]
    · simp [t, hneg, abs_of_nonneg (Int.not_lt.mp hneg)]

/-- A character that a quoted string may hold as it is. -/
structure Ordinary (c : Char) : Prop where
  backslash : c ≠ '\\'
  quote : c ≠ '"'
  printable : 0x20 ≤ c.toNat

variable {c : Char}

theorem Ordinary.ne_nul (h : Ordinary c) : c ≠ nul := by
  rintro rfl
  exact absurd h.printable (by decide)

theorem ordinary_hexits {w : Nat} (h : c ∈ hexits w n) : Ordinary c := by
  obtain ⟨m, rfl⟩ := mem_hexits h
  have hall : ∀ m : Fin 16, hexit m ≠ '\\' ∧ hexit m ≠ '"' ∧ 0x20 ≤ (hexit m).toNat := by decide
  obtain ⟨h1, h2, h3⟩ := hall m
  exact ⟨h1, h2, h3⟩

/-- The three ways in which a character is printed: as it is, as a backslash and
    one character, or as a Unicode escape. -/
theorem charsEscaping_cases (h : c ≠ nul) : (Ordinary c ∧ charsEscaping c = [c]) ∨
    (∃ e, e ≠ nul ∧ simpleEscape e = some c ∧ charsEscaping c = ['\\', e]) ∨
    (0 < c.toNat ∧ c.toNat < 0x20 ∧ charsEscaping c = '\\' :: 'u' :: hexits 4 c.toNat) := by
  have hpos : 0 < c.toNat := by
    apply Nat.pos_of_ne_zero
    intro hzero
    exact h (Char.toNat_inj.mp hzero)
  unfold charsEscaping
  split_ifs with hb ht hn hf hr hlow hq hs
  · exact .inr (.inl ⟨'b', by decide, hb ▸ rfl, rfl⟩)
  · exact .inr (.inl ⟨'t', by decide, ht ▸ rfl, rfl⟩)
  · exact .inr (.inl ⟨'n', by decide, hn ▸ rfl, rfl⟩)
  · exact .inr (.inl ⟨'f', by decide, hf ▸ rfl, rfl⟩)
  · exact .inr (.inl ⟨'r', by decide, hr ▸ rfl, rfl⟩)
  · exact .inr (.inr ⟨hpos, hlow, rfl⟩)
  · exact .inr (.inl ⟨'"', by decide, by rw [hq]; rfl, rfl⟩)
  · exact .inr (.inl ⟨'\\', by decide, by rw [hs]; rfl, rfl⟩)
  · exact .inl ⟨⟨hs, hq, Nat.le_of_not_lt hlow⟩, rfl⟩

theorem nul_not_mem_charsEscaping (h : c ≠ nul) : nul ∉ charsEscaping c := by
  rcases charsEscaping_cases h with ⟨-, heq⟩ | ⟨e, he, -, heq⟩ | ⟨-, -, heq⟩
  · simpa [heq] using h.symm
  · rw [heq]
    simpa using ⟨by decide, he.symm⟩
  · rw [heq]
    simp only [mem_cons, not_or]
    refine ⟨by decide, by decide, fun hmem => (ordinary_hexits hmem).ne_nul rfl⟩

variable {s : List Char}

theorem nul_not_mem_escaped (h : nul ∉ s) : nul ∉ s.flatMap charsEscaping := by
  rw [mem_flatMap]
  rintro ⟨c, hc, hmem⟩
  exact nul_not_mem_charsEscaping (fun heq => h (heq ▸ hc)) hmem

theorem charsEscaping_of_no_backslash (h : c ≠ nul) (hc : '\\' ∉ charsEscaping c) :
    charsEscaping c = [c] := by
  rcases charsEscaping_cases h with ⟨-, heq⟩ | ⟨e, -, -, heq⟩ | ⟨-, -, heq⟩
  · exact heq
  · exact absurd (by simp [heq]) hc
  · exact absurd (by simp [heq]) hc

theorem escaped_of_no_backslash (h : nul ∉ s) (hs : '\\' ∉ s.flatMap charsEscaping) :
    s.flatMap charsEscaping = s := by
  induction s with
  | nil => rfl
  | cons c s ih =>
    rw [flatMap_cons, mem_append, not_or] at hs
    rw [mem_cons, not_or] at h
    rw [flatMap_cons, charsEscaping_of_no_backslash (Ne.symm h.1) hs.1, ih h.2 hs.2]
    rfl

theorem jsonLexUnicode_hexits {rest : List Char} (hpos : 0 < n) (h : n < 0x20) :
    jsonLexUnicode (hexits 4 n ++ rest) = .ok ([Char.ofNat n], 4) := by
  have hlex : jsonLex4hex (hexits 4 n ++ rest) = .ok n := by
    rw [jsonLex4hex, if_neg (by simp), hexitsValue_hexits rest (by omega)]
    exact if_neg hpos.ne'
  have hsurrogate : ¬(0xd800 ≤ n ∧ n ≤ 0xdbff) := by omega
  have hbytes : utf8Bytes n = [Char.ofNat n] := if_pos (by omega)
  simp [jsonLexUnicode, hlex, hsurrogate, hbytes, bind, Except.bind, pure, Except.pure]

/-- The loop of `json_string_unescape` undoes the escape of one character. -/
theorem unescapeLoop_charsEscaping (out rest : List Char) (h : c ≠ nul) :
    unescapeLoop out (charsEscaping c ++ rest) = unescapeLoop (out ++ [c]) rest := by
  rcases charsEscaping_cases h with ⟨ho, heq⟩ | ⟨e, -, he, heq⟩ | ⟨hpos, hlow, heq⟩
  · rw [heq, singleton_append, unescapeLoop.eq_def]
    simp [ho.quote, ho.backslash]
  · rw [heq, cons_append, singleton_append, unescapeLoop.eq_def]
    simp [he]
  · have hu : simpleEscape 'u' = none := by decide
    rw [heq, cons_append, cons_append, unescapeLoop.eq_def]
    simp [hu, jsonLexUnicode_hexits hpos hlow]

theorem unescapeLoop_escaped (out : List Char) (h : nul ∉ s) :
    unescapeLoop out (s.flatMap charsEscaping) = .ok (out ++ s) := by
  induction s generalizing out with
  | nil => simp [unescapeLoop]
  | cons c s ih =>
    rw [mem_cons, not_or] at h
    rw [flatMap_cons, unescapeLoop_charsEscaping out _ (Ne.symm h.1), ih _ h.2,
      append_assoc, singleton_append]

theorem jsonLexString_escaped (h : nul ∉ s) :
    jsonLexString (s.flatMap charsEscaping) = .ok (.string s) := by
  rw [jsonLexString]
  split
  · rw [jsonStringUnescape, unescapeLoop_escaped [] h]
    rfl
  next hs => rw [escaped_of_no_backslash h hs]

/-! ## 3. Following the parser -/

def Position.after (q : Position) (text : List Char) : Position := text.foldl Position.next q

/-- What the parser has read and what it expects next. -/
structure Point where
  state : JsonParseState
  stack : List JsonParserNode
  name : Option (List Char)

/-- The parser at a point of its input, in the middle of a token. -/
def Point.lexing (s : Point) (lexState : JsonLexState) (buffer : List Char) (q : Position) :
    JsonParser where
  trailer := true
  lexState := lexState
  buffer := buffer
  position := q
  parseState := s.state
  stack := s.stack
  memberName := s.name

/-- The parser at a point of its input, between two tokens. -/
def Point.parser (s : Point) (q : Position) : JsonParser := s.lexing .start [] q

/-- The characters that may follow a value inside an object or an array. -/
def Delimiter (c : Char) : Prop := c = ',' ∨ c = ']' ∨ c = '\x7d'

variable {d : Doubles}

/-- Reading `text` leads from one point to another, whatever follows. -/
def Takes (d : Doubles) (s : Point) (text : List Char) (s' : Point) : Prop :=
  ∀ q rest, jsonParserFeed d (s.parser q) (text ++ rest) =
    jsonParserFeed d (s'.parser (q.after text)) rest

/-- Reading `text` leads from one point to another when a delimiter follows. -/
def TakesValue (d : Doubles) (s : Point) (text : List Char) (s' : Point) : Prop :=
  ∀ q c rest, Delimiter c → jsonParserFeed d (s.parser q) (text ++ c :: rest) =
    jsonParserFeed d (s'.parser (q.after text)) (c :: rest)

theorem Position.after_append {q : Position} {t : List Char} :
    q.after (s ++ t) = (q.after s).after t :=
  foldl_append

variable {s s' s'' : Point} {t u : List Char} {p' p : JsonParser}

theorem Takes.append (h : Takes d s t s') (h' : Takes d s' u s'') : Takes d s (t ++ u) s'' := by
  intro q rest
  rw [append_assoc, h, h', Position.after_append]

theorem Takes.value (h : Takes d s t s') : TakesValue d s t s' :=
  fun q c rest _ => h q (c :: rest)

theorem Takes.appendValue (h : Takes d s t s')
    (h' : TakesValue d s' u s'') : TakesValue d s (t ++ u) s'' := by
  intro q c rest hc
  rw [append_assoc, h, h' _ c rest hc, Position.after_append]

theorem TakesValue.append
    (h : TakesValue d s t s') (hc : Delimiter c) (h' : Takes d s' (c :: u) s'') :
    Takes d s (t ++ c :: u) s'' := by
  intro q rest
  rw [append_assoc, cons_append, h q c _ hc, ← cons_append, h', Position.after_append]

theorem feed_taken (cs : List Char) (hdone : p.done = false) (h : jsonLexInput d p c = (p', true)) :
    jsonParserFeed d p (c :: cs) = jsonParserFeed d (p'.advance c) cs := by
  rw [jsonParserFeed, hdone, if_neg (by decide), h]

theorem feed_again (hdone : p.done = false)
    (h : jsonLexInput d p c = (p', false)) (hstart : p'.lexState = .start)
    (hdone' : p'.done = false) : jsonParserFeed d p (c :: cs) = jsonParserFeed d p' (c :: cs) := by
  have htaken : jsonLexInput d p' c = (jsonLexStart p' c, true) := by
    rw [jsonLexInput, hstart]
  rw [feed_taken cs hdone' htaken, jsonParserFeed, hdone, if_neg (by decide), h]
  show (if p'.done then _ else jsonParserFeed d ((jsonLexInput d p' c).1.advance c) cs) = _
  rw [hdone', if_neg (by decide), htaken]

theorem feed_collected {lexState : JsonLexState}
    (h : ∀ c ∈ cs, ∀ buffer q, jsonLexInput d (s.lexing lexState buffer q) c =
      (s.lexing lexState (buffer ++ [c]) q, true))
    (buffer : List Char) (q : Position) (rest : List Char) :
    jsonParserFeed d (s.lexing lexState buffer q) (cs ++ rest) =
      jsonParserFeed d (s.lexing lexState (buffer ++ cs) (q.after cs)) rest := by
  induction cs generalizing buffer q with
  | nil => simp [Position.after]
  | cons c cs ih =>
    rw [cons_append, feed_taken _ rfl (h c mem_cons_self buffer q)]
    have hrest := ih (fun c hc => h c (mem_cons_of_mem _ hc)) (buffer ++ [c]) (q.next c)
    rw [append_assoc, singleton_append] at hrest
    exact hrest

/-- The parser proper moves from one point to another on a token. -/
def Steps (s : Point) (token : JsonToken) (s' : Point) : Prop :=
  ∀ lexState buffer q, jsonParserStep (s.lexing lexState buffer q) token =
    s'.lexing lexState buffer q

variable {token : JsonToken}

theorem Steps.input (h : Steps s token s')
    (lexState : JsonLexState) (buffer : List Char) (q : Position) :
    inputToken (s.lexing lexState buffer q) (.ok token) = s'.parser q := by
  show { jsonParserStep (s.lexing lexState buffer q) token with
    lexState := .start, buffer := [] } = _
  rw [h]
  rfl

theorem takesValue_word (lexState : JsonLexState) (hstep : Steps s token s')
    (hstart : ∀ q, jsonLexStart (s.parser q) c = s.lexing lexState [c] q)
    (hword : ∀ x ∈ cs, ∀ buffer q, jsonLexInput d (s.lexing lexState buffer q) x =
      (s.lexing lexState (buffer ++ [x]) q, true))
    (hend : ∀ x q, Delimiter x → jsonLexInput d (s.lexing lexState (c :: cs) q) x =
      (inputToken (s.lexing lexState (c :: cs) q) (.ok token), false)) :
    TakesValue d s (c :: cs) s' := by
  intro q x rest hx
  have htaken : jsonLexInput d (s.parser q) c = (s.lexing lexState [c] q, true) :=
    congrArg (·, true) (hstart q)
  rw [cons_append, feed_taken _ rfl htaken]
  show jsonParserFeed d (s.lexing lexState [c] (q.next c)) (cs ++ x :: rest) = _
  have hinput := hend x (q.after (c :: cs)) hx
  rw [hstep.input] at hinput
  rw [feed_collected hword]
  exact feed_again rfl hinput rfl rfl

theorem isLower_of_isDigit (h : c.isDigit = true) : c.isLower = false := by
  rw [Char.isDigit, Bool.and_eq_true, decide_eq_true_eq, decide_eq_true_eq] at h
  show (decide (c.val ≥ 'a'.val) && decide (c.val ≤ 'z'.val)) = false
  rw [Bool.and_eq_false_iff, decide_eq_false_iff_not]
  left
  intro hle
  exact absurd (UInt32.le_trans hle h.2) (by decide)

theorem jsonLexStart_number (h : c = '-' ∨ c.isDigit = true)
    (q : Position) : jsonLexStart (s.parser q) c = s.lexing .number [c] q := by
  have hblank : isBlank c = false := by
    rw [Bool.eq_false_iff]
    intro hb
    simp only [isBlank, Bool.or_eq_true, beq_iff_eq] at hb
    rcases hb with ((rfl | rfl) | rfl) | rfl <;> exact absurd h (by decide)
  have hlower : c.isLower = false := by
    rcases h with rfl | h
    · decide
    · exact isLower_of_isDigit h
  rw [jsonLexStart, hblank, hlower, if_neg (by decide), if_neg (by decide), if_pos h]
  rfl

theorem takesValue_integer (h : IsLongLong i)
    (hstep : Steps s (.integer i) s') : TakesValue d s (decimal i) s' := by
  have hchars : ∀ x ∈ decimal i, x = '-' ∨ x.isDigit = true := fun x hx => mem_decimal hx
  have hnumber : ∀ x ∈ decimal i, isNumberChar x = true := by
    intro x hx
    rcases hchars x hx with rfl | hdigit
    · decide
    · simp [isNumberChar, hdigit]
  have hnul := nul_not_mem_decimal i
  have hne := decimal_ne_nil i
  have hlex := jsonLexNumber_decimal d h
  obtain ⟨c, cs, hdec⟩ := exists_cons_of_ne_nil hne
  rw [hdec] at hchars hnumber hnul hlex ⊢
  apply takesValue_word .number hstep (jsonLexStart_number (hchars c mem_cons_self))
  · intro x hx buffer q
    simp only [jsonLexInput, Point.lexing, hnumber x (mem_cons_of_mem _ hx), if_true]
    rfl
  · intro x q hx
    have hx : isNumberChar x = false := by
      rcases hx with rfl | rfl | rfl <;> decide
    simp [jsonLexInput, Point.lexing, hx, cstr_of_not_mem hnul, hlex]

theorem takesValue_keyword (hlex : jsonLexKeyword (c :: cs) = .ok token) (hc : c.isLower = true)
    (hcs : (c :: cs).all Char.isAlpha = true) (hstep : Steps s token s') :
    TakesValue d s (c :: cs) s' := by
  rw [all_eq_true] at hcs
  have hblank : isBlank c = false := by
    rw [Bool.eq_false_iff]
    intro hb
    simp only [isBlank, Bool.or_eq_true, beq_iff_eq] at hb
    rcases hb with ((rfl | rfl) | rfl) | rfl <;> exact absurd hc (by decide)
  have hnul : nul ∉ c :: cs := fun hmem => absurd (hcs nul hmem) (by decide)
  apply takesValue_word .keyword hstep
  · intro q
    rw [jsonLexStart, hblank, if_neg (by decide), if_pos hc]
    rfl
  · intro x hx buffer q
    simp only [jsonLexInput, Point.lexing, hcs x (mem_cons_of_mem _ hx), if_true]
    rfl
  · intro x q hx
    have hx : x.isAlpha = false := by
      rcases hx with rfl | rfl | rfl <;> decide
    simp [jsonLexInput, Point.lexing, hx, cstr_of_not_mem hnul, hlex]

variable {buffer rest : List Char} {q : Position}

theorem lex_ordinary (h : Ordinary c) : jsonLexInput d (s.lexing .string buffer q) c =
      (s.lexing .string (buffer ++ [c]) q, true) := by
  show (if c = '\\' then _ else if c = '"' then _ else if c.toNat < 0x20 then _ else _) = _
  rw [if_neg h.backslash, if_neg h.quote, if_neg (Nat.not_lt.mpr h.printable)]
  rfl

theorem feed_escape (e : Char) : jsonParserFeed d (s.lexing .string buffer q) ('\\' :: e :: rest) =
      jsonParserFeed d (s.lexing .string (buffer ++ ['\\', e]) (q.after ['\\', e])) rest := by
  have hbackslash : jsonLexInput d (s.lexing .string buffer q) '\\' =
      (s.lexing .escape (buffer ++ ['\\']) q, true) := rfl
  have hescaped : jsonLexInput d ((s.lexing .escape (buffer ++ ['\\']) q).advance '\\') e =
      (s.lexing .string (buffer ++ ['\\'] ++ [e]) (q.next '\\'), true) := rfl
  rw [feed_taken _ rfl hbackslash, feed_taken _ rfl hescaped, append_assoc]
  rfl

theorem feed_charsEscaping (h : c ≠ nul) :
    jsonParserFeed d (s.lexing .string buffer q) (charsEscaping c ++ rest) =
      jsonParserFeed d (s.lexing .string (buffer ++ charsEscaping c)
        (q.after (charsEscaping c))) rest := by
  rcases charsEscaping_cases h with ⟨ho, heq⟩ | ⟨e, -, -, heq⟩ | ⟨-, -, heq⟩
  · rw [heq]
    exact feed_taken rest rfl (lex_ordinary ho)
  · rw [heq]
    exact feed_escape e
  · have hhex := @feed_collected (hexits 4 c.toNat) d s .string
      fun x hx _ _ => lex_ordinary (ordinary_hexits hx)
    rw [heq, cons_append, cons_append, feed_escape, hhex, append_assoc]
    rfl

variable {text : List Char} {depth : Nat}

theorem feed_escaped (h : nul ∉ text) :
    jsonParserFeed d (s.lexing .string buffer q) (text.flatMap charsEscaping ++ rest) =
      jsonParserFeed d (s.lexing .string (buffer ++ text.flatMap charsEscaping)
        (q.after (text.flatMap charsEscaping))) rest := by
  induction text generalizing buffer q with
  | nil => simp [Position.after]
  | cons c text ih =>
    rw [mem_cons, not_or] at h
    rw [flatMap_cons, append_assoc, feed_charsEscaping (Ne.symm h.1), ih h.2,
      append_assoc, Position.after_append]

theorem takes_string (h : nul ∉ text)
    (hstep : Steps s (.string text) s') : Takes d s (jsonSerializeString text) s' := by
  intro q rest
  have hopen : jsonLexInput d (s.parser q) '"' = (s.lexing .string [] q, true) := rfl
  have hclose (q : Position) :
      jsonLexInput d (s.lexing .string (text.flatMap charsEscaping) q) '"' =
        (s'.parser q, true) := by
    show (inputToken _ (jsonLexString (cstr (text.flatMap charsEscaping))), true) = _
    rw [cstr_of_not_mem (nul_not_mem_escaped h), jsonLexString_escaped h, hstep.input]
  rw [jsonSerializeString, cstr_of_not_mem h, cons_append, cons_append,
    feed_taken _ rfl hopen, append_assoc]
  show jsonParserFeed d (s.lexing .string [] (q.next '"')) _ = _
  rw [feed_escaped h, nil_append, singleton_append, feed_taken _ rfl (hclose _)]
  show jsonParserFeed d (s'.parser _) rest = jsonParserFeed d (s'.parser _) rest
  rw [← cons_append, Position.after_append]
  rfl

theorem takes_blanks (h : ∀ c ∈ text, isBlank c = true) : Takes d s text s := by
  intro q rest
  induction text generalizing q with
  | nil => rfl
  | cons c text ih =>
    have hblank : jsonLexInput d (s.parser q) c = (s.parser q, true) := by
      show (jsonLexStart (s.parser q) c, true) = _
      rw [jsonLexStart, if_pos (h c mem_cons_self)]
    rw [cons_append, feed_taken _ rfl hblank]
    exact ih (fun x hx => h x (mem_cons_of_mem _ hx)) (q.next c)

theorem takes_indentLine {f : SerializeFlags} : Takes d s (indentLine f depth) s := by
  apply takes_blanks
  intro c hc
  rw [indentLine] at hc
  split at hc
  · rcases mem_cons.mp hc with rfl | hc
    · decide
    · rw [(mem_replicate.mp hc).2]
      decide
  · cases hc

theorem takes_punctuation
    (h : punctuation c = some token) (hstep : Steps s token s') : Takes d s [c] s' := by
  intro q rest
  have hstart : jsonLexStart (s.parser q) c = inputToken (s.parser q) (.ok token) := by
    unfold punctuation at h
    split_ifs at h with h1 h2 h3 h4 h5 h6 <;> subst_vars <;> cases h <;> rfl
  have htaken : jsonLexInput d (s.parser q) c = (s'.parser q, true) := by
    show (jsonLexStart (s.parser q) c, true) = _
    rw [hstart]
    exact congrArg (·, true) (hstep.input .start [] q)
  exact feed_taken rest rfl htaken

/-! ## 4. Reading a value -/

/-- The points at which the parser expects a value inside an object or an array. -/
inductive Point.Expects : Point → Prop
  | first (slot : Option (List Char)) (elems : List Json) (below : List JsonParserNode) :
      Expects ⟨.arrayInit, ⟨slot, .array elems⟩ :: below, none⟩
  | element (slot : Option (List Char)) (elems : List Json) (below : List JsonParserNode) :
      Expects ⟨.arrayValue, ⟨slot, .array elems⟩ :: below, none⟩
  | member (slot : Option (List Char)) (members : List (String × Json))
      (below : List JsonParserNode) (name : List Char) :
      Expects ⟨.objectValue, ⟨slot, .object members⟩ :: below, some name⟩

/-- The points at which the parser accepts the given value: a whole text is an
    object or an array. -/
inductive Point.Admits : Point → Json → Prop
  | root {j : Json} (h : j.IsContainer) : Admits ⟨.start, [], none⟩ j
  | inside {s : Point} {j : Json} (h : s.Expects) : Admits s j

def Point.fill (s : Point) (value : Json) : Point :=
  match s.stack with
  | [] => ⟨.end, [⟨s.name, value⟩], none⟩
  | node :: below => ⟨node.nextState, node.put s.name value :: below, none⟩

/-- The point inside an object or an array that was opened at `s`. -/
def Point.inside (s : Point) (state : JsonParseState) (json : Json) : Point :=
  ⟨state, ⟨s.name, json⟩ :: s.stack, none⟩

def JsonToken.value : JsonToken → Option Json
  | .false => some (.bool Bool.false)
  | .null => some .null
  | .true => some (.bool Bool.true)
  | .integer i => some (.integer i)
  | .string s => some (.string (String.ofList s))
  | _ => none

theorem steps_value {value : Json} (hs : s.Expects)
    (h : token.value = some value) : Steps s token (s.fill value) := by
  intro lexState buffer q
  cases token <;> cases h <;> cases hs <;> rfl

theorem steps_beginArray (hs : s.Admits (.array elems)) (hroom : s.stack.length < jsonMaxHeight) :
    Steps s .beginArray (s.inside .arrayInit (.array [])) := by
  intro lexState buffer q
  have hpush : jsonParserPushArray (s.lexing lexState buffer q) =
      (s.inside .arrayInit (.array [])).lexing lexState buffer q := if_pos hroom
  rcases hs with _ | ⟨⟨⟩⟩ <;> exact hpush

theorem steps_beginObject
    (hs : s.Admits (.object members)) (hroom : s.stack.length < jsonMaxHeight) :
    Steps s .beginObject (s.inside .objectInit (.object [])) := by
  intro lexState buffer q
  have hpush : jsonParserPushObject (s.lexing lexState buffer q) =
      (s.inside .objectInit (.object [])).lexing lexState buffer q := if_pos hroom
  rcases hs with _ | ⟨⟨⟩⟩ <;> exact hpush

theorem pop_inside (s : Point) (state : JsonParseState) (json : Json)
    (lexState : JsonLexState) (buffer : List Char) (q : Position) :
    jsonParserPop ((s.inside state json).lexing lexState buffer q) =
      (s.fill json).lexing lexState buffer q := by
  obtain ⟨state, stack, name⟩ := s
  cases stack <;> rfl

variable {state : JsonParseState} {texts : List (List Char)}

theorem takes_end (h : punctuation c = some token)
    (hpop : ∀ lexState buffer q, jsonParserStep ((s.inside state json).lexing lexState buffer q) token =
      jsonParserPop ((s.inside state json).lexing lexState buffer q)) :
    Takes d (s.inside state json) [c] (s.fill json) := by
  apply takes_punctuation h
  intro lexState buffer q
  rw [hpop, pop_inside]

theorem commaSeparated_singleton {f : SerializeFlags} : commaSeparated f depth [text] = text := by
  simp [commaSeparated, List.intercalate]

theorem commaSeparated_cons_cons {f : SerializeFlags} {text' : List Char}
    : commaSeparated f depth (text :: text' :: texts) =
      text ++ ',' :: (indentLine f depth ++ commaSeparated f depth (text' :: texts)) := by
  simp [commaSeparated, List.intercalate, List.intersperse]

/-- That the printed form of a value is read back, wherever one is expected. -/
def ReadsBack (d : Doubles) (f : SerializeFlags) (j : Json) : Prop :=
  ∀ s depth, s.Admits j → s.stack.length + j.nesting ≤ jsonMaxHeight →
    TakesValue d s (jsonSerialize d f depth j) (s.fill (j.arrange f))

variable {f : SerializeFlags} {name : String} {α : Type}

/-- Items of an object or an array, separated by commas, and the character that closes it. -/
theorem takes_items {β : Type} {xs : List α} {text : α → List Char} {g : α → β}
    {mk : List β → Json} {P : List β → Prop} (init value next : JsonParseState) (hc : Delimiter c)
    (hitem : ∀ x ∈ xs, ∀ before after state, P (before ++ g x :: after) →
      (state = init ∨ state = value) → TakesValue d (s.inside state (mk before)) (text x)
        (s.inside next (mk (before ++ [g x]))))
    (hcomma : ∀ items, Takes d (s.inside next (mk items)) [','] (s.inside value (mk items)))
    (hend : ∀ items, Takes d (s.inside next (mk items)) [c] (s.fill (mk items))) (depth : Nat)
    (hne : xs ≠ []) (before : List β) (hP : P (before ++ xs.map g))
    (hstate : state = init ∨ state = value) :
    Takes d (s.inside state (mk before)) (commaSeparated f depth (xs.map text) ++ [c])
      (s.fill (mk (before ++ xs.map g))) := by
  induction xs generalizing before state with
  | nil => exact absurd rfl hne
  | cons x xs ih =>
    have hx := hitem x mem_cons_self before (xs.map g) state hP hstate
    cases xs with
    | nil =>
      rw [map_singleton, map_singleton, commaSeparated_singleton]
      exact hx.append hc (hend _)
    | cons x' xs =>
      have hrest := ih (fun y hy => hitem y (mem_cons_of_mem _ hy)) (cons_ne_nil _ _)
        (before ++ [g x]) (by simpa using hP) (.inr rfl)
      rw [append_assoc, singleton_append] at hrest
      rw [map_cons, map_cons, commaSeparated_cons_cons, append_assoc, cons_append, append_assoc]
      exact hx.append (.inl rfl) ((hcomma _).append (takes_indentLine.append hrest))

theorem takes_array (hread : ∀ e ∈ elems, ReadsBack d f e) (hs : s.Admits (.array elems))
    (hroom : s.stack.length + (Json.array elems).nesting ≤ jsonMaxHeight) :
    Takes d s (jsonSerialize d f depth (.array elems)) (s.fill ((Json.array elems).arrange f)) := by
  rw [Json.nesting] at hroom
  have hopen : Takes d s ['['] (s.inside .arrayInit (.array [])) :=
    takes_punctuation rfl (steps_beginArray hs (by omega))
  rw [jsonSerialize, Json.arrange, Json.arrangeElems_eq, elemTexts_eq]
  by_cases hne : elems = []
  · subst hne
    exact hopen.append (takes_end rfl fun _ _ _ => rfl)
  · rw [if_neg (by simpa using hne)]
    refine hopen.append (takes_indentLine.append (takes_items (P := fun _ => True) .arrayInit
      .arrayValue .arrayNext (.inr (.inl rfl)) ?_ (fun _ => takes_punctuation rfl fun _ _ _ => rfl)
      (fun _ => takes_end rfl fun _ _ _ => rfl) (depth + 1) hne [] trivial (.inl rfl)))
    intro e he before _ state _ hstate
    have hexpects : (s.inside state (.array before)).Expects := by
      rcases hstate with rfl | rfl
      · exact .first _ _ _
      · exact .element _ _ _
    have hnesting := Json.nesting_le_elems he
    exact hread e he _ _ (.inside hexpects) (show s.stack.length + 1 + e.nesting ≤ _ by omega)

theorem shashReplace_of_not_mem (h : name ∉ members.map Prod.fst) {value : Json} :
    shashReplace members name value = members ++ [(name, value)] := by
  rw [shashReplace, if_neg]
  · rfl
  · intro hany
    obtain ⟨m, hm, heq⟩ := any_eq_true.mp hany
    exact h (mem_map.mpr ⟨m, hm, by simpa using heq⟩)

theorem takes_member (depth : Nat) {value : Json}
    (hname : nul ∉ name.toList) (hread : ReadsBack d f value)
    (hroom : s.stack.length + 1 + value.nesting ≤ jsonMaxHeight) (before : List (String × Json))
    (hstate : state = .objectInit ∨ state = .objectName) :
    TakesValue d (s.inside state (.object before))
      (jsonSerializeObjectMember f (name, jsonSerialize d f depth value))
      (s.inside .objectNext (.object (shashReplace before name (value.arrange f)))) := by
  set point := s.inside state (.object before)
  have hstring : Takes d point (jsonSerializeString name.toList)
      ⟨.objectColon, point.stack, some name.toList⟩ := by
    apply takes_string hname
    intro lexState buffer q
    rcases hstate with rfl | rfl <;> rfl
  have hcolon : Takes d ⟨.objectColon, point.stack, some name.toList⟩
      [':'] ⟨.objectValue, point.stack, some name.toList⟩ :=
    takes_punctuation rfl fun _ _ _ => rfl
  have hblank : Takes d ⟨.objectValue, point.stack, some name.toList⟩
      (if f.pretty then [' '] else [])
      ⟨.objectValue, point.stack, some name.toList⟩ := by
    apply takes_blanks
    intro c hc
    split at hc
    · rw [mem_singleton.mp hc]
      decide
    · cases hc
  have hvalue := hread ⟨.objectValue, point.stack, some name.toList⟩
    depth (.inside (.member _ _ _ _)) hroom
  have hfill : Point.fill ⟨.objectValue, point.stack, some name.toList⟩
      (value.arrange f) =
      s.inside .objectNext (.object (shashReplace before name (value.arrange f))) := by
    show Point.mk _ (JsonParserNode.mk _ (.object (shashReplace before
      (String.ofList name.toList) _)) :: _) _ = _
    rw [String.ofList_toList]
    rfl
  rw [hfill] at hvalue
  exact hstring.appendValue (hcolon.appendValue (hblank.appendValue hvalue))

theorem takes_object (depth : Nat) (hread : ∀ m ∈ members, ReadsBack d f m.2)
    (hnames : ∀ m ∈ members, nul ∉ m.1.toList) (hdistinct : (members.map Prod.fst).Nodup)
    (hs : s.Admits (.object members))
    (hroom : s.stack.length + (Json.object members).nesting ≤ jsonMaxHeight) :
    Takes d s (jsonSerialize d f depth (.object members))
      (s.fill ((Json.object members).arrange f)) := by
  rw [Json.nesting] at hroom
  have hopen : Takes d s ['\x7b'] (s.inside .objectInit (.object [])) :=
    takes_punctuation rfl (steps_beginObject hs (by omega))
  have hperm := memberOrder_perm f members
  rw [jsonSerialize, Json.arrange, Json.arrangeMembers_eq, memberTexts_eq, memberOrder_map,
    memberOrder_map, map_map]
  apply hopen.append
  apply takes_indentLine.append
  by_cases hne : memberOrder f members = []
  · rw [hne]
    exact takes_end rfl fun _ _ _ => rfl
  · refine takes_items (P := fun items => (items.map Prod.fst).Nodup) .objectInit .objectName
      .objectNext (.inr (.inr rfl)) ?_ (fun _ => takes_punctuation rfl fun _ _ _ => rfl)
      (fun _ => takes_end rfl fun _ _ _ => rfl) (depth + 1) hne [] ?_ (.inl rfl)
    · intro m hm before after state hnodup hstate
      have hm := hperm.mem_iff.mp hm
      have hnesting := Json.nesting_le_members hm
      have hfresh : m.1 ∉ before.map Prod.fst := by
        intro hmem
        rw [map_append] at hnodup
        exact (nodup_append.mp hnodup).2.2 _ hmem _ mem_cons_self rfl
      have hmember := takes_member (depth + 1) (hnames m hm) (hread m hm)
        (show s.stack.length + 1 + m.2.nesting ≤ _ by omega) before hstate
      rwa [shashReplace_of_not_mem hfresh] at hmember
    · rw [nil_append, map_map]
      exact (hperm.map Prod.fst).nodup_iff.mpr hdistinct

variable {j : Json}

theorem ReadsBack.of_scalar (hj : ¬ j.IsContainer) (h : ∀ s depth, s.Expects →
      TakesValue d s (jsonSerialize d f depth j) (s.fill (j.arrange f))) : ReadsBack d f j := by
  intro s depth hs _
  obtain ⟨hroot⟩ | ⟨hs⟩ := hs
  · exact absurd hroot hj
  · exact h s depth hs

theorem readsBack_of_plain (hj : j.Plain) : ReadsBack d f j := by
  induction j using Json.induction with
  | null => exact .of_scalar id fun s _ hs => takesValue_keyword rfl rfl rfl (steps_value hs rfl)
  | bool b =>
    apply ReadsBack.of_scalar id
    intro s _ hs
    cases b
    · exact takesValue_keyword rfl rfl rfl (steps_value hs rfl)
    · exact takesValue_keyword rfl rfl rfl (steps_value hs rfl)
  | integer i =>
    cases hj with
    | integer h => exact .of_scalar id fun s _ hs => takesValue_integer h (steps_value hs rfl)
  | real bits => cases hj
  | string text =>
    cases hj with
    | string h =>
      apply ReadsBack.of_scalar id
      intro s _ hs
      have hvalue : Steps s (.string text.toList) (s.fill (.string text)) :=
        steps_value hs (congrArg (some ∘ Json.string) String.ofList_toList)
      exact (takes_string h hvalue).value
  | array elems ih =>
    intro s depth hs hroom
    cases hj with
    | array h => exact (takes_array (fun e he => ih e he (h e he)) hs hroom).value
  | object members ih =>
    intro s depth hs hroom
    cases hj with
    | object hdistinct hnames h =>
      exact (takes_object depth (fun m hm => ih m hm (h m hm)) hnames hdistinct hs hroom).value

theorem jsonParserFinish_jsonToString (d : Doubles) (f : SerializeFlags)
    (hj : j.Plain) (hroot : j.IsContainer) (hnesting : j.nesting ≤ jsonMaxHeight)
    {blanks : List Char} (hblanks : ∀ c ∈ blanks, isBlank c = true) : jsonParserFinish d
      (jsonParserFeed d (jsonParserCreate true) (jsonToString d j f ++ blanks)).1 =
      some (j.arrange f) := by
  have htakes : Takes d ⟨.start, [], none⟩ (jsonToString d j f)
      ⟨.end, [⟨none, j.arrange f⟩], none⟩ := by
    cases hj with
    | array h =>
      exact takes_array (fun e he => readsBack_of_plain (h e he)) (.root hroot)
        (by simpa using hnesting)
    | object hdistinct hnames h =>
      exact takes_object 0 (fun m hm => readsBack_of_plain (h m hm)) hnames hdistinct (.root hroot)
        (by simpa using hnesting)
    | _ => exact hroot.elim
  have hfeed := (htakes.append (takes_blanks hblanks)) {} []
  rw [append_nil] at hfeed
  rw [show jsonParserCreate true = Point.parser ⟨.start, [], none⟩ {} from rfl, hfeed]
  rfl

/-! ## 5. The text is a C string -/

theorem nul_not_mem_jsonSerializeString (s : List Char) : nul ∉ jsonSerializeString s := by
  have hcstr : nul ∉ cstr s := by
    intro hmem
    simpa using mem_takeWhile_imp hmem
  rw [jsonSerializeString, cons_append, mem_cons, mem_append, mem_singleton]
  rintro (h | h | h)
  · exact absurd h (by decide)
  · exact nul_not_mem_escaped hcstr h
  · exact absurd h (by decide)

theorem nul_not_mem_indentLine : nul ∉ indentLine f depth := by
  rw [indentLine]
  split
  · rw [mem_cons, mem_replicate]
    rintro (h | ⟨-, h⟩) <;> exact absurd h (by decide)
  · exact not_mem_nil

theorem nul_not_mem_commaSeparated
    (h : ∀ t ∈ texts, nul ∉ t) : nul ∉ commaSeparated f depth texts := by
  induction texts with
  | nil => exact not_mem_nil
  | cons t texts ih =>
    have ht := h t mem_cons_self
    have ih := ih fun x hx => h x (mem_cons_of_mem _ hx)
    cases texts with
    | nil =>
      rw [commaSeparated_singleton]
      exact ht
    | cons t' texts =>
      rw [commaSeparated_cons_cons, mem_append, mem_cons, mem_append]
      rintro (hmem | hmem | hmem | hmem)
      · exact ht hmem
      · exact absurd hmem (by decide)
      · exact nul_not_mem_indentLine hmem
      · exact ih hmem

theorem nul_not_mem_jsonSerialize (hj : j.Plain) (depth : Nat) :
    nul ∉ jsonSerialize d f depth j := by
  induction j using Json.induction generalizing depth with
  | null =>
    rw [jsonSerialize]
    decide
  | bool b =>
    cases b
    · rw [jsonSerialize]
      decide
    · rw [jsonSerialize]
      decide
  | integer i => exact nul_not_mem_decimal i
  | real bits => cases hj
  | string s => exact nul_not_mem_jsonSerializeString s.toList
  | array elems ih =>
    cases hj with
    | array h =>
      have helems : ∀ t ∈ elems.map (jsonSerialize d f (depth + 1)), nul ∉ t := by
        intro t ht
        obtain ⟨e, he, rfl⟩ := mem_map.mp ht
        exact ih e he (h e he) (depth + 1)
      rw [jsonSerialize, elemTexts_eq]
      simp only [mem_cons, mem_append, not_mem_nil, or_false, not_or]
      refine ⟨by decide, ?_, nul_not_mem_commaSeparated helems, by decide⟩
      split
      · exact not_mem_nil
      · exact nul_not_mem_indentLine
  | object members ih =>
    cases hj with
    | object hdistinct hnames h =>
      have hmembers : ∀ t ∈ (memberOrder f (memberTexts d f (depth + 1) members)).map
          (jsonSerializeObjectMember f), nul ∉ t := by
        intro t ht
        obtain ⟨m', hm', rfl⟩ := mem_map.mp ht
        rw [(memberOrder_perm f _).mem_iff, memberTexts_eq] at hm'
        obtain ⟨m, hm, rfl⟩ := mem_map.mp hm'
        have hvalue := ih m hm (h m hm) (depth + 1)
        have hname := nul_not_mem_jsonSerializeString m.1.toList
        rw [jsonSerializeObjectMember]
        simp only [Prod.map, id, mem_append, mem_cons, not_or]
        refine ⟨hname, by decide, ?_, hvalue⟩
        split <;> decide
      rw [jsonSerialize]
      simp only [mem_cons, mem_append, not_mem_nil, or_false, not_or]
      exact ⟨by decide, nul_not_mem_indentLine, nul_not_mem_commaSeparated hmembers,
        by decide⟩

/-! ## 6. Equality up to the order of members -/

theorem lookup_eq_some_of_nodup {members : List (String × α)} {m : String × α}
    (hdistinct : (members.map Prod.fst).Nodup) (hm : m ∈ members) :
    members.lookup m.1 = some m.2 := by
  induction members with
  | nil => cases hm
  | cons x members ih =>
    obtain ⟨name, value⟩ := x
    rw [map_cons, nodup_cons] at hdistinct
    rcases mem_cons.mp hm with rfl | hm
    · exact lookup_cons_self
    · have hne : (m.1 == name) = false := by
        rw [beq_eq_false_iff_ne]
        intro heq
        exact hdistinct.1 (mem_map.mpr ⟨m, hm, heq⟩)
      rw [lookup_cons, hne]
      exact ih hdistinct.2 hm

theorem jsonEqualObject_iff {a b : List (String × Json)} : jsonEqualObject a b = true ↔
      ∀ m ∈ a, ∃ other, b.lookup m.1 = some other ∧ jsonEqual m.2 other = true := by
  induction a with
  | nil => simp [jsonEqualObject]
  | cons m a ih =>
    obtain ⟨name, value⟩ := m
    rw [jsonEqualObject, Bool.and_eq_true, ih, forall_mem_cons]
    cases b.lookup name <;> simp

theorem jsonEqualArray_map {g : Json → Json}
    (h : ∀ e ∈ elems, jsonEqual (g e) e = true) : jsonEqualArray (elems.map g) elems = true := by
  induction elems with
  | nil => rfl
  | cons e elems ih =>
    rw [map_cons, jsonEqualArray, h e mem_cons_self, ih fun x hx => h x (mem_cons_of_mem _ hx)]
    rfl

/-- `json_equal` does not see the order of the members. -/
theorem jsonEqual_arrange (f : SerializeFlags) (hj : j.Plain) :
    jsonEqual (j.arrange f) j = true := by
  induction j using Json.induction with
  | null => rfl
  | bool b => cases b <;> rfl
  | integer i => simp [Json.arrange, jsonEqual]
  | real bits => cases hj
  | string s => simp [Json.arrange, jsonEqual]
  | array elems ih =>
    cases hj with
    | array h =>
      rw [Json.arrange, Json.arrangeElems_eq, jsonEqual]
      exact jsonEqualArray_map fun e he => ih e he (h e he)
  | object members ih =>
    cases hj with
    | object hdistinct hnames h =>
      have hperm := memberOrder_perm f members
      rw [Json.arrange, Json.arrangeMembers_eq, memberOrder_map, jsonEqual, length_map,
        hperm.length_eq, beq_self_eq_true, Bool.true_and, jsonEqualObject_iff]
      intro m' hm'
      obtain ⟨m, hm, rfl⟩ := mem_map.mp hm'
      have hm := hperm.mem_iff.mp hm
      exact ⟨m.2, lookup_eq_some_of_nodup hdistinct hm, ih m hm (h m hm)⟩

/-- Without `JSSF_SORT` the text lists everything in the order of the value. -/
theorem arrange_of_unsorted (hf : f.sort = false) : j.arrange f = j := by
  induction j using Json.induction with
  | array elems ih =>
    have hmap : elems.map (Json.arrange f) = elems :=
      (map_congr_left ih).trans (map_id elems)
    rw [Json.arrange, Json.arrangeElems_eq, hmap]
  | object members ih =>
    have hmember : ∀ m ∈ members, Prod.map id (Json.arrange f) m = id m := by
      intro m hm
      exact Prod.ext rfl (ih m hm)
    have hmap : members.map (Prod.map id (Json.arrange f)) = members :=
      (map_congr_left hmember).trans (map_id members)
    rw [Json.arrange, Json.arrangeMembers_eq, hmap, memberOrder, hf]
    rfl
  | _ => rfl

/-- A printed object or array is read back as an equal value, whatever the flags. -/
theorem jsonFromString_jsonToString (d : Doubles) (f : SerializeFlags) (j : Json)
    (hj : j.Plain) (hroot : j.IsContainer) (hnesting : j.nesting ≤ jsonMaxHeight) :
    ∃ j', jsonFromString d (jsonToString d j f) = some j' ∧ jsonEqual j' j = true := by
  refine ⟨j.arrange f, ?_, jsonEqual_arrange f hj⟩
  have hcstr : cstr (jsonToString d j f) = jsonToString d j f :=
    cstr_of_not_mem (nul_not_mem_jsonSerialize hj 0)
  have hfinish := jsonParserFinish_jsonToString d f hj hroot hnesting (forall_mem_nil _)
  rw [append_nil] at hfinish
  rw [jsonFromString, hcstr]
  exact hfinish

/-- A value with both containers, an escape and a negative number in it. -/
def sampleJson : Json :=
  .object [("op", .string "a\"b\n"), ("row", .array [.integer (-1), .null, .object []])]

theorem sampleJson_plain : sampleJson.Plain := by
  apply Json.Plain.object (by decide) (by decide)
  intro m hm
  rcases mem_pair.mp hm with rfl | rfl
  · exact .string (by decide)
  · apply Json.Plain.array
    intro e he
    rcases mem_cons.mp he with rfl | he
    · exact .integer (by decide)
    · rcases mem_pair.mp he with rfl | rfl
      · exact .null
      · exact .object (by decide) (by decide) (by simp)

/-- A C library that knows no reals. -/
theorem jsonFromString_sampleJson :
    ∃ j', jsonFromString noDoubles (jsonToString noDoubles sampleJson ⟨true, true⟩) = some j' ∧
      jsonEqual j' sampleJson = true :=
  jsonFromString_jsonToString noDoubles ⟨true, true⟩ sampleJson sampleJson_plain trivial
    (by decide)

end Ovsgw
