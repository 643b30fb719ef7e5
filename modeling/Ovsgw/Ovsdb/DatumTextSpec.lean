/-
  **Printed data are read back.**

  The text of an atom is a word of harmless characters or a quoted string.
  Either way `ovsdb_token_parse` cuts it off exactly where it ends, and the token
  is converted back to the atom.
-/
import Ovsgw.JsonTextSpec
import Ovsgw.Ovsdb.DatumText

namespace Ovsgw.Ovsdb

open List
open Element (toText)

variable {d : Doubles}

/-! ## 1. Characters -/

/-- A character that `ovsdb_token_parse` takes as it is. -/
structure TokenChar (c : Char) : Prop where
  delim : tokenIsDelim c = false
  backslash : c ≠ '\\'
  quote : c ≠ '"'

variable {c : Char}

theorem TokenChar.of_isWordChar (h : isWordChar c = true) : TokenChar c where
  delim := by
    rw [tokenIsDelim, decide_eq_false_iff_not]
    exact not_mem_of_all (by decide) h
  backslash := by
    rintro rfl
    exact absurd h (by decide)
  quote := by
    rintro rfl
    exact absurd h (by decide)

theorem isWordChar_hexits {w n : Nat} (h : c ∈ hexits w n) : isWordChar c = true := by
  have hall : ∀ m : Fin 16, isWordChar (hexit m) = true := by decide
  obtain ⟨m, rfl⟩ := mem_hexits h
  exact hall m

theorem isWordChar_uuidChars {u : Uuid} (h : c ∈ uuidChars u) : isWordChar c = true := by
  simp only [uuidChars, mem_append, mem_cons] at h
  rcases h with h | h | h | h | h | h | h | h | h | h
  all_goals first
    | exact isWordChar_hexits h
    | exact h ▸ rfl

theorem isWordChar_decimal {i : Int} (h : c ∈ decimal i) : isWordChar c = true := by
  rcases mem_decimal h with rfl | h
  · decide
  · simp [isWordChar, h]

/-! ## 2. Atoms -/

/-- An atom that fits its C type, belongs to the base type and is not a real. -/
structure AtomOk (d : Doubles) (atom : Atom) (base : BaseType) : Prop where
  type : atom.type = base.type
  notReal : base.type ≠ .real
  integer : ∀ i, atom = .integer i → IsLongLong i
  string : ∀ s, atom = .string s → nul ∉ s.toList
  constraints : atomCheckConstraints d atom base = none

/-- The text of an atom that is not quoted: a word. -/
def IsWord (text : List Char) : Prop := text ≠ [] ∧ ∀ c ∈ text, isWordChar c = true

variable {text : List Char}

theorem isWord_of_all (hne : text ≠ []) (h : text.all isWordChar = true) : IsWord text :=
  ⟨hne, all_eq_true.mp h⟩

variable {s : List Char}

/-- A string without quotes is a word, and neither a quote nor an `@` begins it. -/
theorem isWord_of_not_needsQuotes (h : stringNeedsQuotes s = false) : IsWord s := by
  cases s with
  | nil => cases h
  | cons c cs =>
    simp only [stringNeedsQuotes, Bool.or_eq_false_iff, Bool.not_eq_false'] at h
    obtain ⟨⟨⟨⟨hc, hcs⟩, -⟩, -⟩, -⟩ := h
    apply isWord_of_all (cons_ne_nil _ _)
    rw [all_cons, hcs, Bool.and_true, isWordChar]
    rcases Bool.or_eq_true_iff.mp hc with hc | hc <;> simp [hc]

variable {atom : Atom} {base : BaseType}

theorem toText_cases (h : AtomOk d atom base) : IsWord (atom.toText d) ∨
    ∃ s : String, nul ∉ s.toList ∧ atom = .string s ∧
      atom.toText d = jsonSerializeString s.toList := by
  cases atom with
  | integer i => exact .inl ⟨decimal_ne_nil i, fun c hc => isWordChar_decimal hc⟩
  | real bits => exact absurd h.type.symm h.notReal
  | boolean b =>
    left
    cases b
    · exact isWord_of_all (cons_ne_nil _ _) rfl
    · exact isWord_of_all (cons_ne_nil _ _) rfl
  | string s =>
    rw [Atom.toText]
    split
    · exact .inr ⟨s, h.string s rfl, rfl, rfl⟩
    next hquotes => exact .inl (isWord_of_not_needsQuotes (Bool.eq_false_iff.mpr hquotes))
  | uuid u =>
    exact .inl ⟨by simp [Atom.toText, uuidChars, hexits], fun c hc => isWordChar_uuidChars hc⟩

/-! ## 3. Tokens -/

/-- The text after a token: its end, or a delimiter. -/
def EndsToken (rest : List Char) : Prop := rest.head?.all tokenIsDelim = true

variable {out p : List Char}

theorem tokenLoop_cons {inQuotes : Bool} (hc : c ≠ '\\')
    (hdelim : (!inQuotes && tokenIsDelim c) = false) : tokenLoop s out inQuotes (c :: p) =
      tokenLoop s (out ++ [c]) (if c = '"' then !inQuotes else inQuotes) p := by
  rw [tokenLoop.eq_def]
  split
  · cases ‹_ = []›
  next heq => exact absurd (List.cons.inj heq).1 hc
  next heq => exact absurd (List.cons.inj heq).1 hc
  next heq =>
    cases heq
    rw [hdelim]
    rfl

theorem tokenLoop_ordinary (h : Ordinary c) :
    tokenLoop s out true (c :: p) = tokenLoop s (out ++ [c]) true p := by
  rw [tokenLoop_cons h.backslash rfl, if_neg h.quote]

theorem tokenLoop_ordinaries {s out p text : List Char} (h : ∀ c ∈ text, Ordinary c) :
    tokenLoop s out true (text ++ p) = tokenLoop s (out ++ text) true p := by
  induction text generalizing out with
  | nil => simp
  | cons c text ih =>
    rw [cons_append, tokenLoop_ordinary (h c mem_cons_self),
      ih fun x hx => h x (mem_cons_of_mem _ hx), append_assoc, singleton_append]

theorem tokenLoop_charsEscaping (h : c ≠ nul) :
    tokenLoop s out true (charsEscaping c ++ p) = tokenLoop s (out ++ charsEscaping c) true p := by
  rcases charsEscaping_cases h with ⟨ho, heq⟩ | ⟨e, -, -, heq⟩ | ⟨-, -, heq⟩
  · rw [heq]
    exact tokenLoop_ordinary ho
  · rw [heq]
    rfl
  · have hhex := @tokenLoop_ordinaries s (out ++ ['\\', 'u']) p (hexits 4 c.toNat)
      fun x hx => ordinary_hexits hx
    rw [append_assoc] at hhex
    rw [heq]
    exact hhex

theorem tokenLoop_escaped (h : nul ∉ text) :
    tokenLoop s out true (text.flatMap charsEscaping ++ p) =
      tokenLoop s (out ++ text.flatMap charsEscaping) true p := by
  induction text generalizing out with
  | nil => simp
  | cons c text ih =>
    rw [mem_cons, not_or] at h
    rw [flatMap_cons, append_assoc, tokenLoop_charsEscaping (Ne.symm h.1), ih h.2, append_assoc]

theorem tokenLoop_word (h : ∀ c ∈ text, isWordChar c = true) :
    tokenLoop s out false (text ++ p) = tokenLoop s (out ++ text) false p := by
  induction text generalizing out with
  | nil => simp
  | cons c text ih =>
    have hc := TokenChar.of_isWordChar (h c mem_cons_self)
    have hdelim : (!false && tokenIsDelim c) = false := hc.delim
    rw [cons_append, tokenLoop_cons hc.backslash hdelim, if_neg hc.quote,
      ih fun x hx => h x (mem_cons_of_mem _ hx), append_assoc, singleton_append]

variable {rest : List Char}

theorem tokenLoop_end (h : EndsToken rest) : tokenLoop s out false rest = .ok (out, rest) := by
  cases rest with
  | nil => rfl
  | cons c rest =>
    have hc : tokenIsDelim c = true := h
    rw [tokenLoop.eq_def]
    split
    · cases ‹_ = []›
    next heq =>
      cases heq
      exact absurd hc (by decide)
    next heq =>
      cases heq
      exact absurd hc (by decide)
    next heq =>
      cases heq
      rw [hc]
      rfl

theorem tokenParse_toText (h : AtomOk d atom base) (hrest : EndsToken rest) :
    tokenParse (atom.toText d ++ rest) = .ok (atom.toText d, rest) := by
  rw [tokenParse]
  rcases toText_cases h with hword | ⟨s, hs, -, htext⟩
  · rw [tokenLoop_word hword.2]
    exact tokenLoop_end hrest
  · rw [htext, jsonSerializeString, cstr_of_not_mem hs, cons_append, cons_append,
      append_assoc, singleton_append, tokenLoop_cons (by decide) rfl, if_pos rfl]
    show tokenLoop _ ['"'] true _ = _
    rw [tokenLoop_escaped hs, tokenLoop_cons (by decide) rfl, if_pos rfl]
    exact tokenLoop_end hrest

/-! ## 4. Atoms are read back -/

theorem stringFromText_jsonSerializeString {s : String} (hs : nul ∉ s.toList) :
    stringFromText (jsonSerializeString s.toList) = .ok (.string s) := by
  have htail : (jsonSerializeString s.toList).tail.dropLast = s.toList.flatMap charsEscaping := by
    rw [jsonSerializeString, cstr_of_not_mem hs, cons_append, tail_cons, dropLast_concat]
  have hlast : (jsonSerializeString s.toList).getLast? = some '"' := by
    rw [jsonSerializeString, getLast?_concat]
  have hlen : ¬(jsonSerializeString s.toList).length < 2 := by
    simp [jsonSerializeString]
  have hne : jsonSerializeString s.toList ≠ [] := cons_ne_nil _ _
  have hhead : (jsonSerializeString s.toList).head? = some '"' := rfl
  rw [stringFromText, if_neg hne, if_pos hhead, if_neg (by simp [hlen, hlast]),
    htail, jsonStringUnescape, unescapeLoop_escaped [] hs]
  exact congrArg (Except.ok ∘ Atom.string) String.ofList_toList

theorem stringFromText_word {s : String} (hs : IsWord s.toList) :
    stringFromText s.toList = .ok (.string s) := by
  obtain ⟨c, cs, hcons⟩ := exists_cons_of_ne_nil hs.1
  have hc : c ≠ '"' := by
    rintro rfl
    exact absurd (hs.2 _ (hcons ▸ mem_cons_self)) (by decide)
  rw [stringFromText, if_neg hs.1, if_neg (by simp [hcons, hc]), String.ofList_toList]

variable {symtab : SymbolTable} {rangeAllowed : Bool}

/-- An atom is read back from its text. -/
theorem atomFromTextUnchecked_toText (h : AtomOk d atom base) :
    atomFromTextUnchecked d symtab rangeAllowed base.type (atom.toText d) = .ok (atom, none) := by
  rw [← h.type]
  cases atom with
  | integer i =>
    have hi := h.integer i rfl
    show integerFromText rangeAllowed (decimal i) = _
    rw [integerFromText, strToLlongRange_decimal hi, strToLlong_decimal hi]
    cases rangeAllowed <;> rfl
  | real bits => exact absurd h.type.symm h.notReal
  | boolean b => cases b <;> rfl
  | string s =>
    have hs := h.string s rfl
    show (stringFromText (Atom.toText d (.string s))).map (·, none) = _
    rw [Atom.toText]
    split
    · rw [stringFromText_jsonSerializeString hs]
      rfl
    next hquotes =>
      rw [stringFromText_word (isWord_of_not_needsQuotes (Bool.eq_false_iff.mpr hquotes))]
      rfl
  | uuid u =>
    have hhead : (uuidChars u).head? ≠ some '@' := by
      intro hhead
      exact absurd (isWordChar_uuidChars (mem_of_head? hhead)) (by decide)
    have hparse : uuidFromString (String.ofList (uuidChars u)) = some u :=
      uuidFromString_uuidToString
    simp [atomFromTextUnchecked, Atom.type, Atom.toText, hhead, hparse]

theorem parseAtomToken_toText (h : AtomOk d atom base) (hrest : EndsToken rest) :
    parseAtomToken d symtab rangeAllowed base (atom.toText d ++ rest) =
      .ok ((atom, none), rest) := by
  have hatom : atomFromText d symtab rangeAllowed base (atom.toText d) = .ok (atom, none) := by
    rw [atomFromText, atomFromTextUnchecked_toText h]
    dsimp only
    rw [show parsedCheck d base (atom, none) = none from h.constraints]
  rw [parseAtomToken, tokenParse_toText h hrest]
  dsimp only
  rw [hatom]
  rfl

/-! ## 5. Data are read back -/

/-- A datum as the functions that build one leave it: keys sorted and unique, the
    size within the limits of the type, and the constraints satisfied. -/
structure Datum.WellFormed (d : Doubles) (type : OvsdbType) (datum : Datum) : Prop where
  low : type.nMin ≤ datum.length
  high : datum.length ≤ type.nMax
  sorted : datum.Pairwise fun a b => a.key.compare3way b.key = .lt
  keys : ∀ e ∈ datum, AtomOk d e.key type.key
  values : type.isMap = true → ∀ e ∈ datum, ∃ v, e.value = some v ∧ AtomOk d v type.value
  noValues : type.isMap = false → ∀ e ∈ datum, e.value = none

variable {datum : Datum}

theorem Datum.sort_of_sorted
    (h : datum.Pairwise fun a b => a.key.compare3way b.key = .lt) : datum.sort = some datum := by
  have hle : datum.Pairwise keyLe := h.imp fun hlt => by
    rw [keyLe, hlt]
    decide
  have hneighbours : hasEqualNeighbours datum.keys = false := by
    clear hle
    induction datum with
    | nil => rfl
    | cons a datum ih =>
      cases datum with
      | nil => rfl
      | cons b datum =>
        have hlt := rel_of_pairwise_cons h mem_cons_self
        have hrest := ih h.of_cons
        show (a.key.equals b.key || hasEqualNeighbours (Datum.keys (b :: datum))) = false
        rw [hrest, Bool.or_false, Atom.equals, hlt]
        rfl
  rw [Datum.sort, Pairwise.insertionSort_eq hle, hneighbours]
  rfl

theorem toText_head (h : AtomOk d atom base) :
    ∃ c cs, atom.toText d = c :: cs ∧ isSpace c = false ∧ tokenIsDelim c = false := by
  rcases toText_cases h with hword | ⟨s, -, -, htext⟩
  · obtain ⟨c, cs, hcons⟩ := exists_cons_of_ne_nil hword.1
    have hc := hword.2 c (hcons ▸ mem_cons_self)
    exact ⟨c, cs, hcons, isSpace_eq_false (by decide) hc, (TokenChar.of_isWordChar hc).delim⟩
  · exact ⟨'"', _, htext, by decide, by decide⟩

theorem skipSpaces_cons (h : isSpace c = false) (cs : List Char) :
    skipSpaces (c :: cs) = c :: cs := by
  rw [skipSpaces, dropWhile_cons_of_neg (by simp [h])]

theorem skipSpaces_toText (h : AtomOk d atom base)
    : skipSpaces (atom.toText d ++ rest) = atom.toText d ++ rest := by
  obtain ⟨c, cs, hcons, hspace, -⟩ := toText_head h
  rw [hcons]
  exact skipSpaces_cons hspace (cs ++ rest)

variable {type : OvsdbType}

/-- A key with its value is read up to what ends the token. -/
theorem parseKeyValue_toText (symtab : SymbolTable) {e : Element} (hkey : AtomOk d e.key type.key)
    (hvalue : type.isMap = true → ∃ v, e.value = some v ∧ AtomOk d v type.value)
    (hnone : type.isMap = false → e.value = none) (hrest : EndsToken rest) :
    parseKeyValue d symtab type (e.toText d type ++ rest) = .ok (⟨e.key, none, e.value⟩, rest) := by
  rw [toText]
  cases hmap : type.isMap with
  | false =>
    have hvoid : type.value.type = .void := by simpa [OvsdbType.isMap] using hmap
    rw [if_neg (by decide), append_nil, parseKeyValue, parseAtomToken_toText hkey hrest]
    dsimp only
    rw [if_pos hvoid, hnone hmap]
  | true =>
    obtain ⟨v, hv, hok⟩ := hvalue hmap
    have hvoid : type.value.type ≠ .void := by simpa [OvsdbType.isMap] using hmap
    have hends : EndsToken ('=' :: (v.toText d ++ rest)) := rfl
    rw [if_pos rfl, hv, Option.map_some, Option.getD_some, append_assoc, cons_append,
      parseKeyValue, parseAtomToken_toText hkey hends]
    dsimp only
    rw [if_neg hvoid, skipSpaces_cons (by decide), parseValue, if_pos head?_cons, tail_cons,
      skipSpaces_toText hok, parseAtomToken_toText hok hrest]

def afterElement (d : Doubles) (type : OvsdbType) (datum : Datum) (stop : Option Char) :
    List Char :=
  if datum = [] then stop.toList
  else ',' :: ' ' :: (intercalate [',', ' '] (datum.map (toText d type)) ++ stop.toList)

theorem intercalate_cons_toText (type : OvsdbType) (e : Element) (datum : Datum)
    (stop : Option Char) :
    intercalate [',', ' '] ((e :: datum).map (toText d type)) ++ stop.toList =
      e.toText d type ++ afterElement d type datum stop := by
  cases datum <;> simp [afterElement, intercalate]

/-- A character that closes a set or a map: a delimiter that is not between elements. -/
def ClosesDatum (c : Char) : Prop := tokenIsDelim c = true ∧ isSpace c = false ∧ c ≠ ','

variable {stop : Option Char}

theorem skipSpaces_stop (h : ∀ c ∈ stop, ClosesDatum c) : skipSpaces stop.toList = stop.toList := by
  cases stop with
  | none => rfl
  | some c => exact skipSpaces_cons (h c rfl).2.1 []

theorem endsToken_afterElement (h : ∀ c ∈ stop, ClosesDatum c) :
    EndsToken (afterElement d type datum stop) := by
  rw [afterElement]
  split
  · cases stop with
    | none => rfl
    | some c => exact (h c rfl).1
  · rfl

section

variable (hstop : ∀ c ∈ stop, ClosesDatum c) (hkeys : ∀ e ∈ datum, AtomOk d e.key type.key)
include hstop hkeys

theorem skipSpaces_elements :
    skipSpaces (intercalate [',', ' '] (datum.map (toText d type)) ++ stop.toList) =
      intercalate [',', ' '] (datum.map (toText d type)) ++ stop.toList := by
  cases datum with
  | nil => exact skipSpaces_stop hstop
  | cons e datum =>
    rw [intercalate_cons_toText, toText, append_assoc]
    exact skipSpaces_toText (hkeys e mem_cons_self)

theorem skipComma_afterElement : skipComma (afterElement d type datum stop) =
      intercalate [',', ' '] (datum.map (toText d type)) ++ stop.toList := by
  cases datum with
  | nil =>
    have hcomma : stop.toList.head? ≠ some ',' := by
      cases stop with
      | none => exact fun h => nomatch h
      | some c => exact fun h => (hstop c rfl).2.2 (Option.some.inj h)
    rw [afterElement, if_pos rfl, skipComma, skipSpaces_stop hstop, if_neg hcomma]
    rfl
  | cons e datum =>
    rw [afterElement, if_neg (cons_ne_nil _ _), skipComma, skipSpaces_cons (by decide),
      if_pos head?_cons, tail_cons]
    exact skipSpaces_elements hstop hkeys

end

/-- The loop of `ovsdb_datum_from_string` reads the elements one by one. -/
theorem datumLoop_toText (symtab : SymbolTable) (hkeys : ∀ e ∈ datum, AtomOk d e.key type.key)
    (hvalues : type.isMap = true → ∀ e ∈ datum, ∃ v, e.value = some v ∧ AtomOk d v type.value)
    (hnone : type.isMap = false → ∀ e ∈ datum, e.value = none) (s : List Char)
    (hstop : ∀ c ∈ stop, ClosesDatum c) (before : Datum) : datumLoop d symtab type s stop before
        (intercalate [',', ' '] (datum.map (toText d type)) ++ stop.toList) =
      .ok (before ++ datum, stop.toList) := by
  induction datum generalizing before with
  | nil =>
    have hend : intercalate [',', ' '] (List.map (toText d type) []) ++ stop.toList =
        stop.toList := rfl
    rw [hend, datumLoop, dif_pos (by cases stop <;> simp), append_nil]
  | cons e datum ih =>
    have hkey := hkeys e mem_cons_self
    have hkv := parseKeyValue_toText symtab hkey (fun h => hvalues h e mem_cons_self)
      (fun h => hnone h e mem_cons_self) (@endsToken_afterElement d datum type stop hstop)
    obtain ⟨c, cs, hcons, -, hdelim⟩ := toText_head hkey
    have hhead : (e.toText d type ++ afterElement d type datum stop).head? = some c := by
      rw [toText, hcons]
      rfl
    have hgoes : ¬(e.toText d type ++ afterElement d type datum stop = [] ∨
        (e.toText d type ++ afterElement d type datum stop).head? = stop) := by
      rintro (h | h)
      · rw [h] at hhead
        cases hhead
      · rw [hhead] at h
        have hc := (hstop c (h ▸ rfl)).1
        rw [hdelim] at hc
        cases hc
    have hrest := ih (fun x hx => hkeys x (mem_cons_of_mem _ hx))
      (fun h x hx => hvalues h x (mem_cons_of_mem _ hx))
      (fun h x hx => hnone h x (mem_cons_of_mem _ hx)) (before ++ [e])
    rw [← skipComma_afterElement hstop fun x hx => hkeys x (mem_cons_of_mem _ hx),
      append_assoc, singleton_append] at hrest
    rw [intercalate_cons_toText, datumLoop, dif_neg hgoes, dif_neg (by simp [hhead, hdelim])]
    split
    next heq =>
      rw [hkv] at heq
      cases heq
    next heq =>
      rw [hkv] at heq
      cases heq
      have hadd : addUnsafe before ⟨e.key, none, e.value⟩ = before ++ [e] := by
        cases hk : e.key <;> simp [addUnsafe, ← hk]
      rw [hadd]
      exact hrest

theorem datumFinish_of_wellFormed
    (h : Datum.WellFormed d type datum) : datumFinish type s datum = .ok datum := by
  rw [datumFinish, if_neg (Nat.not_lt.mpr h.low), if_neg (Nat.not_lt.mpr h.high),
    Datum.sort_of_sorted h.sorted]

theorem datumBody_toText (symtab : SymbolTable) (h : Datum.WellFormed d type datum) (s : List Char)
    (hstop : ∀ c ∈ stop, ClosesDatum c) : datumBody d symtab type s stop
        (intercalate [',', ' '] (datum.map (toText d type)) ++ stop.toList) =
      .ok datum := by
  have hloop := datumLoop_toText symtab h.keys h.values h.noValues s hstop []
  have hhead : stop.toList.head? = stop := by cases stop <;> rfl
  have htail : skipSpaces stop.toList.tail = [] := by cases stop <;> rfl
  rw [nil_append] at hloop
  simp [datumBody, hloop, hhead, htail, datumFinish_of_wellFormed h, bind, Except.bind]

theorem closesDatum_endDelim : ClosesDatum (endDelim type) := by
  rw [endDelim]
  split <;> exact ⟨by decide, by decide, by decide⟩

theorem startDelim_spec :
    isSpace (startDelim type) = false ∧ tokenIsDelim (startDelim type) = true := by
  rw [startDelim]
  split <;> decide

/-- The text of a well-formed datum without reals is read back to the datum. -/
theorem datumFromText_toText (d : Doubles) (symtab : SymbolTable) (type : OvsdbType)
    (datum : Datum) (h : Datum.WellFormed d type datum) :
    datumFromText d symtab type (datum.toText d type) = .ok datum := by
  have hend : ∀ c ∈ some (endDelim type), ClosesDatum c := fun c hc =>
    Option.some.inj hc ▸ closesDatum_endDelim
  have hnone : ∀ c ∈ (none : Option Char), ClosesDatum c := fun c hc => nomatch hc
  rw [Datum.toText]
  split
  · -- The delimiters are written: they are what the reader looks for first.
    have hskip := skipSpaces_elements hend h.keys
    rw [datumFromText, skipSpaces_cons startDelim_spec.1, if_pos head?_cons, tail_cons]
    exact (congrArg _ hskip).trans (datumBody_toText symtab h _ hend)
  next hsingle =>
    -- A single element stands alone, and no element starts like a set or a map.
    obtain ⟨e, datum, rfl⟩ := exists_cons_of_ne_nil fun hnil => hsingle (.inr hnil)
    have hskip := skipSpaces_elements hnone h.keys
    have hbody := datumBody_toText symtab h
      (List.intercalate [',', ' '] ((e :: datum).map (Element.toText d type))) hnone
    obtain ⟨c, cs, hcons, -, hdelim⟩ := toText_head (h.keys e mem_cons_self)
    have htext := intercalate_cons_toText (d := d) type e datum none
    rw [Option.toList_none, append_nil] at hskip hbody htext
    have hhead : (List.intercalate [',', ' '] ((e :: datum).map (Element.toText d type))).head? =
        some c := by
      rw [htext, Element.toText, hcons]
      rfl
    have hstart : some c ≠ some (startDelim type) := by
      intro hc
      rw [Option.some.inj hc, startDelim_spec.2] at hdelim
      cases hdelim
    have hne : List.intercalate [',', ' '] ((e :: datum).map (Element.toText d type)) ≠ [] := by
      intro hnil
      rw [hnil] at hhead
      cases hhead
    rw [datumFromText, hskip, hhead, if_neg hstart, if_neg hne]
    exact hbody

def sampleType : OvsdbType :=
  { key := { type := .string }, value := { type := .integer }, nMin := 0, nMax := uintMax }

def sampleDatum : Datum :=
  [⟨.string "a b", some (.integer (-7))⟩, ⟨.string "true", some (.integer 80)⟩]

theorem sampleDatum_wellFormed : sampleDatum.WellFormed noDoubles sampleType where
  low := by decide
  high := by decide
  sorted := by
    refine pairwise_pair.mpr ?_
    decide
  keys := by
    intro e he
    simp only [sampleDatum, mem_cons, not_mem_nil, or_false] at he
    rcases he with rfl | rfl
    all_goals
      exact ⟨rfl, by decide, (by intro _ h; cases h), fun _ h => Atom.string.inj h ▸ by decide,
        by simp [atomCheckConstraints, checkTypeConstraints, sampleType, checkStringConstraints,
          utf8Validate, Except.map, uintMax]⟩
  values := by
    intro _ e he
    simp only [sampleDatum, mem_cons, not_mem_nil, or_false] at he
    rcases he with rfl | rfl
    all_goals
      exact ⟨_, rfl, rfl, by decide, fun _ h => Atom.integer.inj h ▸ by decide,
        (by intro _ h; cases h), rfl⟩
  noValues := by
    intro h
    cases h

theorem datumFromText_sampleDatum :
    sampleDatum.toText noDoubles sampleType = "\x7b\"a b\"=-7, \"true\"=80\x7d".toList ∧
    datumFromText noDoubles (fun _ => 0) sampleType (sampleDatum.toText noDoubles sampleType) =
      .ok sampleDatum :=
  ⟨by decide,
    datumFromText_toText noDoubles (fun _ => 0) sampleType sampleDatum sampleDatum_wellFormed⟩

end Ovsgw.Ovsdb
