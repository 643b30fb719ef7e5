/-
  **What `ovsdb_datum_from_string` accepts.**

  A range of integers stands for all of its members.  `ovsdb_atom_from_string` checks each of them
  against the constraints of its type, and `ovsdb_datum_add_unsafe` adds each of them to the datum.
  Both loops have a signed counter that runs to the end of the range and one step beyond, and the
  second one never adds a value.  So a datum that is accepted is well formed unless a range ends at
  the largest integer or stands for the keys of a map.
-/
import Mathlib.Data.List.DropRight
import Ovsgw.Ovsdb.DatumAlgebra

namespace Ovsgw.Ovsdb

open List

/-! ## 1. Atoms -/

structure Accepted (d : Doubles) (base : BaseType) (atom : Atom) : Prop where
  type : atom.type = base.type
  constraints : atomCheckConstraints d atom base = none

section
variable {d : Doubles} {symtab : SymbolTable} {rangeAllowed : Bool} {base : BaseType}
  {s : List Char} {atom : Atom}

theorem checkTypeConstraints_of_accepted (h : Accepted d base atom) :
    checkTypeConstraints d atom base = none := by
  have hchecked := h.constraints
  rw [atomCheckConstraints] at hchecked
  split at hchecked
  · split at hchecked
    · cases hchecked
    · exact hchecked
  · exact hchecked

theorem Accepted.comparable (h : Accepted d base atom) : atom.Comparable base.type where
  type := h.type
  number := by
    rintro bits rfl
    have hchecked := checkTypeConstraints_of_accepted h
    rw [checkTypeConstraints] at hchecked
    split at hchecked
    · next hbounds =>
      simp only [doubleLe, Bool.and_eq_true, Bool.not_eq_true'] at hbounds
      exact hbounds.1.1.2
    · cases hchecked

variable {rangeEnd : Option Int}

theorem integerFromText_ok (h : integerFromText rangeAllowed s = .ok (atom, rangeEnd)) :
    ∃ first, atom = .integer first ∧ ∀ last, rangeEnd = some last →
      first ≤ last ∧ IsLongLong first ∧ IsLongLong last := by
  rw [integerFromText] at h
  split at h
  · next first last hrange =>
    have hparsed : strToLlongRange s = some (first, last) := by
      split at hrange
      · exact hrange
      · cases hrange
    split at h
    · cases h
    · next hle =>
      cases h
      refine ⟨first, rfl, ?_⟩
      rintro _ ⟨⟩
      exact ⟨Int.not_lt.mp hle, isLongLong_of_strToLlongRange hparsed⟩
  · split at h
    · cases h
      exact ⟨_, rfl, by rintro _ ⟨⟩⟩
    · cases h

theorem atomFromTextUnchecked_ok {type : AtomicType}
    (h : atomFromTextUnchecked d symtab rangeAllowed type s = .ok (atom, rangeEnd)) :
    atom.type = type ∧ ∀ last, rangeEnd = some last →
      ∃ first, atom = .integer first ∧ first ≤ last ∧ IsLongLong first ∧ IsLongLong last := by
  cases type with
  | integer =>
    obtain ⟨first, rfl, hlast⟩ := integerFromText_ok h
    exact ⟨rfl, fun last heq => ⟨first, rfl, hlast last heq⟩⟩
  | real | boolean | string | uuid =>
    -- Only integers have ranges.
    simp only [atomFromTextUnchecked, booleanFromText, stringFromText] at h
    repeat' split at h
    all_goals cases h
    all_goals exact ⟨rfl, by rintro _ ⟨⟩⟩
  | void => cases h

variable {first last i : Int}

/-- Between two integers that meet the constraints there are only such integers, unless the
    type is an enumeration. -/
theorem Accepted.between (henum : base.enum = none)
    (hfirst : Accepted d base (.integer first)) (hlast : Accepted d base (.integer last))
    (hle : first ≤ i) (hge : i ≤ last) : Accepted d base (.integer i) where
  type := hfirst.type
  constraints := by
    have hlow := checkTypeConstraints_of_accepted hfirst
    have hhigh := checkTypeConstraints_of_accepted hlast
    simp only [checkTypeConstraints, ite_eq_left_iff, reduceCtorEq, imp_false, not_not]
      at hlow hhigh
    rw [atomCheckConstraints, henum, checkTypeConstraints]
    exact if_pos ⟨hlow.1.trans hle, hge.trans hhigh.2⟩

theorem size_of_atomRangeCheckSize (hle : first ≤ last)
    (hfirst : IsLongLong first) (hlast : IsLongLong last)
    (h : atomRangeCheckSize first last = none) : last - first < maxAtomRangeSize := by
  have hmod : (last - first) % (ullongMax + 1) = last - first := by
    apply Int.emod_eq_of_lt
    · omega
    · simp only [IsLongLong, llongMax, ullongMax] at *
      omega
  rw [atomRangeCheckSize, hmod] at h
  split at h
  · cases h
  · next hsize => exact Int.not_le.mp hsize

theorem accepted_of_rangeCheck (hfirst : Accepted d base (.integer first))
    (h : rangeCheck d base first last = none) (hle : first ≤ i) (hge : i ≤ last) :
    Accepted d base (.integer i) := by
  rw [rangeCheck, Option.or_eq_none_iff] at h
  cases henum : base.enum with
  | none =>
    have hlast : Accepted d base (.integer last) := ⟨hfirst.type, by simpa [henum] using h.1⟩
    exact hfirst.between henum hlast hle hge
  | some valid =>
    rcases Int.le_iff_eq_or_lt.mp hle with rfl | hlt
    · exact hfirst
    · refine ⟨hfirst.type, ?_⟩
      have hall : rangeCheckEnum d base first last = none := by simpa [henum] using h.1
      rw [rangeCheckEnum, findSome?_eq_none_iff] at hall
      have hmem : (i - first - 1).toNat < (last - first).toNat := by omega
      have hi := hall (i - first - 1).toNat (by simpa using hmem)
      rwa [show first + 1 + ((i - first - 1).toNat : Int) = i by omega] at hi

/-- What `ovsdb_atom_from_string` accepts: an atom, or a range all of whose integers meet the
    constraints. -/
theorem atomFromText_ok (h : atomFromText d symtab rangeAllowed base s = .ok (atom, rangeEnd)) :
    Accepted d base atom ∧ ∀ last, rangeEnd = some last →
      ∃ first, atom = .integer first ∧ first ≤ last ∧ IsLongLong last ∧
        last - first < maxAtomRangeSize ∧
        ∀ i, first ≤ i → i ≤ last → Accepted d base (.integer i) := by
  rw [atomFromText] at h
  split at h
  · cases h
  · next parsed hparsed =>
    split at h
    · cases h
    · next hcheck =>
      cases h
      obtain ⟨htype, hrange⟩ := atomFromTextUnchecked_ok hparsed
      cases rangeEnd with
      | none => exact ⟨⟨htype, hcheck⟩, by rintro _ ⟨⟩⟩
      | some last =>
        obtain ⟨first, rfl, hle, hfirst, hlast⟩ := hrange last rfl
        rw [parsedCheck, Option.or_eq_none_iff] at hcheck
        have haccepted : Accepted d base (.integer first) := ⟨htype, hcheck.1⟩
        refine ⟨haccepted, ?_⟩
        rintro _ ⟨⟩
        have hsize := hcheck.2
        rw [rangeCheck, Option.or_eq_none_iff] at hsize
        exact ⟨first, rfl, hle, hlast, size_of_atomRangeCheckSize hle hfirst hlast hsize.2,
          fun i => accepted_of_rangeCheck haccepted hcheck.2⟩

end

/-! ## 2. The loops over a range -/

/-- The loop of `ovsdb_datum_add_unsafe`, from `i` on: the integers that it stores.  `none` if
    incrementing `i` overflows. -/
def addRangeLoop (i last : Int) : Option (List Int) :=
  if i ≤ last then
    if i = llongMax then none else (addRangeLoop (i + 1) last).map (i :: ·)
  else some []
termination_by (last + 1 - i).toNat
decreasing_by omega

/-- The loop of `ovsdb_atom_from_string`, from `i` on: the error that it stops at.  `none` if
    incrementing `i` overflows. -/
def checkRangeLoop (d : Doubles) (base : BaseType) (i last : Int) : Option (Option OvsdbError) :=
  if i ≤ last then
    match atomCheckConstraints d (.integer i) base with
    | some error => some (some error)
    | none => if i = llongMax then none else checkRangeLoop d base (i + 1) last
  else some none
termination_by (last + 1 - i).toNat
decreasing_by omega

/-- The check of the integers of a range after its first against an enumeration.  `none` if
    there is an overflow. -/
def checkRange (d : Doubles) (base : BaseType) (first last : Int) : Option (Option OvsdbError) :=
  if first = llongMax then none else checkRangeLoop d base (first + 1) last

section
variable {d : Doubles} {symtab : SymbolTable} {base : BaseType} {s : List Char}

def integersFrom (i last : Int) : List Int :=
  (List.range (last - i + 1).toNat).map fun (k : Nat) => i + k

variable {i last : Int}

theorem integersFrom_cons (h : i ≤ last) :
    integersFrom i last = i :: integersFrom (i + 1) last := by
  have hsize : (last - i + 1).toNat = (last - (i + 1) + 1).toNat + 1 := by omega
  rw [integersFrom, hsize, range_succ_eq_map, map_cons, map_map, integersFrom]
  refine congrArg₂ _ (by simp) (map_congr_left ?_)
  intro k _
  simp only [Function.comp_apply, Nat.cast_succ]
  omega

theorem addRangeLoop_eq (hlast : last < llongMax) :
    addRangeLoop i last = some (integersFrom i last) := by
  fun_induction addRangeLoop i last with
  | case1 hle => omega
  | case2 i hle hne ih => rw [ih, Option.map_some, integersFrom_cons hle]
  | case3 i hgt =>
    rw [integersFrom, show (last - i + 1).toNat = 0 by omega]
    rfl

theorem checkRangeLoop_eq (hlast : last < llongMax)
    (h : ∀ k, i ≤ k → k ≤ last → Accepted d base (.integer k)) :
    checkRangeLoop d base i last = some none := by
  fun_induction checkRangeLoop d base i last with
  | case1 i hle error herror =>
    rw [(h i (Int.le_refl i) hle).constraints] at herror
    cases herror
  | case2 hle => omega
  | case3 i hle hcheck hne ih => exact ih fun k hk => h k (by omega)
  | case4 i hgt => rfl

/-- Up to the largest integer the loop does not end without an overflow. -/
theorem addRangeLoop_max (hlast : last = llongMax) (hi : i ≤ last) :
    addRangeLoop i last = none := by
  fun_induction addRangeLoop i last with
  | case1 => rfl
  | case2 i hle hne ih => rw [ih (by omega), Option.map_none]
  | case3 i hgt => exact absurd hi hgt

theorem integersFrom_nodup : (integersFrom i last).Nodup := by
  rw [integersFrom]
  apply nodup_range.map
  intro j k hjk
  simpa using hjk

theorem mem_integersFrom {k : Int} : k ∈ integersFrom i last ↔ i ≤ k ∧ k ≤ last := by
  simp only [integersFrom, mem_map, mem_range]
  constructor
  · rintro ⟨j, hj, rfl⟩
    omega
  · rintro ⟨hle, hge⟩
    exact ⟨(k - i).toNat, by omega, by omega⟩

/-- A range that is accepted: neither loop overflows, and the second one adds each of its integers
    once, just if it does not end at the largest integer. -/
theorem integerRange_added {first last : Int}
    (h : atomFromText d symtab true base s = .ok (.integer first, some last)) :
    ((base.enum.isSome = true → checkRange d base first last = some none) ∧
      last - first < maxAtomRangeSize ∧
      ∃ keys, addRangeLoop first last = some keys ∧ keys.length = last - first + 1 ∧
        keys.Nodup ∧ (∀ i, i ∈ keys ↔ first ≤ i ∧ i ≤ last) ∧
        ∀ datum value, addUnsafe datum ⟨.integer first, some last, value⟩ =
          datum ++ keys.map fun i => ⟨.integer i, none⟩) ↔ last ≠ llongMax := by
  obtain ⟨-, hrange⟩ := atomFromText_ok h
  obtain ⟨_, ⟨⟩, hle, hlong, hsize, haccepted⟩ := hrange last rfl
  constructor
  · rintro ⟨-, -, keys, hkeys, -⟩ hmax
    rw [addRangeLoop_max hmax hle] at hkeys
    cases hkeys
  · intro hlast
    have hlt : last < llongMax := lt_of_le_of_ne hlong.2 hlast
    refine ⟨?_, hsize, integersFrom first last, addRangeLoop_eq hlt, ?_, integersFrom_nodup,
      fun _ => mem_integersFrom, ?_⟩
    · intro _
      rw [checkRange, if_neg (by omega)]
      exact checkRangeLoop_eq hlt fun k hk => haccepted k (by omega)
    · simp only [integersFrom, length_map, length_range]
      omega
    · intro datum value
      simp [addUnsafe, integersFrom]

/-- The range from 1 to 3. -/
theorem integerRange_added_one_three :
    atomFromText noDoubles (fun _ => 0) true { type := .integer } "1-3".toList =
      .ok (.integer 1, some 3) ∧
    ∃ keys, addRangeLoop 1 3 = some keys ∧ keys.length = (3 - 1 + 1 : Int) ∧ keys.Nodup := by
  have htext : atomFromText noDoubles (fun _ => 0) true { type := .integer } "1-3".toList =
      .ok (.integer 1, some 3) := by rfl
  obtain ⟨-, -, keys, hkeys, hlength, hnodup, -⟩ := (integerRange_added htext).mpr (by decide)
  exact ⟨htext, keys, hkeys, hlength, hnodup⟩

/-- The two largest integers as a range: the loop that adds them overflows. -/
theorem addRangeLoop_overflows : atomFromText noDoubles (fun _ => 0) true { type := .integer }
        "9223372036854775806-9223372036854775807".toList =
      .ok (.integer 9223372036854775806, some 9223372036854775807) ∧
    addRangeLoop 9223372036854775806 9223372036854775807 = none := by
  refine ⟨by rfl, ?_⟩
  rw [addRangeLoop, addRangeLoop]
  rfl

end

/-! ## 3. Keys and values -/

/-- What is left of a text after the value of a pair whose key ends before it. -/
def afterValue (s : List Char) : List Char :=
  match tokenParse (skipSpaces (skipSpaces s).tail) with
  | .ok (_, rest) => rest
  | .error _ => []

theorem length_afterValue_le (s : List Char) : (afterValue s).length ≤ s.length := by
  have hspaces := length_skipSpaces_le s
  have htail := length_skipSpaces_le (skipSpaces s).tail
  rw [length_tail] at htail
  rw [afterValue]
  split
  · next htoken =>
    have hrest := tokenLoop_length htoken
    omega
  · exact Nat.zero_le _

/-- The tokens of a text that stand for keys: all of them in a set, and those in front of an equals
    sign in a map. -/
def keyTokens (isMap : Bool) (p : List Char) : List (List Char) :=
  match p with
  | [] => []
  | c :: p =>
    if hdelim : isSpace c || tokenIsDelim c then keyTokens isMap p
    else
      match h : tokenParse (c :: p) with
      | .error _ => []
      | .ok (token, rest) => token :: keyTokens isMap (if isMap then afterValue rest else rest)
termination_by p.length
decreasing_by
  · exact Nat.lt_succ_self _
  · have hc : tokenIsDelim c = false := by
      rw [Bool.or_eq_true, not_or, Bool.not_eq_true, Bool.not_eq_true] at hdelim
      exact hdelim.2
    have hlt := tokenParse_length (cons_ne_nil c p) hc h
    have hafter := length_afterValue_le rest
    split <;> omega

/-- The ranges of integers that stand for keys. -/
def keyRanges (type : OvsdbType) (s : List Char) : List (Int × Int) :=
  if type.key.type = .integer then (keyTokens type.isMap s).filterMap strToLlongRange else []

def KeyValue.range (kv : KeyValue) : Option (Int × Int) :=
  match kv.key, kv.rangeEnd with
  | .integer first, some last => some (first, last)
  | _, _ => none

structure ElementOk (d : Doubles) (type : OvsdbType) (e : Element) : Prop where
  key : Accepted d type.key e.key
  value : type.isMap = true → ∃ v, e.value = some v ∧ Accepted d type.value v
  noValue : type.isMap = false → e.value = none

/-- What is parsed in one go: a key with its value, or a range of keys. -/
structure KeyValueOk (d : Doubles) (type : OvsdbType) (kv : KeyValue) : Prop where
  single : kv.rangeEnd = none → ElementOk d type ⟨kv.key, kv.value⟩
  range : ∀ last, kv.rangeEnd = some last → ∃ first, kv.key = .integer first ∧
    first ≤ last ∧ last ≤ llongMax ∧ ∀ i, first ≤ i → i ≤ last → Accepted d type.key (.integer i)

section
variable {d : Doubles} {symtab : SymbolTable} {type : OvsdbType} {s rest : List Char}
  {kv : KeyValue}

/-- A key and a value that are accepted obey their constraints. -/
theorem parseKeyValue_ok
    (h : parseKeyValue d symtab type s = .ok (kv, rest)) : KeyValueOk d type kv := by
  obtain ⟨token, s', -, htoken, hvalue⟩ := tokens_of_parseKeyValue h
  obtain ⟨haccepted, hrange⟩ := atomFromText_ok htoken
  refine ⟨fun _ => ⟨haccepted, fun hmap => ?_, fun hmap => ?_⟩, fun last hlast => ?_⟩
  · rcases hvalue with ⟨hset, -⟩ | ⟨-, token', value, _, -, htoken', hvalue⟩
    · rw [hset] at hmap
      cases hmap
    · exact ⟨value, hvalue, (atomFromText_ok htoken').1⟩
  · rcases hvalue with ⟨-, hvalue, -⟩ | ⟨hmap', -⟩
    · exact hvalue
    · rw [hmap'] at hmap
      cases hmap
  · obtain ⟨first, hfirst, hle, hlong, -, hall⟩ := hrange last hlast
    exact ⟨first, hfirst, hle, hlong.2, hall⟩

/-- A token that is accepted for a key is a range just if it stands for more than one. -/
theorem range_of_atomFromText {token : List Char} {key : Atom} {rangeEnd : Option Int}
    (value : Option Atom)
    (h : atomFromText d symtab true type.key token = .ok (key, rangeEnd)) :
    KeyValue.range ⟨key, rangeEnd, value⟩ =
      if type.key.type = .integer then strToLlongRange token else none := by
  have hparsed : atomFromTextUnchecked d symtab true type.key.type token = .ok (key, rangeEnd) := by
    rw [atomFromText] at h
    split at h
    · cases h
    · split at h
      · cases h
      · cases h
        assumption
  split
  · next hinteger =>
    rw [hinteger, atomFromTextUnchecked, integerFromText, if_pos rfl] at hparsed
    cases hrange : strToLlongRange token with
    | some range =>
      rw [hrange] at hparsed
      dsimp only at hparsed
      split at hparsed
      · cases hparsed
      · cases hparsed
        rfl
    | none =>
      rw [hrange] at hparsed
      dsimp only at hparsed
      split at hparsed <;> cases hparsed
      rfl
  · next hother =>
    obtain ⟨htype, hends⟩ := atomFromTextUnchecked_ok hparsed
    cases rangeEnd with
    | none => cases key <;> rfl
    | some last =>
      obtain ⟨first, rfl, -⟩ := hends last rfl
      exact absurd htype.symm hother

theorem keyTokens_delim {isMap : Bool} {c : Char} {p : List Char}
    (hc : (isSpace c || tokenIsDelim c) = true) :
    keyTokens isMap (c :: p) = keyTokens isMap p := by
  rw [keyTokens, dif_pos hc]

variable {p : List Char} {stop : Option Char}

theorem keyRanges_skipSpaces : keyRanges type (skipSpaces p) = keyRanges type p := by
  suffices h : keyTokens type.isMap (skipSpaces p) = keyTokens type.isMap p by
    rw [keyRanges, keyRanges, h]
  induction p with
  | nil => rfl
  | cons c p ih =>
    rw [skipSpaces, dropWhile_cons]
    split
    · next hc => rw [keyTokens_delim (by rw [hc]; rfl), ← ih, skipSpaces]
    · rfl

theorem keyRanges_delim {c : Char} (hc : tokenIsDelim c = true) :
    keyRanges type (c :: p) = keyRanges type p := by
  rw [keyRanges, keyRanges, keyTokens_delim (by rw [hc, Bool.or_true])]

theorem keyRanges_skipComma : keyRanges type (skipComma p) = keyRanges type p := by
  rw [skipComma]
  split
  · next hcomma =>
    rw [keyRanges_skipSpaces, ← keyRanges_skipSpaces (p := p)]
    cases hp : skipSpaces p with
    | nil => rfl
    | cons c p' =>
      rw [hp, head?_cons, Option.some.injEq] at hcomma
      rw [tail_cons, keyRanges_delim (by rw [hcomma]; decide)]
  · exact keyRanges_skipSpaces

theorem skipSpaces_idem (p : List Char) : skipSpaces (skipSpaces p) = skipSpaces p :=
  dropWhile_idempotent isSpace p

theorem skipSpaces_skipComma : skipSpaces (skipComma p) = skipComma p := by
  rw [skipComma]
  split <;> exact skipSpaces_idem _

theorem not_space_of_skipSpaces {c : Char} (h : skipSpaces (c :: p) = c :: p) :
    isSpace c = false := by
  by_contra hc
  have hlength := congrArg length h
  have hle := length_skipSpaces_le p
  rw [skipSpaces, dropWhile_cons_of_pos (Bool.of_not_eq_false hc), length_cons] at hlength
  rw [skipSpaces] at hle
  omega

theorem keyTokens_cons {isMap : Bool} {c : Char} {token : List Char}
    (hc : ¬ (isSpace c || tokenIsDelim c) = true) (h : tokenParse (c :: p) = .ok (token, rest)) :
    keyTokens isMap (c :: p) =
      token :: keyTokens isMap (if isMap then afterValue rest else rest) := by
  rw [keyTokens, dif_neg hc]
  split
  · next herror =>
    rw [h] at herror
    cases herror
  · next hparsed =>
    rw [h] at hparsed
    cases hparsed
    rfl

/-- The key that `parse_key_value` parses is the first one of the text. -/
theorem keyRanges_parseKeyValue (hp : p ≠ []) (hspace : skipSpaces p = p)
    (hdelim : ¬ p.head?.any tokenIsDelim = true)
    (h : parseKeyValue d symtab type p = .ok (kv, rest)) :
    keyRanges type p = kv.range.toList ++ keyRanges type rest := by
  obtain ⟨c, p, rfl⟩ := exists_cons_of_ne_nil hp
  have hc : ¬ (isSpace c || tokenIsDelim c) = true := by
    rw [not_space_of_skipSpaces hspace]
    exact hdelim
  obtain ⟨token, s, htoken, hatom, hvalue⟩ := tokens_of_parseKeyValue h
  have hrest : (if type.isMap then afterValue s else s) = rest := by
    rcases hvalue with ⟨hset, -, rfl⟩ | ⟨hmap, token', _, _, htoken', -⟩
    · rw [hset, if_neg Bool.false_ne_true]
    · rw [hmap, if_pos rfl, afterValue, htoken']
  have hrange : kv.range = if type.key.type = .integer then strToLlongRange token else none :=
    range_of_atomFromText kv.value hatom
  rw [keyRanges, keyTokens_cons hc htoken, hrest, hrange, keyRanges]
  split
  · rw [filterMap_cons]
    cases strToLlongRange token <;> rfl
  · rfl

section

variable (hp : ¬ (p = [] ∨ p.head? = stop)) (hdelim : ¬ p.head?.any tokenIsDelim = true)
  (hparse : parseKeyValue d symtab type p = .ok (kv, rest)) {datum : Datum}
include hp hdelim hparse

theorem datumLoop_cons : datumLoop d symtab type s stop datum p =
      datumLoop d symtab type s stop (addUnsafe datum kv) (skipComma rest) := by
  rw [datumLoop, dif_neg hp, dif_neg hdelim]
  split
  · next e herror =>
    rw [hparse] at herror
    cases herror
  · next kv' rest' hparse' =>
    rw [hparse] at hparse'
    cases hparse'
    rfl

end

/-- The loop adds keys and values one after the other, with the ranges of the text among them. -/
theorem datumLoop_parsed {datum datum' : Datum} (hspace : skipSpaces p = p)
    (h : datumLoop d symtab type s stop datum p = .ok (datum', rest)) :
    ∃ kvs : List KeyValue, datum' = kvs.foldl addUnsafe datum ∧
      (∀ kv ∈ kvs, KeyValueOk d type kv) ∧
      keyRanges type p = kvs.filterMap KeyValue.range ++ keyRanges type rest := by
  fun_induction datumLoop d symtab type s stop datum p with
  | case1 datum p hp =>
    cases h
    exact ⟨[], rfl, by simp, rfl⟩
  | case2 => cases h
  | case3 => cases h
  | case4 datum p hp hdelim kv rest' hparse ih =>
    obtain ⟨kvs, hdatum, hkvs, hranges⟩ := ih skipSpaces_skipComma h
    refine ⟨kv :: kvs, hdatum, forall_mem_cons.mpr ⟨parseKeyValue_ok hparse, hkvs⟩, ?_⟩
    rw [keyRanges_parseKeyValue (fun hnil => hp (.inl hnil)) hspace hdelim hparse,
      ← keyRanges_skipComma, hranges, ← append_assoc]
    cases hkv : kv.range <;> simp [hkv]

/-- What `ovsdb_datum_add_unsafe` adds to a datum. -/
def KeyValue.elements (kv : KeyValue) : List Element :=
  match kv.range with
  | some (first, last) => (integersFrom first last).map fun i => ⟨.integer i, none⟩
  | none => [⟨kv.key, kv.value⟩]

theorem addUnsafe_eq {datum : Datum} : addUnsafe datum kv = datum ++ kv.elements := by
  obtain ⟨key, rangeEnd, value⟩ := kv
  cases rangeEnd <;> cases key <;> simp [addUnsafe, KeyValue.elements, KeyValue.range, integersFrom]

theorem foldl_addUnsafe (kvs : List KeyValue) (datum : Datum) :
    kvs.foldl addUnsafe datum = datum ++ kvs.flatMap KeyValue.elements := by
  induction kvs generalizing datum with
  | nil => simp
  | cons kv kvs ih => rw [foldl_cons, ih, addUnsafe_eq, flatMap_cons, append_assoc]

section
variable (hkv : KeyValueOk d type kv)
include hkv

theorem KeyValueOk.of_range {first last : Int} (hrange : kv.range = some (first, last)) :
    first ≤ last ∧ last ≤ llongMax ∧
      ∀ i, first ≤ i → i ≤ last → Accepted d type.key (.integer i) := by
  obtain ⟨key, rangeEnd, value⟩ := kv
  cases rangeEnd with
  | none => cases key <;> cases hrange
  | some last' =>
    obtain ⟨first', hkey, hbounds⟩ := hkv.range last' rfl
    cases hkey
    cases hrange
    exact hbounds

theorem KeyValueOk.single_of_range (hrange : kv.range = none) :
    ElementOk d type ⟨kv.key, kv.value⟩ := by
  apply hkv.single
  cases hend : kv.rangeEnd with
  | none => rfl
  | some last =>
    obtain ⟨first, hkey, -⟩ := hkv.range last hend
    rw [KeyValue.range, hkey, hend] at hrange
    cases hrange

theorem KeyValueOk.key_accepted : ∀ e ∈ kv.elements, Accepted d type.key e.key := by
  intro e he
  rw [KeyValue.elements] at he
  split at he
  · next first last hrange =>
    obtain ⟨i, hi, rfl⟩ := mem_map.mp he
    obtain ⟨hle, hge⟩ := mem_integersFrom.mp hi
    exact (hkv.of_range hrange).2.2 i hle hge
  · next hrange =>
    cases mem_singleton.mp he
    exact (hkv.single_of_range hrange).key

/-- A range leaves the keys of a map without values, and that is all that can be wrong. -/
theorem KeyValueOk.elements_iff : (∀ e ∈ kv.elements, ElementOk d type e) ↔
    ∀ r ∈ kv.range, type.isMap = false := by
  constructor
  · intro hall r hr
    obtain ⟨first, last⟩ := r
    have hbounds := hkv.of_range hr
    have hfirst : ElementOk d type ⟨.integer first, none⟩ := by
      apply hall
      rw [KeyValue.elements, hr]
      exact mem_map.mpr ⟨first, mem_integersFrom.mpr ⟨Int.le_refl _, hbounds.1⟩, rfl⟩
    cases hmap : type.isMap with
    | false => rfl
    | true =>
      obtain ⟨v, hv, -⟩ := hfirst.value hmap
      cases hv
  · intro hset e he
    have hkey := hkv.key_accepted e he
    rw [KeyValue.elements] at he
    split at he
    · next first last hrange =>
      obtain ⟨i, -, rfl⟩ := mem_map.mp he
      refine ⟨hkey, ?_, fun _ => rfl⟩
      rw [hset _ hrange]
      rintro ⟨⟩
    · next hrange =>
      cases mem_singleton.mp he
      exact hkv.single_of_range hrange

end

end

/-! ## 4. Data -/

/-- A datum as its type asks for it. -/
structure Datum.Valid (d : Doubles) (type : OvsdbType) (datum : Datum) : Prop where
  sorted : datum.Pairwise fun a b => a.key.compare3way b.key = .lt
  low : type.nMin ≤ datum.length
  high : datum.length ≤ type.nMax
  elements : ∀ e ∈ datum, ElementOk d type e

section
variable {d : Doubles} {symtab : SymbolTable} {type : OvsdbType} {s : List Char} {datum : Datum}

theorem datumFinish_valid {parsed : Datum} (hparsed : ∀ e ∈ parsed, Accepted d type.key e.key)
    (h : datumFinish type s parsed = .ok datum) :
    datum.Valid d type ↔ ∀ e ∈ parsed, ElementOk d type e := by
  rw [datumFinish] at h
  split at h
  · cases h
  split at h
  · cases h
  split at h
  · next sorted hsort =>
    cases h
    obtain ⟨hperm, hsorted⟩ := Datum.sort_some (fun e he => (hparsed e he).comparable) hsort
    have hlength := hperm.length_eq
    constructor
    · intro hvalid e he
      exact hvalid.elements e (hperm.mem_iff.mpr he)
    · intro hok
      exact ⟨hsorted, by omega, by omega, fun e he => hok e (hperm.mem_iff.mp he)⟩
  · cases h

/-- A text that is accepted: what was parsed, and the ranges in it. -/
theorem datumBody_parsed {stop : Option Char} {p : List Char}
    (hstop : ∀ c ∈ stop, tokenIsDelim c = true) (hspace : skipSpaces p = p)
    (h : datumBody d symtab type s stop p = .ok datum) :
    ∃ kvs : List KeyValue, datumFinish type s (kvs.flatMap KeyValue.elements) = .ok datum ∧
      (∀ kv ∈ kvs, KeyValueOk d type kv) ∧ keyRanges type p = kvs.filterMap KeyValue.range := by
  cases hloop : datumLoop d symtab type s stop [] p with
  | error e =>
    rw [datumBody, hloop] at h
    cases h
  | ok result =>
    obtain ⟨parsed, rest⟩ := result
    obtain ⟨kvs, rfl, hkvs, hranges⟩ := datumLoop_parsed hspace hloop
    simp only [datumBody, hloop, bind, Except.bind] at h
    split at h
    · cases h
    next hend =>
    split at h
    · cases h
    next htrailing =>
    rw [foldl_addUnsafe, nil_append] at h
    refine ⟨kvs, h, hkvs, ?_⟩
    suffices hrest : keyRanges type rest = [] by rw [hranges, hrest, append_nil]
    rw [ne_eq, not_not] at hend
    cases rest with
    | nil => simp [keyRanges, keyTokens]
    | cons c rest =>
      rw [head?_cons] at hend
      rw [← hend, tail_cons, not_and, ne_eq, not_not] at htrailing
      rw [keyRanges_delim (hstop c hend.symm), ← keyRanges_skipSpaces, htrailing rfl]
      simp [keyRanges, keyTokens]

/-- What is accepted was put together from accepted elements. -/
theorem datumFromText_parsed (h : datumFromText d symtab type s = .ok datum) :
    ∃ kvs : List KeyValue, datumFinish type s (kvs.flatMap KeyValue.elements) = .ok datum ∧
      (∀ kv ∈ kvs, KeyValueOk d type kv) ∧ keyRanges type s = kvs.filterMap KeyValue.range := by
  rw [datumFromText] at h
  rw [← keyRanges_skipSpaces]
  split at h
  · next hopen =>
    obtain ⟨p, hp⟩ := head?_eq_some_iff.mp hopen
    have hend : tokenIsDelim (endDelim type) = true := by
      rw [endDelim]
      split <;> decide
    rw [hp, keyRanges_delim startDelim_spec.2, ← keyRanges_skipSpaces]
    rw [hp, tail_cons] at h
    exact datumBody_parsed (by simpa using hend) (skipSpaces_idem p) h
  · split at h
    · cases h
    · exact datumBody_parsed (by simp) (skipSpaces_idem s) h

/-- A text that is accepted: each range in it is added without an overflow, and the datum is sorted,
    has a value for each key just if it is a map, has the right number of elements and meets the
    constraints of its type, just if no key of a map is a range and no range ends at the largest
    integer. -/
theorem datumFromText_valid {datum : Datum} (h : datumFromText d symtab type s = .ok datum) :
    (datum.Valid d type ∧ ∀ r ∈ keyRanges type s, (addRangeLoop r.1 r.2).isSome = true) ↔
      ∀ r ∈ keyRanges type s, type.isMap = false ∧ r.2 ≠ llongMax := by
  obtain ⟨kvs, hfinish, hkvs, hranges⟩ := datumFromText_parsed h
  have hkeys : ∀ e ∈ kvs.flatMap KeyValue.elements, Accepted d type.key e.key := by
    intro e he
    obtain ⟨kv, hkv, he⟩ := mem_flatMap.mp he
    exact (hkvs kv hkv).key_accepted e he
  have hvalid : datum.Valid d type ↔ ∀ r ∈ keyRanges type s, type.isMap = false := by
    rw [datumFinish_valid hkeys hfinish, hranges]
    constructor
    · intro hall r hr
      obtain ⟨kv, hkv, hr⟩ := mem_filterMap.mp hr
      exact (hkvs kv hkv).elements_iff.mp
        (fun e he => hall e (mem_flatMap.mpr ⟨kv, hkv, he⟩)) r hr
    · intro hset e he
      obtain ⟨kv, hkv, he⟩ := mem_flatMap.mp he
      exact (hkvs kv hkv).elements_iff.mpr
        (fun r hr => hset r (mem_filterMap.mpr ⟨kv, hkv, hr⟩)) e he
  have hadded : ∀ r ∈ keyRanges type s, (addRangeLoop r.1 r.2).isSome = true ↔
      r.2 ≠ llongMax := by
    rintro ⟨first, last⟩ hr
    rw [hranges] at hr
    obtain ⟨kv, hkv, hr⟩ := mem_filterMap.mp hr
    obtain ⟨hle, hlong, -⟩ := (hkvs kv hkv).of_range hr
    constructor
    · intro hsome hmax
      rw [addRangeLoop_max hmax hle] at hsome
      cases hsome
    · intro hlast
      rw [addRangeLoop_eq (lt_of_le_of_ne hlong hlast)]
      rfl
  rw [hvalid, ← forall₂_and]
  exact forall₂_congr fun r hr => and_congr_right' (hadded r hr)

end

def integerSet : OvsdbType := { key := { type := .integer }, nMax := uintMax }

/-- A set of integers, two of them given as a range. -/
theorem datumFromText_valid_sample :
    datumFromText noDoubles (fun _ => 0) integerSet "[2-3, 1]".toList =
      .ok [⟨.integer 1, none⟩, ⟨.integer 2, none⟩, ⟨.integer 3, none⟩] ∧
    Datum.Valid noDoubles integerSet
      [⟨.integer 1, none⟩, ⟨.integer 2, none⟩, ⟨.integer 3, none⟩] := by
  have hrange : parseKeyValue noDoubles (fun _ => 0) integerSet "2-3, 1]".toList =
      .ok (⟨.integer 2, some 3, none⟩, ", 1]".toList) := rfl
  have hone : parseKeyValue noDoubles (fun _ => 0) integerSet "1]".toList =
      .ok (⟨.integer 1, none, none⟩, "]".toList) := rfl
  have hranges : keyRanges integerSet "[2-3, 1]".toList = [(2, 3)] := by
    show keyRanges integerSet ('[' :: "2-3, 1]".toList) = _
    rw [keyRanges_delim (by decide),
      keyRanges_parseKeyValue (by decide) (by decide) (by decide) hrange,
      ← keyRanges_skipComma, show skipComma ", 1]".toList = "1]".toList from rfl,
      keyRanges_parseKeyValue (by decide) (by decide) (by decide) hone]
    show _ ++ ([] ++ keyRanges integerSet [']']) = _
    rw [keyRanges_delim (by decide)]
    simp [keyRanges, keyTokens, KeyValue.range]
  have htext : datumFromText noDoubles (fun _ => 0) integerSet "[2-3, 1]".toList =
      .ok [⟨.integer 1, none⟩, ⟨.integer 2, none⟩, ⟨.integer 3, none⟩] := by
    show datumBody noDoubles (fun _ => 0) integerSet _ (some ']') "2-3, 1]".toList = _
    rw [datumBody, datumLoop_cons (by decide) (by decide) hrange,
      show skipComma ", 1]".toList = "1]".toList from rfl,
      datumLoop_cons (by decide) (by decide) hone,
      show skipComma "]".toList = "]".toList from rfl, datumLoop, dif_pos (by decide)]
    rfl
  refine ⟨htext, ((datumFromText_valid htext).mpr ?_).1⟩
  rw [hranges]
  decide

def integerMap : OvsdbType :=
  { key := { type := .integer }, value := { type := .integer }, nMax := uintMax }

/-- A map with a range of keys: the datum is accepted and has no values. -/
theorem datumFromText_rangeInMap : integerMap.isMap = true ∧
    datumFromText noDoubles (fun _ => 0) integerMap "1-3=7".toList =
      .ok [⟨.integer 1, none⟩, ⟨.integer 2, none⟩, ⟨.integer 3, none⟩] := by
  refine ⟨rfl, ?_⟩
  have hparse : parseKeyValue noDoubles (fun _ => 0) integerMap "1-3=7".toList =
      .ok (⟨.integer 1, some 3, some (.integer 7)⟩, []) := rfl
  show datumBody noDoubles (fun _ => 0) integerMap _ none "1-3=7".toList = _
  rw [datumBody, datumLoop_cons (by decide) (by decide) hparse, datumLoop, dif_pos (by decide)]
  rfl

end Ovsgw.Ovsdb
