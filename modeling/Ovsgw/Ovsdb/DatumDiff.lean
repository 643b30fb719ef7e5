/-
  **Differences of data** (`ovsdb_datum_diff` and `ovsdb_datum_apply_diff` of `lib/ovsdb-data.c`).

  For a set or a map that may have several elements the difference has the elements
  that only one side has, and the new pair where a key has another value.  Applying it
  is the same loop again, and it brings the new datum back.
-/
import Ovsgw.Lib.Results
import Ovsgw.Ovsdb.Datum
import Ovsgw.Ovsdb.DatumTextSpec

namespace Ovsgw.Ovsdb

open List
open Element (toJson)
open Results (bind_ok)

/-! ## 1. Data of one type -/

/-- Each element has a key and, in a map, a value of the right atomic type. -/
structure Datum.Typed (type : OvsdbType) (datum : Datum) : Prop where
  keys : ∀ e ∈ datum, e.key.type = type.key.type
  values : type.isMap = true → ∀ e ∈ datum, ∃ v, e.value = some v ∧ v.type = type.value.type
  noValues : type.isMap = false → ∀ e ∈ datum, e.value = none

/-- A type without reals, so that data are compared exactly. -/
structure OvsdbType.Exact (type : OvsdbType) : Prop where
  key : type.key.type ≠ .real
  value : type.value.type ≠ .real

variable {a : Atom}

theorem Atom.eq_of_compare3way {b : Atom} (htype : a.type = b.type) (hreal : a.type ≠ .real)
    (h : a.compare3way b = .eq) : a = b := by
  cases a <;> cases b <;> simp_all [Atom.type, Atom.compare3way, String.ext_iff]
  exact BitVec.eq_of_toNat_eq h

theorem Atom.compare3way_self (hreal : a.type ≠ .real) : a.compare3way a = .eq := by
  cases a <;> simp_all [Atom.type, Atom.compare3way]

section
variable {type : OvsdbType} {a b : Datum}

theorem Datum.Typed.of_cons {e : Element} (h : Datum.Typed type (e :: a)) : Datum.Typed type a where
  keys e' he := h.keys e' (mem_cons_of_mem e he)
  values hmap e' he := h.values hmap e' (mem_cons_of_mem e he)
  noValues hmap e' he := h.noValues hmap e' (mem_cons_of_mem e he)

theorem Datum.Typed.nil : Datum.Typed type [] where
  keys _ he := nomatch he
  values _ _ he := nomatch he
  noValues _ _ he := nomatch he

theorem Datum.Typed.of_subset (h : Datum.Typed type a) (hsub : ∀ e ∈ b, e ∈ a) :
    Datum.Typed type b where
  keys e he := h.keys e (hsub e he)
  values hmap e he := h.values hmap e (hsub e he)
  noValues hmap e he := h.noValues hmap e (hsub e he)

theorem Datum.Typed.of_same {type' : OvsdbType} (h : Datum.Typed type a)
    (hkey : type'.key = type.key) (hvalue : type'.value = type.value) : Datum.Typed type' a := by
  have hmap : type'.isMap = type.isMap := by rw [OvsdbType.isMap, OvsdbType.isMap, hvalue]
  constructor
  · exact hkey ▸ h.keys
  · exact hmap ▸ hvalue ▸ h.values
  · exact hmap ▸ h.noValues

/-- Whether `ovsdb_datum_diff` finds two values under one key different. -/
def valuesDiffer (isMap : Bool) (x y : Element) : Bool :=
  match isMap, x.value, y.value with
  | true, some x, some y => x.compare3way y != .eq
  | _, _, _ => false

theorem Datum.Typed.element_eq (hexact : type.Exact) {x y : Element} (hx : Datum.Typed type (x :: a))
    (hy : Datum.Typed type (y :: b)) (hkey : x.key.compare3way y.key = .eq)
    (hvalue : valuesDiffer type.isMap x y = false) : x = y := by
  have hxkey := hx.keys x mem_cons_self
  have hykey := hy.keys y mem_cons_self
  have hkeys : x.key = y.key :=
    Atom.eq_of_compare3way (hxkey.trans hykey.symm) (hxkey ▸ hexact.key) hkey
  have hvalues : x.value = y.value := by
    cases hmap : type.isMap with
    | true =>
      obtain ⟨v, hv, hvtype⟩ := hx.values hmap x mem_cons_self
      obtain ⟨w, hw, hwtype⟩ := hy.values hmap y mem_cons_self
      simp only [valuesDiffer, hmap, hv, hw, bne_eq_false_iff_eq] at hvalue
      rw [hv, hw, Atom.eq_of_compare3way (hvtype.trans hwtype.symm) (hvtype ▸ hexact.value) hvalue]
    | false =>
      rw [hx.noValues hmap x mem_cons_self, hy.noValues hmap y mem_cons_self]
  cases x
  cases y
  simp_all

/-- `ovsdb_datum_equals` decides equality. -/
theorem Datum.eq_of_equals (hexact : type.Exact) (ha : Datum.Typed type a)
    (hb : Datum.Typed type b) (h : a.equals b type = true) : a = b := by
  rw [Datum.equals, beq_iff_eq, Datum.compare3way] at h
  have hlength : a.length = b.length := by
    by_contra hne
    rw [if_pos hne] at h
    exact hne (compare_eq_iff_eq.mp h)
  rw [if_neg (not_not.mpr hlength), Ordering.then_eq_eq] at h
  obtain ⟨hkeys, hvalues⟩ := h
  -- Both loops go over the two data element by element.
  induction a generalizing b with
  | nil => exact (length_eq_zero_iff.mp hlength.symm).symm
  | cons x a ih =>
    cases b with
    | nil => exact absurd hlength (by simp)
    | cons y b =>
      simp only [Datum.keys, map_cons, compareAtoms, Ordering.then_eq_eq] at hkeys
      have hpair : valuesDiffer type.isMap x y = false ∧
          (if type.isMap then compareAtoms (Datum.values a) (Datum.values b) else .eq) = .eq := by
        cases hmap : type.isMap with
        | true =>
          obtain ⟨v, hv, -⟩ := ha.values hmap x mem_cons_self
          obtain ⟨w, hw, -⟩ := hb.values hmap y mem_cons_self
          simp only [hmap, if_true, Datum.values, filterMap_cons, hv, hw, compareAtoms,
            Ordering.then_eq_eq] at hvalues
          exact ⟨by simp [valuesDiffer, hv, hw, hvalues.1], hvalues.2⟩
        | false => exact ⟨rfl, rfl⟩
      rw [Datum.Typed.element_eq hexact ha hb hkeys.1 hpair.1,
        ih ha.of_cons hb.of_cons (Nat.succ.inj hlength) hkeys.2 hpair.2]

end

/-! ## 2. Difference and application -/

def OvsdbType.isComposite (type : OvsdbType) : Bool := type.nMax > 1

/-- The loops of `ovsdb_datum_diff`. -/
def diffLoop (isMap : Bool) : Datum → Datum → Datum
  | [], new => new
  | old, [] => old
  | o :: old, n :: new =>
    match o.key.compare3way n.key with
    | .lt => o :: diffLoop isMap old (n :: new)
    | .gt => n :: diffLoop isMap (o :: old) new
    | .eq =>
      if valuesDiffer isMap o n then n :: diffLoop isMap old new else diffLoop isMap old new
termination_by old new => old.length + new.length

def Datum.diff (old new : Datum) (type : OvsdbType) : Datum :=
  if type.isComposite then diffLoop type.isMap old new else new

def Datum.applyDiff (old diff : Datum) (type : OvsdbType) : Except OvsdbError Datum :=
  let new := old.diff diff type
  if new.length < type.nMin ∨ new.length > type.nMax then
    .error (ovsdbError "Datum crated by diff has size error")
  else .ok new

/-- The type of `ovsdb_transient_datum_from_json`. -/
def OvsdbType.relaxed (type : OvsdbType) : OvsdbType := { type with nMin := 0, nMax := uintMax }

def transientDatumFromJson (d : Doubles) (type : OvsdbType) (json : Json) :
    Except OvsdbError Datum :=
  datumFromJson d type.relaxed json

section
variable {d : Doubles} {type : OvsdbType} {old new : Datum} {e : Element} {isMap : Bool}

theorem mem_of_mem_diffLoop (h : e ∈ diffLoop isMap old new) : e ∈ old ∨ e ∈ new := by
  fun_induction diffLoop isMap old new with
  | case1 new => exact .inr h
  | case2 old => exact .inl h
  | case3 o old n new hlt ih => simp only [mem_cons] at h ih ⊢; tauto
  | case4 o old n new hgt ih => simp only [mem_cons] at h ih ⊢; tauto
  | case5 o old n new heq hdiffer ih => simp only [mem_cons] at h ih ⊢; tauto
  | case6 o old n new heq hdiffer ih => simp only [mem_cons] at h ih ⊢; tauto

theorem length_diffLoop_le : (diffLoop isMap old new).length ≤ old.length + new.length := by
  fun_induction diffLoop isMap old new <;> simp_all <;> omega

theorem Atom.compare3way_trans {b c : Atom} (hab : a.type = b.type) (hbc : b.type = c.type)
    (hreal : a.type ≠ .real) (h : a.compare3way b = .lt) (h' : b.compare3way c = .lt) :
    a.compare3way c = .lt := by
  cases a <;> cases b <;> cases c <;>
    simp_all only [Atom.type, Atom.compare3way, ne_eq, reduceCtorEq, not_true_eq_false]
  all_goals exact Std.TransCmp.lt_trans h h'

theorem Atom.compare3way_swap (a b : Atom) : b.compare3way a = (a.compare3way b).swap := by
  cases a <;> cases b <;> simp only [Atom.compare3way, Ordering.swap_eq]
  case real.real x y =>
    rw [doubleCompare, doubleCompare, Bool.or_comm]
    split
    · rfl
    · exact Std.OrientedCmp.eq_swap
  all_goals exact Std.OrientedCmp.eq_swap

theorem Atom.compare3way_eq_comm {x y : Atom} (h : x.compare3way y = .eq) :
    y.compare3way x = .eq := by
  rw [compare3way_swap x, h, Ordering.swap_eq]

theorem Datum.WellFormed.typed (h : old.WellFormed d type) : Datum.Typed type old where
  keys e he := (h.keys e he).type
  values hmap e he := by
    obtain ⟨v, hv, hok⟩ := h.values hmap e he
    exact ⟨v, hv, hok.type⟩
  noValues := h.noValues

variable (hexact : type.Exact)
include hexact

theorem valuesDiffer_self (h : Datum.Typed type (e :: old)) :
    valuesDiffer type.isMap e e = false := by
  cases hmap : type.isMap with
  | true =>
    obtain ⟨v, hv, hvtype⟩ := h.values hmap e mem_cons_self
    simp [valuesDiffer, hv, Atom.compare3way_self (hvtype ▸ hexact.value)]
  | false => rfl

theorem Datum.Typed.key_self (h : Datum.Typed type (e :: old)) : e.key.compare3way e.key = .eq :=
  Atom.compare3way_self (h.keys e mem_cons_self ▸ hexact.key)

theorem diffLoop_self (h : Datum.Typed type old) : diffLoop type.isMap old old = [] := by
  induction old with
  | nil => simp [diffLoop]
  | cons e old ih =>
    rw [diffLoop, h.key_self hexact]
    simp only [valuesDiffer_self hexact h, Bool.false_eq_true, if_false]
    exact ih h.of_cons

theorem before_of_head {x y : Element} (hx : Datum.Typed type (x :: old))
    (hy : Datum.Typed type (y :: new))
    (hsorted : (y :: new).Pairwise fun a b => a.key.compare3way b.key = .lt)
    (h : x.key.compare3way y.key = .lt) : ∀ e ∈ y :: new, x.key.compare3way e.key = .lt := by
  intro e he
  have hxtype := hx.keys x mem_cons_self
  have hytype := hy.keys y mem_cons_self
  rcases mem_cons.mp he with rfl | hrest
  · exact h
  · exact Atom.compare3way_trans (hxtype.trans hytype.symm) (hytype.trans (hy.keys e he).symm)
      (hxtype ▸ hexact.key) h (rel_of_pairwise_cons hsorted hrest)

section

variable (hold : Datum.Typed type old) (hnew : Datum.Typed type new)
  (holdSorted : old.Pairwise fun a b => a.key.compare3way b.key = .lt)
  (hnewSorted : new.Pairwise fun a b => a.key.compare3way b.key = .lt)
include hold hnew holdSorted hnewSorted

/-- A difference that is applied again gives the new datum. -/
theorem diffLoop_diffLoop : diffLoop type.isMap old (diffLoop type.isMap old new) = new := by
  fun_induction diffLoop type.isMap old new with
  | case1 new => simp [diffLoop]
  | case2 old => exact diffLoop_self hexact hold
  | case3 o old n new hlt ih =>
    rw [diffLoop, hold.key_self hexact]
    simp only [valuesDiffer_self hexact hold, Bool.false_eq_true, if_false]
    exact ih hold.of_cons hnew holdSorted.of_cons hnewSorted
  | case4 o old n new hgt ih =>
    rw [diffLoop, hgt]
    exact congrArg (n :: ·) (ih hold hnew.of_cons holdSorted hnewSorted.of_cons)
  | case5 o old n new heq hdiffer ih =>
    rw [diffLoop, heq]
    simp only [hdiffer, if_true]
    exact congrArg (n :: ·) (ih hold.of_cons hnew.of_cons holdSorted.of_cons hnewSorted.of_cons)
  | case6 o old n new heq hdiffer ih =>
    have hon : o = n :=
      Datum.Typed.element_eq hexact hold hnew heq (Bool.eq_false_of_not_eq_true hdiffer)
    subst hon
    have hrest := ih hold.of_cons hnew.of_cons holdSorted.of_cons hnewSorted.of_cons
    -- What is left of the difference comes after the element that both data have.
    cases hdiff : diffLoop type.isMap old new with
    | nil =>
      rw [hdiff] at hrest
      rw [diffLoop]
      · rw [← hrest]
        cases old <;> simp [diffLoop]
      · simp
    | cons x diff =>
      have hmem : x ∈ old ∨ x ∈ new := mem_of_mem_diffLoop (hdiff ▸ mem_cons_self)
      have hlt : o.key.compare3way x.key = .lt := by
        rcases hmem with hx | hx
        · exact rel_of_pairwise_cons holdSorted hx
        · exact rel_of_pairwise_cons hnewSorted hx
      rw [diffLoop, hlt]
      rw [hdiff] at hrest
      exact congrArg (o :: ·) hrest

theorem diffLoop_sorted :
    (diffLoop type.isMap old new).Pairwise fun a b => a.key.compare3way b.key = .lt := by
  fun_induction diffLoop type.isMap old new with
  | case1 new => exact hnewSorted
  | case2 old => exact holdSorted
  | case3 o old n new hlt ih =>
    refine pairwise_cons.mpr ⟨?_, ih hold.of_cons hnew holdSorted.of_cons hnewSorted⟩
    intro e he
    rcases mem_of_mem_diffLoop he with he | he
    · exact rel_of_pairwise_cons holdSorted he
    · exact before_of_head hexact hold hnew hnewSorted hlt e he
  | case4 o old n new hgt ih =>
    refine pairwise_cons.mpr ⟨?_, ih hold hnew.of_cons holdSorted hnewSorted.of_cons⟩
    intro e he
    rcases mem_of_mem_diffLoop he with he | he
    · exact before_of_head hexact hnew hold holdSorted
        (by rw [Atom.compare3way_swap o.key, hgt, Ordering.swap_gt]) e he
    · exact rel_of_pairwise_cons hnewSorted he
  | case5 o old n new heq hdiffer ih =>
    refine pairwise_cons.mpr ⟨?_,
      ih hold.of_cons hnew.of_cons holdSorted.of_cons hnewSorted.of_cons⟩
    intro e he
    have hkey : o.key = n.key :=
      Atom.eq_of_compare3way ((hold.keys o mem_cons_self).trans (hnew.keys n mem_cons_self).symm)
        (hold.keys o mem_cons_self ▸ hexact.key) heq
    rcases mem_of_mem_diffLoop he with he | he
    · exact hkey ▸ rel_of_pairwise_cons holdSorted he
    · exact rel_of_pairwise_cons hnewSorted he
  | case6 o old n new heq hdiffer ih =>
    exact ih hold.of_cons hnew.of_cons holdSorted.of_cons hnewSorted.of_cons

end

variable (hold : old.WellFormed d type) (hnew : new.WellFormed d type)
include hold hnew

theorem Datum.applyDiff_diff : old.applyDiff (old.diff new type) type = .ok new := by
  have hdiff : old.diff (old.diff new type) type = new := by
    rw [Datum.diff, Datum.diff]
    split_ifs
    · exact diffLoop_diffLoop hexact hold.typed hnew.typed hold.sorted hnew.sorted
    · rfl
  have hlow := hnew.low
  have hhigh := hnew.high
  rw [Datum.applyDiff, hdiff]
  exact if_neg (by omega)

theorem Datum.diff_wellFormed (hsize : old.length + new.length ≤ uintMax) :
    (old.diff new type).WellFormed d type.relaxed := by
  have hmem : ∀ e ∈ old.diff new type, e ∈ old ∨ e ∈ new := by
    intro e he
    rw [Datum.diff] at he
    split_ifs at he
    · exact mem_of_mem_diffLoop he
    · exact .inr he
  have hlength : (old.diff new type).length ≤ old.length + new.length := by
    rw [Datum.diff]
    split_ifs
    · exact length_diffLoop_le
    · exact Nat.le_add_left _ _
  constructor
  · exact Nat.zero_le _
  · exact hlength.trans hsize
  · rw [Datum.diff]
    split_ifs
    · exact diffLoop_sorted hexact hold.typed hnew.typed hold.sorted hnew.sorted
    · exact hnew.sorted
  · intro e he
    rcases hmem e he with he | he
    · exact hold.keys e he
    · exact hnew.keys e he
  · intro hmap e he
    rcases hmem e he with he | he
    · exact hold.values hmap e he
    · exact hnew.values hmap e he
  · intro hmap e he
    rcases hmem e he with he | he
    · exact hold.noValues hmap e he
    · exact hnew.noValues hmap e he

end

/-! ## 3. Data through JSON -/

section
variable {d : Doubles} {type : OvsdbType} {datum : Datum} {atom : Atom} {base : BaseType}
  {e : Element}

theorem atomFromJson_toJson (h : AtomOk d atom base) :
    atomFromJson d base atom.toJson = .ok atom := by
  have hparse : atomFromJsonUnchecked base.type atom.toJson = .ok atom := by
    rw [← h.type]
    cases atom with
    | uuid u =>
      simp only [Atom.type, Atom.toJson, atomFromJsonUnchecked, atomParseUuid, wrapJson,
        unwrapJson, Json.type, and_self, if_true, bind, Except.bind, uuidFromString_uuidToString,
        pure, Except.pure]
    | _ => rfl
  rw [atomFromJson, hparse]
  simp only [bind, Except.bind, h.constraints]
  rfl

theorem elementFromJson_toJson (h : datum.WellFormed d type) (he : e ∈ datum) :
    elementFromJson d type e.toJson = .ok e := by
  have hkey := atomFromJson_toJson (h.keys e he)
  obtain ⟨key, value⟩ := e
  cases hmap : type.isMap with
  | true =>
    obtain ⟨v, rfl, hv⟩ := h.values hmap _ he
    have hvalue := atomFromJson_toJson hv
    simp only [elementFromJson, toJson, hmap, if_true, parseJsonPair, bind, Except.bind,
      hkey, hvalue]
    rfl
  | false =>
    obtain rfl : value = none := h.noValues hmap _ he
    simp only [elementFromJson, toJson, hmap, Bool.false_eq_true, if_false, bind,
      Except.bind, hkey]
    rfl

theorem isSetJson_toJson : isSetJson atom.toJson = false := by
  cases atom <;> rfl

theorem datumFromJson_wrapped (h : datum.WellFormed d type) : datumFromJson d type
      (wrapJson (if type.isMap then "map" else "set") (.array (datum.map toJson))) =
      .ok datum := by
  have hlow := h.low
  have hhigh := h.high
  have hunsorted : datumFromJsonUnsorted d type
      (wrapJson (if type.isMap then "map" else "set") (.array (datum.map toJson))) =
      .ok datum := by
    have hname : (type.isMap || isSetJson (wrapJson (if type.isMap then "map" else "set")
        (.array (datum.map toJson)))) = true := by
      cases type.isMap <;> rfl
    have hsize : ¬ ((datum.map toJson).length < type.nMin ∨
        (datum.map toJson).length > type.nMax) := by
      rw [length_map]
      omega
    rw [datumFromJsonUnsorted, if_pos hname]
    simp only [wrapJson, unwrapJson, Json.type, and_self, if_true, bind, Except.bind, hsize,
      if_false]
    exact Results.mapM_of_inverse fun e he => elementFromJson_toJson h he
  rw [datumFromJson, hunsorted]
  simp only [bind, Except.bind, Datum.sort_of_sorted h.sorted]
  rfl

/-- A datum is read back from its JSON form. -/
theorem datumFromJson_toJson (h : datum.WellFormed d type) :
    datumFromJson d type (datum.toJson type) = .ok datum := by
  have hwrapped := datumFromJson_wrapped h
  cases hmap : type.isMap with
  | true =>
    unfold Datum.toJson
    simpa only [hmap, if_true] using hwrapped
  | false =>
    have helems : datum.map (fun e => e.key.toJson) = datum.map toJson := by
      apply map_congr_left
      intro e he
      rw [toJson, h.noValues hmap e he]
    simp only [hmap, Bool.false_eq_true, if_false] at hwrapped
    unfold Datum.toJson
    simp only [hmap, Bool.false_eq_true, if_false]
    split
    next e =>
      have hkey := atomFromJson_toJson (h.keys e mem_cons_self)
      have hvalue := h.noValues hmap e mem_cons_self
      have hunsorted : datumFromJsonUnsorted d type e.key.toJson = .ok [e] := by
        rw [datumFromJsonUnsorted, hmap, isSetJson_toJson]
        simp only [Bool.or_self, Bool.false_eq_true, if_false, bind, Except.bind, hkey]
        rw [← hvalue]
        rfl
      rw [datumFromJson, hunsorted]
      simp only [bind, Except.bind, Datum.sort_of_sorted h.sorted]
      rfl
    next => rw [helems, hwrapped]

/-- A datum that is written as JSON is read back. -/
theorem datum_json_roundTrip (d : Doubles) (type : OvsdbType) (datum : Datum)
    (h : datum.WellFormed d type) : datumFromJson d type (datum.toJson type) = .ok datum :=
  datumFromJson_toJson h

theorem sampleDatum_json_roundTrip :
    datumFromJson noDoubles sampleType (sampleDatum.toJson sampleType) = .ok sampleDatum :=
  datum_json_roundTrip noDoubles sampleType sampleDatum sampleDatum_wellFormed

theorem Datum.toJson_relaxed :
    datum.toJson type.relaxed = datum.toJson type := rfl

variable {json : Json}

theorem atomParseUuid_type (h : atomParseUuid json = .ok atom) : atom.type = .uuid := by
  obtain ⟨value, -, h⟩ := bind_ok h
  cases value with
  | string s =>
    simp only at h
    split at h <;> cases h
    rfl
  | _ => cases h

theorem atomFromJson_type (h : atomFromJson d base json = .ok atom) : atom.type = base.type := by
  obtain ⟨a, hparse, h⟩ := bind_ok h
  obtain rfl : a = atom := by
    split at h <;> cases h
    rfl
  generalize base.type = type at hparse ⊢
  unfold atomFromJsonUnchecked at hparse
  split at hparse
  case h_6 json => exact atomParseUuid_type hparse
  all_goals cases hparse
  all_goals rfl

theorem elementFromJson_typed (h : elementFromJson d type json = .ok e) : Datum.Typed type [e] := by
  rw [elementFromJson] at h
  split at h
  next hmap =>
    obtain ⟨pair, -, h⟩ := bind_ok h
    obtain ⟨key, hkey, h⟩ := bind_ok h
    obtain ⟨value, hvalue, h⟩ := bind_ok h
    cases h
    constructor
    · simp [atomFromJson_type hkey]
    · simp [atomFromJson_type hvalue]
    · simp [hmap]
  next hmap =>
    obtain ⟨key, hkey, h⟩ := bind_ok h
    cases h
    constructor
    · simp [atomFromJson_type hkey]
    · exact fun h => absurd h hmap
    · simp

theorem Datum.typed_of_forall (h : ∀ e ∈ datum, Datum.Typed type [e]) : Datum.Typed type datum where
  keys e he := (h e he).keys e mem_cons_self
  values hmap e he := (h e he).values hmap e mem_cons_self
  noValues hmap e he := (h e he).noValues hmap e mem_cons_self

theorem datumFromJsonUnsorted_typed
    (h : datumFromJsonUnsorted d type json = .ok datum) : Datum.Typed type datum := by
  rw [datumFromJsonUnsorted] at h
  split at h
  next =>
    obtain ⟨value, -, h⟩ := bind_ok h
    cases value with
    | array elems =>
      simp only at h
      split at h
      · cases h
      · apply Datum.typed_of_forall
        intro e he
        obtain ⟨json, -, hjson⟩ := Results.mem_of_mapM h e he
        exact elementFromJson_typed hjson
    | _ => cases h
  next hmap =>
    obtain ⟨key, hkey, h⟩ := bind_ok h
    cases h
    simp only [Bool.or_eq_true, not_or, Bool.not_eq_true] at hmap
    constructor
    · simp [atomFromJson_type hkey]
    · simp [hmap.1]
    · simp

theorem datumFromJson_typed (h : datumFromJson d type json = .ok datum) :
    Datum.Typed type datum := by
  obtain ⟨unsorted, hunsorted, h⟩ := bind_ok h
  have htyped := datumFromJsonUnsorted_typed hunsorted
  cases hsort : unsorted.sort with
  | none => rw [hsort] at h; cases h
  | some sorted =>
    rw [hsort] at h
    cases h
    apply htyped.of_subset
    intro e he
    rw [Datum.sort] at hsort
    split at hsort
    · cases hsort
    · cases hsort
      exact (perm_insertionSort keyLe unsorted).subset he

theorem AtomOk.eq_default (h : AtomOk d atom base)
    (hdefault : atom.isDefault = true) : atom = base.type.default := by
  rw [← h.type]
  cases atom with
  | string s =>
    have hs : s.toList = [] := by
      rw [← cstr_of_not_mem (h.string s rfl)]
      exact eq_of_beq hdefault
    rw [String.toList_eq_nil_iff.mp hs]
    rfl
  | real bits => exact absurd h.type.symm h.notReal
  | boolean b =>
    cases b with
    | false => rfl
    | true => cases hdefault
  | _ => simp_all [Atom.isDefault, Atom.type, AtomicType.default]

/-- A datum that `ovsdb_datum_is_default` accepts is the default datum. -/
theorem Datum.eq_default_of_isDefault (h : datum.WellFormed d type)
    (hdefault : datum.isDefault type = true) : datum = type.default := by
  simp only [Datum.isDefault, Bool.and_eq_true, beq_iff_eq, all_eq_true, Datum.keys,
    mem_map, Datum.values, mem_filterMap, Bool.or_eq_true, Bool.not_eq_true'] at hdefault
  obtain ⟨⟨hlength, hkeys⟩, hvalues⟩ := hdefault
  rw [OvsdbType.default]
  apply eq_replicate_iff.mpr ⟨hlength, ?_⟩
  intro e he
  have hkey : e.key = type.key.type.default := (h.keys e he).eq_default (hkeys _ ⟨e, he, rfl⟩)
  obtain ⟨key, value⟩ := e
  obtain rfl : key = _ := hkey
  cases hmap : type.isMap with
  | true =>
    obtain ⟨v, rfl, hv⟩ := h.values hmap _ he
    rcases hvalues with hnot | hvalues
    · rw [hmap] at hnot
      cases hnot
    · rw [hv.eq_default (hvalues v ⟨_, he, rfl⟩)]
      rfl
  | false =>
    obtain rfl : value = none := h.noValues hmap _ he
    rfl

end

end Ovsgw.Ovsdb
