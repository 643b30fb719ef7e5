/-
  **Data as finite sets and maps**: what `ovsdb_datum_diff`, `ovsdb_datum_find_key`,
  `ovsdb_datum_union` and `ovsdb_datum_subtract` of `lib/ovsdb-data.c` leave.

  A difference is empty for equal data only where the type allows several elements.  For other
  types it is the new datum.
-/
import Ovsgw.Lib.OrderOn
import Ovsgw.Ovsdb.DatumDiff

namespace Ovsgw.Ovsdb

open List

/-! ## 1. Differences -/

section
variable {type : OvsdbType} {old new : Datum}

theorem compareAtoms_self {atoms : List Atom} (hreal : ∀ a ∈ atoms, a.type ≠ .real) :
    compareAtoms atoms atoms = .eq := by
  induction atoms with
  | nil => rfl
  | cons a atoms ih =>
    rw [compareAtoms, Atom.compare3way_self (hreal a mem_cons_self)]
    exact ih fun b hb => hreal b (mem_cons_of_mem a hb)

theorem Datum.Typed.equals_self (hexact : type.Exact) (h : Datum.Typed type old) :
    old.equals old type = true := by
  have hkeys : compareAtoms old.keys old.keys = .eq := by
    apply compareAtoms_self
    intro a ha
    obtain ⟨e, he, rfl⟩ := mem_map.mp ha
    exact h.keys e he ▸ hexact.key
  rw [Datum.equals, Datum.compare3way, if_neg (not_not.mpr rfl), hkeys]
  cases hmap : type.isMap with
  | false => rfl
  | true =>
    have hvalues : compareAtoms (Datum.values old) (Datum.values old) = .eq := by
      apply compareAtoms_self
      intro a ha
      obtain ⟨e, he, hvalue⟩ := mem_filterMap.mp ha
      obtain ⟨v, hv, hvtype⟩ := h.values hmap e he
      obtain rfl : v = a := Option.some.inj (hv.symm.trans hvalue)
      exact hvtype ▸ hexact.value
    rw [if_pos rfl, hvalues]
    rfl

theorem diff_eq_nil_iff (hexact : type.Exact) {d : Doubles} (hold : old.WellFormed d type)
    (hnew : new.WellFormed d type) (hcomposite : type.isComposite = true) :
    old.diff new type = [] ↔ old.equals new type = true := by
  have hpatch := diffLoop_diffLoop hexact hold.typed hnew.typed hold.sorted hnew.sorted
  rw [Datum.diff, if_pos hcomposite]
  constructor
  · intro hnil
    have hsame : diffLoop type.isMap old [] = old := by
      cases old with
      | nil => simp [diffLoop]
      | cons e old => simp [diffLoop]
    rw [hnil, hsame] at hpatch
    exact hpatch ▸ hold.typed.equals_self hexact
  · intro hequal
    obtain rfl := Datum.eq_of_equals hexact hold.typed hnew.typed hequal
    exact diffLoop_self hexact hold.typed

/-- The difference of two data is sorted, tells whether they are equal if the type allows several
    elements, and is the new datum otherwise.  Applying it gives the new datum. -/
theorem datum_diff_and_patch (d : Doubles) {type : OvsdbType} (hexact : type.Exact)
    {old new : Datum} (hold : old.WellFormed d type) (hnew : new.WellFormed d type) :
    ((old.diff new type).Pairwise fun a b => a.key.compare3way b.key = .lt) ∧
    (type.isComposite = true → (old.diff new type = [] ↔ old.equals new type = true)) ∧
    (type.isComposite = false → old.diff new type = new) ∧
    ∃ patched, old.applyDiff (old.diff new type) type = .ok patched ∧
      patched.WellFormed d type ∧ patched.equals new type = true := by
  refine ⟨?_, diff_eq_nil_iff hexact hold hnew, ?_, new, ?_, hnew, hnew.typed.equals_self hexact⟩
  · rw [Datum.diff]
    split
    · exact diffLoop_sorted hexact hold.typed hnew.typed hold.sorted hnew.sorted
    · exact hnew.sorted
  · intro hscalar
    rw [Datum.diff, hscalar]
    rfl
  · exact Datum.applyDiff_diff hexact hold hnew

theorem sampleDatum_tail_wellFormed : Datum.WellFormed noDoubles sampleType sampleDatum.tail where
  low := Nat.zero_le _
  high := by decide
  sorted := sampleDatum_wellFormed.sorted.tail
  keys e he := sampleDatum_wellFormed.keys e (mem_of_mem_tail he)
  values hmap e he := sampleDatum_wellFormed.values hmap e (mem_of_mem_tail he)
  noValues hmap e he := sampleDatum_wellFormed.noValues hmap e (mem_of_mem_tail he)

/-- The difference between a map and what is left of it without its first pair. -/
theorem datum_diff_and_patch_sample : (sampleDatum.diff sampleDatum.tail sampleType = [] ↔
      sampleDatum.equals sampleDatum.tail sampleType = true) ∧
    ∃ patched, sampleDatum.applyDiff (sampleDatum.diff sampleDatum.tail sampleType) sampleType =
      .ok patched ∧ patched.WellFormed noDoubles sampleType ∧
        patched.equals sampleDatum.tail sampleType = true := by
  have hexact : sampleType.Exact := ⟨by decide, by decide⟩
  have h := datum_diff_and_patch noDoubles hexact sampleDatum_wellFormed
    sampleDatum_tail_wellFormed
  exact ⟨h.2.1 (by decide), h.2.2.2⟩

def oneInteger : OvsdbType := { key := { type := .integer } }

theorem oneInteger_wellFormed : Datum.WellFormed noDoubles oneInteger [⟨.integer 5, none⟩] where
  low := by decide
  high := by decide
  sorted := pairwise_singleton _ _
  keys := by
    intro e he
    obtain rfl := mem_singleton.mp he
    exact ⟨rfl, by decide, fun _ h => Atom.integer.inj h ▸ by decide, (by intro _ h; cases h), rfl⟩
  values := by
    intro h
    cases h
  noValues := by
    intro _ e he
    obtain rfl := mem_singleton.mp he
    rfl

/-- The difference between a single integer and itself is not empty. -/
theorem diff_scalar_not_empty :
    ∃ (type : OvsdbType) (datum : Datum), type.Exact ∧ datum.WellFormed noDoubles type ∧
      datum.equals datum type = true ∧ datum.diff datum type ≠ [] :=
  ⟨oneInteger, [⟨.integer 5, none⟩], ⟨by decide, by decide⟩, oneInteger_wellFormed, by decide,
    by decide⟩

end

/-! ## 2. The order of the keys -/

/-- An atom of a type that can be compared: a real is a number. -/
structure Atom.Comparable (type : AtomicType) (a : Atom) : Prop where
  type : a.type = type
  number : ∀ bits, a = .real bits → isNan bits = false

theorem doubleCompare_of_numbers {x y : BitVec 64} (hx : isNan x = false) (hy : isNan y = false) :
    doubleCompare x y = compare (doubleOrder x) (doubleOrder y) := by
  simp [doubleCompare, hx, hy]

/-- `ovsdb_atom_compare_3way` orders the atoms of each type. -/
theorem atoms_ordered (type : AtomicType) :
    Lib.OrderOn Atom.compare3way (Atom.Comparable type) where
  swap := by
    intro a b ha hb
    have htypes := ha.type.trans hb.type.symm
    cases a with
    | real x =>
      cases b with
      | real y =>
        simp only [Atom.compare3way, doubleCompare_of_numbers (ha.number x rfl) (hb.number y rfl),
          doubleCompare_of_numbers (hb.number y rfl) (ha.number x rfl)]
        exact Std.OrientedCmp.eq_swap.symm
      | _ => cases htypes
    | _ =>
      cases b <;> cases htypes
      simp only [Atom.compare3way]
      exact Std.OrientedCmp.eq_swap.symm
  le_trans := by
    intro a b c ha hb hc hab hbc
    have htypes := ha.type.trans hb.type.symm
    have htypes' := hb.type.trans hc.type.symm
    rw [ne_eq, ← Ordering.isLE_iff_ne_gt] at hab hbc ⊢
    cases a with
    | real x =>
      cases b with
      | real y =>
        cases c with
        | real z =>
          have hx := ha.number x rfl
          have hy := hb.number y rfl
          have hz := hc.number z rfl
          simp only [Atom.compare3way, doubleCompare_of_numbers hx hy,
            doubleCompare_of_numbers hy hz, doubleCompare_of_numbers hx hz] at hab hbc ⊢
          exact Std.TransCmp.isLE_trans hab hbc
        | _ => cases htypes'
      | _ => cases htypes
    | _ =>
      cases b <;> cases htypes
      cases c <;> cases htypes'
      simp only [Atom.compare3way] at hab hbc ⊢
      exact Std.TransCmp.isLE_trans hab hbc

/-- A datum of a type with sorted unique keys. -/
structure Datum.Ordered (type : OvsdbType) (datum : Datum) : Prop where
  typed : Datum.Typed type datum
  numbers : ∀ e ∈ datum, ∀ bits, e.key = .real bits → isNan bits = false
  sorted : datum.Pairwise fun a b => a.key.compare3way b.key = .lt

variable {bType : OvsdbType}

section
variable {type : OvsdbType} {datum a b : Datum} {e : Element} {y : Atom}

theorem Atom.ne_of_lt {x : Atom} (h : x.compare3way y = .lt) : x.compare3way y ≠ .eq := by
  rw [h]
  decide

theorem Datum.Ordered.comparable (h : Datum.Ordered type datum) (he : e ∈ datum) :
    e.key.Comparable type.key.type :=
  ⟨h.typed.keys e he, h.numbers e he⟩

theorem pairwise_lt_of_neighbours (hkeys : ∀ e ∈ datum, e.key.Comparable type.key.type)
    (hle : datum.Pairwise keyLe) (hne : hasEqualNeighbours datum.keys = false) :
    datum.Pairwise fun x y => x.key.compare3way y.key = .lt := by
  have hord := atoms_ordered type.key.type
  induction datum with
  | nil => exact .nil
  | cons x datum ih =>
    cases datum with
    | nil => exact pairwise_singleton _ _
    | cons y datum =>
      have hsplit : (x.key.equals y.key || hasEqualNeighbours (Datum.keys (y :: datum))) = false :=
        hne
      rw [Bool.or_eq_false_iff] at hsplit
      have hrest := ih (fun e he => hkeys e (mem_cons_of_mem x he)) hle.of_cons hsplit.2
      have hx := hkeys x mem_cons_self
      have hy := hkeys y (mem_cons_of_mem x mem_cons_self)
      have hxy : x.key.compare3way y.key = .lt := by
        have hxle : x.key.compare3way y.key ≠ .gt := rel_of_pairwise_cons hle mem_cons_self
        have hxne := hsplit.1
        rw [Atom.equals] at hxne
        cases hcmp : x.key.compare3way y.key <;> simp_all
      refine pairwise_cons.mpr ⟨?_, hrest⟩
      intro z hz
      rcases mem_cons.mp hz with rfl | hlater
      · exact hxy
      · exact hord.lt_trans hx hy (hkeys z (mem_cons_of_mem x hz)) hxy
          (rel_of_pairwise_cons hrest hlater)

/-- What `ovsdb_datum_sort` leaves if it succeeds. -/
theorem Datum.sort_some {sorted : Datum} (hkeys : ∀ e ∈ datum, e.key.Comparable type.key.type)
    (h : datum.sort = some sorted) :
    sorted.Perm datum ∧ sorted.Pairwise fun x y => x.key.compare3way y.key = .lt := by
  have hord := atoms_ordered type.key.type
  have hperm := perm_insertionSort keyLe datum
  have hle := hord.pairwise_insertionSort Element.key (r := keyLe) (fun _ _ => Iff.rfl) hkeys
  rw [Datum.sort] at h
  split at h
  · cases h
  · next hne =>
    cases h
    refine ⟨hperm, ?_⟩
    apply pairwise_lt_of_neighbours (fun e he => hkeys e (hperm.mem_iff.mp he)) hle
    exact Bool.eq_false_iff.mpr hne

theorem Datum.sort_of_distinct (hne : datum.Pairwise fun x y => x.key.compare3way y.key ≠ .eq) :
    ∃ sorted, datum.sort = some sorted := by
  have hsorted := Pairwise.perm hne (perm_insertionSort keyLe datum).symm
    fun hxy hyx => hxy (Atom.compare3way_eq_comm hyx)
  have hneighbours : hasEqualNeighbours (Datum.keys (datum.insertionSort keyLe)) = false := by
    generalize datum.insertionSort keyLe = sorted at hsorted
    induction sorted with
    | nil => rfl
    | cons x sorted ih =>
      cases sorted with
      | nil => rfl
      | cons y sorted =>
        have hxy := rel_of_pairwise_cons hsorted mem_cons_self
        show (x.key.equals y.key || hasEqualNeighbours (Datum.keys (y :: sorted))) = false
        rw [ih hsorted.of_cons, Bool.or_false, Atom.equals]
        exact beq_eq_false_iff_ne.mpr hxy
  exact ⟨_, by rw [Datum.sort, hneighbours]; rfl⟩

/-! ## 3. Finding a key -/

variable {i j : Nat}

theorem getD_keys {key : Atom} (hi : i < datum.length) : datum.keys.getD i key = datum[i].key := by
  simp [Datum.keys, getD_eq_getElem?_getD, hi]

theorem Datum.Ordered.getElem_lt (hd : Datum.Ordered type datum) (hij : i < j)
    (hj : j < datum.length) : (datum[i]).key.compare3way (datum[j]).key = .lt :=
  pairwise_iff_getElem.mp hd.sorted i j (hij.trans hj) hj hij

theorem Datum.Ordered.index_eq (hd : Datum.Ordered type datum) (hi : i < datum.length)
    (hj : j < datum.length) (h : (datum[i]).key.compare3way (datum[j]).key = .eq) : i = j := by
  rcases Nat.lt_trichotomy i j with hlt | heq | hgt
  · rw [hd.getElem_lt hlt hj] at h
    cases h
  · exact heq
  · have hback := Atom.compare3way_eq_comm h
    rw [hd.getElem_lt hgt hi] at hback
    cases hback

theorem Datum.Ordered.getElem_comparable (hd : Datum.Ordered type datum)
    (hi : i < datum.length) : (datum[i]).key.Comparable type.key.type :=
  hd.comparable (getElem_mem hi)

variable {key : Atom} {x : Element} {a' : Datum}

section

variable (hd : Datum.Ordered type datum) (hkey : key.Comparable type.key.type)
include hd hkey

theorem Datum.Ordered.eq_of_equals {y : Element} (hx : x ∈ datum) (hy : y ∈ datum)
    (hxkey : key.equals x.key = true) (hykey : key.equals y.key = true) : x = y := by
  have hord := atoms_ordered type.key.type
  obtain ⟨i, hi, rfl⟩ := getElem_of_mem hx
  obtain ⟨j, hj, rfl⟩ := getElem_of_mem hy
  rw [Atom.equals, beq_iff_eq] at hxkey hykey
  have hij := hd.index_eq hi hj (hord.eq_trans (hd.getElem_comparable hi) hkey
    (hd.getElem_comparable hj) (Atom.compare3way_eq_comm hxkey) hykey)
  subst hij
  rfl

/-- The binary search finds the key if there is one. -/
theorem findKeyLoop_spec {low : Nat} (high : Nat) (hhigh : high ≤ datum.length)
    (hlow : ∀ i (hi : i < datum.length), i < low → datum[i].key.compare3way key = .lt)
    (habove : ∀ i (hi : i < datum.length), high ≤ i → key.compare3way datum[i].key = .lt) :
    (∃ i, ∃ hi : i < datum.length, findKeyLoop datum.keys key low high = some i ∧
        key.compare3way datum[i].key = .eq) ∨
      (findKeyLoop datum.keys key low high = none ∧ ∀ e ∈ datum, key.compare3way e.key ≠ .eq) := by
  have hord := atoms_ordered type.key.type
  fun_induction findKeyLoop datum.keys key low high with
  | case1 low high hlt idx hcmp ih =>
    -- The key comes before the one in the middle.
    have hidx : idx < datum.length := by omega
    rw [getD_keys hidx] at hcmp
    refine ih (by omega) hlow ?_
    intro i hi hle
    rcases Nat.lt_or_eq_of_le hle with hgt | rfl
    · exact hord.lt_trans hkey (hd.getElem_comparable hidx) (hd.getElem_comparable hi) hcmp
        (hd.getElem_lt hgt hi)
    · exact hcmp
  | case2 low high hlt idx hcmp ih =>
    have hidx : idx < datum.length := by omega
    rw [getD_keys hidx] at hcmp
    have hbefore := (hord.gt_iff hkey (hd.getElem_comparable hidx)).mp hcmp
    refine ih hhigh ?_ habove
    intro i hi hle
    rcases Nat.lt_or_eq_of_le (Nat.le_of_lt_succ hle) with hless | rfl
    · exact hord.lt_trans (hd.getElem_comparable hi) (hd.getElem_comparable hidx) hkey
        (hd.getElem_lt hless hidx) hbefore
    · exact hbefore
  | case3 low high hlt idx hcmp =>
    have hidx : idx < datum.length := by omega
    rw [getD_keys hidx] at hcmp
    exact .inl ⟨idx, hidx, rfl, hcmp⟩
  | case4 low high hge =>
    refine .inr ⟨rfl, ?_⟩
    intro e he heq
    obtain ⟨i, hi, rfl⟩ := getElem_of_mem he
    rcases Nat.lt_or_ge i low with hless | hmore
    · have hless' := hlow i hi hless
      rw [(hord.eq_comm hkey (hd.getElem_comparable hi)).mp heq] at hless'
      cases hless'
    · have hmore' := habove i hi (by omega)
      rw [heq] at hmore'
      cases hmore'

/-- `ovsdb_datum_find_key` gives the index of the key, and nothing if there is none. -/
theorem Datum.Ordered.findKey_eq_some_iff (i : Nat) :
    datum.findKey key = some i ↔ ∃ e, datum[i]? = some e ∧ key.equals e.key = true := by
  have hord := atoms_ordered type.key.type
  have hloop := findKeyLoop_spec hd hkey datum.length (Nat.le_refl _)
    (fun i _ h => absurd h (Nat.not_lt_zero i)) (fun i hi h => absurd hi (Nat.not_lt.mpr h))
  simp only [Atom.equals, beq_iff_eq]
  rw [Datum.findKey]
  rcases hloop with ⟨j, hj, hfound, heq⟩ | ⟨hnone, hne⟩
  · rw [hfound, Option.some.injEq]
    constructor
    · rintro rfl
      exact ⟨datum[j], getElem?_eq_getElem hj, heq⟩
    · rintro ⟨e, he, heq'⟩
      obtain ⟨hi, rfl⟩ := List.getElem?_eq_some_iff.mp he
      have hsame : (datum[j]).key.compare3way (datum[i]).key = .eq :=
        hord.eq_trans (hd.getElem_comparable hj) hkey (hd.getElem_comparable hi)
          ((hord.eq_comm hkey (hd.getElem_comparable hj)).mp heq) heq'
      exact hd.index_eq hj hi hsame
  · rw [hnone]
    constructor
    · intro h
      cases h
    · rintro ⟨e, he, heq⟩
      exact absurd heq (hne e (mem_of_getElem? he))

theorem Datum.Ordered.findKey_eq_none_iff :
    datum.findKey key = none ↔ ∀ e ∈ datum, key.equals e.key = false := by
  rw [Option.eq_none_iff_forall_ne_some]
  constructor
  · intro hnone e he
    obtain ⟨i, hi, rfl⟩ := getElem_of_mem he
    rw [Bool.eq_false_iff]
    intro heq
    exact hnone i ((hd.findKey_eq_some_iff hkey i).mpr ⟨_, getElem?_eq_getElem hi, heq⟩)
  · intro hne i hfound
    obtain ⟨e, he, heq⟩ := (hd.findKey_eq_some_iff hkey i).mp hfound
    rw [hne e (mem_of_getElem? he)] at heq
    cases heq

end

theorem compare3way_of_not_comparable {atom : Atom} (hkey : key.type = type.key.type)
    (hnan : ¬ key.Comparable type.key.type) (hatom : atom.type = type.key.type) :
    key.compare3way atom = .eq := by
  have htypes := hkey.trans hatom.symm
  cases key with
  | real x =>
    have hx : isNan x = true := by
      by_contra hx
      refine hnan ⟨hkey, ?_⟩
      rintro bits hbits
      cases hbits
      exact Bool.not_eq_true _ ▸ hx
    cases atom with
    | real y => simp [Atom.compare3way, doubleCompare, hx]
    | _ => cases htypes
  | _ =>
    refine absurd ⟨hkey, ?_⟩ hnan
    intro bits hbits
    cases hbits

/-- `ovsdb_datum_find_key` finds a key just if it is there.  This is true of a NaN as well, which
    is equal to every key. -/
theorem Datum.Ordered.findKey_spec (hd : Datum.Ordered type datum)
    (hkey : key.type = type.key.type) :
    (∀ i, datum.findKey key = some i → ∃ e, datum[i]? = some e ∧ key.equals e.key = true) ∧
    ((datum.findKey key).isSome = true ↔ ∃ e ∈ datum, key.equals e.key = true) := by
  by_cases hcmp : key.Comparable type.key.type
  · refine ⟨fun i => (hd.findKey_eq_some_iff hcmp i).mp, ?_⟩
    rw [Option.isSome_iff_ne_none, ne_eq, hd.findKey_eq_none_iff hcmp]
    push Not
    simp only [ne_eq, Bool.not_eq_false]
  · have hequal : ∀ e ∈ datum, key.equals e.key = true := by
      intro e he
      simp [Atom.equals, compare3way_of_not_comparable hkey hcmp (hd.typed.keys e he)]
    cases datum with
    | nil => simp [Datum.findKey, findKeyLoop]
    | cons x rest =>
      have hmiddle : (0 + (x :: rest).length) / 2 < (x :: rest).length := by
        rw [length_cons]
        omega
      -- The search ends at the middle, where it starts.
      have hfound : Datum.findKey (x :: rest) key = some ((0 + (x :: rest).length) / 2) := by
        have heq := hequal _ (getElem_mem hmiddle)
        rw [Atom.equals, beq_iff_eq] at heq
        rw [Datum.findKey, findKeyLoop, if_pos (length_pos_of_ne_nil (cons_ne_nil _ _))]
        dsimp only
        rw [getD_keys hmiddle, heq]
      rw [hfound]
      refine ⟨?_, iff_of_true rfl ⟨x, mem_cons_self, hequal x mem_cons_self⟩⟩
      intro i hi
      cases hi
      exact ⟨_, getElem?_eq_getElem hmiddle, hequal _ (getElem_mem hmiddle)⟩

/-! ## 4. Union -/

/-- The loop of `ovsdb_datum_union`: the first datum with the values replaced so far, which is the
    part that is searched, and the elements that are added behind it. -/
def unionLoop (isMap replace : Bool) (a added : Datum) : (b : Datum) → Datum × Datum
  | [] => (a, added)
  | e :: b =>
    match a.findKey e.key with
    | none => unionLoop isMap replace a (added ++ [⟨e.key, if isMap then e.value else none⟩]) b
    | some i =>
      if replace && isMap then
        unionLoop isMap replace (a.modify i fun x => { x with value := e.value }) added b
      else unionLoop isMap replace a added b

/-- `ovsdb_datum_union`; `none` if the assertion that the result can be sorted fails. -/
def Datum.union (a b : Datum) (type : OvsdbType) (replace : Bool) : Option Datum :=
  let (a, added) := unionLoop type.isMap replace a [] b
  if added = [] then some a else Datum.sort (a ++ added)

/-- An element of the first datum with the value that it has in the union. -/
def inUnion (isMap replace : Bool) (b : Datum) (x : Element) : Element :=
  match b.find? fun y => x.key.equals y.key with
  | some y => if replace && isMap then { x with value := y.value } else x
  | none => x

theorem inUnion_key {isMap replace : Bool} : (inUnion isMap replace b x).key = x.key := by
  unfold inUnion
  split
  · split <;> rfl
  · rfl

theorem length_of_keys (h : a'.keys = a.keys) : a'.length = a.length := by
  have := congrArg List.length h
  simpa [Datum.keys] using this

theorem findKey_congr (h : a'.keys = a.keys) : a'.findKey key = a.findKey key := by
  rw [Datum.findKey, Datum.findKey, h, length_of_keys h]

theorem keys_modify {value : Option Atom} :
    Datum.keys (a.modify i fun x => { x with value }) = a.keys := by
  apply ext_getElem
  · simp [Datum.keys]
  · intro j hj hj'
    simp only [Datum.keys, getElem_map, getElem_modify]
    split <;> rfl

theorem key_getElem (h : a'.keys = a.keys) (hi : i < a'.length)
    (hi' : i < a.length) : (a'[i]).key = (a[i]).key := by
  have hget : a'.keys[i]? = a.keys[i]? := congrArg (·[i]?) h
  simpa [Datum.keys, hi, hi'] using hget

variable {isMap replace : Bool}

theorem inUnion_of_ne (h : x.key.equals e.key = false) :
    inUnion isMap replace (e :: b) x = inUnion isMap replace b x := by
  simp [inUnion, h]

theorem inUnion_of_all_ne
    (h : ∀ y ∈ b, x.key.equals y.key = false) : inUnion isMap replace b x = x := by
  have hnone : b.find? (fun y => x.key.equals y.key) = none :=
    find?_eq_none.mpr fun y hy => by simp [h y hy]
  simp [inUnion, hnone]

theorem inUnion_of_keep (h : (replace && isMap) = false) : inUnion isMap replace b x = x := by
  unfold inUnion
  split
  · rw [h]
    rfl
  · rfl

theorem Atom.equals_comm {x : Atom} : x.equals y = y.equals x := by
  rw [Bool.eq_iff_iff, Atom.equals, Atom.equals, beq_iff_eq, beq_iff_eq]
  exact ⟨Atom.compare3way_eq_comm, Atom.compare3way_eq_comm⟩

/-- What comes after an element in a datum has another key, and so has nothing to do with a key
    that is equal to that of the element. -/
theorem equals_later_false (hb : Datum.Ordered type b) (he : ∀ y ∈ b,
      e.key.compare3way y.key = .lt) (hkey : e.key.Comparable type.key.type) {x : Atom}
    (hx : x.Comparable type.key.type) (heq : x.equals e.key = true) :
    ∀ y ∈ b, x.equals y.key = false := by
  have hord := atoms_ordered type.key.type
  intro y hy
  rw [Atom.equals, beq_iff_eq] at heq
  have hlt := hord.lt_of_le_of_lt hx hkey (hb.comparable hy) (by simp [heq]) (he y hy)
  simp [Atom.equals, hlt]

theorem Datum.Ordered.of_cons (h : Datum.Ordered type (e :: b)) : Datum.Ordered type b where
  typed := h.typed.of_cons
  numbers x hx := h.numbers x (mem_cons_of_mem e hx)
  sorted := h.sorted.of_cons

/-- The loop adds the keys that are missing and may replace values. -/
theorem unionLoop_eq (ha : Datum.Ordered type a) (hb : Datum.Ordered type b) :
    ∀ (a' added : Datum), a'.keys = a.keys → unionLoop type.isMap replace a' added b =
        (a'.map (inUnion type.isMap replace b),
          added ++ b.filter fun y => (a.findKey y.key).isNone) := by
  have hord := atoms_ordered type.key.type
  induction b with
  | nil =>
    intro a' added hkeys
    have hid : a'.map (inUnion type.isMap replace []) = a' := by
      conv_rhs => rw [← map_id a']
      apply map_congr_left
      intro x _
      exact inUnion_of_all_ne fun y hy => absurd hy not_mem_nil
    rw [hid]
    simp [unionLoop]
  | cons e b ih =>
    intro a' added hkeys
    have hlength := length_of_keys hkeys
    have hekey := hb.comparable mem_cons_self
    have hrest := ih hb.of_cons
    rw [unionLoop, findKey_congr hkeys]
    cases hfind : a.findKey e.key with
    | none =>
      have hne := (ha.findKey_eq_none_iff hekey).mp hfind
      have hnew : (⟨e.key, if type.isMap then e.value else none⟩ : Element) = e := by
        cases hmap : type.isMap with
        | true => rfl
        | false =>
          have hvalue := hb.typed.noValues hmap e mem_cons_self
          cases e
          simp_all
      simp only [hrest a' _ hkeys, hnew, filter_cons, hfind, Option.isNone_none, if_true,
        append_assoc, singleton_append, Prod.mk.injEq, and_true]
      apply map_congr_left
      intro x hx
      obtain ⟨j, hj, rfl⟩ := getElem_of_mem hx
      refine (inUnion_of_ne ?_).symm
      rw [key_getElem hkeys hj (hlength ▸ hj), Atom.equals_comm]
      exact hne _ (getElem_mem _)
    | some i =>
      obtain ⟨x, hx, heq⟩ := (ha.findKey_eq_some_iff hekey i).mp hfind
      obtain ⟨hi, rfl⟩ := List.getElem?_eq_some_iff.mp hx
      simp only [filter_cons, hfind, Option.isNone_some, Bool.false_eq_true, if_false]
      cases hreplace : replace && type.isMap with
      | false =>
        simp only [Bool.false_eq_true, if_false, hrest a' added hkeys, Prod.mk.injEq, and_true]
        apply map_congr_left
        intro x _
        rw [inUnion_of_keep hreplace, inUnion_of_keep hreplace]
      | true =>
        simp only [if_true]
        rw [hrest _ added (keys_modify.trans hkeys)]
        simp only [Prod.mk.injEq, and_true]
        apply ext_getElem
        · simp
        · intro j hj hj'
          simp only [length_map] at hj'
          have hja : j < a.length := hlength ▸ hj'
          have hjkey := key_getElem hkeys hj' hja
          simp only [getElem_map, getElem_modify]
          by_cases hij : i = j
          · subst hij
            have hsame : ((a'[i]).key).equals e.key = true := by
              rw [hjkey, Atom.equals_comm]
              exact heq
            rw [if_pos rfl]
            have hlater : ∀ y ∈ b, ((a'[i]).key).equals y.key = false := by
              apply equals_later_false hb.of_cons (fun y hy => rel_of_pairwise_cons hb.sorted hy)
                hekey
              · rw [hjkey]
                exact ha.getElem_comparable hja
              · exact hsame
            rw [inUnion_of_all_ne (show ∀ y ∈ b,
              ({ a'[i] with value := e.value } : Element).key.equals y.key = false from hlater)]
            simp [inUnion, hsame, hreplace]
          · rw [if_neg hij, inUnion_of_ne]
            rw [hjkey, Bool.eq_false_iff]
            intro hsame
            apply hij
            apply ha.index_eq hi hja
            rw [Atom.equals, beq_iff_eq] at heq hsame
            exact hord.eq_trans (ha.getElem_comparable hi) hekey (ha.getElem_comparable hja)
              (Atom.compare3way_eq_comm heq) (Atom.compare3way_eq_comm hsame)

theorem mem_map_inUnion (ha : Datum.Ordered type a) (hb : Datum.Ordered type b) :
    e ∈ a.map (inUnion type.isMap replace b) ↔ (e ∈ a ∧ ∀ y ∈ b, e.key.equals y.key = false) ∨
      ∃ x ∈ a, ∃ y ∈ b, x.key.equals y.key = true ∧
        e = ⟨x.key, if replace && type.isMap then y.value else x.value⟩ := by
  have hcommon : ∀ x ∈ a, ∀ y ∈ b, x.key.equals y.key = true → inUnion type.isMap replace b x =
        ⟨x.key, if replace && type.isMap then y.value else x.value⟩ := by
    intro x hx y hy heq
    cases hfind : b.find? fun z => x.key.equals z.key with
    | none => exact absurd heq (by simp [find?_eq_none.mp hfind y hy])
    | some z =>
      have hzkey := find?_some hfind
      obtain rfl : z = y :=
        hb.eq_of_equals (ha.comparable hx) (mem_of_find?_eq_some hfind) hy hzkey heq
      simp only [inUnion, hfind]
      split
      · rfl
      · rfl
  rw [mem_map]
  constructor
  · rintro ⟨x, hx, rfl⟩
    by_cases hne : ∀ y ∈ b, x.key.equals y.key = false
    · rw [inUnion_of_all_ne hne]
      exact .inl ⟨hx, hne⟩
    · push Not at hne
      obtain ⟨y, hy, heq⟩ := hne
      rw [ne_eq, Bool.not_eq_false] at heq
      exact .inr ⟨x, hx, y, hy, heq, hcommon x hx y hy heq⟩
  · rintro (⟨he, hne⟩ | ⟨x, hx, y, hy, heq, rfl⟩)
    · exact ⟨e, he, inUnion_of_all_ne hne⟩
    · exact ⟨x, hx, hcommon x hx y hy heq⟩

/-- An element of the union: one of the first datum, one that both have, one of the second. -/
def UnionHas (type : OvsdbType) (replace : Bool) (a b : Datum) (e : Element) : Prop :=
  (e ∈ a ∧ ∀ y ∈ b, e.key.equals y.key = false) ∨
  (∃ x ∈ a, ∃ y ∈ b, x.key.equals y.key = true ∧
    e = ⟨x.key, if replace && type.isMap then y.value else x.value⟩) ∨
  (e ∈ b ∧ ∀ x ∈ a, e.key.equals x.key = false)

section

variable (ha : Datum.Ordered type a) (hb : Datum.Ordered type b)
include ha hb

theorem UnionHas.comparable (h : UnionHas type replace a b e) : e.key.Comparable type.key.type := by
  rcases h with ⟨hmem, -⟩ | ⟨x, hx, y, hy, -, rfl⟩ | ⟨hmem, -⟩
  · exact ha.comparable hmem
  · have hkey := ha.comparable hx
    exact ⟨hkey.type, hkey.number⟩
  · exact hb.comparable hmem

theorem UnionHas.typed {u : Datum} (h : ∀ e ∈ u, UnionHas type replace a b e) :
    Datum.Typed type u where
  keys e he := ((h e he).comparable ha hb).type
  values := by
    intro hmap e he
    rcases h e he with ⟨hmem, -⟩ | ⟨x, hx, y, hy, -, rfl⟩ | ⟨hmem, -⟩
    · exact ha.typed.values hmap e hmem
    · dsimp only
      split
      · exact hb.typed.values hmap y hy
      · exact ha.typed.values hmap x hx
    · exact hb.typed.values hmap e hmem
  noValues := by
    intro hmap e he
    rcases h e he with ⟨hmem, -⟩ | ⟨x, hx, y, hy, -, rfl⟩ | ⟨hmem, -⟩
    · exact ha.typed.noValues hmap e hmem
    · dsimp only
      rw [hmap, Bool.and_false]
      exact ha.typed.noValues hmap x hx
    · exact hb.typed.noValues hmap e hmem

/-- The union has the keys of both data.  A key that both have keeps the value of the first datum
    unless values are replaced. -/
theorem Datum.union_spec : ∃ u, a.union b type replace = some u ∧ Datum.Ordered type u ∧
      ∀ e, e ∈ u ↔ UnionHas type replace a b e := by
  have hnew : ∀ y ∈ b, (a.findKey y.key).isNone = true ↔ ∀ x ∈ a, y.key.equals x.key = false := by
    intro y hy
    rw [Option.isNone_iff_eq_none]
    exact ha.findKey_eq_none_iff (hb.comparable hy)
  obtain ⟨old, hold⟩ : ∃ old, old = a.map (inUnion type.isMap replace b) := ⟨_, rfl⟩
  obtain ⟨added, hadded⟩ : ∃ added, added = b.filter fun y => (a.findKey y.key).isNone := ⟨_, rfl⟩
  have hunion : a.union b type replace = if added = [] then some old else
      Datum.sort (old ++ added) := by
    rw [Datum.union, unionLoop_eq ha hb a [] rfl, nil_append, ← hold, ← hadded]
  have hmem : ∀ e, e ∈ old ++ added ↔ UnionHas type replace a b e := by
    intro e
    rw [mem_append, hold, mem_map_inUnion ha hb, hadded, mem_filter, or_assoc, UnionHas,
      and_congr_right fun he => hnew e he]
  have holdSorted : old.Pairwise fun x y => x.key.compare3way y.key = .lt := by
    rw [hold, pairwise_map]
    simp only [inUnion_key]
    exact ha.sorted
  have hkeys : ∀ e ∈ old ++ added, e.key.Comparable type.key.type :=
    fun e he => ((hmem e).mp he).comparable ha hb
  -- The old keys are sorted, the added keys are, and no added key is an old one.
  have hdistinct : (old ++ added).Pairwise fun x y => x.key.compare3way y.key ≠ .eq := by
    rw [pairwise_append]
    refine ⟨holdSorted.imp Atom.ne_of_lt, ?_, ?_⟩
    · rw [hadded]
      exact (hb.sorted.filter _).imp Atom.ne_of_lt
    · intro x hx y hy heq
      rw [hold, mem_map] at hx
      obtain ⟨x, hx, rfl⟩ := hx
      rw [hadded, mem_filter] at hy
      have hother := (hnew y hy.1).mp hy.2 x hx
      rw [inUnion_key] at heq
      rw [Atom.equals, Atom.compare3way_eq_comm heq] at hother
      cases hother
  have hordered : ∀ u : Datum, u.Perm (old ++ added) →
      (u.Pairwise fun x y => x.key.compare3way y.key = .lt) → Datum.Ordered type u ∧
        ∀ e, e ∈ u ↔ UnionHas type replace a b e := by
    intro u hperm hsorted
    have hu : ∀ e, e ∈ u ↔ UnionHas type replace a b e := fun e => hperm.mem_iff.trans (hmem e)
    exact ⟨⟨UnionHas.typed ha hb fun e he => (hu e).mp he,
      fun e he => (((hu e).mp he).comparable ha hb).number, hsorted⟩, hu⟩
  rw [hunion]
  by_cases hnone : added = []
  · rw [if_pos hnone]
    refine ⟨old, rfl, hordered old ?_ holdSorted⟩
    rw [hnone, append_nil]
  · rw [if_neg hnone]
    obtain ⟨u, hu⟩ := Datum.sort_of_distinct hdistinct
    obtain ⟨hperm, hsorted⟩ := Datum.sort_some hkeys hu
    exact ⟨u, hu, hordered u hperm hsorted⟩

end

/-! ## 5. Subtraction -/

def Datum.findKeyValue (datum : Datum) (key : Atom) (value : Option Atom)
    (valueType : AtomicType) : Option Nat :=
  match datum.findKey key with
  | none => none
  | some idx =>
    match datum[idx]?.bind Element.value, value with
    | some found, some value =>
      if valueType ≠ .void ∧ found.equals value = false then none else some idx
    | _, _ => some idx

def Datum.has (b : Datum) (bType : OvsdbType) (e : Element) : Bool :=
  (b.findKeyValue e.key e.value bType.value.type).isSome

theorem length_removeUnsafe {idx : Nat} : (datum.removeUnsafe idx).length = datum.length - 1 := by
  rw [Datum.removeUnsafe]
  cases datum.getLast? <;> simp

/-- The loop of `ovsdb_datum_subtract`, and whether something was removed. -/
def subtractLoop (b : Datum) (bType : OvsdbType) (a : Datum) (i : Nat) (changed : Bool) :
    Datum × Bool :=
  if h : i < a.length then
    if b.has bType a[i] then subtractLoop b bType (a.removeUnsafe i) i true
    else subtractLoop b bType a (i + 1) changed
  else (a, changed)
termination_by a.length - i
decreasing_by
  · rw [length_removeUnsafe]
    omega
  · omega

/-- `ovsdb_datum_subtract`; `none` if one of its assertions fails. -/
def Datum.subtract (a : Datum) (aType : OvsdbType) (b : Datum) (bType : OvsdbType) :
    Option Datum :=
  if aType.key.type ≠ bType.key.type then none
  else if aType.value.type ≠ bType.value.type ∧ bType.value.type ≠ .void then none
  else
    let (a, changed) := subtractLoop b bType a 0 false
    if changed then a.sort else some a

variable {idx : Nat} {aType : OvsdbType} {changed : Bool}

theorem removeUnsafe_concat {init : Datum} {last : Element} (h : idx ≤ init.length) :
    Datum.removeUnsafe (init ++ [last]) idx = init.set idx last := by
  rw [Datum.removeUnsafe, getLast?_concat, Option.elim_some]
  rcases Nat.lt_or_eq_of_le h with hinit | rfl
  · rw [set_append_left _ _ hinit, dropLast_concat]
  · rw [set_append_right _ _ (Nat.le_refl _), Nat.sub_self, set_cons_zero,
      dropLast_concat, set_eq_of_length_le (Nat.le_refl _)]

theorem exists_concat (h : idx < datum.length) :
    ∃ init last, datum = init ++ [last] ∧ idx ≤ init.length := by
  rcases eq_nil_or_concat' datum with rfl | ⟨init, last, rfl⟩
  · exact absurd h (Nat.not_lt_zero idx)
  · exact ⟨init, last, rfl, by simpa [Nat.lt_succ_iff] using h⟩

theorem removeUnsafe_perm (h : idx < datum.length) :
    (datum[idx] :: datum.removeUnsafe idx).Perm datum := by
  obtain ⟨init, last, rfl, hle⟩ := exists_concat h
  rw [removeUnsafe_concat hle]
  rcases Nat.lt_or_eq_of_le hle with hinit | rfl
  · rw [getElem_append_left hinit]
    calc (init[idx] :: init.set idx last).Perm (init[idx] :: last :: init.eraseIdx idx) :=
          (set_perm_cons_eraseIdx hinit last).cons _
      _ |>.Perm (last :: init[idx] :: init.eraseIdx idx) := .swap _ _ _
      _ |>.Perm (last :: init) := (getElem_cons_eraseIdx_perm hinit).cons _
      _ |>.Perm (init ++ [last]) := (perm_append_singleton _ _).symm
  · rw [getElem_concat_length rfl, set_eq_of_length_le (Nat.le_refl _)]
    exact (perm_append_singleton _ _).symm

theorem take_removeUnsafe (h : idx < datum.length) :
    (datum.removeUnsafe idx).take idx = datum.take idx := by
  obtain ⟨init, last, rfl, hle⟩ := exists_concat h
  rw [removeUnsafe_concat hle, take_set_of_le (Nat.le_refl _), take_append_of_le_length hle]

theorem drop_removeUnsafe_perm (h : idx < datum.length) :
    ((datum.removeUnsafe idx).drop idx).Perm (datum.drop (idx + 1)) := by
  have hperm := removeUnsafe_perm h
  have hsplit : datum.Perm (datum[idx] :: (datum.take idx ++ datum.drop (idx + 1))) := by
    conv_lhs => rw [← take_append_drop idx datum, drop_eq_getElem_cons h]
    exact perm_middle
  have hrest := (hperm.trans hsplit).cons_inv
  rw [← take_append_drop idx (datum.removeUnsafe idx), take_removeUnsafe h] at hrest
  exact (perm_append_left_iff _).mp hrest

theorem subtractLoop_changed
    (hchanged : changed = true) : (subtractLoop b bType a i changed).2 = true := by
  fun_induction subtractLoop b bType a i changed with
  | case1 a i changed h hhas ih => exact ih rfl
  | case2 a i changed h hhas ih => exact ih hchanged
  | case3 a i changed h => exact hchanged

/-- The loop leaves what the other datum does not have, in some order, and the datum itself if
    nothing changed. -/
theorem subtractLoop_spec :
    (subtractLoop b bType a i changed).1.Perm
      (a.take i ++ (a.drop i).filter fun e => !b.has bType e) ∧
    ((subtractLoop b bType a i changed).2 = false → (subtractLoop b bType a i changed).1 = a) := by
  fun_induction subtractLoop b bType a i changed with
  | case1 a i changed h hhas ih =>
    obtain ⟨hperm, -⟩ := ih
    refine ⟨?_, fun hfalse => ?_⟩
    · rw [drop_eq_getElem_cons h, filter_cons, hhas]
      rw [take_removeUnsafe h] at hperm
      exact hperm.trans (((drop_removeUnsafe_perm h).filter _).append_left _)
    · rw [subtractLoop_changed rfl] at hfalse
      cases hfalse
  | case2 a i changed h hhas ih =>
    refine ⟨?_, ih.2⟩
    have hperm := ih.1
    rw [take_add_one, getElem?_eq_getElem h, Option.toList_some, append_assoc,
      singleton_append] at hperm
    rw [drop_eq_getElem_cons h, filter_cons, if_pos (by simpa using hhas)]
    exact hperm
  | case3 a i changed h =>
    have hle : a.length ≤ i := Nat.le_of_not_lt h
    simp [take_of_length_le hle, drop_eq_nil_of_le hle]

/-- Two elements are the same for a type: their keys are, and for a map their values. -/
def Element.Same (type : OvsdbType) (x y : Element) : Prop :=
  x.key.equals y.key = true ∧
    (type.isMap = true → ∃ v w, x.value = some v ∧ y.value = some w ∧ w.equals v = true)

theorem Datum.Ordered.has_iff (hb : Datum.Ordered bType b)
    (hkey : e.key.Comparable bType.key.type) (hvalue : bType.isMap = true → ∃ v, e.value = some v) :
    b.has bType e = true ↔ ∃ y ∈ b, e.Same bType y := by
  rw [Datum.has, Datum.findKeyValue]
  cases hfind : b.findKey e.key with
  | none =>
    have hne := (hb.findKey_eq_none_iff hkey).mp hfind
    constructor
    · intro h
      cases h
    · rintro ⟨y, hy, hsame⟩
      exact absurd hsame.1 (by simp [hne y hy])
  | some i =>
    obtain ⟨y, hy, heq⟩ := (hb.findKey_eq_some_iff hkey i).mp hfind
    have hmem : y ∈ b := mem_of_getElem? hy
    -- The element found is the only one with the key.
    have honly : (∃ z ∈ b, e.Same bType z) ↔ e.Same bType y := by
      constructor
      · rintro ⟨z, hz, hsame⟩
        exact hb.eq_of_equals hkey hz hmem hsame.1 heq ▸ hsame
      · exact fun hsame => ⟨y, hmem, hsame⟩
    rw [honly]
    dsimp only
    rw [hy, Option.bind_some]
    cases hmap : bType.isMap with
    | true =>
      obtain ⟨v, hv⟩ := hvalue hmap
      obtain ⟨w, hw, -⟩ := hb.typed.values hmap y hmem
      have hvoid : bType.value.type ≠ .void := by simpa [OvsdbType.isMap] using hmap
      simp [Element.Same, heq, hmap, hv, hw, hvoid]
    | false =>
      rw [hb.typed.noValues hmap y hmem]
      simp [Element.Same, heq, hmap]

theorem Datum.Ordered.filter (ha : Datum.Ordered aType a)
    (keep : Element → Bool) : Datum.Ordered aType (a.filter keep) where
  typed := ha.typed.of_subset fun _ he => (mem_filter.mp he).1
  numbers e he := ha.numbers e (mem_filter.mp he).1
  sorted := ha.sorted.filter keep

/-- What `ovsdb_datum_sort` makes of the elements of an ordered datum. -/
theorem Datum.Ordered.sort_perm (hd : Datum.Ordered type datum) {shuffled : Datum}
    (hperm : shuffled.Perm datum) : shuffled.sort = some datum := by
  have hord := atoms_ordered type.key.type
  have hne : shuffled.Pairwise fun x y => x.key.compare3way y.key ≠ .eq := by
    exact Pairwise.perm (hd.sorted.imp Atom.ne_of_lt) hperm.symm
      fun hxy hyx => hxy (Atom.compare3way_eq_comm hyx)
  obtain ⟨sorted, hsorted⟩ := Datum.sort_of_distinct hne
  obtain ⟨hperm', hlt⟩ := Datum.sort_some (fun e he => hd.comparable (hperm.mem_iff.mp he)) hsorted
  have hsame : sorted = datum :=
    hord.eq_of_perm Element.key (fun e he => hd.comparable ((hperm'.trans hperm).mem_iff.mp he))
      hlt hd.sorted (hperm'.trans hperm)
  rw [hsorted, hsame]

theorem Datum.subtract_spec (ha : Datum.Ordered aType a)
    (hb : Datum.Ordered bType b) (hkey : aType.key.type = bType.key.type)
    (hvalue : aType.value.type = bType.value.type ∨ bType.value.type = .void) :
    ∃ r, a.subtract aType b bType = some r ∧ Datum.Ordered aType r ∧
      ∀ e, e ∈ r ↔ e ∈ a ∧ ∀ y ∈ b, ¬ e.Same bType y := by
  have hr := ha.filter fun e => !b.has bType e
  refine ⟨a.filter fun e => !b.has bType e, ?_, hr, ?_⟩
  · obtain ⟨hperm, hsame⟩ := subtractLoop_spec
    rw [Datum.subtract, if_neg (not_not.mpr hkey), if_neg (by tauto)]
    dsimp only
    split
    · exact hr.sort_perm hperm
    · next hunchanged =>
      rw [Bool.not_eq_true] at hunchanged
      rw [hsame hunchanged, take_zero, nil_append, drop_zero] at hperm
      rw [hsame hunchanged, filter_sublist.eq_of_length hperm.length_eq.symm]
  · intro e
    rw [mem_filter]
    refine and_congr_right fun he => ?_
    have hhas : b.has bType e = true ↔ ∃ y ∈ b, e.Same bType y := by
      apply hb.has_iff
      · exact hkey ▸ ha.comparable he
      · intro hmap
        have hvoid : bType.value.type ≠ .void := by simpa [OvsdbType.isMap] using hmap
        have hmap' : aType.isMap = true := by
          rcases hvalue with hsame | hnone
          · simpa [OvsdbType.isMap, hsame] using hvoid
          · exact absurd hnone hvoid
        obtain ⟨v, hv, -⟩ := ha.typed.values hmap' e he
        exact ⟨v, hv⟩
    rw [Bool.not_eq_true', Bool.eq_false_iff, ne_eq, hhas]
    push Not
    rfl

end

/-- Union, subtraction and search are those of finite sets and maps. -/
theorem datum_setAlgebra {type : OvsdbType} {a : Datum} (ha : Datum.Ordered type a) :
    (∀ (b : Datum) (replace : Bool), Datum.Ordered type b →
      ∃ u, a.union b type replace = some u ∧ Datum.Ordered type u ∧
        ∀ e, e ∈ u ↔ UnionHas type replace a b e) ∧
    (∀ (b : Datum) (bType : OvsdbType), Datum.Ordered bType b →
      type.key.type = bType.key.type →
      (type.value.type = bType.value.type ∨ bType.value.type = .void) →
      ∃ r, a.subtract type b bType = some r ∧ Datum.Ordered type r ∧
        ∀ e, e ∈ r ↔ e ∈ a ∧ ∀ y ∈ b, ¬ e.Same bType y) ∧
    ∀ key : Atom, key.type = type.key.type →
      (∀ i, a.findKey key = some i → ∃ e, a[i]? = some e ∧ key.equals e.key = true) ∧
      ((a.findKey key).isSome = true ↔ ∃ e ∈ a, key.equals e.key = true) :=
  ⟨fun _ _ hb => Datum.union_spec ha hb,
    fun _ _ hb hkey hvalue => Datum.subtract_spec ha hb hkey hvalue,
    fun _ hkey => ha.findKey_spec hkey⟩

theorem sampleDatum_ordered : Datum.Ordered sampleType sampleDatum where
  typed := sampleDatum_wellFormed.typed
  numbers := by
    intro e he bits hreal
    have hstring := (sampleDatum_wellFormed.keys e he).type
    rw [hreal] at hstring
    cases hstring
  sorted := sampleDatum_wellFormed.sorted

/-- A map with one key of `sampleDatum`, under another value, and one of its own. -/
def otherDatum : Datum :=
  [⟨.string "a b", some (.integer 5)⟩, ⟨.string "c", some (.integer 1)⟩]

theorem otherDatum_ordered : Datum.Ordered sampleType otherDatum where
  typed := by
    refine ⟨?_, fun _ => ?_, fun h => by cases h⟩
    all_goals
      intro e he
      simp only [otherDatum, mem_cons, not_mem_nil, or_false] at he
    · rcases he with rfl | rfl <;> rfl
    · rcases he with rfl | rfl <;> exact ⟨_, rfl, rfl⟩
  numbers := by
    intro e he bits hreal
    simp only [otherDatum, mem_cons, not_mem_nil, or_false] at he
    rcases he with rfl | rfl <;> cases hreal
  sorted := by
    refine pairwise_pair.mpr ?_
    decide

/-- The union of two maps that share a key, and the difference by key and value. -/
theorem datum_setAlgebra_sample : (∃ u, sampleDatum.union otherDatum sampleType true = some u ∧
      ∀ e, e ∈ u ↔ UnionHas sampleType true sampleDatum otherDatum e) ∧
    (∃ r, sampleDatum.subtract sampleType otherDatum sampleType = some r ∧
      ∀ e, e ∈ r ↔ e ∈ sampleDatum ∧ ∀ y ∈ otherDatum, ¬ e.Same sampleType y) := by
  obtain ⟨hunion, hsubtract, -⟩ := datum_setAlgebra sampleDatum_ordered
  obtain ⟨u, hu, -, hmem⟩ := hunion otherDatum true otherDatum_ordered
  obtain ⟨r, hr, -, hrmem⟩ := hsubtract otherDatum sampleType otherDatum_ordered rfl (.inl rfl)
  exact ⟨⟨u, hu, hmem⟩, ⟨r, hr, hrmem⟩⟩

end Ovsgw.Ovsdb
