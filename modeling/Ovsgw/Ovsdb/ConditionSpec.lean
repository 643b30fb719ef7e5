/-
  **What a condition says about a row.**

  A row satisfies a condition when the condition is empty or one of its clauses holds.
  `ovsdb_condition_match_any_clause` decides this for every condition but those that
  are optimized and have `true` behind two or more `false`, and for these on the rows for which an
  equality holds.
-/
import Ovsgw.Ovsdb.Condition
import Ovsgw.Ovsdb.DatumDiff

namespace Ovsgw.Ovsdb

open List

/-! ## 1. Columns and clauses of a table -/

/-- The columns of a table: the first is `_uuid`, the names are distinct, and there are no reals. -/
structure ColumnsOk (columns : List Column) : Prop where
  uuid : columns[0]? = some uuidColumn
  names : (columns.map Column.name).Nodup
  exact : ∀ column ∈ columns, column.type.Exact

def FieldsTyped (columns : List Column) (fields : Nat → Datum) : Prop :=
  ∀ i column, columns[i]? = some column → Datum.Typed column.type (fields i)

/-- A clause about a column of the table, with an argument of its type. -/
structure Clause.WellFormed (columns : List Column) (c : Clause) : Prop where
  column : columns[c.index]? = some c.column
  arg : Datum.Typed c.column.type c.arg

/-- A condition as `ovsdb_condition_from_json` leaves it. -/
structure Condition.WellFormed (columns : List Column) (cond : Condition) : Prop where
  clauses : ∀ c ∈ cond.clauses, c.WellFormed columns
  sorted : cond.clauses.Pairwise fun a b => a.function.toNat ≤ b.function.toNat
  optimized : cond.optimized =
    cond.clauses.all fun c => decide (c.function.toNat ≤ OvsdbFunction.eq.toNat)

def Condition.Holds (cond : Condition) (fields : Nat → Datum) : Prop :=
  cond.clauses = [] ∨ ∃ c ∈ cond.clauses, c.evaluate fields = true

/-- An optimized condition with `true` has `false` at most once. -/
def Condition.Regular (cond : Condition) : Prop :=
  cond.optimized = true → (∃ c ∈ cond.clauses, c.function = .true) →
    cond.clauses.countP (fun c => c.function == .false) ≤ 1

section
variable {columns : List Column}

theorem Condition.wellFormed_empty : Condition.WellFormed columns {} where
  clauses _ hc := by cases hc
  sorted := List.Pairwise.nil
  optimized := rfl

theorem OvsdbFunction.toNat_inj {f g : OvsdbFunction} (h : f.toNat = g.toNat) : f = g := by
  cases f <;> cases g <;> first | rfl | cases h

/-! ## 2. Parsing gives well-formed conditions -/

variable {ts : TableSchema} {d : Doubles} {column : Column} {json : Json}

theorem getColumn_eq {name : String} {index : Nat}
    (h : ts.getColumn name = some (index, column)) : ts.columns[index]? = some column := by
  obtain ⟨i, -, h⟩ := Option.bind_eq_some_iff.mp h
  obtain ⟨c, hc, h⟩ := Option.map_eq_some_iff.mp h
  cases h
  exact hc

theorem argumentType_same {function : OvsdbFunction}
    {type : OvsdbType} (h : function.argumentType json column = .ok type) :
    column.type.key = type.key ∧ column.type.value = type.value := by
  unfold OvsdbFunction.argumentType at h
  cases function with
  | lt | le | gt | ge =>
    simp only at h
    split at h
    · cases h
      exact ⟨rfl, rfl⟩
    · cases h
  | eq | ne =>
    cases h
    exact ⟨rfl, rfl⟩
  | excludes | includes =>
    cases h
    split_ifs <;> exact ⟨rfl, rfl⟩
  | true | false => cases h

/-- What is accepted as a clause has arguments of its type. -/
theorem clauseFromJson_wellFormed (huuid : ts.columns[0]? = some uuidColumn) {c : Clause}
    (h : clauseFromJson d ts json = .ok c) : c.WellFormed ts.columns := by
  unfold clauseFromJson at h
  split at h
  next b =>
    cases h
    constructor
    · exact huuid
    · constructor <;> simp [booleanClause, uuidColumn, OvsdbType.default, OvsdbType.isMap,
        AtomicType.default, Atom.type]
  next columnName functionName arg =>
    cases hcolumn : ts.getColumn columnName with
    | none => rw [hcolumn] at h; cases h
    | some found =>
      obtain ⟨index, column⟩ := found
      rw [hcolumn] at h
      obtain ⟨function, -, h⟩ := Results.bind_ok h
      obtain ⟨type, htype, h⟩ := Results.bind_ok h
      obtain ⟨datum, hdatum, h⟩ := Results.bind_ok h
      cases h
      obtain ⟨hkey, hvalue⟩ := argumentType_same htype
      exact ⟨getColumn_eq hcolumn, (datumFromJson_typed hdatum).of_same hkey hvalue⟩
  next => cases h

variable {a b : Clause}

theorem compareWithData_of_ne (h : a.function ≠ b.function) :
    a.compareWithData b = compare a.function.toNat b.function.toNat := by
  have hne : compare a.function.toNat b.function.toNat ≠ .eq := by
    rw [ne_eq, compare_eq_iff_eq]
    exact fun heq => h (OvsdbFunction.toNat_inj heq)
  rw [Clause.compareWithData, Clause.compare3way, if_pos h]
  cases hcompare : compare a.function.toNat b.function.toNat with
  | eq => exact absurd hcompare hne
  | lt => rfl
  | gt => rfl

theorem function_le_of_clauseLe (h : clauseLe a b) : a.function.toNat ≤ b.function.toNat := by
  by_cases hne : a.function = b.function
  · rw [hne]
  · rw [clauseLe, compareWithData_of_ne hne] at h
    exact compare_le_iff_le.mp h

theorem function_le_of_not_clauseLe (h : ¬ clauseLe a b) : b.function.toNat ≤ a.function.toNat := by
  by_cases hne : a.function = b.function
  · rw [hne]
  · rw [clauseLe, compareWithData_of_ne hne, not_not, compare_gt_iff_gt] at h
    exact h.le

theorem conditionFromJson_wellFormed (huuid : ts.columns[0]? = some uuidColumn)
    {elems : List Json} {cond : Condition} (h : conditionFromJson d ts elems = .ok cond) :
    cond.WellFormed ts.columns := by
  obtain ⟨clauses, hclauses, h⟩ := Results.bind_ok h
  cases h
  have hperm := perm_insertionSort clauseLe clauses
  constructor
  · intro c hc
    obtain ⟨json, -, hjson⟩ := Results.mem_of_mapM hclauses c (hperm.subset hc)
    exact clauseFromJson_wellFormed huuid hjson
  · exact Lists.insertionSort_pairwise (f := fun c : Clause => c.function.toNat)
      (fun _ _ => function_le_of_clauseLe) (fun _ _ => function_le_of_not_clauseLe) clauses
  · exact (hperm.all_eq).symm

/-! ## 3. Evaluation decides the condition -/

variable {fields : Nat → Datum} {cond : Condition} {c : Clause}

theorem Clause.evaluate_true (h : c.function = .true) : c.evaluate fields = true := by
  simp only [Clause.evaluate, Clause.evaluateField, h]

theorem evaluateField_eq (h : c.function = .eq) {field : Datum} :
    c.evaluateField field = field.equals c.arg c.column.type := by
  simp only [Clause.evaluateField, h, OvsdbFunction.isOrder, Bool.and_false, Bool.false_eq_true,
    if_false]
  split
  next x y hscalar harg =>
    have hmap : c.column.type.isMap = false := by
      simp only [OvsdbType.isScalar, OvsdbType.isOptionalScalar, Bool.or_eq_true,
        Bool.and_eq_true, beq_iff_eq] at hscalar
      rcases hscalar with ⟨⟨hvoid, -⟩, -⟩ | ⟨⟨hvoid, -⟩, -⟩ <;> simp [OvsdbType.isMap, hvoid]
    simp [OvsdbFunction.holds, Datum.equals, Datum.compare3way, Datum.keys, compareAtoms, hmap, harg,
      Bool.beq_eq_decide_eq]
  next => rfl

theorem Clause.lookup_eq (hexact : c.column.type.Exact) (hc : c.WellFormed columns)
    (hfields : FieldsTyped columns fields) (h : c.function = .eq) :
    c.lookup fields = c.evaluate fields := by
  rw [Clause.lookup, Clause.evaluate, evaluateField_eq h, h]
  cases hequals : (fields c.index).equals c.arg c.column.type with
  | false => simp
  | true =>
    rw [Datum.eq_of_equals hexact (hfields c.index c.column hc.column) hc.arg hequals]
    simp

/-- `ovsdb_condition_is_true` sees a `true` in a regular condition. -/
theorem Condition.isTrue_of_mem (hcond : cond.WellFormed columns) (hoptimized : cond.optimized = true)
    (hregular : cond.Regular) (h : ∃ c ∈ cond.clauses, c.function = .true) : cond.isTrue = true := by
  have hcount := hregular hoptimized h
  obtain ⟨c, hc, hctrue⟩ := h
  have hsorted := hcond.sorted
  unfold Condition.isTrue
  split
  next => rfl
  next a hclauses =>
    rw [hclauses, mem_singleton] at hc
    rw [← hc, hctrue]
    rfl
  next a b rest hclauses =>
    rw [hclauses] at hc hsorted hcount
    have hsorted' := pairwise_cons.mp hsorted
    -- The clauses before a `true` are `true` or `false`, and at most one is `false`.
    have hbefore : ∀ x : Clause, x.function.toNat ≤ c.function.toNat →
        x.function = .false ∨ x.function = .true := by
      intro x hx
      rw [hctrue] at hx
      cases hxf : x.function <;> simp_all [OvsdbFunction.toNat]
    simp only [Bool.or_eq_true, beq_iff_eq]
    rcases mem_cons.mp hc with rfl | hc
    · exact .inl hctrue
    · rcases mem_cons.mp hc with rfl | hc'
      · exact .inr hctrue
      · rcases hbefore a (hsorted'.1 c hc) with ha | ha
        · rcases hbefore b (rel_of_pairwise_cons hsorted'.2 hc') with hb | hb
          · simp [ha, hb] at hcount
          · exact .inr hb
        · exact .inl ha

theorem Condition.holds_of_isTrue (h : cond.isTrue = true) {fields : Nat → Datum} :
    cond.Holds fields := by
  unfold Condition.isTrue at h
  split at h
  next hclauses => exact .inl hclauses
  next a hclauses =>
    exact .inr ⟨a, by simp [hclauses], Clause.evaluate_true (eq_of_beq h)⟩
  next a b rest hclauses =>
    rw [Bool.or_eq_true, beq_iff_eq, beq_iff_eq] at h
    rcases h with ha | hb
    · exact .inr ⟨a, by simp [hclauses], Clause.evaluate_true ha⟩
    · exact .inr ⟨b, by simp [hclauses], Clause.evaluate_true hb⟩

/-- A regular condition matches the rows it holds for. -/
theorem Condition.emptyOrMatchAny_iff (hexact : ∀ c ∈ cond.clauses, c.column.type.Exact)
    (hcond : cond.WellFormed columns) (hfields : FieldsTyped columns fields)
    (hregular : cond.Regular) : cond.emptyOrMatchAny fields = true ↔ cond.Holds fields := by
  rw [Condition.emptyOrMatchAny, Condition.matchAnyClause, Bool.or_eq_true, List.isEmpty_iff]
  cases hoptimized : cond.optimized with
  | false => simp [Condition.Holds]
  | true =>
    simp only [if_true, Bool.or_eq_true, any_eq_true]
    constructor
    · rintro (hempty | htrue | ⟨c, hc, hlookup⟩)
      · exact .inl hempty
      · exact Condition.holds_of_isTrue htrue
      · have heq : c.function = .eq := by simp_all [Clause.lookup]
        exact .inr ⟨c, hc, Clause.lookup_eq (hexact c hc) (hcond.clauses c hc) hfields heq ▸ hlookup⟩
    · rintro (hempty | ⟨c, hc, heval⟩)
      · exact .inl hempty
      · have hle : c.function.toNat ≤ OvsdbFunction.eq.toNat := by
          have hall := hcond.optimized
          rw [hoptimized, eq_comm, all_eq_true] at hall
          exact of_decide_eq_true (hall c hc)
        cases hfun : c.function with
        | true =>
          exact .inr (.inl (Condition.isTrue_of_mem hcond hoptimized hregular ⟨c, hc, hfun⟩))
        | eq =>
          refine .inr (.inr ⟨c, hc, ?_⟩)
          rw [Clause.lookup_eq (hexact c hc) (hcond.clauses c hc) hfields hfun, heval]
        | false => simp [Clause.evaluate, Clause.evaluateField, hfun] at heval
        | _ => simp [hfun, OvsdbFunction.toNat] at hle

/-- Whatever is stored where the columns of the row should be, `true` matches. -/
theorem Condition.emptyOrMatchAny_of_isTrue (h : cond.isTrue = true) :
    cond.emptyOrMatchAny fields = true := by
  rw [Condition.emptyOrMatchAny, Condition.matchAnyClause, Bool.or_eq_true, List.isEmpty_iff]
  cases hoptimized : cond.optimized with
  | true => simp [h]
  | false =>
    rcases Condition.holds_of_isTrue h with hempty | ⟨c, hc, heval⟩
    · exact .inl hempty
    · simp only [Bool.false_eq_true, if_false, any_eq_true]
      exact .inr ⟨c, hc, heval⟩

theorem Condition.not_holds_of_isFalse (h : cond.isFalse = true) {fields : Nat → Datum} :
    ¬ cond.Holds fields := by
  unfold Condition.isFalse at h
  split at h
  next c hclauses =>
    rw [Condition.Holds, hclauses]
    rintro (hempty | ⟨c', hc, heval⟩)
    · cases hempty
    · obtain rfl : c' = c := mem_singleton.mp hc
      simp [Clause.evaluate, Clause.evaluateField, eq_of_beq h] at heval
  next => cases h

/-- Two constants `false` come first, and `ovsdb_condition_is_true` looks no further. -/
theorem Condition.isTrue_of_two_false (hcond : cond.WellFormed columns)
    (h : 1 < cond.clauses.countP fun c => c.function == .false) : cond.isTrue = false := by
  have hsorted := hcond.sorted
  -- A clause that is not `false` has none behind it.
  have hnone : ∀ {a : Clause} {l : List Clause}, (a :: l).Pairwise
      (fun a b => a.function.toNat ≤ b.function.toNat) → a.function ≠ .false →
      l.countP (fun c => c.function == .false) = 0 := by
    intro a l hl ha
    rw [countP_eq_zero]
    intro b hb hfalse
    have hle := rel_of_pairwise_cons hl hb
    rw [eq_of_beq hfalse] at hle
    exact ha (OvsdbFunction.toNat_inj (Nat.le_zero.mp hle))
  unfold Condition.isTrue
  split
  next hclauses => simp [hclauses] at h
  next a hclauses =>
    rw [hclauses, countP_singleton] at h
    split at h <;> omega
  next a b rest hclauses =>
    rw [hclauses] at h hsorted
    by_cases ha : a.function = .false
    · by_cases hb : b.function = .false
      · rw [ha, hb]
        rfl
      · have := hnone hsorted.of_cons hb
        simp [ha, hb, this] at h
    · have := hnone hsorted ha
      rw [countP_cons, this] at h
      split at h <;> omega

/-- A condition that was parsed is the disjunction of its clauses for a row, just if it has no
    `true` behind two constants `false` or one of its equalities holds; and one that counts as
    constant is constant. -/
theorem parsedCondition_disjunction (d : Doubles) (ts : TableSchema) (elems : List Json)
    (cond : Condition) (huuid : ts.columns[0]? = some uuidColumn)
    (h : conditionFromJson d ts elems = .ok cond)
    (hexact : ∀ c ∈ cond.clauses, c.column.type.Exact) :
    (∀ fields, FieldsTyped ts.columns fields →
      ((cond.matchAnyClause fields = true ↔
        cond.clauses = [] ∨ ∃ c ∈ cond.clauses, c.evaluate fields = true) ↔
      cond.Regular ∨ ∃ c ∈ cond.clauses, c.function = .eq ∧ c.evaluate fields = true)) ∧
    (cond.isTrue = true → ∀ fields, cond.Holds fields) ∧
    (cond.isFalse = true → ∀ fields, ¬ cond.Holds fields) := by
  have hwell := conditionFromJson_wellFormed huuid h
  refine ⟨fun fields hfields => ?_, Condition.holds_of_isTrue, Condition.not_holds_of_isFalse⟩
  have hlookup := fun c hc => Clause.lookup_eq (hexact c hc) (hwell.clauses c hc) hfields
  constructor
  · intro hiff
    by_contra hno
    obtain ⟨hregular, hequal⟩ := not_or.mp hno
    simp only [Condition.Regular, Classical.not_imp, Nat.not_le] at hregular
    obtain ⟨hoptimized, ⟨c, hc, htrue⟩, hcount⟩ := hregular
    have hmatch := hiff.mpr (.inr ⟨c, hc, Clause.evaluate_true htrue⟩)
    rw [Condition.matchAnyClause, if_pos hoptimized, Condition.isTrue_of_two_false hwell hcount,
      Bool.false_or, any_eq_true] at hmatch
    obtain ⟨c', hc', hfound⟩ := hmatch
    have heq : c'.function = .eq := by simp_all [Clause.lookup]
    exact hequal ⟨c', hc', heq, hlookup c' hc' heq ▸ hfound⟩
  · rintro (hregular | ⟨c, hc, heq, heval⟩)
    · rw [← Condition.Holds, ← Condition.emptyOrMatchAny_iff hexact hwell hfields hregular,
        Condition.emptyOrMatchAny, Bool.or_eq_true]
      constructor
      · exact .inr
      · rintro (hempty | hmatch)
        · -- Without clauses the condition is optimized and true.
          have hclauses : cond.clauses = [] := List.isEmpty_iff.mp hempty
          rw [Condition.matchAnyClause, hwell.optimized, Condition.isTrue, hclauses]
          rfl
        · exact hmatch
    · refine iff_of_true ?_ (.inr ⟨c, hc, heval⟩)
      rw [Condition.matchAnyClause]
      split
      · rw [Bool.or_eq_true, any_eq_true]
        exact .inr ⟨c, hc, (hlookup c hc heq).trans heval⟩
      · exact any_eq_true.mpr ⟨c, hc, heval⟩

def numberColumn : Column :=
  { name := "n", mutable := true, persistent := true, type := { key := { type := .integer } } }

def numberTable : TableSchema :=
  { name := "Number", isRoot := true, columns := [uuidColumn, numberColumn] }

def isSeven : Clause := ⟨.eq, 1, numberColumn, [⟨.integer 7, none⟩]⟩

def twoFalse : Condition :=
  { clauses := [booleanClause false, booleanClause false, booleanClause true, isSeven] }

def sevenRow (i : Nat) : Datum := if i = 0 then [⟨.uuid 5, none⟩] else [⟨.integer 7, none⟩]

/-- Two constants `false` before a `true`, and an equality that holds for the row. -/
theorem parsedCondition_disjunction_seven :
    conditionFromJson noDoubles numberTable [.array [.string "n", .string "==", .integer 7],
        .bool true, .bool false, .bool false] = .ok twoFalse ∧
      twoFalse.matchAnyClause sevenRow = true := by
  have hparsed : conditionFromJson noDoubles numberTable [.array [.string "n", .string "==",
      .integer 7], .bool true, .bool false, .bool false] = .ok twoFalse := by rfl
  have hexact : ∀ c ∈ twoFalse.clauses, c.column.type.Exact := by
    intro c hc
    simp only [twoFalse, mem_cons, not_mem_nil, or_false] at hc
    rcases hc with rfl | rfl | rfl | rfl <;> constructor <;> decide
  have hfields : FieldsTyped numberTable.columns sevenRow := by
    intro i column hcolumn
    rcases i with _ | _ | i
    · cases hcolumn
      constructor <;> simp [sevenRow, uuidColumn, Atom.type, OvsdbType.isMap]
    · cases hcolumn
      constructor <;> simp [sevenRow, numberColumn, Atom.type, OvsdbType.isMap]
    · cases hcolumn
  have hmatch := (parsedCondition_disjunction noDoubles numberTable _ twoFalse rfl hparsed hexact).1
    sevenRow hfields
  exact ⟨hparsed, (hmatch.mpr (.inr ⟨isSeven, by simp [twoFalse], rfl, rfl⟩)).mpr
    (.inr ⟨booleanClause true, by simp [twoFalse], rfl⟩)⟩

/-- Behind two `false` the code does not find `true`. -/
theorem true_behind_two_false :
    ∃ cond, conditionFromJson noDoubles numberTable [.bool false, .bool false, .bool true] =
        .ok cond ∧
      ∀ fields, cond.matchAnyClause fields = false ∧ ∃ c ∈ cond.clauses, c.evaluate fields = true :=
  ⟨_, rfl, fun _ => ⟨rfl, booleanClause true, by decide, rfl⟩⟩

/-! ## 4. Equal conditions -/

section

variable (hok : ColumnsOk columns)
include hok

theorem index_eq_of_name {i j : Nat} {a b : Column} (ha : columns[i]? = some a)
    (hb : columns[j]? = some b) (h : a.name = b.name) : i = j := by
  have hi : i < (columns.map Column.name).length := by
    rw [length_map]
    exact (List.getElem?_eq_some_iff.mp ha).1
  apply (getElem?_inj hi hok.names).mp
  rw [getElem?_map, getElem?_map, ha, hb, Option.map_some, Option.map_some, h]

theorem Clause.eq_of_compareWithData (ha : a.WellFormed columns) (hb : b.WellFormed columns)
    (h : a.compareWithData b = .eq) : a = b := by
  have hfunction : a.function = b.function := by
    by_contra hne
    rw [compareWithData_of_ne hne, compare_eq_iff_eq] at h
    exact hne (OvsdbFunction.toNat_inj h)
  rw [Clause.compareWithData, Ordering.then_eq_eq] at h
  obtain ⟨hcompare, harg⟩ := h
  have hindex : a.index = b.index := by
    by_contra hne
    rw [Clause.compare3way, if_neg (not_not.mpr hfunction), if_pos hne] at hcompare
    split at hcompare
    · exact hne (compare_eq_iff_eq.mp hcompare)
    · apply hne
      apply index_eq_of_name hok ha.column hb.column
      exact String.toList_inj.mp (Std.LawfulEqCmp.eq_of_compare hcompare)
  have hcolumn : a.column = b.column := by
    have := ha.column
    rw [hindex, hb.column] at this
    exact (Option.some.inj this).symm
  have hdatum : a.arg = b.arg := by
    apply Datum.eq_of_equals (hok.exact a.column (mem_of_getElem? ha.column)) ha.arg
    · exact hcolumn ▸ hb.arg
    · rw [Datum.equals, harg]
      rfl
  cases a
  cases b
  simp_all

theorem clauses_eq_of_compare {as bs : List Clause} (ha : ∀ c ∈ as, c.WellFormed columns)
    (hb : ∀ c ∈ bs, c.WellFormed columns) (hlength : as.length = bs.length)
    (h : (as.zip bs).foldr (fun p rest => (p.1.compareWithData p.2).then rest) .eq = .eq) :
    as = bs := by
  induction as generalizing bs with
  | nil => exact (length_eq_zero_iff.mp hlength.symm).symm
  | cons x as ih =>
    cases bs with
    | nil => cases hlength
    | cons y bs =>
      rw [zip_cons_cons, foldr_cons, Ordering.then_eq_eq] at h
      have hxy := Clause.eq_of_compareWithData hok (ha x mem_cons_self) (hb y mem_cons_self) h.1
      have hrest := ih (fun c hc => ha c (mem_cons_of_mem x hc))
        (fun c hc => hb c (mem_cons_of_mem y hc)) (Nat.succ.inj hlength) h.2
      rw [hxy, hrest]

theorem Condition.eq_of_cmp3way {a b : Condition} (ha : a.WellFormed columns)
    (hb : b.WellFormed columns) (h : a.cmp3way b = .eq) : a = b := by
  have hclauses : a.clauses = b.clauses := by
    rw [Condition.cmp3way] at h
    split at h
    next hne => exact absurd (compare_eq_iff_eq.mp h) hne
    next hlength => exact clauses_eq_of_compare hok ha.clauses hb.clauses (not_not.mp hlength) h
  have hoptimized : a.optimized = b.optimized := by rw [ha.optimized, hb.optimized, hclauses]
  cases a
  cases b
  simp_all

end

end

end Ovsgw.Ovsdb
