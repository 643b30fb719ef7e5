/-
  **Updates take a client from one view to the next.**

  If a client has the view of a row at the start of a change set, then the update that is composed
  for the row gives it the view of the row now; if there is no update, the two views are the same.
-/
import Ovsgw.Ovsdb.Replica

namespace Ovsgw.Ovsdb

open List
open MonitorColumn (monitored)
open Option (bind_some map_eq_some_iff elim_some bind_eq_some_iff)

/-! ## 1. Rows and monitored tables -/

/-- A row whose data are well-formed, with fewer elements than differences can count. -/
structure RowOk (d : Doubles) (columns : List Column) (row : Row) : Prop where
  wellFormed : ∀ i column, columns[i]? = some column → (row.datum i).WellFormed d column.type
  small : ∀ i, (row.datum i).length < 2 ^ 31

/-- A monitored table: each column is one of the table and stands there once, and those
    that are monitored come first, with all kinds of updates selected. -/
structure MonitorTable.WellFormed (columns : List Column) (mt : MonitorTable) : Prop where
  column : ∀ c ∈ mt.columns, columns[c.index]? = some c.column
  distinct : (mt.columns.map MonitorColumn.index).Nodup
  monitoredFirst : mt.columns.take mt.nMonitoredColumns = mt.columns.filter monitored
  select : mt.select = ⟨true, true, true, true⟩
  columnSelect : ∀ c ∈ mt.columns, c.monitored = true → c.select = ⟨true, true, true, true⟩

variable {conds : String → Condition} {uuid : Uuid}

section
variable {d : Doubles} {ts : TableSchema} {columns : List Column}

theorem RowOk.typed {row : Row} (h : RowOk d columns row) : FieldsTyped columns row.datum :=
  fun i column hcolumn => (h.wellFormed i column hcolumn).typed

/-! ## 2. Changing columns of the client -/

variable {column : Column} {index : Nat}

theorem getColumn_of_getElem? (hok : ColumnsOk ts.columns) (h : ts.columns[index]? = some column) :
    ts.getColumn column.name = some (index, column) := by
  obtain ⟨hlt, hget⟩ := List.getElem?_eq_some_iff.mp h
  have hfound : (ts.columns.findIdx? fun c => c.name == column.name) = some index := by
    rw [findIdx?_eq_some_iff_getElem]
    refine ⟨hlt, by simp [hget], ?_⟩
    intro j hj hname
    have hj' : ts.columns[j]? = some ts.columns[j] := getElem?_eq_getElem (hj.trans hlt)
    exact absurd (index_eq_of_name hok hj' h (eq_of_beq hname)) (by omega)
  rw [TableSchema.getColumn, hfound, bind_some, h]
  rfl

variable {datum : Datum} {member : String × Json}

theorem changeColumn_eq (hok : ColumnsOk ts.columns) {applyDiff : Bool} {row : ClientRow}
    (hcolumn : ts.getColumn member.1 = some (index, column))
    (hvalue : columnValue d applyDiff column.type (row index) member.2 = .ok datum)
    (hrow : Datum.Typed column.type (row index)) (hdatum : Datum.Typed column.type datum) :
    changeColumn d ts applyDiff row member = Function.update row index datum := by
  simp only [changeColumn, hcolumn, hvalue]
  split
  next hequals =>
    have hexact := hok.exact column (mem_of_getElem? (getColumn_eq hcolumn))
    rw [← Datum.eq_of_equals hexact hrow hdatum hequals, Function.update_eq_self]
  next => rfl

/-! ## 3. The columns of an update -/

variable {mt : MonitorTable} {type : UpdateType} {f : Nat → MonitorColumn → Option Datum}
  {c : MonitorColumn} {i n : Nat}

theorem MonitorTable.WellFormed.monitored_lt (hmt : mt.WellFormed columns)
    (hn : mt.nMonitoredColumns ≤ n) (hc : mt.columns[i]? = some c)
    (hmonitored : c.monitored = true) : i < n := by
  by_contra hge
  have hcount : mt.columns.countP monitored =
      (mt.columns.take mt.nMonitoredColumns).countP monitored +
      (mt.columns.drop mt.nMonitoredColumns).countP monitored := by
    rw [← countP_append, take_append_drop]
  have htake : (mt.columns.take mt.nMonitoredColumns).countP monitored =
      mt.nMonitoredColumns := by
    rw [hmt.monitoredFirst, countP_filter]
    simp [nMonitoredColumns]
  have hdrop : 0 < (mt.columns.drop mt.nMonitoredColumns).countP monitored := by
    rw [countP_pos_iff]
    refine ⟨c, ?_, hmonitored⟩
    apply mem_of_getElem? (i := i - mt.nMonitoredColumns)
    rw [getElem?_drop, ← hc]
    congr 1
    omega
  rw [htake] at hcount
  unfold nMonitoredColumns at hcount hdrop
  omega

theorem mem_composeColumns (h : member ∈ composeColumns mt type f) :
    ∃ i c datum, mt.columns[i]? = some c ∧ c.monitored = true ∧ f i c = some datum ∧
      member = (c.column.name, datum.toJson c.column.type) := by
  obtain ⟨⟨c, i⟩, hmem, hmember⟩ := mem_filterMap.mp h
  rw [mem_zipIdx_iff_getElem?, getElem?_take] at hmem
  split at hmem
  · dsimp only at hmember
    split at hmember
    · cases hmember
    next hselected =>
      obtain ⟨datum, hdatum, rfl⟩ := map_eq_some_iff.mp hmember
      simp only [Bool.or_eq_true, Bool.not_eq_true', not_or, Bool.not_eq_false] at hselected
      exact ⟨i, c, datum, hmem, hselected.1, hdatum, rfl⟩
  · cases hmem

theorem composeColumns_mem (hmt : mt.WellFormed ts.columns) (type : UpdateType)
    (htype : type ≠ .none) (hc : mt.columns[i]? = some c)
    (hmonitored : c.monitored = true) (hf : f i c = some datum) :
    (c.column.name, datum.toJson c.column.type) ∈ composeColumns mt type f := by
  have hselect : c.select.has type = true := by
    rw [hmt.columnSelect c (mem_of_getElem? hc) hmonitored]
    cases type <;> first | rfl | exact absurd rfl htype
  apply mem_filterMap.mpr
  refine ⟨(c, i), ?_, ?_⟩
  · rw [mem_zipIdx_iff_getElem?, getElem?_take, if_pos (hmt.monitored_lt le_rfl hc hmonitored), hc]
  · simp only [hmonitored, hselect, Bool.not_true, Bool.or_self, Bool.false_eq_true, if_false, hf,
      Option.map_some]

/-! ## 4. New and modified rows -/

/-- The data of a row in the first `n` columns. -/
def Shows (mt : MonitorTable) (n : Nat) (data : RowData) (row : Row) : Prop :=
  ∀ i c, i < n → mt.columns[i]? = some c → data.datum i = row.datum c.index

variable {data old new : RowData} {row oldRow newRow : Row}

theorem monitors_iff : mt.monitors index = true ↔ ∃ (i : Nat) (c : MonitorColumn),
        mt.columns[i]? = some c ∧ c.monitored = true ∧ c.index = index := by
  rw [MonitorTable.monitors, any_eq_true]
  constructor
  · rintro ⟨c, hc, hmonitored⟩
    rw [Bool.and_eq_true, beq_iff_eq] at hmonitored
    obtain ⟨i, hi⟩ := getElem?_of_mem hc
    exact ⟨i, c, hi, hmonitored⟩
  · rintro ⟨i, c, hc, hmonitored⟩
    rw [← beq_iff_eq (b := index)] at hmonitored
    exact ⟨c, mem_of_getElem? hc, Bool.and_eq_true_iff.mpr hmonitored⟩

theorem clientRow_monitored (hc : mt.columns[i]? = some c) (hmonitored : c.monitored = true) :
    clientRow columns mt row c.index = row.datum c.index :=
  if_pos (monitors_iff.mpr ⟨i, c, hc, hmonitored, rfl⟩)

theorem clientRow_congr (h : ∀ (i : Nat) c, mt.columns[i]? = some c → c.monitored = true →
      oldRow.datum c.index = newRow.datum c.index) :
    clientRow columns mt oldRow = clientRow columns mt newRow := by
  funext index
  rw [clientRow, clientRow]
  split
  next hmonitors =>
    obtain ⟨i, c, hc, hmonitored, rfl⟩ := monitors_iff.mp hmonitors
    exact h i c hc hmonitored
  next => rfl

theorem AtomicType.default_type {type : AtomicType} (h : type ≠ .void) :
    type.default.type = type := by
  cases type <;> first | rfl | exact absurd rfl h

theorem default_typed {type : OvsdbType} (h : datum.WellFormed d type) :
    Datum.Typed type type.default := by
  rw [OvsdbType.default]
  cases hmin : type.nMin with
  | zero => exact Datum.Typed.nil
  | succ m =>
    obtain ⟨e, he⟩ : ∃ e, e ∈ datum := by
      have hlow := h.low
      exact exists_mem_of_length_pos (by omega)
    have hkey : type.key.type ≠ .void := by
      rw [← (h.keys e he).type]
      cases e.key <;> simp [Atom.type]
    apply Datum.typed_of_forall
    intro e he
    rw [eq_of_mem_replicate he]
    constructor
    · simp only [mem_singleton, forall_eq]
      exact AtomicType.default_type hkey
    · intro hmap
      have hvalue : type.value.type ≠ .void := by simpa [OvsdbType.isMap] using hmap
      simp only [mem_singleton, forall_eq, hmap, if_true]
      exact ⟨_, rfl, AtomicType.default_type hvalue⟩
    · intro hmap
      simp [hmap]

theorem mem_changedColumns (hc : mt.columns[i]? = some c) : i ∈ mt.changedColumns old new n ↔
      i < n ∧ (old.datum i).equals (new.datum i) c.column.type = false := by
  simp [MonitorTable.changedColumns, hc]

section

variable (hok : ColumnsOk ts.columns) (hmt : mt.WellFormed ts.columns)
include hok hmt

theorem MonitorTable.WellFormed.names : (mt.columns.map fun c => c.column.name).Nodup := by
  have hdistinct := hmt.distinct
  rw [List.Nodup, pairwise_map] at hdistinct ⊢
  apply hdistinct.imp_of_mem
  intro a b ha hb hne hname
  exact hne (index_eq_of_name hok (hmt.column a ha) (hmt.column b hb) hname)

theorem composeColumns_names : ((composeColumns mt type f).map Prod.fst).Nodup := by
  refine Lists.nodup_map_filterMap (h := fun p => p.1.column.name) ?_ ?_
  · rintro ⟨c, i⟩ member hmember
    dsimp only at hmember
    split at hmember
    · cases hmember
    · obtain ⟨datum, -, rfl⟩ := map_eq_some_iff.mp hmember
      rfl
  · have hnames := congrArg (List.map fun c : MonitorColumn => c.column.name)
      (zipIdx_map_fst 0 (mt.columns.take mt.nMonitoredColumns))
    rw [map_map] at hnames
    refine (congrArg List.Nodup hnames).mpr ?_
    exact ((take_sublist _ _).map _).nodup (hmt.names hok)

/-- If each monitored column gets its value in a row, or has it and is left out, then the
    client gets the row. -/
theorem rowChange_composeColumns {applyDiff : Bool} {client : ClientRow} (htype : type ≠ .none)
    (hrest : ∀ index, mt.monitors index = false → client index = defaultRow ts.columns index)
    (hrow : RowOk d ts.columns row)
    (hvalue : ∀ i c, mt.columns[i]? = some c → c.monitored = true →
      Datum.Typed c.column.type (client c.index) ∧
      (f i c).elim (client c.index = row.datum c.index) fun datum =>
        columnValue d applyDiff c.column.type (client c.index) (datum.toJson c.column.type) =
          .ok (row.datum c.index)) :
    rowChange d ts applyDiff client (composeColumns mt type f) = clientRow ts.columns mt row := by
  have hcolumn : ∀ (i : Nat) c, mt.columns[i]? = some c →
      ts.getColumn c.column.name = some (c.index, c.column) := fun i c hc =>
    getColumn_of_getElem? hok (hmt.column c (mem_of_getElem? hc))
  rw [rowChange, foldl_eq_foldlM]
  show _ = (pure (clientRow ts.columns mt row) : Id ClientRow)
  refine Lists.foldlM_update (k := fun member => (ts.getColumn member.1).elim 0 Prod.fst) ?_ ?_ ?_
  · have hnames : ((composeColumns mt type f).map Prod.fst).Nodup := composeColumns_names hok hmt
    rw [List.Nodup, pairwise_map] at hnames ⊢
    apply hnames.imp_of_mem
    intro x y hx hy hne heq
    obtain ⟨i, c, _, hc, _, _, rfl⟩ := mem_composeColumns hx
    obtain ⟨i', c', _, hc', _, _, rfl⟩ := mem_composeColumns hy
    simp only [hcolumn i c hc, hcolumn i' c' hc', elim_some] at heq
    have hsame := hmt.column c (mem_of_getElem? hc)
    rw [heq, hmt.column c' (mem_of_getElem? hc')] at hsame
    exact hne (congrArg Column.name (Option.some.inj hsame).symm)
  · intro member hmember client' hclient'
    obtain ⟨i, c, datum, hc, hmonitored, hf, rfl⟩ := mem_composeColumns hmember
    simp only [hcolumn i c hc, elim_some] at hclient' ⊢
    obtain ⟨htyped, hdatum⟩ := hvalue i c hc hmonitored
    rw [hf, elim_some, ← hclient'] at hdatum
    rw [clientRow_monitored hc hmonitored]
    exact changeColumn_eq hok (hcolumn i c hc) hdatum (hclient' ▸ htyped)
      (hrow.typed c.index c.column (hmt.column c (mem_of_getElem? hc)))
  · intro index huntouched
    rw [clientRow]
    split
    next hmonitors =>
      obtain ⟨i, c, hc, hmonitored, rfl⟩ := monitors_iff.mp hmonitors
      obtain ⟨-, hsame⟩ := hvalue i c hc hmonitored
      cases hf : f i c with
      | none => rwa [hf] at hsame
      | some datum =>
        have hmem := composeColumns_mem hmt type htype hc hmonitored hf
        exact absurd (mem_map.mpr ⟨_, hmem, by rw [hcolumn i c hc]; rfl⟩) huntouched
    next hmonitors => exact hrest index (Bool.eq_false_iff.mpr hmonitors)

theorem rowChange_inserted (hn : mt.nMonitoredColumns ≤ n) (hdata : Shows mt n data row)
    (hrow : RowOk d ts.columns row) (type : UpdateType) (htype : type ≠ .none) :
    rowChange d ts false (defaultRow ts.columns) (insertedColumns mt type data) =
      clientRow ts.columns mt row := by
  refine rowChange_composeColumns hok hmt htype (fun _ _ => rfl) hrow fun i c hc hmonitored => ?_
  have hcolumn := hmt.column c (mem_of_getElem? hc)
  have hwell := hrow.wellFormed c.index c.column hcolumn
  have hdefault : defaultRow ts.columns c.index = c.column.type.default := by
    rw [defaultRow, hcolumn]
    rfl
  rw [hdefault, hdata i c (hmt.monitored_lt hn hc hmonitored) hc]
  refine ⟨default_typed hwell, ?_⟩
  split
  next h => exact (Datum.eq_default_of_isDefault hwell h).symm
  next => exact datumFromJson_toJson hwell

variable (hold : Shows mt n old oldRow) (hnew : Shows mt n new newRow)
  (holdRow : RowOk d ts.columns oldRow) (hnewRow : RowOk d ts.columns newRow)
include hold hnew holdRow hnewRow

theorem datum_eq_of_not_changed (hi : i < n) (hc : mt.columns[i]? = some c)
    (hunchanged : i ∉ mt.changedColumns old new n) :
    oldRow.datum c.index = newRow.datum c.index := by
  have hcolumn := hmt.column c (mem_of_getElem? hc)
  rw [mem_changedColumns hc, not_and, Bool.not_eq_false, hold i c hi hc, hnew i c hi hc]
    at hunchanged
  exact Datum.eq_of_equals (hok.exact c.column (mem_of_getElem? hcolumn))
    (holdRow.typed c.index c.column hcolumn) (hnewRow.typed c.index c.column hcolumn)
    (hunchanged hi)

variable (hn : mt.nMonitoredColumns ≤ n)
include hn

/-- The columns that are sent take the old row to the new one. -/
theorem rowChange_modified : rowChange d ts true (clientRow ts.columns mt oldRow)
      (modifiedColumns mt old new (mt.changedColumns old new n)) =
      clientRow ts.columns mt newRow := by
  refine rowChange_composeColumns hok hmt (by simp) (fun index h => by simp [clientRow, h]) hnewRow
    fun i c hc hmonitored => ?_
  have hcolumn := hmt.column c (mem_of_getElem? hc)
  have hexact := hok.exact c.column (mem_of_getElem? hcolumn)
  have holdWell := holdRow.wellFormed c.index c.column hcolumn
  have hnewWell := hnewRow.wellFormed c.index c.column hcolumn
  have hi := hmt.monitored_lt hn hc hmonitored
  rw [clientRow_monitored hc hmonitored]
  refine ⟨holdWell.typed, ?_⟩
  split
  next =>
    have hsize : (oldRow.datum c.index).length + (newRow.datum c.index).length ≤ uintMax := by
      have holdSmall := holdRow.small c.index
      have hnewSmall := hnewRow.small c.index
      unfold uintMax
      omega
    rw [elim_some, hold i c hi hc, hnew i c hi hc, columnValue, if_pos rfl,
      transientDatumFromJson, ← Datum.toJson_relaxed,
      datumFromJson_toJson (Datum.diff_wellFormed hexact holdWell hnewWell hsize)]
    exact Datum.applyDiff_diff hexact holdWell hnewWell
  next hsame => exact datum_eq_of_not_changed hok hmt hold hnew holdRow hnewRow hi hc hsame

theorem clientRow_eq_of_not_changed (h : mt.changedColumns old new n = []) :
    clientRow ts.columns mt oldRow = clientRow ts.columns mt newRow := by
  refine clientRow_congr fun i c hc hmonitored => ?_
  exact datum_eq_of_not_changed hok hmt hold hnew holdRow hnewRow
    (hmt.monitored_lt hn hc hmonitored) hc (by simp [h])

end

/-! ## 5. The update of a row -/

/-- The conditions of a table; without any, every row satisfies them. -/
def tableCondition (cond : Option SessionCondition) (table : String) : TableCondition :=
  (cond.bind fun cond => cond.find table).getD { table }

variable {cond : Condition} {initial : Bool}

section

variable {f g : Nat → Datum} (h : ∀ c ∈ cond.clauses, f c.index = g c.index)
include h

theorem Condition.evaluate_congr : ∀ c ∈ cond.clauses, c.evaluate f = c.evaluate g := by
  intro c hc
  rw [Clause.evaluate, Clause.evaluate, h c hc]

theorem Condition.emptyOrMatchAny_congr : cond.emptyOrMatchAny f = cond.emptyOrMatchAny g := by
  have hlookup : ∀ c ∈ cond.clauses, c.lookup f = c.lookup g := by
    intro c hc
    rw [Clause.lookup, Clause.lookup, h c hc]
  rw [Condition.emptyOrMatchAny, Condition.matchAnyClause, Lists.any_congr_mem hlookup,
    Lists.any_congr_mem (evaluate_congr h)]
  rfl

theorem Condition.holds_congr : cond.Holds f ↔ cond.Holds g := by
  rw [Condition.Holds, Condition.Holds]
  apply or_congr_right
  apply exists_congr
  intro c
  apply and_congr_right
  intro hc
  rw [evaluate_congr h c hc]

end

/-- An update, or none, takes the client from one row to another. -/
def UpdateTakes (d : Doubles) (ts : TableSchema) (row : Option ClientRow) (update : Option RowUpdate)
    (row' : Option ClientRow) : Prop :=
  match update with
  | none => row = row'
  | some update => processUpdate2 d ts row update = some row'

theorem rowUpdateTypeCondition_eq {cond : Option SessionCondition}
    {old new : Option RowData} (hsome : old.isSome ∨ new.isSome) (hnew : initial = true → old = none) :
    rowUpdateTypeCondition mt cond initial old new =
      conditionalType (rowUpdateType initial old.isSome new.isSome)
        (old.elim false fun row => (tableCondition cond mt.name).old.emptyOrMatchAny row.field)
        (new.elim false fun row => (tableCondition cond mt.name).new.emptyOrMatchAny row.field) := by
  unfold rowUpdateTypeCondition tableCondition getTableConditions
  cases cond.bind fun cond => cond.find mt.name with
  | none =>
    have hempty : ∀ fields, Condition.emptyOrMatchAny {} fields = true := fun _ => rfl
    rcases old with _ | old <;> rcases new with _ | new <;> cases initial <;>
      simp_all [rowUpdateType, conditionalType]
  | some mtc => rfl

/-- With the data that `f` reads of rows, matching a condition is satisfying it. -/
def Decides (d : Doubles) (columns : List Column) (f : Row → RowData) (cond : Condition) : Prop :=
  ∀ row, RowOk d columns row →
    cond.emptyOrMatchAny (f row).field = decide (cond.Holds row.datum)

/-- Conditions of a table that are well-formed and regular. -/
structure TableCondition.Ok (columns : List Column) (mtc : TableCondition) : Prop where
  old : mtc.old.WellFormed columns
  new : mtc.new.WellFormed columns
  oldRegular : mtc.old.Regular
  newRegular : mtc.new.Regular

theorem Decides.of_fields (hok : ColumnsOk ts.columns) {f : Row → RowData}
    (hcond : cond.WellFormed ts.columns) (hregular : cond.Regular)
    (hfield : ∀ row, ∀ c ∈ cond.clauses, (f row).field c.index = row.datum c.index) :
    Decides d ts.columns f cond := by
  intro row hrow
  rw [Condition.emptyOrMatchAny_congr (hfield row), Bool.eq_iff_iff, decide_eq_true_iff]
  apply Condition.emptyOrMatchAny_iff _ hcond hrow.typed hregular
  intro c hc
  exact hok.exact c.column (mem_of_getElem? (hcond.clauses c hc).column)

theorem Decides.of_isTrue {f : Row → RowData} (h : cond.isTrue = true) :
    Decides d columns f cond := by
  intro row _
  rw [Condition.emptyOrMatchAny_of_isTrue h, decide_eq_true (Condition.holds_of_isTrue h)]

theorem viewRow_of_holds (h : cond.Holds row.datum) :
    viewRow columns mt cond (some row) = some (clientRow columns mt row) :=
  if_pos h

/-- A row is in the view exactly if the condition matches. -/
theorem viewRow_matches {f : Row → RowData} (hcond : Decides d columns f cond) {row : Option Row}
    (hrow : ∀ r, row = some r → RowOk d columns r) :
    (viewRow columns mt cond row = none ∧
      ((row.map f).elim false fun data => cond.emptyOrMatchAny data.field) = false) ∨
    ∃ r, row = some r ∧ viewRow columns mt cond row = some (clientRow columns mt r) ∧
      ((row.map f).elim false fun data => cond.emptyOrMatchAny data.field) = true := by
  cases row with
  | none => exact .inl ⟨rfl, rfl⟩
  | some r =>
    rw [Option.map_some, elim_some, hcond r (hrow r rfl)]
    by_cases hholds : cond.Holds r.datum
    · exact .inr ⟨r, rfl, viewRow_of_holds hholds, decide_eq_true hholds⟩
    · exact .inl ⟨if_neg hholds, decide_eq_false hholds⟩

theorem composeTypedUpdate_eq (hmt : mt.WellFormed ts.columns) :
    composeTypedUpdate mt type old new n =
      match type with
      | .none => none
      | .initial => some (.initial (insertedColumns mt .initial new))
      | .insert => some (.insert (insertedColumns mt .insert new))
      | .delete => some .delete
      | .modify =>
        if mt.changedColumns old new n = [] then none
        else some (.modify (modifiedColumns mt old new (mt.changedColumns old new n))) := by
  rw [composeTypedUpdate, rowSkipUpdate, hmt.select]
  cases type with
  | modify =>
    simp only [Select.has, Bool.not_true, Bool.false_eq_true, if_false, if_true]
    split_ifs <;> rfl
  | _ => rfl

/-- The update of a row takes the client from the view of the old row under the old
    condition to the view of the new row under the new one. -/
theorem composeRowUpdate2_takes (hok : ColumnsOk ts.columns) (hmt : mt.WellFormed ts.columns)
    (hn : mt.nMonitoredColumns ≤ n) {cond : Option SessionCondition}
    {f : Row → RowData} (hf : ∀ row, Shows mt n (f row) row)
    (holdCond : Decides d ts.columns f (tableCondition cond mt.name).old)
    (hnewCond : Decides d ts.columns f (tableCondition cond mt.name).new)
    {old new : Option Row} (hold : ∀ row, old = some row → RowOk d ts.columns row)
    (hnew : ∀ row, new = some row → RowOk d ts.columns row)
    (hsome : old.isSome ∨ new.isSome) (hinitial : initial = true → old = none) :
    UpdateTakes d ts (viewRow ts.columns mt (tableCondition cond mt.name).old old)
      (composeRowUpdate2 mt cond initial (old.map f) (new.map f) n)
      (viewRow ts.columns mt (tableCondition cond mt.name).new new) := by
  rw [composeRowUpdate2, rowUpdateTypeCondition_eq (by simpa using hsome)
    (by simpa using hinitial), composeTypedUpdate_eq hmt]
  generalize tableCondition cond mt.name = mtc at *
  rcases viewRow_matches holdCond hold with ⟨holdView, holdMatch⟩ | ⟨o, rfl, holdView, holdMatch⟩ <;>
    rcases viewRow_matches hnewCond hnew with ⟨hnewView, hnewMatch⟩ | ⟨w, rfl, hnewView, hnewMatch⟩ <;>
    rw [holdView, hnewView, holdMatch, hnewMatch]
  · rfl
  · have hinserted : ∀ type : UpdateType, type ≠ .none → rowChange d ts false
        (defaultRow ts.columns) (insertedColumns mt type (f w)) = clientRow ts.columns mt w :=
      rowChange_inserted hok hmt hn (hf w) (hnew w rfl)
    cases initial <;> cases old <;>
      simp [conditionalType, rowUpdateType, UpdateTakes, processUpdate2, hinserted]
  · obtain rfl : initial = false := Bool.eq_false_iff.mpr fun h => by cases hinitial h
    cases new <;> simp [conditionalType, rowUpdateType, UpdateTakes, processUpdate2]
  · obtain rfl : initial = false := Bool.eq_false_iff.mpr fun h => by cases hinitial h
    have hmodified := rowChange_modified hok hmt (hf o) (hf w) (hold o rfl) (hnew w rfl) hn
    by_cases hchanged : mt.changedColumns (f o) (f w) n = []
    · have hsame := clientRow_eq_of_not_changed hok hmt (hf o) (hf w) (hold o rfl) (hnew w rfl) hn
        hchanged
      simp [conditionalType, rowUpdateType, UpdateTakes, hchanged, hsame]
    · simp [conditionalType, rowUpdateType, UpdateTakes, processUpdate2, hchanged, hmodified]

/-! ## 6. The updates of all rows -/

theorem applyUpdates_of_takes {schema : Schema} {replica target : Replica}
    {us : List (RowKey × RowUpdate)} (hnodup : (us.map Prod.fst).Nodup)
    (htakes : ∀ u ∈ us, ∃ ts, schema.table? u.1.table = some ts ∧
      processUpdate2 d ts (replica u.1) u.2 = some (target u.1))
    (hrest : ∀ k, k ∉ us.map Prod.fst → replica k = target k) :
    us.foldlM (applyRowUpdate d schema) replica = some target := by
  refine Lists.foldlM_update hnodup (fun u hu replica' hreplica' => ?_) hrest
  obtain ⟨ts, hts, hprocess⟩ := htakes u hu
  simp only [applyRowUpdate, hts, hreplica', hprocess, Option.map_some]
  rfl

/-- The columns of a condition are among the first `n` of a monitored table. -/
def MonitorTable.Covers (mt : MonitorTable) (n : Nat) (cond : Condition) : Prop :=
  ∀ c ∈ cond.clauses, ∃ i < n, mt.indexMap c.index = some i

theorem indexMap_eq_some (h : mt.indexMap index = some i) :
    ∃ c, mt.columns[i]? = some c ∧ c.index = index := by
  obtain ⟨hlt, hindex, -⟩ := findIdx?_eq_some_iff_getElem.mp h
  exact ⟨mt.columns[i], getElem?_eq_getElem hlt, eq_of_beq hindex⟩

theorem cloneRow_getD (hi : i < n) (hc : mt.columns[i]? = some c) :
    (mt.cloneRow row n).getD i [] = row.datum c.index := by
  rw [MonitorTable.cloneRow, getD_eq_getElem?_getD, getElem?_map, getElem?_take, if_pos hi, hc]
  rfl

theorem shows_monitorRow (mt : MonitorTable) (n : Nat) (row : Row) :
    Shows mt n (mt.monitorRowData (mt.cloneRow row n)) row := by
  intro i c hi hc
  exact cloneRow_getD hi hc

theorem shows_row (mt : MonitorTable) (n : Nat) (row : Row) : Shows mt n (mt.rowData row) row := by
  intro i c hi hc
  show (mt.columns[i]?).elim [] (fun c => row.datum c.index) = _
  rw [hc]
  rfl

/-- The first `n` columns of a table are enough for a condition. -/
structure MonitorTable.Sees (d : Doubles) (columns : List Column) (mt : MonitorTable) (n : Nat)
    (cond : Condition) : Prop where
  decides : Decides d columns (fun row => mt.monitorRowData (mt.cloneRow row n)) cond
  holds_iff : ∀ old new, mt.cloneRow old n = mt.cloneRow new n →
    (cond.Holds old.datum ↔ cond.Holds new.datum)

theorem MonitorTable.Covers.sees (h : mt.Covers n cond) (hok : ColumnsOk ts.columns)
    (hcond : cond.WellFormed ts.columns) (hregular : cond.Regular) :
    mt.Sees d ts.columns n cond := by
  constructor
  · apply Decides.of_fields hok hcond hregular
    intro row c hc
    obtain ⟨i, hi, hindex⟩ := h c hc
    obtain ⟨mc, hmc, hmcindex⟩ := indexMap_eq_some hindex
    show ((mt.indexMap c.index).elim [] fun i => (mt.cloneRow row n).getD i []) = _
    rw [hindex, elim_some, cloneRow_getD hi hmc, hmcindex]
  · intro old new hclone
    apply Condition.holds_congr
    intro c hc
    obtain ⟨i, hi, hindex⟩ := h c hc
    obtain ⟨mc, hmc, hmcindex⟩ := indexMap_eq_some hindex
    rw [← hmcindex, ← cloneRow_getD hi hmc, hclone, cloneRow_getD hi hmc]

theorem MonitorTable.sees_of_isTrue (h : cond.isTrue = true) : mt.Sees d columns n cond where
  decides := Decides.of_isTrue h
  holds_iff _ _ _ :=
    iff_of_true (Condition.holds_of_isTrue h) (Condition.holds_of_isTrue h)

end

/-! ## 7. Change sets -/

structure TablesOk (schema : Schema) (tables : List MonitorTable) : Prop where
  names : (tables.map MonitorTable.name).Nodup
  table : ∀ mt ∈ tables, ∃ ts, schema.table? mt.name = some ts ∧ ColumnsOk ts.columns ∧
    mt.WellFormed ts.columns

def TableChanges.notes (mcst : TableChanges) (uuid : Uuid) :
    Option (Option (List Datum) × Option (List Datum)) :=
  (mcst.rows.lookup uuid).map fun row => (row.old, row.new)

def rowsOf (rows : RowKey → Option Row) (table : String) (uuid : Uuid) : Option Row :=
  rows ⟨table, uuid⟩

/-- The changes of a table in a change set describe how the rows `start` became `now`, in
    columns that include those that are monitored. -/
structure TableChanges.Tracks (mt : MonitorTable) (mcst : TableChanges)
    (start now : RowKey → Option Row) : Prop where
  monitored : mt.nMonitoredColumns ≤ mcst.nColumns
  columns : mcst.nColumns ≤ mt.columns.length
  describes : NetChange.Describes (fun row => mt.cloneRow row mcst.nColumns) mcst.notes
    (rowsOf start mt.name) (rowsOf now mt.name)

/-- A change set describes how the monitored tables changed. -/
structure ChangeSet.Tracks (tables : List MonitorTable) (mcs : ChangeSet)
    (start now : RowKey → Option Row) : Prop where
  names : mcs.tables.map TableChanges.table = tables.map MonitorTable.name
  changes : ∀ mcst ∈ mcs.tables, ∀ mt ∈ tables, mcst.table = mt.name → mcst.Tracks mt start now

section
variable {d : Doubles} {schema : Schema} {tables : List MonitorTable} {mt : MonitorTable} {n : Nat}

theorem TablesOk.find (hok : TablesOk schema tables) (hmt : mt ∈ tables) :
    tables.find? (fun mt' => mt'.name == mt.name) = some mt :=
  Lists.find?_beq_of_mem hok.names hmt

/-- Rows that agree in the columns of a table look the same. -/
theorem viewRow_eq_of_cloneRow {columns : List Column} {cond : Condition}
    (hmt : mt.WellFormed columns) (hn : mt.nMonitoredColumns ≤ n)
    (hholds : ∀ old new, mt.cloneRow old n = mt.cloneRow new n →
      (cond.Holds old.datum ↔ cond.Holds new.datum))
    {old new : Option Row} (h : old.map (mt.cloneRow · n) = new.map (mt.cloneRow · n)) :
    viewRow columns mt cond old = viewRow columns mt cond new := by
  cases old with
  | none =>
    cases new with
    | none => rfl
    | some w => cases h
  | some o =>
    cases new with
    | none => cases h
    | some w =>
      have hclone : mt.cloneRow o n = mt.cloneRow w n := Option.some.inj h
      have hrow : clientRow columns mt o = clientRow columns mt w := by
        refine clientRow_congr fun i c hc hmonitored => ?_
        have hi := hmt.monitored_lt hn hc hmonitored
        rw [← cloneRow_getD hi hc, hclone, cloneRow_getD hi hc]
      simp only [viewRow, bind_some, hholds o w hclone, hrow]

variable {updates : List TableUpdates}

theorem rowUpdates_nodup (htables : (updates.map TableUpdates.table).Nodup)
    (hrows : ∀ table ∈ updates, (table.rows.map Prod.fst).Nodup) :
    ((rowUpdates updates).map Prod.fst).Nodup := by
  rw [rowUpdates, map_flatMap, nodup_flatMap]
  constructor
  · intro table htable
    have hkeys := (hrows table htable).map (f := fun uuid => RowKey.mk table.table uuid)
      (fun a b hab => congrArg RowKey.uuid hab)
    rw [map_map] at hkeys ⊢
    exact hkeys
  · rw [List.Nodup, pairwise_map] at htables
    apply htables.imp
    intro a b hne k hka hkb
    simp only [map_map, mem_map, Function.comp] at hka hkb
    obtain ⟨x, -, rfl⟩ := hka
    obtain ⟨y, -, hy⟩ := hkb
    exact hne (congrArg RowKey.table hy).symm

variable {k : RowKey} {update : RowUpdate}

theorem mem_rowUpdates : (k, update) ∈ rowUpdates updates ↔
      ∃ table ∈ updates, table.table = k.table ∧ (k.uuid, update) ∈ table.rows := by
  simp only [rowUpdates, mem_flatMap, mem_map, Prod.mk.injEq, Prod.exists]
  constructor
  · rintro ⟨table, htable, uuid, update', hmem, rfl, rfl⟩
    exact ⟨table, htable, rfl, hmem⟩
  · rintro ⟨table, htable, hname, hmem⟩
    exact ⟨table, htable, k.uuid, update, hmem, by cases k; simp_all, rfl⟩

variable {dbmon : Dbmon} {version : MonitorVersion} {cond : Option SessionCondition} {initial : Bool}
  {mcs : ChangeSet} {mcst : TableChanges} {name : String}

theorem mem_composeTable : (uuid, update) ∈ Dbmon.composeTable version mt cond initial mcst ↔
      ∃ row, mcst.rows.lookup uuid = some row ∧
        Dbmon.rowUpdate version mt cond initial mcst.nColumns row = some update := by
  simp only [Dbmon.composeTable, mem_filterMap, map_eq_some_iff, Prod.mk.injEq]
  constructor
  · rintro ⟨entry, hentry, u, hu, rfl, rfl⟩
    exact ⟨entry.2, AList.mem_lookup_iff.mpr hentry, hu⟩
  · rintro ⟨row, hrow, hu⟩
    exact ⟨⟨uuid, row⟩, AList.mem_lookup_iff.mp hrow, update, hu, rfl, rfl⟩

theorem composeTable_nodup :
    ((Dbmon.composeTable version mt cond initial mcst).map Prod.fst).Nodup := by
  refine Lists.nodup_map_filterMap (fun entry member hmember => ?_) mcst.rows.nodupKeys
  obtain ⟨update, -, rfl⟩ := map_eq_some_iff.mp hmember
  rfl

theorem table?_name (h : dbmon.table? name = some mt) : mt.name = name := by
  have hname := find?_some h
  exact eq_of_beq hname

variable {rows : List (Uuid × RowUpdate)} {table : String}

theorem tableUpdates_eq_some {t : TableUpdates}
    (h : Dbmon.tableUpdates table rows = some t) : t = ⟨table, rows⟩ := by
  rw [Dbmon.tableUpdates] at h
  split at h
  · cases h
  · exact (Option.some.inj h).symm

theorem tableUpdates_of_mem {row : Uuid × RowUpdate} (h : row ∈ rows) :
    Dbmon.tableUpdates table rows = some ⟨table, rows⟩ := by
  rw [Dbmon.tableUpdates, if_neg]
  rw [List.isEmpty_iff]
  rintro rfl
  cases h

theorem mem_composeUpdate :
    (k, update) ∈ rowUpdates (dbmon.composeUpdate version initial mcs cond) ↔
      ∃ mcst ∈ mcs.tables, ∃ mt row, dbmon.table? mcst.table = some mt ∧ mt.name = k.table ∧
        mcst.rows.lookup k.uuid = some row ∧
        Dbmon.rowUpdate version mt cond initial mcst.nColumns row = some update := by
  rw [mem_rowUpdates]
  simp only [Dbmon.composeUpdate, mem_filterMap, bind_eq_some_iff]
  constructor
  · rintro ⟨table, ⟨mcst, hmcst, mt, hmt, htable⟩, hname, hmem⟩
    obtain rfl := tableUpdates_eq_some htable
    obtain ⟨row, hrow, hupdate⟩ := mem_composeTable.mp hmem
    exact ⟨mcst, hmcst, mt, row, hmt, hname, hrow, hupdate⟩
  · rintro ⟨mcst, hmcst, mt, row, hmt, hname, hrow, hupdate⟩
    have hmem := mem_composeTable.mpr ⟨row, hrow, hupdate⟩
    exact ⟨_, ⟨mcst, hmcst, mt, hmt, tableUpdates_of_mem hmem⟩, hname, hmem⟩

theorem composeUpdate_nodup (hnames : (mcs.tables.map TableChanges.table).Nodup) :
    ((rowUpdates (dbmon.composeUpdate version initial mcs cond)).map Prod.fst).Nodup := by
  apply rowUpdates_nodup
  · refine Lists.nodup_map_filterMap (fun mcst table htable => ?_) hnames
    obtain ⟨mt, hmt, htable⟩ := bind_eq_some_iff.mp htable
    rw [tableUpdates_eq_some htable]
    exact table?_name hmt
  · intro table htable
    obtain ⟨mcst, -, htable⟩ := mem_filterMap.mp htable
    obtain ⟨mt, -, htable⟩ := bind_eq_some_iff.mp htable
    rw [tableUpdates_eq_some htable]
    exact composeTable_nodup

variable {now start : RowKey → Option Row} {ts : TableSchema}

theorem ChangeSet.Tracks.exists_changes (h : mcs.Tracks tables start now) (hmt : mt ∈ tables) :
    ∃ mcst ∈ mcs.tables, mcst.table = mt.name := by
  have hmem : mt.name ∈ mcs.tables.map TableChanges.table := h.names ▸ mem_map_of_mem hmt
  exact mem_map.mp hmem

def RowsOk (d : Doubles) (schema : Schema) (rows : RowKey → Option Row) : Prop :=
  ∀ k row, rows k = some row → RowOk d (schema.columns k.table) row

/-- The conditions of a session do not change, and the columns of a change set are enough
    for them. -/
structure CondOk (d : Doubles) (schema : Schema) (tables : List MonitorTable) (mcs : ChangeSet)
    (cond : Option SessionCondition) : Prop where
  settled : ∀ mt ∈ tables, (tableCondition cond mt.name).old = (tableCondition cond mt.name).new
  sees : ∀ mcst ∈ mcs.tables, ∀ mt ∈ tables, mcst.table = mt.name →
    mt.Sees d (schema.columns mt.name) mcst.nColumns (tableCondition cond mt.name).new

theorem TablesOk.view_eq (htables : TablesOk schema tables) (hmt : mt ∈ tables)
    {rows : RowKey → Option Row} : view schema tables conds rows ⟨mt.name, uuid⟩ =
      viewRow (schema.columns mt.name) mt (conds mt.name) (rows ⟨mt.name, uuid⟩) := by
  rw [view, htables.find hmt]
  rfl

theorem view_eq_none (h : tables.find? (fun mt => mt.name == k.table) = none)
    {rows : RowKey → Option Row} : view schema tables conds rows k = none := by
  rw [view, h]
  rfl

theorem columns_eq (h : schema.table? name = some ts) : schema.columns name = ts.columns := by
  rw [Schema.columns, h]
  rfl

theorem rowUpdate_eq (hversion : version ≠ .v1) {row : MonitorRow} :
    Dbmon.rowUpdate version mt cond initial n row =
      composeRowUpdate2 mt cond initial (row.old.map mt.monitorRowData)
        (row.new.map mt.monitorRowData) n := by
  cases version with
  | v1 => exact absurd rfl hversion
  | v2 => rfl
  | v3 => rfl

/-- What a change set has for a row takes the client from the row at its start to the row now. -/
theorem rowUpdate_takes (hok : ColumnsOk ts.columns)
    (hmt : mt.WellFormed ts.columns) (hmcst : mcst.Tracks mt start now)
    (hsettled : (tableCondition cond mt.name).old = (tableCondition cond mt.name).new)
    (hsees : mt.Sees d ts.columns mcst.nColumns (tableCondition cond mt.name).new)
    (hstart : ∀ row, start ⟨mt.name, uuid⟩ = some row → RowOk d ts.columns row)
    (hnow : ∀ row, now ⟨mt.name, uuid⟩ = some row → RowOk d ts.columns row)
    (hversion : version ≠ .v1) (hinitial : initial = true → start ⟨mt.name, uuid⟩ = none) :
    UpdateTakes d ts
      (viewRow ts.columns mt (tableCondition cond mt.name).new (start ⟨mt.name, uuid⟩))
      ((mcst.rows.lookup uuid).bind (Dbmon.rowUpdate version mt cond initial mcst.nColumns))
      (viewRow ts.columns mt (tableCondition cond mt.name).new (now ⟨mt.name, uuid⟩)) := by
  have hnote := hmcst.describes uuid
  rw [TableChanges.notes] at hnote
  cases hrow : mcst.rows.lookup uuid with
  | none =>
    rw [hrow] at hnote
    exact viewRow_eq_of_cloneRow hmt hmcst.monitored hsees.holds_iff hnote
  | some row =>
    rw [hrow] at hnote
    obtain ⟨hold, hnew, hsome⟩ := hnote
    have htakes := composeRowUpdate2_takes hok hmt hmcst.monitored
      (shows_monitorRow mt mcst.nColumns) (hsettled ▸ hsees.decides) hsees.decides hstart hnow
      (by simpa [← hold, ← hnew, rowsOf] using hsome) hinitial
    rw [hsettled] at htakes
    rw [bind_some, rowUpdate_eq hversion, ← hold, ← hnew, Option.map_map, Option.map_map]
    exact htakes

/-- What a session is sent takes the client from the view of the rows at the start of the
    change set to the view of the rows now. -/
theorem composeUpdate_takes (htables : TablesOk schema dbmon.tables)
    (hmcs : mcs.Tracks dbmon.tables start now)
    (hcond : CondOk d schema dbmon.tables mcs cond) (hstart : RowsOk d schema start)
    (hnow : RowsOk d schema now) (hversion : version ≠ .v1)
    (hinitial : initial = true → ∀ k, start k = none) : applyUpdates d schema
      (view schema dbmon.tables (fun table => (tableCondition cond table).new) start)
      (dbmon.composeUpdate version initial mcs cond) =
      some (view schema dbmon.tables (fun table => (tableCondition cond table).new) now) := by
  have hnames : (mcs.tables.map TableChanges.table).Nodup := hmcs.names ▸ htables.names
  have htable : ∀ mcst ∈ mcs.tables, ∀ mt, dbmon.table? mcst.table = some mt → ∀ uuid,
      ∃ ts, schema.table? mt.name = some ts ∧ UpdateTakes d ts
        (view schema dbmon.tables (fun table => (tableCondition cond table).new) start
          ⟨mt.name, uuid⟩)
        ((mcst.rows.lookup uuid).bind (Dbmon.rowUpdate version mt cond initial mcst.nColumns))
        (view schema dbmon.tables (fun table => (tableCondition cond table).new) now
          ⟨mt.name, uuid⟩) := by
    intro mcst hmcst mt hmt uuid
    have hmem : mt ∈ dbmon.tables := mem_of_find?_eq_some hmt
    have hname : mcst.table = mt.name := (table?_name hmt).symm
    obtain ⟨ts, hts, hcolumns, hwell⟩ := htables.table mt hmem
    have heq : schema.columns mt.name = ts.columns := columns_eq hts
    have hsees := hcond.sees mcst hmcst mt hmem hname
    rw [heq] at hsees
    rw [htables.view_eq hmem, htables.view_eq hmem, heq]
    refine ⟨ts, hts, rowUpdate_takes hcolumns hwell (hmcs.changes mcst hmcst mt hmem hname)
      (hcond.settled mt hmem) hsees ?_ ?_ hversion ?_⟩
    · intro row hrow
      exact heq ▸ hstart _ row hrow
    · intro row hrow
      exact heq ▸ hnow _ row hrow
    · intro h
      exact hinitial h _
  apply applyUpdates_of_takes (composeUpdate_nodup hnames)
  · rintro ⟨k, update⟩ hu
    obtain ⟨mcst, hmcst, mt, row, hmt, hname, hrow, hupdate⟩ := mem_composeUpdate.mp hu
    obtain ⟨ts, hts, htakes⟩ := htable mcst hmcst mt hmt k.uuid
    rw [hrow, bind_some, hupdate, hname] at htakes
    exact ⟨ts, hname ▸ hts, htakes⟩
  · intro k hk
    cases hmt : dbmon.table? k.table with
    | none => rw [view_eq_none hmt, view_eq_none hmt]
    | some mt =>
      have hname := table?_name hmt
      obtain ⟨mcst, hmcst, hmcstname⟩ := hmcs.exists_changes (mem_of_find?_eq_some hmt)
      obtain ⟨ts, hts, htakes⟩ := htable mcst hmcst mt (by rw [hmcstname, hname, hmt]) k.uuid
      have hnone : (mcst.rows.lookup k.uuid).bind
          (Dbmon.rowUpdate version mt cond initial mcst.nColumns) = none := by
        rw [Option.eq_none_iff_forall_not_mem]
        intro update hupdate
        obtain ⟨row, hrow, hupdate⟩ := bind_eq_some_iff.mp hupdate
        exact hk (mem_map_of_mem (mem_composeUpdate.mpr
          ⟨mcst, hmcst, mt, row, by rw [hmcstname, hname, hmt], hname, hrow, hupdate⟩))
      rw [hnone, hname] at htakes
      exact htakes

end

end Ovsgw.Ovsdb
