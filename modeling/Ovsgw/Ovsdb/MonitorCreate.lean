/-
  **What a create request asks for.**

  The monitored tables that are parsed from a request have columns of the schema, each of
  them once, and the conditions are well-formed.
-/
import Ovsgw.Ovsdb.CondChangeSpec

namespace Ovsgw.Ovsdb

open List
open Results (bind_ok)

/-! ## 1. Columns -/

/-- The columns of a monitored table that a request asks for. -/
structure MonitorTable.Requested (columns : List Column) (mt : MonitorTable) : Prop where
  column : ∀ c ∈ mt.columns, columns[c.index]? = some c.column
  distinct : (mt.columns.map MonitorColumn.index).Nodup
  monitored : ∀ c ∈ mt.columns, c.monitored = true

section
variable {d : Doubles} {ts : TableSchema} {columns : List Column} {mt mt' : MonitorTable}
  {select : Select} {column : Column} {index : Nat}

theorem addColumn_ok {monitored : Bool} (h : mt.addColumn index column select monitored = .ok mt') :
    mt.indexMap index = none ∧ mt'.name = mt.name ∧
      mt'.columns = mt.columns ++ [⟨index, column, select, monitored⟩] := by
  rw [MonitorTable.addColumn] at h
  split at h
  · cases h
  next hnone =>
    cases h
    exact ⟨Option.not_isSome_iff_eq_none.mp hnone, rfl, rfl⟩

theorem MonitorTable.Requested.addColumn
    (hmt : mt.Requested columns) (hcolumn : columns[index]? = some column)
    (h : mt.addColumn index column select true = .ok mt') : mt'.Requested columns := by
  obtain ⟨hnone, -, hcolumns⟩ := addColumn_ok h
  constructor
  · rw [hcolumns]
    exact forall_mem_append.mpr ⟨hmt.column, forall_mem_singleton.mpr hcolumn⟩
  · rw [hcolumns]
    exact nodup_append_column hmt.distinct hnone
  · rw [hcolumns]
    exact forall_mem_append.mpr ⟨hmt.monitored, forall_mem_singleton.mpr rfl⟩

variable {json : Json}

theorem addNamedColumns_requested {elems : List Json} (hmt : mt.Requested ts.columns)
    (h : addNamedColumns ts json select elems mt = .ok mt') :
    mt'.Requested ts.columns ∧ mt'.name = mt.name := by
  fun_induction addNamedColumns ts json select elems mt with
  | case1 mt =>
    cases h
    exact ⟨hmt, rfl⟩
  | case2 => cases h
  | case3 mt s elems index column hcolumn added hadded ih =>
    obtain ⟨hrequested, hname⟩ := ih (hmt.addColumn (getColumn_eq hcolumn) hadded) h
    exact ⟨hrequested, hname.trans (addColumn_ok hadded).2.1⟩
  | case4 => cases h
  | case5 => cases h

theorem addAllColumns_requested {cs : List (Column × Nat)} (hmt : mt.Requested columns)
    (hcs : ∀ c ∈ cs, columns[c.2]? = some c.1) (h : addAllColumns select cs mt = .ok mt') :
    mt'.Requested columns ∧ mt'.name = mt.name := by
  fun_induction addAllColumns select cs mt with
  | case1 mt =>
    cases h
    exact ⟨hmt, rfl⟩
  | case2 mt column cs ih => exact ih hmt (fun c hc => hcs c (mem_cons_of_mem _ hc)) h
  | case3 mt column index cs hindex added hadded ih =>
    obtain ⟨hrequested, hname⟩ := ih (hmt.addColumn (hcs _ mem_cons_self) hadded)
      (fun c hc => hcs c (mem_cons_of_mem _ hc)) h
    exact ⟨hrequested, hname.trans (addColumn_ok hadded).2.1⟩
  | case4 => cases h

/-! ## 2. Requests -/

/-- The conditions of a request: both are what the request has for the table. -/
structure SessionCondition.Requested (schema : Schema) (cond : SessionCondition) : Prop where
  settled : ∀ mtc ∈ cond.tables, mtc.old = mtc.new
  wellFormed : ∀ mtc ∈ cond.tables, mtc.new.WellFormed (schema.columns mtc.table)
  mode : cond.conditional = cond.tables.any fun mtc => !mtc.new.isTrue

variable {schema : Schema}

theorem create_requested {cond cond' : SessionCondition}
    (hts : schema.table? ts.name = some ts) (hok : ColumnsOk ts.columns)
    (hcond : cond.Requested schema) {json : Option (List Json)}
    (h : cond.create d ts json = .ok cond') : cond'.Requested schema := by
  obtain ⟨condition, hcondition, h⟩ := bind_ok h
  cases h
  have hwell : condition.WellFormed (schema.columns ts.name) := by
    rw [columns_eq hts]
    cases json with
    | none =>
      cases hcondition
      exact Condition.wellFormed_empty
    | some elems => exact conditionFromJson_wellFormed hok.uuid hcondition
  constructor
  · exact forall_mem_cons.mpr ⟨rfl, hcond.settled⟩
  · exact forall_mem_cons.mpr ⟨hwell, hcond.wellFormed⟩
  · rfl

theorem zipIdx_columns : ∀ c ∈ ts.columns.zipIdx, ts.columns[c.2]? = some c.1 := by
  intro c hc
  exact mk_mem_zipIdx_iff_getElem?.mp hc

variable {cond : Option SessionCondition} {state' : MonitorTable × Option SessionCondition}

section

variable (hts : schema.table? ts.name = some ts) (hok : ColumnsOk ts.columns)
  (hmt : mt.Requested ts.columns) (hcond : ∀ c, cond = some c → c.Requested schema)
include hts hok hmt hcond

theorem parseMonitorRequest_requested (h : parseMonitorRequest d ts (mt, cond) json = .ok state') :
    state'.1.Requested ts.columns ∧ state'.1.name = mt.name ∧ state'.2.isSome = cond.isSome ∧
      ∀ c, state'.2 = some c → c.Requested schema := by
  unfold parseMonitorRequest at h
  obtain ⟨⟨condition, columns, selectJson⟩, -, h⟩ := bind_ok h
  obtain ⟨select, -, h⟩ := bind_ok h
  have hmt' : ({ mt with select := mt.select.or select } : MonitorTable).Requested ts.columns :=
    ⟨hmt.column, hmt.distinct, hmt.monitored⟩
  have hadd : ∀ {added}, columns.elim
      (addAllColumns select ts.columns.zipIdx { mt with select := mt.select.or select })
      (fun columns => addNamedColumns ts columns select (Json.elemsD (some columns))
        { mt with select := mt.select.or select }) = .ok added →
      added.Requested ts.columns ∧ added.name = mt.name := by
    intro added hadded
    cases columns with
    | none =>
      have hrequested := addAllColumns_requested hmt' zipIdx_columns hadded
      exact hrequested
    | some columns =>
      have hrequested := addNamedColumns_requested hmt' hadded
      exact hrequested
  cases cond with
  | none =>
    cases columns <;>
    · obtain ⟨added, hadded, h⟩ := bind_ok h
      cases h
      exact ⟨(hadd hadded).1, (hadd hadded).2, rfl, nofun⟩
  | some cond =>
    cases columns <;>
    · obtain ⟨added, hadded, h⟩ := bind_ok h
      obtain ⟨created, hcreated, h⟩ := bind_ok h
      cases h
      refine ⟨(hadd hadded).1, (hadd hadded).2, rfl, ?_⟩
      rintro c ⟨⟩
      exact create_requested hts hok (hcond cond rfl) hcreated

theorem foldlM_parseMonitorRequest {elems : List Json}
    (h : elems.foldlM (parseMonitorRequest d ts) (mt, cond) = .ok state') :
    state'.1.Requested ts.columns ∧ state'.1.name = mt.name ∧ state'.2.isSome = cond.isSome ∧
      ∀ c, state'.2 = some c → c.Requested schema := by
  induction elems generalizing mt cond with
  | nil =>
    cases h
    exact ⟨hmt, rfl, rfl, hcond⟩
  | cons json elems ih =>
    rw [foldlM_cons] at h
    obtain ⟨⟨mt1, cond1⟩, hfirst, h⟩ := bind_ok h
    obtain ⟨hmt1, hname1, hsome1, hcond1⟩ := parseMonitorRequest_requested hts hok hmt hcond hfirst
    obtain ⟨hmt', hname', hsome', hcond'⟩ := ih hmt1 hcond1 h
    exact ⟨hmt', hname'.trans hname1, hsome'.trans hsome1, hcond'⟩

end

theorem parseTableRequests_requested
    (hts : schema.table? ts.name = some ts) (hok : ColumnsOk ts.columns)
    (hcond : ∀ c, cond = some c → c.Requested schema)
    (h : parseTableRequests d ts json cond = .ok state') :
    state'.1.Requested ts.columns ∧ state'.1.name = ts.name ∧ state'.2.isSome = cond.isSome ∧
      ∀ c, state'.2 = some c → c.Requested schema := by
  have hempty : ({ name := ts.name } : MonitorTable).Requested ts.columns := by
    constructor
    · intro c hc
      cases hc
    · exact nodup_nil
    · intro c hc
      cases hc
  exact foldlM_parseMonitorRequest hts hok hempty hcond h

variable {requests : List (String × Json)} {tables : List MonitorTable}

theorem parseRequests_requested (hschema : ∀ ts ∈ schema.tables, ColumnsOk ts.columns)
    {tables' : List MonitorTable} {cond' : Option SessionCondition}
    (htables : ∀ mt ∈ tables, ∃ ts, schema.table? mt.name = some ts ∧ mt.Requested ts.columns)
    (hcond : ∀ c, cond = some c → c.Requested schema)
    (h : parseRequests d schema requests (tables, cond) = .ok (tables', cond')) :
    (∀ mt ∈ tables', ∃ ts, schema.table? mt.name = some ts ∧ mt.Requested ts.columns) ∧
      tables'.map MonitorTable.name = tables.map MonitorTable.name ++ requests.map Prod.fst ∧
      cond'.isSome = cond.isSome ∧ ∀ c, cond' = some c → c.Requested schema := by
  induction requests generalizing tables cond with
  | nil =>
    cases h
    exact ⟨htables, by simp, rfl, hcond⟩
  | cons request requests ih =>
    obtain ⟨name, json⟩ := request
    unfold parseRequests at h
    cases hts : schema.table? name with
    | none =>
      rw [hts] at h
      cases h
    | some ts =>
      rw [hts] at h
      obtain ⟨⟨mt, cond1⟩, hfirst, h⟩ := bind_ok h
      have hname := table?_schema_name hts
      have hok := hschema ts (mem_of_find?_eq_some hts)
      obtain ⟨hmt, hmtname, hsome, hcond1⟩ :=
        parseTableRequests_requested (hname ▸ hts) hok hcond hfirst
      have htables1 : ∀ mt' ∈ tables ++ [mt], ∃ ts, schema.table? mt'.name = some ts ∧
          mt'.Requested ts.columns := by
        intro mt' hmt'
        rcases mem_append.mp hmt' with hmt' | hmt'
        · exact htables mt' hmt'
        · rw [mem_singleton.mp hmt', hmtname, hname]
          exact ⟨ts, hts, hmt⟩
      obtain ⟨htables', hnames, hsome', hcond'⟩ := ih htables1 hcond1 h
      refine ⟨htables', ?_, hsome'.trans hsome, hcond'⟩
      rw [hnames, map_append, append_assoc, map_cons, map_nil, hmtname, hname]
      rfl

theorem MonitorTable.Requested.wellFormed (hmt : mt.Requested columns)
    (hselect : mt.select = .all) (hcolumns : ∀ c ∈ mt.columns, c.select = .all) :
    mt.WellFormed columns := by
  have hcount : mt.nMonitoredColumns = mt.columns.length := by
    rw [MonitorTable.nMonitoredColumns, countP_eq_length]
    exact hmt.monitored
  constructor
  · exact hmt.column
  · exact hmt.distinct
  · rw [hcount, take_length, filter_eq_self.mpr hmt.monitored]
  · exact hselect
  · intro c hc _
    exact hcolumns c hc

theorem MonitorTable.Requested.sort (hmt : mt.Requested columns) :
    mt.sortColumns.Requested columns := by
  have hperm := perm_insertionSort (fun a b : MonitorColumn => a.index ≤ b.index) mt.columns
  constructor
  · intro c hc
    exact hmt.column c (hperm.subset hc)
  · exact (hperm.map _).nodup_iff.mpr hmt.distinct
  · intro c hc
    exact hmt.monitored c (hperm.subset hc)

variable {version : MonitorVersion}

theorem newCondition_requested : ∀ c, newCondition version = some c → c.Requested schema := by
  intro c hc
  unfold newCondition at hc
  split at hc
  · cases hc
  · cases hc
    constructor
    · intro mtc hmtc
      cases hmtc
    · intro mtc hmtc
      cases hmtc
    · rfl

/-- What is accepted asks for columns of the schema. -/
theorem monitorRequests_requested (hschema : ∀ ts ∈ schema.tables, ColumnsOk ts.columns)
    (h : monitorRequests d schema version requests = .ok (tables, cond)) :
    (∀ mt ∈ tables, ∃ ts, schema.table? mt.name = some ts ∧ mt.Requested ts.columns) ∧
      tables.map MonitorTable.name = requests.map Prod.fst ∧
      cond.isSome = (newCondition version).isSome ∧ ∀ c, cond = some c → c.Requested schema := by
  obtain ⟨⟨tables0, cond0⟩, hparse, h⟩ := bind_ok h
  cases h
  obtain ⟨htables, htablenames, hsome, hcond⟩ :=
    parseRequests_requested hschema (fun mt hmt => by cases hmt) newCondition_requested hparse
  refine ⟨?_, ?_, hsome, hcond⟩
  · intro mt' hmt'
    obtain ⟨mt, hmt, rfl⟩ := mem_map.mp hmt'
    obtain ⟨ts, hts, hrequested⟩ := htables mt hmt
    exact ⟨ts, hts, hrequested.sort⟩
  · rw [map_map]
    exact htablenames

theorem monitorRequests_ok (hschema : ∀ ts ∈ schema.tables, ColumnsOk ts.columns)
    (hnames : (requests.map Prod.fst).Nodup)
    (h : monitorRequests d schema version requests = .ok (tables, cond))
    (hselect : ∀ mt ∈ tables, mt.select = .all ∧ ∀ c ∈ mt.columns, c.select = .all) :
    TablesOk schema tables ∧ cond.isSome = (newCondition version).isSome ∧
      ∀ c, cond = some c → c.Requested schema := by
  obtain ⟨htables, htablenames, hsome, hcond⟩ := monitorRequests_requested hschema h
  refine ⟨⟨?_, ?_⟩, hsome, hcond⟩
  · rw [htablenames]
    exact hnames
  · intro mt hmt
    obtain ⟨hselect', hcolumns⟩ := hselect mt hmt
    obtain ⟨ts, hts, hrequested⟩ := htables mt hmt
    exact ⟨ts, hts, hschema ts (mem_of_find?_eq_some hts), hrequested.wellFormed hselect' hcolumns⟩

/-! ## 3. Binding conditions -/

theorem foldl_modifyTable {dbmon : Dbmon} (htables : TablesOk schema dbmon.tables)
    {mtcs : List TableCondition}
    (hmtcs : ∀ mtc ∈ mtcs, mtc.new.WellFormed (schema.columns mtc.table)) :
    ∃ tables, mtcs.foldl (fun dbmon mtc =>
          dbmon.modifyTable mtc.table fun mt => mt.addConditionColumns mtc.new) dbmon =
        { dbmon with tables } ∧
      TablesExtend dbmon.tables tables ∧ TablesOk schema tables ∧
      ∀ mtc ∈ mtcs, ∀ mt ∈ tables, mt.name = mtc.table → mt.Covers mt.columns.length mtc.new := by
  induction mtcs generalizing dbmon with
  | nil =>
    refine ⟨dbmon.tables, rfl, TablesExtend.refl _, htables, ?_⟩
    intro mtc hmtc
    cases hmtc
  | cons mtc mtcs ih =>
    have hfirst : TablesOk schema
        (dbmon.modifyTable mtc.table fun mt => mt.addConditionColumns mtc.new).tables :=
      htables.addColumnsTo (hmtcs mtc mem_cons_self)
    obtain ⟨tables, hfold, hextend, hok, hcovers⟩ :=
      ih hfirst fun mtc' h => hmtcs mtc' (mem_cons_of_mem mtc h)
    refine ⟨tables, hfold, addColumnsTo_extend.trans hextend, hok, ?_⟩
    intro mtc' hmtc' mt' hmt' hname
    rcases mem_cons.mp hmtc' with rfl | hmtc'
    · obtain ⟨mt, hmt, hextends⟩ := hextend.exists_mem hmt'
      have hmtname : mtc'.table = mt.name := hname.symm.trans hextends.name
      have hmt : mt ∈ addColumnsTo mt.name mtc'.new dbmon.tables := hmtname ▸ hmt
      have hthis := addColumnsTo_covers (hmtname ▸ hfirst) hmt
      exact hextends.covers (hthis.mono hextends.length_le)
    · exact hcovers mtc' hmtc' mt' hmt' hname

/-- Binding a condition adds the columns it looks at. -/
theorem conditionBind_ok (dbmon : Dbmon) {cond : SessionCondition}
    (htables : TablesOk schema dbmon.tables) (hcond : cond.Requested schema) :
    ∃ tables, dbmon.conditionBind cond = { dbmon with tables } ∧
      TablesExtend dbmon.tables tables ∧ CondsOk schema tables (some cond) ∧
      (∀ mt ∈ tables, (tableCondition (some cond) mt.name).old =
        (tableCondition (some cond) mt.name).new) ∧ Mode tables (some cond) := by
  obtain ⟨tables, hfold, hextend, hok, hcovers⟩ := foldl_modifyTable htables hcond.wellFormed
  have hfind : ∀ table, tableCondition (some cond) table = { table } ∨
      ∃ mtc ∈ cond.tables, mtc.table = table ∧ tableCondition (some cond) table = mtc := by
    intro table
    cases hfind : cond.find table with
    | none =>
      left
      rw [tableCondition, Option.bind_some, hfind]
      rfl
    | some mtc =>
      right
      obtain ⟨hmtc, hname⟩ := Lists.find?_beq hfind
      refine ⟨mtc, hmtc, hname, ?_⟩
      rw [tableCondition, Option.bind_some, hfind]
      rfl
  have hsettled : ∀ table, (tableCondition (some cond) table).old =
      (tableCondition (some cond) table).new := by
    intro table
    rcases hfind table with heq | ⟨mtc, hmtc, -, heq⟩
    · rw [heq]
    · rw [heq]
      exact hcond.settled mtc hmtc
  have hwell : ∀ table, (tableCondition (some cond) table).new.WellFormed (schema.columns table) := by
    intro table
    rcases hfind table with heq | ⟨mtc, hmtc, rfl, heq⟩
    · rw [heq]
      exact Condition.wellFormed_empty
    · rw [heq]
      exact hcond.wellFormed mtc hmtc
  refine ⟨tables, hfold, hextend, ⟨hok, ?_, ?_, ?_⟩, fun mt _ => hsettled mt.name, ?_⟩
  · intro mt _
    rw [hsettled]
    exact hwell mt.name
  · intro mt _
    exact hwell mt.name
  · intro mt hmt
    rcases hfind mt.name with heq | ⟨mtc, hmtc, hname, heq⟩
    · rw [heq]
      intro c hc
      cases hc
    · rw [heq]
      exact hcovers mtc hmtc mt hmt hname.symm
  · intro hmode mt _
    rcases hfind mt.name with heq | ⟨mtc, hmtc, -, heq⟩
    · rw [heq]
      rfl
    · rw [heq]
      have hall : (cond.tables.any fun mtc => !mtc.new.isTrue) = false := hcond.mode ▸ hmode
      simpa using any_eq_false.mp hall mtc hmtc

end

end Ovsgw.Ovsdb
