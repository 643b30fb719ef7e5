/-
  **Changing the conditions of a session.**

  A condition may name columns that are not monitored; they are added to the monitored tables,
  behind the columns that are there.  What a session is sent when its conditions change takes the
  client from the view under the old conditions to the view under the new ones.
-/
import Ovsgw.Lib.EState
import Ovsgw.Ovsdb.MonitorSession
import Ovsgw.Ovsdb.MonitorSpec

namespace Ovsgw.Ovsdb

open EState List
open Option (bind_some)

/-! ## 1. Tables with more columns -/

/-- `mt'` has the columns of `mt`, and behind them columns that are not monitored. -/
structure MonitorTable.Extends (mt mt' : MonitorTable) : Prop where
  name : mt'.name = mt.name
  select : mt'.select = mt.select
  columns : ∃ extra, mt'.columns = mt.columns ++ extra ∧ ∀ c ∈ extra, c.monitored = false

variable {name : String} {updates : List TableUpdates} {new : Condition} {json : Json}

section
variable {columns : List Column} {mt mt' mt'' : MonitorTable} {n : Nat} {cond : Condition}
  {column : Nat × Column}

theorem MonitorTable.Extends.refl (mt : MonitorTable) : mt.Extends mt := by
  constructor
  · rfl
  · rfl
  · exact ⟨[], by simp⟩

theorem MonitorTable.Extends.trans (h : mt.Extends mt') (h' : mt'.Extends mt'') :
    mt.Extends mt'' := by
  obtain ⟨extra, hextra, hmonitored⟩ := h.columns
  obtain ⟨extra', hextra', hmonitored'⟩ := h'.columns
  constructor
  · exact h'.name.trans h.name
  · exact h'.select.trans h.select
  · exact ⟨extra ++ extra', by rw [hextra', hextra, append_assoc],
      forall_mem_append.mpr ⟨hmonitored, hmonitored'⟩⟩

section

variable (h : mt.Extends mt')
include h

theorem MonitorTable.Extends.nMonitoredColumns : mt'.nMonitoredColumns = mt.nMonitoredColumns := by
  obtain ⟨extra, hextra, hmonitored⟩ := h.columns
  have hzero : extra.countP MonitorColumn.monitored = 0 := by
    rw [countP_eq_zero]
    intro c hc
    simp [hmonitored c hc]
  rw [MonitorTable.nMonitoredColumns, hextra, countP_append, hzero]
  rfl

theorem MonitorTable.Extends.monitors (index : Nat) : mt'.monitors index = mt.monitors index := by
  obtain ⟨extra, hextra, hmonitored⟩ := h.columns
  have hfalse : (extra.any fun c => c.monitored && c.index == index) = false := by
    rw [any_eq_false]
    intro c hc
    simp [hmonitored c hc]
  rw [MonitorTable.monitors, hextra, any_append, hfalse, Bool.or_false]
  rfl

theorem MonitorTable.Extends.cloneRow (hn : n ≤ mt.columns.length) (row : Row) :
    mt'.cloneRow row n = mt.cloneRow row n := by
  obtain ⟨extra, hextra, -⟩ := h.columns
  rw [MonitorTable.cloneRow, hextra, take_append_of_le_length hn]
  rfl

theorem MonitorTable.Extends.length_le : mt.columns.length ≤ mt'.columns.length := by
  obtain ⟨extra, hextra, -⟩ := h.columns
  rw [hextra, length_append]
  exact Nat.le_add_right _ _

theorem MonitorTable.Extends.indexMap {index i : Nat} (hi : mt.indexMap index = some i) :
    mt'.indexMap index = some i := by
  obtain ⟨extra, hextra, -⟩ := h.columns
  unfold MonitorTable.indexMap at *
  rw [hextra, findIdx?_append, hi]
  rfl

theorem MonitorTable.Extends.covers (hcovers : mt.Covers n cond) : mt'.Covers n cond := by
  intro c hc
  obtain ⟨i, hi, hindex⟩ := hcovers c hc
  exact ⟨i, hi, h.indexMap hindex⟩

end

theorem MonitorTable.Covers.mono {m : Nat} (h : mt.Covers m cond) (hle : m ≤ n) :
    mt.Covers n cond := by
  intro c hc
  obtain ⟨i, hi, hindex⟩ := h c hc
  exact ⟨i, hi.trans_le hle, hindex⟩

theorem indexMap_lt {index i : Nat} (h : mt.indexMap index = some i) : i < mt.columns.length := by
  obtain ⟨hlt, -⟩ := findIdx?_eq_some_iff_getElem.mp h
  exact hlt

theorem addConditionColumn_cases (mt : MonitorTable) (column : Nat × Column) :
    (∃ i, mt.indexMap column.1 = some i) ∧ mt.addConditionColumn column = mt ∨
    mt.indexMap column.1 = none ∧ mt.addConditionColumn column =
      { mt with columns := mt.columns ++ [⟨column.1, column.2, {}, false⟩] } := by
  rw [MonitorTable.addConditionColumn, MonitorTable.addColumn]
  cases hi : mt.indexMap column.1 with
  | some i => exact .inl ⟨⟨i, rfl⟩, rfl⟩
  | none => exact .inr ⟨rfl, by simp [Select.or]⟩

theorem addConditionColumn_extends (mt : MonitorTable) (column : Nat × Column) :
    mt.Extends (mt.addConditionColumn column) := by
  obtain ⟨-, heq⟩ | ⟨-, heq⟩ := addConditionColumn_cases mt column <;> rw [heq]
  · exact .refl mt
  · exact ⟨rfl, rfl, _, rfl, by simp⟩

theorem addConditionColumn_indexMap :
    ∃ i, (mt.addConditionColumn column).indexMap column.1 = some i := by
  obtain ⟨hi, heq⟩ | ⟨-, heq⟩ := addConditionColumn_cases mt column <;> rw [heq]
  · exact hi
  · rw [← Option.isSome_iff_exists, MonitorTable.indexMap, findIdx?_isSome]
    simp

theorem nodup_append_column (h : (mt.columns.map MonitorColumn.index).Nodup) {c : MonitorColumn}
    (hnone : mt.indexMap c.index = none) : ((mt.columns ++ [c]).map MonitorColumn.index).Nodup := by
  rw [map_append, nodup_append']
  refine ⟨h, by simp, ?_⟩
  intro index hindex hnew
  obtain ⟨c', hc', rfl⟩ := mem_map.mp hindex
  have hne := findIdx?_eq_none_iff.mp hnone c' hc'
  exact absurd (mem_singleton.mp hnew) (by simpa using hne)

theorem addConditionColumn_wellFormed (hmt : mt.WellFormed columns)
    (hcolumn : columns[column.1]? = some column.2) :
    (mt.addConditionColumn column).WellFormed columns := by
  have hextends := addConditionColumn_extends mt column
  obtain ⟨-, heq⟩ | ⟨hnone, heq⟩ := addConditionColumn_cases mt column <;> rw [heq] at hextends ⊢
  · exact hmt
  have hcount := hextends.nMonitoredColumns
  constructor
  · exact forall_mem_append.mpr ⟨hmt.column, forall_mem_singleton.mpr hcolumn⟩
  · exact nodup_append_column hmt.distinct hnone
  · have hlength : mt.nMonitoredColumns ≤ mt.columns.length := countP_le_length
    rw [hcount]
    simp only [filter_append]
    rw [take_append_of_le_length hlength, hmt.monitoredFirst]
    simp
  · exact hextends.select.trans hmt.select
  · exact forall_mem_append.mpr ⟨hmt.columnSelect, forall_mem_singleton.mpr nofun⟩

theorem foldl_addConditionColumn_extends (cs : List (Nat × Column)) (mt : MonitorTable) :
    mt.Extends (cs.foldl MonitorTable.addConditionColumn mt) := by
  induction cs generalizing mt with
  | nil => exact MonitorTable.Extends.refl mt
  | cons column cs ih => exact (addConditionColumn_extends mt column).trans (ih _)

theorem addConditionColumns_extends (mt : MonitorTable) (cond : Condition) :
    mt.Extends (mt.addConditionColumns cond) :=
  foldl_addConditionColumn_extends cond.getColumns mt

theorem addConditionColumns_wellFormed (hmt : mt.WellFormed columns)
    (hcond : cond.WellFormed columns) : (mt.addConditionColumns cond).WellFormed columns := by
  have hvalid : ∀ column ∈ cond.getColumns, columns[column.1]? = some column.2 := by
    intro column hcolumn
    obtain ⟨c, hc, rfl⟩ := mem_map.mp hcolumn
    exact (hcond.clauses c hc).column
  unfold MonitorTable.addConditionColumns
  generalize cond.getColumns = cs at hvalid
  induction cs generalizing mt with
  | nil => exact hmt
  | cons column cs ih =>
    apply ih (addConditionColumn_wellFormed hmt (hvalid column mem_cons_self))
    intro column' hcolumn'
    exact hvalid column' (mem_cons_of_mem column hcolumn')

theorem addConditionColumns_covers :
    (mt.addConditionColumns cond).Covers (mt.addConditionColumns cond).columns.length cond := by
  have hfound : ∀ cs : List (Nat × Column), ∀ mt : MonitorTable, ∀ column ∈ cs,
      ∃ i, (cs.foldl MonitorTable.addConditionColumn mt).indexMap column.1 = some i := by
    intro cs
    induction cs with
    | nil =>
      intro mt column hcolumn
      cases hcolumn
    | cons column cs ih =>
      intro mt column' hcolumn'
      rcases mem_cons.mp hcolumn' with rfl | hcolumn'
      · obtain ⟨i, hi⟩ := addConditionColumn_indexMap
        exact ⟨i, (foldl_addConditionColumn_extends cs _).indexMap hi⟩
      · exact ih _ column' hcolumn'
  intro c hc
  obtain ⟨i, hi⟩ := hfound cond.getColumns mt (c.index, c.column) (mem_map_of_mem hc)
  exact ⟨i, indexMap_lt hi, hi⟩

end

/-! ## 2. Monitored tables with more columns -/

/-- Each table has the columns that it had, and maybe more for conditions. -/
abbrev TablesExtend (tables tables' : List MonitorTable) : Prop :=
  List.Forall₂ MonitorTable.Extends tables tables'

section
variable {schema : Schema} {tables tables' tables'' : List MonitorTable} {mt mt' : MonitorTable}

theorem TablesExtend.refl (tables : List MonitorTable) : TablesExtend tables tables :=
  forall₂_same.mpr fun mt _ => .refl mt

theorem TablesExtend.trans (h : TablesExtend tables tables') (h' : TablesExtend tables' tables'') :
    TablesExtend tables tables'' := by
  induction h generalizing tables'' with
  | nil => exact h'
  | cons hmt _ ih =>
    cases h' with
    | cons hmt' hrest => exact .cons (hmt.trans hmt') (ih hrest)

theorem clientRow_extends (h : mt.Extends mt') {columns : List Column} {row : Row} :
    clientRow columns mt' row = clientRow columns mt row := by
  funext index
  rw [clientRow, clientRow, h.monitors]

section

variable (h : TablesExtend tables tables')
include h

theorem TablesExtend.exists_mem (hmt' : mt' ∈ tables') : ∃ mt ∈ tables, mt.Extends mt' := by
  induction h with
  | nil => cases hmt'
  | cons hmt _ ih =>
    rcases mem_cons.mp hmt' with rfl | hmt'
    · exact ⟨_, mem_cons_self, hmt⟩
    · obtain ⟨mt, hmem, hextends⟩ := ih hmt'
      exact ⟨mt, mem_cons_of_mem _ hmem, hextends⟩

/-- What the names of the tables decide. -/
theorem TablesExtend.forall_mem {P : MonitorTable → Prop}
    (hname : ∀ mt mt', mt'.name = mt.name → P mt → P mt') (hP : ∀ mt ∈ tables, P mt) :
    ∀ mt ∈ tables', P mt := by
  intro mt' hmt'
  obtain ⟨mt, hmt, hextends⟩ := h.exists_mem hmt'
  exact hname mt mt' hextends.name (hP mt hmt)

theorem TablesExtend.names : tables'.map MonitorTable.name = tables.map MonitorTable.name := by
  induction h with
  | nil => rfl
  | cons hmt _ ih => rw [map_cons, map_cons, hmt.name, ih]

theorem TablesExtend.view_eq {conds : String → Condition} {rows : RowKey → Option Row} :
    view schema tables' conds rows = view schema tables conds rows := by
  funext k
  unfold view
  induction h with
  | nil => rfl
  | cons hmt _ ih =>
    rw [find?_cons, find?_cons, hmt.name]
    split
    · simp only [bind_some, viewRow, clientRow_extends hmt]
    · exact ih

theorem ChangeSet.Tracks.of_extends {mcs : ChangeSet} {start now : RowKey → Option Row}
    (hmcs : mcs.Tracks tables start now) : mcs.Tracks tables' start now := by
  constructor
  · rw [hmcs.names, h.names]
  · intro mcst hmcst mt' hmt' hname
    obtain ⟨mt, hmt, hextends⟩ := h.exists_mem hmt'
    have htracks := hmcs.changes mcst hmcst mt hmt (hname.trans hextends.name)
    have hclone : (fun row => mt'.cloneRow row mcst.nColumns) =
        fun row => mt.cloneRow row mcst.nColumns := by
      funext row
      exact hextends.cloneRow htracks.columns row
    constructor
    · rw [hextends.nMonitoredColumns]
      exact htracks.monitored
    · exact htracks.columns.trans hextends.length_le
    · rw [hclone, hextends.name]
      exact htracks.describes

end

variable {α : Type} {f : α → α} {p : α → Bool} {cond : Condition}

theorem mem_updateFirst {l : List α} {a : α}
    (h : a ∈ updateFirst p f l) : a ∈ l ∨ ∃ b ∈ l, p b = true ∧ a = f b := by
  induction l with
  | nil => cases h
  | cons b l ih =>
    rw [updateFirst] at h
    split at h
    next hp =>
      rcases mem_cons.mp h with rfl | h
      · exact .inr ⟨b, mem_cons_self, hp, rfl⟩
      · exact .inl (mem_cons_of_mem b h)
    next =>
      rcases mem_cons.mp h with rfl | h
      · exact .inl mem_cons_self
      · rcases ih h with h | ⟨c, hc, hp, rfl⟩
        · exact .inl (mem_cons_of_mem b h)
        · exact .inr ⟨c, mem_cons_of_mem b hc, hp, rfl⟩

theorem find?_updateFirst_self (hp : ∀ a, p a = true → p (f a) = true) (l : List α) :
    (updateFirst p f l).find? p = (l.find? p).map f := by
  induction l with
  | nil => rfl
  | cons a l ih =>
    rw [updateFirst]
    split
    next h => rw [find?_cons_of_pos (hp a h), find?_cons_of_pos h, Option.map_some]
    next h => rw [find?_cons_of_neg h, find?_cons_of_neg h, ih]

theorem find?_updateFirst_of_ne {q : α → Bool}
    (h : ∀ a, p a = true → q a = false ∧ q (f a) = false) (l : List α) :
    (updateFirst p f l).find? q = l.find? q := by
  induction l with
  | nil => rfl
  | cons a l ih =>
    rw [updateFirst]
    split
    next hp =>
      obtain ⟨hqa, hqf⟩ := h a hp
      rw [find?_cons_of_neg (by simp [hqf]), find?_cons_of_neg (by simp [hqa])]
    next hp => rw [find?_cons, find?_cons, ih]

/-- The tables after the columns of a condition have been added to the table `name`. -/
abbrev addColumnsTo (name : String) (cond : Condition) (tables : List MonitorTable) :
    List MonitorTable :=
  updateFirst (fun mt => mt.name == name) (fun mt => mt.addConditionColumns cond) tables

theorem addColumnsTo_extend : TablesExtend tables (addColumnsTo name cond tables) := by
  unfold addColumnsTo
  induction tables with
  | nil => exact .nil
  | cons mt rest ih =>
    rw [updateFirst]
    split
    · exact .cons (addConditionColumns_extends mt cond) (TablesExtend.refl rest)
    · exact .cons (MonitorTable.Extends.refl mt) ih

theorem TablesOk.addColumnsTo (htables : TablesOk schema tables)
    (hcond : cond.WellFormed (schema.columns name)) :
    TablesOk schema (Ovsdb.addColumnsTo name cond tables) := by
  constructor
  · rw [addColumnsTo_extend.names]
    exact htables.names
  · intro mt' hmt'
    rcases mem_updateFirst hmt' with hmt | ⟨mt, hmt, hname, rfl⟩
    · exact htables.table mt' hmt
    · obtain ⟨ts, hts, hok, hwell⟩ := htables.table mt hmt
      rw [← eq_of_beq hname, columns_eq hts] at hcond
      exact ⟨ts, (addConditionColumns_extends mt cond).name ▸ hts, hok,
        addConditionColumns_wellFormed hwell hcond⟩

theorem addColumnsTo_covers (htables : TablesOk schema (Ovsdb.addColumnsTo mt.name cond tables))
    (hmt : mt ∈ addColumnsTo mt.name cond tables) : mt.Covers mt.columns.length cond := by
  have hfind := htables.find hmt
  rw [find?_updateFirst_self, Option.map_eq_some_iff] at hfind
  · obtain ⟨mt', -, rfl⟩ := hfind
    exact addConditionColumns_covers
  · intro mt' hname
    rw [(addConditionColumns_extends mt' cond).name]
    exact hname

end

/-! ## 3. The updates for new conditions -/

section
variable {cond cond' : SessionCondition} {table : String} {f : TableCondition → TableCondition}
  {table' : String}

theorem find_modify_self (hf : ∀ mtc, (f mtc).table = mtc.table) :
    (cond.modify table f).find table = (cond.find table).map f := by
  apply find?_updateFirst_self
  intro mtc hmtc
  rw [hf]
  exact hmtc

theorem find_modify_of_ne (hf : ∀ mtc, (f mtc).table = mtc.table)
    (hne : table' ≠ table) : (cond.modify table f).find table' = cond.find table' := by
  apply find?_updateFirst_of_ne
  intro mtc hmtc
  rw [hf, eq_of_beq hmtc]
  simp [hne.symm]

theorem find_setMode : cond.setMode.find table = cond.find table := rfl

theorem find_updated_of_ne (hne : table' ≠ table) :
    (cond.updated table).find table' = cond.find table' := by
  rw [SessionCondition.updated]
  split
  · rfl
  · split
    · rw [find_setMode]
      apply find_modify_of_ne _ hne
      intro _
      rfl
    · rfl

theorem tableCondition_eq_of_find (h : cond.find table = cond'.find table) :
    tableCondition (some cond) table = tableCondition (some cond') table := by
  rw [tableCondition, tableCondition, bind_some, bind_some, h]

theorem tableCondition_updated {columns : List Column} (hok : ColumnsOk columns)
    (hold : (tableCondition (some cond) table).old.WellFormed columns)
    (hnew : (tableCondition (some cond) table).new.WellFormed columns) :
    (tableCondition (some (cond.updated table)) table).old =
        (tableCondition (some cond) table).new ∧
      (tableCondition (some (cond.updated table)) table).new =
        (tableCondition (some cond) table).new := by
  unfold tableCondition at *
  simp only [bind_some] at *
  rw [SessionCondition.updated]
  cases hfind : cond.find table with
  | none => simp [hfind]
  | some mtc =>
    rw [hfind] at hold hnew
    simp only
    split
    next hne =>
      rw [find_setMode, find_modify_self, hfind]
      · exact ⟨rfl, rfl⟩
      · intro _
        rfl
    next heq =>
      have hsame : mtc.old = mtc.new :=
        Condition.eq_of_cmp3way hok hold hnew (not_not.mp heq)
      rw [hfind]
      exact ⟨hsame, rfl⟩

end

/-- What is sent for a table when the conditions change. -/
def condChangeUpdates (db : Database) (cond : SessionCondition) (mt : MonitorTable) :
    Option TableUpdates :=
  (cond.find mt.name).bind fun mtc =>
    if mtc.old.cmp3way mtc.new = .eq then none
    else Dbmon.tableUpdates mt.name (Dbmon.composeCondChangeTable db cond mt)

/-- What is sent for a row when the conditions change. -/
def condChangeRow (db : Database) (cond : SessionCondition) (mt : MonitorTable) (uuid : Uuid) :
    Option RowUpdate :=
  (db.rows.lookup ⟨mt.name, uuid⟩).bind fun row =>
    composeRowUpdate2 mt (some cond) false (some (mt.rowData row)) (some (mt.rowData row))
      mt.columns.length

section
variable {d : Doubles} {schema : Schema} {db : Database} {cond cond' : SessionCondition}
  {mt : MonitorTable} {tables : List MonitorTable}

theorem condChangeUpdates_congr (h : cond.find mt.name = cond'.find mt.name) :
    condChangeUpdates db cond mt = condChangeUpdates db cond' mt := by
  have hcompose : Dbmon.composeCondChangeTable db cond mt =
      Dbmon.composeCondChangeTable db cond' mt := by
    unfold Dbmon.composeCondChangeTable composeRowUpdate2 rowUpdateTypeCondition getTableConditions
    rw [bind_some, bind_some, h]
  rw [condChangeUpdates, condChangeUpdates, h, hcompose]

theorem condChangeTable_eq : Dbmon.condChangeTable db (updates, cond) mt =
      (updates ++ (condChangeUpdates db cond mt).toList, cond.updated mt.name) := by
  rw [Dbmon.condChangeTable, condChangeUpdates, SessionCondition.updated]
  cases cond.find mt.name with
  | none => simp
  | some mtc =>
    simp only [bind_some]
    by_cases heq : mtc.old.cmp3way mtc.new = .eq <;> simp [heq]

theorem foldl_condChangeTable (hnames : (tables.map MonitorTable.name).Nodup)
    (h : ∀ mt ∈ tables, cond'.find mt.name = cond.find mt.name) :
    tables.foldl (Dbmon.condChangeTable db) (updates, cond') =
      (updates ++ tables.filterMap (condChangeUpdates db cond),
        tables.foldl (fun cond mt => cond.updated mt.name) cond') := by
  induction tables generalizing updates cond' with
  | nil => simp
  | cons mt tables ih =>
    rw [map_cons, nodup_cons] at hnames
    have hrest : ∀ mt' ∈ tables, (cond'.updated mt.name).find mt'.name = cond.find mt'.name := by
      intro mt' hmt'
      have hne : mt'.name ≠ mt.name := by
        intro heq
        exact hnames.1 (heq ▸ mem_map_of_mem hmt')
      rw [find_updated_of_ne hne]
      exact h mt' (mem_cons_of_mem mt hmt')
    rw [foldl_cons, condChangeTable_eq, ih hnames.2 hrest, foldl_cons,
      condChangeUpdates_congr (h mt mem_cons_self), filterMap_cons]
    cases condChangeUpdates db cond mt <;> simp

variable {table : String} {rows : AList (fun _ : RowKey => Row)} {uuid : Uuid}

theorem mem_tableRows {row : Row} :
    (uuid, row) ∈ Dbmon.tableRows rows table ↔ rows.lookup ⟨table, uuid⟩ = some row := by
  rw [Dbmon.tableRows, mem_filterMap]
  constructor
  · rintro ⟨⟨k, row'⟩, hentry, h⟩
    simp only [Option.ite_none_right_eq_some, Option.some.injEq, Prod.mk.injEq] at h
    obtain ⟨rfl, rfl, rfl⟩ := h
    exact AList.mem_lookup_iff.mpr hentry
  · intro h
    exact ⟨⟨⟨table, uuid⟩, row⟩, AList.mem_lookup_iff.mp h, by simp⟩

theorem tableRows_nodup : ((Dbmon.tableRows rows table).map Prod.fst).Nodup := by
  have hkeys : (Dbmon.tableRows rows table).map Prod.fst =
      rows.keys.filterMap fun k => if k.table = table then some k.uuid else none := by
    rw [Dbmon.tableRows, AList.keys, List.keys, map_filterMap, filterMap_map]
    apply filterMap_congr
    intro entry _
    simp only [Function.comp]
    split <;> rfl
  rw [hkeys]
  apply Nodup.filterMap _ rows.keys_nodup
  intro k k' uuid huuid huuid'
  simp only [Option.mem_def, Option.ite_none_right_eq_some, Option.some.injEq] at huuid huuid'
  cases k
  cases k'
  simp_all

theorem mem_composeCondChangeTable {update : RowUpdate} :
    (uuid, update) ∈ Dbmon.composeCondChangeTable db cond mt ↔
      condChangeRow db cond mt uuid = some update := by
  simp only [condChangeRow, Dbmon.composeCondChangeTable, mem_filterMap, Prod.exists, mem_tableRows,
    Option.map_eq_some_iff, Prod.mk.injEq, Option.bind_eq_some_iff]
  constructor
  · rintro ⟨uuid', row, hrow, update', hupdate, rfl, rfl⟩
    exact ⟨row, hrow, hupdate⟩
  · rintro ⟨row, hrow, hupdate⟩
    exact ⟨uuid, row, hrow, update, hupdate, rfl, rfl⟩

theorem composeCondChangeTable_nodup :
    ((Dbmon.composeCondChangeTable db cond mt).map Prod.fst).Nodup := by
  refine Lists.nodup_map_filterMap (fun entry member hmember => ?_) tableRows_nodup
  obtain ⟨update, -, rfl⟩ := Option.map_eq_some_iff.mp hmember
  rfl

theorem condChangeUpdates_eq_some {table : TableUpdates}
    (h : condChangeUpdates db cond mt = some table) :
    table = ⟨mt.name, Dbmon.composeCondChangeTable db cond mt⟩ := by
  obtain ⟨mtc, -, h⟩ := Option.bind_eq_some_iff.mp h
  split at h
  · cases h
  · exact tableUpdates_eq_some h

theorem condChangeUpdates_of_mem {columns : List Column} (hok : ColumnsOk columns)
    (hcond : (tableCondition (some cond) mt.name).Ok columns)
    (hne : (tableCondition (some cond) mt.name).old ≠ (tableCondition (some cond) mt.name).new)
    {row : Uuid × RowUpdate} (hrow : row ∈ Dbmon.composeCondChangeTable db cond mt) :
    condChangeUpdates db cond mt = some ⟨mt.name, Dbmon.composeCondChangeTable db cond mt⟩ := by
  unfold tableCondition at hcond hne
  simp only [bind_some] at hcond hne
  rw [condChangeUpdates]
  cases hfind : cond.find mt.name with
  | none => simp [hfind] at hne
  | some mtc =>
    rw [hfind] at hcond hne
    rw [bind_some, if_neg]
    · exact tableUpdates_of_mem hrow
    · intro heq
      exact hne (Condition.eq_of_cmp3way hok hcond.old hcond.new heq)

theorem condChangeUpdates_nodup (hnames : (tables.map MonitorTable.name).Nodup) :
    ((rowUpdates (tables.filterMap (condChangeUpdates db cond))).map Prod.fst).Nodup := by
  apply rowUpdates_nodup
  · refine Lists.nodup_map_filterMap (fun mt table htable => ?_) hnames
    rw [condChangeUpdates_eq_some htable]
  · intro table htable
    obtain ⟨mt, -, htable⟩ := mem_filterMap.mp htable
    rw [condChangeUpdates_eq_some htable]
    exact composeCondChangeTable_nodup

/-- What is sent when the conditions change takes the client from the view under the old
    conditions to the view under the new ones. -/
theorem condChangeUpdates_takes (htables : TablesOk schema tables)
    (hcond : ∀ mt ∈ tables, (tableCondition (some cond) mt.name).Ok (schema.columns mt.name))
    (hrows : RowsOk d schema db.rows.lookup) : applyUpdates d schema
      (view schema tables (fun table => (tableCondition (some cond) table).old) db.rows.lookup)
      (tables.filterMap (condChangeUpdates db cond)) =
      some (view schema tables (fun table => (tableCondition (some cond) table).new)
        db.rows.lookup) := by
  have htable : ∀ mt ∈ tables, ∀ uuid, ∃ ts, schema.table? mt.name = some ts ∧ UpdateTakes d ts
      (view schema tables (fun table => (tableCondition (some cond) table).old) db.rows.lookup
        ⟨mt.name, uuid⟩)
      (condChangeRow db cond mt uuid)
      (view schema tables (fun table => (tableCondition (some cond) table).new) db.rows.lookup
        ⟨mt.name, uuid⟩) := by
    intro mt hmt uuid
    obtain ⟨ts, hts, hcolumns, hwell⟩ := htables.table mt hmt
    have heq : schema.columns mt.name = ts.columns := columns_eq hts
    have hok := hcond mt hmt
    rw [heq] at hok
    rw [htables.view_eq hmt, htables.view_eq hmt, heq]
    refine ⟨ts, hts, ?_⟩
    rw [condChangeRow]
    cases hrow : db.rows.lookup ⟨mt.name, uuid⟩ with
    | none => rfl
    | some row =>
      have hrowOk : ∀ row', some row = some row' → RowOk d ts.columns row' := by
        intro row' hrow'
        exact heq ▸ hrows _ row' (hrow.trans hrow')
      exact composeRowUpdate2_takes hcolumns hwell countP_le_length
        (shows_row mt _) (.of_fields hcolumns hok.old hok.oldRegular fun _ _ _ => rfl)
        (.of_fields hcolumns hok.new hok.newRegular fun _ _ _ => rfl) hrowOk hrowOk (.inl rfl)
        (fun h => by cases h)
  apply applyUpdates_of_takes (condChangeUpdates_nodup htables.names)
  · rintro ⟨k, update⟩ hu
    obtain ⟨table, htableMem, hname, hmem⟩ := mem_rowUpdates.mp hu
    obtain ⟨mt, hmt, hsome⟩ := mem_filterMap.mp htableMem
    obtain rfl := condChangeUpdates_eq_some hsome
    obtain ⟨ts, hts, htakes⟩ := htable mt hmt k.uuid
    rw [mem_composeCondChangeTable.mp hmem] at htakes
    have hname : mt.name = k.table := hname
    rw [hname] at hts htakes
    exact ⟨ts, hts, htakes⟩
  · intro k hk
    cases hfind : tables.find? fun mt => mt.name == k.table with
    | none => rw [view_eq_none hfind, view_eq_none hfind]
    | some mt =>
      obtain ⟨hmt, hname⟩ := Lists.find?_beq hfind
      obtain ⟨ts, hts, htakes⟩ := htable mt hmt k.uuid
      cases hupdate : condChangeRow db cond mt k.uuid with
      | none =>
        rw [hupdate, hname] at htakes
        exact htakes
      | some update =>
        -- An update that is not sent is for a condition that stays the same.
        have hsame : (tableCondition (some cond) mt.name).old =
            (tableCondition (some cond) mt.name).new := by
          by_contra hne
          have hmem := mem_composeCondChangeTable.mpr hupdate
          obtain ⟨ts', hts', hcolumns, -⟩ := htables.table mt hmt
          have hsent := condChangeUpdates_of_mem hcolumns (columns_eq hts' ▸ hcond mt hmt) hne hmem
          exact hk (mem_map_of_mem (mem_rowUpdates.mpr
            ⟨_, mem_filterMap.mpr ⟨mt, hmt, hsent⟩, hname, hmem⟩))
        obtain ⟨table, uuid⟩ := k
        obtain rfl : mt.name = table := hname
        rw [htables.view_eq hmt, htables.view_eq hmt, hsame]

/-! ## 4. The conditions afterwards -/

/-- A session without conditions that exclude rows has only conditions that are true. -/
def Mode (tables : List MonitorTable) (cond : Option SessionCondition) : Prop :=
  Dbmon.isConditional cond = false →
    ∀ mt ∈ tables, (tableCondition cond mt.name).new.isTrue = true

theorem foldl_updated_find (h : table ∉ tables.map MonitorTable.name) :
    (tables.foldl (fun cond mt => cond.updated mt.name) cond).find table = cond.find table := by
  induction tables generalizing cond with
  | nil => rfl
  | cons mt tables ih =>
    rw [map_cons, mem_cons, not_or] at h
    rw [foldl_cons, ih h.2, find_updated_of_ne h.1]

theorem isTrue_of_setMode (h : cond.setMode.conditional = false) :
    (tableCondition (some cond) table).new.isTrue = true := by
  unfold tableCondition
  rw [bind_some]
  cases hfind : cond.find table with
  | none => rfl
  | some mtc =>
    have hall : (cond.tables.any fun mtc => !mtc.new.isTrue) = false := h
    have := any_eq_false.mp hall mtc (mem_of_find?_eq_some hfind)
    simpa using this

/-- The mode while the conditions of some tables are not updated yet. -/
def HalfMode (tables : List MonitorTable) (cond : SessionCondition) : Prop :=
  cond.conditional = false →
    (∀ mt ∈ tables, (tableCondition (some cond) mt.name).old.isTrue = true) ∨
    ∀ mt ∈ tables, (tableCondition (some cond) mt.name).new.isTrue = true

theorem updated_halfMode (h : HalfMode tables cond) : HalfMode tables (cond.updated table) := by
  rw [SessionCondition.updated]
  split
  · exact h
  · split
    · intro hmode
      right
      intro mt _
      exact isTrue_of_setMode hmode
    · exact h

theorem foldl_updated_halfMode {updated : List MonitorTable} (h : HalfMode tables cond) :
    HalfMode tables (updated.foldl (fun cond mt => cond.updated mt.name) cond) := by
  induction updated generalizing cond with
  | nil => exact h
  | cons mt updated ih => exact ih (updated_halfMode h)

variable (htables : TablesOk schema tables) (hold : ∀ mt ∈ tables,
    (tableCondition (some cond) mt.name).old.WellFormed (schema.columns mt.name))
  (hnew : ∀ mt ∈ tables,
    (tableCondition (some cond) mt.name).new.WellFormed (schema.columns mt.name))
include htables hold hnew

/-- Afterwards the old condition of a table is the new one. -/
theorem foldl_updated_settled : ∀ mt ∈ tables,
      (tableCondition (some (tables.foldl (fun cond mt => cond.updated mt.name) cond)) mt.name).old =
        (tableCondition (some cond) mt.name).new ∧
      (tableCondition (some (tables.foldl (fun cond mt => cond.updated mt.name) cond)) mt.name).new =
        (tableCondition (some cond) mt.name).new := by
  obtain ⟨hnames, htable⟩ := htables
  induction tables generalizing cond with
  | nil =>
    intro mt hmt
    cases hmt
  | cons mt tables ih =>
    rw [map_cons, nodup_cons] at hnames
    have hother : ∀ mt' ∈ tables, tableCondition (some (cond.updated mt.name)) mt'.name =
        tableCondition (some cond) mt'.name := by
      intro mt' hmt'
      apply tableCondition_eq_of_find
      apply find_updated_of_ne
      intro heq
      exact hnames.1 (heq ▸ mem_map_of_mem hmt')
    intro mt' hmt'
    rw [foldl_cons]
    rcases mem_cons.mp hmt' with rfl | hmt'
    · rw [tableCondition_eq_of_find (foldl_updated_find hnames.1)]
      obtain ⟨ts, hts, hok, -⟩ := htable mt' mem_cons_self
      exact tableCondition_updated hok (columns_eq hts ▸ hold mt' mem_cons_self)
        (columns_eq hts ▸ hnew mt' mem_cons_self)
    · rw [← hother mt' hmt']
      apply ih _ _ hnames.2 (fun mt h => htable mt (mem_cons_of_mem _ h)) mt' hmt'
      · intro mt'' hmt''
        rw [hother mt'' hmt'']
        exact hold mt'' (mem_cons_of_mem mt hmt'')
      · intro mt'' hmt''
        rw [hother mt'' hmt'']
        exact hnew mt'' (mem_cons_of_mem mt hmt'')

theorem foldl_updated_mode (hmode : cond.conditional = false →
      ∀ mt ∈ tables, (tableCondition (some cond) mt.name).old.isTrue = true) :
    Mode tables (some (tables.foldl (fun cond mt => cond.updated mt.name) cond)) := by
  have hhalf : HalfMode tables cond := fun h => .inl (hmode h)
  intro hconditional mt hmt
  obtain ⟨hsettled, hsame⟩ := foldl_updated_settled htables hold hnew mt hmt
  rcases foldl_updated_halfMode hhalf hconditional with h | h
  · rw [hsame, ← hsettled]
    exact h mt hmt
  · exact h mt hmt

end

/-! ## 5. Condition change requests -/

/-- The conditions of a session belong to the monitored tables, which have the columns
    that they name. -/
structure CondsOk (schema : Schema) (tables : List MonitorTable)
    (cond : Option SessionCondition) : Prop where
  tablesOk : TablesOk schema tables
  old : ∀ mt ∈ tables, (tableCondition cond mt.name).old.WellFormed (schema.columns mt.name)
  new : ∀ mt ∈ tables, (tableCondition cond mt.name).new.WellFormed (schema.columns mt.name)
  covers : ∀ mt ∈ tables, mt.Covers mt.columns.length (tableCondition cond mt.name).new

/-- The conditions while a request changes them. -/
abbrev CondState.Ok (schema : Schema) (s : CondState) : Prop :=
  CondsOk schema s.dbmon.tables s.condition

/-- What a request leaves alone. -/
structure CondState.Follows (s s' : CondState) : Prop where
  dbmon : s'.dbmon = { s.dbmon with tables := s'.dbmon.tables }
  tables : TablesExtend s.dbmon.tables s'.dbmon.tables
  isSome : s'.condition.isSome = s.condition.isSome
  conditional : Dbmon.isConditional s'.condition = Dbmon.isConditional s.condition
  old : ∀ table, (tableCondition s'.condition table).old = (tableCondition s.condition table).old

section
variable {d : Doubles} {schema : Schema} {ts : TableSchema} {s s' s'' : CondState}

theorem CondState.Follows.refl (s : CondState) : s.Follows s where
  dbmon := rfl
  tables := TablesExtend.refl _
  isSome := rfl
  conditional := rfl
  old _ := rfl

theorem CondState.Follows.trans (h : s.Follows s') (h' : s'.Follows s'') : s.Follows s'' where
  dbmon := by rw [h'.dbmon, h.dbmon]
  tables := TablesExtend.trans h.tables h'.tables
  isSome := h'.isSome.trans h.isSome
  conditional := h'.conditional.trans h.conditional
  old table := (h'.old table).trans (h.old table)

variable {cond : SessionCondition} {mtc : TableCondition} {table : String}

theorem tableCondition_modify_self (hfind : cond.find table = some mtc) :
    tableCondition (some (cond.modify table fun mtc => { mtc with new })) table =
      { mtc with new } := by
  rw [tableCondition, bind_some, find_modify_self, hfind]
  · rfl
  · intro _
    rfl

theorem tableCondition_modify_of_ne {table' : String} (hne : table' ≠ table) :
    tableCondition (some (cond.modify table fun mtc => { mtc with new })) table' =
      tableCondition (some cond) table' := by
  apply tableCondition_eq_of_find
  apply find_modify_of_ne _ hne
  intro _
  rfl

theorem CondState.Ok.modify (hs : s.Ok schema) (hcond : s.condition = some cond)
    (hfind : cond.find ts.name = some mtc) (hwell : new.WellFormed (schema.columns ts.name)) :
    let s' : CondState :=
      { condition := some (cond.modify ts.name fun mtc => { mtc with new })
        dbmon := s.dbmon.modifyTable ts.name fun mt => mt.addConditionColumns new }
    s'.Ok schema ∧ s.Follows s' := by
  intro s'
  have hextend : TablesExtend s.dbmon.tables s'.dbmon.tables := addColumnsTo_extend
  have htables : TablesOk schema s'.dbmon.tables := hs.tablesOk.addColumnsTo hwell
  have hmtc : tableCondition s.condition ts.name = mtc := by
    rw [hcond, tableCondition, bind_some, hfind]
    rfl
  have hself : tableCondition s'.condition ts.name = { mtc with new } :=
    tableCondition_modify_self hfind
  have hother : ∀ table, table ≠ ts.name →
      tableCondition s'.condition table = tableCondition s.condition table := by
    intro table hne
    rw [hcond]
    exact tableCondition_modify_of_ne hne
  have hold : ∀ table,
      (tableCondition s'.condition table).old = (tableCondition s.condition table).old := by
    intro table
    by_cases hne : table = ts.name
    · rw [hne, hself, hmtc]
    · rw [hother table hne]
  refine ⟨⟨htables, ?_, ?_, ?_⟩, ⟨rfl, hextend, ?_, ?_, hold⟩⟩
  · intro mt' hmt'
    obtain ⟨mt, hmt, hextends⟩ := hextend.exists_mem hmt'
    rw [hold, hextends.name]
    exact hs.old mt hmt
  · intro mt' hmt'
    obtain ⟨mt, hmt, hextends⟩ := hextend.exists_mem hmt'
    by_cases hne : mt'.name = ts.name
    · rw [hne, hself]
      exact hwell
    · rw [hother _ hne, hextends.name]
      exact hs.new mt hmt
  · intro mt' hmt'
    obtain ⟨mt, hmt, hextends⟩ := hextend.exists_mem hmt'
    by_cases hne : mt'.name = ts.name
    · rw [hne, hself]
      have hmem : mt' ∈ addColumnsTo mt'.name new s.dbmon.tables := by
        rw [hne]
        exact hmt'
      exact addColumnsTo_covers (by rw [hne]; exact htables) hmem
    · rw [hother _ hne, hextends.name]
      exact hextends.covers ((hs.covers mt hmt).mono hextends.length_le)
  · rw [hcond]
    rfl
  · rw [hcond]
    rfl

section

variable (hts : schema.table? ts.name = some ts) (hcolumns : ColumnsOk ts.columns)
  (hs : s.Ok schema)
include hts hcolumns hs

theorem tableConditionUpdate_ensures {elems : Option (List Json)} :
    Ensures (tableConditionUpdate d ts elems) s (fun _ s' => s'.Ok schema ∧ s.Follows s')
      fun _ _ => True := by
  unfold tableConditionUpdate
  apply Ensures.get_bind
  split
  · exact Ensures.pure ⟨hs, .refl s⟩
  next cond hcond =>
    split
    · exact Ensures.throw trivial
    next elems =>
      split
      · exact Ensures.throw trivial
      next condition hcondition =>
        split
        · exact Ensures.throw trivial
        next mtc hmtc =>
          have hwell := conditionFromJson_wellFormed hcolumns.uuid hcondition
          rw [← columns_eq hts] at hwell
          exact hs.modify hcond hmtc hwell

theorem parseCondChangeRequest_ensures :
    Ensures (parseCondChangeRequest d ts json) s (fun _ s' => s'.Ok schema ∧ s.Follows s')
      fun _ _ => True := by
  unfold parseCondChangeRequest
  split
  · exact Ensures.throw trivial
  · apply Ensures.ite
    · intro _
      exact Ensures.throw trivial
    · intro _
      exact tableConditionUpdate_ensures hts hcolumns hs

end

theorem table?_schema_name (h : schema.table? name = some ts) : ts.name = name := by
  have hname := find?_some h
  exact eq_of_beq hname

/-- Conditions that are stored are well-formed. -/
theorem condChangeTableRequests_ensures (hs : s.Ok schema) :
    Ensures (condChangeTableRequests d schema name json) s
      (fun _ s' => s'.Ok schema ∧ s.Follows s') fun _ _ => True := by
  unfold condChangeTableRequests
  split
  · exact Ensures.throw trivial
  next ts hts =>
    have hname := table?_schema_name hts
    apply Ensures.get_bind
    apply Ensures.ite
    · intro _
      exact Ensures.throw trivial
    · intro hfound
      rw [Option.isNone_iff_eq_none] at hfound
      obtain ⟨mt, hmt⟩ := Option.ne_none_iff_exists'.mp hfound
      obtain ⟨ts', hts', hcolumns, -⟩ := hs.tablesOk.table mt (mem_of_find?_eq_some hmt)
      rw [table?_name hmt] at hts'
      obtain rfl : ts = ts' := Option.some.inj (hts.symm.trans hts')
      split
      next elems =>
        apply Ensures.forM (I := fun _ s' => s'.Ok schema ∧ s.Follows s') ⟨hs, .refl s⟩
        rintro pre elem post s' - ⟨hok, hfollows⟩
        apply (parseCondChangeRequest_ensures (hname ▸ hts) hcolumns hok).post
        rintro _ s'' ⟨hok', hfollows'⟩
        exact ⟨hok', hfollows.trans hfollows'⟩
      · exact Ensures.throw trivial

theorem condChangeRequests_ensures (hs : s.Ok schema) (requests : List (String × Json)) :
    Ensures (condChangeRequests d schema requests) s
      (fun _ s' => s'.Ok schema ∧ s.Follows s') fun _ _ => True := by
  apply Ensures.forM (I := fun _ s' => s'.Ok schema ∧ s.Follows s') ⟨hs, .refl s⟩
  rintro pre ⟨name, json⟩ post s' - ⟨hok, hfollows⟩
  apply (condChangeTableRequests_ensures hok).post
  rintro _ s'' ⟨hok', hfollows'⟩
  exact ⟨hok', hfollows.trans hfollows'⟩

end

end Ovsgw.Ovsdb
