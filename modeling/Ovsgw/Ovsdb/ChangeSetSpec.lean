/-
  **Change sets follow the database.**

  Every change set of a `struct ovsdb_monitor` describes how the monitored tables changed since some
  moment, the start of the change set.  Transactions, requests and updates keep it so.
-/
import Ovsgw.Ovsdb.CondChangeSpec

namespace Ovsgw.Ovsdb

open List
open Function (update update_of_ne update_self)

/-! ## 1. One change -/

/-- A change of a row of the database, with all columns that differ. -/
structure Change.Valid (d : Doubles) (schema : Schema) (rows : RowKey → Option Row)
    (change : Change) : Prop where
  old : change.old = rows change.key
  isSome : change.old.isSome ∨ change.new.isSome
  new : ∀ row, change.new = some row → RowOk d (schema.columns change.key.table) row
  changed : ∀ old new, change.old = some old → change.new = some new →
    ∀ i, i ∉ change.changed → old.datum i = new.datum i

def Change.after (change : Change) (rows : RowKey → Option Row) : RowKey → Option Row :=
  update rows change.key change.new

section
variable {d : Doubles} {schema : Schema} {columns : List Column} {mt mt' : MonitorTable}
  {mcst : TableChanges} {mcs : ChangeSet} {start now : RowKey → Option Row} {change : Change}
  {tables : List MonitorTable} {new old : Option Row} {uuid : Uuid}

theorem changesUpdate_frame : (changesUpdate mt uuid old new mcst).table = mcst.table ∧
    (changesUpdate mt uuid old new mcst).nColumns = mcst.nColumns := by
  unfold changesUpdate
  split
  · exact ⟨rfl, rfl⟩
  · split
    · exact ⟨rfl, rfl⟩
    · split <;> exact ⟨rfl, rfl⟩

theorem updateRow_cloneRow (hok : ColumnsOk columns) (hmt : mt.WellFormed columns)
    {old new : Row} (hold : RowOk d columns old) (hnew : RowOk d columns new) {n : Nat} :
    mt.updateRow new (mt.cloneRow old n) n = mt.cloneRow new n := by
  apply ext_getElem?
  intro i
  have hclone : (mt.cloneRow new n)[i]? =
      ((mt.columns.take n)[i]?).map fun c => new.datum c.index := getElem?_map
  rw [hclone, MonitorTable.updateRow, getElem?_map, getElem?_zipIdx]
  cases hc : (mt.columns.take n)[i]? with
  | none => rfl
  | some c =>
    rw [getElem?_take] at hc
    split at hc
    next hi =>
      have hcolumn := hmt.column c (mem_of_getElem? hc)
      simp only [Option.map_some, Nat.zero_add, cloneRow_getD hi hc]
      split
      next hequals =>
        rw [Datum.eq_of_equals (hok.exact c.column (mem_of_getElem? hcolumn))
          (hnew.typed c.index c.column hcolumn) (hold.typed c.index c.column hcolumn) hequals]
      next => rfl
    next => cases hc

/-- A change is merged into the note of its row alone. -/
theorem changesUpdate_notes (hok : ColumnsOk columns) (hmt : mt.WellFormed columns)
    (hold : ∀ row, old = some row → RowOk d columns row)
    (hnew : ∀ row, new = some row → RowOk d columns row)
    (hlast : ∀ row, mcst.rows.lookup uuid = some row →
      old.map (mt.cloneRow · mcst.nColumns) = row.new) :
    (changesUpdate mt uuid old new mcst).notes uuid =
        NetChange.merge (mcst.notes uuid) (old.map (mt.cloneRow · mcst.nColumns))
          (new.map (mt.cloneRow · mcst.nColumns)) ∧ ∀ uuid', uuid' ≠ uuid →
        (changesUpdate mt uuid old new mcst).notes uuid' = mcst.notes uuid' := by
  unfold changesUpdate TableChanges.notes
  cases hrow : mcst.rows.lookup uuid with
  | none =>
    constructor
    · simp [AList.lookup_insert, NetChange.merge]
    · intro uuid' hne
      simp [AList.lookup_insert_ne hne]
  | some row =>
    have hlast := hlast row hrow
    cases new with
    | none =>
      simp only
      split
      next hnone =>
        constructor
        · simp [NetChange.merge, hnone]
        · intro uuid' hne
          simp [AList.lookup_erase_ne hne]
      next hsome =>
        constructor
        · simp [NetChange.merge, hsome]
        · intro uuid' hne
          simp [AList.lookup_insert_ne hne]
    | some w =>
      have hdata : (row.new.elim (mt.cloneRow w mcst.nColumns) fun data =>
          mt.updateRow w data mcst.nColumns) = mt.cloneRow w mcst.nColumns := by
        cases old with
        | none =>
          rw [← hlast]
          rfl
        | some o =>
          rw [← hlast]
          exact updateRow_cloneRow hok hmt (hold o rfl) (hnew w rfl)
      constructor
      · simp [NetChange.merge, hdata]
      · intro uuid' hne
        simp [AList.lookup_insert_ne hne]

theorem TableChanges.Tracks.skip {now' : RowKey → Option Row} (hmcst : mcst.Tracks mt start now)
    (h : ∀ uuid, (now' ⟨mt.name, uuid⟩).map (mt.cloneRow · mcst.nColumns) =
      (now ⟨mt.name, uuid⟩).map (mt.cloneRow · mcst.nColumns)) : mcst.Tracks mt start now' where
  monitored := hmcst.monitored
  columns := hmcst.columns
  describes := hmcst.describes.skip h

theorem Change.after_of_ne {k : RowKey} (h : k ≠ change.key) : change.after now k = now k := by
  rw [Change.after, update_of_ne h]

theorem Change.after_self : change.after now change.key = change.new := by
  rw [Change.after, update_self]

variable (hvalid : change.Valid d schema now)
include hvalid

theorem datum_eq_of_noEffect (heffect : change.efficacy mt = .noEffect) :
    ∃ old new, change.old = some old ∧ change.new = some new ∧
      ∀ c ∈ mt.columns, old.datum c.index = new.datum c.index := by
  unfold Change.efficacy changesClassify at heffect
  split at heffect
  next hmodify =>
    obtain ⟨htype, hchanged⟩ := hmodify
    cases hold : change.old with
    | none => simp [hold, rowUpdateType] at htype
    | some old =>
      cases hnew : change.new with
      | none => simp [hold, hnew, rowUpdateType] at htype
      | some new =>
        refine ⟨old, new, rfl, rfl, ?_⟩
        intro c hc
        apply hvalid.changed old new hold hnew
        intro hmem
        have hnone : mt.columnsChanged change.changed = false := by simpa using hchanged
        have := any_eq_false.mp hnone c hc
        simp [hmem] at this
  next =>
    dsimp only at heffect
    split_ifs at heffect

theorem cloneRow_eq_of_noEffect (heffect : change.efficacy mt = .noEffect) (n : Nat) :
    change.new.map (mt.cloneRow · n) = change.old.map (mt.cloneRow · n) := by
  obtain ⟨old, new, hold, hnew, hdatum⟩ := datum_eq_of_noEffect hvalid heffect
  rw [hold, hnew, Option.map_some, Option.map_some, MonitorTable.cloneRow, MonitorTable.cloneRow]
  congr 1
  apply map_congr_left
  intro c hc
  exact (hdatum c (mem_of_mem_take hc)).symm

variable (hnow : RowsOk d schema now)
include hnow

theorem Change.Valid.rowsOk : RowsOk d schema (change.after now) := by
  intro k row hrow
  by_cases hk : k = change.key
  · subst hk
    rw [Change.after_self] at hrow
    exact hvalid.new row hrow
  · rw [Change.after_of_ne hk] at hrow
    exact hnow k row hrow

theorem TableChanges.Tracks.record {ts : TableSchema} (hmcst : mcst.Tracks mt start now)
    (hts : schema.table? mt.name = some ts) (hok : ColumnsOk ts.columns)
    (hmt : mt.WellFormed ts.columns) (hname : mt.name = change.key.table) :
    (changesUpdate mt change.key.uuid change.old change.new mcst).Tracks mt start
      (change.after now) := by
  have hcolumns : schema.columns change.key.table = ts.columns := hname ▸ columns_eq hts
  have hkey : RowKey.mk mt.name change.key.uuid = change.key := by
    cases hk : change.key
    simp_all
  have hold : ∀ row, change.old = some row → RowOk d ts.columns row := by
    intro row hrow
    rw [hvalid.old] at hrow
    exact hcolumns ▸ hnow _ row hrow
  have hnew : ∀ row, change.new = some row → RowOk d ts.columns row := by
    intro row hrow
    exact hcolumns ▸ hvalid.new row hrow
  have hlast : ∀ row, mcst.rows.lookup change.key.uuid = some row →
      change.old.map (mt.cloneRow · mcst.nColumns) = row.new := by
    intro row hrow
    have hnote := hmcst.describes change.key.uuid
    rw [TableChanges.notes, hrow] at hnote
    rw [hvalid.old, ← hkey]
    exact hnote.2.1
  have hn : (changesUpdate mt change.key.uuid change.old change.new mcst).nColumns =
      mcst.nColumns := changesUpdate_frame.2
  obtain ⟨hnote, hother⟩ := changesUpdate_notes hok hmt hold hnew hlast
  constructor
  · rw [hn]
    exact hmcst.monitored
  · rw [hn]
    exact hmcst.columns
  · rw [hn]
    apply hmcst.describes.record change.key.uuid (change.old.map (mt.cloneRow · mcst.nColumns))
      (change.new.map (mt.cloneRow · mcst.nColumns))
    · rw [rowsOf, hkey, hvalid.old]
    · rw [rowsOf, hkey, Change.after_self]
    · simpa using hvalid.isSome
    · intro uuid hne
      apply Change.after_of_ne
      intro heq
      exact hne (congrArg RowKey.uuid heq)
    · exact hnote
    · exact hother

/-- A transaction of the history is recorded as a change of rows. -/
theorem historyChangeCb_tracks {dbmon : Dbmon} (htables : TablesOk schema dbmon.tables)
    (hmcs : mcs.Tracks dbmon.tables start now) :
    (dbmon.historyChangeCb mcs change).Tracks dbmon.tables start (change.after now) := by
  -- Other tables have the rows that they had.
  have hother : ∀ mt ∈ dbmon.tables, mt.name ≠ change.key.table → ∀ mcst : TableChanges,
      mcst.Tracks mt start now → mcst.Tracks mt start (change.after now) := by
    intro mt _ hne mcst hmcst
    apply hmcst.skip
    intro uuid
    rw [Change.after_of_ne]
    intro heq
    exact hne (congrArg RowKey.table heq)
  rw [Dbmon.historyChangeCb]
  split
  next hfind =>
    constructor
    · exact hmcs.names
    · intro mcst hmcst mt hmt hname
      apply hother mt hmt _ mcst (hmcs.changes mcst hmcst mt hmt hname)
      intro heq
      have := find?_eq_none.mp hfind mt hmt
      simp [heq] at this
  next mt hfind =>
    have hmt : mt ∈ dbmon.tables := mem_of_find?_eq_some hfind
    have hname := table?_name hfind
    have hunique : ∀ mt' ∈ dbmon.tables, mt'.name = change.key.table → mt' = mt := by
      intro mt' hmt' hname'
      have hfind' := htables.find hmt'
      rw [hname'] at hfind'
      exact Option.some.inj (hfind'.symm.trans hfind)
    split
    next heffect =>
      constructor
      · exact hmcs.names
      · intro mcst hmcst mt' hmt' hmcstname
        have htracks := hmcs.changes mcst hmcst mt' hmt' hmcstname
        by_cases hne : mt'.name = change.key.table
        · obtain rfl := hunique mt' hmt' hne
          apply htracks.skip
          intro uuid
          by_cases hk : RowKey.mk mt'.name uuid = change.key
          · rw [hk, Change.after_self, cloneRow_eq_of_noEffect hvalid heffect, hvalid.old]
          · rw [Change.after_of_ne hk]
        · exact hother mt' hmt' hne mcst htracks
    next heffect =>
      obtain ⟨ts, hts, hok, hwell⟩ := htables.table mt hmt
      constructor
      · rw [← hmcs.names, ChangeSet.note, map_map]
        apply map_congr_left
        intro mcst _
        simp only [Function.comp]
        split
        · exact changesUpdate_frame.1
        · rfl
      · intro mcst' hmcst' mt' hmt' hmcstname
        obtain ⟨mcst, hmcst, rfl⟩ := mem_map.mp hmcst'
        split at hmcstname
        next hnoted =>
          rw [if_pos hnoted]
          rw [changesUpdate_frame.1] at hmcstname
          obtain rfl := hunique mt' hmt' (hmcstname.symm.trans (hnoted.trans hname))
          exact (hmcs.changes mcst hmcst mt' hmt' hnoted).record hvalid hnow hts hok hwell hname
        next hnoted =>
          rw [if_neg hnoted]
          apply hother mt' hmt' _ mcst (hmcs.changes mcst hmcst mt' hmt' hmcstname)
          rw [← hmcstname, ← hname]
          exact hnoted

end

/-! ## 2. Transactions -/

def rowsAfter (changes : List Change) (rows : RowKey → Option Row) : RowKey → Option Row :=
  changes.foldl (fun rows change => change.after rows) rows

/-- Without conditions every row is in the view. -/
abbrev fullView (schema : Schema) (tables : List MonitorTable) (rows : RowKey → Option Row) :
    Replica :=
  view schema tables (fun _ => {}) rows

/-- Each change of a transaction starts from the rows that the ones before it leave. -/
def ValidChanges (d : Doubles) (schema : Schema) :
    (rows : RowKey → Option Row) → List Change → Prop
  | _, [] => True
  | rows, change :: changes =>
    change.Valid d schema rows ∧ ValidChanges d schema (change.after rows) changes

section
variable {d : Doubles} {schema : Schema} {mcs : ChangeSet} {start now : RowKey → Option Row}
  {dbmon : Dbmon} {changes : List Change}

theorem applyChanges_lookup (changes : List Change) (rows : AList (fun _ : RowKey => Row)) :
    (Backend.applyChanges rows changes).lookup = rowsAfter changes rows.lookup := by
  induction changes generalizing rows with
  | nil => rfl
  | cons change changes ih =>
    have hstep : (Backend.applyChanges rows [change]).lookup = change.after rows.lookup := by
      funext k
      rw [Backend.applyChanges, foldl_cons, foldl_nil]
      by_cases hk : k = change.key
      · subst hk
        rw [Change.after_self]
        split
        next row hrow => rw [AList.lookup_insert, hrow]
        next hnone => rw [AList.lookup_erase, hnone]
      · rw [Change.after_of_ne hk]
        split
        · exact AList.lookup_insert_ne hk
        · exact AList.lookup_erase_ne hk
    rw [rowsAfter, foldl_cons, ← hstep]
    exact ih (Backend.applyChanges rows [change])

theorem ValidChanges.rowsOk (hvalid : ValidChanges d schema now changes)
    (hnow : RowsOk d schema now) : RowsOk d schema (rowsAfter changes now) := by
  induction changes generalizing now with
  | nil => exact hnow
  | cons change changes ih => exact ih hvalid.2 (hvalid.1.rowsOk hnow)

theorem foldl_historyChangeCb_tracks (htables : TablesOk schema dbmon.tables)
    (hmcs : mcs.Tracks dbmon.tables start now) (hnow : RowsOk d schema now)
    (hvalid : ValidChanges d schema now changes) :
    (changes.foldl dbmon.historyChangeCb mcs).Tracks dbmon.tables start
      (rowsAfter changes now) := by
  induction changes generalizing mcs now with
  | nil => exact hmcs
  | cons change changes ih =>
    exact ih (historyChangeCb_tracks hvalid.1 hnow htables hmcs) (hvalid.1.rowsOk hnow) hvalid.2

/-- Changes leave everything of a change set but its tables alone. -/
theorem foldl_historyChangeCb_eq (dbmon : Dbmon) (changes : List Change) (mcs : ChangeSet) :
    ∃ tables, changes.foldl dbmon.historyChangeCb mcs = { mcs with tables } := by
  induction changes generalizing mcs with
  | nil => exact ⟨mcs.tables, rfl⟩
  | cons change changes ih =>
    obtain ⟨tables, hstep⟩ : ∃ tables, dbmon.historyChangeCb mcs change = { mcs with tables } := by
      rw [Dbmon.historyChangeCb]
      split
      · exact ⟨_, rfl⟩
      · split <;> exact ⟨_, rfl⟩
    rw [foldl_cons, hstep]
    exact ih _

theorem foldl_historyChangeCb_id : (changes.foldl dbmon.historyChangeCb mcs).id = mcs.id := by
  obtain ⟨_, heq⟩ := foldl_historyChangeCb_eq dbmon changes mcs
  rw [heq]

theorem foldl_historyChangeCb_prevTxn :
    (changes.foldl dbmon.historyChangeCb mcs).prevTxn = mcs.prevTxn := by
  obtain ⟨_, heq⟩ := foldl_historyChangeCb_eq dbmon changes mcs
  rw [heq]

/-- A change has no effect on what is monitored. -/
def NoEffect (dbmon : Dbmon) (change : Change) : Prop :=
  ∀ mt, dbmon.table? change.key.table = some mt → change.efficacy mt = .noEffect

theorem efficacy_of_select (change : Change) {mt : MonitorTable}
    (h : mt.select = ⟨true, true, true, true⟩) :
    change.efficacy mt = .noEffect ∨ change.efficacy mt = .externalUpdate := by
  unfold Change.efficacy changesClassify
  rw [h]
  split
  · exact .inl rfl
  · right
    unfold rowUpdateType
    cases change.old.isSome <;> cases change.new.isSome <;> rfl

theorem NoEffect.historyChangeCb {change : Change} (h : NoEffect dbmon change) :
    dbmon.historyChangeCb mcs change = mcs := by
  rw [Dbmon.historyChangeCb]
  split
  · rfl
  next mt hmt => rw [if_pos (h mt hmt)]

theorem foldl_historyChangeCb_of_noEffect (h : ∀ change ∈ changes, NoEffect dbmon change) :
    changes.foldl dbmon.historyChangeCb mcs = mcs := by
  induction changes with
  | nil => rfl
  | cons change changes ih =>
    rw [foldl_cons, (h change mem_cons_self).historyChangeCb]
    exact ih fun change' hchange' => h change' (mem_cons_of_mem change hchange')

section

variable (htables : TablesOk schema dbmon.tables)
include htables

theorem changeCb_eq (efficacy : Efficacy) (change : Change) :
    Dbmon.changeCb (dbmon, efficacy) change =
        ({ dbmon with changeSets := dbmon.changeSets.map (dbmon.historyChangeCb · change) },
          .externalUpdate) ∨
      NoEffect dbmon change ∧ Dbmon.changeCb (dbmon, efficacy) change = (dbmon, efficacy) := by
  have hmax : ∀ e : Efficacy, e.max .noEffect = e ∧ e.max .externalUpdate = .externalUpdate := by
    intro e
    cases e <;> exact ⟨rfl, rfl⟩
  cases hfind : dbmon.table? change.key.table with
  | none =>
    right
    constructor
    · intro mt hmt
      cases hfind.symm.trans hmt
    · simp only [Dbmon.changeCb, hfind]
  | some mt =>
    obtain ⟨ts, -, -, hwell⟩ := htables.table mt (mem_of_find?_eq_some hfind)
    rcases efficacy_of_select change hwell.select with heffect | heffect
    · right
      constructor
      · intro mt' hmt'
        obtain rfl : mt = mt' := Option.some.inj (hfind.symm.trans hmt')
        exact heffect
      · simp only [Dbmon.changeCb, hfind, heffect, if_true, (hmax efficacy).1]
    · left
      have hnote : (dbmon.historyChangeCb · change) = ChangeSet.note mt change := by
        funext mcs
        simp [Dbmon.historyChangeCb, hfind, heffect]
      simp only [Dbmon.changeCb, hfind, heffect, hnote, (hmax efficacy).2]
      rfl

theorem foldl_changeCb_eq (efficacy : Efficacy) (changes : List Change) :
    changes.foldl Dbmon.changeCb (dbmon, efficacy) =
        ({ dbmon with
            changeSets := dbmon.changeSets.map fun mcs => changes.foldl dbmon.historyChangeCb mcs },
          .externalUpdate) ∨
      (∀ change ∈ changes, NoEffect dbmon change) ∧
        changes.foldl Dbmon.changeCb (dbmon, efficacy) = (dbmon, efficacy) := by
  induction changes generalizing dbmon efficacy with
  | nil =>
    right
    constructor
    · intro change hchange
      cases hchange
    · rfl
  | cons change changes ih =>
    simp only [foldl_cons]
    rcases changeCb_eq htables efficacy change with hfirst | ⟨hfirst, heq⟩
    · left
      rw [hfirst]
      have htables' : TablesOk schema ({ dbmon with
          changeSets := dbmon.changeSets.map (dbmon.historyChangeCb · change) } : Dbmon).tables :=
        htables
      rcases ih htables' .externalUpdate with hrest | ⟨hrest, heq⟩
      · rw [hrest]
        simp only [map_map]
        rfl
      · have hrest : ∀ change ∈ changes, NoEffect dbmon change := hrest
        rw [heq]
        simp only [foldl_historyChangeCb_of_noEffect hrest]
    · rw [heq]
      rcases ih htables efficacy with hrest | ⟨hrest, heq'⟩
      · left
        rw [hrest]
        simp only [hfirst.historyChangeCb]
      · right
        rw [heq']
        exact ⟨forall_mem_cons.mpr ⟨hfirst, hrest⟩, rfl⟩

/-- A transaction that changes something monitored is noted by all change sets and makes
    the cache and the new change set old; any other leaves everything as it is. -/
theorem Dbmon.commit_eq : dbmon.commit changes =
        { dbmon with
          changeSets := dbmon.changeSets.map fun mcs => changes.foldl dbmon.historyChangeCb mcs
          newChangeSet := none
          jsonCache := [] } ∨
      (∀ change ∈ changes, NoEffect dbmon change) ∧ dbmon.commit changes = dbmon := by
  rw [Dbmon.commit]
  rcases foldl_changeCb_eq htables .noEffect changes with h | ⟨hnone, h⟩
  · left
    rw [h]
  · right
    rw [h]
    exact ⟨hnone, rfl⟩

theorem fullView_of_noEffect (hvalid : ValidChanges d schema now changes)
    (h : ∀ change ∈ changes, NoEffect dbmon change) :
    fullView schema dbmon.tables (rowsAfter changes now) = fullView schema dbmon.tables now := by
  induction changes generalizing now with
  | nil => rfl
  | cons change changes ih =>
    have hrest := ih hvalid.2 fun change' h' => h change' (mem_cons_of_mem change h')
    refine hrest.trans ?_
    funext k
    by_cases hk : k = change.key
    · subst hk
      cases hfind : dbmon.table? change.key.table with
      | none => rw [fullView, fullView, view_eq_none hfind, view_eq_none hfind]
      | some mt =>
        have hmt : mt ∈ dbmon.tables := mem_of_find?_eq_some hfind
        obtain ⟨ts, hts, -, hwell⟩ := htables.table mt hmt
        have hname := table?_name hfind
        have hfind' : dbmon.tables.find? (fun mt => mt.name == change.key.table) = some mt := hfind
        have hclone := cloneRow_eq_of_noEffect hvalid.1
          (h change mem_cons_self mt hfind) mt.columns.length
        rw [hvalid.1.old] at hclone
        rw [fullView, fullView, view, view, hfind', Option.bind_some,
          Option.bind_some, Change.after_self]
        rw [← hname, columns_eq hts]
        exact viewRow_eq_of_cloneRow hwell countP_le_length
          (fun _ _ _ => iff_of_true (.inl rfl) (.inl rfl)) hclone
    · rw [fullView, fullView, view, view, Change.after_of_ne hk]

end

end

/-! ## 3. The change sets and the cache -/

/-- The state of a monitor, when its change set with the number `id` starts from the rows
    `start id` and the database has the rows `now`.  `left txnid` says of rows that the
    transaction `txnid` left them. -/
structure Dbmon.Ok (d : Doubles) (schema : Schema) (left : Uuid → (RowKey → Option Row) → Prop)
    (start : Nat → RowKey → Option Row) (now : RowKey → Option Row) (dbmon : Dbmon) : Prop where
  tables : TablesOk schema dbmon.tables
  rows : RowsOk d schema now
  ids : (dbmon.changeSets.map ChangeSet.id).Nodup
  idLt : ∀ mcs ∈ dbmon.changeSets, mcs.id < dbmon.nextId
  starts : ∀ mcs ∈ dbmon.changeSets, RowsOk d schema (start mcs.id)
  prevTxn : ∀ mcs ∈ dbmon.changeSets, left mcs.prevTxn (start mcs.id)
  tracks : ∀ mcs ∈ dbmon.changeSets, mcs.Tracks dbmon.tables (start mcs.id) now
  newLt : ∀ id, dbmon.newChangeSet = some id → id < dbmon.nextId
  fresh : ∀ mcs ∈ dbmon.changeSets, dbmon.newChangeSet = some mcs.id →
    ∀ mcst ∈ mcs.tables, mcst.rows = ∅
  cacheLt : ∀ node ∈ dbmon.jsonCache, node.changeSet < dbmon.nextId
  cache : ∀ node ∈ dbmon.jsonCache, node.version ≠ .v1 →
    applyUpdates d schema (fullView schema dbmon.tables (start node.changeSet)) node.json =
      some (fullView schema dbmon.tables now)

section
variable {d : Doubles} {schema : Schema} {mcs : ChangeSet}
  {left : Uuid → (RowKey → Option Row) → Prop} {start : Nat → RowKey → Option Row}
  {now : RowKey → Option Row} {dbmon : Dbmon} {changes : List Change} {tables : List MonitorTable}
  {prevTxn : Uuid} {id : Nat}

theorem updateFirst_map {α β : Type} {p : α → Bool} {f : α → α} {g : α → β} (h : ∀ a, g (f a) = g a)
    {l : List α} : (updateFirst p f l).map g = l.map g := by
  induction l with
  | nil => rfl
  | cons a l ih =>
    rw [updateFirst]
    split
    · rw [map_cons, map_cons, h]
    · rw [map_cons, map_cons, ih]

def emptyChangeSet (tables : List MonitorTable) (id : Nat) (prevTxn : Uuid) : ChangeSet where
  id
  tables := tables.map fun mt => { table := mt.name, nColumns := mt.columns.length }
  prevTxn

theorem mem_emptyChangeSet (htables : TablesOk schema tables)
    {mcst : TableChanges} {mt : MonitorTable}
    (hmcst : mcst ∈ (emptyChangeSet tables id prevTxn).tables) (hmt : mt ∈ tables)
    (hname : mcst.table = mt.name) :
    mcst = { table := mt.name, nColumns := mt.columns.length } := by
  obtain ⟨mt', hmt', rfl⟩ := mem_map.mp hmcst
  have hname : mt'.name = mt.name := hname
  have hfind := htables.find hmt'
  rw [hname, htables.find hmt] at hfind
  cases hfind
  rfl

theorem emptyChangeSet_tracks (htables : TablesOk schema tables) (id : Nat) (prevTxn : Uuid)
    (now : RowKey → Option Row) : (emptyChangeSet tables id prevTxn).Tracks tables now now := by
  constructor
  · rw [emptyChangeSet, map_map]
    rfl
  · intro mcst hmcst mt hmt hname
    rw [mem_emptyChangeSet htables hmcst hmt hname]
    constructor
    · exact countP_le_length
    · exact le_refl _
    · exact NetChange.Describes.refl _

theorem addChangeSet_eq (htables : TablesOk schema dbmon.tables) {initOnly : Bool}
    : dbmon.addChangeSet initOnly prevTxn = (emptyChangeSet dbmon.tables dbmon.nextId prevTxn,
        { dbmon with
          changeSets := dbmon.changeSets ++ [emptyChangeSet dbmon.tables dbmon.nextId prevTxn]
          nextId := dbmon.nextId + 1 }) := by
  have hfilter : (dbmon.tables.filter fun mt => !initOnly || mt.select.initial) = dbmon.tables := by
    rw [filter_eq_self]
    intro mt hmt
    obtain ⟨ts, -, -, hwell⟩ := htables.table mt hmt
    rw [hwell.select, Bool.or_true]
  rw [Dbmon.addChangeSet, hfilter]
  rfl

variable (h : dbmon.Ok d schema left start now)
include h

/-- Change sets that come from those that are there, with at most the new change set and the
    cache that are there. -/
theorem Dbmon.Ok.of_changeSets {changeSets : List ChangeSet} {newChangeSet : Option Nat}
    {jsonCache : List CacheNode} {now' : RowKey → Option Row} (hrows : RowsOk d schema now')
    (hids : (changeSets.map ChangeSet.id).Nodup)
    (hmem : ∀ mcs' ∈ changeSets, ∃ mcs ∈ dbmon.changeSets, mcs'.id = mcs.id ∧
      mcs'.prevTxn = mcs.prevTxn ∧ mcs'.Tracks dbmon.tables (start mcs.id) now' ∧
      (newChangeSet = some mcs.id → mcs'.tables = mcs.tables))
    (hnew : ∀ id, newChangeSet = some id → dbmon.newChangeSet = some id)
    (hcache : ∀ node ∈ jsonCache, node ∈ dbmon.jsonCache ∧ now' = now) :
    { dbmon with changeSets, newChangeSet, jsonCache }.Ok d schema left start now' where
  tables := h.tables
  rows := hrows
  ids := hids
  idLt mcs' hmcs' := by
    obtain ⟨mcs, hmcs, hid, -⟩ := hmem mcs' hmcs'
    exact hid ▸ h.idLt mcs hmcs
  starts mcs' hmcs' := by
    obtain ⟨mcs, hmcs, hid, -⟩ := hmem mcs' hmcs'
    exact hid ▸ h.starts mcs hmcs
  prevTxn mcs' hmcs' := by
    obtain ⟨mcs, hmcs, hid, hprev, -⟩ := hmem mcs' hmcs'
    rw [hid, hprev]
    exact h.prevTxn mcs hmcs
  tracks mcs' hmcs' := by
    obtain ⟨mcs, -, hid, -, htracks, -⟩ := hmem mcs' hmcs'
    exact hid ▸ htracks
  newLt id hid := h.newLt id (hnew id hid)
  fresh mcs' hmcs' hid' := by
    obtain ⟨mcs, hmcs, hid, -, -, htables⟩ := hmem mcs' hmcs'
    rw [hid] at hid'
    rw [htables hid']
    exact h.fresh mcs hmcs (hnew _ hid')
  cacheLt node hnode := h.cacheLt node (hcache node hnode).1
  cache node hnode := by
    obtain ⟨hold, rfl⟩ := hcache node hnode
    exact h.cache node hold

theorem Dbmon.Ok.commit (hvalid : ValidChanges d schema now changes) :
    (dbmon.commit changes).Ok d schema left start (rowsAfter changes now) := by
  have htracks : ∀ mcs ∈ dbmon.changeSets,
      (changes.foldl dbmon.historyChangeCb mcs).Tracks dbmon.tables (start mcs.id)
        (rowsAfter changes now) := by
    intro mcs hmcs
    exact foldl_historyChangeCb_tracks h.tables (h.tracks mcs hmcs) h.rows hvalid
  rcases Dbmon.commit_eq h.tables with heq | ⟨hnone, heq⟩
  · rw [heq]
    refine h.of_changeSets (hvalid.rowsOk h.rows) ?_ ?_ nofun nofun
    · simp only [map_map, Function.comp_def, foldl_historyChangeCb_id]
      exact h.ids
    · intro mcs' hmcs'
      obtain ⟨mcs, hmcs, rfl⟩ := mem_map.mp hmcs'
      exact ⟨mcs, hmcs, foldl_historyChangeCb_id, foldl_historyChangeCb_prevTxn,
        htracks mcs hmcs, nofun⟩
  · rw [heq]
    have hview := fullView_of_noEffect h.tables hvalid hnone
    refine { h with rows := hvalid.rowsOk h.rows, tracks := ?_, cache := ?_ }
    · intro mcs hmcs
      have := htracks mcs hmcs
      rw [foldl_historyChangeCb_of_noEffect hnone] at this
      exact this
    · intro node hnode hversion
      rw [hview]
      exact h.cache node hnode hversion

theorem Dbmon.Ok.extend
    (hextend : TablesExtend dbmon.tables tables) (htables : TablesOk schema tables) :
    { dbmon with tables }.Ok d schema left start now := by
  refine { h with tables := htables, tracks := ?_, cache := ?_ }
  · intro mcs hmcs
    exact (h.tracks mcs hmcs).of_extends hextend
  · intro node hnode hversion
    rw [fullView, fullView, hextend.view_eq, hextend.view_eq]
    exact h.cache node hnode hversion

theorem Dbmon.Ok.setRefs (id nRefs : Nat) :
    (dbmon.setRefs id nRefs).Ok d schema left start now := by
  refine h.of_changeSets h.rows ?_ ?_ (fun _ hid => hid) fun _ hnode => ⟨hnode, rfl⟩
  · rw [updateFirst_map (by exact fun _ => rfl)]
    exact h.ids
  · intro mcs' hmcs'
    rcases mem_updateFirst hmcs' with hmcs | ⟨mcs, hmcs, -, rfl⟩
    · exact ⟨mcs', hmcs, rfl, rfl, h.tracks mcs' hmcs, fun _ => rfl⟩
    · exact ⟨mcs, hmcs, rfl, rfl, { h.tracks mcs hmcs with }, fun _ => rfl⟩

theorem Dbmon.Ok.untrack (mcs : ChangeSet) :
    (dbmon.untrackChangeSet mcs).Ok d schema left start now := by
  rw [Dbmon.untrackChangeSet]
  split
  · refine { h.of_changeSets h.rows ((filter_sublist.map _).nodup h.ids) ?_ ?_
      fun node hnode => ⟨mem_of_mem_filter hnode, rfl⟩ with }
    · intro mcs' hmcs'
      have hmcs := mem_of_mem_filter hmcs'
      exact ⟨mcs', hmcs, rfl, rfl, h.tracks mcs' hmcs, fun _ => rfl⟩
    · intro id hnew
      split at hnew
      · cases hnew
      · exact hnew
  · exact h.setRefs mcs.id (mcs.nRefs - 1)

theorem Dbmon.Ok.addCache {node : CacheNode}
    (hlt : node.changeSet < dbmon.nextId) (hnode : node.version ≠ .v1 →
      applyUpdates d schema (fullView schema dbmon.tables (start node.changeSet)) node.json =
        some (fullView schema dbmon.tables now)) :
    { dbmon with jsonCache := node :: dbmon.jsonCache }.Ok d schema left start now := by
  exact { h with
    cacheLt := forall_mem_cons.mpr ⟨hlt, h.cacheLt⟩
    cache := forall_mem_cons.mpr ⟨hnode, h.cache⟩ }

/-- A change set from the rows that a transaction left is added. -/
theorem Dbmon.Ok.add (mcs : ChangeSet)
    (hid : mcs.id = dbmon.nextId) {rows : RowKey → Option Row} (hrows : RowsOk d schema rows)
    (hprev : left mcs.prevTxn rows) (htracks : mcs.Tracks dbmon.tables rows now) :
    { dbmon with changeSets := dbmon.changeSets ++ [mcs], nextId := dbmon.nextId + 1 }.Ok d schema
      left (update start dbmon.nextId rows) now := by
  have hold : ∀ id < dbmon.nextId, update start dbmon.nextId rows id = start id := by
    intro id hlt
    exact update_of_ne hlt.ne rows start
  have hnew : update start dbmon.nextId rows mcs.id = rows := by
    rw [hid, update_self]
  constructor
  · exact h.tables
  · exact h.rows
  · rw [map_append, nodup_append']
    refine ⟨h.ids, by simp, ?_⟩
    intro id hmem hsingle
    obtain ⟨mcs', hmcs', rfl⟩ := mem_map.mp hmem
    have hlt := h.idLt mcs' hmcs'
    have heq : mcs'.id = mcs.id := by simpa using hsingle
    omega
  · intro mcs' hmcs'
    rcases mem_append.mp hmcs' with hmcs' | hmcs'
    · exact (h.idLt mcs' hmcs').trans (Nat.lt_succ_self _)
    · rw [mem_singleton.mp hmcs', hid]
      exact Nat.lt_succ_self _
  · simp only [forall_mem_append, forall_mem_singleton, hnew]
    exact ⟨fun mcs' hmcs' => hold _ (h.idLt mcs' hmcs') ▸ h.starts mcs' hmcs', hrows⟩
  · simp only [forall_mem_append, forall_mem_singleton, hnew]
    exact ⟨fun mcs' hmcs' => hold _ (h.idLt mcs' hmcs') ▸ h.prevTxn mcs' hmcs', hprev⟩
  · simp only [forall_mem_append, forall_mem_singleton, hnew]
    exact ⟨fun mcs' hmcs' => hold _ (h.idLt mcs' hmcs') ▸ h.tracks mcs' hmcs', htracks⟩
  · intro id hid'
    exact (h.newLt id hid').trans (Nat.lt_succ_self _)
  · intro mcs' hmcs' hid'
    rcases mem_append.mp hmcs' with hmcs' | hmcs'
    · exact h.fresh mcs' hmcs' hid'
    · rw [mem_singleton.mp hmcs', hid] at hid'
      exact absurd (h.newLt _ hid') (Nat.lt_irrefl _)
  · intro node hnode
    exact (h.cacheLt node hnode).trans (Nat.lt_succ_self _)
  · intro node hnode
    rw [hold node.changeSet (h.cacheLt node hnode)]
    exact h.cache node hnode

theorem Dbmon.Ok.setNew (hlt : id < dbmon.nextId)
    (hfresh : ∀ mcs ∈ dbmon.changeSets, mcs.id = id → ∀ mcst ∈ mcs.tables, mcst.rows = ∅) :
    { dbmon with newChangeSet := some id }.Ok d schema left start now := by
  refine { h with newLt := ?_, fresh := ?_ }
  · intro id' hid'
    exact Option.some.inj hid' ▸ hlt
  · intro mcs hmcs hid'
    exact hfresh mcs hmcs (Option.some.inj hid').symm

theorem Dbmon.Ok.addNew (lastTxnid : Uuid) (hlast : left lastTxnid now) :
    { dbmon with
      changeSets := dbmon.changeSets ++ [emptyChangeSet dbmon.tables dbmon.nextId lastTxnid]
      nextId := dbmon.nextId + 1
      newChangeSet := some dbmon.nextId }.Ok d schema left
        (update start dbmon.nextId now) now := by
  apply (h.add _ rfl h.rows hlast (emptyChangeSet_tracks h.tables _ _ now)).setNew
  · exact Nat.lt_succ_self _
  · intro mcs hmcs hid mcst hmcst
    rcases mem_append.mp hmcs with hmcs | hmcs
    · exact absurd (h.idLt mcs hmcs) (by rw [hid]; exact Nat.lt_irrefl _)
    · rw [mem_singleton.mp hmcs] at hmcst
      obtain ⟨mt, -, rfl⟩ := mem_map.mp hmcst
      rfl

theorem Dbmon.Ok.trackNew {lastTxnid : Uuid} (hlast : left lastTxnid now) :
    ∃ start', (dbmon.trackNewChangeSet lastTxnid).2.Ok d schema left start' now ∧
      ∀ id < dbmon.nextId, start' id = start id := by
  rw [Dbmon.trackNewChangeSet]
  split
  · exact ⟨start, h.setRefs _ _, fun _ _ => rfl⟩
  · rw [addChangeSet_eq h.tables]
    exact ⟨_, h.addNew lastTxnid hlast, fun id hlt => update_of_ne hlt.ne now start⟩

end

/-! ## 4. The initial change set -/

section
variable {d : Doubles} {schema : Schema} {left : Uuid → (RowKey → Option Row) → Prop}
  {start : Nat → RowKey → Option Row} {dbmon : Dbmon} {db : Database} {mt : MonitorTable}

def addRows (table : String) (rows : RowKey → Option Row) (added : List (Uuid × Row)) :
    RowKey → Option Row :=
  added.foldl (fun rows row => update rows ⟨table, row.1⟩ (some row.2)) rows

variable {added : List (Uuid × Row)} {rows : RowKey → Option Row} {table : String} {uuid : Uuid}

theorem addRows_of_not_mem (h : uuid ∉ added.map Prod.fst) :
    addRows table rows added ⟨table, uuid⟩ = rows ⟨table, uuid⟩ := by
  induction added generalizing rows with
  | nil => rfl
  | cons row added ih =>
    rw [map_cons, mem_cons, not_or] at h
    rw [addRows, foldl_cons]
    refine (ih h.2).trans ?_
    rw [update_of_ne]
    intro heq
    exact h.1 (congrArg RowKey.uuid heq)

theorem addRows_of_mem (hnodup : (added.map Prod.fst).Nodup)
    {row : Row} (h : (uuid, row) ∈ added) : addRows table rows added ⟨table, uuid⟩ = some row := by
  induction added generalizing rows with
  | nil => cases h
  | cons row' added ih =>
    rw [map_cons, nodup_cons] at hnodup
    rw [addRows, foldl_cons]
    rcases mem_cons.mp h with rfl | h
    · refine (addRows_of_not_mem hnodup.1).trans ?_
      rw [update_self]
    · exact ih hnodup.2 h

theorem addRows_tableRows {rows : AList (fun _ : RowKey => Row)} :
    addRows table (fun _ => none) (Dbmon.tableRows rows table) ⟨table, uuid⟩ =
      rows.lookup ⟨table, uuid⟩ := by
  cases hrow : rows.lookup ⟨table, uuid⟩ with
  | some row => exact addRows_of_mem tableRows_nodup (mem_tableRows.mpr hrow)
  | none =>
    apply addRows_of_not_mem
    intro hmem
    obtain ⟨⟨uuid', row⟩, hentry, rfl⟩ := mem_map.mp hmem
    rw [mem_tableRows.mp hentry] at hrow
    cases hrow

variable {mcst : TableChanges}

theorem foldl_changesUpdate_tracks {ts : TableSchema} (hts : schema.table? mt.name = some ts)
    (hok : ColumnsOk ts.columns) (hmt : mt.WellFormed ts.columns) {first now : RowKey → Option Row}
    (hnodup : (added.map Prod.fst).Nodup) (hadded : ∀ row ∈ added, RowOk d ts.columns row.2)
    (hfresh : ∀ row ∈ added, now ⟨mt.name, row.1⟩ = none) (hnow : RowsOk d schema now)
    (hmcst : mcst.Tracks mt first now) :
    (added.foldl (fun mcst row => changesUpdate mt row.1 none (some row.2) mcst) mcst).Tracks mt
      first (addRows mt.name now added) := by
  induction added generalizing now mcst with
  | nil => exact hmcst
  | cons row added ih =>
    rw [map_cons, nodup_cons] at hnodup
    let change : Change := ⟨⟨mt.name, row.1⟩, none, some row.2, []⟩
    have hvalid : change.Valid d schema now := by
      constructor
      · exact (hfresh row mem_cons_self).symm
      · exact .inr rfl
      · intro row' hrow'
        cases hrow'
        exact columns_eq hts ▸ hadded row mem_cons_self
      · intro old new hold
        cases hold
    rw [foldl_cons, addRows, foldl_cons]
    apply ih hnodup.2 (fun row' h => hadded row' (mem_cons_of_mem row h)) _
      (hvalid.rowsOk hnow) (hmcst.record hvalid hnow hts hok hmt rfl)
    intro row' hrow'
    have hne : RowKey.mk mt.name row'.1 ≠ change.key := by
      intro heq
      apply hnodup.1
      have heq : row'.1 = row.1 := congrArg RowKey.uuid heq
      exact heq ▸ mem_map_of_mem hrow'
    rw [Change.after_of_ne hne]
    exact hfresh row' (mem_cons_of_mem row hrow')

theorem initialChanges_eq (htables : TablesOk schema dbmon.tables) (hmt : mt ∈ dbmon.tables)
    (hname : mcst.table = mt.name) : dbmon.initialChanges db mcst =
      (Dbmon.tableRows db.rows mt.name).foldl
        (fun mcst row => changesUpdate mt row.1 none (some row.2) mcst) mcst := by
  obtain ⟨ts, -, -, hwell⟩ := htables.table mt hmt
  have hfind : dbmon.table? mcst.table = some mt := by
    rw [hname]
    exact htables.find hmt
  simp only [Dbmon.initialChanges, hfind, hwell.select, if_true]

theorem initialChanges_frame : (dbmon.initialChanges db mcst).table = mcst.table ∧
    (dbmon.initialChanges db mcst).nColumns = mcst.nColumns := by
  unfold Dbmon.initialChanges
  split
  · exact ⟨rfl, rfl⟩
  · split
    · refine foldlRecOn (motive := fun mcst' : TableChanges => mcst'.table = mcst.table ∧
        mcst'.nColumns = mcst.nColumns) _ _ ⟨rfl, rfl⟩ ?_
      rintro mcst' ⟨htable, hn⟩ row -
      exact ⟨changesUpdate_frame.1.trans htable, changesUpdate_frame.2.trans hn⟩
    · exact ⟨rfl, rfl⟩

/-- The change set that describes how the tables came to be, from no rows at all. -/
def Dbmon.initialChangeSet (dbmon : Dbmon) (db : Database) (id : Nat) (prevTxn : Uuid) :
    ChangeSet :=
  let mcs := emptyChangeSet dbmon.tables id prevTxn
  { mcs with tables := mcs.tables.map (dbmon.initialChanges db) }

theorem initialChanges_tracks (htables : TablesOk schema dbmon.tables)
    (hrows : RowsOk d schema db.rows.lookup) (id : Nat) (prevTxn : Uuid) :
    (dbmon.initialChangeSet db id prevTxn).Tracks dbmon.tables (fun _ => none) db.rows.lookup := by
  constructor
  · rw [Dbmon.initialChangeSet, emptyChangeSet, map_map, map_map]
    exact map_congr_left fun mt _ => initialChanges_frame.1
  · intro mcst' hmcst' mt hmt hname
    obtain ⟨mcst, hmcst, rfl⟩ := mem_map.mp hmcst'
    have hmcstname : mcst.table = mt.name := initialChanges_frame.1.symm.trans hname
    obtain ⟨ts, hts, hok, hwell⟩ := htables.table mt hmt
    rw [initialChanges_eq htables hmt hmcstname]
    have hempty := (emptyChangeSet_tracks htables id prevTxn fun _ => none).changes mcst hmcst mt
      hmt hmcstname
    have htracks := foldl_changesUpdate_tracks (d := d) hts hok hwell
      tableRows_nodup (fun row hrow => columns_eq hts ▸
        hrows _ row.2 (mem_tableRows.mp hrow)) (fun _ _ => rfl) (fun _ _ h => by cases h) hempty
    apply htracks.skip
    intro uuid
    rw [addRows_tableRows]

theorem Dbmon.Ok.getInitial (h : dbmon.Ok d schema left start db.rows.lookup)
    (hinit : dbmon.initChangeSet = none) (hleft : left 0 fun _ => none) :
    (dbmon.getInitial db).1 = dbmon.nextId ∧ (dbmon.getInitial db).2 =
      { dbmon with
        changeSets := dbmon.changeSets ++ [dbmon.initialChangeSet db dbmon.nextId 0]
        nextId := dbmon.nextId + 1
        initChangeSet := some dbmon.nextId } ∧
    (dbmon.getInitial db).2.Ok d schema left
      (update start dbmon.nextId fun _ => none) db.rows.lookup := by
  have heq : dbmon.getInitial db = (dbmon.nextId, { dbmon with
      changeSets := dbmon.changeSets ++ [dbmon.initialChangeSet db dbmon.nextId 0]
      nextId := dbmon.nextId + 1
      initChangeSet := some dbmon.nextId }) := by
    rw [Dbmon.getInitial, hinit]
    simp only [Option.bind_none, addChangeSet_eq h.tables]
    rfl
  rw [heq]
  refine ⟨rfl, rfl, ?_⟩
  have hadd := h.add (dbmon.initialChangeSet db dbmon.nextId 0)
    rfl (fun _ _ h => by cases h) hleft (initialChanges_tracks h.tables h.rows _ _)
  exact { hadd with }

end

end Ovsgw.Ovsdb
