/-
  **What a monitor is sent** (`ovsdb_monitor_get_update`).

  Whether the updates are composed or come from the cache, they take the client from the
  view at the start of the change set to the view now.  The cache is only used for sessions
  whose conditions are true, and for these every row is in the view.
-/
import Ovsgw.Ovsdb.ChangeSetSpec

namespace Ovsgw.Ovsdb

/-! ## 1. Updates of a change set -/

section
variable {d : Doubles} {schema : Schema} {left : Uuid → (RowKey → Option Row) → Prop}
  {start : Nat → RowKey → Option Row} {now : RowKey → Option Row} {dbmon : Dbmon}
  {tables : List MonitorTable} {mcs : ChangeSet} {cond : Option SessionCondition}
  {version : MonitorVersion} {initial : Bool}

/-- The view of a client: the rows that satisfy its conditions. -/
abbrev condView (schema : Schema) (tables : List MonitorTable) (cond : Option SessionCondition)
    (rows : RowKey → Option Row) : Replica :=
  view schema tables (fun table => (tableCondition cond table).new) rows

/-- Under conditions that are true the view has all rows. -/
theorem condView_of_isTrue (h : ∀ mt ∈ tables, (tableCondition cond mt.name).new.isTrue = true)
    (rows : RowKey → Option Row) :
    condView schema tables cond rows = fullView schema tables rows := by
  funext k
  rw [condView, fullView, view, view]
  cases hfind : tables.find? fun mt => mt.name == k.table with
  | none => rfl
  | some mt =>
    obtain ⟨hmt, hname⟩ := Lists.find?_beq hfind
    have htrue := h mt hmt
    rw [hname] at htrue
    rw [Option.bind_some, Option.bind_some]
    cases rows k with
    | none => rfl
    | some row =>
      rw [viewRow_of_holds (Condition.holds_of_isTrue htrue), viewRow_of_holds (Or.inl rfl)]

theorem CondOk.of_isTrue
    (hsettled : ∀ mt ∈ tables, (tableCondition cond mt.name).old = (tableCondition cond mt.name).new)
    (h : ∀ mt ∈ tables, (tableCondition cond mt.name).new.isTrue = true) :
    CondOk d schema tables mcs cond where
  settled := hsettled
  sees _ _ mt hmt _ := MonitorTable.sees_of_isTrue (h mt hmt)

theorem cacheSearch_eq_some {id : Nat} {node : CacheNode}
    (h : dbmon.cacheSearch version id = some node) :
    node ∈ dbmon.jsonCache ∧ node.changeSet = id ∧ node.version = version := by
  have hfound := List.find?_some h
  rw [Bool.and_eq_true, beq_iff_eq, beq_iff_eq] at hfound
  exact ⟨List.mem_of_find?_eq_some h, hfound.1, hfound.2⟩

/-- What is sent for a change set takes the client to the view now, and what is put into
    the cache is right for every session whose conditions are true. -/
theorem composeOrSearch_spec (version : MonitorVersion) (h : dbmon.Ok d schema left start now)
    (hmcs : mcs ∈ dbmon.changeSets) (hmode : Mode dbmon.tables cond)
    (hsettled : ∀ mt ∈ dbmon.tables,
      (tableCondition cond mt.name).old = (tableCondition cond mt.name).new)
    (hinitial : initial = true → start mcs.id = fun _ => none) (db : Database) :
    let r := dbmon.composeOrSearch db initial false cond version mcs
    r.2.1 = cond ∧ r.2.2.Ok d schema left start now ∧
      (∃ jsonCache, r.2.2 = { dbmon with jsonCache } ∧
        ∀ node ∈ jsonCache, node ∈ dbmon.jsonCache ∨ node.changeSet = mcs.id) ∧
      (version ≠ .v1 → CondOk d schema dbmon.tables mcs cond →
        applyUpdates d schema (condView schema dbmon.tables cond (start mcs.id)) r.1 =
          some (condView schema dbmon.tables cond now)) := by
  have hcompose : version ≠ .v1 → CondOk d schema dbmon.tables mcs cond →
      applyUpdates d schema (condView schema dbmon.tables cond (start mcs.id))
        (dbmon.composeUpdate version initial mcs cond) =
        some (condView schema dbmon.tables cond now) := by
    intro hversion hcond
    apply composeUpdate_takes h.tables (h.tracks mcs hmcs) hcond (h.starts mcs hmcs) h.rows hversion
    intro htrue k
    rw [hinitial htrue]
  intro r
  cases hnode : (if cond.isNone || (!Dbmon.isConditional cond && !false) then
      dbmon.cacheSearch version mcs.id else none) with
  | some node =>
    have hr : r = (node.json, cond, dbmon) := by
      simp only [r, Dbmon.composeOrSearch, hnode]
    obtain ⟨hcond, hsearch⟩ := Option.ite_none_right_eq_some.mp hnode
    obtain ⟨hmem, hid, hnodeVersion⟩ := cacheSearch_eq_some hsearch
    have htrue := hmode (by cases cond <;> simp_all [Dbmon.isConditional])
    rw [hr]
    refine ⟨rfl, h, ⟨dbmon.jsonCache, rfl, fun _ => .inl⟩, ?_⟩
    intro hversion _
    have hcache := h.cache node hmem (hnodeVersion ▸ hversion)
    rw [hid] at hcache
    rw [condView_of_isTrue htrue, condView_of_isTrue htrue]
    exact hcache
  | none =>
    have hr : r = if version = .v1 then (dbmon.composeUpdate .v1 initial mcs cond, cond, dbmon)
        else if Dbmon.isConditional cond then
          (dbmon.composeUpdate version initial mcs cond, cond, dbmon)
        else (dbmon.composeUpdate version initial mcs cond, cond,
          { dbmon with jsonCache := ⟨version, mcs.id, dbmon.composeUpdate version initial mcs cond⟩ ::
            dbmon.jsonCache }) := by
      simp only [r, Dbmon.composeOrSearch, hnode]
      rfl
    rw [hr]
    split
    next hversion => exact ⟨rfl, h, ⟨dbmon.jsonCache, rfl, fun _ => .inl⟩,
      fun hne => absurd hversion hne⟩
    next hversion =>
      split
      next => exact ⟨rfl, h, ⟨dbmon.jsonCache, rfl, fun _ => .inl⟩, hcompose⟩
      next hconditional =>
        have htrue := hmode (Bool.eq_false_iff.mpr hconditional)
        refine ⟨rfl, ?_, ⟨_, rfl, ?_⟩, hcompose⟩
        · apply h.addCache (h.idLt mcs hmcs)
          intro _
          have hfull := hcompose hversion (.of_isTrue hsettled htrue)
          rw [condView_of_isTrue htrue, condView_of_isTrue htrue] at hfull
          exact hfull
        · exact List.forall_mem_cons.mpr ⟨.inr rfl, fun _ => .inl⟩

theorem composeOrSearch_condChange (htables : TablesOk schema dbmon.tables)
    {cond : SessionCondition} (hversion : version ≠ .v1) (db : Database) :
    dbmon.composeOrSearch db initial true (some cond) version mcs =
      (dbmon.tables.filterMap (condChangeUpdates db cond),
        some (dbmon.tables.foldl (fun cond mt => cond.updated mt.name) cond), dbmon) := by
  have hnode : (if (some cond).isNone || (!Dbmon.isConditional (some cond) && !true) then
      dbmon.cacheSearch version mcs.id else none) = none := by simp
  simp only [Dbmon.composeOrSearch, hnode, if_neg hversion, if_true, Dbmon.composeCondChangeUpdate]
  have hsame : ∀ mt ∈ dbmon.tables, cond.find mt.name = cond.find mt.name := fun _ _ => rfl
  rw [foldl_condChangeTable htables.names hsame, List.nil_append]

end

/-! ## 2. Monitors and their conditions -/

/-- A monitor whose conditions belong to the monitored tables.  Those of the first version
    have none. -/
structure Subscribed (schema : Schema) (tables : List MonitorTable) (m : JsonrpcMonitor) :
    Prop where
  version : m.condition.isSome = true → m.version ≠ .v1
  conds : CondsOk schema tables m.condition
  settled : ∀ mt ∈ tables,
    (tableCondition m.condition mt.name).old = (tableCondition m.condition mt.name).new
  mode : Mode tables m.condition

section
variable {schema : Schema} {tables tables' : List MonitorTable} {m : JsonrpcMonitor}

theorem Subscribed.extend (hm : Subscribed schema tables m) (hextend : TablesExtend tables tables')
    (htables : TablesOk schema tables') : Subscribed schema tables' m := by
  constructor
  · exact hm.version
  · constructor
    · exact htables
    · exact hextend.forall_mem (fun _ _ hname h => hname ▸ h) hm.conds.old
    · exact hextend.forall_mem (fun _ _ hname h => hname ▸ h) hm.conds.new
    · intro mt' hmt'
      obtain ⟨mt, hmt, hextends⟩ := hextend.exists_mem hmt'
      rw [hextends.name]
      exact hextends.covers ((hm.conds.covers mt hmt).mono hextends.length_le)
  · exact hextend.forall_mem (fun _ _ hname h => hname ▸ h) hm.settled
  · exact fun hmode => hextend.forall_mem (fun _ _ hname h => hname ▸ h) (hm.mode hmode)

/-- A monitor is subscribed under its new conditions. -/
theorem Subscribed.updated {cond : SessionCondition} {dbmon dbmon' : Dbmon}
    (hm : Subscribed schema dbmon.tables m) (hok : CondState.Ok schema ⟨some cond, dbmon'⟩)
    (hfollows : CondState.Follows ⟨m.condition, dbmon⟩ ⟨some cond, dbmon'⟩) (newId : Json) (id : Nat) :
    Subscribed schema dbmon'.tables
      { m with
        condition := some (dbmon'.tables.foldl (fun cond mt => cond.updated mt.name) cond)
        monitorId := newId
        changeSet := id } := by
  have hsettled := foldl_updated_settled hok.tablesOk hok.old hok.new
  constructor
  · intro _
    exact hm.version (hfollows.isSome.symm.trans rfl)
  · constructor
    · exact hok.tablesOk
    · intro mt hmt
      rw [(hsettled mt hmt).1]
      exact hok.new mt hmt
    · intro mt hmt
      rw [(hsettled mt hmt).2]
      exact hok.new mt hmt
    · intro mt hmt
      rw [(hsettled mt hmt).2]
      exact hok.covers mt hmt
  · intro mt hmt
    rw [(hsettled mt hmt).1, (hsettled mt hmt).2]
  · apply foldl_updated_mode hok.tablesOk hok.old hok.new
    intro hmode mt' hmt'
    obtain ⟨mt, hmt, hextends⟩ := hfollows.tables.exists_mem hmt'
    have htrue := hm.mode (hfollows.conditional ▸ hmode) mt hmt
    rw [hfollows.old, hextends.name, hm.settled mt hmt]
    exact htrue

end

end Ovsgw.Ovsdb
