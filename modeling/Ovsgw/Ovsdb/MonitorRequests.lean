/-
  **Requests that are rejected.**

  `ovsdb_jsonrpc_monitor_cond_change` goes through the tables of a request and through
  the conditions for each table, and stores each condition before it looks at the next
  one.  When it finds an error it answers with it and takes nothing back.  So what a rejected
  request leaves behind are the conditions that it sends before the element with the error.
-/
import Ovsgw.Ovsdb.CondChangeSpec

namespace Ovsgw.Ovsdb

open EState

/-! ## 1. What a request sends -/

/-- The condition in an element of a request. -/
def sentCondition (d : Doubles) (ts : TableSchema) (json : Json) : Option Condition :=
  match ovsdbParse ("table " ++ ts.name) json condChangeMembers with
  | .ok (none, some condition) =>
    (conditionFromJson d ts (Json.elemsD (some condition))).toOption
  | _ => none

/-- The conditions in the elements for a table, up to the first element without one. -/
def sentConditions (d : Doubles) (ts : TableSchema) : List Json → List Condition
  | [] => []
  | json :: rest => (sentCondition d ts json).elim [] fun cond => cond :: sentConditions d ts rest

/-- The conditions for one table, and whether every element has one. -/
def sentToTable (d : Doubles) (schema : Schema) (monitored : String → Bool) (name : String)
    (json : Json) : List Condition × Bool :=
  match schema.table? name, json with
  | some ts, .array elems =>
    if monitored name then
      (sentConditions d ts elems, (sentConditions d ts elems).length == elems.length)
    else ([], false)
  | _, _ => ([], false)

/-- The conditions in a request with their tables, up to the first element without one. -/
def sentBefore (d : Doubles) (schema : Schema) (monitored : String → Bool) :
    List (String × Json) → List (String × Condition)
  | [] => []
  | (name, json) :: rest =>
    let (conds, all) := sentToTable d schema monitored name json
    conds.map (name, ·) ++ if all then sentBefore d schema monitored rest else []

def CondState.store (s : CondState) (sent : String × Condition) : CondState :=
  { condition := s.condition.map fun cond =>
      cond.modify sent.1 fun mtc => { mtc with new := sent.2 }
    dbmon := s.dbmon.modifyTable sent.1 fun mt => mt.addConditionColumns sent.2 }

def CondState.monitors (s : CondState) (name : String) : Bool := (s.dbmon.table? name).isSome

section
variable {d : Doubles} {ts : TableSchema} {schema : Schema} {s : CondState} {json : Json}
  {cond : SessionCondition} {sent : List (String × Condition)} {name : String}
  {tables : List TableCondition}

theorem monitors_store {x : String × Condition} : (s.store x).monitors name = s.monitors name := by
  have hnames : (s.store x).dbmon.tables.map MonitorTable.name =
      s.dbmon.tables.map MonitorTable.name := addColumnsTo_extend.names
  have hmem : ∀ tables : List MonitorTable,
      (tables.find? fun mt => mt.name == name).isSome = (tables.map (·.name)).contains name := by
    intro tables
    rw [Bool.eq_iff_iff]
    simp
  exact (hmem _).trans (hnames ▸ (hmem _).symm)

theorem monitors_foldl_store : (sent.foldl CondState.store s).monitors name = s.monitors name := by
  induction sent generalizing s with
  | nil => rfl
  | cons x sent ih => exact ih.trans monitors_store

theorem isSome_foldl_store :
    (sent.foldl CondState.store s).condition.isSome = s.condition.isSome := by
  induction sent generalizing s with
  | nil => rfl
  | cons x sent ih => exact ih.trans Option.isSome_map

theorem parseCondChangeRequest_stores (hs : s.condition.isSome) :
    Ensures (parseCondChangeRequest d ts json) s
      (fun _ s' => ∃ c, sentCondition d ts json = some c ∧ s' = s.store (ts.name, c))
      fun e s' => e = .crash ∨ sentCondition d ts json = none ∧ s' = s := by
  obtain ⟨condition, dbmon⟩ := s
  obtain ⟨cond, rfl⟩ := Option.isSome_iff_exists.mp hs
  unfold parseCondChangeRequest sentCondition
  cases ovsdbParse ("table " ++ ts.name) json condChangeMembers with
  | error error => exact .throw (.inr ⟨rfl, rfl⟩)
  | ok members =>
    obtain ⟨_ | columns, condition⟩ := members
    · refine .get_bind ?_
      cases condition with
      | none => exact .throw (.inl rfl)
      | some condition =>
        simp only [Option.map_some]
        cases conditionFromJson d ts (Json.elemsD (some condition)) with
        | error error => exact .throw (.inr ⟨rfl, rfl⟩)
        | ok c =>
          cases cond.find ts.name with
          | none => exact .throw (.inl rfl)
          | some mtc => exact ⟨c, rfl, rfl⟩
    · exact .throw (.inr ⟨rfl, rfl⟩)

theorem forM_stores (elems : List Json) (hs : s.condition.isSome) :
    Ensures (elems.forM (parseCondChangeRequest d ts)) s
      (fun _ s' => (sentConditions d ts elems).length = elems.length ∧
        s' = ((sentConditions d ts elems).map (ts.name, ·)).foldl CondState.store s)
      fun e s' => e = .crash ∨ (sentConditions d ts elems).length ≠ elems.length ∧
        s' = ((sentConditions d ts elems).map (ts.name, ·)).foldl CondState.store s := by
  induction elems generalizing s with
  | nil => exact .pure ⟨rfl, rfl⟩
  | cons json rest ih =>
    refine .bind ((parseCondChangeRequest_stores hs).weaken (fun _ _ => id) ?_) ?_
    · rintro e s' (rfl | ⟨hnone, rfl⟩)
      · exact .inl rfl
      · exact .inr (by simp [sentConditions, hnone])
    · rintro _ s' ⟨c, hc, rfl⟩
      refine (ih (Option.isSome_map.trans hs)).weaken ?_ ?_
      · rintro _ s' ⟨hlen, rfl⟩
        simp [sentConditions, hc, hlen]
      · rintro e s' (rfl | ⟨hlen, rfl⟩)
        · exact .inl rfl
        · exact .inr (by simpa [sentConditions, hc] using hlen)

/-- The conditions before an error are stored. -/
theorem condChangeTableRequests_stores (name : String) (json : Json) (hs : s.condition.isSome) :
    Ensures (condChangeTableRequests d schema name json) s
      (fun _ s' => (sentToTable d schema s.monitors name json).2 = true ∧
        s' = ((sentToTable d schema s.monitors name json).1.map (name, ·)).foldl CondState.store s)
      fun e s' => e = .crash ∨ (sentToTable d schema s.monitors name json).2 = false ∧
        s' = ((sentToTable d schema s.monitors name json).1.map (name, ·)).foldl
          CondState.store s := by
  unfold condChangeTableRequests sentToTable
  cases hts : schema.table? name with
  | none => exact .throw (.inr ⟨rfl, rfl⟩)
  | some ts =>
    obtain rfl := table?_schema_name hts
    refine .get_bind (.ite (fun hnone => ?_) fun hsome => ?_)
    · have hfalse : s.monitors ts.name = false := by
        simpa [CondState.monitors] using hnone
      refine .throw (.inr ?_)
      cases json <;> simp [hfalse]
    · have htrue : s.monitors ts.name = true := by
        simpa [CondState.monitors, Option.isSome_iff_ne_none] using hsome
      cases json with
      | array elems =>
        refine (forM_stores elems hs).weaken ?_ ?_
        · rintro _ s' ⟨hlen, rfl⟩
          simp [htrue, hlen]
        · rintro e s' (rfl | ⟨hlen, rfl⟩)
          · exact .inl rfl
          · exact .inr (by simp [htrue, hlen])
      | _ => exact .throw (.inr ⟨rfl, rfl⟩)

theorem condChangeRequests_stores (requests : List (String × Json)) (hs : s.condition.isSome) :
    Ensures (condChangeRequests d schema requests) s (fun _ _ => True) fun e s' =>
      e = .crash ∨ s' = (sentBefore d schema s.monitors requests).foldl CondState.store s := by
  induction requests generalizing s with
  | nil => exact .pure trivial
  | cons request rest ih =>
    obtain ⟨name, json⟩ := request
    refine .bind ((condChangeTableRequests_stores name json hs).weaken (fun _ _ => id) ?_) ?_
    · rintro e s' (rfl | ⟨hall, rfl⟩)
      · exact .inl rfl
      · exact .inr (by simp [sentBefore, hall])
    · rintro _ s' ⟨hall, rfl⟩
      let sent := (sentToTable d schema s.monitors name json).1.map (name, ·)
      have hrest := @ih (sent.foldl CondState.store s) (isSome_foldl_store.trans hs)
      have hmonitors : (sent.foldl CondState.store s).monitors = s.monitors :=
        funext fun _ => monitors_foldl_store
      have hsent : sentBefore d schema s.monitors ((name, json) :: rest) =
          sent ++ sentBefore d schema s.monitors rest := by
        simp [sentBefore, hall, sent]
      rw [hmonitors, ← List.foldl_append] at hrest
      rw [hsent]
      exact hrest

/-- Nothing is stored for a monitor without conditions. -/
def SameIfNone (s s' : CondState) : Prop := s.condition = none → s' = s

instance : IsPreorder CondState SameIfNone where
  refl _ _ := rfl
  trans _ _ _ h h' hs := (h' (h hs ▸ hs)).trans (h hs)

theorem parseCondChangeRequest_none : Keeps SameIfNone (parseCondChangeRequest d ts json) s := by
  unfold parseCondChangeRequest
  split
  · exact fun _ => rfl
  refine .ite (fun _ _ => rfl) fun _ => .get_bind ?_
  split
  · exact fun _ => rfl
  next cond hcond =>
    unfold Keeps Ensures
    split <;> exact fun hs => by simp [hs] at hcond

theorem condChangeRequests_none (requests : List (String × Json)) :
    Keeps SameIfNone (condChangeRequests d schema requests) s := by
  refine Keeps.forM (R := SameIfNone) fun ⟨name, json⟩ _ s => ?_
  show Keeps SameIfNone (condChangeTableRequests d schema name json) s
  unfold condChangeTableRequests
  split
  · exact fun _ => rfl
  refine .get_bind (.ite (fun _ _ => rfl) fun _ => ?_)
  split
  · exact Keeps.forM fun _ _ _ => parseCondChangeRequest_none
  · exact fun _ => rfl

/-! ## 2. Conditions that are there already -/

/-- The session has the last condition for each table already. -/
def ResendsLast (cond : SessionCondition) (sent : List (String × Condition)) : Prop :=
  ∀ name c mtc, sent.reverse.lookup name = some c → cond.find name = some mtc → mtc.new = c

/-- The columns of the conditions are monitored. -/
def Monitored (dbmon : Dbmon) (sent : List (String × Condition)) : Prop :=
  ∀ x ∈ sent, ∀ mt, dbmon.table? x.1 = some mt →
    ∀ column ∈ x.2.getColumns, (mt.indexMap column.1).isSome

def storeAt (tables : List TableCondition) (x : String × Condition) : List TableCondition :=
  updateFirst (fun mtc => mtc.table == x.1) (fun mtc => { mtc with new := x.2 }) tables

theorem foldl_storeAt_nil : sent.foldl storeAt [] = [] := by
  induction sent with
  | nil => rfl
  | cons x sent ih => exact ih

theorem lookup_cons_ite {x : String × Condition} :
    (x :: sent).lookup name = if name = x.1 then some x.2 else sent.lookup name := by
  rw [show x = (x.1, x.2) from rfl, List.lookup_cons]
  by_cases h : name = x.1
  · simp [h]
  · simp [h, beq_false_of_ne h]

theorem foldl_storeAt_cons {mtc : TableCondition} :
    sent.foldl storeAt (mtc :: tables) =
      { mtc with new := (sent.reverse.lookup mtc.table).getD mtc.new } ::
        (sent.filter fun x => x.1 != mtc.table).foldl storeAt tables := by
  induction sent generalizing mtc tables with
  | nil => rfl
  | cons x sent ih =>
    rw [List.foldl_cons, storeAt, updateFirst]
    by_cases hx : mtc.table = x.1
    · simp [hx, ih, List.lookup_append, lookup_cons_ite]
    · simp [hx, Ne.symm hx, ih, List.lookup_append, lookup_cons_ite, storeAt]

theorem lookup_filter_ne {table : String} :
    (sent.filter fun x => x.1 != table).lookup name =
      if name = table then none else sent.lookup name := by
  induction sent with
  | nil => simp
  | cons x sent ih =>
    by_cases hx : x.1 = table
    · rw [List.filter_cons_of_neg (by simp [hx]), ih, lookup_cons_ite, hx]
      split <;> rfl
    · rw [List.filter_cons_of_pos (by simp [hx]), lookup_cons_ite, lookup_cons_ite, ih]
      by_cases hn : name = x.1
      · simp [hn, hx]
      · simp [hn]

/-- Storing leaves the conditions as they are iff the last one for each table is there. -/
theorem foldl_storeAt_eq_self {conditional : Bool} :
    sent.foldl storeAt tables = tables ↔ ResendsLast { conditional, tables } sent := by
  induction tables generalizing sent with
  | nil => simp [foldl_storeAt_nil, ResendsLast, SessionCondition.find]
  | cons mtc tables ih =>
    rw [foldl_storeAt_cons, List.cons.injEq, ih]
    simp only [ResendsLast, SessionCondition.find, ← List.filter_reverse, lookup_filter_ne]
    constructor
    · rintro ⟨hhead, htail⟩ name c mtc' hc hfind
      by_cases hname : mtc.table = name
      · obtain rfl : mtc = mtc' := by simpa [hname] using hfind
        subst hname
        simpa [hc] using congrArg TableCondition.new hhead.symm
      · refine htail name c mtc' (by simpa [Ne.symm hname] using hc) ?_
        simpa [hname] using hfind
    · intro h
      constructor
      · cases hc : sent.reverse.lookup mtc.table with
        | none => rfl
        | some c => simp [← h mtc.table c mtc hc (by simp)]
      · intro name c mtc' hc hfind
        split at hc
        · cases hc
        next hname => exact h name c mtc' hc (by simpa [Ne.symm hname] using hfind)
theorem updateFirst_eq_self {α : Type} {p : α → Bool} {f : α → α} {l : List α}
    (h : ∀ a, l.find? p = some a → f a = a) : updateFirst p f l = l := by
  induction l with
  | nil => rfl
  | cons a l ih =>
    rw [updateFirst]
    split
    next hp => rw [h a (List.find?_cons_of_pos hp)]
    next hp => rw [ih fun b hb => h b ((List.find?_cons_of_neg hp).trans hb)]

theorem addConditionColumns_eq_self {mt : MonitorTable} {cond : Condition}
    (h : ∀ column ∈ cond.getColumns, (mt.indexMap column.1).isSome) :
    mt.addConditionColumns cond = mt := by
  unfold MonitorTable.addConditionColumns
  generalize cond.getColumns = columns at h
  induction columns with
  | nil => rfl
  | cons column columns ih =>
    have hadd : mt.addConditionColumn column = mt := by
      rw [MonitorTable.addConditionColumn, MonitorTable.addColumn,
        if_pos (h column List.mem_cons_self)]
    rw [List.foldl_cons, hadd]
    exact ih fun c hc => h c (List.mem_cons_of_mem column hc)

theorem dbmon_foldl_store {dbmon : Dbmon} {cond : Option SessionCondition}
    (h : Monitored dbmon sent) : (sent.foldl CondState.store ⟨cond, dbmon⟩).dbmon = dbmon := by
  induction sent generalizing cond with
  | nil => rfl
  | cons x sent ih =>
    obtain ⟨hcolumns, hrest⟩ := List.forall_mem_cons.mp h
    have hdbmon : dbmon.modifyTable x.1 (fun mt => mt.addConditionColumns x.2) = dbmon := by
      rw [Dbmon.modifyTable, updateFirst_eq_self fun mt hmt =>
        addConditionColumns_eq_self (hcolumns mt hmt)]
    rw [List.foldl_cons, CondState.store, hdbmon]
    exact ih hrest

theorem condition_foldl_store {dbmon : Dbmon} :
    (sent.foldl CondState.store ⟨some cond, dbmon⟩).condition =
      some { cond with tables := sent.foldl storeAt cond.tables } := by
  induction sent generalizing cond dbmon with
  | nil => rfl
  | cons x sent ih => exact ih

end

/-! ## 3. Rejected requests -/

namespace Backend

/-- The monitor that a request is for, the conditions that the session has for it, and the ones
    that the request sends up to the first element without one. -/
def sends (s : Backend) (d : Doubles) (session : Nat) (params : List Json) :
    Option (Nat × JsonrpcMonitor × SessionCondition × List (String × Condition)) := do
  match params with
  | [id, newId, .object requests] =>
    let i ← s.findMonitor session id
    let m ← s.monitors[i]?
    if !jsonEqual m.monitorId newId && s.hasMonitor session newId then none
    else
      let cond ← m.condition
      return (i, m, cond, sentBefore d s.db.schema
        (fun name => (s.dbmon.table? name).isSome) requests)
  | _ => none

/-- The state after the conditions have been stored. -/
def stored (s : Backend) (i : Nat) (m : JsonrpcMonitor) (cond : SessionCondition)
    (sent : List (String × Condition)) : Backend :=
  let state := sent.foldl CondState.store ⟨some cond, s.dbmon⟩
  { s with
    dbmon := state.dbmon, monitors := s.monitors.set i { m with condition := state.condition } }

def conditions (s : Backend) : List (Option SessionCondition) :=
  s.monitors.map JsonrpcMonitor.condition

section
variable {s : Backend} {d : Doubles} {i session : Nat} {m : JsonrpcMonitor} {newId : Json}
  {requests : List (String × Json)} {error : OvsdbError} {params : List Json}

theorem set_self (hm : s.monitors[i]? = some m) : s.monitors.set i m = s.monitors := by
  obtain ⟨hi, hget⟩ := List.getElem?_eq_some_iff.mp hm
  rw [← hget]
  exact List.set_getElem_self hi

theorem condChange_error (hm : s.monitors[i]? = some m)
    (h : (s.condChange d i m newId requests).1 = .error (.reply error)) :
    (s.condChange d i m newId requests).2 = m.condition.elim s fun cond =>
      s.stored i m cond (sentBefore d s.db.schema (fun name => (s.dbmon.table? name).isSome)
        requests) := by
  have hnone := @condChangeRequests_none d s.db.schema ⟨m.condition, s.dbmon⟩ requests
  have hstores := @condChangeRequests_stores d s.db.schema ⟨m.condition, s.dbmon⟩ requests
  unfold condChange at h ⊢
  unfold Keeps Ensures at *
  rw [EStateM.run] at h ⊢
  cases hrun : condChangeRequests d s.db.schema requests ⟨m.condition, s.dbmon⟩ with
  | ok a state =>
    rw [hrun] at h
    cases h
  | error e state =>
    rw [hrun] at h hnone hstores
    cases e with
    | crash => cases h
    | reply error' =>
      cases hcond : m.condition with
      | none =>
        obtain rfl : state = ⟨m.condition, s.dbmon⟩ := hnone hcond
        simp only [set_self hm, Option.elim_none]
      | some cond =>
        rw [hcond] at hstores
        obtain rfl := (hstores rfl).resolve_left (by rintro ⟨⟩)
        rfl

/-- An error leaves nothing behind but the conditions that are sent before it. -/
theorem monitorCondChange_error
    (h : (s.monitorCondChange d session params).1 = .error (.reply error)) :
    (s.monitorCondChange d session params).2 =
      (s.sends d session params).elim s fun (i, m, cond, sent) => s.stored i m cond sent := by
  rcases params with _ | ⟨id, _ | ⟨newId, _ | ⟨requests, _ | ⟨x, rest⟩⟩⟩⟩
  case cons.cons.cons.nil =>
    simp only [monitorCondChange] at h ⊢
    cases hfind : s.findMonitor session id with
    | none => cases requests <;> simp [sends, hfind]
    | some i =>
      cases hm : s.monitors[i]? with
      | none => cases requests <;> simp [sends, hfind, hm]
      | some m =>
        simp only [hfind, hm] at h ⊢
        cases requests with
        | object requests =>
          simp only [sends, hfind, hm, Option.bind_eq_bind, Option.bind_some]
          split at h
          next hduplicate => rw [if_pos hduplicate, if_pos hduplicate]; rfl
          next hduplicate =>
            rw [if_neg hduplicate, if_neg hduplicate, condChange_error hm h]
            cases m.condition <;> rfl
        | _ => split <;> rfl
  case cons.cons.cons.cons => cases requests <;> rfl
  all_goals rfl

theorem monitors_of_sends {cond : SessionCondition} {sent : List (String × Condition)}
    (h : s.sends d session params = some (i, m, cond, sent)) :
    s.monitors[i]? = some m ∧ m.condition = some cond := by
  unfold sends at h
  split at h
  · simp only [Option.bind_eq_bind, Option.bind_eq_some_iff] at h
    obtain ⟨i', -, m', hm, h⟩ := h
    split at h
    · cases h
    · obtain ⟨cond', hcond, h⟩ := Option.bind_eq_some_iff.mp h
      cases h
      exact ⟨hm, hcond⟩
  · cases h

theorem conditions_stored {cond : SessionCondition} {sent : List (String × Condition)}
    (hm : s.monitors[i]? = some m) (hcond : m.condition = some cond) :
    (s.stored i m cond sent).conditions = s.conditions ↔
      sent.foldl storeAt cond.tables = cond.tables := by
  rw [conditions, conditions, stored, condition_foldl_store, List.map_set]
  constructor
  · intro h
    have hi := congrArg (·[i]?) h
    simp only [List.getElem?_set_self', List.getElem?_map, hm, Option.map_some, hcond] at hi
    exact congrArg SessionCondition.tables (Option.some.inj (Option.some.inj hi))
  · intro h
    rw [h, ← List.map_set]
    congr 1
    exact (congrArg (s.monitors.set i) (by rw [← hcond])).trans (set_self hm)

theorem stored_eq_self {cond : SessionCondition} {sent : List (String × Condition)}
    (hm : s.monitors[i]? = some m) (hcond : m.condition = some cond)
    (hsame : sent.foldl storeAt cond.tables = cond.tables) (hmonitored : Monitored s.dbmon sent) :
    s.stored i m cond sent = s := by
  rw [stored, condition_foldl_store, dbmon_foldl_store hmonitored, hsame, ← hcond, set_self hm]

end

/-- A rejected request leaves the conditions as they are iff the last one that it sends for each
    table before the error is there.  Then all that is sent later is the same, if it sends no
    columns that are not monitored. -/
theorem rejected_condChange_no_effect (s : Backend) (d : Doubles) (session : Nat)
    (params : List Json) (error : OvsdbError)
    (hreply : (s.monitorCondChange d session params).1 = .error (.reply error)) :
    ((s.monitorCondChange d session params).2.conditions = s.conditions ↔
      ∀ i m cond sent, s.sends d session params = some (i, m, cond, sent) →
        ResendsLast cond sent) ∧
    ((∀ i m cond sent, s.sends d session params = some (i, m, cond, sent) →
        ResendsLast cond sent ∧ Monitored s.dbmon sent) →
      ∀ later, ((s.monitorCondChange d session params).2.run d later).1 = (s.run d later).1) := by
  rw [monitorCondChange_error hreply]
  cases hsends : s.sends d session params with
  | none =>
    refine ⟨⟨fun _ i m cond sent h => ?_, fun _ => rfl⟩, fun _ _ => rfl⟩
    cases h
  | some found =>
    obtain ⟨i, m, cond, sent⟩ := found
    obtain ⟨hm, hcond⟩ := monitors_of_sends hsends
    simp only [Option.elim_some, Option.some.injEq, Prod.mk.injEq]
    constructor
    · rw [conditions_stored hm hcond, foldl_storeAt_eq_self]
      constructor
      · rintro h _ _ _ _ ⟨rfl, rfl, rfl, rfl⟩
        exact h
      · exact fun h => h i m cond sent ⟨rfl, rfl, rfl, rfl⟩
    · intro h later
      obtain ⟨hlast, hmonitored⟩ := h i m cond sent ⟨rfl, rfl, rfl, rfl⟩
      rw [stored_eq_self hm hcond (foldl_storeAt_eq_self.mpr hlast) hmonitored]

/-! ## 4. A table of ports -/

def nameColumn : Column :=
  { name := "name", mutable := true, persistent := true, type := { key := { type := .string } } }

def portSchema : Schema :=
  { tables := [{ name := "Port", isRoot := true
                 columns := [uuidColumn, versionColumn, nameColumn] }] }

def portTable : MonitorTable :=
  { name := "Port", select := .all
    columns := [{ index := 2, column := nameColumn, select := .all, monitored := true }] }

/-- A session that monitors the names of all ports. -/
def watching : Backend :=
  ({ db := { schema := portSchema }, dbmon := { tables := [portTable] } : Backend }.create 0
    (.string "ports") .v2 (some { tables := [{ table := "Port" }] }) 0).2

def portRequest (elems : List Json) : List Json :=
  [.string "ports", .string "ports", .object [("Port", .array elems)]]

/-- No port at all, and then something that is not allowed. -/
def halfRequest : List Json :=
  portRequest [.object [("where", .array [.bool false])], .object [("columns", .array [])]]

def addPort : List Event :=
  [.commit 1 [{ key := ⟨"Port", 5⟩, old := none, changed := []
                new := some { fields := [[⟨.uuid 5, none⟩], [⟨.uuid 1, none⟩],
                  [⟨.string "p", none⟩]] } }],
   .sessionRun 0 none]

def portConditions (s : Backend) : List (Option Condition) :=
  s.conditions.map fun cond => (cond.bind fun cond => cond.find "Port").map TableCondition.new

/-- The condition that is there, and then something that is not allowed. -/
def sameRequest : List Json :=
  portRequest [.object [("where", .array [])], .object [("columns", .array [])]]

theorem rejected_condChange_same :
    (watching.monitorCondChange noDoubles 0 sameRequest).2.conditions = watching.conditions ∧
      ((watching.monitorCondChange noDoubles 0 sameRequest).2.run noDoubles addPort).1 =
        (watching.run noDoubles addPort).1 := by
  have hsent : sentBefore noDoubles portSchema (fun name => (watching.dbmon.table? name).isSome)
      [("Port", .array [.object [("where", .array [])], .object [("columns", .array [])]])] =
      [("Port", {})] := rfl
  have hsends : ∀ i m cond sent,
      watching.sends noDoubles 0 sameRequest = some (i, m, cond, sent) →
      ResendsLast cond sent ∧ Monitored watching.dbmon sent := by
    rintro i m cond sent ⟨⟩
    rw [show watching.db.schema = portSchema from rfl, hsent]
    constructor
    · intro name c mtc hlast hfind
      simp only [List.reverse_singleton, lookup_cons_ite] at hlast
      split at hlast
      · cases hlast
        subst name
        cases hfind
        rfl
      · cases hlast
    · simp [Monitored, Condition.getColumns]
  obtain ⟨hsame, hlater⟩ :=
    rejected_condChange_no_effect watching noDoubles 0 sameRequest _ rfl
  exact ⟨hsame.mpr fun i m cond sent h => (hsends i m cond sent h).1, hlater hsends addPort⟩

/-- A request that is rejected at its second condition has stored the first one: the
    condition of the session is another one, and a new port is not sent to it. -/
theorem rejected_condChange_stored :
    (∃ error, (watching.monitorCondChange noDoubles 0 halfRequest).1 = .error (.reply error)) ∧
      (watching.monitorCondChange noDoubles 0 halfRequest).2.portConditions ≠
        watching.portConditions ∧
      ((watching.run noDoubles addPort).1.map fun sent => sent.2.length) = [1] ∧
      (((watching.monitorCondChange noDoubles 0 halfRequest).2.run noDoubles addPort).1.map
        fun sent => sent.2.length) = [0] := by
  refine ⟨⟨_, rfl⟩, ?_, ?_, ?_⟩
  · decide
  · decide
  · decide

end Backend

end Ovsgw.Ovsdb
