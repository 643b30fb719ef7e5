/-
  **The state of a transaction, and aborting it.**

  What the operations on the state do to one row, the rule for
  `for_each_txn_row`, and the rows as they were before the transaction: no function
  changes those, so aborting can bring them back from any point.
-/
import Ovsgw.Lib.EState
import Ovsgw.Ovsdb.Transaction
import Mathlib.Data.Finset.Card
import Mathlib.Data.Finset.Dedup

namespace Ovsgw.Ovsdb

open EState List

/-! ## 1. Looking at one row -/

namespace Txn

variable (s : Txn) (k k' : RowKey)

@[simp] theorem getRow_setRow (row : Row) :
    (s.setRow k row).getRow k' = if k' = k then some row else s.getRow k' := by
  split
  next h =>
    subst h
    exact AList.lookup_insert _
  next h => exact AList.lookup_insert_ne h

@[simp] theorem getRow_removeRow :
    (s.removeRow k).getRow k' = if k' = k then none else s.getRow k' := by
  split
  next h =>
    subst h
    exact AList.lookup_erase _ _
  next h => exact AList.lookup_erase_ne h

@[simp] theorem txnRow_setTxnRow (r : TxnRow) :
    (s.setTxnRow k r).txnRow k' = if k' = k then some r else s.txnRow k' := by
  split
  next h =>
    subst h
    exact AList.lookup_insert _
  next h => exact AList.lookup_insert_ne h

@[simp] theorem txnRow_removeTxnRow :
    (s.removeTxnRow k).txnRow k' = if k' = k then none else s.txnRow k' := by
  split
  next h =>
    subst h
    exact AList.lookup_erase _ _
  next h => exact AList.lookup_erase_ne h

@[simp] theorem txnRow_removeRow : (s.removeRow k).txnRow k' = s.txnRow k' := rfl

@[simp] theorem getRow_removeTxnRow : (s.removeTxnRow k).getRow k' = s.getRow k' := rfl

@[simp] theorem getRow_rowModify : (s.rowModify k).getRow k' = s.getRow k' := by
  rw [getRow, rowModify_db, getRow]

/-- The part that a row has in a transaction once the transaction has looked at it. -/
def pulled (s : Txn) (k : RowKey) : Option TxnRow :=
  (s.txnRow k).or ((s.getRow k).map fun row => { old := some row, nRefs := row.nRefs })

@[simp] theorem txnRow_rowModify :
    (s.rowModify k).txnRow k' = if k' = k then s.pulled k else s.txnRow k' := by
  unfold rowModify pulled
  split
  next row hrow htxn =>
    rw [rowCreate, txnRow_setTxnRow, hrow, htxn]
    rfl
  next hnot =>
    split
    · rename_i h
      subst h
      cases htxn : s.txnRow k' with
      | some r => rfl
      | none =>
        cases hrow : s.getRow k' with
        | none => rfl
        | some row => exact absurd htxn (hnot row hrow)
    · rfl

/-! ## 2. The rows before the transaction -/

/-- The row as it was before the transaction. -/
def before (s : Txn) (k : RowKey) : Option Row :=
  match s.txnRow k with
  | some r => r.old
  | none => s.getRow k

theorem txnRow_rowAbort : (s.rowAbort k).txnRow k' = if k' = k then none else s.txnRow k' := by
  unfold rowAbort
  cases hr : s.txnRow k with
  | none =>
    dsimp only
    by_cases h : k' = k
    · rw [if_pos h, h, hr]
    · rw [if_neg h]
  | some r =>
    rw [← txnRow_removeTxnRow]
    dsimp only
    cases r.old <;> rfl

theorem getRow_rowAbort :
    (s.rowAbort k).getRow k' = if k' = k then s.before k else s.getRow k' := by
  unfold rowAbort before
  cases hr : s.txnRow k with
  | none =>
    dsimp only
    by_cases h : k' = k
    · rw [if_pos h, h]
    · rw [if_neg h]
  | some r =>
    dsimp only
    cases r.old with
    | none => exact getRow_removeRow _ k k'
    | some old => exact getRow_setRow _ k k' old

theorem rowAbort_db : (s.rowAbort k).db = { s.db with rows := (s.rowAbort k).db.rows } := by
  unfold rowAbort
  cases s.txnRow k with
  | none => rfl
  | some r =>
    dsimp only
    cases r.old <;> rfl

variable {s k}

theorem before_of_txnRow {r : TxnRow} (h : s.txnRow k = some r) : s.before k = r.old := by
  rw [before, h]

theorem before_of_none (h : s.txnRow k = none) : s.before k = s.getRow k := by
  rw [before, h]

theorem before_congr {s' : Txn} (htxn : s'.txnRow k = s.txnRow k)
    (hrow : s'.getRow k = s.getRow k) : s'.before k = s.before k := by
  rw [before, before, htxn, hrow]

end Txn

/-- Both states belong to a transaction on the same database. -/
structure SameBefore (s s' : Txn) : Prop where
  before : ∀ k, s'.before k = s.before k
  schema : s'.db.schema = s.db.schema
  indexes : s'.db.indexes = s.db.indexes
  weakRefs : s'.db.weakRefs = s.db.weakRefs

instance : IsPreorder Txn SameBefore where
  refl _ := ⟨fun _ => rfl, rfl, rfl, rfl⟩
  trans _ _ _ h h' :=
    ⟨fun k => (h'.before k).trans (h.before k), h'.schema.trans h.schema,
      h'.indexes.trans h.indexes, h'.weakRefs.trans h.weakRefs⟩

namespace SameBefore

variable {s : Txn} {k : RowKey}

section
variable {s' : Txn} (hrow : ∀ k' ≠ k, s'.getRow k' = s.getRow k')
  (hschema : s'.db.schema = s.db.schema) (hindexes : s'.db.indexes = s.db.indexes)
  (hweak : s'.db.weakRefs = s.db.weakRefs)

include hrow hschema hindexes hweak

/-- A step that is about one row only. -/
theorem of_ne (htxn : ∀ k' ≠ k, s'.txnRow k' = s.txnRow k') (hbefore : s'.before k = s.before k) :
    SameBefore s s' where
  before k' := by
    by_cases h : k' = k
    · rw [h, hbefore]
    · exact Txn.before_congr (htxn k' h) (hrow k' h)
  schema := hschema
  indexes := hindexes
  weakRefs := hweak

theorem of_rows (htxn : ∀ k', s'.txnRow k' = s.txnRow k') (hk : (s.txnRow k).isSome) :
    SameBefore s s' := by
  apply of_ne hrow hschema hindexes hweak fun k' _ => htxn k'
  obtain ⟨r, hr⟩ := Option.isSome_iff_exists.mp hk
  rw [Txn.before_of_txnRow hr, Txn.before_of_txnRow ((htxn k).trans hr)]

end

theorem setTxnRow {r : TxnRow} (h : s.before k = r.old) : SameBefore s (s.setTxnRow k r) := by
  refine of_ne (k := k) (fun _ _ => rfl) rfl rfl rfl (fun k' hk => ?_) ?_
  · rw [Txn.txnRow_setTxnRow, if_neg hk]
  · rw [h]
    exact Txn.before_of_txnRow (by rw [Txn.txnRow_setTxnRow, if_pos rfl])

theorem setRow {row : Row} (h : (s.txnRow k).isSome) : SameBefore s (s.setRow k row) :=
  of_rows (fun k' hk' => by rw [Txn.getRow_setRow, if_neg hk']) rfl rfl rfl (fun _ => rfl) h

theorem removeRow (h : (s.txnRow k).isSome) : SameBefore s (s.removeRow k) :=
  of_rows (fun k' hk' => by rw [Txn.getRow_removeRow, if_neg hk']) rfl rfl rfl (fun _ => rfl) h

theorem rowModify : SameBefore s (s.rowModify k) := by
  unfold Txn.rowModify
  split
  next row hrow htxn => exact setTxnRow (by rw [Txn.before_of_none htxn, hrow])
  · exact refl s

theorem rowAbort : SameBefore s (s.rowAbort k) where
  before k' := by
    by_cases hk : k' = k
    · subst hk
      rw [Txn.before_of_none (by rw [Txn.txnRow_rowAbort, if_pos rfl]), Txn.getRow_rowAbort,
        if_pos rfl]
    · apply Txn.before_congr
      · rw [Txn.txnRow_rowAbort, if_neg hk]
      · rw [Txn.getRow_rowAbort, if_neg hk]
  schema := (congrArg Database.schema (Txn.rowAbort_db s k)).trans rfl
  indexes := (congrArg Database.indexes (Txn.rowAbort_db s k)).trans rfl
  weakRefs := (congrArg Database.weakRefs (Txn.rowAbort_db s k)).trans rfl

end SameBefore

/-! ## 3. Every function keeps the rows before the transaction -/

variable {E : OvsdbError → Txn → Prop} {cb : RowKey → TxnM Unit}
  {order : Nat → List RowKey → RowKey} {column : Column} {delta : Int} {idx : Nat} {env : TxnEnv}
  {s : Txn} {I : List RowKey → Txn → Prop}

section

variable (k : RowKey) (s : Txn) {pending : List RowKey}

theorem keeps_adjustRef {target : RowKey} :
    Keeps SameBefore (adjustRef k column delta target) s := by
  refine .ite (fun _ => .pure) fun _ => ?_
  refine Ensures.bind (Q := fun r s' => SameBefore s s' ∧ s'.txnRow target = r)
    (E := fun _ => SameBefore s) ⟨SameBefore.rowModify, rfl⟩ ?_
  rintro r s' ⟨hs', hr⟩
  cases r with
  | none => exact hs'
  | some r =>
    have hstep : SameBefore s' (s'.setTxnRow target { r with nRefs := r.nRefs + delta }) :=
      .setTxnRow (by rw [Txn.before_of_txnRow hr])
    exact IsTrans.trans _ _ _ hs' hstep

theorem keeps_adjustRowRefs {row : Row} :
    Keeps SameBefore (adjustRowRefs k row column idx delta) s := by
  have hrefs : ∀ base atoms s, Keeps SameBefore (adjustAtomRefs k column base atoms delta) s :=
    fun base atoms s => .forM fun target _ s => keeps_adjustRef k s
  exact .bind (hrefs _ _ s) fun _ s' _ => hrefs _ _ s'

theorem keeps_adjustRefs {row : Option Row} :
    Keeps SameBefore (adjustRefs k row column idx delta) s := by
  cases row with
  | none => exact .pure
  | some row => exact keeps_adjustRowRefs k s

theorem keeps_updateRowRefCount : Keeps SameBefore (updateRowRefCount k) s := by
  refine .get_bind ?_
  cases s.txnRow k with
  | none => exact .pure
  | some r =>
    refine .forM ?_
    rintro ⟨column, idx⟩ - s'
    refine .ite (fun _ => ?_) fun _ => .pure
    exact .bind (.adaptExcept (keeps_adjustRefs k s')) fun _ s'' _ =>
      keeps_adjustRefs k s''

theorem keeps_checkRefCount : Keeps SameBefore (checkRefCount k) s := by
  refine .get_bind ?_
  cases s.txnRow k with
  | none => exact .pure
  | some r => exact .ite (fun _ => .pure) fun _ => .throw

theorem deleteRowRefs_ensures {I : Txn → List RowKey → Prop}
    (hfail : ∀ s target pending, I s (target :: pending) → ∀ e, E e (s.rowModify target))
    (hstep : ∀ s target pending r row, I s (target :: pending) →
      (s.rowModify target).txnRow target = some r → r.nRefs ≠ 0 → s.getRow target = some row →
      let s' := (s.rowModify target).setTxnRow target { r with nRefs := r.nRefs - 1 }
      (r.nRefs = 1 ∧ ¬ s.db.schema.isRoot target.table →
        I (s'.removeRow target) (rowTargets (s.columns target) target row ++ pending)) ∧
      (¬ (r.nRefs = 1 ∧ ¬ s.db.schema.isRoot target.table) → I s' pending))
    {s : Txn} (h : I s pending) :
    Ensures (fun s => deleteRowRefs s pending) s (fun _ s' => I s' []) E := by
  unfold Ensures
  dsimp only
  fun_induction deleteRowRefs s pending with
  | case1 s => exact h
  | case2 s target pending => exact hfail s target pending h _
  | case3 s target pending => exact hfail s target pending h _
  | case4 s target pending => exact hfail s target pending h _
  | case5 s target pending s' r hr hn row hrow s'' hgarbage ih =>
    rw [Txn.getRow_rowModify] at hrow
    apply ih
    apply (hstep s target pending r row h hr hn hrow).1
    exact ⟨by omega, hgarbage.2⟩
  | case6 s target pending s' r hr hn row hrow s'' hkeep ih =>
    rw [Txn.getRow_rowModify] at hrow
    apply ih
    apply (hstep s target pending r row h hr hn hrow).2
    rintro ⟨hone, hroot⟩
    exact hkeep ⟨by omega, hroot⟩

theorem keeps_deleteRowRefs :
    Keeps SameBefore (fun s => deleteRowRefs s pending) s := by
  refine deleteRowRefs_ensures (I := fun s' _ => SameBefore s s') (fun s' _ _ h _ => ?_) ?_ (refl s)
  · exact IsTrans.trans _ _ _ h .rowModify
  · intro s' target pending r row h hr _ _
    have hset : SameBefore s (((s'.rowModify target).setTxnRow target
        { r with nRefs := r.nRefs - 1 })) :=
      IsTrans.trans _ _ _ (IsTrans.trans _ _ _ h .rowModify)
        (.setTxnRow (by rw [Txn.before_of_txnRow hr]))
    refine ⟨fun _ => IsTrans.trans _ _ _ hset (.removeRow ?_), fun _ => hset⟩
    rw [Txn.txnRow_setTxnRow, if_pos rfl]
    rfl

theorem keeps_collectGarbage : Keeps SameBefore (collectGarbage k) s := by
  refine .get_bind ?_
  split
  next r row hr _ =>
    refine .ite (fun _ => .get_bind (.ite (fun _ => .pure) fun _ => ?_)) fun _ => .pure
    refine .bind (.modify (.removeRow ?_)) fun _ s' _ => keeps_deleteRowRefs s'
    rw [hr]
    rfl
  · exact .pure

theorem keeps_determineChanges : Keeps SameBefore (determineChanges k) s := by
  refine .get_bind ?_
  cases hr : s.txnRow k with
  | none => exact .pure
  | some r =>
    have hset : ∀ changed, SameBefore s (s.setTxnRow k { r with changed }) :=
      fun changed => .setTxnRow (by rw [Txn.before_of_txnRow hr])
    dsimp only
    split
    · exact .ite (fun _ => .modify .rowAbort) fun _ => .modify (hset _)
    · exact .modify (hset _)

theorem keeps_checkMaxRows : Keeps SameBefore checkMaxRows s :=
  .get_bind (.forM fun _ _ _ => .ite (fun _ => .throw) fun _ => .pure)

theorem keeps_assessColumn : Keeps SameBefore (assessColumn k column idx) s := by
  refine .get_bind ?_
  split
  next r row hr _ =>
    have hadd : SameBefore s (addWeakRefs k (weakScan s column (row.datum idx)).targets s) :=
      ⟨fun _ => rfl, rfl, rfl, rfl⟩
    refine .modify_bind hadd (.ite (fun _ => .pure) fun _ => ?_)
    refine .modify_bind (.setTxnRow (by rw [hadd.before k, Txn.before_of_txnRow hr])) ?_
    refine .modify_bind (.setRow ?_) (.ite (fun _ => .throw) fun _ => .pure)
    rw [Txn.txnRow_setTxnRow, if_pos rfl]
    rfl
  · exact .pure

theorem keeps_assessWeakRefs : Keeps SameBefore (assessWeakRefs k) s := by
  refine .get_bind ?_
  split
  · refine .forM ?_
    rintro ⟨column, idx⟩ - s'
    exact keeps_assessColumn k s'
  · exact .ite (fun _ => .forM fun _ _ _ => .modify .rowModify) fun _ => .pure
  · exact .pure

theorem keeps_checkIndexUniqueness (d : Doubles) (k : RowKey) (s : Txn) :
    Keeps SameBefore (checkIndexUniqueness d k) s := by
  refine .get_bind ?_
  cases s.getRow k with
  | none => exact .pure
  | some row =>
    refine .forM ?_
    rintro ⟨set, i⟩ - s'
    have hadd : ∀ nodes, SameBefore s' { s' with txnIndexes := nodes } :=
      fun _ => ⟨fun _ => rfl, rfl, rfl, rfl⟩
    refine .get_bind ?_
    dsimp only
    split
    · exact .throw
    · split
      · exact .ite (fun _ => .throw) fun _ => .modify (hadd _)
      · exact .modify (hadd _)

theorem keeps_updateVersion (version : RowKey → Uuid) (k : RowKey) (s : Txn) :
    Keeps SameBefore (updateVersion version k) s := by
  refine .get_bind ?_
  split
  next r row hr _ =>
    refine .ite (fun _ => ?_) fun _ => .pure
    refine .modify_bind (.setTxnRow (by rw [Txn.before_of_txnRow hr])) (.modify (.setRow ?_))
    rw [Txn.txnRow_setTxnRow, if_pos rfl]
    rfl
  · exact .pure

theorem keeps_forEachTxnRow {R : Txn → Txn → Prop} [IsPreorder Txn R]
    (h : ∀ k s, Keeps R (cb k) s) : Keeps R (forEachTxnRow order cb) s := by
  suffices hloop : ∀ n processed s, Keeps R (forEachLoop order cb n processed) s from
    .get_bind (hloop _ _ s)
  intro n
  induction n with
  | zero => exact fun _ _ => .pure
  | succ n ih =>
    intro processed s
    refine .get_bind ?_
    split
    · exact .pure
    · exact .bind (h _ s) fun _ s' _ => ih _ s'

theorem keeps_precommit : Keeps SameBefore (precommit env) s := by
  refine .bind (keeps_forEachTxnRow s keeps_determineChanges) fun _ s _ => .get_bind ?_
  refine .ite (fun _ => .pure) fun _ => ?_
  refine .bind (keeps_forEachTxnRow s keeps_updateRowRefCount) fun _ s _ => ?_
  refine .bind (keeps_forEachTxnRow s keeps_checkRefCount) fun _ s _ => ?_
  refine .bind (.adaptExcept (keeps_forEachTxnRow s keeps_collectGarbage)) fun _ s _ => ?_
  refine .bind (keeps_checkMaxRows s) fun _ s _ => ?_
  refine .bind (keeps_forEachTxnRow s keeps_assessWeakRefs) fun _ s _ => ?_
  refine .bind (keeps_forEachTxnRow s (keeps_checkIndexUniqueness env.doubles)) fun _ s _ => ?_
  exact .adaptExcept (keeps_forEachTxnRow s (keeps_updateVersion env.version))

theorem keeps_rowInsert {version : RowKey → Uuid} {columns : List Datum} :
    Keeps SameBefore (rowInsert version k columns) s := by
  refine .get_bind (.ite (fun hmay => ?_) fun _ => .throw)
  rw [mayCreateRow, Bool.and_eq_true, Option.isNone_iff_eq_none, Option.isNone_iff_eq_none] at hmay
  obtain ⟨hrow, htxn⟩ := hmay
  refine .modify_bind (.setTxnRow ?_) (.modify (.setRow ?_))
  · rw [Txn.before_of_none htxn, hrow]
  · rw [Txn.rowCreate, Txn.txnRow_setTxnRow, if_pos rfl]
    rfl

theorem keeps_rowSet {datum : Datum} : Keeps SameBefore (rowSet k idx datum) s := by
  refine .modify_bind .rowModify (.get_bind ?_)
  rw [Txn.getRow_rowModify]
  cases hrow : s.getRow k with
  | none => exact .pure
  | some row =>
    refine .modify (.setRow ?_)
    rw [Txn.txnRow_rowModify, if_pos rfl, Txn.pulled, hrow]
    cases s.txnRow k <;> rfl

/-- Deleting a row moves it into the transaction, or out of it again if the
    transaction has inserted it. -/
theorem keeps_rowDelete : Keeps SameBefore (rowDelete k) s := by
  refine .get_bind ?_
  cases hrow : s.getRow k with
  | none => exact .pure
  | some row =>
    have hremove : ∀ k' ≠ k, (s.removeRow k).getRow k' = s.getRow k' := by
      intro k' hk'
      rw [Txn.getRow_removeRow, if_neg hk']
    cases htxn : s.txnRow k with
    | none =>
      refine show SameBefore s ((s.removeRow k).rowCreate k (some row)) from
        .of_ne hremove rfl rfl rfl (fun k' hk' => ?_) ?_
      · rw [Txn.rowCreate, Txn.txnRow_setTxnRow, if_neg hk', Txn.txnRow_removeRow]
      · rw [Txn.before_of_none htxn, hrow]
        exact Txn.before_of_txnRow ((Txn.txnRow_setTxnRow _ k k _).trans (if_pos rfl))
    | some r =>
      refine Ensures.modify_bind (Ensures.ite (fun hnone => ?_) fun _ => ?_)
      · refine show SameBefore s ((s.removeRow k).removeTxnRow k) from
          .of_ne hremove rfl rfl rfl (fun k' hk' => ?_) ?_
        · rw [Txn.txnRow_removeTxnRow, if_neg hk', Txn.txnRow_removeRow]
        · rw [Txn.before_of_txnRow htxn, Option.isNone_iff_eq_none.mp hnone, Txn.before_of_none]
          · rw [Txn.getRow_removeTxnRow, Txn.getRow_removeRow, if_pos rfl]
          · rw [Txn.txnRow_removeTxnRow, if_pos rfl]
      · exact SameBefore.removeRow (by rw [htxn]; rfl)

theorem keeps_op {op : Op} : Keeps SameBefore (op.run env) s := by
  cases op with
  | insert k columns => exact keeps_rowInsert k s
  | modify k idx datum => exact keeps_rowSet k s
  | delete k => exact keeps_rowDelete k s

end

/-! ## 4. Visiting every row of the transaction -/

/-- All rows of the transaction are among `keys`, and the number of those that are not
    processed yet is enough for the loop.  `I` is an invariant of the rows that have been
    processed; when the loop ends, no row is left. -/
theorem forEachLoop_ensures {keys : Finset RowKey}
    (hkeys : ∀ processed s, I processed s → ∀ k ∈ s.rows.keys, k ∈ keys)
    (hcb : ∀ k processed s, I processed s → k ∈ s.rows.keys → k ∉ processed →
      Ensures (cb k) s (fun _ => I (k :: processed)) E)
    {n : Nat} {processed : List RowKey} (hs : I processed s)
    (hn : (keys.filter (· ∉ processed)).card ≤ n) : Ensures (forEachLoop order cb n processed) s
      (fun _ s' => ∃ processed', I processed' s' ∧ ∀ k ∈ s'.rows.keys, k ∈ processed') E := by
  induction n generalizing processed s with
  | zero =>
    refine ⟨processed, hs, fun k hk => ?_⟩
    by_contra hnot
    have hmem : k ∈ keys.filter (· ∉ processed) :=
      Finset.mem_filter.mpr ⟨hkeys processed s hs k hk, hnot⟩
    have hpos := Finset.card_pos.mpr ⟨k, hmem⟩
    omega
  | succ n ih =>
    refine Ensures.get_bind ?_
    cases hleft : s.rows.keys.filter (· ∉ processed) with
    | nil =>
      refine ⟨processed, hs, fun k hk => ?_⟩
      by_contra hnot
      have hmem : k ∈ s.rows.keys.filter (· ∉ processed) :=
        mem_filter.mpr ⟨hk, decide_eq_true hnot⟩
      rw [hleft] at hmem
      cases hmem
    | cons k rest =>
      have hpick : pick (order n (k :: rest)) k rest ∈ s.rows.keys.filter (· ∉ processed) := by
        rw [hleft]
        unfold pick
        split
        · assumption
        · exact mem_cons_self
      obtain ⟨hrow, hnew⟩ := mem_filter.mp hpick
      have hnew := of_decide_eq_true hnew
      refine Ensures.bind (hcb _ processed s hs hrow hnew) fun _ s' hs' => ih hs' ?_
      have hlt : (keys.filter (· ∉ pick (order n (k :: rest)) k rest :: processed)).card <
          (keys.filter (· ∉ processed)).card := by
        apply Finset.card_lt_card
        refine ⟨fun k' hk' => ?_, fun hsub => ?_⟩
        · obtain ⟨hin, hout⟩ := Finset.mem_filter.mp hk'
          exact Finset.mem_filter.mpr ⟨hin, fun h => hout (mem_cons_of_mem _ h)⟩
        · have hmem := hsub (Finset.mem_filter.mpr ⟨hkeys processed s hs _ hrow, hnew⟩)
          exact (Finset.mem_filter.mp hmem).2 mem_cons_self
      omega

/-- Each row is visited once, also those that are added meanwhile. -/
theorem forEachTxnRow_ensures
    (hkeys : ∀ processed s', I processed s' →
      ∀ k ∈ s'.rows.keys, k ∈ s.db.rows.keys ∨ k ∈ s.rows.keys)
    (hcb : ∀ k processed s', I processed s' → k ∈ s'.rows.keys → k ∉ processed →
      Ensures (cb k) s' (fun _ => I (k :: processed)) E) (hs : I [] s) :
    Ensures (forEachTxnRow order cb) s
      (fun _ s' => ∃ processed, I processed s' ∧ ∀ k ∈ s'.rows.keys, k ∈ processed) E := by
  have hkeys' : ∀ processed s', I processed s' →
      ∀ k ∈ s'.rows.keys, k ∈ (s.db.rows.keys ++ s.rows.keys).toFinset := by
    intro processed s' hs' k hk
    rw [mem_toFinset, mem_append]
    exact hkeys processed s' hs' k hk
  refine Ensures.get_bind (forEachLoop_ensures hkeys' hcb hs ?_)
  calc ((s.db.rows.keys ++ s.rows.keys).toFinset.filter (· ∉ [])).card
      ≤ (s.db.rows.keys ++ s.rows.keys).toFinset.card := Finset.card_filter_le _ _
    _ ≤ (s.db.rows.keys ++ s.rows.keys).length := toFinset_card_le _
    _ = s.db.rows.keys.length + s.rows.keys.length := length_append

/-! ## 5. Aborting -/

theorem Txn.mem_keys_iff {k : RowKey} : k ∈ s.rows.keys ↔ (s.txnRow k).isSome :=
  AList.lookup_isSome.symm

/-- Aborting does not fail, leaves no row in the transaction, and every row is again as
    it was before the transaction. -/
theorem abort_ensures (env : TxnEnv) (s : Txn) : Ensures (abort env) s
      (fun _ s' => SameBefore s s' ∧ ∀ k, s'.txnRow k = none ∧ s'.getRow k = s.before k)
      fun _ _ => False := by
  let I : List RowKey → Txn → Prop := fun processed s' =>
    SameBefore s s' ∧ (∀ k ∈ processed, s'.txnRow k = none) ∧ ∀ k ∈ s'.rows.keys, k ∈ s.rows.keys
  refine (forEachTxnRow_ensures (I := I) ?_ ?_ ⟨refl s, ?_, fun _ => id⟩).post ?_
  · intro processed s' hs' k hk
    exact .inr (hs'.2.2 k hk)
  · intro k processed s' hs' _ _
    obtain ⟨hsame, hdone, hsub⟩ := hs'
    refine Ensures.modify ⟨IsTrans.trans _ _ _ hsame .rowAbort, fun k' hk' => ?_, fun k' hk' => ?_⟩
    · rw [Txn.txnRow_rowAbort]
      split
      · rfl
      next hne => exact hdone k' ((mem_cons.mp hk').resolve_left hne)
    · rw [Txn.mem_keys_iff, Txn.txnRow_rowAbort] at hk'
      split at hk'
      · cases hk'
      · exact hsub k' (Txn.mem_keys_iff.mpr hk')
  · intro k hk
    cases hk
  · rintro _ s' ⟨processed, ⟨hsame, hdone, -⟩, hall⟩
    have hnone : ∀ k, s'.txnRow k = none := by
      intro k
      by_contra hsome
      exact hsome (hdone k (hall k (Txn.mem_keys_iff.mpr (Option.isSome_iff_ne_none.mpr hsome))))
    refine ⟨hsame, fun k => ⟨hnone k, ?_⟩⟩
    rw [← Txn.before_of_none (hnone k), hsame.before k]

theorem keeps_runAll {ops : List Op} : Keeps SameBefore (Op.runAll env ops) s :=
  .bind (.forM fun _ _ s => keeps_op s) fun _ s _ => keeps_precommit s

/-- Wherever a transaction fails, aborting it gives back the rows with their columns and
    their counts, the indexes and the weak references of the database it began on. -/
theorem abort_undoes (env : TxnEnv) (ops : List Op) (db : Database) (error : OvsdbError)
    (s : Txn) (hfail : Op.runAll env ops { db } = .error error s) :
    ∃ s', abort env s = .ok () s' ∧ (∀ k, s'.db.rows.lookup k = db.rows.lookup k) ∧
      s'.db.indexes = db.indexes ∧ s'.db.weakRefs = db.weakRefs ∧ s'.db.schema = db.schema ∧
      ∀ k, s'.txnRow k = none := by
  have hsame : SameBefore { db } s := by
    have hkeeps : Ensures (Op.runAll env ops) { db } _ _ := keeps_runAll
    rwa [Ensures, hfail] at hkeeps
  have habort := abort_ensures env s
  unfold Ensures at habort
  cases hs' : abort env s with
  | error error' s' =>
    rw [hs'] at habort
    exact habort.elim
  | ok _ s' =>
    rw [hs'] at habort
    obtain ⟨hend, hrows⟩ := habort
    refine ⟨s', rfl, fun k => ?_, ?_, ?_, ?_, fun k => (hrows k).1⟩
    · exact (hrows k).2.trans (hsame.before k)
    · exact hend.indexes.trans hsame.indexes
    · exact hend.weakRefs.trans hsame.weakRefs
    · exact hend.schema.trans hsame.schema

/-- A schema with one table, whose column `next` refers to rows of the table. -/
def chainSchema : Schema :=
  { tables := [
      { name := "Chain", columns := [uuidColumn, versionColumn,
          { name := "next", mutable := true, persistent := true
            type := { key := { type := .uuid, refTableName := some "Chain" }
                      nMin := 0 } }]
        maxRows := 10, isRoot := true }] }

def plainEnv : TxnEnv :=
  { doubles := ⟨fun _ => [], fun _ => none⟩
    order := fun _ _ keys => keys.headD ⟨"", 0⟩
    version := fun _ => 1 }

def chainRow (uuid : Uuid) (next : List Uuid) (nRefs : Int) : Row :=
  { fields := [[⟨.uuid uuid, none⟩], [⟨.uuid 1, none⟩], next.map fun uuid => ⟨.uuid uuid, none⟩]
    nRefs }

/-- Row 2 refers to row 3. -/
def chainDb : Database :=
  { schema := chainSchema
    rows := AList.insert ⟨"Chain", 2⟩ (chainRow 2 [3] 0) (AList.insert ⟨"Chain", 3⟩
      (chainRow 3 [] 1) (AList.insert ⟨"Chain", 4⟩ (chainRow 4 [] 0) ∅)) }

/-- Row 5 is added, and row 2 refers to row 4 in the end, which is deleted. -/
def danglingOps : List Op :=
  [.insert ⟨"Chain", 5⟩ [[⟨.uuid 3, none⟩]], .modify ⟨"Chain", 2⟩ 2 [⟨.uuid 4, none⟩],
    .delete ⟨"Chain", 4⟩]

theorem abort_undoes_dangling :
    ∃ error s, Op.runAll plainEnv danglingOps { db := chainDb } = .error error s ∧
      s.getRow ⟨"Chain", 4⟩ = none ∧
      ∃ s', abort plainEnv s = .ok () s' ∧ ∀ k, s'.getRow k = chainDb.rows.lookup k := by
  refine ⟨_, _, rfl, rfl, ?_⟩
  obtain ⟨s', hs', hrows, -⟩ := abort_undoes plainEnv danglingOps chainDb _ _ rfl
  exact ⟨s', hs', hrows⟩

end Ovsgw.Ovsdb
