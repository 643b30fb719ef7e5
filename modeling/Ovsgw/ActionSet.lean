/-
  **Executing an action set** (`ofpacts_execute_action_set` in `lib/ofp-actions.c`).

  The actions of a set are sorted into slots, of which the last action wins, into the actions
  that set or move a field, which are all kept, and into final actions, of which the one with the
  highest priority is kept.  The set is executed only if there is a final action.  An action here
  is its type together with whatever else it carries.
-/
import Mathlib.Data.List.Induction
import Ovsgw.OfpActions

namespace Ovsgw

open List

/-- `struct ofpact`, with the rest of the action in `body`. -/
structure Ofpact (α : Type) where
  type : OfpactType
  body : α

/-! ## 1. Classes -/

def actionSetOrder : List OfpactType :=
  [.stripVlan, .popMpls, .decap, .encap, .pushMpls, .pushVlan, .decTtl, .decMplsTtl, .decNshTtl]

def actionSetFinalPriority : List OfpactType := [.ct, .ctClear, .resubmit, .output, .group]

/-- The actions that `action_set_classify` puts into `ACTION_SLOT_SET_OR_MOVE`. -/
def setOrMoveTypes : List OfpactType :=
  [.setField, .regMove, .setEthDst, .setEthSrc, .setIpDscp, .setIpEcn, .setIpTtl, .setIpv4Dst,
   .setIpv4Src, .setL4DstPort, .setL4SrcPort, .setMplsLabel, .setMplsTc, .setMplsTtl, .setQueue,
   .setTunnel, .setVlanPcp, .setVlanVid]

def nActionSlots : Nat := actionSetOrder.length

def actionSlotSetOrMove : Nat := nActionSlots + actionSetFinalPriority.length

def actionSlotInvalid : Nat := actionSlotSetOrMove + 1

def actionSetClassify (type : OfpactType) : Nat :=
  if type ∈ actionSetOrder then actionSetOrder.idxOf type
  else if type ∈ actionSetFinalPriority then nActionSlots + actionSetFinalPriority.idxOf type
  else if type ∈ setOrMoveTypes then actionSlotSetOrMove
  else actionSlotInvalid

/-! ## 2. Execution -/

section
variable {α : Type} {l : List OfpactType} {type : OfpactType}

/-- What the loop of `ofpacts_execute_action_set` has found. -/
structure ActionSetScan (α : Type) where
  slots : List (Option (Ofpact α)) := List.replicate nActionSlots none
  setOrMove : List (Ofpact α) := []
  finalAction : Option (Ofpact α) := none
  finalClass : Nat := 0

def ActionSetScan.add (scan : ActionSetScan α) (cursor : Ofpact α) : ActionSetScan α :=
  let cls := actionSetClassify cursor.type
  if cls < nActionSlots then { scan with slots := scan.slots.set cls (some cursor) }
  else if cls < actionSlotSetOrMove then
    if cls ≥ scan.finalClass then { scan with finalAction := some cursor, finalClass := cls }
    else scan
  else if cls = actionSlotSetOrMove then { scan with setOrMove := scan.setOrMove ++ [cursor] }
  else scan

def ofpactsExecuteActionSet (actionList actionSet : List (Ofpact α)) : List (Ofpact α) :=
  let scan := actionSet.foldl ActionSetScan.add {}
  match scan.finalAction with
  | none => actionList
  | some final => actionList ++ scan.slots.reduceOption ++ scan.setOrMove ++ [final]

/-! ## 3. What is executed -/

/-- The last action of a type in a set. -/
def lastOf (actionSet : List (Ofpact α)) (type : OfpactType) : Option (Ofpact α) :=
  (actionSet.filter (·.type = type)).getLast?

variable {actionSet : List (Ofpact α)} {a : Ofpact α}

theorem lastOf_concat :
    lastOf (actionSet ++ [a]) = Function.update (lastOf actionSet) a.type (some a) := by
  funext type
  by_cases htype : a.type = type
  · subst htype
    simp [lastOf, filter_append]
  · simp [lastOf, filter_append, htype, Function.update_of_ne (Ne.symm htype)]

/-- What the loop has found in a set: the last action of each slot, the actions that set or move,
    and a final action such that no final action has a higher priority or comes later with the
    same one. -/
structure ActionSetScan.Finds (scan : ActionSetScan α) (actionSet : List (Ofpact α)) : Prop where
  slots : scan.slots = actionSetOrder.map (lastOf actionSet)
  setOrMove : scan.setOrMove = actionSet.filter (·.type ∈ setOrMoveTypes)
  none : scan.finalAction = none →
    scan.finalClass = 0 ∧ ∀ a ∈ actionSet, a.type ∉ actionSetFinalPriority
  final : ∀ a, scan.finalAction = some a → a.type ∈ actionSetFinalPriority ∧
    scan.finalClass = actionSetClassify a.type ∧ lastOf actionSet a.type = some a ∧
    ∀ b ∈ actionSet, b.type ∈ actionSetFinalPriority →
      actionSetFinalPriority.idxOf b.type ≤ actionSetFinalPriority.idxOf a.type

theorem classes_disjoint :
    (type ∈ actionSetOrder → type ∉ actionSetFinalPriority ∧ type ∉ setOrMoveTypes) ∧
    (type ∈ actionSetFinalPriority → type ∉ setOrMoveTypes) := by
  cases type <;> decide

theorem actionSetClassify_final (h : type ∈ actionSetFinalPriority) :
    actionSetClassify type = nActionSlots + actionSetFinalPriority.idxOf type := by
  have horder : type ∉ actionSetOrder := fun hmem => (classes_disjoint.1 hmem).1 h
  rw [actionSetClassify, if_neg horder, if_pos h]

theorem set_idxOf_map {β : Type} (hl : l.Nodup) {x : OfpactType}
    {f : OfpactType → β} {v : β} : (l.map f).set (l.idxOf x) v = l.map (Function.update f x v) := by
  apply ext_getElem
  · simp
  · intro j hj hj'
    rw [length_map] at hj'
    rw [getElem_set, getElem_map, getElem_map]
    by_cases hjx : l[j] = x
    · rw [if_pos (by rw [← hjx, hl.idxOf_getElem]), hjx, Function.update_self]
    · rw [if_neg, Function.update_of_ne hjx]
      rintro rfl
      exact hjx (getElem_idxOf hj')

theorem map_lastOf_concat (h : a.type ∉ l) :
    l.map (lastOf (actionSet ++ [a])) = l.map (lastOf actionSet) := by
  apply map_congr_left
  intro type htype
  rw [lastOf_concat, Function.update_of_ne]
  rintro rfl
  exact h htype

variable {scan : ActionSetScan α}

theorem ActionSetScan.Finds.keepFinal
    (h : scan.Finds actionSet) (ha : a.type ∉ actionSetFinalPriority)
    {slots : List (Option (Ofpact α))} {setOrMove : List (Ofpact α)}
    (hslots : slots = actionSetOrder.map (lastOf (actionSet ++ [a])))
    (hmove : setOrMove = (actionSet ++ [a]).filter (·.type ∈ setOrMoveTypes)) :
    ({ scan with slots, setOrMove } : ActionSetScan α).Finds (actionSet ++ [a]) := by
  refine ⟨hslots, hmove, ?_, ?_⟩
  · intro hnone
    obtain ⟨hclass, hall⟩ := h.none hnone
    simp only [mem_append, mem_singleton]
    refine ⟨hclass, ?_⟩
    rintro b (hb | rfl)
    · exact hall b hb
    · exact ha
  · intro f hf
    obtain ⟨htype, hclass, hlast, hall⟩ := h.final f hf
    simp only [mem_append, mem_singleton]
    refine ⟨htype, hclass, ?_, ?_⟩
    · rw [lastOf_concat, Function.update_of_ne, hlast]
      rintro heq
      exact ha (heq ▸ htype)
    · rintro b (hb | rfl) hbtype
      · exact hall b hb hbtype
      · exact absurd hbtype ha

theorem ActionSetScan.Finds.addFinal
    (h : scan.Finds actionSet) (ha : a.type ∈ actionSetFinalPriority) :
    (scan.add a).Finds (actionSet ++ [a]) := by
  have hnotOrder : a.type ∉ actionSetOrder := fun hmem => (classes_disjoint.1 hmem).1 ha
  have hnotMove : a.type ∉ setOrMoveTypes := classes_disjoint.2 ha
  have hidx := idxOf_lt_length_of_mem ha
  have hcls := actionSetClassify_final ha
  have hslots : scan.slots = actionSetOrder.map (lastOf (actionSet ++ [a])) := by
    rw [map_lastOf_concat hnotOrder, h.slots]
  have hmove : scan.setOrMove = (actionSet ++ [a]).filter (·.type ∈ setOrMoveTypes) := by
    simp [filter_append, hnotMove, h.setOrMove]
  have hlast : lastOf (actionSet ++ [a]) a.type = some a := by
    rw [lastOf_concat, Function.update_self]
  rw [ActionSetScan.add, if_neg (by omega), if_pos (by rw [hcls, actionSlotSetOrMove]; omega)]
  split
  · next hge =>
    refine ⟨hslots, hmove, (by rintro ⟨⟩), ?_⟩
    rintro _ ⟨⟩
    refine ⟨ha, rfl, hlast, ?_⟩
    simp only [mem_append, mem_singleton]
    rintro b (hb | rfl) hbtype
    · cases hfound : scan.finalAction with
      | none => exact absurd hbtype ((h.none hfound).2 b hb)
      | some f =>
        obtain ⟨htype, hclass, -, hall⟩ := h.final f hfound
        have hbf := hall b hb hbtype
        rw [hclass, actionSetClassify_final htype, hcls] at hge
        omega
    · exact Nat.le_refl _
  · next hlt =>
    refine ⟨hslots, hmove, ?_, ?_⟩
    · intro hnone
      rw [(h.none hnone).1] at hlt
      exact absurd (Nat.zero_le _) hlt
    · intro f hf
      obtain ⟨htype, hclass, hflast, hall⟩ := h.final f hf
      rw [hclass, actionSetClassify_final htype, hcls] at hlt
      refine ⟨htype, hclass, ?_, ?_⟩
      · rw [lastOf_concat, Function.update_of_ne, hflast]
        intro heq
        rw [heq] at hlt
        omega
      · simp only [mem_append, mem_singleton]
        rintro b (hb | rfl) hbtype
        · exact hall b hb hbtype
        · omega

theorem ActionSetScan.Finds.add
    (h : scan.Finds actionSet) (a : Ofpact α) : (scan.add a).Finds (actionSet ++ [a]) := by
  by_cases hfinal : a.type ∈ actionSetFinalPriority
  · exact h.addFinal hfinal
  · by_cases horder : a.type ∈ actionSetOrder
    · have hidx : actionSetOrder.idxOf a.type < nActionSlots :=
        idxOf_lt_length_of_mem horder
      have hnotMove := (classes_disjoint.1 horder).2
      rw [ActionSetScan.add, actionSetClassify, if_pos horder, if_pos hidx]
      refine h.keepFinal hfinal ?_ (by simp [filter_append, hnotMove, h.setOrMove])
      rw [h.slots, lastOf_concat, set_idxOf_map (by decide)]
    · have hslots : scan.slots = actionSetOrder.map (lastOf (actionSet ++ [a])) := by
        rw [map_lastOf_concat horder, h.slots]
      by_cases hmove : a.type ∈ setOrMoveTypes
      · have hadd : scan.add a = { scan with setOrMove := scan.setOrMove ++ [a] } := by
          simp [ActionSetScan.add, actionSetClassify, horder, hfinal, hmove, actionSlotSetOrMove]
        rw [hadd]
        exact h.keepFinal hfinal hslots (by simp [filter_append, hmove, h.setOrMove])
      · have hadd : scan.add a = scan := by
          simp [ActionSetScan.add, actionSetClassify, horder, hfinal, hmove, actionSlotSetOrMove,
            actionSlotInvalid]
          omega
        rw [hadd]
        exact h.keepFinal hfinal hslots (by simp [filter_append, hmove, h.setOrMove])

theorem actionSet_finds (actionSet : List (Ofpact α)) :
    (actionSet.foldl ActionSetScan.add {}).Finds actionSet := by
  induction actionSet using List.reverseRecOn with
  | nil => exact ⟨rfl, rfl, fun _ => ⟨rfl, by simp⟩, by rintro _ ⟨⟩⟩
  | append_singleton actionSet a ih =>
    rw [foldl_append]
    exact ih.add a

/-- A set without a final action does nothing.  Of any other set, the last action of each slot is
    executed, then every action that sets or moves a field, then the last of the final actions
    with the highest priority. -/
theorem ofpactsExecuteActionSet_eq (actionList actionSet : List (Ofpact α)) :
    ((∀ a ∈ actionSet, a.type ∉ actionSetFinalPriority) →
      ofpactsExecuteActionSet actionList actionSet = actionList) ∧
    ((∃ a ∈ actionSet, a.type ∈ actionSetFinalPriority) →
      ∃ final, final.type ∈ actionSetFinalPriority ∧ lastOf actionSet final.type = some final ∧
        (∀ b ∈ actionSet, b.type ∈ actionSetFinalPriority →
          actionSetFinalPriority.idxOf b.type ≤ actionSetFinalPriority.idxOf final.type) ∧
        ofpactsExecuteActionSet actionList actionSet =
          actionList ++ actionSetOrder.filterMap (lastOf actionSet) ++
            actionSet.filter (·.type ∈ setOrMoveTypes) ++ [final]) := by
  have h := actionSet_finds actionSet
  rw [ofpactsExecuteActionSet]
  cases hfinal : (actionSet.foldl ActionSetScan.add {}).finalAction with
  | none =>
    obtain ⟨-, hall⟩ := h.none hfinal
    refine ⟨fun _ => rfl, ?_⟩
    rintro ⟨a, ha, htype⟩
    exact absurd htype (hall a ha)
  | some final =>
    obtain ⟨htype, -, hlast, hall⟩ := h.final final hfinal
    constructor
    · intro hnone
      have hmem : final ∈ actionSet := (mem_filter.mp (mem_of_getLast? hlast)).1
      exact absurd htype (hnone final hmem)
    · intro _
      refine ⟨final, htype, hlast, hall, ?_⟩
      have hslots : (actionSet.foldl ActionSetScan.add {}).slots.reduceOption =
          actionSetOrder.filterMap (lastOf actionSet) := by
        rw [h.slots]
        exact filterMap_map
      rw [← hslots, ← h.setOrMove]

end

end Ovsgw
