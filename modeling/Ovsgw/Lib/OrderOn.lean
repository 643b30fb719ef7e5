/-
  **Three-way comparisons that order only some values.**

  A comparison function of a program often makes sense for part of its arguments alone, such as
  values of one type, or floating-point numbers that are numbers.  `OrderOn` says that it is an
  order there.  Lists of such values can be sorted, and two strictly sorted lists with the same
  elements are the same list.
-/
import Mathlib.Data.List.Sort

namespace Ovsgw.Lib

open List

/-- `cmp` is a linear preorder on the values that satisfy `P`. -/
structure OrderOn {κ : Type*} (cmp : κ → κ → Ordering) (P : κ → Prop) : Prop where
  swap : ∀ {a b}, P a → P b → (cmp a b).swap = cmp b a
  le_trans : ∀ {a b c}, P a → P b → P c → cmp a b ≠ .gt → cmp b c ≠ .gt → cmp a c ≠ .gt

namespace OrderOn

variable {κ : Type*} {cmp : κ → κ → Ordering} {P : κ → Prop} {a b c : κ}

section

variable (h : OrderOn cmp P)
include h

theorem gt_iff (ha : P a) (hb : P b) : cmp a b = .gt ↔ cmp b a = .lt := by
  rw [← h.swap ha hb]
  cases cmp a b <;> simp

theorem eq_comm (ha : P a) (hb : P b) : cmp a b = .eq ↔ cmp b a = .eq := by
  rw [← h.swap ha hb]
  cases cmp a b <;> simp

theorem eq_self (ha : P a) : cmp a a = .eq := by
  have hswap := h.swap ha ha
  cases hcmp : cmp a a <;> simp_all

theorem refl (ha : P a) : cmp a a ≠ .gt := by
  simp [h.eq_self ha]

section

variable (ha : P a) (hb : P b) (hc : P c)
include ha hb hc

theorem lt_of_lt_of_le (hab : cmp a b = .lt) (hbc : cmp b c ≠ .gt) : cmp a c = .lt := by
  by_contra hne
  have hca : cmp c a ≠ .gt := fun hgt => hne ((h.gt_iff hc ha).mp hgt)
  have hba := h.le_trans hb hc ha hbc hca
  exact hba ((h.gt_iff hb ha).mpr hab)

theorem lt_of_le_of_lt (hab : cmp a b ≠ .gt) (hbc : cmp b c = .lt) : cmp a c = .lt := by
  by_contra hne
  have hca : cmp c a ≠ .gt := fun hgt => hne ((h.gt_iff hc ha).mp hgt)
  have hcb := h.le_trans hc ha hb hca hab
  exact hcb ((h.gt_iff hc hb).mpr hbc)

theorem lt_trans (hab : cmp a b = .lt) (hbc : cmp b c = .lt) : cmp a c = .lt :=
  h.lt_of_lt_of_le ha hb hc hab (by simp [hbc])

theorem eq_trans (hab : cmp a b = .eq) (hbc : cmp b c = .eq) : cmp a c = .eq := by
  have hle : cmp a c ≠ .gt := h.le_trans ha hb hc (by simp [hab]) (by simp [hbc])
  have hge : cmp c a ≠ .gt :=
    h.le_trans hc hb ha (by simp [(h.eq_comm hb hc).mp hbc]) (by simp [(h.eq_comm ha hb).mp hab])
  rw [← h.swap ha hc] at hge
  cases hcmp : cmp a c <;> simp_all

end

variable {β : Type*} (key : β → κ) {l m : List β}

theorem pairwise_insertionSort {r : β → β → Prop} [DecidableRel r]
    (hr : ∀ x y, r x y ↔ cmp (key x) (key y) ≠ .gt) (hl : ∀ x ∈ l, P (key x)) :
    (l.insertionSort r).Pairwise r := by
  let s : { x // P (key x) } → { x // P (key x) } → Prop := fun x y => r x y
  have : Std.Total s := by
    constructor
    intro x y
    show r x y ∨ r y x
    rw [hr, hr, ← h.swap x.2 y.2]
    cases cmp (key x) (key y) <;> simp
  have : IsTrans _ s := by
    constructor
    intro x y z hxy hyz
    exact (hr _ _).mpr (h.le_trans x.2 y.2 z.2 ((hr _ _).mp hxy) ((hr _ _).mp hyz))
  have hmap := map_insertionSort s r (Subtype.val : { x // P (key x) } → β)
    (l.attachWith _ hl) fun _ _ _ _ => Iff.rfl
  rw [attachWith_map_subtype_val] at hmap
  rw [← hmap, pairwise_map]
  exact List.pairwise_insertionSort s _

theorem eq_of_perm (hl : ∀ x ∈ l, P (key x))
    (hsorted : l.Pairwise fun x y => cmp (key x) (key y) = .lt)
    (hsorted' : m.Pairwise fun x y => cmp (key x) (key y) = .lt) (hperm : l.Perm m) : l = m := by
  refine List.Perm.eq_of_pairwise ?_ hsorted hsorted' hperm
  intro x y hx hy hxy hyx
  have hPy : P (key y) := hl y (hperm.mem_iff.mpr hy)
  rw [← h.swap (hl x hx) hPy, hxy] at hyx
  cases hyx

end

end OrderOn

end Ovsgw.Lib
