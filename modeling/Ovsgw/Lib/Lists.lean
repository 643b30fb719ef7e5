/-
  **Lists** that are sorted by one order and read by another, and what is left of a list
  that is filtered and mapped.
-/
import Mathlib.Data.List.Sort

namespace Lists

open List

variable {α : Type} {r : α → α → Prop} [DecidableRel r] {f : α → Nat}

section

variable (hle : ∀ a b, r a b → f a ≤ f b) (hge : ∀ a b, ¬ r a b → f b ≤ f a)
include hle hge

theorem orderedInsert_pairwise (a : α) {l : List α} (h : l.Pairwise fun a b => f a ≤ f b) :
    (l.orderedInsert r a).Pairwise fun a b => f a ≤ f b := by
  induction l with
  | nil => simp
  | cons b l ih =>
    have hb := pairwise_cons.mp h
    by_cases hab : r a b
    · rw [orderedInsert_cons_of_le r l hab]
      apply pairwise_cons.mpr ⟨?_, h⟩
      exact forall_mem_cons.mpr ⟨hle a b hab, fun c hc => (hle a b hab).trans (hb.1 c hc)⟩
    · rw [orderedInsert_of_not_le r l hab]
      apply pairwise_cons.mpr ⟨?_, ih hb.2⟩
      intro c hc
      rcases mem_orderedInsert r |>.mp hc with rfl | hc
      · exact hge c b hab
      · exact hb.1 c hc

theorem insertionSort_pairwise (l : List α) :
    (l.insertionSort r).Pairwise fun a b => f a ≤ f b := by
  induction l with
  | nil => exact Pairwise.nil
  | cons a l ih => exact orderedInsert_pairwise hle hge a ih

end

theorem nodup_map_filterMap {α β γ : Type} {f : α → Option β} {g : β → γ} {h : α → γ}
    {l : List α} (hf : ∀ a b, f a = some b → g b = h a) (hl : (l.map h).Nodup) :
    ((l.filterMap f).map g).Nodup := by
  rw [List.Nodup, pairwise_map] at *
  apply hl.filterMap
  intro a a' hne b hb b' hb'
  rwa [hf a b hb, hf a' b' hb']

/-- A bound that is the largest of the values of a list. -/
theorem le_of_mem {α : Type} {g : α → Nat} {f : List α → Nat}
    (hf : ∀ x l, f (x :: l) = max (g x) (f l)) {x : α} {l : List α} (h : x ∈ l) : g x ≤ f l := by
  induction h with
  | head l => exact hf x l ▸ Nat.le_max_left _ _
  | tail y _ ih => exact hf y _ ▸ ih.trans (Nat.le_max_right _ _)

/-- Steps that each give a key of their own its value in `target` lead to `target`. -/
theorem foldlM_update {α κ β : Type} [DecidableEq κ] {m : Type → Type} [Monad m] [LawfulMonad m]
    {step : (κ → β) → α → m (κ → β)} {k : α → κ} {start target : κ → β} {l : List α}
    (hnodup : (l.map k).Nodup) (hstep : ∀ a ∈ l, ∀ f : κ → β, f (k a) = start (k a) →
      step f a = pure (Function.update f (k a) (target (k a))))
    (hrest : ∀ key, key ∉ l.map k → start key = target key) : l.foldlM step start = pure target := by
  induction l generalizing start with
  | nil => rw [foldlM_nil, funext fun key => hrest key not_mem_nil]
  | cons a l ih =>
    obtain ⟨hfresh, hnodup⟩ := nodup_cons.mp hnodup
    rw [foldlM_cons, hstep a mem_cons_self start rfl, pure_bind]
    apply ih hnodup
    · intro a' ha' f hf
      have hne : k a' ≠ k a := fun heq => hfresh (heq ▸ mem_map_of_mem ha')
      rw [Function.update_of_ne hne] at hf
      exact hstep a' (mem_cons_of_mem a ha') f hf
    · intro key hkey
      by_cases heq : key = k a
      · rw [heq, Function.update_self]
      · rw [Function.update_of_ne heq]
        exact hrest key (not_mem_cons_of_ne_of_not_mem heq hkey)

theorem find?_beq {α β : Type} [BEq β] [LawfulBEq β] {f : α → β} {b : β} {l : List α} {a : α}
    (h : l.find? (fun x => f x == b) = some a) : a ∈ l ∧ f a = b :=
  ⟨mem_of_find?_eq_some h, by simpa using find?_some h⟩

theorem find?_beq_of_mem {α β : Type} [BEq β] [LawfulBEq β] {f : α → β} {l : List α} {a : α}
    (hnodup : (l.map f).Nodup) (ha : a ∈ l) : l.find? (fun x => f x == f a) = some a := by
  cases hfind : l.find? (fun x => f x == f a) with
  | none => exact absurd (find?_eq_none.mp hfind a ha) (by simp)
  | some b =>
    obtain ⟨hb, hab⟩ := find?_beq hfind
    rw [inj_on_of_nodup_map hnodup hb ha hab]

theorem any_congr_mem {p q : α → Bool} {l : List α} (h : ∀ a ∈ l, p a = q a) :
    l.any p = l.any q := by
  induction l with
  | nil => rfl
  | cons a l ih =>
    rw [any_cons, any_cons, h a mem_cons_self, ih fun b hb => h b (mem_cons_of_mem a hb)]

end Lists
