/-
  **Computations that return an error or a value**: what is known when such a
  computation returned a value, for sequences and for loops over lists.
-/
import Mathlib.Data.List.Basic

namespace Results

open List

variable {α β ε : Type} {f : α → Except ε β}

theorem bind_ok {x : Except ε α} {b : β} (h : x >>= f = .ok b) : ∃ a, x = .ok a ∧ f a = .ok b := by
  cases x with
  | error e => cases h
  | ok a => exact ⟨a, rfl, h⟩

variable {l : List α}

theorem mapM_of_inverse {f : β → Except ε α} {g : α → β} (h : ∀ a ∈ l, f (g a) = .ok a) :
    (l.map g).mapM f = .ok l := by
  induction l with
  | nil => rfl
  | cons a l ih =>
    rw [map_cons, mapM_cons, h a mem_cons_self, ih fun b hb => h b (mem_cons_of_mem a hb)]
    rfl

theorem mem_of_mapM {bs : List β} (h : l.mapM f = .ok bs) : ∀ b ∈ bs, ∃ a ∈ l, f a = .ok b := by
  induction l generalizing bs with
  | nil =>
    cases h
    intro b hb
    cases hb
  | cons a l ih =>
    rw [mapM_cons] at h
    obtain ⟨b, hb, h⟩ := bind_ok h
    obtain ⟨bs, hbs, h⟩ := bind_ok h
    cases h
    refine forall_mem_cons.mpr ⟨⟨a, mem_cons_self, hb⟩, fun c hc => ?_⟩
    obtain ⟨a', ha', hc⟩ := ih hbs c hc
    exact ⟨a', mem_cons_of_mem a ha', hc⟩

theorem forM_ok {f : α → Except ε Unit} (h : l.forM f = .ok ()) : ∀ a ∈ l, f a = .ok () := by
  induction l with
  | nil =>
    intro a ha
    cases ha
  | cons first l ih =>
    obtain ⟨⟨⟩, hfirst, h⟩ := bind_ok h
    exact forall_mem_cons.mpr ⟨hfirst, ih h⟩

end Results
