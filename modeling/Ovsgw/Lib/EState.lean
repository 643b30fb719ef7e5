/-
  **Pre- and postconditions of programs that keep their state when they fail.**

  `Ensures m s Q E` says of the run of `m` from `s`: it returns a value and a state with `Q`, or
  fails with an error and a state with `E`.  There is one rule per construct.
-/
import Mathlib.Order.Basic

namespace EState

variable {ε σ α β : Type}

def Ensures (m : EStateM ε σ α) (s : σ) (Q : α → σ → Prop) (E : ε → σ → Prop) : Prop :=
  match m s with
  | .ok a s' => Q a s'
  | .error e s' => E e s'

namespace Ensures

variable {s : σ} {Q : α → σ → Prop} {E : ε → σ → Prop} {m : EStateM ε σ α}

theorem weaken {Q' : α → σ → Prop} {E' : ε → σ → Prop}
    (h : Ensures m s Q E) (hQ : ∀ a s', Q a s' → Q' a s') (hE : ∀ e s', E e s' → E' e s') :
    Ensures m s Q' E' := by
  revert h
  unfold Ensures
  cases m s with
  | ok a s' => exact hQ a s'
  | error e s' => exact hE e s'

theorem post {Q' : α → σ → Prop} (h : Ensures m s Q E)
    (hQ : ∀ a s', Q a s' → Q' a s') : Ensures m s Q' E :=
  h.weaken hQ fun _ _ he => he

theorem pure {a : α} (h : Q a s) : Ensures (pure a) s Q E := h

theorem throw {e : ε} (h : E e s) : Ensures (throw e : EStateM ε σ α) s Q E := h

variable {Q' : β → σ → Prop} {f : σ → σ}

theorem bind {f : α → EStateM ε σ β}
    (h : Ensures m s Q E) (hf : ∀ a s', Q a s' → Ensures (f a) s' Q' E) :
    Ensures (m >>= f) s Q' E := by
  revert h
  show Ensures m s Q E → Ensures (EStateM.bind m f) s Q' E
  unfold Ensures EStateM.bind
  cases m s with
  | ok a s' => exact hf a s'
  | error e s' => exact id

theorem get_bind {f : σ → EStateM ε σ β} (h : Ensures (f s) s Q' E) :
    Ensures (get >>= f) s Q' E := h

theorem modify_bind {k : PUnit → EStateM ε σ β}
    (h : Ensures (k ⟨⟩) (f s) Q' E) : Ensures (modify f >>= k) s Q' E := h

theorem modify {Q : PUnit → σ → Prop} (h : Q ⟨⟩ (f s)) :
    Ensures (modify f : EStateM ε σ PUnit) s Q E := h

theorem ite {p : Prop} [Decidable p] {m' : EStateM ε σ α} (h : p → Ensures m s Q E)
    (h' : ¬ p → Ensures m' s Q E) : Ensures (if p then m else m') s Q E := by
  split
  · exact h ‹_›
  · exact h' ‹_›

theorem forM {xs : List α} {f : α → EStateM ε σ PUnit} {I : List α → σ → Prop} (hs : I [] s)
    (hf : ∀ pre x post s', xs = pre ++ x :: post → I pre s' →
      Ensures (f x) s' (fun _ => I (pre ++ [x])) E) :
    Ensures (xs.forM f) s (fun _ => I xs) E := by
  suffices h : ∀ pre post s', xs = pre ++ post → I pre s' →
      Ensures (post.forM f) s' (fun _ => I xs) E from h [] xs s rfl hs
  intro pre post
  induction post generalizing pre with
  | nil =>
    intro s' hxs hpre
    rw [List.append_nil] at hxs
    exact hxs ▸ hpre
  | cons x post ih =>
    intro s' hxs hpre
    refine bind (hf pre x post s' hxs hpre) fun _ s'' hpost => ?_
    exact ih (pre ++ [x]) s'' (by simp [hxs]) hpost

theorem adaptExcept {ε' : Type} {g : ε → ε'} {E' : ε' → σ → Prop}
    (h : Ensures m s Q fun e => E' (g e)) : Ensures (EStateM.adaptExcept g m) s Q E' := by
  revert h
  unfold Ensures EStateM.adaptExcept
  cases m s with
  | ok a s' => exact id
  | error e s' => exact id

end Ensures

/-! ## Relations between the states before and after -/

/-- However `m` ends, `R` holds between the state before and the state after. -/
def Keeps (R : σ → σ → Prop) (m : EStateM ε σ α) (s : σ) : Prop :=
  Ensures m s (fun _ => R s) fun _ => R s

namespace Keeps

variable {R : σ → σ → Prop} {s : σ} {f : σ → σ}

theorem get_bind {f : σ → EStateM ε σ β} (h : Keeps R (f s) s) : Keeps R (get >>= f) s := h

theorem modify_bind {k : PUnit → EStateM ε σ β} [IsPreorder σ R] (h : R s (f s))
    (hk : Keeps R (k ⟨⟩) (f s)) : Keeps R (modify f >>= k) s := by
  have htrans : ∀ s', R (f s) s' → R s s' := fun s' => IsTrans.trans s (f s) s' h
  exact Ensures.weaken hk (fun _ => htrans) fun _ => htrans

theorem modify (h : R s (f s)) : Keeps R (modify f : EStateM ε σ PUnit) s := h

variable {m : EStateM ε σ α}

theorem ite {p : Prop} [Decidable p] {m' : EStateM ε σ α} (h : p → Keeps R m s)
    (h' : ¬ p → Keeps R m' s) : Keeps R (if p then m else m') s :=
  Ensures.ite h h'

theorem adaptExcept {ε' : Type} {g : ε → ε'} (h : Keeps R m s) :
    Keeps R (EStateM.adaptExcept g m) s :=
  Ensures.adaptExcept h

variable [IsPreorder σ R]

theorem pure {a : α} : Keeps R (pure a : EStateM ε σ α) s := refl s

theorem throw {e : ε} : Keeps R (throw e : EStateM ε σ α) s := refl s

theorem bind {f : α → EStateM ε σ β} (h : Keeps R m s)
    (hf : ∀ a s', R s s' → Keeps R (f a) s') : Keeps R (m >>= f) s := by
  refine Ensures.bind h fun a s' hs' => ?_
  have htrans : ∀ s'', R s' s'' → R s s'' := fun s'' => IsTrans.trans s s' s'' hs'
  exact (hf a s' hs').weaken (fun _ => htrans) fun _ => htrans

theorem forM {xs : List α} {f : α → EStateM ε σ PUnit} (h : ∀ x ∈ xs, ∀ s, Keeps R (f x) s) :
    Keeps R (xs.forM f) s := by
  induction xs generalizing s with
  | nil => exact pure
  | cons x xs ih =>
    refine bind (h x List.mem_cons_self s) fun _ _ _ => ?_
    exact ih fun y hy => h y (List.mem_cons_of_mem x hy)

end Keeps

end EState
