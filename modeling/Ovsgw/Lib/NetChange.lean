/-
  **Net changes of a map.**

  A map from keys to values changes step by step.  An observer sees a part of each value
  and notes, for the keys that changed, the part at the start and the part now.  The notes
  describe the difference between the map at the start and the map now.
-/
import Mathlib.Order.Basic

namespace NetChange

variable {K V W : Type}

/-- The notes `net` describe how the map `a` became the map `b`, as far as `view` sees it. -/
def Describes (view : V → W) (net : K → Option (Option W × Option W)) (a b : K → Option V) :
    Prop :=
  ∀ k, match net k with
    | none => (a k).map view = (b k).map view
    | some (old, new) =>
      (a k).map view = old ∧ (b k).map view = new ∧ (old.isSome ∨ new.isSome)

/-- What becomes of a note when the key changes from `old` to `new`: a key that came and
    went is forgotten. -/
def merge (note : Option (Option W × Option W)) (old new : Option W) :
    Option (Option W × Option W) :=
  match note with
  | none => some (old, new)
  | some (first, _) => if first.isNone && new.isNone then none else some (first, new)

variable {view : V → W} {net net' : K → Option (Option W × Option W)} {a b b' : K → Option V}

theorem Describes.refl (a : K → Option V) : Describes view (fun _ => none) a a := fun _ => rfl

theorem Describes.record (h : Describes view net a b) (k : K) (old new : Option W)
    (hold : (b k).map view = old) (hnew : (b' k).map view = new) (hsome : old.isSome ∨ new.isSome)
    (hb : ∀ k', k' ≠ k → b' k' = b k') (hk : net' k = merge (net k) old new)
    (hnet : ∀ k', k' ≠ k → net' k' = net k') : Describes view net' a b' := by
  intro k'
  by_cases hkk : k' = k
  · subst hkk
    have hnote := h k'
    rw [hk]
    cases hn : net k' with
    | none =>
      rw [hn] at hnote
      exact ⟨hnote.trans hold, hnew, hsome⟩
    | some note =>
      obtain ⟨first, last⟩ := note
      rw [hn] at hnote
      obtain ⟨hfirst, -⟩ := hnote
      simp only [merge]
      cases first with
      | some w => exact ⟨hfirst, hnew, .inl rfl⟩
      | none =>
        cases new with
        | some w => exact ⟨hfirst, hnew, .inr rfl⟩
        | none => exact hfirst.trans hnew.symm
  · have hnote := h k'
    rw [hnet k' hkk, hb k' hkk]
    exact hnote

theorem Describes.skip (h : Describes view net a b)
    (hb : ∀ k, (b' k).map view = (b k).map view) : Describes view net a b' := by
  intro k
  have hnote := h k
  cases hn : net k with
  | none =>
    rw [hn] at hnote
    exact hnote.trans (hb k).symm
  | some note =>
    rw [hn] at hnote
    exact ⟨hnote.1, (hb k).trans hnote.2.1, hnote.2.2⟩

end NetChange
