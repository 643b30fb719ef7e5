/-
  **Words as sets of bits.**

  A loop that walks over a table and or-s one word per selected row into an
  accumulator is `orOver`; a bit of the result is set exactly if some selected
  row sets it.  Two words meet if they have a bit in common.
-/
import Mathlib.Algebra.Group.Nat.Defs

namespace Bitmap

variable {α : Type} {w : Nat}

/-- Or-s together the words of the rows of `l` that `p` selects. -/
def orOver (l : List α) (p : α → Bool) (f : α → BitVec w) : BitVec w :=
  l.foldl (fun acc x => if p x then acc ||| f x else acc) 0

variable {l : List α} {p : α → Bool} {f : α → BitVec w} {i : Nat} {a : BitVec w}

theorem getLsbD_foldl_or {acc : BitVec w} :
    (l.foldl (fun acc x => if p x then acc ||| f x else acc) acc).getLsbD i =
      (acc.getLsbD i || l.any (fun x => p x && (f x).getLsbD i)) := by
  induction l generalizing acc with
  | nil => simp
  | cons x l ih =>
    rw [List.foldl_cons, ih, List.any_cons]
    cases hp : p x
    · simp
    · simp [Bool.or_assoc]

theorem getLsbD_orOver : (orOver l p f).getLsbD i = l.any (fun x => p x && (f x).getLsbD i) := by
  rw [orOver, getLsbD_foldl_or]
  simp

theorem ne_zero_iff : a ≠ 0 ↔ ∃ i, a.getLsbD i = true := by
  constructor
  · intro h
    apply Classical.byContradiction
    intro hnone
    apply h
    apply BitVec.eq_of_getLsbD_eq
    intro i _
    cases hi : a.getLsbD i
    · simp
    · exact absurd ⟨i, hi⟩ hnone
  · rintro ⟨i, hi⟩ rfl
    simp at hi

theorem and_ne_zero_iff {b : BitVec w} :
    a &&& b ≠ 0 ↔ ∃ i, a.getLsbD i = true ∧ b.getLsbD i = true := by
  rw [ne_zero_iff]
  simp [BitVec.getLsbD_and]

theorem getLsbD_one_shiftLeft {n : Nat} :
    ((1 : BitVec w) <<< n).getLsbD i = (decide (i < w) && decide (i = n)) := by
  rw [BitVec.getLsbD_shiftLeft]
  by_cases hw : i < w
  · by_cases hn : i = n
    · subst hn
      have hpos : 0 < w := by omega
      simp [hw, hpos]
    · by_cases hlt : i < n
      · simp [hw, hn, hlt]
      · have hne : i - n ≠ 0 := by omega
        simp [hw, hn, hlt, BitVec.getLsbD_one, hne]
  · simp [hw]

theorem and_one_shiftLeft_ne_zero {a : BitVec w} {n : Nat} (hn : n < w) :
    a &&& ((1 : BitVec w) <<< n) ≠ 0 ↔ a.getLsbD n = true := by
  rw [and_ne_zero_iff]
  constructor
  · rintro ⟨i, ha, hi⟩
    rw [getLsbD_one_shiftLeft] at hi
    simp only [Bool.and_eq_true, decide_eq_true_eq] at hi
    rw [← hi.2]
    exact ha
  · intro ha
    exact ⟨n, ha, by simp [hn]⟩

theorem orOver_and_ne_zero : orOver l p f &&& a ≠ 0 ↔ ∃ x ∈ l, p x = true ∧ f x &&& a ≠ 0 := by
  rw [and_ne_zero_iff]
  simp only [getLsbD_orOver, List.any_eq_true, Bool.and_eq_true, and_ne_zero_iff]
  constructor
  · rintro ⟨i, ⟨x, hx, hp, hf⟩, ha⟩
    exact ⟨x, hx, hp, i, hf, ha⟩
  · rintro ⟨x, hx, hp, i, hf, ha⟩
    exact ⟨i, ⟨x, hx, hp, hf⟩, ha⟩

end Bitmap
