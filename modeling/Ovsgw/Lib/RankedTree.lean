/-
  **Trees from parents**: a graph in which every vertex but one has a parent of a smaller
  rank, and in which every edge leads from a vertex to its parent, is a tree.
-/
import Mathlib.Combinatorics.SimpleGraph.Acyclic

namespace Ovsgw.Lib

section
variable {V α : Type*} [LinearOrder α] {G : SimpleGraph V} {root : V} {Parent : V → V → Prop}
  {rank : V → α}

theorem eq_of_reachable {β : Type*} {f : V → β} (hadj : ∀ v w, G.Adj v w → f v = f w) {v w : V}
    (h : G.Reachable v w) : f v = f w := by
  obtain ⟨walk⟩ := h
  induction walk with
  | nil => rfl
  | cons hvw _ ih => exact (hadj _ _ hvw).trans ih

theorem connected_of_parent [WellFoundedLT α] (hrank : ∀ v w, Parent v w → rank w < rank v)
    (hparent : ∀ v ≠ root, ∃ w, Parent v w) (hadj : ∀ v w, Parent v w → G.Adj v w) :
    G.Connected := by
  have hreach : ∀ v, G.Reachable v root := by
    intro v
    induction v using (InvImage.wf rank wellFounded_lt).induction with
    | _ v ih =>
      by_cases hv : v = root
      · rw [hv]
      · obtain ⟨w, hw⟩ := hparent v hv
        exact (hadj v w hw).reachable.trans (ih w (hrank v w hw))
  have : Nonempty V := ⟨root⟩
  exact ⟨fun v w => (hreach v).trans (hreach w).symm⟩

section

variable (hrank : ∀ v w, Parent v w → rank w < rank v)
  (hunique : ∀ v w w', Parent v w → Parent v w' → w = w')
include hrank hunique

theorem isAcyclic_of_parent (hadj : ∀ v w, G.Adj v w → Parent v w ∨ Parent w v) : G.IsAcyclic := by
  classical
  intro u cycle hcycle
  -- A vertex of the largest rank has only its parent next to it on the cycle.
  obtain ⟨v, hv, hmax⟩ := cycle.support.toFinset.exists_max_image rank
    ⟨u, List.mem_toFinset.mpr cycle.start_mem_support⟩
  rw [List.mem_toFinset] at hv
  have hnext : ∀ w, G.Adj v w → w ∈ cycle.support → Parent v w := by
    intro w hvw hw
    rcases hadj v w hvw with h | h
    · exact h
    · exact absurd (hrank w v h) (hmax w (List.mem_toFinset.mpr hw)).not_gt
  have hrotate := hcycle.rotate hv
  have hsub : ∀ w ∈ (cycle.rotate v hv).support, w ∈ cycle.support := fun w =>
    (cycle.mem_support_rotate_iff v hv).mp
  have hsnd := hnext _ ((cycle.rotate v hv).adj_snd hrotate.not_nil)
    (hsub _ ((cycle.rotate v hv).getVert_mem_support 1))
  have hpen := hnext _ ((cycle.rotate v hv).adj_penultimate hrotate.not_nil).symm
    (hsub _ ((cycle.rotate v hv).getVert_mem_support _))
  exact hrotate.snd_ne_penultimate (hunique v _ _ hsnd hpen)

theorem isTree_of_parent [WellFoundedLT α] (hparent : ∀ v ≠ root, ∃ w, Parent v w)
    (hadj : ∀ v w, G.Adj v w ↔ Parent v w ∨ Parent w v) : G.IsTree := by
  constructor
  · exact connected_of_parent hrank hparent fun v w h => (hadj v w).mpr (.inl h)
  · exact isAcyclic_of_parent hrank hunique fun v w => (hadj v w).mp

end

end

end Ovsgw.Lib
