/-
  **Pre- and postconditions of the functions of `raft.c`.**

  `Ensures ok bad env m r Q` says of the run of `m` from `r`: if all its events
  are `ok`, then it ends in a state with `Q`, or stops with a fault that is not
  `bad`.  There is one rule per construct of the monad.

  A function is `Quiet` for a view of the state if it leaves the view alone, and
  `Within` a frame if its events, its faults and its change of the state are.
-/
import Ovsgw.Raft.Server

namespace Ovsgw.Cluster

variable {α β : Type} {m m' : M α} {k : Unit → M α} {p : Prop} [Decidable p] {site : Site}

/-! ## 1. The judgement -/

def Ensures (ok : Event → Prop) (bad : Fault → Prop) (env : Env) (m : M α) (r : Raft)
    (Q : α → Raft → Prop) : Prop :=
  (∀ ev ∈ (m env r).trace, ok ev) →
    match (m env r).result with
    | .ok a => Q a (m env r).state
    | .error f => ¬ bad f

namespace Ensures

variable {ok : Event → Prop} {bad : Fault → Prop} {env : Env} {r : Raft}

theorem weaken {Q Q' : α → Raft → Prop} (h : Ensures ok bad env m r Q)
    (hQ : ∀ a r', Q a r' → Q' a r') : Ensures ok bad env m r Q' := by
  intro hok
  replace h := h hok
  revert h
  cases (m env r).result with
  | error f => exact id
  | ok a => exact hQ a _

variable {Q : α → Raft → Prop} {f : Raft → Raft}

theorem pure {a : α} (h : Q a r) : Ensures ok bad env (pure a) r Q :=
  fun _ => h

theorem bind {f : α → M β} {Q' : β → Raft → Prop} (h : Ensures ok bad env m r Q)
    (hf : ∀ a r', Q a r' → Ensures ok bad env (f a) r' Q') : Ensures ok bad env (m >>= f) r Q' := by
  unfold Ensures at *
  rw [bind_run]
  rcases hm : m env r with ⟨e | a, r', tr⟩
  · rw [hm] at h
    exact h
  · rw [hm] at h
    intro hok
    have hq : Q a r' := h fun ev hev => hok ev (List.mem_append_left _ hev)
    exact hf a r' hq fun ev hev => hok ev (List.mem_append_right _ hev)

theorem get_bind {f : Raft → M α} (h : Ensures ok bad env (f r) r Q) :
    Ensures ok bad env (get >>= f) r Q := h

theorem getEnv_bind {f : Env → M α} (h : Ensures ok bad env (f env) r Q) :
    Ensures ok bad env (getEnv >>= f) r Q := h

theorem modify {Q : Unit → Raft → Prop} (h : Q () (f r)) : Ensures ok bad env (modify f) r Q :=
  fun _ => h

theorem modify_bind (h : Ensures ok bad env (k ()) (f r) Q) :
    Ensures ok bad env (Cluster.modify f >>= k) r Q := h

theorem emit_bind {ev : Event} (h : ok ev → Ensures ok bad env (k ()) r Q) :
    Ensures ok bad env (emit ev >>= k) r Q :=
  fun hok => h (hok ev List.mem_cons_self) fun ev' hev => hok ev' (List.mem_cons_of_mem _ hev)

theorem fault {f : Fault} (h : ¬ bad f) : Ensures ok bad env (fault f) r Q :=
  fun _ => h

theorem ite (h : p → Ensures ok bad env m r Q)
    (h' : ¬ p → Ensures ok bad env m' r Q) : Ensures ok bad env (if p then m else m') r Q := by
  split
  · exact h ‹_›
  · exact h' ‹_›

theorem assert_bind (hbad : ¬ bad (.assert site))
    (h : p → Ensures ok bad env (k ()) r Q) : Ensures ok bad env (ovsAssert site p >>= k) r Q := by
  refine .bind (Q := fun _ r' => p ∧ r = r') (.ite (fun hp => .pure ⟨hp, rfl⟩) fun _ =>
    .fault hbad) ?_
  rintro _ _ ⟨hp, rfl⟩
  exact h hp

variable {P : Raft → Prop}

/-- An `if` without `else`, and what comes after it. -/
theorem when {m : M Unit} (h : p → Ensures ok bad env m r (fun _ => P)) (h' : ¬ p → P r)
    (hk : ∀ r', P r' → Ensures ok bad env (k ()) r' Q) :
    Ensures ok bad env (if p then m >>= k else k ()) r Q :=
  .ite (fun hp => .bind (h hp) fun _ => hk) fun hp => hk r (h' hp)

theorem choose {m m' : M β} {k : β → M α} {P : β → Raft → Prop}
    (h : p → Ensures ok bad env m r P) (h' : ¬ p → Ensures ok bad env m' r P)
    (hk : ∀ a r', P a r' → Ensures ok bad env (k a) r' Q) :
    Ensures ok bad env (if p then m >>= k else m' >>= k) r Q :=
  .ite (fun hp => .bind (h hp) hk) fun hp => .bind (h' hp) hk

theorem forEach {xs : List α} {f : α → M Unit} (hr : P r)
    (hf : ∀ x ∈ xs, ∀ r', P r' → Ensures ok bad env (f x) r' (fun _ => P)) :
    Ensures ok bad env (forEach xs f) r (fun _ => P) := by
  induction xs generalizing r with
  | nil => exact .pure hr
  | cons x xs ih =>
    refine .bind (hf x List.mem_cons_self r hr) fun _ r' hr' => ?_
    exact ih hr' fun y hy => hf y (List.mem_cons_of_mem _ hy)

theorem repeatM {m : M Unit} (n : Nat) (hr : P r)
    (hm : ∀ r', P r' → Ensures ok bad env m r' (fun _ => P)) :
    Ensures ok bad env (repeatM n m) r (fun _ => P) := by
  induction n generalizing r with
  | zero => exact .pure hr
  | succ n ih => exact .bind (hm r hr) fun _ _ hr' => ih hr'

end Ensures

/-! ## 2. Functions that leave a view of the state alone -/

def Quiet {V : Type} (view : Raft → V) (bad : Fault → Prop) (m : M α) : Prop :=
  ∀ ok env r, Ensures ok bad env m r (fun _ r' => view r' = view r)

namespace Quiet

variable {V : Type} {view : Raft → V} {bad : Fault → Prop}

theorem pure (a : α) : Quiet view bad (pure a) := fun _ _ _ => .pure rfl

theorem get : Quiet view bad get := fun _ _ _ _ => rfl

theorem getEnv : Quiet view bad getEnv := fun _ _ _ _ => rfl

theorem emit (ev : Event) : Quiet view bad (emit ev) := fun _ _ _ _ => rfl

theorem modify {f : Raft → Raft} (h : ∀ r, view (f r) = view r) : Quiet view bad (modify f) :=
  fun _ _ r => .modify (h r)

theorem fault {f : Fault} (h : ¬ bad f) : Quiet view bad (fault f : M α) := fun _ _ _ => .fault h

theorem bind {f : α → M β} (h : Quiet view bad m) (hf : ∀ a, Quiet view bad (f a)) :
    Quiet view bad (m >>= f) :=
  fun ok env r => .bind (h ok env r) fun a r' hr =>
    (hf a ok env r').weaken fun _ _ hr' => hr'.trans hr

theorem ite (h : Quiet view bad m)
    (h' : Quiet view bad m') : Quiet view bad (if p then m else m') :=
  fun ok env r => .ite (fun _ => h ok env r) fun _ => h' ok env r

theorem when {m : M Unit} (h : Quiet view bad m)
    (hk : Quiet view bad (k ())) : Quiet view bad (if p then m >>= k else k ()) :=
  .ite (.bind h fun _ => hk) hk

theorem assert (h : ¬ bad (.assert site)) : Quiet view bad (ovsAssert site p) :=
  .ite (.pure ()) (.fault h)

theorem forEach {xs : List α} {f : α → M Unit} (hf : ∀ x ∈ xs, Quiet view bad (f x)) :
    Quiet view bad (forEach xs f) :=
  fun ok env r => .forEach (P := fun r' => view r' = view r) rfl fun x hx r' hr =>
    (hf x hx ok env r').weaken fun _ _ hr' => hr'.trans hr

theorem ensures (h : Quiet view bad m) {P : V → Prop} {ok : Event → Prop} {env : Env}
    {r : Raft} (hr : P (view r)) : Ensures ok bad env m r (fun _ r' => P (view r')) :=
  (h ok env r).weaken fun _ _ hview => by rwa [hview]

end Quiet

/-! ## 3. Functions that keep an invariant -/

def Preserves (ok : Event → Prop) (bad : Fault → Prop) (P : Raft → Prop) (m : M α) : Prop :=
  ∀ env r, P r → Ensures ok bad env m r (fun _ r' => P r')

theorem Quiet.preserves {V : Type} {view : Raft → V} {ok : Event → Prop} {bad : Fault → Prop}
    {P : V → Prop} (h : Quiet view bad m) : Preserves ok bad (fun r => P (view r)) m :=
  fun _ _ hr => h.ensures hr

namespace Preserves

variable {ok : Event → Prop} {bad : Fault → Prop} {P : Raft → Prop}

theorem pure (a : α) : Preserves ok bad P (pure a) := fun _ _ h => .pure h

theorem get : Preserves ok bad P get := fun _ _ h _ => h

theorem getEnv : Preserves ok bad P getEnv := fun _ _ h _ => h

theorem emit (ev : Event) : Preserves ok bad P (emit ev) := fun _ _ h _ => h

theorem modify {f : Raft → Raft} (h : ∀ r, P r → P (f r)) : Preserves ok bad P (modify f) :=
  fun _ r hr => .modify (h r hr)

theorem fault {f : Fault} (h : ¬ bad f) : Preserves ok bad P (fault f : M α) :=
  fun _ _ _ => .fault h

theorem bind {f : α → M β} (h : Preserves ok bad P m)
    (hf : ∀ a, Preserves ok bad P (f a)) : Preserves ok bad P (m >>= f) :=
  fun env r hr => .bind (h env r hr) fun a r' hr' => hf a env r' hr'

theorem ite (h : Preserves ok bad P m)
    (h' : Preserves ok bad P m') : Preserves ok bad P (if p then m else m') :=
  fun env r hr => .ite (fun _ => h env r hr) fun _ => h' env r hr

theorem when {m : M Unit} (h : Preserves ok bad P m)
    (hk : Preserves ok bad P (k ())) : Preserves ok bad P (if p then m >>= k else k ()) :=
  .ite (.bind h fun _ => hk) hk

theorem assert (h : ¬ bad (.assert site)) : Preserves ok bad P (ovsAssert site p) :=
  .ite (.pure ()) (.fault h)

theorem forEach {xs : List α} {f : α → M Unit} (hf : ∀ x ∈ xs, Preserves ok bad P (f x)) :
    Preserves ok bad P (forEach xs f) :=
  fun env _ hr => .forEach hr fun x hx r' hr' => hf x hx env r' hr'

theorem repeatM {m : M Unit} (n : Nat) (hm : Preserves ok bad P m) :
    Preserves ok bad P (repeatM n m) :=
  fun env _ hr => .repeatM n hr fun r' hr' => hm env r' hr'

end Preserves

/-! ## 4. Functions that stay within a frame -/

/-- What the events, the change of the state and the faults of a function may be. -/
structure Frame where
  ok : Event → Prop
  rel : Raft → Raft → Prop
  bad : Fault → Prop
  refl : ∀ r, rel r r
  trans : ∀ {r r' r''}, rel r r' → rel r' r'' → rel r r''

/-- Unlike in `Ensures`, the events are part of what is shown, and the state is
    related to the first one also if the function stops with a fault. -/
def Within (F : Frame) (m : M α) : Prop :=
  ∀ env r, (∀ ev ∈ (m env r).trace, F.ok ev) ∧ F.rel r (m env r).state ∧
    ∀ f, (m env r).result = .error f → ¬ F.bad f

namespace Within

variable {F : Frame}

theorem mono {F' : Frame} (h : Within F m) (hok : ∀ ev, F.ok ev → F'.ok ev)
    (hrel : ∀ r r', F.rel r r' → F'.rel r r') (hbad : ∀ f, F'.bad f → F.bad f) : Within F' m := by
  intro env r
  obtain ⟨hev, hr, hf⟩ := h env r
  exact ⟨fun ev h => hok ev (hev ev h), hrel _ _ hr, fun f h h' => hf f h (hbad f h')⟩

theorem pure (a : α) : Within F (pure a) :=
  fun _ r => ⟨by rintro _ ⟨⟩, F.refl r, by rintro _ ⟨⟩⟩

theorem get : Within F get := fun _ r => ⟨by rintro _ ⟨⟩, F.refl r, by rintro _ ⟨⟩⟩

theorem getEnv : Within F getEnv := fun _ r => ⟨by rintro _ ⟨⟩, F.refl r, by rintro _ ⟨⟩⟩

theorem modify {f : Raft → Raft} (h : ∀ r, F.rel r (f r)) : Within F (modify f) :=
  fun _ r => ⟨by rintro _ ⟨⟩, h r, by rintro _ ⟨⟩⟩

theorem emit {ev : Event} (h : F.ok ev) : Within F (emit ev) :=
  fun _ r => ⟨by simpa using h, F.refl r, by rintro _ ⟨⟩⟩

theorem fault {f : Fault} (h : ¬ F.bad f) : Within F (fault f : M α) :=
  fun _ r => ⟨by rintro _ ⟨⟩, F.refl r, by rintro _ ⟨⟩; exact h⟩

theorem bind {k : α → M β} (h : Within F m) (hk : ∀ a, Within F (k a)) : Within F (m >>= k) := by
  intro env r
  have hm := h env r
  rw [bind_run]
  rcases hrun : m env r with ⟨f | a, r', tr⟩
  · rw [hrun] at hm
    obtain ⟨hev, hr, hf⟩ := hm
    exact ⟨hev, hr, by rintro _ ⟨⟩; exact hf f rfl⟩
  · rw [hrun] at hm
    obtain ⟨hev, hr, -⟩ := hm
    obtain ⟨hev', hr', hf'⟩ := hk a env r'
    refine ⟨fun ev h => ?_, F.trans hr hr', hf'⟩
    exact (List.mem_append.mp h).elim (hev ev) (hev' ev)

theorem ite (h : Within F m) (h' : Within F m') : Within F (if p then m else m') := by
  split
  · exact h
  · exact h'

theorem when {m : M Unit} (h : Within F m)
    (hk : Within F (k ())) : Within F (if p then m >>= k else k ()) :=
  .ite (.bind h fun _ => hk) hk

theorem assert (h : ¬ F.bad (.assert site)) : Within F (ovsAssert site p) :=
  .ite (.pure ()) (.fault h)

theorem forEach {xs : List α} {f : α → M Unit} (hf : ∀ x, Within F (f x)) :
    Within F (forEach xs f) := by
  induction xs with
  | nil => exact .pure ()
  | cons x xs ih => exact .bind (hf x) fun _ => ih

theorem repeatM {m : M Unit} (n : Nat) (hm : Within F m) : Within F (repeatM n m) := by
  induction n with
  | zero => exact .pure ()
  | succ n ih => exact .bind hm fun _ => ih

theorem of_eq (h : Within F m) {env : Env} {r r' : Raft} {a : α} {tr : List Event}
    (hrun : m env r = ⟨.ok a, r', tr⟩) : (∀ ev ∈ tr, F.ok ev) ∧ F.rel r r' := by
  have hm := h env r
  rw [hrun] at hm
  exact ⟨hm.1, hm.2.1⟩

end Within

end Ovsgw.Cluster
