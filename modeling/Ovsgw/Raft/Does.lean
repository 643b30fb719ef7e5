/-
  **From code to acts.**

  `Does ctx m s Q` says that the function `m`, started in `s`, is a sequence of
  acts and ends in a state with `Q`; and that a fault on the way, if it is one
  of the assertions about log indexes, is the fault of a state whose indexes
  are out of bounds.  There is one rule per construct of the monad.

  Most functions only send messages and write notes.  They are `Soft`: nothing
  but the file and the queue of waiters changes.
-/
import Ovsgw.Raft.Act

namespace Ovsgw.Cluster

/-! ## 1. The judgement -/

/-- A state with its ghost fields. -/
structure St where
  raft : Raft
  ghost : Ghost

def St.core (s : St) : Core := s.raft.core s.ghost

/-- The assertions about log indexes. -/
def Site.indexed : Site → Bool
  | .raftGetEntry | .raftServersForIndex | .raftTruncate | .raftPeekNextEntry
  | .raftHasUncommittedConfiguration => true
  | _ => false

/-- What a fault says about the state it happens in. -/
def Blame (f : Fault) (c : Core) : Prop :=
  ∀ site, f = .assert site → site.indexed → ¬ c.IndexOk

def Does {α : Type} (ctx : Ctx) (m : M α) (s : St) (Q : α → St → Prop) : Prop :=
  match m ctx.env s.raft with
  | ⟨.ok a, r, tr⟩ => ∃ g, Acts ctx s.core tr (r.core g) ∧ Q a ⟨r, g⟩
  | ⟨.error f, _, tr⟩ => ∃ c, Acts ctx s.core tr c ∧ Blame f c

/-- An act may take the code several assignments and events.  `Held ctx c evs m r Q` is about
    the rest `m` of such a stretch: it started in the core `c`, has left the events `evs` so
    far and is now in `r`. -/
def Held {α : Type} (ctx : Ctx) (c : Core) (evs : List Event) (m : M α) (r : Raft)
    (Q : α → St → Prop) : Prop :=
  match m ctx.env r with
  | ⟨.ok a, r', tr⟩ => ∃ g, Acts ctx c (evs ++ tr) (r'.core g) ∧ Q a ⟨r', g⟩
  | ⟨.error f, _, tr⟩ => ∃ c', Acts ctx c (evs ++ tr) c' ∧ Blame f c'

variable {α β : Type} {ctx : Ctx} {c : Core} {evs : List Event} {r : Raft} {s : St} {m m' : M α}
  {Q : α → St → Prop} {k : Unit → M α} {f : Raft → Raft} {p : Prop} [Decidable p] {site : Site}

theorem Does.hold (h : Held ctx s.core [] m s.raft Q) : Does ctx m s Q := h

namespace Held

theorem release {g : Ghost} (hacts : Acts ctx c evs (r.core g)) (h : Does ctx m ⟨r, g⟩ Q) :
    Held ctx c evs m r Q := by
  unfold Does at h
  unfold Held
  rcases hm : m ctx.env r with ⟨_ | a, r', tr⟩ <;> simp only [hm] at h ⊢
  · obtain ⟨c', hacts', hblame⟩ := h
    exact ⟨c', hacts.trans hacts', hblame⟩
  · obtain ⟨g', hacts', hq⟩ := h
    exact ⟨g', hacts.trans hacts', hq⟩

/-- `m'` is what is left of `m` after a part that leads to `r'` with the events `tr`. -/
theorem after {r' : Raft} {tr : List Event}
    (hrun : m ctx.env r = { m' ctx.env r' with trace := tr ++ (m' ctx.env r').trace })
    (h : Held ctx c (evs ++ tr) m' r' Q) : Held ctx c evs m r Q := by
  unfold Held at *
  rw [hrun]
  rcases hm : m' ctx.env r' with ⟨_ | a, r'', tr'⟩ <;> simpa only [hm, List.append_assoc] using h

theorem bind {f : α → M β} {Q' : β → St → Prop} (h : Held ctx c evs m r Q)
    (hf : ∀ a s', Q a s' → Does ctx (f a) s' Q') : Held ctx c evs (m >>= f) r Q' := by
  have hrun : (m >>= f) ctx.env r = M.bind m f ctx.env r := rfl
  unfold Held at h
  rcases hm : m ctx.env r with ⟨_ | a, r', tr⟩ <;> simp only [M.bind, hm] at h hrun
  · unfold Held
    rw [hrun]
    exact h
  · obtain ⟨g, hacts, hq⟩ := h
    exact .after hrun (.release hacts (hf a ⟨r', g⟩ hq))

end Held

namespace Does

theorem weaken {Q' : α → St → Prop} (h : Does ctx m s Q)
    (hQ : ∀ a s', Q a s' → Q' a s') : Does ctx m s Q' := by
  unfold Does at *
  rcases hm : m ctx.env s.raft with ⟨_ | a, r, tr⟩ <;> simp only [hm] at h ⊢
  · exact h
  · obtain ⟨g, hacts, hq⟩ := h
    exact ⟨g, hacts, hQ _ _ hq⟩

theorem pure {a : α} (h : Q a s) : Does ctx (pure a) s Q :=
  ⟨s.ghost, .nil _, h⟩

theorem bind {f : α → M β} {Q' : β → St → Prop}
    (h : Does ctx m s Q) (hf : ∀ a s', Q a s' → Does ctx (f a) s' Q') : Does ctx (m >>= f) s Q' :=
  .hold (Held.bind h hf)

theorem get {Q : Raft → St → Prop} (h : Q s.raft s) : Does ctx get s Q :=
  ⟨s.ghost, .nil _, h⟩

theorem getEnv {Q : Env → St → Prop} (h : Q ctx.env s) : Does ctx getEnv s Q :=
  ⟨s.ghost, .nil _, h⟩

variable {g : Ghost}

theorem modify {Q : Unit → St → Prop}
    (hact : Act ctx s.core [] ((f s.raft).core g)) (h : Q () ⟨f s.raft, g⟩) :
    Does ctx (modify f) s Q :=
  ⟨g, .one hact, h⟩

theorem skip {Q : Unit → St → Prop}
    (hcore : (f s.raft).core s.ghost = s.core) (h : Q () ⟨f s.raft, s.ghost⟩) :
    Does ctx (Cluster.modify f) s Q :=
  ⟨s.ghost, by show Acts ctx s.core [] _; rw [hcore]; exact .nil _, h⟩

theorem emit {ev : Event} {Q : Unit → St → Prop} (hact : Act ctx s.core [ev] s.core)
    (h : Q () s) : Does ctx (emit ev) s Q :=
  ⟨s.ghost, .one hact, h⟩

theorem fault {f : Fault} (h : Blame f s.core) : Does ctx (fault f) s Q :=
  ⟨s.core, .nil _, h⟩

theorem get_bind {f : Raft → M α} (h : Does ctx (f s.raft) s Q) : Does ctx (Cluster.get >>= f) s Q := h

theorem getEnv_bind {f : Env → M α} (h : Does ctx (f ctx.env) s Q) :
    Does ctx (Cluster.getEnv >>= f) s Q := h

theorem modify_bind
    (hact : Act ctx s.core [] ((f s.raft).core g)) (h : Does ctx (k ()) ⟨f s.raft, g⟩ Q) :
    Does ctx (Cluster.modify f >>= k) s Q :=
  .hold (.after rfl (.release (.one hact) h))

theorem skip_bind (hcore : (f s.raft).core s.ghost = s.core)
    (h : Does ctx (k ()) ⟨f s.raft, s.ghost⟩ Q) : Does ctx (Cluster.modify f >>= k) s Q :=
  .bind (.skip hcore (Q := fun _ s' => s' = ⟨f s.raft, s.ghost⟩) rfl) fun _ _ hs => hs ▸ h

/-- `ovs_assert`. -/
theorem assert {Q : Unit → St → Prop} (hfail : ¬ p → Blame (.assert site) s.core) (h : p → Q () s) :
    Does ctx (ovsAssert site p) s Q := by
  unfold ovsAssert
  split
  · exact .pure (h ‹_›)
  · exact .fault (hfail ‹_›)

theorem assert_bind (hfail : ¬ p → Blame (.assert site) s.core) (h : p → Does ctx (k ()) s Q) :
    Does ctx (ovsAssert site p >>= k) s Q := by
  refine .bind (.assert (Q := fun _ s' => p ∧ s = s') hfail fun hp => ⟨hp, rfl⟩) ?_
  rintro _ _ ⟨hp, rfl⟩
  exact h hp

theorem ite (h : p → Does ctx m s Q) (h' : ¬ p → Does ctx m' s Q) :
    Does ctx (if p then m else m') s Q := by
  split
  · exact h ‹_›
  · exact h' ‹_›

variable {P : St → Prop}

/-- An `if` without `else`, and what comes after it. -/
theorem when {m : M Unit}
    (h : p → Does ctx m s (fun _ => P)) (h' : ¬ p → P s) (hk : ∀ s', P s' → Does ctx (k ()) s' Q) :
    Does ctx (if p then m >>= k else k ()) s Q :=
  .ite (fun hp => .bind (h hp) fun _ => hk) fun hp => hk s (h' hp)

/-- A value from either branch of an `if`, and what comes after it. -/
theorem choose {m m' : M β} {k : β → M α} {P : β → St → Prop}
    (h : p → Does ctx m s P) (h' : ¬ p → Does ctx m' s P)
    (hk : ∀ a s', P a s' → Does ctx (k a) s' Q) : Does ctx (if p then m >>= k else m' >>= k) s Q :=
  .ite (fun hp => .bind (h hp) hk) fun hp => .bind (h' hp) hk

theorem forEach {xs : List α} {f : α → M Unit} (hs : P s)
    (hf : ∀ x ∈ xs, ∀ s', P s' → Does ctx (f x) s' (fun _ => P)) :
    Does ctx (forEach xs f) s (fun _ => P) := by
  induction xs generalizing s with
  | nil => exact .pure hs
  | cons x xs ih =>
    refine .bind (hf x List.mem_cons_self s hs) fun _ s' hs' => ?_
    exact ih hs' fun y hy => hf y (List.mem_cons_of_mem _ hy)

end Does

theorem Blame.of_not_indexed (h : site.indexed = false) (c : Core) : Blame (.assert site) c := by
  rintro _ ⟨rfl⟩ hindexed
  simp [h] at hindexed

theorem Blame.access (site : Site) (c : Core) : Blame (.access site) c := by
  rintro _ ⟨⟩

theorem Blame.overflow (c : Core) : Blame .overflow c := by
  rintro _ ⟨⟩

/-! ## 2. Acts that take several assignments -/

namespace Held

theorem get_bind {f : Raft → M α} (h : Held ctx c evs (f r) r Q) :
    Held ctx c evs (Cluster.get >>= f) r Q := h

theorem getEnv_bind {f : Env → M α} (h : Held ctx c evs (f ctx.env) r Q) :
    Held ctx c evs (Cluster.getEnv >>= f) r Q := h

theorem modify_bind
    (h : Held ctx c evs (k ()) (f r) Q) : Held ctx c evs (Cluster.modify f >>= k) r Q := h

theorem modify {g : Ghost} {Q : Unit → St → Prop}
    (hacts : Acts ctx c evs ((f r).core g)) (h : Q () ⟨f r, g⟩) :
    Held ctx c evs (Cluster.modify f) r Q :=
  ⟨g, by simpa using hacts, h⟩

theorem emit_bind {ev : Event}
    (h : Held ctx c (evs ++ [ev]) (k ()) r Q) : Held ctx c evs (Cluster.emit ev >>= k) r Q :=
  .after rfl h

variable {r' : Raft}

theorem run_bind {m : M β} {a : β} {k : β → M α}
    (hrun : m ctx.env r = ⟨.ok a, r', []⟩) (h : Held ctx c evs (k a) r' Q) :
    Held ctx c evs (m >>= k) r Q := by
  have hbind : (m >>= k) ctx.env r = M.bind m k ctx.env r := rfl
  rw [M.bind, hrun] at hbind
  exact .after hbind (by rwa [List.append_nil])

theorem ite (h : p → Held ctx c evs m r Q) (h' : ¬ p → Held ctx c evs m' r Q) :
    Held ctx c evs (if p then m else m') r Q := by
  split
  · exact h ‹_›
  · exact h' ‹_›

variable {c' : Core}

theorem fault_bind {m : M β} {f : Fault} {k : β → M α}
    (hrun : m ctx.env r = ⟨.error f, r', []⟩) (hacts : Acts ctx c evs c')
    (h : Blame f c') : Held ctx c evs (m >>= k) r Q := by
  unfold Held
  have hbind : (m >>= k) ctx.env r = M.bind m k ctx.env r := rfl
  simp only [hbind, M.bind, hrun, List.append_nil]
  exact ⟨c', hacts, h⟩

theorem assert_bind (hfail : ¬ p → Acts ctx c evs c' ∧ Blame (.assert site) c')
    (h : p → Held ctx c evs (k ()) r Q) : Held ctx c evs (ovsAssert site p >>= k) r Q := by
  unfold ovsAssert
  split
  · exact h ‹_›
  · exact fault_bind rfl (hfail ‹_›).1 (hfail ‹_›).2

end Held

/-! ## 3. Functions that change nothing but the file and the waiters -/

/-- New waiters go to the end, and the disk makes no progress meanwhile. -/
structure St.Keeps (s s' : St) : Prop where
  waiters : s.raft.waiters <+: s'.raft.waiters
  cur : s'.raft.log.cur = s.raft.log.cur

/-- Only the file and the queue of waiters differ. -/
structure St.Soft (s s' : St) : Prop extends St.Keeps s s' where
  core : s'.core = { s.core with waiters := s'.raft.waiters, log := s'.raft.log }

theorem St.Keeps.refl (s : St) : s.Keeps s := ⟨List.prefix_refl _, rfl⟩

variable {s' s'' : St}

theorem St.Keeps.trans (h : s.Keeps s') (h' : s'.Keeps s'') : s.Keeps s'' :=
  ⟨h.waiters.trans h'.waiters, h'.cur.trans h.cur⟩

namespace St.Soft

theorem refl (s : St) : s.Soft s := ⟨.refl s, rfl⟩

theorem trans (h : s.Soft s') (h' : s'.Soft s'') : s.Soft s'' :=
  ⟨h.toKeeps.trans h'.toKeeps, by rw [h'.core, h.core]⟩

theorem of_core_eq (h : s'.core = s.core) : s.Soft s' := by
  have hw : s'.raft.waiters = s.raft.waiters := congrArg Core.waiters h
  have hl : s'.raft.log = s.raft.log := congrArg Core.log h
  exact ⟨⟨hw ▸ List.prefix_refl _, by rw [hl]⟩, by rw [h, hw, hl]; rfl⟩

variable (h : s.Soft s')

include h

theorem role : s'.raft.role = s.raft.role := congrArg Core.role h.core

theorem term : s'.raft.term = s.raft.term := congrArg Core.term h.core

theorem vote : s'.raft.vote = s.raft.vote := congrArg Core.vote h.core

theorem sid : s'.raft.sid = s.raft.sid := congrArg Core.sid h.core

theorem ghost : s'.ghost = s.ghost := congrArg Core.ghost h.core

theorem dirty : s'.ghost.dirty = s.ghost.dirty := congrArg Ghost.dirty h.ghost

theorem entries : s'.raft.entries = s.raft.entries := congrArg Core.entries h.core

theorem logStart : s'.raft.logStart = s.raft.logStart := congrArg Core.logStart h.core

theorem commitIndex : s'.raft.commitIndex = s.raft.commitIndex :=
  congrArg Core.commitIndex h.core

theorem peers : s'.raft.servers.map Server.peer = s.raft.servers.map Server.peer :=
  congrArg Core.servers h.core

theorem logEnd : s'.raft.logEnd = s.raft.logEnd := by
  simp only [Raft.logEnd, h.logStart, h.entries]

end St.Soft

/-- A function that is soft wherever it starts. -/
def SoftM {α : Type} (m : M α) : Prop := ∀ ctx s, Does ctx m s (fun _ s' => s.Soft s')

namespace SoftM

theorem pure (a : α) : SoftM (pure a) := fun _ s => .pure (.refl s)

theorem get : SoftM get := fun _ s => .get (.refl s)

theorem getEnv : SoftM getEnv := fun _ s => .getEnv (.refl s)

theorem bind {f : α → M β} (h : SoftM m) (hf : ∀ a, SoftM (f a)) : SoftM (m >>= f) :=
  fun ctx s => .bind (h ctx s) fun a s' hs => (hf a ctx s').weaken fun _ _ hs' => hs.trans hs'

theorem ite (h : SoftM m) (h' : SoftM m') : SoftM (if p then m else m') :=
  fun ctx s => .ite (fun _ => h ctx s) (fun _ => h' ctx s)

theorem when {m : M Unit} (h : SoftM m) (hk : SoftM (k ())) : SoftM (if p then m >>= k else k ()) :=
  .ite (.bind h fun _ => hk) hk

theorem modify (hf : ∀ r g, (f r).core g = r.core g) : SoftM (modify f) :=
  fun _ s => .skip (hf s.raft s.ghost) (.of_core_eq (hf s.raft s.ghost))

theorem complete (eid : Uuid) (status : CommandStatus) (index : Nat) :
    SoftM (emit (.complete eid status index)) :=
  fun _ s => .emit (.mark _ trivial) (.refl s)

theorem fault {f : Fault} (hf : ∀ c, Blame f c) : SoftM (fault f : M α) :=
  fun _ s => .fault (hf s.core)

theorem forEach {xs : List α} {f : α → M Unit} (hf : ∀ x ∈ xs, SoftM (f x)) :
    SoftM (forEach xs f) :=
  fun ctx s => .forEach (.refl s) fun x hx s' hs =>
    (hf x hx ctx s').weaken fun _ _ hs' => hs.trans hs'

end SoftM

end Ovsgw.Cluster
