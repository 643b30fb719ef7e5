/-
  **The monad the functions of `raft.c` are written in.**

  A function of the C code reads and updates one `struct raft`.  It may stop
  the process (`ovs_assert`, an access outside an array, a null pointer), and
  it hands RPCs to connections.  So a run of a function yields

    * the value it returns, or the fault that stopped it,
    * the state it left behind (also when it faulted), and
    * the trace of what happened on the way, in order.

  Besides the RPCs, the trace marks the calls that the properties of the
  development talk about; such a mark carries the state at the moment of the
  call.  What the code takes from its surroundings during one call (the clock,
  random numbers, whether a disk write succeeds) is the read-only `Env`.
-/
import Ovsgw.OvsdbParser
import Ovsgw.Raft.Types

namespace Ovsgw.Cluster

/-! ## 1. Faults -/

/-- The functions whose assertions and array accesses are checked. -/
inductive Site where
  | raftGetEntry
  | raftServersForIndex
  | raftTruncate
  | raftPeekNextEntry
  | raftHasUncommittedConfiguration
  | raftGetServersFromLog
  | raftStartElection
  | raftBecomeLeader
  | raftSendAppendRequest
  | raftSendInstallSnapshotRequest
  | raftConsiderUpdatingCommitIndex
  | raftUpdateMatchIndex
  | raftRunReconfigure
  | raftHandleAppendRequest
  | raftHandleAppendEntries
  | raftHandleAppendReply
  | raftHandleInstallSnapshotReply
  | raftStoreSnapshot
deriving DecidableEq, Repr

inductive Fault where
  /-- `ovs_assert` failed. -/
  | assert (site : Site)
  /-- An array was read outside its bounds, or a null pointer was followed. -/
  | access (site : Site)
  /-- A log index would not fit in 64 bits. -/
  | overflow
deriving DecidableEq, Repr

/-! ## 2. Environment and trace -/

/-- What one call takes from its surroundings.  `sendOk sid` says whether the session with `sid`
    accepts a message, `writeOk n` whether the `n`-th attempt to write to the log file succeeds,
    `saveOk` whether a whole new log file can be put in place of the old one, and `inetParseActive`
    whether that function (which may look up a host name) accepts an address. -/
structure Env where
  now : Nat := 0
  random : Nat := 0
  uuidRandom : Uuid := 1
  sendOk : Uuid → Bool := fun _ => true
  writeOk : Nat → Bool := fun _ => true
  saveOk : Bool := true
  inetParseActive : String → Bool := fun _ => true

def startsWith (s start : String) : Bool := start.toList.isPrefixOf s.toList

def raftAddressValidate (env : Env) (address : String) : Option OvsdbError :=
  if startsWith address "unix:" then
    none
  else if startsWith address "ssl:" || startsWith address "tcp:" then
    if env.inetParseActive (String.ofList (address.toList.drop 4)) then
      none
    else
      some (ovsdbError (address ++ ": syntax error in address"))
  else
    some (ovsdbError (address ++ ": expected \"tcp\" or \"ssl\" address"))

def Env.addressValid (env : Env) (address : String) : Bool :=
  (raftAddressValidate env address).isNone

/-- What happens during a call. -/
inductive Event where
  /-- An RPC is handed to a connection. -/
  | sent (rpc : Rpc) (r : Raft)
  /-- A pending command is completed. -/
  | complete (eid : Uuid) (status : CommandStatus) (index : Nat)
  /-- A leader has accepted a command and is about to append it. -/
  | accept (prereq : Option Uuid) (data : Option Json) (eid : Uuid) (r : Raft)
  /-- `raft_truncate (raft, newEnd)` is called. -/
  | truncate (newEnd : Nat) (r : Raft)
  /-- A vote for `sid` is about to be recorded. -/
  | vote (sid : Uuid) (rq : VoteRequest) (r : Raft)
  /-- `raft_start_election` is about to enter the next term. -/
  | campaign (r : Raft)
  /-- `raft_become_leader` is called. -/
  | becomeLeader (r : Raft)
  /-- `raft_run_reconfigure` is about to change the set of servers. -/
  | reconfigure (r : Raft)
  /-- A leader is about to take note of a reply from a server that it knows. -/
  | appendReply (src : Uuid) (rpy : AppendReply) (r : Raft)
  /-- A received snapshot is about to replace the log. -/
  | install (rq : InstallSnapshotRequest) (r : Raft)

/-! ## 3. The monad -/

/-- The outcome of a call: result or fault, state, trace. -/
structure Outcome (α : Type) where
  result : Except Fault α
  state : Raft
  trace : List Event

/-- A function of `raft.c`. -/
def M (α : Type) : Type := Env → Raft → Outcome α

namespace M

def pure (a : α) : M α := fun _ r => ⟨.ok a, r, []⟩

def bind (m : M α) (f : α → M β) : M β := fun env r =>
  let o := m env r
  match o.result with
  | .ok a =>
    let o' := f a env o.state
    ⟨o'.result, o'.state, o.trace ++ o'.trace⟩
  | .error e => ⟨.error e, o.state, o.trace⟩

instance : Monad M where
  pure := pure
  bind := bind

end M

def get : M Raft := fun _ r => ⟨.ok r, r, []⟩

def modify (f : Raft → Raft) : M Unit := fun _ r => ⟨.ok (), f r, []⟩

def getEnv : M Env := fun env r => ⟨.ok env, r, []⟩

def emit (ev : Event) : M Unit := fun _ r => ⟨.ok (), r, [ev]⟩

def fault (f : Fault) : M α := fun _ r => ⟨.error f, r, []⟩

def ovsAssert (site : Site) (condition : Prop) [Decidable condition] : M Unit :=
  if condition then pure () else fault (.assert site)

/-- An `HMAP_FOR_EACH` loop whose body works on one element at a time. -/
def forEach : List α → (α → M Unit) → M Unit
  | [], _ => pure ()
  | x :: xs, f => do
    f x
    forEach xs f

/-! ## 4. Running -/

@[simp] theorem pure_run (a : α) (env : Env) (r : Raft) :
    (pure a : M α) env r = ⟨.ok a, r, []⟩ := rfl

@[simp] theorem bind_run (m : M α) (f : α → M β) (env : Env) (r : Raft) :
    (m >>= f) env r =
      match m env r with
      | ⟨.ok a, r', tr⟩ =>
        ⟨(f a env r').result, (f a env r').state, tr ++ (f a env r').trace⟩
      | ⟨.error e, r', tr⟩ => ⟨.error e, r', tr⟩ := by
  show M.bind m f env r = _
  rcases hm : m env r with ⟨_ | a, r', tr⟩ <;> simp only [M.bind, hm]

variable {tr : List Event} {f : α → M β} {r'' r : Raft} {m : M α} {env : Env} {b : β}

theorem bind_eq_ok (h : (m >>= f) env r = ⟨.ok b, r'', tr⟩) :
    ∃ a r' tr1 tr2, m env r = ⟨.ok a, r', tr1⟩ ∧ f a env r' = ⟨.ok b, r'', tr2⟩ ∧
      tr = tr1 ++ tr2 := by
  rw [bind_run] at h
  rcases hm : m env r with ⟨e | a, r', tr1⟩
  · simp [hm] at h
  · rcases hf : f a env r' with ⟨res, r2, tr2⟩
    simp only [hm, hf, Outcome.mk.injEq] at h
    obtain ⟨rfl, rfl, rfl⟩ := h
    exact ⟨a, r', tr1, tr2, rfl, hf, rfl⟩

/-- The same after a step that leaves no trace. -/
theorem eq_ok_of_bind {r' : Raft} {a : α}
    (h : (m >>= f) env r = ⟨.ok b, r'', tr⟩) (hm : m env r = ⟨.ok a, r', []⟩) :
    f a env r' = ⟨.ok b, r'', tr⟩ := by
  obtain ⟨_, _, _, _, hrun, hrest, rfl⟩ := bind_eq_ok h
  cases hm.symm.trans hrun
  exact hrest

@[simp] theorem get_run (env : Env) (r : Raft) : get env r = ⟨.ok r, r, []⟩ := rfl

@[simp] theorem modify_run (f : Raft → Raft) (env : Env) (r : Raft) :
    modify f env r = ⟨.ok (), f r, []⟩ := rfl

@[simp] theorem getEnv_run (env : Env) (r : Raft) : getEnv env r = ⟨.ok env, r, []⟩ := rfl

@[simp] theorem emit_run (ev : Event) (env : Env) (r : Raft) :
    emit ev env r = ⟨.ok (), r, [ev]⟩ := rfl

@[simp] theorem fault_run (f : Fault) (env : Env) (r : Raft) :
    (fault f : M α) env r = ⟨.error f, r, []⟩ := rfl

end Ovsgw.Cluster
