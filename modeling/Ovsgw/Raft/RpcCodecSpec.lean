/-
  **What is sent is what is received.**

  Each decoder is shown to read exactly the members that the encoder of the same type writes.  The
  members that all RPCs have come first in the object; their names differ from those of every type.
-/
import Ovsgw.Raft.CodecSpec
import Ovsgw.Raft.RpcCodec

namespace Ovsgw.Cluster

open List

/-! ## 1. Reading one member -/

section
variable {members : List (String × Json)} {name : String} {b optional : Bool}

theorem reads_optionalString {value : Option String}
    (h : members.lookup name = value.map Json.string) :
    Reads members (raftParseOptionalString name) value (if value.isSome then [name] else []) := by
  cases value with
  | none => exact reads_noString h
  | some s => exact reads_string h

theorem reads_nonzeroUuid {u : Uuid}
    (h : members.lookup name = if u ≠ 0 then some (jsonUuid u) else none)
    (hoptional : u = 0 → optional = true) :
    Reads members (raftParseUuid name optional) (if u ≠ 0 then some u else none)
      (if u ≠ 0 then [name] else []) := by
  by_cases hu : u = 0
  · rw [if_neg (by simpa using hu)] at h ⊢
    rw [if_neg (by simpa using hu), hoptional hu]
    exact reads_noUuid h
  · rw [if_pos hu] at h ⊢
    rw [if_pos hu]
    exact reads_someUuid h

theorem reads_someBoolean (h : members.lookup name = some (.bool b)) :
    Reads members (raftParseBoolean name optional) (some b) [name] :=
  (Reads.present h (by cases b <;> simp [Json.type])).bind (.pure _)

theorem reads_boolean (h : members.lookup name = some (.bool b)) :
    Reads members (raftParseRequiredBoolean name) b [name] :=
  (reads_someBoolean h).bind (.pure b)

theorem reads_flag (h : members.lookup name = if b then some (.bool true) else none) :
    Reads members (raftParseOptionalBoolean name) (if b then some true else none)
      (if b then [name] else []) := by
  cases b with
  | false => exact (Reads.absent h rfl).bind (.pure _)
  | true => exact reads_someBoolean h

theorem reads_data {data : Json} (h : members.lookup name = some data)
    (htype : data.type = .object ∨ data.type = .array) :
    Reads members (ovsdbParserMember name { types := [.object, .array] }) (some data) [name] :=
  .present h (by simpa using htype)

end

/-! ## 2. Entries -/

/-- The members of an entry in the order in which they are read. -/
def entryNames (e : Entry) : List String :=
  ["term"] ++ (if e.data.isSome then ["data", "eid"] else [])
    ++ (if e.servers.isSome then ["servers"] else [])
    ++ (if e.electionTimer ≠ 0 then ["election_timer"] else [])

variable {env : Env} {members : List (String × Json)} {e : Entry}

theorem reads_logEntry (he : e.Writable env)
    (hterm : members.lookup "term" = some (jsonUint64 e.term))
    (hdata : members.lookup "data" = e.data)
    (heid : e.data.isSome → members.lookup "eid" = some (jsonUuid e.eid))
    (hservers : members.lookup "servers" = e.servers.map serversToJson)
    (htimer : members.lookup "election_timer" =
      if e.electionTimer ≠ 0 then some (jsonUint64 e.electionTimer) else none) :
    Reads members (raftParseLogEntry env) e (entryNames e) := by
  refine Reads.names_eq ((reads_uint64 hterm he.term).bind ((reads_entryData he hdata).bind
    ((reads_eid he heid).bind ((reads_servers hservers he.servers fun _ => rfl).bind
      ((reads_optionalUint64 htimer he.electionTimer).bind (.pure _)))))) ?_
  unfold entryNames
  cases e.data.isSome <;> simp

theorem raftEntryFromJson_raftEntryToJson (he : e.Writable env) :
    raftEntryFromJson env (raftEntryToJson e) = .ok e := by
  refine Reads.ovsdbParse (reads_logEntry he ?_ ?_ ?_ ?_ ?_) ?_ ?_ _
  · rfl
  · cases e.data <;> simp [lookup_append, lookup_cons, lookup_optionalMember, nonzeroMember]
  · intro hsome
    obtain ⟨data, hdata⟩ := Option.isSome_iff_exists.mp hsome
    simp [lookup_cons, hdata]
  · cases e.data <;> simp [lookup_append, lookup_cons, lookup_optionalMember, nonzeroMember]
  · cases e.data <;> simp [lookup_append, lookup_cons, lookup_optionalMember, nonzeroMember]
  · unfold entryNames
    cases e.data.isSome <;> cases e.servers.isSome <;> by_cases ht : e.electionTimer = 0 <;>
      simp [ht]
  · unfold entryNames
    cases e.data <;> cases e.servers <;> by_cases ht : e.electionTimer = 0 <;>
      simp [nonzeroMember, optionalMember, ht]

theorem reads_entries {es : List Entry} (h : ∀ e ∈ es, e.Writable env) :
    Reads members (raftParseEntries env (es.map raftEntryToJson)) es [] := by
  induction es with
  | nil => exact .pure []
  | cons e es ih =>
    have he := raftEntryFromJson_raftEntryToJson (h e mem_cons_self)
    have hes := ih fun e' hmem => h e' (mem_cons_of_mem _ hmem)
    simp only [map_cons, raftParseEntries, he]
    exact hes.bind (.pure _)

/-! ## 3. The members of each type -/

def commonNames : List String := ["cluster", "to", "from", "comment"]

def Composite (json : Json) : Prop := json.type = .object ∨ json.type = .array

/-- The RPCs whose members can be read back, by type. -/
def Body.Encodable (env : Env) : Body → Prop
  | .appendRequest rq => rq.term < 2 ^ 64 ∧ rq.prevLogIndex < 2 ^ 64 ∧ rq.prevLogTerm < 2 ^ 64 ∧
      rq.leaderCommit < 2 ^ 64 ∧ ∀ e ∈ rq.entries, e.Writable env
  | .appendReply rpy => rpy.term < 2 ^ 64 ∧ rpy.logEnd < 2 ^ 64 ∧ rpy.prevLogIndex < 2 ^ 64 ∧
      rpy.prevLogTerm < 2 ^ 64 ∧ rpy.nEntries < 2 ^ 32
  | .voteRequest rq => rq.term < 2 ^ 64 ∧ rq.lastLogIndex < 2 ^ 64 ∧ rq.lastLogTerm < 2 ^ 64
  | .voteReply rpy => rpy.term < 2 ^ 64
  | .addServerReply _ remoteAddresses => ∀ a ∈ remoteAddresses, env.addressValid a
  | .removeServerRequest _ requesterConn => requesterConn = none
  | .installSnapshotRequest rq => rq.term < 2 ^ 64 ∧ rq.lastIndex < 2 ^ 64 ∧ rq.lastTerm < 2 ^ 64 ∧
      rq.electionTimer < 2 ^ 64 ∧ rq.lastServers.Valid env ∧ Composite rq.data
  | .installSnapshotReply rpy => rpy.term < 2 ^ 64 ∧ rpy.lastIndex < 2 ^ 64 ∧ rpy.lastTerm < 2 ^ 64
  | .becomeLeader term => term < 2 ^ 64
  | .executeCommandRequest data _ _ => Composite data
  | .executeCommandReply _ _ commitIndex => commitIndex < 2 ^ 64
  | _ => True

/-- The RPCs are equal; `remote_addresses` is a set. -/
def Body.Same : Body → Body → Prop
  | .addServerReply success addresses, .addServerReply success' addresses' =>
    success = success' ∧ ∀ a, a ∈ addresses ↔ a ∈ addresses'
  | body, body' => body = body'

theorem Body.Same.refl (body : Body) : body.Same body := by
  cases body <;> simp [Body.Same]

/-- The members of an RPC's type in the order in which they are read. -/
def bodyNames : Body → List String
  | .helloRequest _ | .addServerRequest _ => ["address"]
  | .appendRequest _ => ["term", "prev_log_index", "prev_log_term", "leader_commit", "log"]
  | .appendReply _ =>
    ["term", "log_end", "prev_log_index", "prev_log_term", "n_entries", "result"]
  | .voteRequest rq => ["term", "last_log_index", "last_log_term"]
      ++ if rq.leadershipTransfer then ["leadership_transfer"] else []
  | .voteReply _ => ["term", "vote"]
  | .addServerReply _ addresses =>
    ["success"] ++ if addresses = [] then [] else ["remote_addresses"]
  | .removeServerRequest _ _ => ["server_id"]
  | .removeServerReply _ targetSid =>
    ["success"] ++ if targetSid ≠ 0 then ["target_server"] else []
  | .installSnapshotRequest _ =>
    ["last_servers", "term", "last_index", "last_term", "last_eid", "election_timer", "data"]
  | .installSnapshotReply _ => ["term", "last_index", "last_term"]
  | .becomeLeader _ => ["term"]
  | .executeCommandRequest _ _ _ => ["data", "prereq", "result"]
  | .executeCommandReply _ _ commitIndex =>
    ["result", "status"] ++ if commitIndex ≠ 0 then ["commit_index"] else []

/-- Among the members of an RPC are those of its type. -/
def Carries (members : List (String × Json)) (body : Body) : Prop :=
  ∀ {name}, name ∉ commonNames → members.lookup name = (bodyMembers body).lookup name

/-- The decoder `m` reads `a` from the members of `body`, all of them. -/
def ReadsBody (body : Body) (m : Parse α) (a : α) : Prop :=
  ∀ {members}, Carries members body → Reads members m a (bodyNames body)

theorem reads_helloRequest (address : String) :
    ReadsBody (.helloRequest address) raftParseAddress address :=
  fun hm => (reads_string (hm (by decide))).bind (.pure _)

theorem reads_appendRequest {rq : AppendRequest} (h : (Body.appendRequest rq).Encodable env) :
    ReadsBody (.appendRequest rq) (raftAppendRequestFromJsonrpc env) rq := by
  intro members hm
  obtain ⟨hterm, hindex, hprev, hcommit, hentries⟩ := h
  have hlog : Reads members (raftParseLog env) rq.entries ["log"] := by
    have hmember : Reads members (ovsdbParserMember "log" { types := [.array] })
        (some (.array (rq.entries.map raftEntryToJson))) ["log"] :=
      .present (hm (by decide)) (by simp [Json.type])
    exact hmember.bind (reads_entries hentries)
  exact (reads_uint64 (hm (by decide)) hterm).bind
    ((reads_uint64 (hm (by decide)) hindex).bind ((reads_uint64 (hm (by decide)) hprev).bind
    ((reads_uint64 (hm (by decide)) hcommit).bind (hlog.bind (.pure _)))))

theorem reads_appendReply {rpy : AppendReply} (h : (Body.appendReply rpy).Encodable env) :
    ReadsBody (.appendReply rpy) raftAppendReplyFromJsonrpc rpy := by
  intro members hm
  obtain ⟨hterm, hend, hindex, hprev, hn⟩ := h
  have hresult : Reads members raftParseAppendResult rpy.result ["result"] := by
    have hparse : Reads members (raftParseRequiredString "result")
        (some (raftAppendResultToString rpy.result)) ["result"] := reads_string (hm (by decide))
    refine hparse.bind ?_
    cases rpy.result <;> exact .pure _
  have hpure : Reads members (pure (AppendReply.mk rpy.term rpy.logEnd rpy.prevLogIndex
      rpy.prevLogTerm (rpy.nEntries % 2 ^ 32) rpy.result)) rpy [] := by
    rw [Nat.mod_eq_of_lt hn]
    exact .pure rpy
  exact (reads_uint64 (hm (by decide)) hterm).bind
    ((reads_uint64 (hm (by decide)) hend).bind ((reads_uint64 (hm (by decide)) hindex).bind
    ((reads_uint64 (hm (by decide)) hprev).bind
    ((reads_uint64 (hm (by decide)) (Nat.lt_trans hn (by decide))).bind
    (hresult.bind hpure)))))

theorem reads_voteRequest {rq : VoteRequest} (h : (Body.voteRequest rq).Encodable env) :
    ReadsBody (.voteRequest rq) raftVoteRequestFromJsonrpc rq := by
  intro members hm
  obtain ⟨hterm, hindex, hlast⟩ := h
  have hmember : members.lookup "leadership_transfer" =
      if rq.leadershipTransfer then some (.bool true) else none := by
    rw [hm (by decide)]
    simp [bodyMembers, raftVoteRequestToJsonrpc, lookup_cons, lookup_optionalMember]
  have hpure : Reads members (pure (VoteRequest.mk rq.term rq.lastLogIndex rq.lastLogTerm
      ((if rq.leadershipTransfer then some true else none) == some true))) rq [] := by
    have hflag : ((if rq.leadershipTransfer then some true else none) == some true) =
        rq.leadershipTransfer := by
      cases rq.leadershipTransfer <;> rfl
    rw [hflag]
    exact .pure rq
  refine Reads.names_eq ((reads_uint64 (hm (by decide)) hterm).bind
    ((reads_uint64 (hm (by decide)) hindex).bind ((reads_uint64 (hm (by decide)) hlast).bind
    ((reads_flag hmember).bind hpure)))) ?_
  simp [bodyNames]

theorem reads_voteReply {rpy : VoteReply} (h : (Body.voteReply rpy).Encodable env) :
    ReadsBody (.voteReply rpy) raftVoteReplyFromJsonrpc rpy :=
  fun hm => (reads_uint64 (hm (by decide)) h).bind ((reads_uuid (hm (by decide))).bind (.pure _))

theorem reads_removeServerReply (success : Bool) (targetSid : Uuid) :
    ReadsBody (.removeServerReply success targetSid) raftRemoveServerReplyFromJsonrpc
      (.removeServerReply success targetSid) := by
  intro members hm
  have hsuccess : members.lookup "success" = some (.bool success) := by
    rw [hm (by decide)]
    simp [bodyMembers, raftRemoveServerReplyToJsonrpc, lookup_append, nonzeroUuidMember,
      lookup_optionalMember]
  have htarget : members.lookup "target_server" =
      if targetSid ≠ 0 then some (jsonUuid targetSid) else none := by
    rw [hm (by decide), bodyMembers, raftRemoveServerReplyToJsonrpc, lookup_append,
      nonzeroUuidMember, lookup_optionalMember, if_pos rfl, lookup_cons_of_ne (by decide)]
    exact Option.or_none
  have hpure : Reads members (pure (Body.removeServerReply success
      ((if targetSid ≠ 0 then some targetSid else none).getD 0)))
      (.removeServerReply success targetSid) [] := by
    by_cases hzero : targetSid = 0
    · rw [hzero]
      exact .pure _
    · rw [if_pos hzero]
      exact .pure _
  refine Reads.names_eq ((reads_boolean hsuccess).bind
    ((reads_nonzeroUuid htarget fun _ => rfl).bind hpure)) ?_
  simp [bodyNames]

theorem reads_installSnapshotRequest {rq : InstallSnapshotRequest}
    (h : (Body.installSnapshotRequest rq).Encodable env) :
    ReadsBody (.installSnapshotRequest rq) (raftInstallSnapshotRequestFromJsonrpc env) rq := by
  intro members hm
  obtain ⟨hterm, hindex, hlast, htimer, hvalid, hdata⟩ := h
  have hservers : Reads members (raftParseServers env "last_servers" false)
      (some rq.lastServers) ["last_servers"] :=
    reads_servers (hm (by decide)) (by rintro _ ⟨⟩; exact hvalid) nofun
  exact hservers.bind ((reads_uint64 (hm (by decide)) hterm).bind
    ((reads_uint64 (hm (by decide)) hindex).bind ((reads_uint64 (hm (by decide)) hlast).bind
    ((reads_uuid (hm (by decide))).bind ((reads_uint64 (hm (by decide)) htimer).bind
    ((reads_data (hm (by decide)) hdata).bind (.pure _)))))))

theorem reads_installSnapshotReply {rpy : InstallSnapshotReply}
    (h : (Body.installSnapshotReply rpy).Encodable env) :
    ReadsBody (.installSnapshotReply rpy) raftInstallSnapshotReplyFromJsonrpc rpy := by
  intro members hm
  obtain ⟨hterm, hindex, hlast⟩ := h
  exact (reads_uint64 (hm (by decide)) hterm).bind ((reads_uint64 (hm (by decide)) hindex).bind
    ((reads_uint64 (hm (by decide)) hlast).bind (.pure _)))

theorem reads_executeCommandRequest {data : Json} (prereq result : Uuid) (h : Composite data) :
    ReadsBody (.executeCommandRequest data prereq result) raftExecuteCommandRequestFromJsonrpc
      (.executeCommandRequest data prereq result) :=
  fun hm => (reads_data (hm (by decide)) h).bind ((reads_uuid (hm (by decide))).bind
    ((reads_uuid (hm (by decide))).bind (.pure _)))

theorem reads_executeCommandReply (result : Uuid) (status : CommandStatus) {commitIndex : Nat}
    (h : commitIndex < 2 ^ 64) :
    ReadsBody (.executeCommandReply result status commitIndex) raftExecuteCommandReplyFromJsonrpc
      (.executeCommandReply result status commitIndex) := by
  intro members hm
  have hstatus : Reads members raftParseCommandStatus status ["status"] := by
    have hparse : Reads members (raftParseRequiredString "status")
        (some (raftCommandStatusToString status)) ["status"] := reads_string (hm (by decide))
    refine hparse.bind ?_
    cases status <;> exact .pure _
  have hindex : members.lookup "commit_index" =
      if commitIndex ≠ 0 then some (jsonUint64 commitIndex) else none := by
    rw [hm (by decide)]
    simp [bodyMembers, raftExecuteCommandReplyToJsonrpc, lookup_cons, nonzeroMember,
      lookup_optionalMember]
  refine Reads.names_eq ((reads_uuid (hm (by decide))).bind
    (hstatus.bind ((reads_optionalUint64 hindex h).bind (.pure _)))) ?_
  simp [bodyNames]

variable {addresses : List String}

theorem addressesLoop_map (h : ∀ a ∈ addresses, env.addressValid a) (acc : List String) :
    ∃ result, addressesLoop env (addresses.map Json.string) acc = .ok result ∧
      ∀ a, a ∈ result ↔ a ∈ acc ∨ a ∈ addresses := by
  induction addresses generalizing acc with
  | nil => exact ⟨acc, rfl, by simp⟩
  | cons address rest ih =>
    have hvalid : raftAddressValidate env address = none := by
      simpa [Env.addressValid] using h address mem_cons_self
    obtain ⟨result, hrun, hmem⟩ := ih (fun a ha => h a (mem_cons_of_mem _ ha)) (acc.insert address)
    refine ⟨result, ?_, ?_⟩
    · simpa only [map_cons, addressesLoop, raftAddressValidateJson, hvalid] using hrun
    · intro a
      rw [hmem, mem_insert_iff, mem_cons]
      constructor
      · rintro ((h | h) | h)
        · exact .inr (.inl h)
        · exact .inl h
        · exact .inr (.inr h)
      · rintro (h | h | h)
        · exact .inl (.inr h)
        · exact .inl (.inl h)
        · exact .inr h

variable {body : Body} {cid sid : Uuid} {rpc : Rpc}

theorem reads_addServerReply {success : Bool} (h : ∀ a ∈ addresses, env.addressValid a) :
    ∃ result, (∀ a, a ∈ result ↔ a ∈ addresses) ∧ ReadsBody (.addServerReply success addresses)
      (raftAddServerReplyFromJsonrpc env) (.addServerReply success result) := by
  obtain ⟨result, hloop, hresult⟩ := addressesLoop_map h []
  refine ⟨result, by simpa using hresult, fun {members} hm => ?_⟩
  have hmember : members.lookup "remote_addresses" =
      if addresses.isEmpty then none else some (raftAddressesToJson addresses) := by
    rw [hm (by decide)]
    simp [bodyMembers, raftAddServerReplyToJsonrpc, lookup_cons, lookup_optionalMember]
  have hread : Reads members (raftParseReplyAddresses env) result
      (if addresses = [] then [] else ["remote_addresses"]) := by
    by_cases hempty : addresses = []
    · rw [hempty] at hmember hloop ⊢
      cases hloop
      exact (Reads.absent hmember rfl).bind (.pure _)
    · rw [if_neg (by simpa using hempty)] at hmember
      have hfrom : raftAddressesFromJson env (addresses.map Json.string) = .ok result := by
        rw [raftAddressesFromJson, if_neg (by simpa using hempty), hloop]
      rw [if_neg hempty, raftParseReplyAddresses]
      refine (Reads.present hmember (by simp [raftAddressesToJson, Json.type])).bind ?_
      simp only [raftAddressesToJson, hfrom]
      exact .pure _
  refine Reads.names_eq ((reads_boolean (hm (by decide))).bind (hread.bind (.pure _))) ?_
  simp [bodyNames]

/-- The body of each kind of RPC is read back. -/
theorem reads_body (h : body.Encodable env) :
    ∃ body', body'.Same body ∧ ReadsBody body (raftParseBody env body.type) body' := by
  cases body with
  | helloRequest address => exact ⟨_, .refl _, fun hm => (reads_helloRequest address hm).map _⟩
  | appendRequest rq => exact ⟨_, .refl _, fun hm => (reads_appendRequest h hm).map _⟩
  | appendReply rpy => exact ⟨_, .refl _, fun hm => (reads_appendReply h hm).map _⟩
  | voteRequest rq => exact ⟨_, .refl _, fun hm => (reads_voteRequest h hm).map _⟩
  | voteReply rpy => exact ⟨_, .refl _, fun hm => (reads_voteReply h hm).map _⟩
  | addServerRequest address =>
    exact ⟨_, .refl _, fun hm => (reads_helloRequest address hm).map _⟩
  | addServerReply success addresses =>
    obtain ⟨result, hmem, hreads⟩ := reads_addServerReply h
    exact ⟨.addServerReply success result, ⟨rfl, hmem⟩, hreads⟩
  | removeServerRequest sid requesterConn =>
    have hconn : requesterConn = none := h
    rw [hconn]
    exact ⟨_, .refl _, fun hm => (reads_uuid (hm (by decide))).bind (.pure _)⟩
  | removeServerReply success targetSid =>
    exact ⟨_, .refl _, reads_removeServerReply success targetSid⟩
  | installSnapshotRequest rq =>
    exact ⟨_, .refl _, fun hm => (reads_installSnapshotRequest h hm).map _⟩
  | installSnapshotReply rpy =>
    exact ⟨_, .refl _, fun hm => (reads_installSnapshotReply h hm).map _⟩
  | becomeLeader term => exact ⟨_, .refl _, fun hm => (reads_uint64 (hm (by decide)) h).map _⟩
  | executeCommandRequest data prereq result =>
    exact ⟨_, .refl _, reads_executeCommandRequest prereq result h⟩
  | executeCommandReply result status commitIndex =>
    exact ⟨_, .refl _, reads_executeCommandReply result status h⟩

theorem length_bodyMembers : (bodyMembers body).length = (bodyNames body).length := by
  cases body with
  | voteRequest rq =>
    cases ht : rq.leadershipTransfer <;>
      simp [bodyMembers, bodyNames, raftVoteRequestToJsonrpc, optionalMember, ht]
  | addServerReply success addresses =>
    cases addresses <;> simp [bodyMembers, bodyNames, raftAddServerReplyToJsonrpc, optionalMember]
  | removeServerReply success targetSid =>
    simp only [bodyMembers, bodyNames, raftRemoveServerReplyToJsonrpc, nonzeroUuidMember]
    split <;> rfl
  | executeCommandReply result status commitIndex =>
    simp only [bodyMembers, bodyNames, raftExecuteCommandReplyToJsonrpc, nonzeroMember]
    split <;> rfl
  | _ => rfl

theorem nodup_names : (commonNames ++ bodyNames body).Nodup := by
  cases body with
  | voteRequest rq => cases h : rq.leadershipTransfer <;> simp [commonNames, bodyNames, h]
  | addServerReply success addresses => cases addresses <;> simp [commonNames, bodyNames]
  | removeServerReply success targetSid =>
    simp only [bodyNames]
    split <;> simp [commonNames]
  | executeCommandReply result status commitIndex =>
    simp only [bodyNames]
    split <;> simp [commonNames]
  | _ => simp [commonNames, bodyNames]

/-! ## 4. The common members -/

/-- An RPC that the receiver can read: its members can be read back, and the
    cluster and the destination are there where they are required. -/
structure Rpc.Sendable (env : Env) (cid : Uuid) (rpc : Rpc) : Prop where
  body : rpc.body.Encodable env
  cluster : cid = 0 → rpc.body.type = .addServerRequest
  dst : rpc.sid = 0 → rpc.body.type = .addServerRequest ∨ rpc.body.type = .helloRequest

theorem carries_rpc : Carries (commonMembers cid sid rpc ++ bodyMembers rpc.body) rpc.body := by
  intro name hname
  simp only [commonNames, mem_cons, not_mem_nil, not_or, or_false] at hname
  obtain ⟨hcluster, hto, hfrom, hcomment⟩ := hname
  simp only [commonMembers, nonzeroUuidMember, lookup_append, lookup_optionalMember,
    lookup_cons_of_ne hfrom, lookup_nil, if_neg hcluster, if_neg hto, if_neg hcomment,
    Option.none_or]

/-- The common members that are there, in the order in which they are read. -/
def commonRead (cid : Uuid) (rpc : Rpc) : List String :=
  (if cid ≠ 0 then ["cluster"] else []) ++ (if rpc.sid ≠ 0 then ["to"] else []) ++ ["from"]
    ++ (if rpc.comment.isSome then ["comment"] else [])

theorem commonRead_sublist : (commonRead cid rpc).Sublist commonNames := by
  unfold commonRead
  split <;> split <;> split <;> decide

theorem length_commonMembers :
    (commonMembers cid sid rpc).length = (commonRead cid rpc).length := by
  unfold commonMembers commonRead nonzeroUuidMember
  cases rpc.comment <;> split <;> split <;> rfl

theorem lookup_bodyMembers {name : String} (hname : name ∈ commonNames) :
    (bodyMembers body).lookup name = none := by
  simp only [commonNames, mem_cons, not_mem_nil, or_false] at hname
  rcases hname with rfl | rfl | rfl | rfl <;> cases body <;>
    simp [bodyMembers, addressMembers, raftAppendRequestToJsonrpc, raftAppendReplyToJsonrpc,
      raftVoteRequestToJsonrpc, raftVoteReplyToJsonrpc, raftAddServerReplyToJsonrpc,
      raftRemoveServerRequestToJsonrpc, raftRemoveServerReplyToJsonrpc,
      raftInstallSnapshotRequestToJsonrpc, raftInstallSnapshotReplyToJsonrpc,
      raftExecuteCommandRequestToJsonrpc, raftExecuteCommandReplyToJsonrpc, nonzeroUuidMember,
      nonzeroMember, lookup_append, lookup_cons, lookup_optionalMember]

theorem lookup_rpc (cid sid : Uuid) (rpc : Rpc) :
    let members := commonMembers cid sid rpc ++ bodyMembers rpc.body
    members.lookup "cluster" = (if cid ≠ 0 then some (jsonUuid cid) else none) ∧
    members.lookup "to" = (if rpc.sid ≠ 0 then some (jsonUuid rpc.sid) else none) ∧
    members.lookup "from" = some (jsonUuid sid) ∧
    members.lookup "comment" = rpc.comment.map Json.string := by
  refine ⟨?_, ?_, ?_, ?_⟩ <;> rw [lookup_append, lookup_bodyMembers (by decide), Option.or_none] <;>
    simp [commonMembers, nonzeroUuidMember, lookup_append, lookup_cons, lookup_optionalMember]

section
variable {cid sid : Uuid} {rpc : Rpc} {members : List (String × Json)} {optional : Bool}

theorem reads_cluster {known : Uuid}
    (h : members.lookup "cluster" = if cid ≠ 0 then some (jsonUuid cid) else none)
    (hknown : cid = 0 ∨ known = cid ∨ known = 0) (hoptional : cid = 0 → optional = true) :
    Reads members (raftParseCluster known optional) (if cid = 0 then known else cid)
      (if cid ≠ 0 then ["cluster"] else []) := by
  refine Reads.names_eq ((reads_nonzeroUuid h hoptional).bind
    (show Reads members _ (if cid = 0 then known else cid) [] from ?_)) (append_nil _)
  by_cases hzero : cid = 0
  · simp only [hzero, ne_eq, not_true_eq_false, if_false, if_true]
    exact .pure known
  · simp only [ne_eq, hzero, not_false_eq_true, if_true, if_false]
    by_cases heq : cid = known
    · rw [if_pos heq, heq]
      exact .pure known
    · rw [if_neg heq]
      rcases hknown with h0 | h0 | h0
      · exact absurd h0 hzero
      · exact absurd h0.symm heq
      · rw [if_pos h0]
        exact .pure cid

theorem reads_to {dst : Uuid}
    (h : members.lookup "to" = if rpc.sid ≠ 0 then some (jsonUuid rpc.sid) else none)
    (hto : rpc.sid = 0 ∨ rpc.sid = dst) (hoptional : rpc.sid = 0 → optional = true) :
    Reads members (raftParseTo dst optional) () (if rpc.sid ≠ 0 then ["to"] else []) := by
  refine Reads.names_eq ((reads_nonzeroUuid h hoptional).bind
    (show Reads members _ () [] from ?_)) (append_nil _)
  by_cases hzero : rpc.sid = 0
  · simp only [hzero, ne_eq, not_true_eq_false, if_false]
    exact .pure ()
  · have heq : rpc.sid = dst := hto.resolve_left hzero
    rw [if_pos hzero]
    simp only [heq, ne_eq, not_true_eq_false, if_false]
    exact .pure ()

end

theorem raftRpcTypeFromString_toString {type : RpcType} :
    raftRpcTypeFromString (raftRpcTypeToString type) = some type := by
  cases type <;> decide

theorem reads_rpc {known dst : Uuid} (h : rpc.Sendable env cid)
    (hknown : cid = 0 ∨ known = cid ∨ known = 0) (hto : rpc.sid = 0 ∨ rpc.sid = dst) :
    ∃ body, body.Same rpc.body ∧ Reads (commonMembers cid sid rpc ++ bodyMembers rpc.body)
        (raftParseRpc env known dst rpc.body.type) { rpc with sid, body }
        (commonRead cid rpc ++ bodyNames rpc.body) := by
  obtain ⟨body, hsame, hbody⟩ := reads_body h.body
  obtain ⟨hcluster, hdest, hfrom, hcomment⟩ := lookup_rpc cid sid rpc
  refine ⟨body, hsame, Reads.names_eq ((reads_cluster hcluster hknown ?_).bind
    ((reads_to hdest hto ?_).bind ((reads_uuid hfrom).bind
      ((reads_optionalString hcomment).bind ((hbody carries_rpc).bind
      (.pure _)))))) ?_⟩
  · intro hzero
    rw [h.cluster hzero]
    rfl
  · intro hzero
    rcases h.dst hzero with htype | htype <;> rw [htype] <;> rfl
  · simp [commonRead]

/-! ## 5. The round trip -/

/-- A server that reads what another sent gets the same RPC, with the sender in
    place of the destination, and knows the cluster afterwards. -/
theorem raftRpcFromJsonrpc_raftRpcToJsonrpc {env : Env} {cid known sid dst : Uuid} {rpc : Rpc}
    (h : rpc.Sendable env cid) (hknown : cid = 0 ∨ known = cid ∨ known = 0)
    (hto : rpc.sid = 0 ∨ rpc.sid = dst) : ∃ body, body.Same rpc.body ∧
      raftRpcFromJsonrpc env known dst (raftRpcToJsonrpc cid sid rpc) =
        (if cid = 0 then known else cid, .ok { rpc with sid, body }) := by
  obtain ⟨body, hsame, hreads⟩ := reads_rpc h hknown hto
  refine ⟨body, hsame, ?_⟩
  have hnodup : (commonRead cid rpc ++ bodyNames rpc.body).Nodup :=
    nodup_names.sublist (commonRead_sublist.append_right _)
  have hlen : (commonMembers cid sid rpc ++ bodyMembers rpc.body).length ≤
      (commonRead cid rpc ++ bodyNames rpc.body).length := by
    apply Nat.le_of_eq
    rw [length_append, length_append, length_commonMembers, length_bodyMembers]
  have hcluster : Reads (commonMembers cid sid rpc ++ bodyMembers rpc.body)
      (raftParseCluster known (rpc.body.type == .addServerRequest))
      (if cid = 0 then known else cid) (if cid ≠ 0 then ["cluster"] else []) := by
    apply reads_cluster (lookup_rpc cid sid rpc).1 hknown
    intro hzero
    rw [h.cluster hzero]
    rfl
  have hlearn := hcluster ("raft " ++ raftRpcTypeToString rpc.body.type ++ " RPC") [] (by
    split <;> simp)
  simp only [raftRpcFromJsonrpc, raftRpcToJsonrpc, ne_eq, not_true_eq_false, if_false,
    raftRpcTypeFromString_toString]
  rw [hreads.ovsdbParse hnodup hlen]
  exact congrArg (fun result => (result.1, _)) hlearn

/-- An append request from server 1 to server 2 of cluster 7 with terms beyond
    the range of a signed integer, and an entry of each kind. -/
def sampleRequest : Rpc :=
  { sid := 2
    body := .appendRequest
      { term := 2 ^ 63, prevLogIndex := 4, prevLogTerm := 2 ^ 64 - 1, leaderCommit := 3
        entries := [{ term := 2 ^ 63, data := some (.array []), eid := 9 },
          { term := 2 ^ 63, servers := some [(1, "unix:s1"), (2, "unix:s2")] }] } }

theorem sampleRequest_sendable : sampleRequest.Sendable {} 7 := by
  refine ⟨⟨by decide, by decide, by decide, by decide, ?_⟩, by decide, by decide⟩
  intro e he
  simp only [mem_cons, not_mem_nil, or_false] at he
  rcases he with rfl | rfl
  · exact ⟨by decide, by rintro _ ⟨⟩; decide, by decide, by rintro _ ⟨⟩, by decide⟩
  · exact ⟨by decide, by rintro _ ⟨⟩, by decide,
      by rintro _ ⟨⟩; exact ⟨by decide, by decide⟩, by decide⟩

theorem raftRpcFromJsonrpc_sampleRequest : ∃ body, body.Same sampleRequest.body ∧
      raftRpcFromJsonrpc {} 0 2 (raftRpcToJsonrpc 7 1 sampleRequest) =
        (if (7 : Uuid) = 0 then 0 else 7, .ok { sampleRequest with sid := 1, body }) :=
  raftRpcFromJsonrpc_raftRpcToJsonrpc sampleRequest_sendable (.inr (.inr rfl)) (.inr rfl)

/-- A reply without a destination, a message without a cluster, and data that is
    only a string: the decoder refuses what the encoder wrote. -/
theorem raftRpcFromJsonrpc_refuses : (raftRpcFromJsonrpc {} 7 2 (raftRpcToJsonrpc 7 1
        { sid := 0, body := .voteReply { term := 1, vote := 2 } })).2.isOk = false ∧
      (raftRpcFromJsonrpc {} 7 2 (raftRpcToJsonrpc 0 1
        { sid := 2, body := .voteReply { term := 1, vote := 2 } })).2.isOk = false ∧
      (raftRpcFromJsonrpc {} 7 2 (raftRpcToJsonrpc 7 1
        { sid := 2
          body := .appendRequest
            { term := 1, prevLogIndex := 1, prevLogTerm := 1, leaderCommit := 1
              entries := [{ term := 1, data := some (.string "x"), eid := 9 }] } })).2.isOk =
        false := by
  decide +kernel

end Ovsgw.Cluster
