/-
  **What the codec writes, it reads back**: the header of a server that has joined its cluster, and
  the records for entries, terms, votes and commit indexes.

  A record is read member by member, so each result is assembled from what the `raft_parse_*`
  functions read where a member is present and where it is absent.
-/
import Ovsgw.Raft.Codec
import Ovsgw.Raft.Append

namespace Ovsgw.Cluster

open List

/-! ## 1. Members that are there, and members that are not -/

section
variable {members : List (String × Json)} {name : String} {optional : Bool} {u : Uuid} {n : Nat}

theorem reads_uint64 (h : members.lookup name = some (jsonUint64 n)) (hn : n < 2 ^ 64) :
    Reads members (raftParseUint64 name optional) n [name] := by
  rw [raftParseUint64]
  refine (Reads.present h (by simp [jsonUint64, Json.type])).bind ?_
  simp only [jsonUint64, BitVec.ofInt_toInt, BitVec.toNat_ofNat, Nat.mod_eq_of_lt hn]
  exact .pure n

theorem reads_noUint64 (h : members.lookup name = none) :
    Reads members (raftParseUint64 name true) 0 [] :=
  (Reads.absent h rfl).bind (.pure 0)

theorem reads_optionalUint64
    (h : members.lookup name = if n ≠ 0 then some (jsonUint64 n) else none) (hn : n < 2 ^ 64) :
    Reads members (raftParseOptionalUint64 name) n (if n ≠ 0 then [name] else []) := by
  by_cases hzero : n = 0
  · rw [hzero] at h ⊢
    exact reads_noUint64 h
  · rw [if_pos hzero] at h ⊢
    exact reads_uint64 h hn

theorem reads_string {s : String} (h : members.lookup name = some (.string s)) :
    Reads members (raftParseString name optional) (some s) [name] :=
  (Reads.present h (by simp [Json.type])).bind (.pure (some s))

theorem reads_noString (h : members.lookup name = none) :
    Reads members (raftParseString name true) none [] :=
  (Reads.absent h rfl).bind (.pure none)

theorem reads_someUuid (h : members.lookup name = some (jsonUuid u)) :
    Reads members (raftParseUuid name optional) (some u) [name] := by
  rw [raftParseUuid]
  refine (reads_string h).bind ?_
  simp only [uuidFromString_uuidToString]
  exact .pure (some u)

theorem reads_uuid (h : members.lookup name = some (jsonUuid u)) :
    Reads members (raftParseRequiredUuid name) u [name] :=
  (reads_someUuid h).bind (.pure u)

theorem reads_noUuid (h : members.lookup name = none) :
    Reads members (raftParseUuid name true) none [] :=
  (reads_noString h).bind (.pure none)

end

/-! ## 2. Servers -/

variable {servers : Servers} {env : Env}

theorem serversLoop_map {json : Json}
    (h : ∀ n ∈ servers, env.addressValid n.2) :
    serversLoop env json (servers.map (fun n => (uuidToString n.1, Json.string n.2))) =
      .ok servers := by
  induction servers with
  | nil => rfl
  | cons n rest ih =>
    have hn : raftAddressValidate env n.2 = none := by
      simpa [Env.addressValid] using h n (mem_cons_self ..)
    simp [serversLoop, uuidFromString_uuidToString, raftAddressValidateJson, hn,
      ih (fun m hm => h m (mem_cons_of_mem _ hm)), Except.map]

/-- A `servers` object that can be read back. -/
def Servers.Valid (env : Env) (servers : Servers) : Prop :=
  servers ≠ [] ∧ ∀ n ∈ servers, env.addressValid n.2

theorem raftServersFromJson_serversToJson (h : servers.Valid env) :
    raftServersFromJson env (serversToJson servers) = .ok servers := by
  have hne : (servers.map (fun n => (uuidToString n.1, Json.string n.2))).isEmpty = false := by
    simpa using h.1
  simp only [raftServersFromJson, serversToJson, hne]
  exact serversLoop_map h.2

theorem reads_servers {members : List (String × Json)} {name : String} {optional : Bool}
    {servers : Option Servers} (h : members.lookup name = servers.map serversToJson)
    (hvalid : ∀ s, servers = some s → s.Valid env) (hoptional : servers = none → optional = true) :
    Reads members (raftParseServers env name optional) servers
      (if servers.isSome then [name] else []) := by
  rw [raftParseServers]
  cases servers with
  | none => exact (Reads.absent h (hoptional rfl)).bind (.pure none)
  | some servers =>
    refine (Reads.present h (by simp [serversToJson, Json.type])).bind ?_
    simp only [raftServersFromJson_serversToJson (hvalid servers rfl)]
    exact .pure (some servers)

/-! ## 3. Records -/

/-- An entry whose record can be read back: a record has an `eid` exactly if it
    has `data`, which is an object or an array. -/
structure Entry.Writable (env : Env) (e : Entry) : Prop where
  term : e.term < 2 ^ 64
  data : ∀ data, e.data = some data → data.type = .object ∨ data.type = .array
  eid : e.eid ≠ 0 ↔ e.data.isSome
  servers : ∀ servers, e.servers = some servers → servers.Valid env
  electionTimer : e.electionTimer < 2 ^ 64

section
variable {env : Env} {e : Entry} {members : List (String × Json)} (he : e.Writable env)
include he

theorem reads_entryData (h : members.lookup "data" = e.data) :
    Reads members (ovsdbParserMember "data" { types := [.object, .array], optional := true })
      e.data (if e.data.isSome then ["data"] else []) :=
  .member h (by simpa using he.data) fun _ => rfl

theorem reads_eid (h : e.data.isSome → members.lookup "eid" = some (jsonUuid e.eid)) :
    Reads members (raftParseEid e.data) e.eid (if e.data.isSome then ["eid"] else []) := by
  have hiff := he.eid
  unfold raftParseEid
  split
  · next hsome => exact reads_uuid (h hsome)
  · next hnone =>
    have hzero : e.eid = 0 := by simpa [hnone] using hiff
    rw [hzero]
    exact .pure 0

end

variable {k a : String}

theorem lookup_cons_of_ne {v : β} {l : List (String × β)} (h : a ≠ k) :
    List.lookup a ((k, v) :: l) = List.lookup a l := by
  rw [lookup_cons, beq_eq_false_iff_ne.mpr h]

theorem lookup_optionalMember {value : Option Json} :
    List.lookup a (optionalMember k value) = if a = k then value else none := by
  by_cases h : a = k
  · subst h
    cases value <;> simp [optionalMember]
  · cases value <;> simp [optionalMember, h, lookup_cons_of_ne h]

section

variable {term : Nat}

theorem raftRecordFromJson_term (hterm : term < 2 ^ 64) :
    raftRecordFromJson env (raftRecordToJson { term, body := .term }) =
      .ok { term, body := .term } := by
  have hnone (name : String) (h : name ≠ "term") :
      (recordMembers term .term).lookup name = none := lookup_cons_of_ne h
  have hreads : Reads (recordMembers term .term) (raftRecordFromJson__ env)
      { term, body := .term } ["term"] :=
    (reads_noString (hnone _ (by decide))).bind ((reads_noString (hnone _ (by decide))).bind
      ((reads_noUint64 (hnone _ (by decide))).bind ((reads_uint64 rfl hterm).bind
      ((reads_noUuid (hnone _ (by decide))).bind ((reads_noUuid (hnone _ (by decide))).bind
      ((reads_noUint64 (hnone _ (by decide))).bind (.pure _)))))))
  exact hreads.ovsdbParse (by decide) (Nat.le_refl 1) _

theorem raftRecordFromJson_vote {sid : Uuid} (hterm : term < 2 ^ 64)
    (hsid : sid ≠ 0) : raftRecordFromJson env (raftRecordToJson { term, body := .vote sid }) =
      .ok { term, body := .vote sid } := by
  have hnone (name : String) (h : name ≠ "term" ∧ name ≠ "vote") :
      (recordMembers term (.vote sid)).lookup name = none :=
    (lookup_cons_of_ne h.1).trans (lookup_cons_of_ne h.2)
  have hreads : Reads (recordMembers term (.vote sid)) (raftRecordFromJson__ env)
      { term, body := .vote sid } ["term", "vote"] := by
    refine (reads_noString (hnone _ (by decide))).bind ((reads_noString (hnone _ (by decide))).bind
      ((reads_noUint64 (hnone _ (by decide))).bind ((reads_uint64 rfl hterm).bind
      ((reads_noUuid (hnone _ (by decide))).bind ((reads_someUuid rfl).bind ?_)))))
    simp only [if_neg hsid]
    exact .pure _
  exact hreads.ovsdbParse (by decide) (Nat.le_refl 2) _

theorem raftRecordFromJson_commitIndex {commitIndex : Nat} (hne : commitIndex ≠ 0)
    (hlt : commitIndex < 2 ^ 64) :
    raftRecordFromJson env (raftRecordToJson { body := .commitIndex commitIndex }) =
      .ok { body := .commitIndex commitIndex } := by
  have hnone (name : String) (h : name ≠ "commit_index") :
      (recordMembers 0 (.commitIndex commitIndex)).lookup name = none := lookup_cons_of_ne h
  have hreads : Reads (recordMembers 0 (.commitIndex commitIndex)) (raftRecordFromJson__ env)
      { body := .commitIndex commitIndex } ["commit_index"] := by
    refine (reads_noString (hnone _ (by decide))).bind ((reads_noString (hnone _ (by decide))).bind
      ((reads_uint64 rfl hlt).bind ?_))
    simp only [if_pos hne]
    exact .pure _
  exact hreads.ovsdbParse (by decide) (Nat.le_refl 1) _

variable {env : Env} {e : Entry} {index : Nat}

abbrev entryMembers (index : Nat) (e : Entry) : List (String × Json) :=
  recordMembers e.term (entryRecord index e).body

/-- What `raft_record_from_json__` finds under the optional names of an entry's record. -/
theorem lookup_entryRecord (e : Entry) (index : Nat) {name : String} (h1 : name ≠ "term")
    (h2 : name ≠ "index") : (entryMembers index e).lookup name =
      (if name = "data" then e.data else none).or
      ((if name = "servers" then e.servers.map serversToJson else none).or
      ((if name = "election_timer" then
          (if e.electionTimer ≠ 0 then some (jsonUint64 e.electionTimer) else none) else none).or
      (if name = "eid" then (if e.eid ≠ 0 then some (jsonUuid e.eid) else none) else none))) := by
  simp only [entryMembers, entryRecord, recordMembers, nonzeroMember, nonzeroUuidMember, lookup_append,
    lookup_optionalMember, lookup_cons_of_ne h1, lookup_cons_of_ne h2, lookup_nil,
    Option.none_or, Option.or_assoc]

/-- The members of an entry's record in the order in which they are read. -/
def entryUsed (e : Entry) : List String :=
  noteUsed e.data.isSome "eid" (noteUsed e.data.isSome "data"
    (noteUsed (e.electionTimer ≠ 0) "election_timer"
      (noteUsed e.servers.isSome "servers" ["index", "term"])))

theorem nodup_entryUsed : (entryUsed e).Nodup := by
  unfold entryUsed noteUsed
  cases e.data.isSome <;> cases e.servers.isSome <;> by_cases ht : e.electionTimer = 0 <;> simp [ht]

theorem length_recordMembers (heid : e.eid ≠ 0 ↔ e.data.isSome) :
    (entryMembers index e).length = (entryUsed e).length := by
  simp only [entryMembers, entryRecord, recordMembers, nonzeroMember, nonzeroUuidMember, entryUsed,
    noteUsed, heid]
  cases e.data <;> cases e.servers <;> by_cases ht : e.electionTimer = 0 <;>
    simp [optionalMember, ht]

theorem reads_entry (he : e.Writable env) : ∃ names,
    Reads (entryMembers index e) (raftParseEntry env index) (entryRecord index e).body names ∧
      ["term", "index"] ++ names = (entryUsed e).reverse := by
  have hservers := lookup_entryRecord e index (show "servers" ≠ "term" by decide) (by decide)
  have htimer := lookup_entryRecord e index (show "election_timer" ≠ "term" by decide) (by decide)
  have hdata := lookup_entryRecord e index (show "data" ≠ "term" by decide) (by decide)
  have heid := lookup_entryRecord e index (show "eid" ≠ "term" by decide) (by decide)
  simp only [String.reduceEq, if_true, if_false, Option.none_or, Option.or_none]
    at hservers htimer hdata heid
  refine ⟨_, (reads_servers hservers he.servers fun _ => rfl).bind
    ((reads_optionalUint64 htimer he.electionTimer).bind ((reads_entryData he hdata).bind
    ((reads_eid he fun hsome => heid.trans (if_pos (he.eid.mpr hsome))).bind (.pure _)))), ?_⟩
  unfold entryUsed noteUsed
  cases e.data.isSome <;> cases e.servers.isSome <;> by_cases ht : e.electionTimer = 0 <;> simp [ht]

/-- A record of an entry is read back as it was written. -/
theorem raftRecordFromJson_entryRecord (he : e.Writable env) (hne : index ≠ 0)
    (hlt : index < 2 ^ 64) : raftRecordFromJson env (raftRecordToJson (entryRecord index e)) =
      .ok (entryRecord index e) := by
  have hnone (name : String)
      (h : name ∉ ["term", "index", "data", "servers", "election_timer", "eid"]) :
      (entryMembers index e).lookup name = none := by
    simp only [mem_cons, not_mem_nil, not_or, or_false] at h
    rw [lookup_entryRecord e index h.1 h.2.1]
    simp [h]
  have hreads : Reads (entryMembers index e) (raftRecordFromJson__ env) (entryRecord index e)
      (entryUsed e).reverse := by
    obtain ⟨names, hentry, hnames⟩ := @reads_entry env e index he
    rw [← hnames]
    refine (reads_noString (hnone _ (by decide))).bind ((reads_noString (hnone _ (by decide))).bind
      ((reads_noUint64 (hnone _ (by decide))).bind ((reads_uint64 rfl he.term).bind
      ((reads_noUuid (hnone _ (by decide))).bind ((reads_noUuid (hnone _ (by decide))).bind
      ((reads_uint64 rfl hlt).bind ?_))))))
    simp only [if_neg hne]
    exact Reads.names_eq (hentry.bind (.pure _)) (append_nil names)
  exact hreads.ovsdbParse ((reverse_perm _).nodup_iff.mpr nodup_entryUsed)
    (by rw [length_reverse]; exact Nat.le_of_eq (length_recordMembers he.eid)) _
end

/-! ## 4. The header -/

/-- The header of a server that has joined its cluster, of which every field can be read back. -/
structure Header.Writable (env : Env) (h : Header) : Prop where
  cid : h.cid ≠ 0
  joined : h.joining = false
  remoteAddresses : h.remoteAddresses = []
  snapIndex : h.snapIndex ≠ 0
  snapIndex_lt : h.snapIndex < 2 ^ 64
  term : h.snap.term < 2 ^ 64
  data : h.snap.data.isSome
  servers : ∃ servers, h.snap.servers = some servers ∧ servers.Valid env
  electionTimer : h.snap.electionTimer < 2 ^ 64

section
variable {env : Env} {h : Header} {data : Json} {servers : Servers}

def joinedMembers (h : Header) (data : Json) (servers : Servers) : List (String × Json) :=
  [("server_id", jsonUuid h.sid), ("cluster_id", jsonUuid h.cid),
    ("local_address", .string h.localAddress), ("name", .string h.name),
    ("prev_servers", serversToJson servers), ("prev_index", jsonUint64 h.snapIndex),
    ("prev_term", jsonUint64 h.snap.term), ("prev_data", data), ("prev_eid", jsonUuid h.snap.eid)]
    ++ nonzeroMember "prev_election_timer" h.snap.electionTimer

theorem raftHeaderToJson_joined (hw : h.Writable env) (hdata : h.snap.data = some data)
    (hservers : h.snap.servers = some servers) :
    raftHeaderToJson h = .object (joinedMembers h data servers) := by
  have hcid : nonzeroUuidMember "cluster_id" h.cid = [("cluster_id", jsonUuid h.cid)] := by
    rw [nonzeroUuidMember, if_pos hw.cid]
    rfl
  rw [raftHeaderToJson, hcid, hw.remoteAddresses, hdata, hservers, if_pos hw.snapIndex]
  rfl

/-- The members of such a header in the order in which they are read. -/
def snapshotUsed (h : Header) : List String :=
  noteUsed (h.snap.electionTimer ≠ 0) "prev_election_timer"
    ["prev_term", "prev_eid", "prev_data", "prev_index", "prev_servers", "local_address", "name",
      "server_id"]

theorem reads_snapshot (hw : h.Writable env) (hdata : h.snap.data = some data)
    (hservers : h.snap.servers = some servers) (hvalid : servers.Valid env) :
    Reads (joinedMembers h data servers) (raftParseSnapshot env) (h.snapIndex, h.snap)
      (["prev_servers", "prev_index", "prev_data", "prev_eid", "prev_term"] ++
        if h.snap.electionTimer ≠ 0 then ["prev_election_timer"] else []) := by
  have hsnap : h.snap = ⟨h.snap.term, some data, h.snap.eid, some servers,
      h.snap.electionTimer⟩ := by
    rw [← hdata, ← hservers]
  have hprev : Reads (joinedMembers h data servers) (raftParseServers env "prev_servers" false)
      (some servers) ["prev_servers"] :=
    reads_servers rfl (by rintro _ ⟨⟩; exact hvalid) nofun
  have htype : data.type ∈ ({ types := OP_ANY } : ParserTypes).types := by
    cases htype : data.type <;> decide
  have htimer : (joinedMembers h data servers).lookup "prev_election_timer" =
      if h.snap.electionTimer ≠ 0 then some (jsonUint64 h.snap.electionTimer) else none := by
    simp [joinedMembers, lookup_cons_of_ne, nonzeroMember, lookup_optionalMember]
  refine hprev.bind ((reads_uint64 rfl hw.snapIndex_lt).bind ?_)
  simp only [if_pos hw.snapIndex]
  rw [hsnap]
  exact Reads.names_eq ((Reads.present rfl htype).bind ((reads_uuid rfl).bind
    ((reads_uint64 rfl hw.term).bind ((reads_optionalUint64 htimer hw.electionTimer).bind
    (.pure _))))) (by simp)

/-- A header is read back as it was written. -/
theorem raftHeaderFromJson_raftHeaderToJson (hw : h.Writable env) :
    raftHeaderFromJson env (raftHeaderToJson h) = .ok h := by
  obtain ⟨servers, hservers, hvalid⟩ := hw.servers
  obtain ⟨data, hdata⟩ := Option.isSome_iff_exists.mp hw.data
  rw [raftHeaderToJson_joined hw hdata hservers]
  have hremote : (joinedMembers h data servers).lookup "remote_addresses" = none := by
    simp [joinedMembers, lookup_cons_of_ne, nonzeroMember, lookup_optionalMember]
  have hheader : h = { h with joining := false, remoteAddresses := [] } := by
    rw [← hw.joined, ← hw.remoteAddresses]
  have hreads : Reads (joinedMembers h data servers) (raftHeaderFromJson__ env) h
      ((snapshotUsed h).insert "cluster_id").reverse := by
    refine Reads.names_eq ((reads_uuid rfl).bind ((reads_string rfl).bind ((reads_string rfl).bind
      ((Reads.absent hremote rfl).bind ((reads_snapshot hw hdata hservers hvalid).bind
      ((reads_someUuid rfl).bind (show Reads _ _ h [] from ?_))))))) ?_
    · rw [hheader]
      exact .pure _
    · by_cases htimer : h.snap.electionTimer = 0 <;> simp [snapshotUsed, noteUsed, htimer]
  refine hreads.ovsdbParse ?_ ?_ _ <;> by_cases htimer : h.snap.electionTimer = 0 <;>
    simp [snapshotUsed, noteUsed, htimer, joinedMembers, nonzeroMember, optionalMember]

end

end Ovsgw.Cluster
