/-
  **Group mod messages**: how they are decoded and checked (`lib/ofp-group.c`) and how they
  change the groups of a bridge (`ofproto/ofproto.c`).

  A message is the content of its fields; its buckets are those of OpenFlow 1.1 to 1.4 or
  those of OpenFlow 1.5, with the error that decoding their actions gives, if any.  The table
  keeps groups that were removed, with the versions in which each group is visible.

  The check of a message looks at the message alone.  Inserting and removing buckets merge
  the message with the stored group, whose type stays, so what the check has established
  about the type in the message says nothing about the result, unless the types agree.
-/
import Mathlib.Algebra.Group.Nat.Defs
import Mathlib.Data.List.Nodup
import Mathlib.Data.List.Perm.Basic
import Ovsgw.Lib.Results
import Ovsgw.OfpActions

namespace Ovsgw.Groups

open List
open Results (bind_ok)

/-! ## 1. Messages -/

/-- `enum ofp11_group_type`, and any other value of the field. -/
inductive GroupType where
  | all | select | indirect | ff
  | other (type : Nat)
deriving DecidableEq

/-- `enum ofp15_group_mod_command`, and any other value of the field. -/
inductive GroupCommand where
  | add | modify | delete | insertBucket | removeBucket | addOrMod
  | other (command : Nat)
deriving DecidableEq

/-- The errors of this module, and those of the parts of a message that are left out. -/
inductive OfpErr where
  | badBucket | badWatch | badType | badCommand | invalidGroup | watchUnsupported
  | groupExists | unknownGroup | outOfGroups | unknownBucket | bucketExists
  | other (error : Nat)
deriving DecidableEq

/-- `struct ofputil_bucket` without its actions. -/
structure Bucket where
  bucketId : BitVec 32
  weight : BitVec 16
  watchPort : BitVec 16
  watchGroup : BitVec 32
deriving DecidableEq

structure Ofp11Bucket where
  weight : BitVec 16
  watchPort : BitVec 32
  watchGroup : BitVec 32
  actions : Option OfpErr := none

/-- The properties of a bucket in OpenFlow 1.5. -/
inductive BucketProp where
  | weight (weight : BitVec 16)
  | watchPort (port : BitVec 32)
  | watchGroup (group : BitVec 32)
  | bad (error : OfpErr)

structure Ofp15Bucket where
  bucketId : BitVec 32
  properties : List BucketProp
  actions : Option OfpErr := none

/-- What follows the fields that all versions have.  A message has less than 64 kB, and a
    bucket of OpenFlow 1.1 takes 16 bytes. -/
inductive GroupModBody where
  | ofp11 (buckets : { buckets : List Ofp11Bucket // 16 * buckets.length < 2 ^ 16 })
  | ofp15 (commandBucketId : BitVec 32) (buckets : List Ofp15Bucket)
      (properties : Option OfpErr)

structure GroupModMsg where
  version : OfpVersion
  command : GroupCommand
  type : GroupType
  groupId : BitVec 32
  body : GroupModBody

structure GroupMod where
  command : GroupCommand
  type : GroupType
  groupId : BitVec 32
  commandBucketId : BitVec 32
  buckets : List Bucket

def ofpgMax : BitVec 32 := 0xffffff00

def ofpgAll : BitVec 32 := 0xfffffffc

def ofpgAny : BitVec 32 := 0xffffffff

def ofppAny : BitVec 16 := 0xffff

def bucketMax : BitVec 32 := 0xffffff00

def bucketFirst : BitVec 32 := 0xfffffffd

def bucketLast : BitVec 32 := 0xfffffffe

def bucketAll : BitVec 32 := 0xffffffff

def Bucket.hasLiveness (b : Bucket) : Bool := b.watchPort != ofppAny || b.watchGroup != ofpgAny

/-! ## 2. Decoding -/

def ofputilPortFromOfp11 (port : BitVec 32) : Option (BitVec 16) :=
  if port < 0xff00 then some (port.setWidth 16)
  else if port ≥ 0xffffff00 then some ((port - 0xffff0000).setWidth 16)
  else none

def bucketCheckDuplicateId : List Bucket → Bool
  | [] => false
  | b :: buckets => buckets.any (·.bucketId == b.bucketId) || bucketCheckDuplicateId buckets

/-- `ofputil_pull_ofp11_buckets`.  The buckets are numbered from `bucketId` on. -/
def pullOfp11Buckets : List Ofp11Bucket → BitVec 32 → Except OfpErr (List Bucket)
  | [], _ => .ok []
  | ob :: obs, bucketId =>
    match ob.actions, ofputilPortFromOfp11 ob.watchPort with
    | some error, _ => .error error
    | none, none => .error .badWatch
    | none, some watchPort => do
      let buckets ← pullOfp11Buckets obs (bucketId + 1)
      return ⟨bucketId, ob.weight, watchPort, ob.watchGroup⟩ :: buckets

/-- The loop over the properties of a bucket, with the weight and what is watched. -/
def pullProperties : List BucketProp → BitVec 16 × BitVec 32 × BitVec 32 →
    Except OfpErr (BitVec 16 × BitVec 32 × BitVec 32)
  | [], values => .ok values
  | .weight weight :: props, (_, port, group) => pullProperties props (weight, port, group)
  | .watchPort port :: props, (weight, _, group) => pullProperties props (weight, port, group)
  | .watchGroup group :: props, (weight, port, _) => pullProperties props (weight, port, group)
  | .bad error :: _, _ => .error error

/-- A round of `ofputil_pull_ofp15_buckets`. -/
def pullOfp15Bucket (type : GroupType) (ob : Ofp15Bucket) : Except OfpErr Bucket := do
  if let some error := ob.actions then throw error
  let (weight, port, group) ←
    pullProperties ob.properties (if type = .select then 1 else 0, 0xffffffff, ofpgAny)
  let some watchPort := ofputilPortFromOfp11 port | throw .badWatch
  if ob.bucketId > bucketMax then throw .badBucket
  return ⟨ob.bucketId, weight, watchPort, group⟩

def pullOfp15Buckets (type : GroupType) (obs : List Ofp15Bucket) : Except OfpErr (List Bucket) := do
  let buckets ← obs.mapM (pullOfp15Bucket type)
  if bucketCheckDuplicateId buckets then .error .badBucket else .ok buckets

/-- Whether the bucket ID of a command of OpenFlow 1.5 is in range. -/
def commandBucketIdOk (command : GroupCommand) (commandBucketId : BitVec 32) : Bool :=
  match command with
  | .removeBucket =>
    commandBucketId == bucketAll || commandBucketId ≤ bucketMax ||
      commandBucketId == bucketFirst || commandBucketId == bucketLast
  | .insertBucket =>
    commandBucketId ≤ bucketMax || commandBucketId == bucketFirst ||
      commandBucketId == bucketLast
  | _ => commandBucketId == bucketAll

/-- `ofputil_pull_ofp11_group_mod` and `ofputil_pull_ofp15_group_mod`. -/
def pullGroupMod (msg : GroupModMsg) : Except OfpErr GroupMod :=
  match msg.body with
  | .ofp11 buckets => do
    let buckets ← pullOfp11Buckets buckets.val 0
    if (msg.version = .ofp13 ∨ msg.version = .ofp14) ∧ msg.command = .delete ∧ buckets ≠ [] then
      .error .invalidGroup
    else .ok ⟨msg.command, msg.type, msg.groupId, bucketAll, buckets⟩
  | .ofp15 commandBucketId buckets properties =>
    if commandBucketIdOk msg.command commandBucketId then do
      let buckets ← pullOfp15Buckets msg.type buckets
      match properties with
      | some error => .error error
      | none => .ok ⟨msg.command, msg.type, msg.groupId, commandBucketId, buckets⟩
    else .error .badBucket

def checkBucket (gm : GroupMod) (b : Bucket) : Except OfpErr Unit :=
  if b.weight ≠ 0 ∧ gm.type ≠ .select ∧ gm.command ≠ .insertBucket then .error .invalidGroup
  else
    match gm.type with
    | .all | .indirect => if b.hasLiveness then .error .watchUnsupported else .ok ()
    | .select => .ok ()
    | .ff => if !b.hasLiveness then .error .invalidGroup else .ok ()
    | .other _ => .error .badType

def checkType (gm : GroupMod) : Except OfpErr Unit :=
  match gm.type with
  | .indirect =>
    if gm.command ≠ .delete ∧ gm.buckets.length ≠ 1 then .error .invalidGroup else .ok ()
  | .all | .select | .ff => .ok ()
  | .other _ => .error .badType

def checkCommand (gm : GroupMod) : Except OfpErr Unit :=
  match gm.command with
  | .add | .modify | .addOrMod | .delete | .insertBucket => .ok ()
  | .removeBucket => if gm.buckets ≠ [] then .error .badBucket else .ok ()
  | .other _ => .error .badCommand

def ofputilCheckGroupMod (gm : GroupMod) : Except OfpErr Unit := do
  checkType gm
  checkCommand gm
  gm.buckets.forM (checkBucket gm)

def ofputilDecodeGroupMod (msg : GroupModMsg) : Except OfpErr GroupMod := do
  let gm ← pullGroupMod msg
  ofputilCheckGroupMod gm
  return gm

/-! ## 3. The group table -/

/-- `struct ofgroup`, with the versions in which it is visible. -/
structure OfGroup where
  groupId : BitVec 32
  type : GroupType
  buckets : List Bucket
  addVersion : Nat
  removeVersion : Nat

def versionMax : Nat := 2 ^ 64 - 2

def versionNotRemoved : Nat := 2 ^ 64 - 1

def OfGroup.visibleIn (group : OfGroup) (version : Nat) : Bool :=
  group.addVersion ≤ version && version < group.removeVersion

/-- The part of `struct ofproto` that holds the groups. -/
structure Ofproto where
  groups : List OfGroup
  nGroups : GroupType → BitVec 32
  maxGroups : GroupType → BitVec 32

/-- The position in the table of the group that `ofproto_group_lookup__` finds. -/
def Ofproto.groupLookup (ofproto : Ofproto) (groupId : BitVec 32) (version : Nat) : Option Nat :=
  ofproto.groups.findIdx? fun group => group.groupId == groupId && group.visibleIn version

/-- The groups when the count for a type changes. -/
def countGroup (nGroups : GroupType → BitVec 32) (type : GroupType) (delta : BitVec 32) :
    GroupType → BitVec 32 :=
  fun t => if t = type then nGroups t + delta else nGroups t

/-- `init_group`.  `construct` is the error of the ofproto implementation, if it has one. -/
def initGroup (gm : GroupMod) (version : Nat) (construct : Option OfpErr) :
    Except OfpErr OfGroup :=
  if gm.groupId > ofpgMax then .error .invalidGroup
  else
    match gm.type, construct with
    | .other _, _ => .error .badType
    | _, some error => .error error
    | type, none => .ok ⟨gm.groupId, type, gm.buckets, version, versionNotRemoved⟩

/-- What starting a group mod does.  `stuck` is a list that is walked without end, or a
    bucket that is not there. -/
inductive Started (α : Type) where
  | ok (value : α)
  | error (error : OfpErr)
  | stuck

def addGroupStart (ofproto : Ofproto) (gm : GroupMod) (version : Nat)
    (construct : Option OfpErr) : Started Ofproto :=
  if (ofproto.groupLookup gm.groupId versionMax).isSome then .error .groupExists
  else if ofproto.nGroups gm.type ≥ ofproto.maxGroups gm.type then .error .outOfGroups
  else
    match initGroup gm version construct with
    | .error error => .error error
    | .ok group =>
      .ok { ofproto with
        groups := group :: ofproto.groups
        nGroups := countGroup ofproto.nGroups group.type 1 }

def bucketFind (buckets : List Bucket) (bucketId : BitVec 32) : Option Nat :=
  if bucketId > bucketMax then none else buckets.findIdx? (·.bucketId == bucketId)

/-- `copy_buckets_for_insert_bucket`: the buckets of the new group, from those of the old
    group and those of the message.  `ovs_list_splice` moves a part of the list before another
    element of it; if that element is in the part, the list is a circle without its head. -/
def copyBucketsForInsertBucket (old new : List Bucket) (commandBucketId : BitVec 32) :
    Started (List Bucket) :=
  if commandBucketId ≤ bucketMax ∧ bucketFind old commandBucketId = none then
    .error .unknownBucket
  else
    let buckets := new ++ old
    if bucketCheckDuplicateId buckets then .error .bucketExists
    else if commandBucketId = bucketLast then
      match old with
      | [] => .ok buckets
      | first :: _ =>
        match bucketFind buckets first.bucketId with
        | none | some 0 => .stuck
        | some newFirst => .ok (buckets.drop newFirst ++ buckets.take newFirst)
    else if commandBucketId ≤ bucketMax ∧ new ≠ [] then
      match bucketFind buckets commandBucketId with
      | none => .stuck
      | some after =>
        if after + 1 < new.length then .stuck
        else
          .ok ((buckets.drop new.length).take (after + 1 - new.length) ++ new ++
            buckets.drop (after + 1))
    else .ok buckets

def copyBucketsForRemoveBucket (old new : List Bucket) (commandBucketId : BitVec 32) :
    Except OfpErr (List Bucket) :=
  if commandBucketId = bucketAll then .ok new
  else if commandBucketId = bucketFirst then .ok (new ++ old.tail)
  else if commandBucketId = bucketLast then .ok (new ++ old.dropLast)
  else
    match bucketFind old commandBucketId with
    | none => .error .unknownBucket
    | some skip => .ok (new ++ old.eraseIdx skip)

/-- The group mod with the type of the old group, for the commands on buckets. -/
def withOldType (gm : GroupMod) (old : OfGroup) : GroupMod :=
  if gm.command = .insertBucket ∨ gm.command = .removeBucket then { gm with type := old.type }
  else gm

def modifiedBuckets (gm : GroupMod) (old new : List Bucket) : Started (List Bucket) :=
  match gm.command with
  | .insertBucket => copyBucketsForInsertBucket old new gm.commandBucketId
  | .removeBucket =>
    match copyBucketsForRemoveBucket old new gm.commandBucketId with
    | .error error => .error error
    | .ok buckets => .ok buckets
  | _ => .ok new

def modifyGroupStart (ofproto : Ofproto) (gm : GroupMod) (version : Nat)
    (construct : Option OfpErr) : Started Ofproto :=
  match ofproto.groupLookup gm.groupId versionMax with
  | none => .error .unknownGroup
  | some i =>
    match ofproto.groups[i]? with
    | none => .error .unknownGroup
    | some old =>
      let gm := withOldType gm old
      if old.type ≠ gm.type ∧ ofproto.nGroups gm.type ≥ ofproto.maxGroups gm.type then
        .error .outOfGroups
      else
        match initGroup gm version construct with
        | .error error => .error error
        | .ok new =>
          match modifiedBuckets gm old.buckets new.buckets with
          | .error error => .error error
          | .stuck => .stuck
          | .ok buckets =>
            let groups := ofproto.groups.set i { old with removeVersion := version }
            .ok { ofproto with
              groups := { new with buckets } :: groups
              nGroups :=
                if old.type ≠ new.type then
                  countGroup (countGroup ofproto.nGroups old.type (-1)) new.type 1
                else ofproto.nGroups }

/-- `delete_group_start` for the group at position `i`. -/
def deleteGroupStart (ofproto : Ofproto) (version : Nat) (i : Nat) : Ofproto :=
  match ofproto.groups[i]? with
  | none => ofproto
  | some group =>
    { ofproto with
      groups := ofproto.groups.set i { group with removeVersion := version }
      nGroups := countGroup ofproto.nGroups group.type (-1) }

def deleteGroupsStart (ofproto : Ofproto) (gm : GroupMod) (version : Nat) : Ofproto :=
  if gm.groupId = ofpgAll then
    (List.range ofproto.groups.length).foldl (fun ofproto i =>
      if ofproto.groups[i]?.any (·.visibleIn version) then deleteGroupStart ofproto version i
      else ofproto) ofproto
  else
    match ofproto.groupLookup gm.groupId version with
    | none => ofproto
    | some i => deleteGroupStart ofproto version i

def ofprotoGroupModStart (ofproto : Ofproto) (gm : GroupMod) (version : Nat)
    (construct : Option OfpErr) : Started Ofproto :=
  match gm.command with
  | .add => addGroupStart ofproto gm version construct
  | .modify | .insertBucket | .removeBucket => modifyGroupStart ofproto gm version construct
  | .addOrMod =>
    if (ofproto.groupLookup gm.groupId versionMax).isSome then
      modifyGroupStart ofproto gm version construct
    else addGroupStart ofproto gm version construct
  | .delete => .ok (deleteGroupsStart ofproto gm version)
  | .other _ => .error .badCommand

/-- A message that arrives, with the version of the table that it makes and what the
    ofproto implementation says to a new group. -/
structure Arrival where
  msg : GroupModMsg
  version : Nat
  construct : Option OfpErr := none

/-- A message that is decoded and started.  If it is refused, nothing changes; if it gets
    stuck, nothing follows. -/
def receive (ofproto : Ofproto) (a : Arrival) : Option Ofproto :=
  match ofputilDecodeGroupMod a.msg with
  | .error _ => some ofproto
  | .ok gm =>
    match ofprotoGroupModStart ofproto gm a.version a.construct with
    | .ok ofproto => some ofproto
    | .error _ => some ofproto
    | .stuck => none

def Ofproto.empty (maxGroups : GroupType → BitVec 32) : Ofproto :=
  { groups := [], nGroups := fun _ => 0, maxGroups }

/-! ## 4. What the decoder has checked -/

section
variable {gm : GroupMod} {b : Bucket} {buckets : List Bucket} {msg : GroupModMsg}

theorem bucketCheckDuplicateId_eq_false :
    bucketCheckDuplicateId buckets = false ↔ (buckets.map Bucket.bucketId).Nodup := by
  induction buckets with
  | nil => simp [bucketCheckDuplicateId]
  | cons b buckets ih =>
    rw [bucketCheckDuplicateId, Bool.or_eq_false_iff, ih, map_cons, nodup_cons]
    apply and_congr_left'
    simp

theorem pullOfp11Buckets_ids {obs : List Ofp11Bucket} {bucketId : BitVec 32}
    (h : pullOfp11Buckets obs bucketId = .ok buckets) : buckets.map Bucket.bucketId =
      (List.range obs.length).map fun i => bucketId + BitVec.ofNat 32 i := by
  induction obs generalizing bucketId buckets with
  | nil =>
    cases h
    rfl
  | cons ob obs ih =>
    rw [pullOfp11Buckets] at h
    split at h
    · cases h
    · cases h
    · obtain ⟨more, hmore, h⟩ := bind_ok h
      cases h
      rw [map_cons, ih hmore, length_cons, range_succ_eq_map, map_cons, map_map]
      congr 1
      · simp
      · apply map_congr_left
        intro i _
        rw [Function.comp_apply, Nat.succ_eq_add_one, Nat.add_comm, BitVec.ofNat_add,
          ← BitVec.add_assoc]
        rfl

theorem pullGroupMod_distinct (h : pullGroupMod msg = .ok gm) :
    (gm.buckets.map Bucket.bucketId).Nodup := by
  rw [pullGroupMod] at h
  split at h
  next obs hbody =>
    obtain ⟨buckets, hbuckets, h⟩ := bind_ok h
    split at h
    · cases h
    · cases h
      dsimp only
      rw [pullOfp11Buckets_ids hbuckets]
      apply Nodup.map_on _ nodup_range
      intro i hi j hj hij
      have hlength := obs.property
      rw [mem_range] at hi hj
      have hij := congrArg BitVec.toNat hij
      simp at hij
      omega
  next commandBucketId obs properties hbody =>
    split at h
    · obtain ⟨buckets, hbuckets, h⟩ := bind_ok h
      obtain ⟨pulled, -, hbuckets⟩ := bind_ok hbuckets
      split at hbuckets
      · cases hbuckets
      next hdup =>
        cases hbuckets
        split at h
        · cases h
        · cases h
          exact bucketCheckDuplicateId_eq_false.mp (Bool.not_eq_true _ ▸ hdup)
    · cases h

/-- What `ofputil_check_group_mod` has established about a message. -/
structure Checked (gm : GroupMod) : Prop where
  indirect : gm.type = .indirect → gm.command ≠ .delete → gm.buckets.length = 1
  remove : gm.command = .removeBucket → gm.buckets = []
  weight : gm.command ≠ .insertBucket → ∀ b ∈ gm.buckets, b.weight ≠ 0 → gm.type = .select
  quiet : gm.type = .all ∨ gm.type = .indirect → ∀ b ∈ gm.buckets, b.hasLiveness = false
  live : gm.type = .ff → ∀ b ∈ gm.buckets, b.hasLiveness = true

theorem checked_of_check (h : ofputilCheckGroupMod gm = .ok ()) : Checked gm := by
  obtain ⟨⟨⟩, htype, h⟩ := bind_ok h
  obtain ⟨⟨⟩, hcommand, h⟩ := bind_ok h
  have hbucket := Results.forM_ok h
  constructor
  · intro hindirect hdelete
    by_contra hlength
    simp [checkType, hindirect, hdelete, hlength] at htype
  · intro hremove
    by_contra hne
    simp [checkCommand, hremove, hne] at hcommand
  · intro hinsert b hb hweight
    by_contra hselect
    have hb := hbucket b hb
    rw [checkBucket, if_pos ⟨hweight, hselect, hinsert⟩] at hb
    cases hb
  · intro htype b hb
    have hb := hbucket b hb
    rw [checkBucket] at hb
    split at hb
    · cases hb
    · rcases htype with htype | htype <;> simpa [htype] using hb
  · intro htype b hb
    have hb := hbucket b hb
    rw [checkBucket] at hb
    split at hb
    · cases hb
    · simpa [htype] using hb

theorem decode_ok (h : ofputilDecodeGroupMod msg = .ok gm) :
    (gm.buckets.map Bucket.bucketId).Nodup ∧ Checked gm := by
  obtain ⟨pulled, hpull, h⟩ := bind_ok h
  obtain ⟨⟨⟩, hcheck, h⟩ := bind_ok h
  cases h
  exact ⟨pullGroupMod_distinct hpull, checked_of_check hcheck⟩

end

/-! ## 5. The rules of the types -/

/-- The rules for the buckets of a group. -/
structure BucketsOk (type : GroupType) (buckets : List Bucket) : Prop where
  distinct : (buckets.map Bucket.bucketId).Nodup
  indirect : type = .indirect → buckets.length = 1
  weight : ∀ b ∈ buckets, b.weight ≠ 0 → type = .select
  quiet : type = .all ∨ type = .indirect → ∀ b ∈ buckets, b.hasLiveness = false
  live : type = .ff → ∀ b ∈ buckets, b.hasLiveness = true

/-- All groups in the table keep the rules, whatever the versions in which they are visible. -/
def Ofproto.AllOk (ofproto : Ofproto) : Prop :=
  ∀ group ∈ ofproto.groups, BucketsOk group.type group.buckets

section
variable {gm : GroupMod} {old new buckets : List Bucket} {type : GroupType}
  {ofproto ofproto' : Ofproto} {version : Nat} {construct : Option OfpErr} {group : OfGroup}

theorem BucketsOk.sublist (h : BucketsOk type old) (hsub : new.Sublist old)
    (hindirect : type ≠ .indirect) : BucketsOk type new where
  distinct := h.distinct.sublist (hsub.map _)
  indirect := fun htype => absurd htype hindirect
  weight := fun b hb => h.weight b (hsub.subset hb)
  quiet := fun htype b hb => h.quiet htype b (hsub.subset hb)
  live := fun htype b hb => h.live htype b (hsub.subset hb)

variable {commandBucketId : BitVec 32}

theorem copyBucketsForInsertBucket_perm
    (h : copyBucketsForInsertBucket old new commandBucketId = .ok buckets) :
    ((new ++ old).map Bucket.bucketId).Nodup ∧ buckets.Perm (new ++ old) := by
  rw [copyBucketsForInsertBucket] at h
  split at h
  · cases h
  dsimp only at h
  split at h
  · cases h
  next hdup =>
    apply And.intro (bucketCheckDuplicateId_eq_false.mp (Bool.not_eq_true _ ▸ hdup))
    split at h
    · split at h
      · cases h
        exact Perm.refl _
      · split at h
        · cases h
        · cases h
        next newFirst _ _ =>
          cases h
          apply perm_append_comm.trans
          rw [take_append_drop]
    · split at h
      · split at h
        · cases h
        next after _ =>
          split at h
          · cases h
          next hafter =>
            cases h
            have hdrop : (new ++ old).drop (after + 1) = old.drop (after + 1 - new.length) := by
              rw [drop_append, drop_eq_nil_of_le (by omega), nil_append]
            rw [drop_left, hdrop]
            have hswap : (old.take (after + 1 - new.length) ++ new).Perm
                (new ++ old.take (after + 1 - new.length)) := perm_append_comm
            apply (hswap.append_right _).trans
            rw [append_assoc, take_append_drop]
      · cases h
        exact Perm.refl _

/-- A bucket keeps the rules of a group of this type, and the group can have more than one. -/
def Bucket.fits (type : GroupType) (b : Bucket) : Bool :=
  match type with
  | .all => b.weight = 0 && !b.hasLiveness
  | .select => true
  | .indirect => false
  | .ff => b.weight = 0 && b.hasLiveness
  | .other _ => b.weight = 0

theorem BucketsOk.insert (hold : BucketsOk type old) (hfits : ∀ b ∈ new, b.fits type = true)
    (h : copyBucketsForInsertBucket old new commandBucketId = .ok buckets) :
    BucketsOk type buckets := by
  obtain ⟨hdistinct, hperm⟩ := copyBucketsForInsertBucket_perm h
  have hmem : ∀ b ∈ buckets, b.fits type = true ∨ b ∈ old := by
    intro b hb
    exact (mem_append.mp (hperm.mem_iff.mp hb)).imp_left (hfits b)
  constructor
  · exact (hperm.map _).nodup_iff.mpr hdistinct
  · rintro rfl
    have hnew : new = [] := eq_nil_iff_forall_not_mem.mpr fun b hb => by cases hfits b hb
    rw [hperm.length_eq, hnew]
    exact hold.indirect rfl
  · intro b hb
    rcases hmem b hb with hb | hb
    · intro hweight
      cases type <;> simp_all [Bucket.fits]
    · exact hold.weight b hb
  · intro htype b hb
    rcases hmem b hb with hb | hb
    · rcases htype with rfl | rfl <;> simp_all [Bucket.fits]
    · exact hold.quiet htype b hb
  · intro htype b hb
    rcases hmem b hb with hb | hb
    · subst htype
      exact (Bool.and_eq_true_iff.mp hb).2
    · exact hold.live htype b hb

theorem copyBucketsForRemoveBucket_sublist
    (h : copyBucketsForRemoveBucket old [] commandBucketId = .ok buckets) :
    buckets.Sublist old := by
  rw [copyBucketsForRemoveBucket] at h
  split at h
  · cases h
    exact nil_sublist old
  split at h
  · cases h
    exact tail_sublist old
  split at h
  · cases h
    exact dropLast_sublist old
  split at h
  · cases h
  · cases h
    exact eraseIdx_sublist old _

theorem initGroup_ok (h : initGroup gm version construct = .ok group) :
    group.type = gm.type ∧ group.buckets = gm.buckets := by
  unfold initGroup at h
  split at h
  · cases h
  · split at h
    · cases h
    · cases h
    · cases h
      exact ⟨rfl, rfl⟩

/-- A command on the buckets of a stored group goes together with the group: buckets that are
    inserted keep the rules of its type, and if it is indirect, none is inserted and only a
    bucket that it does not have is removed. -/
def fits (gm : GroupMod) (old : OfGroup) : Bool :=
  match gm.command with
  | .insertBucket => gm.buckets.all (Bucket.fits old.type)
  | .removeBucket =>
    old.type ≠ .indirect || (gm.commandBucketId ≤ bucketMax &&
      old.buckets.all fun b => b.bucketId ≠ gm.commandBucketId)
  | _ => true

theorem fits_remove {old : OfGroup} (hfits : fits gm old = true)
    (hcommand : gm.command = .removeBucket)
    (h : copyBucketsForRemoveBucket old.buckets [] gm.commandBucketId = .ok buckets) :
    old.type ≠ .indirect := by
  simp only [fits, hcommand, Bool.or_eq_true, Bool.and_eq_true, decide_eq_true_eq,
    all_eq_true] at hfits
  rcases hfits with hfits | ⟨hle, hall⟩
  · exact hfits
  -- The bucket is not there, and the command is refused.
  have hids : ∀ id ∈ [bucketAll, bucketFirst, bucketLast], ¬ id ≤ bucketMax := by
    simp [bucketAll, bucketFirst, bucketLast, bucketMax]
  have hfind : bucketFind old.buckets gm.commandBucketId = none := by
    rw [bucketFind, if_neg (BitVec.not_lt.mpr hle), findIdx?_eq_none_iff]
    intro b hb
    exact beq_eq_false_iff_ne.mpr (hall b hb)
  have hne : ∀ id ∈ [bucketAll, bucketFirst, bucketLast], gm.commandBucketId ≠ id := by
    rintro id hid rfl
    exact hids _ hid hle
  rw [copyBucketsForRemoveBucket, if_neg (hne _ (by simp)), if_neg (hne _ (by simp)),
    if_neg (hne _ (by simp)), hfind] at h
  cases h

section

variable (hall : ofproto.AllOk)
include hall

theorem Ofproto.AllOk.cons (hgroup : BucketsOk group.type group.buckets)
    {nGroups : GroupType → BitVec 32} :
    ({ ofproto with groups := group :: ofproto.groups, nGroups } : Ofproto).AllOk :=
  forall_mem_cons.mpr ⟨hgroup, hall⟩

theorem Ofproto.AllOk.setRemoved {i : Nat} (hi : ofproto.groups[i]? = some group) (version : Nat) :
    ∀ g ∈ ofproto.groups.set i { group with removeVersion := version },
      BucketsOk g.type g.buckets := by
  intro g hg
  rcases mem_or_eq_of_mem_set hg with hg | rfl
  · exact hall g hg
  · exact hall group (mem_of_getElem? hi)

theorem addGroupStart_allOk (hbuckets : BucketsOk gm.type gm.buckets)
    (h : addGroupStart ofproto gm version construct = .ok ofproto') : ofproto'.AllOk := by
  rw [addGroupStart] at h
  split at h
  · cases h
  split at h
  · cases h
  split at h
  · cases h
  next group hinit =>
    cases h
    obtain ⟨htype, hsame⟩ := initGroup_ok hinit
    apply hall.cons
    rw [htype, hsame]
    exact hbuckets

theorem deleteGroupStart_allOk {i : Nat} : (deleteGroupStart ofproto version i).AllOk := by
  rw [deleteGroupStart]
  split
  · exact hall
  next group hgroup => exact hall.setRemoved hgroup version

theorem deleteGroupsStart_allOk : (deleteGroupsStart ofproto gm version).AllOk := by
  rw [deleteGroupsStart]
  split
  · apply List.foldlRecOn (motive := Ofproto.AllOk) _ _ hall
    intro ofproto hall i _
    split
    · exact deleteGroupStart_allOk hall
    · exact hall
  · split
    · exact hall
    · exact deleteGroupStart_allOk hall

end

/-- The command of a message goes together with the group that it changes. -/
def Ofproto.fitsTable (ofproto : Ofproto) (gm : GroupMod) : Bool :=
  match ofproto.groupLookup gm.groupId versionMax with
  | none => true
  | some i => ofproto.groups[i]?.all (fits gm)

variable (hdistinct : (gm.buckets.map Bucket.bucketId).Nodup) (hgm : Checked gm)
include hdistinct hgm

theorem bucketsOk_of_checked (hdelete : gm.command ≠ .delete)
    (hinsert : gm.command ≠ .insertBucket) : BucketsOk gm.type gm.buckets where
  distinct := hdistinct
  indirect := fun h => hgm.indirect h hdelete
  weight := hgm.weight hinsert
  quiet := hgm.quiet
  live := hgm.live

theorem modifiedBuckets_ok {old : OfGroup} (hold : BucketsOk old.type old.buckets)
    (hdelete : gm.command ≠ .delete) (hfits : fits gm old = true)
    (h : modifiedBuckets (withOldType gm old) old.buckets gm.buckets = .ok buckets) :
    BucketsOk (withOldType gm old).type buckets := by
  by_cases hinsert : gm.command = .insertBucket
  · rw [withOldType, if_pos (.inl hinsert)] at h ⊢
    rw [modifiedBuckets, hinsert] at h
    rw [fits, hinsert] at hfits
    exact hold.insert (all_eq_true.mp hfits) h
  by_cases hremove : gm.command = .removeBucket
  · rw [withOldType, if_pos (.inr hremove)] at h ⊢
    rw [modifiedBuckets, hremove, hgm.remove hremove] at h
    dsimp only at h
    split at h
    · cases h
    next hcopy =>
      cases h
      exact hold.sublist (copyBucketsForRemoveBucket_sublist hcopy)
        (fits_remove hfits hremove hcopy)
  · have hsame : withOldType gm old = gm := by
      rw [withOldType, if_neg (not_or.mpr ⟨hinsert, hremove⟩)]
    have hbuckets : buckets = gm.buckets := by
      rw [hsame, modifiedBuckets] at h
      split at h
      · exact absurd ‹_› hinsert
      · exact absurd ‹_› hremove
      · cases h
        rfl
    rw [hsame, hbuckets]
    exact bucketsOk_of_checked hdistinct hgm hdelete hinsert

variable (hall : ofproto.AllOk)
include hall

theorem modifyGroupStart_allOk (hdelete : gm.command ≠ .delete)
    (hfits : ofproto.fitsTable gm = true)
    (h : modifyGroupStart ofproto gm version construct = .ok ofproto') : ofproto'.AllOk := by
  rw [modifyGroupStart] at h
  rw [Ofproto.fitsTable] at hfits
  split at h
  · cases h
  next i hi =>
    rw [hi] at hfits
    split at h
    · cases h
    next old hold =>
      dsimp only at hfits h
      rw [hold] at hfits
      split at h
      · cases h
      split at h
      · cases h
      next new hinit =>
        split at h
        · cases h
        · cases h
        next buckets hbuckets =>
          cases h
          obtain ⟨htype, hsame⟩ := initGroup_ok hinit
          have hgmBuckets : (withOldType gm old).buckets = gm.buckets := by
            rw [withOldType]
            split <;> rfl
          rw [hsame, hgmBuckets] at hbuckets
          have hok := modifiedBuckets_ok hdistinct hgm (hall old (mem_of_getElem? hold))
            hdelete hfits hbuckets
          rw [← htype] at hok
          exact forall_mem_cons.mpr ⟨hok, hall.setRemoved hold version⟩

theorem ofprotoGroupModStart_allOk (hfits : ofproto.fitsTable gm = true)
    (h : ofprotoGroupModStart ofproto gm version construct = .ok ofproto') : ofproto'.AllOk := by
  have hadd (hdelete : gm.command ≠ .delete) (hinsert : gm.command ≠ .insertBucket)
      (h : addGroupStart ofproto gm version construct = .ok ofproto') : ofproto'.AllOk :=
    addGroupStart_allOk hall (bucketsOk_of_checked hdistinct hgm hdelete hinsert) h
  have hmodify (hdelete : gm.command ≠ .delete)
      (h : modifyGroupStart ofproto gm version construct = .ok ofproto') : ofproto'.AllOk :=
    modifyGroupStart_allOk hdistinct hgm hall hdelete hfits h
  rw [ofprotoGroupModStart] at h
  cases hcommand : gm.command with
  | add =>
    rw [hcommand] at h hadd
    exact hadd nofun nofun h
  | modify | insertBucket | removeBucket =>
    rw [hcommand] at h hmodify
    exact hmodify nofun h
  | addOrMod =>
    rw [hcommand] at h hadd hmodify
    dsimp only at h
    split at h
    · exact hmodify nofun h
    · exact hadd nofun nofun h
  | delete =>
    rw [hcommand] at h
    cases h
    exact deleteGroupsStart_allOk hall
  | other =>
    rw [hcommand] at h
    cases h

end

/-! ## 6. Runs -/

/-- Each command on buckets goes together with the group that it finds when it arrives. -/
def fitsAll : Ofproto → List Arrival → Bool
  | _, [] => true
  | ofproto, a :: arrivals =>
    (match ofputilDecodeGroupMod a.msg with
      | .error _ => true
      | .ok gm => ofproto.fitsTable gm) &&
    (receive ofproto a).all (fitsAll · arrivals)

theorem receive_allOk {ofproto ofproto' : Ofproto} {a : Arrival} {arrivals : List Arrival}
    (hall : ofproto.AllOk) (hfits : fitsAll ofproto (a :: arrivals) = true)
    (h : receive ofproto a = some ofproto') :
    ofproto'.AllOk ∧ fitsAll ofproto' arrivals = true := by
  rw [fitsAll, h, Bool.and_eq_true] at hfits
  apply And.intro _ hfits.2
  rw [receive] at h
  cases hdecode : ofputilDecodeGroupMod a.msg with
  | error error =>
    rw [hdecode] at h
    cases h
    exact hall
  | ok gm =>
    obtain ⟨hdistinct, hgm⟩ := decode_ok hdecode
    rw [hdecode] at h hfits
    dsimp only at h hfits
    split at h
    next started hstart =>
      cases h
      exact ofprotoGroupModStart_allOk hdistinct hgm hall hfits.1 hstart
    · cases h
      exact hall
    · cases h

/-- After every sequence of group mods, every group that is visible in some version keeps the rules
    of its type, if the commands on buckets went together with the groups that they changed. -/
theorem visible_groups_bucketsOk (maxGroups : GroupType → BitVec 32) (arrivals : List Arrival)
    (ofproto : Ofproto) (hrun : arrivals.foldlM receive (Ofproto.empty maxGroups) = some ofproto)
    (hfits : fitsAll (Ofproto.empty maxGroups) arrivals = true) :
    ∀ version, ∀ group ∈ ofproto.groups, group.visibleIn version = true →
      BucketsOk group.type group.buckets := by
  have hrunAll : ∀ (arrivals : List Arrival) (start : Ofproto), start.AllOk →
      fitsAll start arrivals = true → arrivals.foldlM receive start = some ofproto →
      ofproto.AllOk := by
    intro arrivals
    induction arrivals with
    | nil =>
      intro start hall _ hrun
      cases hrun
      exact hall
    | cons a arrivals ih =>
      intro start hall hfits hrun
      rw [foldlM_cons] at hrun
      cases hreceive : receive start a with
      | none =>
        rw [hreceive] at hrun
        cases hrun
      | some next =>
        rw [hreceive] at hrun
        obtain ⟨hall, hfits⟩ := receive_allOk hall hfits hreceive
        exact ih next hall hfits hrun
  have hempty : (Ofproto.empty maxGroups).AllOk := by
    intro group hgroup
    cases hgroup
  have hall := hrunAll arrivals _ hempty hfits hrun
  intro version group hgroup _
  exact hall group hgroup

def message (command : GroupCommand) (type : GroupType) (commandBucketId : BitVec 32)
    (buckets : List Ofp15Bucket) (version : Nat) : Arrival :=
  { msg := ⟨.ofp15, command, type, 1, .ofp15 commandBucketId buckets none⟩, version }

/-- A fast-failover group that gets a second bucket and loses its first one. -/
def failoverRun : List Arrival :=
  [message .add .ff bucketAll [{ bucketId := 0, properties := [.watchPort 1] }] 1,
    message .insertBucket .ff bucketLast [{ bucketId := 7, properties := [.watchPort 2] }] 2,
    message .removeBucket .ff bucketFirst [] 3]

theorem failoverRun_bucketsOk :
    (failoverRun.foldlM receive (Ofproto.empty fun _ => 8)).isSome = true ∧
      ∀ ofproto, failoverRun.foldlM receive (Ofproto.empty fun _ => 8) = some ofproto →
        ∀ version, ∀ group ∈ ofproto.groups, group.visibleIn version = true →
          BucketsOk group.type group.buckets :=
  ⟨by decide, fun ofproto hrun =>
    visible_groups_bucketsOk (fun _ => 8) failoverRun ofproto hrun (by decide)⟩

/-- The type in the message that inserts a bucket is not the type of the group: a bucket that
    watches nothing gets into a fast-failover group.  And the only bucket of an indirect group
    is removed by a message with another type. -/
theorem groups_break_rules : ((List.foldlM receive (Ofproto.empty fun _ => 8)
      [message .add .ff bucketAll [{ bucketId := 0, properties := [.watchPort 1] }] 1,
        message .insertBucket .all bucketLast [{ bucketId := 7, properties := [] }] 2]).any
      fun ofproto => ofproto.groups.any fun group =>
        group.visibleIn versionMax && group.type = .ff &&
          group.buckets.any fun b => !b.hasLiveness) = true ∧
    ((List.foldlM receive (Ofproto.empty fun _ => 8)
      [message .add .indirect bucketAll [{ bucketId := 0, properties := [] }] 1,
        message .removeBucket .all bucketAll [] 2]).any
      fun ofproto => ofproto.groups.any fun group =>
        group.visibleIn versionMax && group.type = .indirect && group.buckets.isEmpty) = true := by
  decide

end Ovsgw.Groups
