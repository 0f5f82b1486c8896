import PrxWaf.DeviceFp.Types
import PrxWaf.Lib.Hex
import PrxWaf.Lib.Redis
import PrxWaf.Net.IpParse

/-!
# The identity store in Redis

Each fingerprint has three keys: a hash with the times it was first and last seen,
and sorted sets of the addresses and of the hashes of the user agents.  A script
updates them and sets their timeout.  The keys are named by a hash of the
fingerprint.
-/

namespace PrxWaf
namespace DeviceFp

open Lib Net Redis

structure ScriptKeys where
  kMeta : Text
  kIps : Text
  kUas : Text

structure Reply where
  ipN : Nat
  uaN : Nat
  firstSeen : Int
  lastSeen : Int
  deriving DecidableEq

def slide (server : Server) (now : Int) (k : Text) (ts cutoff : Int)
    (member : Text) : Option (Server × Nat) := do
  let server ← server.zadd now k ts member
  let server ← server.zremrangebyscore now k (joined cutoff)
  let n ← server.zcard now k
  return (server, n)

/-- Write the time to a field that is missing or gives way to it. -/
def keepSeen (server : Server) (now : Int) (k field : Text)
    (givesWay : Int -> Bool) (ts : Int) : Option (Server × Int) := do
  match ← server.hget now k field with
  | none => return (← server.hset now k field ts, ts)
  | some seen =>
    if givesWay seen then return (← server.hset now k field ts, ts)
    else return (server, seen)

def firstSeenField : Text := "first_seen".toList

def lastSeenField : Text := "last_seen".toList

/-- What the script has written before an error stays. -/
def observeLua (server : Server) (now : Int) (keys : ScriptKeys)
    (ts cutoff : Int) (ip ua : Text) (ttl : Int) : Server × Option Reply :=
  match slide server now keys.kIps ts cutoff ip with
  | none => (server, none)
  | some (server, ipN) =>
    match slide server now keys.kUas ts cutoff ua with
    | none => (server, none)
    | some (server, uaN) =>
      match keepSeen server now keys.kMeta firstSeenField (fun fs => ts < fs) ts with
      | none => (server, none)
      | some (server, fs) =>
        match keepSeen server now keys.kMeta lastSeenField (fun ls => ls < ts) ts with
        | none => (server, none)
        | some (server, ls) =>
          let server := server.expire now keys.kMeta (ttl * 1000)
          let server := server.expire now keys.kIps (ttl * 1000)
          let server := server.expire now keys.kUas (ttl * 1000)
          (server, some {
            ipN := ipN
            uaN := uaN
            firstSeen := fs
            lastSeen := ls })

def slid (scores : Table Text Int) (ts cutoff : Int) (member : Text) : Table Text Int :=
  (scores.insert member ts).retain (fun score => cutoff ≤ score)

def seenAfter (seen : Option Int) (givesWay : Int -> Bool) (ts : Int) : Int :=
  match seen with
  | none => ts
  | some seen => if givesWay seen then ts else seen

section Script

variable {server : Server} {now : Int} {k : Text} {ts cutoff : Int}

variable {scores : Table Text Int}

theorem lookup_slid {member : Text}
    (hts : cutoff ≤ ts) : (slid scores ts cutoff member).lookup member = some ts := by
  unfold slid
  rw [Table.lookup_retain, Table.lookup_insert_self]
  exact Option.filter_some_pos (by simpa using hts)

variable (member field : Text)

theorem isSome_lookup_slid {m : Text} {score : Int} (h : scores.lookup m = some score)
    (hscore : cutoff ≤ score) (hts : cutoff ≤ ts) :
    ((slid scores ts cutoff member).lookup m).isSome = true := by
  rcases eq_or_ne m member with hm | hm
  · rw [hm, lookup_slid hts]
    rfl
  · unfold slid
    rw [Table.lookup_retain, Table.lookup_insert_of_ne hm, h,
      Option.filter_some_pos (by simpa using hscore)]
    rfl

theorem slide_of_none (h : server.zsetAt now k = none) :
    slide server now k ts cutoff member = none := by
  unfold slide Server.zadd
  rw [h]
  rfl

theorem slide_of_some
    (h : server.zsetAt now k = some scores) (hexact : Exact cutoff) (hts : cutoff ≤ ts) :
    slide server now k ts cutoff member =
      some (server.modify now k (fun _ => .zset (slid scores ts cutoff member)),
        (slid scores ts cutoff member).size) := by
  unfold slide Server.zadd
  rw [h, Option.map_some, Option.bind_eq_bind, Option.bind_some]
  unfold Server.zremrangebyscore
  rw [Server.zsetAt_modify, Option.map_some, Option.bind_eq_bind,
    Option.bind_some, joined_of_exact hexact]
  have hsize : ((scores.insert member ts).retain (fun score => cutoff ≤ score)).size ≠ 0 :=
    Table.size_ne_zero (lookup_slid hts)
  dsimp only
  rw [if_neg hsize, Keyspace.modify_modify]
  unfold Server.zcard
  rw [Server.zsetAt_modify]
  rfl

theorem keepSeen_of_none (givesWay : Int -> Bool) (h : server.hashAt now k = none) :
    keepSeen server now k field givesWay ts = none := by
  unfold keepSeen Server.hget
  rw [h]
  rfl

theorem keepSeen_of_some {fields : Table Text Int}
    (givesWay : Int -> Bool) (h : server.hashAt now k = some fields) :
    exists (after : Server) (fieldsAfter : Table Text Int),
      keepSeen server now k field givesWay ts =
        some (after, seenAfter (fields.lookup field) givesWay ts) ∧
      after.hashAt now k = some fieldsAfter ∧ fieldsAfter.lookup field =
        some (seenAfter (fields.lookup field) givesWay ts) ∧ (forall other, other ≠ field ->
        fieldsAfter.lookup other = fields.lookup other) ∧
      forall other, other ≠ k -> after other = server other := by
  have hset : server.hset now k field ts =
      some (server.modify now k (fun _ => .hash (fields.insert field ts))) := by
    unfold Server.hset
    rw [h]
    rfl
  have hwrite : forall other, other ≠ field ->
      (fields.insert field ts).lookup other = fields.lookup other :=
    fun other hother => Table.lookup_insert_of_ne hother
  have hget : server.hget now k field = some (fields.lookup field) := by
    unfold Server.hget
    rw [h]
    rfl
  unfold keepSeen seenAfter
  rw [hget, Option.bind_eq_bind, Option.bind_some]
  cases hfield : fields.lookup field with
  | none =>
    dsimp only
    rw [hset]
    exact ⟨_, _, rfl, Server.hashAt_modify _, Table.lookup_insert_self,
      hwrite, fun other hother => server.modify_of_ne now _ hother⟩
  | some seen =>
    dsimp only
    split
    · rw [hset]
      exact ⟨_, _, rfl, Server.hashAt_modify _, Table.lookup_insert_self,
        hwrite, fun other hother => server.modify_of_ne now _ hother⟩
    · exact ⟨server, fields, rfl, h, hfield, fun _ _ => rfl, fun _ _ => rfl⟩

end Script

structure ScriptKeys.Distinct (keys : ScriptKeys) : Prop where
  meta_ips : keys.kMeta ≠ keys.kIps
  meta_uas : keys.kMeta ≠ keys.kUas
  ips_uas : keys.kIps ≠ keys.kUas

/-- The three keys hold the values until the deadline, and the others are as they
were. -/
structure Written (before server : Server) (keys : ScriptKeys)
    (deadline : Int) (fields ips uas : Table Text Int) : Prop where
  kMeta : server keys.kMeta = some { value := .hash fields, deadline := some deadline }
  kIps : server keys.kIps = some { value := .zset ips, deadline := some deadline }
  kUas : server keys.kUas = some { value := .zset uas, deadline := some deadline }
  others : forall k, k ≠ keys.kMeta -> k ≠ keys.kIps -> k ≠ keys.kUas -> server k = before k

theorem written_of_expire {before server : Server} {now ms : Int}
    {keys : ScriptKeys} {fields ips uas : Table Text Int} (hkeys : keys.Distinct)
    (hfields : server.get now keys.kMeta = some (.hash fields))
    (hips : server.get now keys.kIps = some (.zset ips))
    (huas : server.get now keys.kUas = some (.zset uas)) (hms : 0 < ms)
    (hothers : forall k, k ≠ keys.kMeta -> k ≠ keys.kIps -> k ≠ keys.kUas -> server k = before k) :
    Written before (((server.expire now keys.kMeta ms).expire now keys.kIps ms).expire now
        keys.kUas ms) keys (now + ms) fields ips uas where
  kMeta := by
    rw [Keyspace.expire_of_ne _ _ _ hkeys.meta_uas, Keyspace.expire_of_ne _ _ _ hkeys.meta_ips]
    exact Keyspace.expire_of_get hfields hms
  kIps := by
    rw [Keyspace.expire_of_ne _ _ _ hkeys.ips_uas]
    refine Keyspace.expire_of_get ?_ hms
    rw [Keyspace.get_congr now (server.expire_of_ne now ms hkeys.meta_ips.symm)]
    exact hips
  kUas := by
    refine Keyspace.expire_of_get ?_ hms
    rw [Keyspace.get_congr now (Keyspace.expire_of_ne _ now ms hkeys.ips_uas.symm),
      Keyspace.get_congr now (server.expire_of_ne now ms hkeys.meta_uas.symm)]
    exact huas
  others := by
    intro k hmeta hk hu
    rw [Keyspace.expire_of_ne _ _ _ hu, Keyspace.expire_of_ne _ _ _ hk,
      Keyspace.expire_of_ne _ _ _ hmeta]
    exact hothers k hmeta hk hu

section Observe

variable {server : Server} {now : Int} {keys : ScriptKeys} {ts cutoff : Int}
variable {ip ua : Text} {ttl : Int} {fields ips uas : Table Text Int}

theorem observeLua_of_some (hkeys : keys.Distinct)
    (hfields : server.hashAt now keys.kMeta = some fields)
    (hips : server.zsetAt now keys.kIps = some ips) (huas : server.zsetAt now keys.kUas = some uas)
    (hexact : Exact cutoff) (hts : cutoff ≤ ts) (httl : 0 < ttl) :
    exists (after : Server) (fieldsAfter : Table Text Int) (reply : Reply),
      observeLua server now keys ts cutoff ip ua ttl = (after, some reply) ∧
      Written server after keys (now + ttl * 1000) fieldsAfter
        (slid ips ts cutoff ip) (slid uas ts cutoff ua) ∧ reply = {
        ipN := (slid ips ts cutoff ip).size
        uaN := (slid uas ts cutoff ua).size
        firstSeen := seenAfter (fields.lookup firstSeenField)
          (fun fs => ts < fs) ts
        lastSeen := seenAfter (fields.lookup lastSeenField)
          (fun ls => ls < ts) ts } ∧ fieldsAfter.lookup firstSeenField = some reply.firstSeen ∧
      fieldsAfter.lookup lastSeenField = some reply.lastSeen := by
  have hms : 0 < ttl * 1000 := by lia
  let withIp : Server := server.modify now keys.kIps
    (fun _ => .zset (slid ips ts cutoff ip))
  let withUa : Server := withIp.modify now keys.kUas
    (fun _ => .zset (slid uas ts cutoff ua))
  have huas' : withIp.zsetAt now keys.kUas = some uas := by
    rw [Server.zsetAt_congr now (server.modify_of_ne now _ hkeys.ips_uas.symm)]
    exact huas
  have hfields' : withUa.hashAt now keys.kMeta = some fields := by
    rw [Server.hashAt_congr now (withIp.modify_of_ne now _ hkeys.meta_uas),
      Server.hashAt_congr now (server.modify_of_ne now _ hkeys.meta_ips)]
    exact hfields
  obtain ⟨withFirst, fields1, hfirst, hat1, hlookup1, hkept1, hother1⟩ :=
    keepSeen_of_some firstSeenField (fun fs => ts < fs) hfields'
  obtain ⟨withLast, fields2, hlast, hat2, hlookup2, hkept2, hother2⟩ :=
    keepSeen_of_some lastSeenField (fun ls => ls < ts) hat1
  rw [hkept1 lastSeenField (by decide)] at hlast hlookup2
  have hfirstAfter := hkept2 firstSeenField (by decide)
  rw [hlookup1] at hfirstAfter
  have hothers : forall k, k ≠ keys.kMeta -> withLast k = withUa k := by
    intro k hk
    rw [hother2 k hk, hother1 k hk]
  refine ⟨_, fields2, _, ?_, written_of_expire hkeys
    (Server.get_of_hashAt hat2 hlookup2) ?_ ?_ hms ?_, rfl, hfirstAfter, hlookup2⟩
  · unfold observeLua
    rw [slide_of_some ip hips hexact hts]
    dsimp only
    rw [slide_of_some ua huas' hexact hts]
    dsimp only
    rw [hfirst]
    dsimp only
    rw [hlast]
  · rw [Keyspace.get_congr now (hothers _ hkeys.meta_ips.symm),
      Keyspace.get_congr now (withIp.modify_of_ne now _ hkeys.ips_uas)]
    exact server.get_modify_self now keys.kIps _
  · rw [Keyspace.get_congr now (hothers _ hkeys.meta_uas.symm)]
    exact withIp.get_modify_self now keys.kUas _
  · intro k hmeta hk hu
    rw [hothers k hmeta]
    exact (withIp.modify_of_ne now _ hu).trans (server.modify_of_ne now _ hk)

theorem values_of_observeLua {after : Server} {reply : Reply}
    (hkeys : keys.Distinct) (hexact : Exact cutoff) (hts : cutoff ≤ ts)
    (h : observeLua server now keys ts cutoff ip ua ttl = (after, some reply)) :
    exists fields ips uas, server.hashAt now keys.kMeta = some fields ∧
      server.zsetAt now keys.kIps = some ips ∧ server.zsetAt now keys.kUas = some uas := by
  unfold observeLua at h
  cases hips : server.zsetAt now keys.kIps with
  | none =>
    rw [slide_of_none ip hips] at h
    cases h
  | some ips =>
    rw [slide_of_some ip hips hexact hts] at h
    dsimp only at h
    have hsameUas := Server.zsetAt_congr now
      (server.modify_of_ne now (fun _ => .zset (slid ips ts cutoff ip)) hkeys.ips_uas.symm)
    cases huas : server.zsetAt now keys.kUas with
    | none =>
      rw [slide_of_none ua (hsameUas.trans huas)] at h
      cases h
    | some uas =>
      rw [slide_of_some ua (hsameUas.trans huas) hexact hts] at h
      dsimp only at h
      have hsameMeta := Server.hashAt_congr now ((Keyspace.modify_of_ne (server.modify now keys.kIps
            (fun _ => .zset (slid ips ts cutoff ip))) now
          (fun _ => .zset (slid uas ts cutoff ua)) hkeys.meta_uas).trans
          (server.modify_of_ne now _ hkeys.meta_ips))
      cases hfields : server.hashAt now keys.kMeta with
      | none =>
        rw [keepSeen_of_none _ _ (hsameMeta.trans hfields)] at h
        cases h
      | some fields => exact ⟨fields, ips, uas, rfl, rfl, rfl⟩

end Observe

section Read

variable {before server : Server} {keys : ScriptKeys} {deadline now : Int}
variable {fields ips uas : Table Text Int}

theorem Written.hashAt (h : Written before server keys deadline fields ips uas)
    (hnow : now < deadline) : server.hashAt now keys.kMeta = some fields := by
  unfold Server.hashAt
  rw [Keyspace.get_of_some h.kMeta (decide_eq_true hnow)]

theorem Written.ipsAt (h : Written before server keys deadline fields ips uas)
    (hnow : now < deadline) : server.zsetAt now keys.kIps = some ips := by
  unfold Server.zsetAt
  rw [Keyspace.get_of_some h.kIps (decide_eq_true hnow)]

theorem Written.uasAt (h : Written before server keys deadline fields ips uas)
    (hnow : now < deadline) : server.zsetAt now keys.kUas = some uas := by
  unfold Server.zsetAt
  rw [Keyspace.get_of_some h.kUas (decide_eq_true hnow)]

end Read

/-! ## The store -/

structure RedisConfig where
  keyPrefix : Text
  ttlSecs : Nat
  windowSecs : Nat
  deriving DecidableEq

/-- The hasher is drawn when the store is made. -/
structure RedisIdentityStore where
  cfg : RedisConfig
  hasher : Text -> UInt64

/-- The format `016x` of a 64-bit number. -/
def hex16 (n : UInt64) : Text :=
  paddedHex 16 n.toNat

theorem hex16_injective : Function.Injective hex16 := by
  intro m n h
  have hbound : forall k : UInt64, k.toNat < 16 ^ 16 := fun k => k.toNat_lt
  exact UInt64.toNat_inj.mp (paddedHex_injective (hbound m) (hbound n) h)

namespace RedisIdentityStore

def keyHash (store : RedisIdentityStore) (key : FpKey) : Text :=
  let ja3 := (key.ja3.map (fun v => v ++ ['|'])).getD []
  let ja4 := (key.ja4.map (fun v => v ++ ['|'])).getD []
  let h2 := key.h2Akamai.getD []
  hex16 (store.hasher (ja3 ++ ja4 ++ h2))

def kMeta (store : RedisIdentityStore) (h : Text) : Text :=
  store.cfg.keyPrefix ++ "fp:".toList ++ h

def kIps (store : RedisIdentityStore) (h : Text) : Text :=
  store.cfg.keyPrefix ++ "ips:".toList ++ h

def kUas (store : RedisIdentityStore) (h : Text) : Text :=
  store.cfg.keyPrefix ++ "uas:".toList ++ h

def scriptKeys (store : RedisIdentityStore) (key : FpKey) : ScriptKeys :=
  let h := store.keyHash key
  { kMeta := store.kMeta h, kIps := store.kIps h, kUas := store.kUas h }

def cutoff (store : RedisIdentityStore) (ts : Int) : Int :=
  saturatingSub ts store.cfg.windowSecs

def observe (store : RedisIdentityStore) (server : Server) (now : Int)
    (key : FpKey) (ip : IpAddr) (ua : Text) (ts : Int) :
    Server × Option Observation :=
  let uaHash := hex16 (store.hasher ua)
  let result := observeLua server now (store.scriptKeys key) ts
    (store.cutoff ts) ip.display uaHash store.cfg.ttlSecs
  (result.1, result.2.map (fun reply =>
    { distinctIpsInWindow := clampU16 reply.ipN
      distinctUasInWindow := clampU16 reply.uaN
      firstSeenUnix := reply.firstSeen
      lastSeenUnix := reply.lastSeen }))

/-- The outer option is for the errors of the server. -/
def lookup (store : RedisIdentityStore) (server : Server) (now : Int)
    (key : FpKey) : Option (Option IdentityRecord) := do
  let keys := store.scriptKeys key
  let first ← server.hget now keys.kMeta firstSeenField
  let last ← server.hget now keys.kMeta lastSeenField
  let ipN ← server.zcard now keys.kIps
  let uaN ← server.zcard now keys.kUas
  match first, last with
  | some first, some last =>
    return some {
      key := key
      firstSeenUnix := first
      lastSeenUnix := last
      distinctIps := clampU16 ipN
      distinctUas := clampU16 uaN }
  | _, _ => return none

variable (store : RedisIdentityStore) {ts : Int} {a b : RedisIdentityStore} {key : FpKey}

theorem distinct_scriptKeys (key : FpKey) :
    (store.scriptKeys key).Distinct where
  meta_ips := by
    simp [scriptKeys, kMeta, kIps]
  meta_uas := by
    simp [scriptKeys, kMeta, kUas]
  ips_uas := by
    simp [scriptKeys, kIps, kUas]

theorem cutoff_of_exact {store : RedisIdentityStore} (h : Exact (store.cutoff ts)) :
    store.cutoff ts = ts - store.cfg.windowSecs := by
  unfold cutoff saturatingSub at h ⊢
  rcases clampI64_cases (ts - store.cfg.windowSecs) with hn | ⟨-, hn⟩ | ⟨-, hn⟩
  · exact hn
  · rw [hn] at h
    exact absurd h (by decide)
  · rw [hn] at h
    exact absurd h (by decide)

theorem cutoff_le {store : RedisIdentityStore}
    (h : Exact (store.cutoff ts)) : store.cutoff ts ≤ ts := by
  rw [cutoff_of_exact h]
  lia

section Observe

variable {store : RedisIdentityStore} {server : Server} {now : Int}
variable {fields ips uas : Table Text Int}

theorem observe_of_some (ip : IpAddr) (ua : Text)
    (hfields : server.hashAt now (store.scriptKeys key).kMeta = some fields)
    (hips : server.zsetAt now (store.scriptKeys key).kIps = some ips)
    (huas : server.zsetAt now (store.scriptKeys key).kUas = some uas)
    (hexact : Exact (store.cutoff ts)) (httl : 0 < store.cfg.ttlSecs) :
    exists (after : Server) (fieldsAfter : Table Text Int) (seen : Observation),
      store.observe server now key ip ua ts = (after, some seen) ∧
      Written server after (store.scriptKeys key) (now + store.cfg.ttlSecs * 1000) fieldsAfter
        (slid ips ts (store.cutoff ts) ip.display)
        (slid uas ts (store.cutoff ts) (hex16 (store.hasher ua))) ∧ seen = {
        distinctIpsInWindow :=
          clampU16 (slid ips ts (store.cutoff ts) ip.display).size
        distinctUasInWindow := clampU16
          (slid uas ts (store.cutoff ts) (hex16 (store.hasher ua))).size
        firstSeenUnix := seenAfter (fields.lookup firstSeenField)
          (fun fs => ts < fs) ts
        lastSeenUnix := seenAfter (fields.lookup lastSeenField)
          (fun ls => ls < ts) ts } ∧ fieldsAfter.lookup firstSeenField = some seen.firstSeenUnix ∧
      fieldsAfter.lookup lastSeenField = some seen.lastSeenUnix := by
  have httl' : 0 < (store.cfg.ttlSecs : Int) := by lia
  obtain ⟨after, fieldsAfter, reply, hscript, hwritten, rfl, hfirst, hlast⟩ :=
    observeLua_of_some (distinct_scriptKeys store key) hfields hips huas hexact
      (cutoff_le hexact) httl'
  refine ⟨after, fieldsAfter, _, ?_, hwritten, rfl, hfirst, hlast⟩
  unfold observe
  dsimp only
  rw [hscript]
  rfl

theorem values_of_observe {ip : IpAddr} {ua : Text} {after : Server} {seen : Observation}
    (hexact : Exact (store.cutoff ts))
    (h : store.observe server now key ip ua ts = (after, some seen)) :
    exists fields ips uas, server.hashAt now (store.scriptKeys key).kMeta = some fields ∧
      server.zsetAt now (store.scriptKeys key).kIps = some ips ∧
      server.zsetAt now (store.scriptKeys key).kUas = some uas := by
  have hsecond := congrArg Prod.snd h
  obtain ⟨reply, hreply, -⟩ := Option.map_eq_some_iff.mp hsecond
  exact values_of_observeLua (distinct_scriptKeys store key) hexact
    (cutoff_le hexact) (Prod.ext rfl hreply)

theorem lookup_of_written {before : Server} {deadline first last : Int}
    (h : Written before server (store.scriptKeys key) deadline fields ips uas)
    (hfirst : fields.lookup firstSeenField = some first)
    (hlast : fields.lookup lastSeenField = some last) (hnow : now < deadline) :
    store.lookup server now key = some (some {
      key := key
      firstSeenUnix := first
      lastSeenUnix := last
      distinctIps := clampU16 ips.size
      distinctUas := clampU16 uas.size }) := by
  unfold lookup Server.hget Server.zcard
  dsimp only
  rw [h.hashAt hnow, h.ipsAt hnow, h.uasAt hnow, Option.map_some, Option.map_some, hfirst, hlast]
  rfl

theorem lookup_of_absent (h : server (store.scriptKeys key).kMeta = none)
    (now : Int) (record : IdentityRecord) :
    store.lookup server now key ≠ some (some record) := by
  have hget : forall field, server.hget now (store.scriptKeys key).kMeta field = some none := by
    intro field
    unfold Server.hget
    rw [Server.hashAt_of_absent now h, Option.map_some, Table.lookup_empty]
  unfold lookup
  dsimp only
  rw [hget firstSeenField, hget lastSeenField]
  cases server.zcard now (store.scriptKeys key).kIps with
  | none => simp
  | some ipN =>
    cases server.zcard now (store.scriptKeys key).kUas with
    | none => simp
    | some uaN => simp

end Observe

/-- An observation at the given time counts the address among those in the
window. -/
def Counts (store : RedisIdentityStore) (server : Server) (now : Int)
    (key : FpKey) (ip : IpAddr) (ua : Text) (ts : Int) (counted : IpAddr) :
    Prop :=
  exists after seen ips,
    store.observe server now key ip ua ts = (after, some seen) ∧
    after.zsetAt now (store.scriptKeys key).kIps = some ips ∧
    seen.distinctIpsInWindow = clampU16 ips.size ∧
    (ips.lookup counted.display).isSome = true

/-- Until its time to live is over, what the first instance observes is known to
the second. -/
def Survives (a b : RedisIdentityStore) (key : FpKey) : Prop :=
  forall server now ip ua ts after seen, Exact (a.cutoff ts) ->
    a.observe server now key ip ua ts = (after, some seen) ->
    forall later, now ≤ later -> later < now + a.cfg.ttlSecs * 1000 ->
      (exists record, b.lookup after later key = some (some record) ∧
        record.firstSeenUnix = seen.firstSeenUnix) ∧
      forall ip' ua' ts', Exact (b.cutoff ts') -> b.cutoff ts' ≤ ts ->
        b.Counts after later key ip' ua' ts' ip

theorem survives_of_keyHash (hcfg : a.cfg = b.cfg) (hhash : a.keyHash key = b.keyHash key) :
    Survives a b key := by
  intro server now ip ua ts after seen hexact hobserve later hle hlt
  have hkeys : a.scriptKeys key = b.scriptKeys key := by
    unfold scriptKeys kMeta kIps kUas
    rw [hcfg, hhash]
  have httl : 0 < a.cfg.ttlSecs := by lia
  obtain ⟨fields, ips, uas, hfields, hips, huas⟩ := values_of_observe hexact hobserve
  obtain ⟨after', fieldsAfter, seen', hobserve', hwritten, -, hfirst, hlast⟩ :=
    observe_of_some ip ua hfields hips huas hexact httl
  rw [hobserve] at hobserve'
  obtain ⟨rfl, hseen⟩ := Prod.ext_iff.mp hobserve'
  cases hseen
  rw [hkeys] at hwritten
  refine ⟨⟨_, lookup_of_written hwritten hfirst hlast hlt, rfl⟩, ?_⟩
  intro ip' ua' ts' hexact' hin
  obtain ⟨after', fields', seen', hobserve', hwritten', hseen', -, -⟩ :=
    observe_of_some ip' ua' (hwritten.hashAt hlt) (hwritten.ipsAt hlt)
      (hwritten.uasAt hlt) hexact' (hcfg ▸ httl)
  refine ⟨after', seen', _, hobserve', hwritten'.ipsAt ?_, ?_,
    isSome_lookup_slid _ (lookup_slid (cutoff_le hexact)) hin (cutoff_le hexact')⟩
  · rw [← hcfg]
    lia
  · rw [hseen']

theorem exact_cutoff_window :
    Exact (store.cutoff store.cfg.windowSecs) := by
  unfold cutoff saturatingSub
  rw [Int.sub_self]
  decide

theorem kMeta_ne (hcfg : a.cfg = b.cfg) (hhash : a.keyHash key ≠ b.keyHash key) :
    (b.scriptKeys key).kMeta ≠ (a.scriptKeys key).kMeta ∧
      (b.scriptKeys key).kMeta ≠ (a.scriptKeys key).kIps ∧
      (b.scriptKeys key).kMeta ≠ (a.scriptKeys key).kUas := by
  simp [scriptKeys, kMeta, kIps, kUas, hcfg, Ne.symm hhash]

/-- What one instance observed is known to another of the same configuration just
if both name the fingerprint alike. -/
theorem survives_iff {a b : RedisIdentityStore} (hcfg : a.cfg = b.cfg) (key : FpKey) :
    Survives a b key <-> a.cfg.ttlSecs = 0 ∨ a.keyHash key = b.keyHash key := by
  constructor
  · intro hsurvives
    rcases Nat.eq_zero_or_pos a.cfg.ttlSecs with httl | httl
    · exact Or.inl httl
    refine Or.inr (Classical.byContradiction ?_)
    intro hhash
    have hfields : Server.hashAt Keyspace.empty 0 (a.scriptKeys key).kMeta =
      some Table.empty := Server.hashAt_of_absent 0 rfl
    have hsets : forall k, Server.zsetAt Keyspace.empty 0 k =
      some Table.empty := fun _ => Server.zsetAt_of_absent 0 rfl
    obtain ⟨after, fields, seen, hobserve, hwritten, -⟩ :=
      observe_of_some (.v4 (Ipv4Addr.new 0 0 0 0)) [] hfields (hsets _)
        (hsets _) (exact_cutoff_window a) httl
    obtain ⟨⟨record, hrecord, -⟩, -⟩ := hsurvives Keyspace.empty 0 _ _ _ _ _
      (exact_cutoff_window a) hobserve 0 (Int.le_refl 0) (by lia)
    obtain ⟨hmeta, hips, huas⟩ := kMeta_ne hcfg hhash
    exact lookup_of_absent (hwritten.others _ hmeta hips huas) 0 record hrecord
  · rintro (httl | hhash)
    · intro server now ip ua ts after seen hexact hobserve later hle hlt
      rw [httl] at hlt
      lia
    · exact survives_of_keyHash hcfg hhash

def seeded (seed : UInt64) (text : Text) : UInt64 :=
  text.foldl (fun h c => h * 31 + c.val.toUInt64) seed

def shippedConfig : RedisConfig :=
  { keyPrefix := "wafp:".toList, ttlSecs := 3600, windowSecs := 600 }

def firstInstance : RedisIdentityStore :=
  { cfg := shippedConfig, hasher := seeded 7 }

def secondInstance : RedisIdentityStore :=
  { cfg := shippedConfig, hasher := seeded 11 }

def someDevice : FpKey :=
  { ja3 := some "771".toList, ja4 := none, h2Akamai := none }

theorem same_hasher_survives :
    firstInstance.cfg = firstInstance.cfg ∧ Survives firstInstance firstInstance someDevice :=
  ⟨rfl, (survives_iff rfl someDevice).mpr (Or.inr rfl)⟩

/-- A second instance, with a hasher of its own, finds nothing and counts anew. -/
theorem restart_forgets :
    firstInstance.cfg = secondInstance.cfg ∧ (firstInstance.observe Keyspace.empty 0 someDevice
          (.v4 (Ipv4Addr.new 10 0 0 1)) "ua".toList 1000).2 = some {
          distinctIpsInWindow := 1
          distinctUasInWindow := 1
          firstSeenUnix := 1000
          lastSeenUnix := 1000 } ∧ firstInstance.lookup
          (firstInstance.observe Keyspace.empty 0 someDevice
            (.v4 (Ipv4Addr.new 10 0 0 1)) "ua".toList 1000).1 1 someDevice = some (some {
          key := someDevice
          firstSeenUnix := 1000
          lastSeenUnix := 1000
          distinctIps := 1
          distinctUas := 1 }) ∧ secondInstance.lookup
          (firstInstance.observe Keyspace.empty 0 someDevice
            (.v4 (Ipv4Addr.new 10 0 0 1)) "ua".toList 1000).1 1 someDevice = some none ∧
      (secondInstance.observe (firstInstance.observe Keyspace.empty 0 someDevice
            (.v4 (Ipv4Addr.new 10 0 0 1)) "ua".toList 1000).1 1 someDevice
          (.v4 (Ipv4Addr.new 10 0 0 2)) "ua".toList 1001).2 = some {
          distinctIpsInWindow := 1
          distinctUasInWindow := 1
          firstSeenUnix := 1001
          lastSeenUnix := 1001 } := by
  decide +kernel

end RedisIdentityStore

end DeviceFp
end PrxWaf
