import PrxWaf.DeviceFp.Types
import PrxWaf.Lib.Machine
import PrxWaf.Lib.Window
import PrxWaf.Net.IpAddr

/-!
# The identity store in memory

Each fingerprint has an entry with the addresses and the hashes of the user agents
seen in a window of time.
-/

namespace PrxWaf
namespace DeviceFp

open Lib Net

structure MemoryConfig where
  ttlSecs : Nat
  windowSecs : Nat
  maxEntries : Nat

structure Entry where
  firstSeen : Int
  lastSeen : Int
  ips : Window IpAddr
  uas : Window UInt64

namespace Entry

def push (entry : Entry) (ip : IpAddr) (uaHash : UInt64) (ts : Int) : Entry :=
  { firstSeen := if ts < entry.firstSeen then ts else entry.firstSeen
    lastSeen := if entry.lastSeen < ts then ts else entry.lastSeen
    ips := entry.ips.push ip ts
    uas := entry.uas.push uaHash ts }

def new (ip : IpAddr) (uaHash : UInt64) (ts : Int) : Entry :=
  let entry :=
    { firstSeen := ts
      lastSeen := ts
      ips := Window.empty
      uas := Window.empty }
  push entry ip uaHash ts

def evictWindow (entry : Entry) (cutoff : Int) : Entry :=
  { entry with
    ips := entry.ips.evict cutoff
    uas := entry.uas.evict cutoff }

/-- The entry after one more observation; the first one makes it. -/
def observed (entry : Option Entry) (ip : IpAddr) (uaHash : UInt64) (ts cutoff : Int) : Entry :=
  match entry with
  | some entry => (entry.push ip uaHash ts).evictWindow cutoff
  | none => (Entry.new ip uaHash ts).evictWindow cutoff

def snapshot (entry : Entry) (key : FpKey) : IdentityRecord :=
  { key := key
    firstSeenUnix := entry.firstSeen
    lastSeenUnix := entry.lastSeen
    distinctIps := clampU16 entry.ips.card
    distinctUas := clampU16 entry.uas.card }

def observation (entry : Entry) : Observation :=
  { distinctIpsInWindow := clampU16 entry.ips.card
    distinctUasInWindow := clampU16 entry.uas.card
    firstSeenUnix := entry.firstSeen
    lastSeenUnix := entry.lastSeen }

end Entry

/-- The hasher of user agents is drawn when the store is made. -/
structure MemoryIdentityStore where
  map : Table FpKey Entry
  cfg : MemoryConfig
  hashUa : Text -> UInt64

namespace MemoryIdentityStore

def withConfig (cfg : MemoryConfig) (hashUa : Text -> UInt64) : MemoryIdentityStore :=
  { map := Table.empty, cfg := cfg, hashUa := hashUa }

def enforceCap (store : MemoryIdentityStore) : MemoryIdentityStore :=
  { store with map := store.map.cutTo store.cfg.maxEntries Entry.lastSeen }

def cutoff (store : MemoryIdentityStore) (ts : Int) : Int :=
  saturatingSub ts store.cfg.windowSecs

def observe (store : MemoryIdentityStore) (key : FpKey) (ip : IpAddr)
    (ua : Text) (ts : Int) : MemoryIdentityStore × Observation :=
  let uaHash := store.hashUa ua
  let entry := Entry.observed (store.map.lookup key) ip uaHash ts
    (store.cutoff ts)
  let store := { store with map := store.map.insert key entry }
  (if store.cfg.maxEntries < store.map.size then store.enforceCap else store, entry.observation)

def lookup (store : MemoryIdentityStore) (key : FpKey) : Option IdentityRecord :=
  (store.map.lookup key).map (fun entry => entry.snapshot key)

/-- The store without the entries that were last seen before the time to live, and
how many these were. -/
def purgeExpired (store : MemoryIdentityStore) (now : Int) : MemoryIdentityStore × Nat :=
  let cutoff := saturatingSub now store.cfg.ttlSecs
  let map := store.map.retain (fun entry => cutoff ≤ entry.lastSeen)
  ({ store with map := map }, store.map.size - map.size)

end MemoryIdentityStore

end DeviceFp
end PrxWaf
