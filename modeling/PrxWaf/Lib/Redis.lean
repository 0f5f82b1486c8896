import PrxWaf.Lib.Keyspace
import PrxWaf.Lib.Table
import PrxWaf.Lib.Text

/-!
# Redis commands

Hashes of numbers and sorted sets, with the commands on them.  A command fails on
a key that holds the other kind of value.  A missing key is as good as an empty
value, and a value that becomes empty is removed.
-/

namespace PrxWaf
namespace Lib

namespace Redis

inductive Value where
  | hash (fields : Table Text Int)
  | zset (scores : Table Text Int)

abbrev Server := Keyspace Text Value

/-! ## Numbers in scripts

A number that a script joins to a text is written with 14 digits.
-/

/-- The nearest multiple of the unit; of two, the even one. -/
def roundTo (unit n : Int) : Int :=
  if 2 * (n % unit) < unit then unit * (n / unit)
  else if unit < 2 * (n % unit) then unit * (n / unit + 1)
  else if n / unit % 2 = 0 then unit * (n / unit)
  else unit * (n / unit + 1)

def joined (n : Int) : Int :=
  roundTo (10 ^ (Nat.log 10 n.natAbs + 1 - 14)) n

/-- All digits of the number are written. -/
def Exact (n : Int) : Prop :=
  n.natAbs < 100000000000000

instance (n : Int) : Decidable (Exact n) :=
  inferInstanceAs (Decidable (_ < _))

theorem joined_of_exact {n : Int} (h : Exact n) : joined n = n := by
  have hlog : Nat.log 10 n.natAbs + 1 - 14 = 0 := by
    have hlt : Nat.log 10 n.natAbs < 14 := Nat.log_lt_of_lt_pow' (by decide) h
    lia
  unfold joined roundTo
  rw [hlog, pow_zero, Int.emod_one, Int.ediv_one, if_pos (by decide), one_mul]

namespace Server

def hashAt (server : Server) (now : Int) (k : Text) : Option (Table Text Int) :=
  match server.get now k with
  | none => some Table.empty
  | some (.hash fields) => some fields
  | some (.zset _) => none

def zsetAt (server : Server) (now : Int) (k : Text) : Option (Table Text Int) :=
  match server.get now k with
  | none => some Table.empty
  | some (.hash _) => none
  | some (.zset scores) => some scores

def hget (server : Server) (now : Int) (k field : Text) : Option (Option Int) :=
  (server.hashAt now k).map (Table.lookup field)

def hset (server : Server) (now : Int) (k field : Text) (n : Int) : Option Server :=
  (server.hashAt now k).map (fun fields =>
    server.modify now k (fun _ => .hash (fields.insert field n)))

def zadd (server : Server) (now : Int) (k : Text) (score : Int) (member : Text) : Option Server :=
  (server.zsetAt now k).map (fun scores =>
    server.modify now k (fun _ => .zset (scores.insert member score)))

/-- Remove the members with a score below the bound. -/
def zremrangebyscore (server : Server) (now : Int) (k : Text) (bound : Int) : Option Server :=
  (server.zsetAt now k).map (fun scores =>
    let scores := scores.retain (fun score => bound ≤ score)
    if scores.size = 0 then server.del k
    else server.modify now k (fun _ => .zset scores))

def zcard (server : Server) (now : Int) (k : Text) : Option Nat :=
  (server.zsetAt now k).map Table.size

section Lookups

variable {server : Server} {now : Int} {k : Text}

theorem hashAt_modify (v : Table Text Int) :
    hashAt (server.modify now k (fun _ => .hash v)) now k = some v := by
  unfold hashAt
  rw [Keyspace.get_modify_self]

theorem zsetAt_modify (v : Table Text Int) :
    zsetAt (server.modify now k (fun _ => .zset v)) now k = some v := by
  unfold zsetAt
  rw [Keyspace.get_modify_self]

theorem hashAt_congr {other : Server} (now : Int) (h : other k = server k) :
    other.hashAt now k = server.hashAt now k := by
  unfold hashAt
  rw [Keyspace.get_congr now h]

theorem zsetAt_congr {other : Server} (now : Int) (h : other k = server k) :
    other.zsetAt now k = server.zsetAt now k := by
  unfold zsetAt
  rw [Keyspace.get_congr now h]

theorem get_of_absent (now : Int) (h : server k = none) :
    server.get now k = none := by
  unfold Keyspace.get
  rw [Keyspace.live_of_none now h]
  rfl

theorem hashAt_of_absent (now : Int) (h : server k = none) :
    server.hashAt now k = some Table.empty := by
  unfold hashAt
  rw [get_of_absent now h]

theorem zsetAt_of_absent (now : Int) (h : server k = none) :
    server.zsetAt now k = some Table.empty := by
  unfold zsetAt
  rw [get_of_absent now h]

theorem get_of_hashAt {fields : Table Text Int} {field : Text} {n : Int}
    (h : server.hashAt now k = some fields) (hfield : fields.lookup field = some n) :
    server.get now k = some (.hash fields) := by
  unfold hashAt at h
  split at h
  · rw [← Option.some.inj h, Table.lookup_empty] at hfield
    cases hfield
  · rename_i found hget
    rw [hget, Option.some.inj h]
  · cases h

end Lookups

end Server

end Redis

end Lib
end PrxWaf
