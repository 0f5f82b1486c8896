import PrxWaf.Lib.Machine

/-!
# Keys that expire

A server keeps a value for each key, some of them with a deadline.  From its
deadline on a key is as good as absent.  Writing to a key that is there keeps its
deadline.
-/

namespace PrxWaf
namespace Lib

structure Cell (value : Type) where
  value : value
  deadline : Option Int
  deriving DecidableEq

def Cell.isLive {value : Type} (now : Int) (cell : Cell value) : Bool :=
  match cell.deadline with
  | none => true
  | some deadline => now < deadline

def Keyspace (key value : Type) : Type :=
  key -> Option (Cell value)

namespace Keyspace

variable {key value : Type}

def empty : Keyspace key value :=
  fun _ => none

def live (keys : Keyspace key value) (now : Int) (k : key) : Option (Cell value) :=
  (keys k).filter (Cell.isLive now)

def get (keys : Keyspace key value) (now : Int) (k : key) : Option value :=
  (keys.live now k).map Cell.value

section Live

variable {keys : Keyspace key value} {now : Int} {k : key}

variable {cell : Cell value}

theorem live_of_some (now : Int) (h : keys k = some cell) :
    keys.live now k = if cell.isLive now then some cell else none := by
  unfold live
  rw [h, Option.filter_some]

theorem live_of_none (now : Int) (h : keys k = none) : keys.live now k = none := by
  unfold live
  rw [h]
  rfl

theorem get_of_some (h : keys k = some cell)
    (hlive : cell.isLive now = true) : keys.get now k = some cell.value := by
  unfold get
  rw [live_of_some now h, if_pos hlive]
  rfl

theorem get_congr {others : Keyspace key value} (now : Int)
    (h : others k = keys k) : others.get now k = keys.get now k := by
  unfold get live
  rw [h]

theorem get_of_later {v : value} {later : Int} (hle : now ≤ later)
    (h : keys.get later k = some v) : keys.get now k = some v := by
  obtain ⟨cell, hlive, rfl⟩ := Option.map_eq_some_iff.mp h
  obtain ⟨hcell, hdeadline⟩ := Option.filter_eq_some_iff.mp hlive
  refine get_of_some hcell ?_
  unfold Cell.isLive at hdeadline ⊢
  cases hsome : cell.deadline with
  | none => rfl
  | some deadline =>
    rw [hsome] at hdeadline
    exact decide_eq_true (Int.lt_of_le_of_lt hle (of_decide_eq_true hdeadline))

theorem isLive_of_live (h : keys.live now k = some cell) :
    cell.isLive now = true :=
  (Option.filter_eq_some_iff.mp h).2

end Live

variable [DecidableEq key]

def set (keys : Keyspace key value) (k : key) (cell : Option (Cell value)) : Keyspace key value :=
  fun other => if other = k then cell else keys other

def del (keys : Keyspace key value) (k : key) : Keyspace key value :=
  keys.set k none

/-- Write what the function makes of the present value. -/
def modify (keys : Keyspace key value) (now : Int) (k : key)
    (f : Option value -> value) : Keyspace key value :=
  keys.set k (some {
    value := f (keys.get now k)
    deadline := (keys.live now k).bind Cell.deadline })

/-- A timeout that is not positive deletes the key. -/
def expire (keys : Keyspace key value) (now : Int) (k : key) (ttlMs : Int) : Keyspace key value :=
  match keys.live now k with
  | none => keys
  | some cell =>
    if ttlMs ≤ 0 then keys.del k
    else keys.set k (some { cell with deadline := some (now + ttlMs) })

/-- A timeout that ends beyond the range of the clock is an error. -/
def pexpire (keys : Keyspace key value) (now : Int) (k : key) (ttlMs : Int) :
    Option (Keyspace key value) :=
  if i64Max - now < ttlMs then none else some (keys.expire now k ttlMs)

variable (keys : Keyspace key value) (now : Int) (k : key)

theorem set_self (cell : Option (Cell value)) : keys.set k cell k = cell :=
  if_pos rfl

theorem set_of_ne {k other : key} (cell : Option (Cell value)) (hother : other ≠ k) :
    keys.set k cell other = keys other :=
  if_neg hother

theorem get_del_self :
    (keys.del k).get now k = none := by
  have habsent : keys.del k k = none := keys.set_self k none
  unfold get
  rw [live_of_none now habsent]
  rfl

theorem modify_self (f : Option value -> value) :
    keys.modify now k f k = some {
      value := f (keys.get now k)
      deadline := (keys.live now k).bind Cell.deadline } := keys.set_self k _

theorem live_modify_self (f : Option value -> value) :
    (keys.modify now k f).live now k = some {
      value := f (keys.get now k)
      deadline := (keys.live now k).bind Cell.deadline } := by
  rw [live_of_some now (keys.modify_self now k f), if_pos]
  cases hlive : keys.live now k with
  | none => rfl
  | some cell =>
    have hdeadline := isLive_of_live hlive
    unfold Cell.isLive at hdeadline ⊢
    exact hdeadline

theorem get_modify_self (f : Option value -> value) :
    (keys.modify now k f).get now k = some (f (keys.get now k)) := by
  unfold get
  rw [live_modify_self]
  rfl

theorem modify_of_ne {k other : key} (f : Option value -> value) (hother : other ≠ k) :
    keys.modify now k f other = keys other :=
  keys.set_of_ne _ hother

theorem modify_modify (f : Option value -> value) (v : value) :
    (keys.modify now k f).modify now k (fun _ => v) = keys.modify now k (fun _ => v) := by
  funext other
  rcases eq_or_ne other k with h | h
  · rw [h, modify_self, modify_self, live_modify_self]
    rfl
  · rw [modify_of_ne _ _ _ h, modify_of_ne _ _ _ h, modify_of_ne _ _ _ h]

theorem expire_self {keys : Keyspace key value} {now : Int} {k : key}
    {cell : Cell value} (h : keys.live now k = some cell) (ttlMs : Int) :
    keys.expire now k ttlMs k =
      if ttlMs ≤ 0 then none
      else some { cell with deadline := some (now + ttlMs) } := by
  unfold expire
  rw [h]
  dsimp only
  split
  · exact keys.set_self k none
  · exact keys.set_self k _

theorem expire_of_get {keys : Keyspace key value} {now : Int} {k : key}
    {v : value} {ttlMs : Int} (h : keys.get now k = some v) (httl : 0 < ttlMs) :
    keys.expire now k ttlMs k = some { value := v, deadline := some (now + ttlMs) } := by
  obtain ⟨cell, hlive, rfl⟩ := Option.map_eq_some_iff.mp h
  rw [expire_self hlive, if_neg (Int.not_le.mpr httl)]

theorem expire_of_ne {k other : key} (ttlMs : Int) (hother : other ≠ k) :
    keys.expire now k ttlMs other = keys other := by
  unfold expire
  cases keys.live now k with
  | none => rfl
  | some cell =>
    dsimp only
    split
    · exact keys.set_of_ne none hother
    · exact keys.set_of_ne _ hother

end Keyspace

end Lib
end PrxWaf
