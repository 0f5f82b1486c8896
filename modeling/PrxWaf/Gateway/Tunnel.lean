import PrxWaf.Lib.Run
import PrxWaf.Lib.Text

/-!
# Reverse tunnels

The registry has one place for the live connection of a tunnel.  A WebSocket session
puts its connection there when it starts, and clears the place when it ends; a
client may start a session before its last one has ended.
-/

namespace PrxWaf
namespace Gateway

open Lib

abbrev Uuid := Nat

structure TunnelRow where
  id : Uuid
  name : Text
  targetHost : Text
  targetPort : Int32
  enabled : Bool

structure TunnelConfig where
  id : Uuid
  name : Text
  tokenHash : Text
  targetHost : Text
  targetPort : UInt16
  enabled : Bool

/-- A live connection; `tx` tells its channel from those of all others. -/
structure TunnelConnection where
  tunnelId : Uuid
  name : Text
  targetHost : Text
  targetPort : UInt16
  tx : Nat
  deriving DecidableEq

structure TunnelRegistry where
  configs : Uuid -> Option TunnelConfig
  connections : Uuid -> Option TunnelConnection

namespace TunnelRegistry

def new : TunnelRegistry where
  configs := fun _ => none
  connections := fun _ => none

def register (registry : TunnelRegistry) (cfg : TunnelConfig) : TunnelRegistry :=
  { registry with configs := Function.update registry.configs cfg.id cfg }

def unregister (registry : TunnelRegistry) (id : Uuid) : TunnelRegistry where
  configs := Function.update registry.configs id none
  connections := Function.update registry.connections id none

def connect (registry : TunnelRegistry) (conn : TunnelConnection) : TunnelRegistry :=
  { registry with
    connections := Function.update registry.connections conn.tunnelId conn }

def disconnect (registry : TunnelRegistry) (tunnelId : Uuid) : TunnelRegistry :=
  { registry with
    connections := Function.update registry.connections tunnelId none }

def isConnected (registry : TunnelRegistry) (tunnelId : Uuid) : Bool :=
  (registry.connections tunnelId).isSome

def getConnection (registry : TunnelRegistry) (tunnelId : Uuid) : Option TunnelConnection :=
  registry.connections tunnelId

end TunnelRegistry

/-- The registry with the sessions that have connected and not yet disconnected.
Every session has a channel of its own. -/
structure TunnelWorld where
  registry : TunnelRegistry
  sessions : List TunnelConnection
  nextTx : Nat
  fresh : forall conn, conn ∈ sessions -> conn.tx < nextTx
  distinct : (sessions.map TunnelConnection.tx).Nodup

def TunnelWorld.start : TunnelWorld where
  registry := .new
  sessions := []
  nextTx := 0
  fresh := by simp
  distinct := List.nodup_nil

inductive TunnelEvent where
  | connect (row : Option TunnelRow)
  | disconnect (tx : Nat)
  | register (cfg : TunnelConfig)
  | unregister (id : Uuid)

def TunnelRow.connection (row : TunnelRow) (tx : Nat) : TunnelConnection where
  tunnelId := row.id
  name := row.name
  targetHost := row.targetHost
  targetPort := row.targetPort.toInt16.toUInt16
  tx := tx

namespace TunnelWorld

/-- The first part of `ws_tunnel`, up to the loop. -/
def openSession (world : TunnelWorld) (row : TunnelRow) : TunnelWorld where
  registry := world.registry.connect (row.connection world.nextTx)
  sessions := row.connection world.nextTx :: world.sessions
  nextTx := world.nextTx + 1
  fresh := by
    intro conn hmem
    rcases List.mem_cons.mp hmem with rfl | hmem
    · exact Nat.lt_succ_self world.nextTx
    · exact Nat.lt_succ_of_lt (world.fresh conn hmem)
  distinct := by
    refine List.nodup_cons.mpr ⟨?_, world.distinct⟩
    intro hmem
    rcases List.mem_map.mp hmem with ⟨other, hother, htx⟩
    exact Nat.ne_of_lt (world.fresh other hother) htx

/-- The last part of `ws_tunnel`, after the loop. -/
def closeSession (world : TunnelWorld) (conn : TunnelConnection) : TunnelWorld where
  registry := world.registry.disconnect conn.tunnelId
  sessions := world.sessions.filter (fun other => other.tx ≠ conn.tx)
  nextTx := world.nextTx
  fresh := fun other hother => world.fresh other (List.mem_of_mem_filter hother)
  distinct := world.distinct.sublist (List.filter_sublist.map _)

/-- A token without an enabled row does not connect. -/
def step (world : TunnelWorld) : TunnelEvent -> Option TunnelWorld
  | .connect none => some world
  | .connect (some row) =>
    if row.enabled then some (world.openSession row) else some world
  | .disconnect tx =>
    (world.sessions.find? (fun conn => conn.tx = tx)).map world.closeSession
  | .register cfg =>
    some { world with registry := world.registry.register cfg }
  | .unregister id =>
    some { world with registry := world.registry.unregister id }

/-- A tunnel with a session is connected, and by a session that is still open. -/
def Tracks (tunnelId : Uuid) (world : TunnelWorld) : Prop :=
  (exists conn, conn ∈ world.sessions ∧ conn.tunnelId = tunnelId) ->
    world.registry.isConnected tunnelId = true ∧
      exists conn, conn ∈ world.sessions ∧ conn.tunnelId = tunnelId ∧
        world.registry.getConnection tunnelId = some conn

def EndsAlone (tunnelId : Uuid) (world : TunnelWorld) : TunnelEvent -> Prop
  | .disconnect tx =>
    forall conn other, conn ∈ world.sessions -> other ∈ world.sessions ->
      conn.tunnelId = tunnelId -> other.tunnelId = tunnelId -> conn.tx = tx -> other.tx = tx
  | _ => True

def KeepsTrack (tunnelId : Uuid) (world : TunnelWorld) (event : TunnelEvent) : Prop :=
  forall world', world.step event = some world' -> Tracks tunnelId world'

section Events

variable {tunnelId : Uuid} {world world' : TunnelWorld}

theorem eq_of_tx {conn other : TunnelConnection} (hconn : conn ∈ world.sessions)
    (hother : other ∈ world.sessions) (htx : conn.tx = other.tx) :
    conn = other :=
  List.inj_on_of_nodup_map world.distinct hconn hother htx

theorem tracks_openSession (row : TunnelRow) (h : Tracks tunnelId world) :
    Tracks tunnelId (world.openSession row) := by
  rintro ⟨conn, hmem, hconn⟩
  rcases eq_or_ne tunnelId row.id with rfl | hne
  · have hplace : (world.openSession row).registry.connections row.id =
        some (row.connection world.nextTx) := Function.update_self ..
    refine ⟨?_, row.connection world.nextTx, List.mem_cons_self, rfl, hplace⟩
    unfold TunnelRegistry.isConnected
    rw [hplace]
    rfl
  · have hplace : (world.openSession row).registry.connections tunnelId =
        world.registry.connections tunnelId := Function.update_of_ne hne ..
    have hbefore : conn ∈ world.sessions := by
      rcases List.mem_cons.mp hmem with rfl | hmem
      · exact absurd hconn.symm hne
      · exact hmem
    rcases h ⟨conn, hbefore, hconn⟩ with ⟨his, other, hother, hid, hget⟩
    refine ⟨?_, other, List.mem_cons_of_mem _ hother, hid, hplace.trans hget⟩
    unfold TunnelRegistry.isConnected
    rw [hplace]
    exact his

variable {closed : TunnelConnection}

theorem tracks_closeSession_of_ne
    (hclosed : closed ∈ world.sessions) (hne : tunnelId ≠ closed.tunnelId)
    (h : Tracks tunnelId world) : Tracks tunnelId (world.closeSession closed) := by
  have hplace : (world.closeSession closed).registry.connections tunnelId =
      world.registry.connections tunnelId := Function.update_of_ne hne ..
  rintro ⟨conn, hmem, hconn⟩
  rcases h ⟨conn, List.mem_of_mem_filter hmem, hconn⟩ with ⟨his, other, hother, hid, hget⟩
  refine ⟨?_, other, ?_, hid, hplace.trans hget⟩
  · unfold TunnelRegistry.isConnected
    rw [hplace]
    exact his
  · refine List.mem_filter.mpr ⟨hother, decide_eq_true ?_⟩
    intro htx
    rw [eq_of_tx hother hclosed htx] at hid
    exact hne hid.symm

theorem tracks_closeSession_iff (hid : closed.tunnelId = tunnelId) :
    Tracks tunnelId (world.closeSession closed) <->
      forall other, other ∈ world.sessions -> other.tunnelId = tunnelId ->
        other.tx = closed.tx := by
  constructor
  · intro h other hother hother'
    apply Decidable.byContradiction
    intro htx
    have hleft : other ∈ (world.closeSession closed).sessions :=
      List.mem_filter.mpr ⟨hother, decide_eq_true htx⟩
    rcases h ⟨other, hleft, hother'⟩ with ⟨his, -⟩
    have hplace : (world.closeSession closed).registry.connections tunnelId =
        none := by
      rw [← hid]
      exact Function.update_self ..
    unfold TunnelRegistry.isConnected at his
    rw [hplace] at his
    cases his
  · rintro honly ⟨conn, hmem, hconn⟩
    rcases List.mem_filter.mp hmem with ⟨hmem, htx⟩
    exact absurd (honly conn hmem hconn) (of_decide_eq_true htx)

theorem keepsTrack_connect (h : Tracks tunnelId world) (row : Option TunnelRow) :
    KeepsTrack tunnelId world (.connect row) := by
  intro world' hstep
  cases row with
  | none =>
    injection hstep with hstep
    rw [← hstep]
    exact h
  | some row =>
    unfold step at hstep
    dsimp only at hstep
    split at hstep
    · injection hstep with hstep
      rw [← hstep]
      exact tracks_openSession row h
    · injection hstep with hstep
      rw [← hstep]
      exact h

theorem keepsTrack_unregister (h : Tracks tunnelId world) {id : Uuid}
    (hne : tunnelId ≠ id) : KeepsTrack tunnelId world (.unregister id) := by
  intro world' hstep hsession
  injection hstep with hstep
  have hplace : world'.registry.connections tunnelId = world.registry.connections tunnelId := by
    rw [← hstep]
    exact Function.update_of_ne hne ..
  unfold TunnelRegistry.isConnected TunnelRegistry.getConnection
  rw [hplace]
  rw [← hstep] at hsession ⊢
  exact h hsession

theorem keepsTrack_disconnect_iff
    (hfind : world.sessions.find? (fun conn => conn.tx = closed.tx) = some closed) :
    KeepsTrack tunnelId world (.disconnect closed.tx) <->
      Tracks tunnelId (world.closeSession closed) := by
  have hstep : world.step (.disconnect closed.tx) = some (world.closeSession closed) := by
    rw [step, hfind]
    rfl
  unfold KeepsTrack
  rw [hstep]
  constructor
  · intro hall
    exact hall _ rfl
  · intro hone world' heq
    cases heq
    exact hone

/-- The events that do not unregister the tunnel keep the registry in step with the
sessions exactly if no session of it ends while another is open. -/
theorem keepsTrack_iff {event : TunnelEvent} (h : Tracks tunnelId world)
    (hevent : event ≠ .unregister tunnelId) :
    KeepsTrack tunnelId world event <-> EndsAlone tunnelId world event := by
  cases event with
  | connect row => exact iff_of_true (keepsTrack_connect h row) trivial
  | register cfg =>
    refine iff_of_true ?_ trivial
    intro world' hstep
    injection hstep with hstep
    rw [← hstep]
    exact h
  | unregister id =>
    have hne : tunnelId ≠ id := fun heq => hevent (congrArg _ heq.symm)
    exact iff_of_true (keepsTrack_unregister h hne) trivial
  | disconnect tx =>
    cases hfind : world.sessions.find? (fun conn => conn.tx = tx) with
    | none =>
      apply iff_of_true
      · intro world' hstep
        rw [step, hfind] at hstep
        cases hstep
      · intro conn _ hconn _ _ _ htx
        exact absurd (decide_eq_true htx) (List.find?_eq_none.mp hfind conn hconn)
    | some closed =>
      have hclosed := List.mem_of_find?_eq_some hfind
      have htx := List.find?_some hfind
      rw [decide_eq_true_eq] at htx
      rw [← htx] at hfind ⊢
      rw [keepsTrack_disconnect_iff hfind]
      unfold EndsAlone
      rcases eq_or_ne tunnelId closed.tunnelId with hid | hne
      · rw [tracks_closeSession_iff hid.symm]
        constructor
        · intro honly conn other _ hother _ hother' _
          exact honly other hother hother'
        · intro hends other hother hother'
          exact hends closed other hclosed hother hid.symm hother' rfl
      · apply iff_of_true (tracks_closeSession_of_ne hclosed hne h)
        intro conn other hconn _ hid _ hconnTx
        have heq := eq_of_tx hconn hclosed hconnTx
        rw [heq] at hid
        exact absurd hid.symm hne

end Events

theorem tracks_start (tunnelId : Uuid) : Tracks tunnelId TunnelWorld.start := by
  rintro ⟨conn, hmem, -⟩
  cases hmem

/-- In a run from the empty registry that does not unregister the tunnel, the
registry tracks its sessions after every event exactly if no session of the tunnel
ends while another one is open. -/
theorem registry_tracks_sessions_iff {tunnelId : Uuid}
    {events : List TunnelEvent} (hevents : .unregister tunnelId ∉ events) :
    StepsMeet step (KeepsTrack tunnelId) TunnelWorld.start events <->
      StepsMeet step (EndsAlone tunnelId) TunnelWorld.start events := by
  have hwithin : StepsMeet step (fun _ event => event ≠ .unregister tunnelId)
      TunnelWorld.start events := stepsMeet_of_forall
      (fun _ event hmem heq => hevents (by rw [← heq]; exact hmem))
  refine stepsMeet_iff_of_invariant keepsTrack_iff ?_ (tracks_start tunnelId) hwithin
  intro world event world' h hevent hends hstep
  exact (keepsTrack_iff h hevent).mpr hends world' hstep

def officeTunnel : TunnelRow where
  id := 7
  name := "office".toList
  targetHost := "127.0.0.1".toList
  targetPort := 8080
  enabled := true

theorem tracks_sessions_in_turn :
    StepsMeet step (KeepsTrack 7) TunnelWorld.start
      [.connect (some officeTunnel), .disconnect 0, .connect (some officeTunnel)] := by
  refine (registry_tracks_sessions_iff ?_).mpr ?_
  · intro hmem
    simp at hmem
  · refine ⟨trivial, ?_, trivial, trivial⟩
    intro conn other _ hother _ _ _
    rw [List.mem_singleton.mp hother]
    rfl

/-- A client reconnects before its first session has ended.  The end of that session
removes the connection of the new one. -/
theorem reconnect_loses_connection :
    exists world, runFrom step TunnelWorld.start
        [.connect (some officeTunnel), .connect (some officeTunnel),
          .disconnect 0] = some world ∧ world.sessions = [officeTunnel.connection 1] ∧
      world.registry.isConnected 7 = false ∧ world.registry.getConnection 7 = none :=
  ⟨_, rfl, by decide, rfl, rfl⟩

end TunnelWorld

end Gateway
end PrxWaf
