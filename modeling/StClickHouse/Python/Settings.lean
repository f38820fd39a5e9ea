/-
  StClickHouse.Python.Settings
  **WHAT A SESSION LEAVES ON ITS CONNECTION.**

  `set_setting` changes the configuration of the native client that it is called on, and
  nothing changes it back when the connection is released.

      packet_as_configured — an operation that has set nothing sends what is configured
      setting_stays        — the setting of a closed session goes out with the next query
-/
import StClickHouse.Python.Ownership
import StClickHouse.Sync.QueryPacket

namespace StClickHouse.Python

open RustText Sync Function

/-! ## §1. The settings of the pooled clients. -/

/-- The pool, with the configuration of each native client.  `changed` notes the
    operations that have called `set_setting`. -/
structure Clients where
  world : World
  builder : Nat → PacketBuilder
  changed : Nat → Bool

inductive SettingAction where
  | world (a : WorldAction)
  | set (k : Nat) (name value : Text)
deriving DecidableEq

namespace Clients

/-- Connection `c` is opened with `cfg c`: what the client is configured with, and the
    revision of the server there. -/
def start (cfg : Nat → ClientConfig) (min max : Nat) : Clients :=
  ⟨World.start min max, fun c => .connect (cfg c), fun _ => false⟩

/-- `set` is a session's `set_setting`, or `AsyncClient.set_setting`, on its executor
    thread. -/
def step (s : Clients) : SettingAction → Option Clients
  | .world a => (s.world.step a).map fun w => { s with world := w }
  | .set k name value =>
    match s.world.calls k with
    | some K =>
      let H := s.world.holders K.holder
      if K.worker = .running ∧
          (K.native = .quiet ∨ K.native = .request ∧ H.kind = .oneShot) then
        some { s with
          builder := Function.update s.builder H.conn
            ((s.builder H.conn).setSetting name value)
          changed := Function.update s.changed K.holder true }
      else none
    | none => none

/-- What a query of the operation sends. -/
def queryPacket (s : Clients) (h : Nat) (r : QueryRequest) : List UInt8 :=
  (s.builder (s.world.holders h).conn).buildQueryPacketInner r

/-- What is returned to the pool has its settings again, and settings are made by
    operations that hold their connection. -/
def Restores (cfg : Nat → ClientConfig) (s : Clients) : SettingAction → Prop
  | .world a => ∀ h c, s.world.recycled a = some (h, c) → s.builder c = .connect (cfg c)
  | .set k _ _ => ∀ K, s.world.calls k = some K → (s.world.holders K.holder).stage.owns = true

end Clients

/-! ## §2. Whole runs. -/

namespace Clients

/-- Only what an operation that has called `set_setting` holds has other settings. -/
structure AsConfigured (cfg : Nat → ClientConfig) (s : Clients) : Prop where
  sole : s.world.Sole
  fresh : ∀ c, s.world.nextConn ≤ c → s.builder c = .connect (cfg c)
  available : ∀ c ∈ s.world.pool.available, s.builder c = .connect (cfg c)
  unchanged : ∀ h c, (s.world.holders h).has = some c → s.changed h = false →
    s.builder c = .connect (cfg c)

variable {cfg : Nat → ClientConfig} {s s' : Clients} {a : SettingAction}

theorem AsConfigured.start (min max : Nat) : AsConfigured cfg (start cfg min max) :=
  ⟨.start min max, fun _ _ => rfl, fun _ _ => rfl, fun _ _ _ _ => rfl⟩

theorem AsConfigured.step (hs : AsConfigured cfg s) (hok : Restores cfg s a)
    (hstep : s.step a = some s') : AsConfigured cfg s' := by
  cases a with
  | world a =>
    obtain ⟨w, hw, rfl⟩ := Option.map_eq_some_iff.mp hstep
    have hmoves := World.step_moves hw
    refine ⟨hmoves.sole hs.sole, ?_, ?_, ?_⟩
    · intro c hc
      exact hs.fresh c (le_trans hmoves.next hc)
    · intro c hc
      obtain hc | ⟨h, hrecycled⟩ := hmoves.available c hc
      · exact hs.available c hc
      · exact hok h c hrecycled
    intro h c hc hunchanged
    obtain hc | hc | hc := hmoves.has h c hc
    · exact hs.unchanged h c hc hunchanged
    · exact hs.available c hc
    · exact hs.fresh c hc
  | set k name value =>
    simp only [Clients.step] at hstep
    split at hstep
    · next K hK =>
      obtain ⟨-, rfl⟩ := of_guard hstep
      -- The connection that is changed is its holder's, and nobody else's.
      have hhas := World.has_of_owns (hok K hK)
      have hother : ∀ {c}, c ≠ (s.world.holders K.holder).conn →
          s.builder c = .connect (cfg c) → update s.builder _
            ((s.builder (s.world.holders K.holder).conn).setSetting name value) c =
            .connect (cfg c) := fun hne h => (update_of_ne hne _ _).trans h
      refine ⟨hs.sole, ?_, ?_, ?_⟩
      · intro c hc
        refine hother ?_ (hs.fresh c hc)
        rintro rfl
        exact absurd (hs.sole.has _ _ hhas) (not_lt.mpr hc)
      · intro c hc
        refine hother ?_ (hs.available c hc)
        rintro rfl
        exact (hs.sole.exclusive.alone _ _ hhas).1 hc
      intro h c hc (hunchanged : update s.changed K.holder true h = false)
      rw [update_apply] at hunchanged
      split at hunchanged
      · cases hunchanged
      · next hh =>
        refine hother ?_ (hs.unchanged h c hc hunchanged)
        rintro rfl
        exact hh (hs.sole.exclusive.single _ _ _ hc hhas)
    · cases hstep

/-- **Nothing is left behind.**  In every run in which what is returned to the pool has
    its settings again, an operation that has set nothing sends, on whichever connection
    it holds, the packet of the configured settings and its own overlay. -/
theorem packet_as_configured {min max : Nat} {as : List SettingAction}
    (hrun : Run Clients.step (Restores cfg) (start cfg min max) as s) {h : Nat}
    (howns : (s.world.holders h).stage.owns = true) (hunchanged : s.changed h = false)
    (r : QueryRequest) :
    s.queryPacket h r =
      (PacketBuilder.connect (cfg (s.world.holders h).conn)).buildQueryPacketInner r := by
  have hs : AsConfigured cfg s := hrun.invariant
    (fun _ _ _ hs hok hstep => hs.step hok hstep) (.start min max)
  rw [queryPacket, hs.unchanged h _ (World.has_of_owns howns) hunchanged]

def plainQuery : QueryRequest := ⟨[], [], true, [], ⟨[], List.nodup_nil⟩⟩

/-- A session that sets a setting. -/
def sessionSets : List SettingAction :=
  [.world (.start 0 .session), .world (.acquire 0 .reserve), .world (.acquire 0 .handOut),
    .world (.acquire 0 (.enter 0)), .world (.holder 0 (.submit 0 .quiet)), .world (.call 0 .run),
    .set 0 "a".toList "b".toList, .world (.call 0 (.finish .ok)), .world (.call 0 .notice)]

/-- A query of the session is cancelled, and the next operation gets a new connection. -/
def sessionDestroyed : List SettingAction :=
  sessionSets ++ [.world (.holder 0 (.submit 1 .request)), .world (.call 1 .cancel),
    .world (.call 1 .handle), .world (.holder 0 (.close 2)), .world (.start 1 .oneShot),
    .world (.acquire 1 .book), .world (.acquire 1 .grow), .world (.acquire 1 (.enter 2))]

/-- What a session has set is gone with a connection that is destroyed. -/
theorem packet_as_configured_destroyed :
    ∃ s, Run Clients.step (Restores fun _ => validatingConfig)
        (start (fun _ => validatingConfig) 1 1) sessionDestroyed s ∧
      (s.world.holders 1).conn = 1 ∧
      s.queryPacket 1 plainQuery =
        (PacketBuilder.connect validatingConfig).buildQueryPacketInner plainQuery := by
  have hrun : ∃ s, Run Clients.step (Restores fun _ => validatingConfig)
      (start (fun _ => validatingConfig) 1 1) sessionDestroyed s ∧
      (s.world.holders 1).conn = 1 ∧ (s.world.holders 1).stage.owns = true ∧
      s.changed 1 = false :=
    ⟨_, .cons nofun rfl <| .cons nofun rfl <| .cons nofun rfl <| .cons nofun rfl <|
      .cons nofun rfl <| .cons nofun rfl <| .cons (fun K hK => by cases hK; rfl) rfl <|
      .cons nofun rfl <| .cons nofun rfl <| .cons nofun rfl <| .cons nofun rfl <|
      .cons nofun rfl <| .cons nofun rfl <| .cons nofun rfl <| .cons nofun rfl <|
      .cons nofun rfl <| .cons nofun rfl <| .nil _, rfl, rfl, rfl⟩
  obtain ⟨s, hrun, hconn, howns, hunchanged⟩ := hrun
  exact ⟨s, hrun, hconn, packet_as_configured hrun howns hunchanged _⟩

/-- The session is closed, and the next operation gets its connection. -/
def sessionCloses : List SettingAction :=
  sessionSets ++ .world (.holder 0 (.close 1)) :: (World.oneShotRuns 1 1).map .world

/-- **The setting of a closed session stays**: the next query on its connection has it. -/
theorem setting_stays :
    ∃ s, Run Clients.step (fun _ _ => True) (start (fun _ => validatingConfig) 1 1)
        sessionCloses s ∧
      (s.world.holders 1).stage.owns = true ∧ s.changed 1 = false ∧
      s.queryPacket 1 plainQuery ≠
        (PacketBuilder.connect validatingConfig).buildQueryPacketInner plainQuery := by
  have hrun : ∃ s, exec Clients.step (start (fun _ => validatingConfig) 1 1)
      sessionCloses = some s ∧
      (s.world.holders 1).stage.owns = true ∧ s.changed 1 = false ∧
      s.builder (s.world.holders 1).conn =
        (PacketBuilder.connect validatingConfig).setSetting "a".toList "b".toList :=
    ⟨_, rfl, rfl, rfl, rfl⟩
  obtain ⟨s, hrun, howns, hunchanged, hbuilder⟩ := hrun
  refine ⟨s, .of_exec hrun, howns, hunchanged, ?_⟩
  rw [queryPacket, hbuilder]
  decide +kernel

end Clients

end StClickHouse.Python
