/-
  StClickHouse.Sync.Watchdog
  **THE WATCHDOG OF THE CONNECTION SETUP.**

  `connect_transport_with_budget` (`client.rs`) sets up TLS and shakes hands while a
  thread waits to shut the socket down at the deadline.  Every way out sends the thread
  a stop message and joins it; it may expire at any moment before it has the message.

      watchdog_reported_iff  — a client is returned only if the thread did not shut the
                               socket down, and if it did that is a timeout, exactly if
                               TLS is set up or not configured
      watchdog_unreported    — a TLS domain that is invalid
-/
import StClickHouse.Lib.Runs
import StClickHouse.Wire.Limits

namespace StClickHouse.Sync

/-- The thread of a `SetupWatchdog`. -/
inductive Watchdog where
  | waiting
  /-- The flag is set, and the socket is to be shut down. -/
  | expired
  /-- It has ended after that. -/
  | shutDown
  /-- It has ended because of the stop message. -/
  | stopped
  deriving DecidableEq

def Watchdog.hasEnded (w : Watchdog) : Bool := w = .shutDown || w = .stopped

/-- What `Transport::new_tls` finds, if TLS is configured. -/
inductive TlsSetup where
  | made
  | invalidDomain (domain : String)
  | refused (e : String)

def TlsSetup.newTls : TlsSetup → Result Unit
  | .made => .ok ()
  | .invalidDomain domain => .error (.text ("invalid TLS domain '" ++ domain ++ "'"))
  | .refused e => .error (.text ("TLS handshake failed: " ++ e))

structure SetupConfig where
  addr : String
  /-- `connect_timeout`, as it is printed. -/
  connectTimeout : String
  tls : Option TlsSetup
  budget : Nat

variable {α : Type}

/-- The setup, from the start of the thread on; `α` is what a handshake gives. -/
inductive Setup (α : Type) where
  | started
  | handshaking
  /-- The stop message is sent by `finish`, and the thread is joined. -/
  | finishing (result : Result α)
  /-- The stop message is sent because the watchdog is dropped with an error. -/
  | dropping (e : Error)
  | returned (result : Result α)

def Setup.stopSent : Setup α → Bool
  | .finishing _ | .dropping _ => true
  | _ => false

structure Connecting (α : Type) where
  watchdog : Watchdog
  setup : Setup α

def isSocketTimeout (kind : IoKind) : Bool := kind = .timedOut || kind = .wouldBlock

def classifySetupError (cfg : SetupConfig) (result : Result α) (deadlineExpired : Bool) :
    Result α :=
  let timeout := .error (.timeout ("connection setup to " ++ cfg.addr
    ++ " did not complete within " ++ cfg.connectTimeout))
  if deadlineExpired then timeout
  else match result with
    | .error (.io kind) => if isSocketTimeout kind then timeout else result
    | other => other

namespace Connecting

inductive Action (α : Type) where
  | expire
  | shutDown
  | receive
  | newTls
  /-- The handshake ends, in any way. -/
  | handshake (result : Result α)
  /-- The thread has been joined, so long after its start; the normal timeouts are set. -/
  | join (elapsed : Nat) (restored : Except IoKind Unit)

def step (cfg : SetupConfig) (s : Connecting α) : Action α → Option (Connecting α)
  | .expire => if s.watchdog = .waiting then some { s with watchdog := .expired } else none
  | .shutDown => if s.watchdog = .expired then some { s with watchdog := .shutDown } else none
  | .receive =>
    if s.watchdog = .waiting ∧ s.setup.stopSent then some { s with watchdog := .stopped } else none
  | .newTls =>
    match s.setup, cfg.tls.elim (.ok ()) TlsSetup.newTls with
    | .started, .ok () => some { s with setup := .handshaking }
    | .started, .error e => some { s with setup := .dropping e }
    | _, _ => none
  | .handshake result =>
    match s.setup with
    | .handshaking => some { s with setup := .finishing result }
    | _ => none
  | .join elapsed restored =>
    if s.watchdog.hasEnded then
      match s.setup with
      | .finishing result => some { s with
          setup := .returned (do
            let info ← classifySetupError cfg result
              (s.watchdog = .shutDown || cfg.budget ≤ elapsed)
            restored.mapError Error.io
            return info) }
      | .dropping e => some { s with setup := .returned (.error e) }
      | _ => none
    else none

def start : Connecting α := ⟨.waiting, .started⟩

end Connecting

/-- What `connect_with_config` meets at an address. -/
inductive Attempt (α : Type) where
  /-- No TCP connection. -/
  | refused (addr : String) (kind : IoKind)
  /-- No time is left for the setup. -/
  | late (addr : String)
  | setup (result : Result α)

/-- The addresses one after the other, with the last error. -/
def connectWithConfig (cfg : SetupConfig) : List (Attempt α) → Option Error → Result α
  | [], lastErr => .error (lastErr.getD (.text "no address resolved"))
  | .refused addr kind :: rest, _ => connectWithConfig cfg rest (some
      (if isSocketTimeout kind then
        .timeout ("TCP connect to " ++ addr ++ " timed out after " ++ cfg.connectTimeout)
      else .io kind))
  | .late addr :: rest, _ => connectWithConfig cfg rest (some
      (.timeout ("connect to " ++ addr ++ " timed out after " ++ cfg.connectTimeout)))
  | .setup (.ok client) :: _, _ => .ok client
  | .setup (.error e) :: rest, _ =>
    match e with
    | .io _ | .timeout _ => connectWithConfig cfg rest (some e)
    | _ => .error e

namespace Connecting

/-- A client is returned only if the thread has ended without shutting the socket down;
and if it has shut it down, that is a timeout, with which `connect_with_config` moves on to
the next address. -/
structure Reported (cfg : SetupConfig) (watchdog : Watchdog) (result : Result α) : Prop where
  client : ∀ client, result = .ok client → watchdog = .stopped
  fired : watchdog = .shutDown → ∃ msg, result = .error (.timeout msg) ∧
    ∀ rest lastErr, connectWithConfig cfg (.setup result :: rest) lastErr
      = connectWithConfig cfg rest (some (.timeout msg))

/-- Of a setup that is over. -/
def Sound (cfg : SetupConfig) (s : Connecting α) : Prop :=
  match s.setup with
  | .dropping _ => False
  | .returned result => s.watchdog.hasEnded = true ∧ Reported cfg s.watchdog result
  | _ => True

theorem Sound.step {cfg : SetupConfig} {s s' : Connecting α} {a : Action α}
    (htls : cfg.tls.elim (.ok ()) TlsSetup.newTls = .ok ()) (h : Sound cfg s)
    (hstep : s.step cfg a = some s') : Sound cfg s' := by
  obtain ⟨w, setup⟩ := s
  cases a <;> simp only [Connecting.step, htls] at hstep
  case newTls => cases setup <;> cases hstep; trivial
  case handshake => cases setup <;> cases hstep; trivial
  case join elapsed restored =>
    obtain ⟨hended, hstep⟩ := of_guard_then hstep
    cases setup <;> cases hstep
    case finishing result =>
      refine ⟨hended, fun client hclient => ?_, fun hfired => ?_⟩
      · cases w with
        | stopped => rfl
        | shutDown => cases hclient
        | waiting | expired => cases hended
      · cases hfired
        exact ⟨_, rfl, fun _ _ => rfl⟩
    case dropping => exact h.elim
  case receive =>
    obtain ⟨⟨rfl, _⟩, rfl⟩ := of_guard hstep
    cases setup <;> trivial
  all_goals
    obtain ⟨rfl, rfl⟩ := of_guard hstep
    cases setup <;> first | trivial | cases h.1

/-- **The watchdog cannot hit a client, and is reported where it fires**, on all runs,
exactly if TLS can be set up or is not configured. -/
theorem watchdog_reported_iff (cfg : SetupConfig) :
    (∀ (acts : List (Action α)) (w : Watchdog) (result : Result α),
      exec (step cfg) start acts = some ⟨w, .returned result⟩ → Reported cfg w result)
    ↔ cfg.tls.elim (.ok ()) TlsSetup.newTls = .ok () := by
  constructor
  · intro h
    cases hmade : cfg.tls.elim (.ok ()) TlsSetup.newTls with
    | ok => rfl
    | error e =>
      -- the thread fires before `new_tls` fails, which is not a timeout
      have hrun : exec (step cfg) start [.expire, .shutDown, .newTls, .join 0 (.ok ())]
          = some ⟨.shutDown, .returned (.error e : Result α)⟩ := by
        simp [exec, step, start, hmade, Watchdog.hasEnded]
      obtain ⟨msg, he, _⟩ := (h _ _ _ hrun).fired rfl
      cases he
      cases htls : cfg.tls with
      | none => rw [htls] at hmade; cases hmade
      | some tls => cases tls <;> rw [htls] at hmade <;> cases hmade
  · intro htls acts w result hexec
    have hsound : Sound cfg (⟨w, .returned result⟩ : Connecting α) :=
      (Run.of_exec hexec).invariant (fun _ _ _ h _ hstep => h.step htls hstep) trivial
    exact hsound.2

/-- **An invalid TLS domain**: the thread shuts the socket down before it is found, and a
protocol error is returned at once. -/
theorem watchdog_unreported :
    let cfg : SetupConfig := ⟨"db:9440", "1s", some (.invalidDomain "db:1"), 1⟩
    let e := Error.text "invalid TLS domain 'db:1'"
    exec (step cfg) (start : Connecting Unit) [.expire, .shutDown, .newTls, .join 2 (.ok ())]
        = some ⟨.shutDown, .returned (.error e)⟩
      ∧ connectWithConfig cfg [.setup (.error e : Result Unit), .setup (.ok ())] none
        = .error e := by
  exact ⟨rfl, rfl⟩

end Connecting

end StClickHouse.Sync
