import PacketDial.Core.Types
import PacketDial.Core.Masking
import PacketDial.Lib.Traced
import PacketDial.Lib.Locks

/-!
# Engine state and primitives

The globals of `core_rust/src/lib.rs:20–64`, the answers a run gets from outside (the clock,
the shim, the JSON parser, the file system, hash-map order) and the actions it performs in
order: locks taken and given back, calls into the shim, events pushed and their deliveries.
Every function of the engine is a computation `Eng` over these.
-/

namespace PacketDial.Core

open PacketDial.Lib

/-- The engine's globals (`lib.rs:20–64`, `3514–3517`). IPC clients are numbered; `clockReads`
counts the readings of the host clock so far. -/
structure Engine where
  initialized : Bool
  nextCallId : UInt32
  accounts : AList fun _ : String ↦ Account
  calls : AList fun _ : UInt32 ↦ Call
  mediaStats : AList fun _ : UInt32 ↦ MediaStats
  audioDevices : List AudioDevice
  selectedInput : UInt32
  selectedOutput : UInt32
  credStore : AList fun _ : String ↦ String
  activeLogLevel : LogLevel
  logBuffer : List LogEntry
  pjsipAccMap : AList fun _ : Int ↦ String
  pjsipCallMap : AList fun _ : Int ↦ UInt32
  eventCallback : Bool
  clientSenders : List Nat
  clockReads : Nat

/-- The globals as their `Lazy` initialisers make them (`lib.rs:20–64`). -/
def Engine.initial : Engine where
  initialized := false
  nextCallId := 1
  accounts := ∅
  calls := ∅
  mediaStats := ∅
  audioDevices := [⟨0, "Default Input", .input⟩, ⟨1, "Default Output", .output⟩]
  selectedInput := 0
  selectedOutput := 1
  credStore := ∅
  activeLogLevel := .info
  logBuffer := []
  pjsipAccMap := ∅
  pjsipCallMap := ∅
  eventCallback := false
  clientSenders := []
  clockReads := 0

/-- `LOG_BUFFER_MAX` (`lib.rs:56`). -/
def logBufferMax : Nat := 200

/-- What one run of an operation gets from outside. `clock` lists the readings of the host
clock in milliseconds, `rc` the return values of the shim calls and the `out` fields what
they write through their pointers. -/
structure Env where
  clock : Nat → Nat
  rc : ShimCall → Int
  outText : ShimCall → String
  outInts : ShimCall → Int × Int
  outStream : ShimCall → StreamStat
  outDevices : Nat → DeviceEntry
  fileSize : String → Nat
  pathExtension : String → Option String
  parseJson : String → Option Json
  alive : Nat → Bool
  callOrder : IterOrder Call
  accountOrder : IterOrder Account

/-- What a run does, as seen from outside the engine. -/
inductive Action where
  | lock (act : LockAct Mutex)
  | shim (call : ShimCall)
  | event (type : String) (payload : Json)
  | callback (id : Nat) (payload : Json)
  | ipcSend (client : Nat) (type : String) (payload : Json)
  | ipcRespond (client : Nat) (rc : Int)
  | abort

/-- Engine computations. -/
abbrev Eng (α : Type) := Traced Env Engine Action α

/-- A critical section: the guard of `m` lives exactly as long as `body` runs. -/
def withLock {α : Type} (m : Mutex) (body : Eng α) : Eng α := do
  Traced.emit (.lock (.acquire m))
  let result ← body
  Traced.emit (.lock (.release m))
  return result

/-- The run of a critical section. -/
theorem run_withLock {α : Type} (m : Mutex) (body : Eng α) (e : Env) (s : Engine) :
    (withLock m body).run e s = ⟨(body.run e s).value, (body.run e s).state,
      .lock (.acquire m) :: ((body.run e s).trace ++ [.lock (.release m)])⟩ := by
  simp [withLock]

/-- The executions of a critical section. -/
theorem exec_withLock {α : Type} {m : Mutex} {body : Eng α} {I : Engine → Engine → Prop}
    (hI : ∀ s, I s s) {s s' : Engine} {t : List Action} {a : α}
    (h : (withLock m body).Exec I s t a s') :
    ∃ t₁ s₁, body.Exec I s t₁ a s₁ ∧ I s₁ s' ∧
      t = .lock (.acquire m) :: (t₁ ++ [.lock (.release m)]) := by
  obtain ⟨t', rfl, h⟩ := h
  change (body >>= fun r ↦ Traced.emit (.lock (.release m)) >>= fun _ ↦ pure r).Exec I s t' a s'
    at h
  obtain ⟨t₁, b, s₁, t₂, h₁, h₂, rfl⟩ := Traced.exec_bind hI h
  obtain ⟨_, rfl, rfl, rfl, hs'⟩ := h₂
  exact ⟨t₁, s₁, h₁, hs', rfl⟩

/-- Issue a shim call and return its `i32`. -/
def shim (call : ShimCall) : Eng Int := do
  Traced.emit (.shim call)
  let env ← Traced.ask
  return env.rc call

/-- `now_millis` (`lib.rs:284–289`). -/
def nowMillis : Eng Nat := do
  let env ← Traced.ask
  let s ← Traced.get
  Traced.modify fun s ↦ { s with clockReads := s.clockReads + 1 }
  return env.clock s.clockReads

/-- `now_secs` (`lib.rs:277–282`). -/
def nowSecs : Eng Nat := (· / 1000) <$> nowMillis

/-- `CALLS.values()`, in hash-map order. -/
def callValues : Eng (List Call) := do
  let env ← Traced.ask
  let s ← Traced.get
  return env.callOrder.shuffle (s.calls.entries.map Sigma.snd)

/-- `ACCOUNTS.values()`, in hash-map order. -/
def accountValues : Eng (List Account) := do
  let env ← Traced.ask
  let s ← Traced.get
  return env.accountOrder.shuffle (s.accounts.entries.map Sigma.snd)

/-- `CALLS.insert`, also how a record behind `get_mut` is written back. -/
def insertCall (id : UInt32) (call : Call) : Eng Unit :=
  Traced.modify fun s ↦ { s with calls := s.calls.insert id call }

/-- `ACCOUNTS.insert`, also how a record behind `get_mut` is written back. -/
def insertAccount (id : String) (account : Account) : Eng Unit :=
  Traced.modify fun s ↦ { s with accounts := s.accounts.insert id account }

/-- `PJSIP_CALL_MAP.insert`. -/
def insertPjsipCall (pjCallId : Int) (id : UInt32) : Eng Unit :=
  Traced.modify fun s ↦ { s with pjsipCallMap := s.pjsipCallMap.insert pjCallId id }

/-- `PJSIP_ACC_MAP.insert`. -/
def insertPjsipAcc (pjAccId : Int) (id : String) : Eng Unit :=
  Traced.modify fun s ↦ { s with pjsipAccMap := s.pjsipAccMap.insert pjAccId id }

/-- `PJSIP_ACC_MAP.remove`. -/
def removePjsipAcc (pjAccId : Int) : Eng Unit :=
  Traced.modify fun s ↦ { s with pjsipAccMap := s.pjsipAccMap.erase pjAccId }

/-- `MEDIA_STATS.insert`. -/
def insertMediaStats (id : UInt32) (stats : MediaStats) : Eng Unit :=
  Traced.modify fun s ↦ { s with mediaStats := s.mediaStats.insert id stats }

/-- `NEXT_CALL_ID.fetch_add(1)`: the counter wraps around. -/
def fetchNextCallId : Eng UInt32 := do
  let s ← Traced.get
  Traced.modify fun s ↦ { s with nextCallId := s.nextCallId + 1 }
  return s.nextCallId

end PacketDial.Core
