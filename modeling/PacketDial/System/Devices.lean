import Mathlib.Algebra.Group.Int.Defs
import PacketDial.Lib.Paths
import PacketDial.System.Machine

/-!
# The selected audio devices

`AudioListDevices` builds the list from one answer of PJSIP and the selection from another,
`AudioSetDevices` selects from the list (`core_rust/src/lib.rs:2022–2229`,
`core_rust/src/shim/pjsip_shim.c:1647–1723`).
-/

namespace PacketDial.System

open PacketDial.Core PacketDial.Lib

/-- A sound device of PJSIP (`pjmedia_aud_dev_info`). -/
structure AudDevInfo where
  name : CPtr
  inputCount : Nat
  outputCount : Nat

/-- The kind that `pd_aud_dev_list` gives a device: 2 is both, 0 an input, and 1 any other
(`pjsip_shim.c:1662–1670`). -/
def AudDevInfo.kind (info : AudDevInfo) : Int :=
  let hasInput := 0 < info.inputCount
  let hasOutput := 0 < info.outputCount
  if hasInput ∧ hasOutput then 2
  else if hasInput then 0
  else 1

/-- The device is listed as one of the kind: an input if it has any, and an output if it has any or
has no input. -/
def AudDevInfo.can (info : AudDevInfo) : AudioDeviceKind → Bool
  | .input => 0 < info.inputCount
  | .output => 0 < info.outputCount || info.inputCount == 0

/-- What PJSIP answers: the devices, at most as many as asked for, unless it fails to enumerate
them, and the indices of the devices in use, negative for a default. -/
structure SoundReport where
  infos : Option (List AudDevInfo)
  capture : Int
  playback : Int
  atMost : (infos.getD []).length ≤ maxDeviceCount
  capture_lt : capture < 2 ^ 31
  playback_lt : playback < 2 ^ 31

/-- What `pd_aud_dev_list` returns. -/
def SoundReport.count (report : SoundReport) : Int :=
  match report.infos with
  | none => -1
  | some infos => if infos.length < maxDeviceCount then infos.length else maxDeviceCount

/-- What `pd_aud_dev_list` writes for a device; the rest of the arrays stays zero. -/
def SoundReport.entry (report : SoundReport) (i : Nat) : DeviceEntry :=
  match (report.infos.getD [])[i]? with
  | some info => ⟨i, info.name, info.kind⟩
  | none => ⟨0, .text "", 0⟩

/-- Surroundings in which PJSIP answers with the report. -/
def SoundReport.env (report : SoundReport) (e : Env) : Env :=
  { e with
    rc := fun call ↦ match call with
      | .pdAudDevList => report.count
      | call => e.rc call
    outInts := fun call ↦ match call with
      | .pdAudGetDevs => (report.capture, report.playback)
      | call => e.outInts call
    outDevices := report.entry }

/-- The commands on audio devices. -/
inductive AudioCommand where
  | listDevices
  | setDevices (p : Json)

/-- A command, with what its surroundings answer. -/
structure AudioInput where
  env : Env
  report : SoundReport
  command : AudioCommand

/-- The command, as it is dispatched. -/
def AudioCommand.dispatch : AudioCommand → Eng (Except Halt EngineErrorCode)
  | .listDevices => dispatchCommand "AudioListDevices" .null
  | .setDevices p => dispatchCommand "AudioSetDevices" p

/-- The engine after a command. -/
def audioStep (s : Engine) (i : AudioInput) : Engine :=
  (i.command.dispatch.run (i.report.env i.env) s).state

/-- The list of devices, and the two that are selected. -/
structure DeviceDesk where
  devices : List AudioDevice
  input : UInt32
  output : UInt32

/-- The devices of the engine. -/
def deviceDesk (s : Engine) : DeviceDesk := ⟨s.audioDevices, s.selectedInput, s.selectedOutput⟩

/-- The list has a device of the kind and id. -/
def Lists (devices : List AudioDevice) (kind : AudioDeviceKind) (id : UInt32) : Prop :=
  ∃ d ∈ devices, d.kind = kind ∧ d.id = id

/-- The selected devices are in the list. -/
def SelectedExist (s : Engine) : Prop :=
  Lists s.audioDevices .input s.selectedInput ∧ Lists s.audioDevices .output s.selectedOutput

/-- Among the devices that can do what it is used for there is the one in use, a default being the
first; where no device can, the default or the first is in use. -/
def Offered (infos : List AudDevInfo) (kind : AudioDeviceKind) (used : Int) : Prop :=
  if infos.any (·.can kind) then ∃ info, infos[used.toNat]? = some info ∧ info.can kind = true
  else used ≤ 0

/-- A list command finds the devices in use among those that it is told of. -/
def FindsSelection (i : AudioInput) : Prop :=
  match i.command with
  | .listDevices =>
    Offered (i.report.infos.getD []) .input i.report.capture ∧
      Offered (i.report.infos.getD []) .output i.report.playback
  | .setDevices _ => True

section Frames

variable {α : Type} {e : Env} {s : Engine} {m : Mutex} {x : Eng α}

/-- A computation that leaves the devices alone. -/
abbrev KeepsDesk (x : Eng α) : Prop := Traced.Admits (Traced.Keeps deviceDesk) x

/-- The rule for an update that leaves the devices alone. -/
theorem keepsDesk_modify {f : Engine → Engine} (h : ∀ s, deviceDesk (f s) = deviceDesk s) :
    KeepsDesk (Traced.modify f) := Traced.admits_modify h

/-- A lock leaves the devices alone. -/
theorem keepsDesk_withLock (h : KeepsDesk x) : KeepsDesk (withLock m x) := by
  unfold withLock
  refine (Traced.admits_emit fun _ ↦ rfl).bind fun _ ↦ h.bind fun _ ↦ ?_
  exact (Traced.admits_emit fun _ ↦ rfl).bind fun _ ↦ Traced.admits_pure _

/-- An event leaves the devices alone. -/
theorem keepsDesk_pushEvent (type : String) (payload : Json) :
    KeepsDesk (pushEvent type payload) := by
  have hbroadcast : KeepsDesk (broadcastIpc type payload) := by
    apply keepsDesk_withLock
    refine Traced.admits_ask.bind fun _ ↦ Traced.admits_get.bind fun _ ↦ ?_
    refine (Traced.admits_each (fun _ ↦ Traced.admits_emit fun _ ↦ rfl) _).bind fun _ ↦ ?_
    exact keepsDesk_modify (by intro; rfl)
  have hinvoke (id : Nat) : KeepsDesk (invokeEventCallback id payload) := by
    apply keepsDesk_withLock
    refine Traced.admits_get.bind fun _ ↦ Traced.admits_ite ?_ (Traced.admits_pure ())
    refine (keepsDesk_withLock (Traced.admits_pure ())).bind fun _ ↦ ?_
    exact Traced.admits_emit fun _ ↦ rfl
  unfold pushEvent deliverEvent
  refine (Traced.admits_emit fun _ ↦ rfl).bind fun _ ↦ ?_
  split
  · exact (hinvoke _).bind fun _ ↦ hbroadcast
  · exact (Traced.admits_pure ()).bind fun _ ↦ hbroadcast

/-- Logging leaves the devices alone. -/
theorem keepsDesk_logEngine (level : LogLevel) (message : String) :
    KeepsDesk (logEngine level message) := by
  have hnow : KeepsDesk nowMillis := by
    unfold nowMillis
    refine Traced.admits_ask.bind fun _ ↦ Traced.admits_get.bind fun _ ↦ ?_
    exact (keepsDesk_modify (by intro; rfl)).bind fun _ ↦ Traced.admits_pure _
  unfold logEngine nowSecs
  refine (hnow.map _).bind fun ts ↦ Traced.admits_get.bind fun s ↦ ?_
  dsimp only
  refine (keepsDesk_withLock (keepsDesk_modify (by intro; rfl))).bind fun _ ↦ ?_
  exact Traced.admits_ite (keepsDesk_pushEvent _ _) (Traced.admits_pure ())

/-- After logging, the devices are what they were. -/
@[simp] theorem deviceDesk_logEngine (level : LogLevel) (message : String) (e : Env) (s : Engine) :
    deviceDesk ((logEngine level message).run e s).state = deviceDesk s :=
  (keepsDesk_logEngine level message).run e s

/-- After a call into the shim, the devices are what they were. -/
@[simp] theorem deviceDesk_shim (call : ShimCall) (e : Env) (s : Engine) :
    deviceDesk ((shim call).run e s).state = deviceDesk s := rfl

/-- After an event, the devices are what they were. -/
@[simp] theorem deviceDesk_pushEvent (type : String) (payload : Json) (e : Env) (s : Engine) :
    deviceDesk ((pushEvent type payload).run e s).state = deviceDesk s :=
  (keepsDesk_pushEvent type payload).run e s

end Frames

section Lists

/-- A list with a fallback device of a kind that is missing. -/
def ensured (kind : AudioDeviceKind) (name : String) (devices : List AudioDevice) :
    List AudioDevice :=
  if devices.any (·.kind == kind) then devices else devices ++ [⟨0, name, kind⟩]

/-- A fallback device is added to the list. -/
theorem deviceDesk_ensureDevice (kind : AudioDeviceKind) (what name : String) (e : Env)
    (s : Engine) : deviceDesk ((ensureDevice kind what name).run e s).state =
      { deviceDesk s with devices := ensured kind name (deviceDesk s).devices } := by
  unfold ensureDevice ensured
  rw [Traced.run_bind, Traced.run_get]
  by_cases h : s.audioDevices.any (·.kind == kind)
  · simp [h, deviceDesk]
  · have hlog := deviceDesk_logEngine .warn s!"No {what} devices found, adding fallback device" e s
    simp only [deviceDesk, DeviceDesk.mk.injEq] at hlog
    simp [h, deviceDesk, hlog]

/-- The entries that the loop reads, without its logging. -/
theorem value_readDevices (entries : List DeviceEntry) (e : Env) (s : Engine) :
    ((readDevices entries).run e s).value = entries.flatMap fun entry ↦
      deviceEntries entry.id (entry.name.toStr.getD "Unknown") entry.kind := by
  induction entries generalizing s with
  | nil => rfl
  | cons entry rest ih => simp [readDevices, ih]

/-- The device that the engine takes for the one in use (`lib.rs:2087–2088`). -/
def chosen (used : Int) : UInt32 := if 0 ≤ used then i32AsU32 used else 0

/-- What the rest of a list command leaves, given the devices that it read. -/
theorem deviceDesk_publishDevices (realDevices : List AudioDevice) (e : Env) (s : Engine) :
    deviceDesk ((publishDevices realDevices).run e s).state =
      { devices := ensured .output "System Default Output"
          (ensured .input "System Default Input" realDevices)
        input := chosen (e.outInts .pdAudGetDevs).1
        output := chosen (e.outInts .pdAudGetDevs).2 } := by
  simp only [publishDevices, Traced.run_bind, Traced.run_discard, Traced.run_ask, run_withLock,
    Traced.run_modify, Traced.run_get, Traced.run_pure, deviceDesk_pushEvent,
    deviceDesk_ensureDevice]
  rfl

/-- The entries of the devices that PJSIP reports. -/
def SoundReport.listed (report : SoundReport) : List AudioDevice :=
  (List.range (report.infos.getD []).length).flatMap fun i ↦
    let entry := report.entry i
    deviceEntries entry.id (entry.name.toStr.getD "Unknown") entry.kind

/-- What a list command leaves. -/
theorem deviceDesk_listDevices (report : SoundReport) (e : Env) (s : Engine) :
    deviceDesk (audioStep s ⟨e, report, .listDevices⟩) =
      { devices := ensured .output "System Default Output"
          (ensured .input "System Default Input" report.listed)
        input := chosen report.capture
        output := chosen report.playback } := by
  have hrc : (report.env e).rc .pdAudDevList = report.count := rfl
  have hints : (report.env e).outInts .pdAudGetDevs = (report.capture, report.playback) := rfl
  change deviceDesk ((cmdAudioListDevices.run (report.env e) s).state) = _
  unfold cmdAudioListDevices
  simp only [Traced.run_bind, shim, Traced.run_emit, Traced.run_ask, Traced.run_pure]
  rw [hrc]
  cases hinfos : report.infos with
  | none =>
    have hcount : report.count = -1 := by rw [SoundReport.count, hinfos]
    have hlisted : report.listed = [] := by rw [SoundReport.listed, hinfos]; rfl
    rw [hcount, if_pos (by decide), hlisted]
    simp only [Traced.run_bind, Traced.run_map, deviceDesk_publishDevices, hints]
  | some infos =>
    have hatMost : infos.length ≤ maxDeviceCount := by
      have h := report.atMost
      rwa [hinfos] at h
    have hcount : report.count = infos.length := by
      rw [SoundReport.count, hinfos]
      dsimp only
      split <;> omega
    have hmin : min (infos.length : Int).toNat maxDeviceCount = infos.length := by
      rw [Int.toNat_natCast, min_eq_left hatMost]
    have hlisted : report.listed = ((List.range infos.length).map report.entry).flatMap fun entry ↦
        deviceEntries entry.id (entry.name.toStr.getD "Unknown") entry.kind := by
      rw [SoundReport.listed, hinfos, List.flatMap_map]
      rfl
    rw [hcount, if_neg (Int.not_lt.mpr (Int.natCast_nonneg _)), hlisted]
    simp only [Traced.run_bind, Traced.run_ask, hmin, value_readDevices]
    rw [if_neg (Int.not_lt.mpr (Int.ofNat_le.mpr hatMost))]
    simp only [Traced.run_map, deviceDesk_publishDevices, hints]
    rfl

end Lists

section Selections

variable {devices : List AudioDevice} {kind other : AudioDeviceKind} {id : UInt32}

/-- A list with a fallback device has the devices it had; where it had none of the kind, it has the
fallback device. -/
theorem lists_ensured (name : String) : Lists (ensured kind name devices) kind id ↔
    if devices.any (·.kind == kind) then Lists devices kind id else id = 0 := by
  unfold ensured
  split
  · exact Iff.rfl
  · next h =>
    have hnone : ∀ d ∈ devices, d.kind ≠ kind := by simpa using h
    constructor
    · rintro ⟨d, hd, hkind, hid⟩
      rcases List.mem_append.mp hd with hd | hd
      · exact absurd hkind (hnone d hd)
      · cases List.mem_singleton.mp hd
        exact hid.symm
    · intro hid
      exact ⟨⟨0, name, kind⟩, List.mem_append_right _ (List.mem_singleton_self _), rfl, hid.symm⟩

/-- A fallback device of another kind does not count. -/
theorem lists_ensured_of_ne (h : other ≠ kind) (name : String) :
    Lists (ensured other name devices) kind id ↔ Lists devices kind id := by
  unfold ensured
  split
  · exact Iff.rfl
  · constructor
    · rintro ⟨d, hd, hkind, hid⟩
      rcases List.mem_append.mp hd with hd | hd
      · exact ⟨d, hd, hkind, hid⟩
      · cases List.mem_singleton.mp hd
        exact absurd hkind h
    · rintro ⟨d, hd, hkind, hid⟩
      exact ⟨d, List.mem_append_left _ hd, hkind, hid⟩

/-- Nor does it matter to the fallback device of the kind. -/
theorem lists_ensured_ensured (h : other ≠ kind) (name name' : String) :
    Lists (ensured kind name (ensured other name' devices)) kind id ↔
      Lists (ensured kind name devices) kind id := by
  have hany : (ensured other name' devices).any (·.kind == kind) =
      devices.any (·.kind == kind) := by
    unfold ensured
    split
    · rfl
    · simp [h]
  rw [lists_ensured, lists_ensured, hany, lists_ensured_of_ne h]

/-- A device that can be used as an input is given a kind that is listed as one. -/
theorem kind_input (info : AudDevInfo) :
    (info.kind = 0 ∨ info.kind = 2) ↔ info.can .input = true := by
  unfold AudDevInfo.kind AudDevInfo.can
  dsimp only
  split_ifs with hboth hin
  · simp [hboth.1]
  · simp [hin]
  · simp [hin]

/-- A device that can be used as an output is given a kind that is listed as one. -/
theorem kind_output (info : AudDevInfo) :
    (info.kind = 1 ∨ info.kind = 2) ↔ info.can .output = true := by
  unfold AudDevInfo.kind AudDevInfo.can
  dsimp only
  split_ifs with hboth hin
  · simp [hboth.2]
  · have hout : info.outputCount = 0 := by omega
    simp [hout, Nat.pos_iff_ne_zero.mp hin]
  · have hzero : info.inputCount = 0 := by omega
    simp [hzero]

/-- A device is listed under each kind that it can do. -/
theorem lists_deviceEntries (i : Int) (name : String) (info : AudDevInfo) :
    Lists (deviceEntries i name info.kind) kind id ↔ info.can kind = true ∧ i32AsU32 i = id := by
  unfold Lists deviceEntries
  simp only [kind_input, kind_output, List.mem_append, List.mem_ite_nil_right, List.mem_singleton]
  constructor
  · rintro ⟨d, ⟨hcan, rfl⟩ | ⟨hcan, rfl⟩, rfl, rfl⟩
    · exact ⟨hcan, rfl⟩
    · exact ⟨hcan, rfl⟩
  · rintro ⟨hcan, rfl⟩
    cases kind with
    | input => exact ⟨_, .inl ⟨hcan, rfl⟩, rfl, rfl⟩
    | output => exact ⟨_, .inr ⟨hcan, rfl⟩, rfl, rfl⟩

/-- The list that PJSIP's report makes has the devices that it reports. -/
theorem lists_listed {report : SoundReport} : Lists report.listed kind id ↔
    ∃ (i : Nat) (info : AudDevInfo), (report.infos.getD [])[i]? = some info ∧
      info.can kind = true ∧ i32AsU32 i = id := by
  have hentry {i : Nat} {info : AudDevInfo} (h : (report.infos.getD [])[i]? = some info) :
      report.entry i = ⟨i, info.name, info.kind⟩ := by
    rw [SoundReport.entry, h]
  constructor
  · rintro ⟨d, hd, hkind, hid⟩
    obtain ⟨i, hi, hd⟩ := List.mem_flatMap.mp hd
    have hsome := List.getElem?_eq_getElem (List.mem_range.mp hi)
    rw [hentry hsome] at hd
    exact ⟨i, _, hsome, (lists_deviceEntries _ _ _).mp ⟨d, hd, hkind, hid⟩⟩
  · rintro ⟨i, info, hsome, hcan⟩
    obtain ⟨d, hd, hkind, hid⟩ :=
      (lists_deviceEntries i (info.name.toStr.getD "Unknown") info).mpr hcan
    obtain ⟨hi, -⟩ := List.getElem?_eq_some_iff.mp hsome
    refine ⟨d, List.mem_flatMap.mpr ⟨i, List.mem_range.mpr hi, ?_⟩, hkind, hid⟩
    rw [hentry hsome]
    exact hd

/-- The index of a device is the chosen one just if the device is in use. -/
theorem i32AsU32_eq_chosen {i : Nat} {used : Int} (hi : i < 2 ^ 32) (hused : used < 2 ^ 31) :
    i32AsU32 i = chosen used ↔ i = used.toNat := by
  have hchosen : chosen used = i32AsU32 used.toNat := by
    unfold chosen
    split
    · next h => rw [Int.toNat_of_nonneg h]
    · next h =>
      rw [Int.toNat_of_nonpos (by omega)]
      rfl
  have htoNat (n : Nat) : (i32AsU32 n).toNat = n % 2 ^ 32 := by
    rw [i32AsU32, BitVec.ofInt_natCast]
    exact BitVec.toNat_ofNat n 32
  rw [hchosen, ← UInt32.toNat_inj, htoNat, htoNat]
  omega

/-- The list has a device of a kind just if PJSIP reports one that can do it. -/
theorem any_listed (report : SoundReport) :
    report.listed.any (·.kind == kind) = (report.infos.getD []).any (·.can kind) := by
  rw [Bool.eq_iff_iff, List.any_eq_true, List.any_eq_true]
  constructor
  · rintro ⟨d, hd, hkind⟩
    obtain ⟨i, info, hsome, hcan, -⟩ := lists_listed.mp ⟨d, hd, eq_of_beq hkind, rfl⟩
    exact ⟨info, List.mem_of_getElem? hsome, hcan⟩
  · rintro ⟨info, hinfo, hcan⟩
    obtain ⟨i, hsome⟩ := List.mem_iff_getElem?.mp hinfo
    obtain ⟨d, hd, hkind, -⟩ := lists_listed.mpr ⟨i, info, hsome, hcan, rfl⟩
    exact ⟨d, hd, beq_iff_eq.mpr hkind⟩

/-- The list that a list command makes has the chosen device just if the device in use is among
those offered. -/
theorem lists_chosen {report : SoundReport} {used : Int} (name : String) (hused : used < 2 ^ 31) :
    Lists (ensured kind name report.listed) kind (chosen used) ↔
      Offered (report.infos.getD []) kind used := by
  have hsmall : maxDeviceCount < 2 ^ 32 := by decide
  rw [lists_ensured, any_listed, Offered]
  split
  · rw [lists_listed]
    constructor
    · rintro ⟨i, info, hsome, hcan, hid⟩
      obtain ⟨hi, -⟩ := List.getElem?_eq_some_iff.mp hsome
      have hlt : i < 2 ^ 32 := (hi.trans_le report.atMost).trans hsmall
      rw [(i32AsU32_eq_chosen hlt hused).mp hid] at hsome
      exact ⟨info, hsome, hcan⟩
    · rintro ⟨info, hsome, hcan⟩
      obtain ⟨hi, -⟩ := List.getElem?_eq_some_iff.mp hsome
      have hlt : used.toNat < 2 ^ 32 := (hi.trans_le report.atMost).trans hsmall
      exact ⟨used.toNat, info, hsome, hcan, (i32AsU32_eq_chosen hlt hused).mpr rfl⟩
  · have hzero := i32AsU32_eq_chosen (i := 0) (by decide) hused
    rw [eq_comm, show (0 : UInt32) = i32AsU32 (0 : Nat) from rfl, hzero]
    omega

end Selections

section Steps

variable {s : Engine} {i : AudioInput}

/-- The end of a set command selects the two devices. -/
theorem deviceDesk_select (level : LogLevel) (message : String) (news : Json)
    (input output : UInt32) (e : Env) (s : Engine) :
    deviceDesk ((do
      logEngine level message
      Traced.modify fun s ↦ { s with selectedInput := input, selectedOutput := output }
      pushEvent "AudioDevicesSet" news
      return EngineErrorCode.ok : Eng EngineErrorCode).run e s).state =
        { deviceDesk s with input, output } := by
  simp only [Traced.run_bind, Traced.run_pure, Traced.run_modify, deviceDesk_pushEvent]
  rw [← deviceDesk_logEngine level message e s]
  rfl

/-- A set command leaves the devices alone, or selects two that are in the list. -/
theorem deviceDesk_setDevices (p : Json) (e : Env) (s : Engine) :
    deviceDesk ((cmdAudioSetDevices p).run e s).state = deviceDesk s ∨
      ∃ input output, Lists s.audioDevices .input input ∧ Lists s.audioDevices .output output ∧
        deviceDesk ((cmdAudioSetDevices p).run e s).state = ⟨s.audioDevices, input, output⟩ := by
  unfold cmdAudioSetDevices
  split
  · next inputId outputId hinput houtput =>
    rw [Traced.run_bind]
    simp only [run_withLock, Traced.run_bind, Traced.run_get, Traced.run_pure]
    split
    · left
      simp only [Traced.run_bind, Traced.run_pure, deviceDesk_logEngine]
    · next hfound =>
      rw [Bool.or_eq_true, not_or, Bool.not_eq_true', Bool.not_eq_false, Bool.not_eq_true',
        Bool.not_eq_false] at hfound
      have lists {kind : AudioDeviceKind} {id : UInt32}
          (h : (s.audioDevices.find? fun d ↦ d.id == id && d.kind == kind).isSome = true) :
          Lists s.audioDevices kind id := by
        obtain ⟨d, hd, hmatches⟩ := List.find?_isSome.mp h
        obtain ⟨hid, hkind⟩ := Bool.and_eq_true_iff.mp hmatches
        exact ⟨d, hd, eq_of_beq hkind, eq_of_beq hid⟩
      refine .inr ⟨inputId, outputId, lists hfound.1, lists hfound.2, ?_⟩
      -- Whatever the shim returns, the devices are selected.
      rw [Traced.run_bind]
      split <;> rw [deviceDesk_select, deviceDesk_shim, deviceDesk_logEngine] <;> rfl
  · exact .inl rfl

/-- What a dispatched set command leaves. -/
theorem audioStep_setDevices (e : Env) (report : SoundReport) (p : Json) (s : Engine) :
    audioStep s ⟨e, report, .setDevices p⟩ =
      ((cmdAudioSetDevices p).run (report.env e) s).state := by
  change ((Except.ok <$> cmdAudioSetDevices p).run (report.env e) s).state = _
  rw [Traced.run_map]

/-- From a state where the selected devices are in the list, a command leads to another just if it
is a set command or finds the devices in use. -/
theorem selectedExist_step_iff (h : SelectedExist s) :
    SelectedExist (audioStep s i) ↔ FindsSelection i := by
  obtain ⟨e, report, command⟩ := i
  cases command with
  | listDevices =>
    have hdesk := deviceDesk_listDevices report e s
    injection hdesk with hdevices hinput houtput
    rw [SelectedExist, hdevices, hinput, houtput, lists_ensured_of_ne (by decide),
      lists_chosen _ report.capture_lt, lists_ensured_ensured (by decide),
      lists_chosen _ report.playback_lt]
    exact Iff.rfl
  | setDevices p =>
    apply iff_of_true ?_ trivial
    rw [audioStep_setDevices]
    rcases deviceDesk_setDevices p (report.env e) s with hsame | ⟨input, output, hin, hout, hset⟩
    · injection hsame with hdevices hinput houtput
      rw [SelectedExist, hdevices, hinput, houtput]
      exact h
    · injection hset with hdevices hinput houtput
      rw [SelectedExist, hdevices, hinput, houtput]
      exact ⟨hin, hout⟩

end Steps

/-- The engine after `engine_init`, before any command. -/
def startedEngine : Engine := { Engine.initial with initialized := true }

/-- The selected devices are in the list from the start. -/
theorem selectedExist_started : SelectedExist startedEngine :=
  ⟨⟨_, .head _, rfl, rfl⟩, ⟨_, .tail _ (.head _), rfl, rfl⟩⟩

/-- After every sequence of commands the selected devices are in the list, if and only if every list
command finds the devices in use among those that it is told of. -/
theorem selected_devices_iff (is : List AudioInput) :
    (∀ first, first <+: is → SelectedExist (first.foldl audioStep startedEngine)) ↔
      ∀ i ∈ is, FindsSelection i :=
  foldl_always_iff (fun s i h ↦ selectedExist_step_iff (s := s) (i := i) h) is
    selectedExist_started

/-- A loudspeaker, and then a microphone; the default devices are in use. -/
def defaultReport : SoundReport where
  infos := some [⟨.text "Loudspeaker", 0, 2⟩, ⟨.text "Microphone", 1, 0⟩]
  capture := -1
  playback := -1
  atMost := by decide
  capture_lt := by decide
  playback_lt := by decide

/-- The loudspeaker is taken for the default microphone. -/
theorem default_input_not_listed :
    ¬SelectedExist (audioStep startedEngine ⟨quietEnv, defaultReport, .listDevices⟩) := by
  rw [selectedExist_step_iff selectedExist_started]
  rintro ⟨⟨info, hinfo, hcan⟩, -⟩
  cases hinfo
  cases hcan

end PacketDial.System
