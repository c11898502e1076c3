import PacketDial.Lib.Strands
import PacketDial.System.AccountSteps

/-!
# Account operations cut into steps

`AccountRegister`, `AccountUnregister`, `AccountDeleteProfile` and the registration callback as
strands: a critical section, a call into the shim, an event or a log entry is one step. The UI
thread, one thread for each IPC client and PJSIP's worker thread interleave them.
-/

namespace PacketDial.System

open PacketDial.Core PacketDial.Lib

/-- A registration callback without its PJSIP id. -/
structure RegReport where
  expires : Int
  statusCode : Int
  reason : CPtr
  deriving DecidableEq

/-- The steps of the account operations that matter. -/
inductive AccountMark where
  /-- A command took the PJSIP id, if any, out of the account, or deleted the account. -/
  | took (pjId : Option Int)
  /-- `pd_acc_remove` returned. -/
  | removed (pjId : Int)
  /-- The id was removed from `PJSIP_ACC_MAP`. -/
  | unmapped (pjId : Int)
  /-- `pd_acc_add` returned an id. -/
  | added (pjId : Int)
  /-- The id was stored in the account, if the account was there. -/
  | stored (pjId : Int)
  /-- The id was entered in `PJSIP_ACC_MAP`. -/
  | mapped (pjId : Int)
  /-- A callback looked its account up. -/
  | looked (report : RegReport)
  /-- A callback wrote the state of its account. -/
  | recorded (report : RegReport)
  deriving DecidableEq

/-- Account operations cut into steps. -/
abbrev AccountStrand (α : Type) := Strand Env Engine Action AccountMark α

section Callback

/-- The text of a reason. -/
def RegReport.text (r : RegReport) : String :=
  match r.reason with
  | .null => ""
  | .text s => s
  | .invalidUtf8 => "<invalid UTF-8>"

/-- The state that the report means. -/
def RegReport.state (r : RegReport) : RegistrationState :=
  reportedRegState r.expires r.statusCode r.text

/-- `pjsip_on_reg_state` where the account is known. -/
def recordStrand (r : RegReport) (reason accountId : String) : AccountStrand Unit := do
  let newState := reportedRegState r.expires r.statusCode reason
  Strand.marked (.recorded r) (withLock .accounts (setRegState accountId newState))
  Strand.plain (pushRegState accountId newState)
  let name := newState.variantName
  Strand.plain <| logEngine .info <| s!"Account '{accountId}' registration: {name} " ++
    s!"(expires={r.expires}, code={r.statusCode})"

/-- The account of a registration callback. -/
def routeReport (pjAccId : Int) : Eng (Option String) :=
  withLock .pjsipAccMap do
    return (← Traced.get).pjsipAccMap.lookup pjAccId

/-- `pjsip_on_reg_state` after the look-up. -/
def answerStrand (pjAccId : Int) (r : RegReport) (reason : String) :
    Option String → AccountStrand Unit
  | none => Strand.plain (logEngine .warn s!"pjsip_on_reg_state: unknown pj_acc_id={pjAccId}")
  | some accountId => recordStrand r reason accountId

/-- `pjsip_on_reg_state` from the look-up on. -/
def lookStrand (pjAccId : Int) (r : RegReport) (reason : String) : AccountStrand Unit := do
  answerStrand pjAccId r reason (← Strand.marked (.looked r) (routeReport pjAccId))

/-- `pjsip_on_reg_state`. -/
def regStateStrand (pjAccId : Int) (r : RegReport) : AccountStrand Unit := do
  lookStrand pjAccId r (← Strand.plain (reasonText "pjsip_on_reg_state" r.reason))

/-- It cuts the callback. -/
theorem flatten_regStateStrand (pjAccId : Int) (r : RegReport) :
    (regStateStrand pjAccId r).flatten =
      pjsipOnRegState pjAccId r.expires r.statusCode r.reason := by
  unfold regStateStrand pjsipOnRegState
  rw [Strand.flatten_bind, Strand.flatten_plain]
  congr
  funext reason
  unfold lookStrand
  rw [Strand.flatten_bind, Strand.flatten_marked]
  congr
  funext found
  cases found with
  | none => exact Strand.flatten_plain _
  | some accountId =>
    simp only [answerStrand, recordStrand, Strand.flatten_bind, Strand.flatten_marked,
      Strand.flatten_plain]
    rfl

/-- PJSIP's worker thread: callbacks for one PJSIP account, one after the other. -/
def workerStrand (pjAccId : Int) : List RegReport → AccountStrand Unit
  | [] => pure ()
  | r :: rest => do
    regStateStrand pjAccId r
    workerStrand pjAccId rest

end Callback

section Commands

/-- The removal of a PJSIP account. -/
def removeStrand (pjId : Int) : AccountStrand Unit := do
  Strand.marked (.removed pjId) (discard <| shim (.pdAccRemove pjId))
  Strand.marked (.unmapped pjId) (withLock .pjsipAccMap (removePjsipAcc pjId))

/-- The removal of the PJSIP account that an account had, if any. -/
def forgetStrand (pjId : Option Int) (text : Int → String) : AccountStrand Unit :=
  match pjId with
  | some pjId => do
    removeStrand pjId
    Strand.plain (logEngine .info (text pjId))
  | none => pure ()

/-- It cuts the removal. -/
theorem flatten_forgetStrand (pjId : Option Int) (text : Int → String) :
    (forgetStrand pjId text).flatten = forgetPjsipAccount pjId text := by
  cases pjId with
  | none => rfl
  | some pjId => simp [forgetStrand, forgetPjsipAccount, removeStrand, removePjsipAccount]

/-- Store the PJSIP id of an account that is there. -/
def storePjsipAccId (id : String) (pjAccId : Int) : Eng Unit :=
  withLock .accounts do
    match (← Traced.get).accounts.lookup id with
    | some a => insertAccount id { a with pjsipAccId := some pjAccId }
    | none => pure ()

/-- The success path of `AccountRegister` where the id is stored. -/
def mapStrand (id : String) (pjAccId : Int) : AccountStrand EngineErrorCode := do
  Strand.marked (.mapped pjAccId) (withLock .pjsipAccMap (insertPjsipAcc pjAccId id))
  Strand.plain (logEngine .info s!"Account '{id}' registering via PJSIP (pj_acc_id={pjAccId})")
  return .ok

/-- The success path of `AccountRegister`. -/
def startedStrand (id : String) (pjAccId : Int) : AccountStrand EngineErrorCode := do
  Strand.marked (.stored pjAccId) (storePjsipAccId id pjAccId)
  mapStrand id pjAccId

/-- `AccountRegister` from `pd_acc_add` on. -/
def addStrand (id : String) (args : AccAddArgs) : AccountStrand EngineErrorCode := do
  let pjAccId ← Strand.noting (fun rc ↦ if rc < 0 then none else some (.added rc))
    (shim (.pdAccAdd args))
  if pjAccId < 0 then Strand.plain (registerFailed id) else startedStrand id pjAccId

/-- The transition to `Registering` where the old id was taken. -/
def tookStrand (id : String) (acct : Account) (oldPjId : Option Int) : AccountStrand Unit := do
  match oldPjId with
  | some oldId => removeStrand oldId
  | none => pure ()
  Strand.plain <| pushEvent "RegistrationStateChanged" (.obj
    [("account_id", .str id), ("account_name", .str acct.accountName),
      ("display_name", .str acct.displayName), ("state", .str "Registering"),
      ("reason", .str "")])

/-- The transition to `Registering`. -/
def beginStrand (id : String) (acct : Account) : AccountStrand Unit := do
  if acct.tlsEnabled && acct.transport != "tls" then
    Strand.plain <| logEngine .warn <|
      s!"Account '{id}': tls_enabled is true but transport is not 'tls'. " ++
        "Forcing TLS transport."
  tookStrand id acct <| ← Strand.noting (fun pjId ↦ some (.took pjId))
    (withLock .accounts (takePjsipAccId id .registering))

/-- `AccountRegister`. -/
def registerStrand (p : Json) : AccountStrand EngineErrorCode :=
  match accountKey p with
  | none => return .invalidJson
  | some id => do
    match ← Strand.plain (lookupForRegister id) with
    | none => return .notFound
    | some acct =>
      beginStrand id acct
      match accAddArgs acct with
      | .error what =>
        Strand.plain (logEngine .error s!"Account '{id}': {what} contains NUL byte")
        return .internalError
      | .ok args => addStrand id args

/-- The critical section of `AccountUnregister`. -/
def takeForUnregister (id : String) : Eng (Bool × Option Int) :=
  withLock .accounts do
    let known := ((← Traced.get).accounts.lookup id).isSome
    return (known, ← takePjsipAccId id .unregistered)

/-- `AccountUnregister` once the id is taken. -/
def unregisteredStrand (id : String) (pjId : Option Int) : AccountStrand EngineErrorCode := do
  forgetStrand pjId fun pjId ↦ s!"Account '{id}' unregistered via PJSIP (pj_acc_id={pjId})"
  Strand.plain (pushRegState id .unregistered)
  return .ok

/-- `AccountUnregister`. -/
def unregisterStrand (p : Json) : AccountStrand EngineErrorCode :=
  match accountKey p with
  | none => return .invalidJson
  | some id => do
    let found ← Strand.noting (fun found ↦ some (.took found.2)) (takeForUnregister id)
    if !found.1 then return .notFound else unregisteredStrand id found.2

/-- The critical section of `AccountDeleteProfile`. -/
def eraseAccount (uuid : String) : Eng (Option Account) :=
  withLock .accounts do
    let found := (← Traced.get).accounts.lookup uuid
    Traced.modify fun s ↦ { s with accounts := s.accounts.erase uuid }
    return found

/-- `AccountDeleteProfile` once the account is erased. -/
def deletedStrand (uuid : String) (acct : Account) : AccountStrand EngineErrorCode := do
  forgetStrand acct.pjsipAccId fun pjId ↦
    s!"Account '{uuid}' removed from PJSIP (pj_acc_id={pjId})"
  Strand.plain (shimDeleteProfile uuid)
  Strand.plain (logEngine .info s!"Account '{uuid}' profile deleted from engine")
  Strand.plain (pushRegState uuid .unregistered)
  Strand.plain <| pushEvent "AccountProfileDeleted" (.obj [("success", .bool true),
    ("error", .null)])
  return .ok

/-- `AccountDeleteProfile`. -/
def deleteProfileStrand (p : Json) : AccountStrand EngineErrorCode :=
  match (p.get "uuid").asStr with
  | none => return .invalidJson
  | some uuid => do
    let found ← Strand.noting (fun found ↦ some (.took (found.bind (·.pjsipAccId))))
      (eraseAccount uuid)
    match found with
    | none => return .notFound
    | some acct => deletedStrand uuid acct

/-- It cuts the success path. -/
theorem flatten_startedStrand (id : String) (pjAccId : Int) :
    (startedStrand id pjAccId).flatten = registerStarted id pjAccId := by
  simp only [startedStrand, mapStrand, Strand.flatten_bind, Strand.flatten_marked,
    Strand.flatten_plain]
  rfl

/-- It cuts the removal. -/
theorem flatten_removeStrand (pjId : Int) :
    (removeStrand pjId).flatten = removePjsipAccount pjId := by
  simp only [removeStrand, Strand.flatten_bind, Strand.flatten_marked]
  rfl

/-- It cuts the transition. -/
theorem flatten_beginStrand (id : String) (acct : Account) :
    (beginStrand id acct).flatten = beginRegistration id acct := by
  have took (oldPjId : Option Int) : (tookStrand id acct oldPjId).flatten =
      (oldPjId.map removePjsipAccount).getD (pure ()) >>= fun _ ↦
        pushEvent "RegistrationStateChanged" (.obj
          [("account_id", .str id), ("account_name", .str acct.accountName),
            ("display_name", .str acct.displayName), ("state", .str "Registering"),
            ("reason", .str "")]) := by
    cases oldPjId with
    | none => exact Strand.flatten_plain _
    | some oldId =>
      simp only [tookStrand, Strand.flatten_bind, flatten_removeStrand, Strand.flatten_plain]
      rfl
  unfold beginStrand beginRegistration
  split
  · simp only [Strand.flatten_bind, Strand.flatten_noting, Strand.flatten_plain, took]
    congr
    funext _
    congr
    funext oldPjId
    cases oldPjId <;> rfl
  · simp only [Strand.flatten_bind, Strand.flatten_noting, took]
    congr
    funext oldPjId
    cases oldPjId <;> rfl

/-- It cuts the command from `pd_acc_add` on. -/
theorem flatten_addStrand (id : String) (args : AccAddArgs) :
    (addStrand id args).flatten = (do
      let pjAccId ← shim (.pdAccAdd args)
      if pjAccId < 0 then registerFailed id else registerStarted id pjAccId) := by
  unfold addStrand
  rw [Strand.flatten_bind, Strand.flatten_noting]
  congr
  funext pjAccId
  split
  · exact Strand.flatten_plain _
  · exact flatten_startedStrand id pjAccId

/-- It cuts the command. -/
theorem flatten_registerStrand (p : Json) :
    (registerStrand p).flatten = cmdAccountRegister p := by
  unfold registerStrand cmdAccountRegister
  cases accountKey p with
  | none => rfl
  | some id =>
    dsimp only
    rw [Strand.flatten_bind, Strand.flatten_plain]
    congr
    funext found
    cases found with
    | none => rfl
    | some acct =>
      dsimp only
      rw [Strand.flatten_bind, flatten_beginStrand]
      congr
      funext _
      cases accAddArgs acct with
      | error what =>
        dsimp only
        rw [Strand.flatten_bind, Strand.flatten_plain]
        rfl
      | ok args => exact flatten_addStrand id args

/-- It cuts the command. -/
theorem flatten_unregisterStrand (p : Json) :
    (unregisterStrand p).flatten = cmdAccountUnregister p := by
  unfold unregisterStrand cmdAccountUnregister
  cases accountKey p with
  | none => rfl
  | some id =>
    dsimp only
    rw [Strand.flatten_bind, Strand.flatten_noting]
    congr
    funext found
    obtain ⟨known, pjId⟩ := found
    dsimp only
    split
    · rfl
    · simp only [unregisteredStrand, Strand.flatten_bind, Strand.flatten_plain,
        flatten_forgetStrand]
      rfl

/-- It cuts the command. -/
theorem flatten_deleteProfileStrand (p : Json) :
    (deleteProfileStrand p).flatten = cmdAccountDeleteProfile p := by
  unfold deleteProfileStrand cmdAccountDeleteProfile
  cases (p.get "uuid").asStr with
  | none => rfl
  | some uuid =>
    dsimp only
    rw [Strand.flatten_bind, Strand.flatten_noting]
    congr
    funext found
    cases found with
    | none => rfl
    | some acct =>
      simp only [deletedStrand, Strand.flatten_bind, Strand.flatten_plain, flatten_forgetStrand]
      rfl

end Commands

end PacketDial.System
