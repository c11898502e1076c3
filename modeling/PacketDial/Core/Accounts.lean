import PacketDial.Core.Events

/-!
# Account commands

`AccountUpsert`, `AccountRegister`, `AccountUnregister`, `AccountSetSecurity` and
`AccountDeleteProfile`: `core_rust/src/lib.rs:1266–1565`, `2944–2987` and `3173–3204`.
-/

namespace PacketDial.Core

open PacketDial.Lib

/-- The record of an account that nothing has been said about yet (`lib.rs:1294–1314`). -/
def blankAccount (uuid : String) : Account where
  uuid := uuid
  accountName := ""
  displayName := ""
  server := ""
  sipProxy := ""
  username := ""
  authUsername := ""
  domain := ""
  password := ""
  transport := "udp"
  stunServer := ""
  turnServer := ""
  tlsEnabled := false
  srtpEnabled := false
  publishPresence := false
  regState := .unregistered
  pjsipAccId := none

/-- The fields an upsert writes: texts default to empty, the flags to the record's own
(`lib.rs:1273–1290`; the new record of `1292–1314` starts with every flag off). -/
def upsertFields (p : Json) (existing : Account) : Account :=
  let text (key : String) := (p.get key).asStr.getD ""
  let transport := (p.get "transport").asStr.getD "udp"
  { existing with
    accountName := text "account_name"
    displayName := text "display_name"
    server := text "server"
    sipProxy := text "sip_proxy"
    username := text "username"
    authUsername := text "auth_username"
    domain := text "domain"
    password := text "password"
    transport := transport
    stunServer := text "stun_server"
    turnServer := text "turn_server"
    tlsEnabled := (p.get "tls_enabled").asBool.getD existing.tlsEnabled ||
      eqIgnoreAsciiCase transport "tls"
    srtpEnabled := (p.get "srtp_enabled").asBool.getD existing.srtpEnabled
    publishPresence := (p.get "publish_presence").asBool.getD existing.publishPresence }

/-- `cmd_account_upsert` (`lib.rs:1266–1319`). -/
def cmdAccountUpsert (p : Json) : Eng EngineErrorCode :=
  match (p.get "uuid").asStr with
  | none => return .invalidJson
  | some uuid => do
    let known ← withLock .accounts do
      let existing := (← Traced.get).accounts.lookup uuid
      insertAccount uuid (upsertFields p (existing.getD (blankAccount uuid)))
      return existing.isSome
    if !known then
      pushRegState uuid .unregistered
    return .ok

/-- The account a command names by `uuid` or, failing that, by `id`. -/
def accountKey (p : Json) : Option String := (p.get "uuid").asStr <|> (p.get "id").asStr

/-- The transport number of `pd_acc_add` (`lib.rs:1380–1391`). -/
def transportId (a : Account) : Int :=
  if eqIgnoreAsciiCase a.transport "tls" || a.tlsEnabled then 2
  else if eqIgnoreAsciiCase a.transport "tcp" then 1
  else if eqIgnoreAsciiCase a.transport "udp_tcp" then 3
  else 0

/-- The address of record that is registered (`lib.rs:1394–1407`). -/
def sipUri (a : Account) : String :=
  let scheme := if a.tlsEnabled || eqIgnoreAsciiCase a.transport "tls" then "sips" else "sip"
  let uriDomain := if a.domain = "" then a.server else a.domain
  s!"{scheme}:{a.username}@{uriDomain}"

/-- The display name with its fallbacks (`lib.rs:1481–1491`); one with a NUL is dropped. -/
def effectiveDisplayName (a : Account) : String :=
  (cString (if a.displayName ≠ "" then a.displayName
    else if a.accountName ≠ "" then a.accountName
    else a.username)).getD ""

/-- `CString::new` with the name the failure is reported under. -/
def named (what s : String) : Except String String :=
  match cString s with
  | some s => .ok s
  | none => .error what

/-- The arguments of `pd_acc_add`, or the first text that contains a NUL
(`lib.rs:1410–1508`). -/
def accAddArgs (a : Account) : Except String AccAddArgs := do
  let sipUri ← named "SIP URI" (sipUri a)
  let registrar ← named "registrar URI" s!"sip:{a.server}"
  let username ← named "username" a.username
  let password ← named "password" a.password
  let authUsername ← named "auth_username" a.authUsername
  let sipProxy ← named "sip_proxy" a.sipProxy
  let stunServer ← named "stun_server" a.stunServer
  return {
    sipUri := sipUri
    registrar := registrar
    username := username
    password := password
    authUsername := authUsername
    sipProxy := sipProxy
    useTcp := transportId a
    stunServer := stunServer
    publishPresence := if a.publishPresence then 1 else 0
    displayName := effectiveDisplayName a }

/-- Set the registration state of an account that is there. -/
def setRegState (id : String) (state : RegistrationState) : Eng Unit := do
  match (← Traced.get).accounts.lookup id with
  | some a => insertAccount id { a with regState := state }
  | none => pure ()

/-- Take the PJSIP id out of an account and set its registration state. -/
def takePjsipAccId (id : String) (state : RegistrationState) : Eng (Option Int) := do
  match (← Traced.get).accounts.lookup id with
  | some a =>
    insertAccount id { a with pjsipAccId := none, regState := state }
    return a.pjsipAccId
  | none => return none

/-- `pd_acc_remove` and the removal of the id from `PJSIP_ACC_MAP`. -/
def removePjsipAccount (pjId : Int) : Eng Unit := do
  discard <| shim (.pdAccRemove pjId)
  withLock .pjsipAccMap (removePjsipAcc pjId)

/-- Remove the PJSIP account that an account had, if any, and log it. -/
def forgetPjsipAccount (pjId : Option Int) (text : Int → String) : Eng Unit :=
  match pjId with
  | some pjId => do
    removePjsipAccount pjId
    logEngine .info (text pjId)
  | none => pure ()

/-- The failure path of `cmd_account_register` (`lib.rs:1510–1522`): the guard of `ACCOUNTS`
is still alive when `push_reg_state` locks `ACCOUNTS`. -/
def registerFailed (id : String) : Eng EngineErrorCode := do
  let fail := RegistrationState.failed "pd_acc_add failed"
  withLock .accounts do
    setRegState id fail
    pushRegState id fail
    logEngine .error s!"Account '{id}': pd_acc_add returned error"
  return .internalError

/-- The success path of `cmd_account_register` (`lib.rs:1524–1534`). -/
def registerStarted (id : String) (pjAccId : Int) : Eng EngineErrorCode := do
  withLock .accounts do
    match (← Traced.get).accounts.lookup id with
    | some a => insertAccount id { a with pjsipAccId := some pjAccId }
    | none => pure ()
  withLock .pjsipAccMap (insertPjsipAcc pjAccId id)
  logEngine .info s!"Account '{id}' registering via PJSIP (pj_acc_id={pjAccId})"
  return .ok

/-- The transition to `Registering` (`lib.rs:1345–1375`): the previous PJSIP account goes and
the new state is pushed. -/
def beginRegistration (id : String) (acct : Account) : Eng Unit := do
  if acct.tlsEnabled && acct.transport != "tls" then
    logEngine .warn <| s!"Account '{id}': tls_enabled is true but transport is not 'tls'. " ++
      "Forcing TLS transport."
  let oldPjId ← withLock .accounts (takePjsipAccId id .registering)
  match oldPjId with
  | some oldId => removePjsipAccount oldId
  | none => pure ()
  pushEvent "RegistrationStateChanged" (.obj
    [("account_id", .str id), ("account_name", .str acct.accountName),
      ("display_name", .str acct.displayName), ("state", .str "Registering"),
      ("reason", .str "")])

/-- The snapshot of the account, and the log of its absence (`lib.rs:1328–1341`). -/
def lookupForRegister (id : String) : Eng (Option Account) :=
  withLock .accounts do
    let found := (← Traced.get).accounts.lookup id
    if found.isNone then
      logEngine .error s!"AccountRegister: account '{id}' not found"
    return found

/-- `cmd_account_register` (`lib.rs:1321–1535`). -/
def cmdAccountRegister (p : Json) : Eng EngineErrorCode :=
  match accountKey p with
  | none => return .invalidJson
  | some id => do
    match ← lookupForRegister id with
    | none => return .notFound
    | some acct =>
      beginRegistration id acct
      match accAddArgs acct with
      | .error what =>
        logEngine .error s!"Account '{id}': {what} contains NUL byte"
        return .internalError
      | .ok args =>
        let pjAccId ← shim (.pdAccAdd args)
        if pjAccId < 0 then registerFailed id else registerStarted id pjAccId

/-- `cmd_account_unregister` (`lib.rs:1537–1565`). -/
def cmdAccountUnregister (p : Json) : Eng EngineErrorCode :=
  match accountKey p with
  | none => return .invalidJson
  | some id => do
    let (known, pjId) ← withLock .accounts do
      let known := ((← Traced.get).accounts.lookup id).isSome
      return (known, ← takePjsipAccId id .unregistered)
    if !known then return .notFound
    else
      forgetPjsipAccount pjId fun pjId ↦
        s!"Account '{id}' unregistered via PJSIP (pj_acc_id={pjId})"
      pushRegState id .unregistered
      return .ok

/-- `cmd_account_set_security` (`lib.rs:3173–3204`). -/
def cmdAccountSetSecurity (p : Json) : Eng EngineErrorCode :=
  match (p.get "id").asStr with
  | none => return .invalidJson
  | some id => do
    let found ← withLock .accounts do
      match (← Traced.get).accounts.lookup id with
      | none => return none
      | some acct =>
        let acct := { acct with
          tlsEnabled := (p.get "tls_enabled").asBool.getD acct.tlsEnabled
          srtpEnabled := (p.get "srtp_enabled").asBool.getD acct.srtpEnabled }
        insertAccount id acct
        return some acct
    match found with
    | none => return .notFound
    | some acct =>
      pushEvent "AccountSecurityUpdated" (.obj
        [("account_id", .str id), ("tls_enabled", .bool acct.tlsEnabled),
          ("srtp_enabled", .bool acct.srtpEnabled)])
      return .ok

/-- The call of `pd_acc_delete_profile`, skipped for an id with a NUL (`lib.rs:2968–2971`). -/
def shimDeleteProfile (uuid : String) : Eng Unit :=
  match cString uuid with
  | some uuid => discard <| shim (.pdAccDeleteProfile uuid)
  | none => pure ()

/-- `cmd_account_delete_profile` (`lib.rs:2944–2987`). -/
def cmdAccountDeleteProfile (p : Json) : Eng EngineErrorCode :=
  match (p.get "uuid").asStr with
  | none => return .invalidJson
  | some uuid => do
    let found ← withLock .accounts do
      let found := (← Traced.get).accounts.lookup uuid
      Traced.modify fun s ↦ { s with accounts := s.accounts.erase uuid }
      return found
    match found with
    | none => return .notFound
    | some acct =>
      forgetPjsipAccount acct.pjsipAccId fun pjId ↦
        s!"Account '{uuid}' removed from PJSIP (pj_acc_id={pjId})"
      shimDeleteProfile uuid
      logEngine .info s!"Account '{uuid}' profile deleted from engine"
      pushRegState uuid .unregistered
      pushEvent "AccountProfileDeleted" (.obj [("success", .bool true), ("error", .null)])
      return .ok

end PacketDial.Core
