import PacketDial.System.AccountNews
import PacketDial.Ui.ActiveCalls

/-!
# The account list of the app

The handler of `RegistrationStateChanged` events in
`app_flutter/lib/core/engine_channel.dart:459–493` and the types of
`app_flutter/lib/models/account.dart`. No other event touches the list: `AccountProfileDeleted` has
no case.
-/

namespace PacketDial.Ui

open PacketDial.Core PacketDial.System

/-- `RegistrationState` (`account.dart:2–22`). -/
inductive RegistrationState where
  | unregistered
  | registering
  | registered
  | failed
  deriving DecidableEq, Repr

/-- `RegistrationState.fromString`. -/
def RegistrationState.fromString : String → RegistrationState
  | "Registering" => .registering
  | "Registered" => .registered
  | "Failed" => .failed
  | _ => .unregistered

/-- `Account` (`account.dart:25–63`). -/
structure Account where
  uuid : String
  accountName : String
  displayName : String
  server : String
  sipProxy : String := ""
  username : String
  authUsername : String := ""
  domain : String := ""
  password : String
  transport : String := "udp"
  stunServer : String := ""
  turnServer : String := ""
  tlsEnabled : Bool := false
  srtpEnabled : Bool := false
  registrationState : RegistrationState := .unregistered
  failureReason : String := ""
  deriving DecidableEq, Repr

/-- `EngineChannel.accounts` (`engine_channel.dart:59`). -/
abbrev Accounts := AList fun _ : String ↦ Account

/-- The case `RegistrationStateChanged` of `_handleEvent` (`engine_channel.dart:459–493`). -/
def handleRegistrationStateChanged (payload : Json) (accounts : Accounts) : Option Accounts := do
  let id := (← asString (payload.get "account_id")).getD ""
  let accountName := (← asString (payload.get "account_name")).getD "SIP Account"
  let displayName := (← asString (payload.get "display_name")).getD ""
  let state := RegistrationState.fromString ((← asString (payload.get "state")).getD "")
  let reason := (← asString (payload.get "reason")).getD ""
  let newServer := (← asString (payload.get "server")).getD ""
  let newUsername := (← asString (payload.get "username")).getD ""
  let account : Account := match accounts.lookup id with
    | none =>
      { uuid := id
        accountName := accountName
        displayName := displayName
        server := newServer
        username := newUsername
        password := ""
        registrationState := state
        failureReason := reason }
    | some existing =>
      { existing with
        accountName := accountName
        displayName := displayName
        server := if newServer ≠ "" then newServer else existing.server
        username := if newUsername ≠ "" then newUsername else existing.username
        registrationState := state
        failureReason := reason }
  return accounts.insert id account

/-- `_handleEvent` on the account list. A cast that throws does so before the list is written. -/
def handleAccountEvent (accounts : Accounts) (news : News) : Accounts :=
  if news.1 = "RegistrationStateChanged" then
    (handleRegistrationStateChanged news.2 accounts).getD accounts
  else accounts

/-- What the app shows of an account. -/
structure Shown where
  accountName : String
  displayName : String
  registrationState : RegistrationState
  failureReason : String
  deriving DecidableEq

/-- What an account of the app shows. -/
def Account.shown (a : Account) : Shown :=
  ⟨a.accountName, a.displayName, a.registrationState, a.failureReason⟩

/-- The registration state of the engine, as the app has it. -/
def registrationOf : Core.RegistrationState → RegistrationState
  | .unregistered => .unregistered
  | .registering => .registering
  | .registered => .registered
  | .failed _ => .failed

/-- The reason of a failure, empty without one. -/
def reasonOf : Core.RegistrationState → String
  | .failed reason => reason
  | _ => ""

/-- What the app should show of an account of the engine. -/
def shownOf (a : Core.Account) : Shown :=
  ⟨a.accountName, a.displayName, registrationOf a.regState, reasonOf a.regState⟩

/-- The app knows a state by its name. -/
theorem fromString_variantName (state : Core.RegistrationState) :
    RegistrationState.fromString state.variantName = registrationOf state := by
  cases state <;> rfl

section Handler

/-- An event with the names, the state and the reason of an account is what the app shows of it
then, whether it had the account or not. -/
theorem handle_registration (payload : Json) {id accountName displayName state reason : String}
    (hid : payload.get "account_id" = .str id)
    (hname : payload.get "account_name" = .str accountName)
    (hdisplay : payload.get "display_name" = .str displayName)
    (hstate : payload.get "state" = .str state) (hreason : payload.get "reason" = .str reason)
    (hserver : (asString (payload.get "server")).isSome)
    (husername : (asString (payload.get "username")).isSome) (accounts : Accounts) :
    ∃ a : Account, handleAccountEvent accounts ("RegistrationStateChanged", payload) =
      accounts.insert id a ∧
        a.shown = ⟨accountName, displayName, RegistrationState.fromString state, reason⟩ := by
  obtain ⟨server, hserver⟩ := Option.isSome_iff_exists.mp hserver
  obtain ⟨username, husername⟩ := Option.isSome_iff_exists.mp husername
  unfold handleAccountEvent handleRegistrationStateChanged
  rw [if_pos rfl, hid, hname, hdisplay, hstate, hreason, hserver, husername]
  cases hl : accounts.lookup id with
  | none =>
    simp only [asString, hl, Option.bind_eq_bind, Option.bind_some, Option.getD_some]
    exact ⟨_, rfl, rfl⟩
  | some existing =>
    simp only [asString, hl, Option.bind_eq_bind, Option.bind_some, Option.getD_some]
    exact ⟨_, rfl, rfl⟩

/-- The list after a pushed registration state. -/
theorem handle_regNews (accounts : Accounts) (id : String) (account : Option Core.Account)
    (state : Core.RegistrationState) : ∃ a : Account,
      handleAccountEvent accounts (regNews id account state) = accounts.insert id a ∧
        a.shown = ⟨(account.map (·.accountName)).getD "", (account.map (·.displayName)).getD "",
          registrationOf state, reasonOf state⟩ := by
  rw [← fromString_variantName]
  cases account <;> cases state <;>
    exact handle_registration _ rfl rfl rfl rfl rfl rfl rfl accounts

/-- The list after `AccountRegister` told its event. -/
theorem handle_registeringNews (accounts : Accounts) (id : String) (b : Core.Account) :
    ∃ a : Account, handleAccountEvent accounts (registeringNews id b) = accounts.insert id a ∧
      a.shown = ⟨b.accountName, b.displayName, .registering, ""⟩ :=
  handle_registration (registeringNews id b).2 rfl rfl rfl rfl rfl rfl rfl accounts

/-- The list after an event that tells a record. -/
theorem handle_tells {news : News} {id : String} {b : Core.Account} (h : Tells id b news)
    (accounts : Accounts) : ∃ a : Account,
      handleAccountEvent accounts news = accounts.insert id a ∧ a.shown = shownOf b := by
  rcases h with rfl | ⟨rfl, hstate⟩
  · exact handle_regNews accounts id (some b) b.regState
  · unfold shownOf
    rw [hstate]
    exact handle_registeringNews accounts id b

/-- A deletion is not handled. -/
theorem handle_deletedNews (accounts : Accounts) :
    handleAccountEvent accounts deletedNews = accounts := by
  unfold handleAccountEvent
  rw [if_neg (by decide)]

end Handler

end PacketDial.Ui
