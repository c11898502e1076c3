import PacketDial.Shim.Recorders
import PacketDial.System.Registration

/-!
# The configuration of a PJSIP account

`pd_acc_add` (`core_rust/src/shim/pjsip_shim.c:965–1065`): how the arguments of an
`AccountRegister` become the configuration that PJSIP gets. The transport follows the number
that the engine makes of the account; nothing of the configuration follows `srtp_enabled`.
-/

namespace PacketDial.Shim

open PacketDial.Core PacketDial.Lib PacketDial.System

/-- The transports that `pd_init` created, `PJSUA_INVALID_ID` where it failed. -/
structure Transports where
  udp : Int
  tcp : Int
  tls : Int

/-- `pjmedia_srtp_use`: how much a call insists on SRTP. -/
inductive SrtpUse where
  | disabled
  | optional
  | mandatory
  deriving DecidableEq, Repr

/-- The fields of `pjsua_acc_config` that `pd_acc_add` sets, and `use_srtp`, which keeps the
default of `pjsua_acc_config_default`. The id is cut to its first 511 bytes. -/
structure AccConfig where
  id : List UInt8
  regUri : String
  publishEnabled : Bool
  credUsername : String
  credData : String
  proxy : Option String
  transportId : Int
  useSrtp : SrtpUse
  deriving DecidableEq

/-- The choice of the transport (`pjsip_shim.c:1013–1048`). -/
def selectTransport (transports : Transports) (transportId : Int) : Int :=
  if transportId = 2 then
    if transports.tls ≠ invalidId then transports.tls else transports.udp
  else if transportId = 1 then
    if transports.tcp ≠ invalidId then transports.tcp else transports.udp
  else if transportId = 3 then invalidId
  else transports.udp

/-- The configuration that `pd_acc_add` hands to `pjsua_acc_add` (`pjsip_shim.c:971–1051`);
`PJSUA_DEFAULT_USE_SRTP` is `PJMEDIA_SRTP_DISABLED`. -/
def accConfig (transports : Transports) (args : AccAddArgs) : AccConfig where
  id :=
    if args.displayName ≠ "" then
      (s!"\"{args.displayName}\" <{args.sipUri}>".toUTF8.toList).take 511
    else args.sipUri.toUTF8.toList
  regUri := args.registrar
  publishEnabled := decide (args.publishPresence ≠ 0)
  credUsername := if args.authUsername ≠ "" then args.authUsername else args.username
  credData := args.password
  proxy := if args.sipProxy ≠ "" then some args.sipProxy else none
  transportId := selectTransport transports args.useTcp
  useSrtp := .disabled

/-- The configuration in an action. -/
def handedConfig (transports : Transports) : Action → Option AccConfig
  | .shim (.pdAccAdd args) => some (accConfig transports args)
  | _ => none

/-- The configurations that a run hands to PJSIP. -/
def handedConfigs (transports : Transports) (t : List Action) : List AccConfig :=
  t.filterMap (handedConfig transports)

/-- The configuration honours the security flags of the account: TLS is bound to the TLS
transport, and SRTP is required where the same account without the flag does not require it. -/
structure HonoursFlags (transports : Transports) (a : Account) (config : AccConfig) : Prop where
  tls : a.tlsEnabled = true →
    transports.tls ≠ invalidId ∧ config.transportId = transports.tls
  srtp : a.srtpEnabled = true → config.useSrtp = .mandatory ∧
    ∀ args, accAddArgs { a with srtpEnabled := false } = .ok args →
      (accConfig transports args).useSrtp ≠ .mandatory

section Registrations

variable {transports : Transports} {e : Env} {s : Engine} {p : Json} {id : String} {a : Account}
  {args : AccAddArgs}

/-- An action that hands over a configuration is an operation on accounts. -/
theorem handedConfigs_eq (t : List Action) :
    handedConfigs transports t =
      (accountView.trace t).filterMap fun call ↦ handedConfig transports (.shim call) := by
  unfold handedConfigs View.trace
  rw [List.filterMap_filterMap]
  refine List.filterMap_congr fun act _ ↦ ?_
  cases act with
  | shim call => cases call <;> rfl
  | _ => rfl

/-- A conversion that succeeds goes on with its text. -/
theorem named_bind_ok {α : Type} {what text : String} {f : String → Except String α} {b : α}
    (h : (named what text >>= f) = .ok b) : f text = .ok b := by
  rw [named_eq] at h
  by_cases hnul : '\x00' ∈ text.toList
  · rw [if_pos hnul] at h
    cases h
  · rw [if_neg hnul] at h
    exact h

/-- The number that the engine gives the transport. -/
theorem useTcp_eq (hargs : accAddArgs a = .ok args) : args.useTcp = transportId a := by
  unfold accAddArgs at hargs
  iterate 7 replace hargs := named_bind_ok hargs
  cases hargs
  rfl

/-- An account with TLS is bound to the TLS transport if there is one, else to UDP. -/
theorem transportId_tls (htls : a.tlsEnabled = true) (hargs : accAddArgs a = .ok args) :
    (accConfig transports args).transportId =
      if transports.tls ≠ invalidId then transports.tls else transports.udp := by
  have htwo : args.useTcp = 2 := by
    rw [useTcp_eq hargs, transportId, htls, Bool.or_true, if_pos rfl]
  rw [accConfig, selectTransport, htwo, if_pos rfl]

/-- A configuration honours the flags just if it needs no SRTP and finds its TLS transport. -/
theorem honoursFlags_iff (hargs : accAddArgs a = .ok args) :
    HonoursFlags transports a (accConfig transports args) ↔
      (a.tlsEnabled = true → transports.tls ≠ invalidId) ∧ a.srtpEnabled = false := by
  constructor
  · intro h
    refine ⟨fun htls ↦ (h.tls htls).1, ?_⟩
    by_contra hsrtp
    have hmandatory := (h.srtp (Bool.not_eq_false _ ▸ hsrtp)).1
    cases hmandatory
  · rintro ⟨havailable, hsrtp⟩
    constructor
    · intro htls
      have htransport := havailable htls
      rw [transportId_tls htls hargs, if_pos htransport]
      exact ⟨htransport, rfl⟩
    · intro h
      rw [hsrtp] at h
      cases h

/-- A registration that succeeds hands over the configuration of the account. -/
theorem handedConfigs_of_registered (transports : Transports) (hkey : accountKey p = some id)
    (hl : s.accounts.lookup id = some a)
    (hok : ((cmdAccountRegister p).run e s).value = .ok) :
    ∃ args, accAddArgs a = .ok args ∧
      handedConfigs transports ((cmdAccountRegister p).run e s).trace =
        [accConfig transports args] := by
  have change := yields_cmdAccountRegister (e := e) (s := s) p
  unfold View.Yields at change
  rw [hok] at change
  rw [handedConfigs_eq]
  generalize accountView.trace ((cmdAccountRegister p).run e s).trace = acts at change ⊢
  generalize accountView.state ((cmdAccountRegister p).run e s).state = T at change
  cases change with
  | @started id' a' args hkey' hl' hargs _ =>
    rw [hkey] at hkey'
    cases hkey'
    have ha : a = a' := Option.some.inj (hl.symm.trans hl')
    subst ha
    refine ⟨args, hargs, ?_⟩
    rw [List.filterMap_append, removeOps]
    cases a.pjsipAccId <;> rfl

end Registrations

/-- In every state, so whatever the commands before made of the account, and whatever transports
there are: when `AccountRegister` succeeds, the configuration that PJSIP gets honours the
security flags of the account just if it asks for no SRTP, and the TLS transport is there if it
asks for TLS. -/
theorem security_honoured_iff (transports : Transports) {e : Env} {s : Engine} {p : Json}
    {id : String} {a : Account} (hkey : accountKey p = some id)
    (hl : s.accounts.lookup id = some a)
    (hok : ((cmdAccountRegister p).run e s).value = .ok) :
    ∃ config, handedConfigs transports ((cmdAccountRegister p).run e s).trace = [config] ∧
      (HonoursFlags transports a config ↔
        (a.tlsEnabled = true → transports.tls ≠ invalidId) ∧ a.srtpEnabled = false) := by
  obtain ⟨args, hargs, hhanded⟩ := handedConfigs_of_registered transports hkey hl hok
  exact ⟨_, hhanded, honoursFlags_iff hargs⟩

/-- The engine is initialised and an account entered, with security flags of its own. -/
def enterAccount (flags : List (String × Json)) : List Input :=
  [⟨.init .null, quietEnv⟩, commandInput "AccountUpsert"
    ([("uuid", .str "a"), ("server", .str "d"), ("username", .str "u")] ++ flags)]

/-- The payload of the registration. -/
def registerA : Json := .obj [("uuid", .str "a")]

/-- An account with TLS and the TLS transport 2, as an instance. -/
theorem security_honoured_iff_tls :
    ∃ s a config, (enterAccount [("tls_enabled", .bool true)]).foldlM engineStep Engine.initial =
        some s ∧ s.accounts.lookup "a" = some a ∧ a.tlsEnabled = true ∧
      handedConfigs ⟨0, 1, 2⟩ ((cmdAccountRegister registerA).run quietEnv s).trace = [config] ∧
      HonoursFlags ⟨0, 1, 2⟩ a config := by
  have h : ((enterAccount [("tls_enabled", .bool true)]).foldlM engineStep Engine.initial).map
      (fun s ↦ ((s.accounts.lookup "a").map fun a ↦ (a.tlsEnabled, a.srtpEnabled),
        ((cmdAccountRegister registerA).run quietEnv s).value)) =
      some (some (true, false), .ok) := by decide
  obtain ⟨s, run, hs⟩ := Option.map_eq_some_iff.mp h
  obtain ⟨hflags, hok⟩ := Prod.mk.inj hs
  obtain ⟨a, hl, hflags⟩ := Option.map_eq_some_iff.mp hflags
  obtain ⟨htls, hsrtp⟩ := Prod.mk.inj hflags
  obtain ⟨config, hconfig, hiff⟩ := security_honoured_iff ⟨0, 1, 2⟩ rfl hl hok
  exact ⟨s, a, config, run, hl, htls, hconfig, hiff.mpr ⟨fun _ ↦ by decide, hsrtp⟩⟩

/-- An account that requires SRTP registers, with a configuration that does not require it, on
whatever transports. -/
theorem srtp_not_required :
    ∃ s a, (enterAccount [("srtp_enabled", .bool true)]).foldlM engineStep Engine.initial =
        some s ∧ s.accounts.lookup "a" = some a ∧ a.srtpEnabled = true ∧
      ((cmdAccountRegister registerA).run quietEnv s).value = .ok ∧
      ∀ transports, ∃ config,
        handedConfigs transports ((cmdAccountRegister registerA).run quietEnv s).trace =
          [config] ∧ config.useSrtp = .disabled ∧ ¬ HonoursFlags transports a config := by
  have h : ((enterAccount [("srtp_enabled", .bool true)]).foldlM engineStep Engine.initial).map
      (fun s ↦ ((s.accounts.lookup "a").map (·.srtpEnabled),
        ((cmdAccountRegister registerA).run quietEnv s).value)) =
      some (some true, .ok) := by decide
  obtain ⟨s, run, hs⟩ := Option.map_eq_some_iff.mp h
  obtain ⟨hflag, hok⟩ := Prod.mk.inj hs
  obtain ⟨a, hl, hsrtp⟩ := Option.map_eq_some_iff.mp hflag
  refine ⟨s, a, run, hl, hsrtp, hok, fun transports ↦ ?_⟩
  obtain ⟨args, hargs, hhanded⟩ := handedConfigs_of_registered transports rfl hl hok
  refine ⟨_, hhanded, rfl, fun honours ↦ ?_⟩
  have hmandatory := (honours.srtp hsrtp).1
  cases hmandatory

end PacketDial.Shim
