import PacketDial.Ui.ActiveCalls
import PacketDial.Ui.Encryption
import PacketDial.Ui.Presence

/-!
# The record of an account

`AccountSchema` of `app_flutter/lib/models/account_schema.dart`, with the JSON map that it is kept
as. The password is kept encrypted, unless the file has a plain one in its place.
-/

namespace PacketDial.Ui

open PacketDial.Core PacketDial.Lib

deriving instance DecidableEq for AccountSchema

/-- `AccountSchema` with all its fields (`account_schema.dart:3–21`). -/
structure StoredAccountSchema extends AccountSchema where
  uuid : String
  accountName : String
  displayName : String
  sipProxy : String
  username : String
  authUsername : String
  password : String
  transport : String
  stunServer : String
  turnServer : String
  tlsEnabled : Bool
  srtpEnabled : Bool
  autoRegister : Bool
  isSelected : Bool
  isEnabled : Bool
  publishPresence : Bool
  deriving DecidableEq

namespace StoredAccountSchema

variable (enc : Encrypter)

/-- `toJson` (`account_schema.dart:44–66`). -/
def toJson (a : StoredAccountSchema) : Json :=
  .obj
    [("uuid", .str a.uuid), ("accountName", .str a.accountName),
      ("displayName", .str a.displayName), ("server", .str a.server),
      ("sipProxy", .str a.sipProxy), ("username", .str a.username),
      ("authUsername", .str a.authUsername), ("domain", .str a.domain),
      ("password", .str (EncryptionService.encrypt enc a.password)), ("plain_pass", .str ""),
      ("transport", .str a.transport), ("stunServer", .str a.stunServer),
      ("turnServer", .str a.turnServer), ("tlsEnabled", .bool a.tlsEnabled),
      ("srtpEnabled", .bool a.srtpEnabled), ("autoRegister", .bool a.autoRegister),
      ("isSelected", .bool a.isSelected), ("isEnabled", .bool a.isEnabled),
      ("publishPresence", .bool a.publishPresence)]

/-- `fromJson` (`account_schema.dart:68–95`); a failed cast throws. -/
def fromJson (json : Json) : Option StoredAccountSchema := do
  let plainPass := (← asString (json.get "plain_pass")).getD ""
  let finalPassword ←
    if plainPass ≠ "" then some plainPass
    else (asString (json.get "password")).map fun password ↦
      EncryptionService.decrypt enc (password.getD "")
  return {
    uuid := (← asString (json.get "uuid")).getD ""
    accountName := (← asString (json.get "accountName")).getD ""
    displayName := (← asString (json.get "displayName")).getD ""
    server := (← asString (json.get "server")).getD ""
    sipProxy := (← asString (json.get "sipProxy")).getD ""
    username := (← asString (json.get "username")).getD ""
    authUsername := (← asString (json.get "authUsername")).getD ""
    domain := (← asString (json.get "domain")).getD ""
    password := finalPassword
    transport := (← asString (json.get "transport")).getD "udp"
    stunServer := (← asString (json.get "stunServer")).getD ""
    turnServer := (← asString (json.get "turnServer")).getD ""
    tlsEnabled := (← asBool (json.get "tlsEnabled")).getD false
    srtpEnabled := (← asBool (json.get "srtpEnabled")).getD false
    autoRegister := (← asBool (json.get "autoRegister")).getD true
    isSelected := (← asBool (json.get "isSelected")).getD false
    isEnabled := (← asBool (json.get "isEnabled")).getD true
    publishPresence := (← asBool (json.get "publishPresence")).getD false }

end StoredAccountSchema

section RoundTrip

variable {enc : Encrypter}

/-- A record is read back as it was written, but for a byte order mark that leads the password. -/
theorem fromJson_toJson_account (h : enc.Sound) (a : StoredAccountSchema) :
    StoredAccountSchema.fromJson enc (a.toJson enc) =
      some { a with password := withoutBom a.password } := by
  rw [← decrypt_encrypt h a.password]
  rfl

end RoundTrip

/-- Every record is read back in every field, and every encryption of a password is recognised, if
and only if the password does not begin with a byte order mark. -/
theorem account_round_trip_iff {enc : Encrypter} (h : enc.Sound) :
    (∀ password, password ≠ "" → EncryptionService.looksLikeEncryptedBase64
      (EncryptionService.encrypt enc password) = true) ∧
    ∀ a : StoredAccountSchema, StoredAccountSchema.fromJson enc (a.toJson enc) = some a ↔
      a.password.toList.head? ≠ some '\uFEFF' := by
  constructor
  · intro password hne
    obtain ⟨blocks, htext, hpos, hdvd, -⟩ := encrypt_spec h hne
    rw [htext]
    exact looksLikeEncryptedBase64_blocks hpos hdvd
  · intro a
    rw [fromJson_toJson_account h, ← withoutBom_eq_iff]
    constructor
    · intro heq
      exact congrArg StoredAccountSchema.password (Option.some.inj heq)
    · intro heq
      rw [heq]

/-- An account with a password. -/
def accountWith (password : String) : StoredAccountSchema where
  uuid := "5c1d"
  accountName := "Office"
  displayName := "Ann"
  server := "sip.example.com"
  sipProxy := ""
  username := "ann"
  authUsername := "ann"
  domain := ""
  password
  transport := "udp"
  stunServer := ""
  turnServer := ""
  tlsEnabled := false
  srtpEnabled := false
  autoRegister := true
  isSelected := true
  isEnabled := true
  publishPresence := false

/-- An encrypter that does with one block what the app does with `Secret-1`. -/
def secretEncrypter : Encrypter :=
  maskEncrypter [149, 65, 139, 92, 120, 97, 155, 186, 121, 18, 1, 130, 165, 112, 4, 128]

/-- A record with a plain password, encrypted as the app does, as an instance. -/
theorem account_round_trip_secret :
    EncryptionService.encrypt secretEncrypter "Secret-1" = "xiToLh0VtotxGgmKrXgMiA==" ∧
      EncryptionService.looksLikeEncryptedBase64 "xiToLh0VtotxGgmKrXgMiA==" = true ∧
      StoredAccountSchema.fromJson secretEncrypter
        ((accountWith "Secret-1").toJson secretEncrypter) = some (accountWith "Secret-1") := by
  have htext : EncryptionService.encrypt secretEncrypter "Secret-1" =
    "xiToLh0VtotxGgmKrXgMiA==" := by decide
  have hsound : secretEncrypter.Sound := sound_maskEncrypter _
  have hboth := account_round_trip_iff hsound
  have hlooks := hboth.1 "Secret-1" (by decide)
  rw [htext] at hlooks
  exact ⟨htext, hlooks, (hboth.2 (accountWith "Secret-1")).mpr (by decide)⟩

/-- An encrypter that does with one block what the app does with a byte order mark and `x`. -/
def bomEncrypter : Encrypter :=
  maskEncrypter [43, 207, 171, 62, 28, 113, 246, 43, 205, 134, 238, 253, 77, 184, 190, 32]

/-- A password that begins with a byte order mark loses it. -/
theorem bom_password_not_restored :
    EncryptionService.encrypt bomEncrypter "\uFEFFx" = "xHQURhB9+ifBiuLxQbSyLA==" ∧
      StoredAccountSchema.fromJson bomEncrypter ((accountWith "\uFEFFx").toJson bomEncrypter) =
        some (accountWith "x") ∧ accountWith "x" ≠ accountWith "\uFEFFx" := by
  refine ⟨by decide, ?_, by decide⟩
  exact fromJson_toJson_account (sound_maskEncrypter _) (accountWith "\uFEFFx")

end PacketDial.Ui
