import PacketDial.Dialling.Targets
import PacketDial.Ui.Accounts

/-!
# Targets of transfers and conferences

The dialer builds the URI of a transfer or a conference itself
(`app_flutter/lib/screens/dialer_screen.dart:608–621`, `673–688`), from the server of the account,
where the engine takes the domain of the account to dial the same target
(`core_rust/src/lib.rs:1620–1655`).
-/

namespace PacketDial.Dialling

open PacketDial.Core PacketDial.Lib

/-- The URI that the dialer builds of a text, on an account of the app. -/
def buildUri (account : Option Ui.Account) (destUri : String) : String :=
  if !destUri.toList.contains ':' then
    match account with
    | some a => if a.server ≠ "" then s!"sip:{destUri}@{a.server}" else s!"sip:{destUri}"
    | none => s!"sip:{destUri}"
  else if !"sip:".toList.isPrefixOf destUri.toList && !"sips:".toList.isPrefixOf destUri.toList then
    s!"sip:{destUri}"
  else destUri

/-- The URI of `_executeTransfer` (`dialer_screen.dart:609–621`). -/
def executeTransferUri : Option Ui.Account → String → String := buildUri

/-- The URI of `_executeConference` (`dialer_screen.dart:674–686`). -/
def executeConferenceUri : Option Ui.Account → String → String := buildUri

/-- A transfer and a conference go to the URI that is dialled. -/
def AgreeOn (a : Ui.Account) (acct : Account) (target : String) : Prop :=
  executeTransferUri (some a) target = normalizeCallTargetUri target (domainHint acct) ∧
    executeConferenceUri (some a) target = normalizeCallTargetUri target (domainHint acct)

/-- The server of an account as the dialer appends it. -/
def serverOf (acct : Account) : Option String := if acct.server = "" then none else some acct.server

section Agreement

variable {a : Ui.Account} {acct : Account} {target : String}

/-- The domain that is dialled is trimmed already. -/
theorem dialDomain_domainHint (acct : Account) :
    dialDomain (domainHint acct) = domainHint acct := by
  unfold domainHint
  split_ifs with hdomain hserver
  · rw [dialDomain_some (by rwa [trim_trim]), trim_trim]
  · rw [dialDomain_some (by rwa [trim_trim]), trim_trim]
  · rfl

/-- The characters of the URI that the dialer builds. -/
theorem toList_buildUri (hserver : a.server = acct.server) :
    (buildUri (some a) target).toList =
      if ':' ∈ target.toList then
        if hasScheme target.toList then target.toList else "sip:".toList ++ target.toList
      else "sip:".toList ++ target.toList ++ atDomain (serverOf acct) := by
  have text (s : String) : toString s = s := rfl
  unfold buildUri serverOf hasScheme
  dsimp only
  rw [hserver]
  by_cases hempty : acct.server = ""
  · split_ifs <;> simp_all [atDomain]
  · split_ifs <;> simp_all [atDomain]

/-- Domains are told apart after an `@`. -/
theorem atDomain_inj {d d' : Option String} : atDomain d = atDomain d' ↔ d = d' := by
  cases d with
  | none =>
    cases d' with
    | none => exact iff_of_true rfl rfl
    | some d' => simp [atDomain]
  | some d =>
    cases d' with
    | none => simp [atDomain]
    | some d' => simp [atDomain, String.toList_inj]

/-- For every trimmed target and every account, a transfer and a conference go to the URI that is
dialled if and only if the target has a `:` and, if it has a SIP scheme, an `@` or no domain to be
added, or it has no `:` and the account dials with its server as it stands. -/
theorem transfer_agrees_iff (htarget : trim target = target) (hserver : a.server = acct.server) :
    AgreeOn a acct target ↔
      if ':' ∈ target.toList then
        hasScheme target.toList = true → '@' ∈ target.toList ∨ domainHint acct = none
      else domainHint acct = serverOf acct := by
  unfold AgreeOn executeTransferUri executeConferenceUri
  rw [and_self, ← String.toList_inj, toList_buildUri hserver, toList_normalizeCallTargetUri,
    htarget, dialDomain_domainHint]
  unfold normalForm
  by_cases hcolon : ':' ∈ target.toList
  · rw [if_pos hcolon, if_pos hcolon, if_pos hcolon]
    by_cases hscheme : hasScheme target.toList = true
    · rw [if_pos hscheme, if_pos hscheme]
      by_cases hat : '@' ∈ target.toList
      · simp [hat]
      · rw [if_neg hat, List.self_eq_append_right]
        simp only [hscheme, hat, true_implies, false_or]
        exact (atDomain_inj : atDomain _ = atDomain none ↔ _)
    · rw [if_neg hscheme, if_neg hscheme]
      exact iff_of_true rfl fun h ↦ absurd h hscheme
  · have hscheme : hasScheme target.toList ≠ true := fun h ↦ hcolon (colon_of_hasScheme h)
    rw [if_neg hcolon, if_neg hcolon, if_neg hscheme, if_neg hcolon, List.append_cancel_left_eq,
      atDomain_inj]
    exact eq_comm

/-- An account whose domain is not its server. -/
def splitAccount : Account := { blankAccount "a" with server := "10.0.0.5", domain := "pbx" }

/-- The account as the app has it. -/
def shownAccount : Ui.Account where
  uuid := "a"
  accountName := "SIP Account"
  displayName := ""
  server := "10.0.0.5"
  username := ""
  password := ""

/-- A full address, as an instance. -/
theorem transfer_agrees_iff_address : AgreeOn shownAccount splitAccount "sip:bob@example.org" :=
  (transfer_agrees_iff (by decide) rfl).mpr (by decide)

/-- An extension is dialled at the domain of the account and transferred to its server. -/
theorem transfer_disagrees :
    executeTransferUri (some shownAccount) "127" = "sip:127@10.0.0.5" ∧
      normalizeCallTargetUri "127" (domainHint splitAccount) = "sip:127@pbx" ∧
      ¬ AgreeOn shownAccount splitAccount "127" := by
  unfold AgreeOn
  decide

end Agreement

end PacketDial.Dialling
