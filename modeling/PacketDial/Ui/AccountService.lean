import Mathlib.Data.List.InsertIdx
import Mathlib.Data.List.Nodup
import Mathlib.Logic.Function.Basic
import PacketDial.Lib.Paths
import PacketDial.Ui.AccountSchema

/-!
# The accounts of the app

The list of accounts of `AccountService` (`app_flutter/lib/core/account_service.dart:223–283`) and
the edits of `AccountSetupNotifier`
(`app_flutter/lib/providers/account_setup_provider.dart:77–159`). A record is an object: an edit
keeps the one that it was opened on, and reads its fields only when it ends.
-/

namespace PacketDial.Ui

open PacketDial.Lib

/-- A record with the flag set. -/
def StoredAccountSchema.flagged (a : StoredAccountSchema) (isSelected : Bool) :
    StoredAccountSchema :=
  { a with isSelected }

/-- A record with its uuid, or with a new one. -/
def StoredAccountSchema.withUuid (a : StoredAccountSchema) (newUuid : String) :
    StoredAccountSchema :=
  if a.uuid = "" then { a with uuid := newUuid } else a

/-- The records that the service was given, by number, and the list `_accounts` of those that it
has. -/
structure AccountStore where
  objects : Nat → StoredAccountSchema
  size : Nat
  accounts : List Nat

namespace AccountStore

/-- The records in the list. -/
def records (s : AccountStore) : List StoredAccountSchema := s.accounts.map s.objects

/-- The place of an account in the list. -/
def indexOf (s : AccountStore) (uuid : String) : Option Nat :=
  s.accounts.findIdx? fun r ↦ (s.objects r).uuid == uuid

/-- Take a new record. -/
def alloc (s : AccountStore) (account : StoredAccountSchema) : AccountStore :=
  { s with objects := Function.update s.objects s.size account, size := s.size + 1 }

/-- `setSelectedAccount` (`account_service.dart:241–247`). -/
def setSelectedAccount (s : AccountStore) (uuid : String) : AccountStore :=
  { s with objects := fun r ↦
      if r ∈ s.accounts then (s.objects r).flagged ((s.objects r).uuid == uuid)
      else s.objects r }

/-- Put a record in the place of the one with its uuid, or at the end. -/
def put (s : AccountStore) (account : StoredAccountSchema) : AccountStore :=
  match s.indexOf account.uuid with
  | some index => { s.alloc account with accounts := s.accounts.set index s.size }
  | none =>
    { s.alloc (account.flagged s.accounts.isEmpty) with accounts := s.accounts ++ [s.size] }

/-- `saveAccount` of a new object (`account_service.dart:249–267`). -/
def saveAccount (s : AccountStore) (newUuid : String) (account : StoredAccountSchema) :
    AccountStore :=
  s.put (account.withUuid newUuid)

/-- `deleteAccount` (`account_service.dart:269–283`). -/
def deleteAccount (s : AccountStore) (uuid : String) : AccountStore :=
  match s.indexOf uuid with
  | some index =>
    let wasSelected := s.accounts[index]?.any fun r ↦ (s.objects r).isSelected
    let accounts := s.accounts.eraseIdx index
    match accounts with
    | first :: _ =>
      if wasSelected then
        { s with
          objects := Function.update s.objects first ((s.objects first).flagged true)
          accounts }
      else { s with accounts }
    | [] => { s with accounts }
  | none => s

/-- `setAccountEnabled` (`account_service.dart:285–292`). -/
def setAccountEnabled (s : AccountStore) (uuid : String) (enabled : Bool) : AccountStore :=
  match s.accounts.find? fun r ↦ (s.objects r).uuid == uuid with
  | some r =>
    { s with objects := Function.update s.objects r { s.objects r with isEnabled := enabled } }
  | none => s

/-- The list has each record once, and has only records that the service was given. -/
structure WellFormed (s : AccountStore) : Prop where
  allocated : ∀ r ∈ s.accounts, r < s.size
  nodup : s.accounts.Nodup

section Records

variable {s : AccountStore}

/-- The place of an account, told from the records. -/
theorem indexOf_eq (s : AccountStore) (uuid : String) :
    s.indexOf uuid = s.records.findIdx? (·.uuid == uuid) := by
  rw [indexOf, records, List.findIdx?_map]
  rfl

/-- A record that was taken is the newest. -/
theorem objects_alloc_self (s : AccountStore) (account : StoredAccountSchema) :
    (s.alloc account).objects s.size = account := by simp [alloc]

/-- Taking a record leaves the others alone. -/
theorem objects_alloc_of_ne {r : Nat} (h : r ≠ s.size) (account : StoredAccountSchema) :
    (s.alloc account).objects r = s.objects r := by simp [alloc, h]

/-- A new record is none of the list. -/
theorem records_alloc (h : s.WellFormed) (account : StoredAccountSchema) :
    s.accounts.map (s.alloc account).objects = s.records := by
  apply List.map_congr_left
  intro r hr
  exact objects_alloc_of_ne (Nat.ne_of_lt (h.allocated r hr)) account

/-- Changing a record of the list changes it in its place. -/
theorem map_update_head {first : Nat} {rest : List Nat} (h : (first :: rest).Nodup)
    (objects : Nat → StoredAccountSchema) (account : StoredAccountSchema) :
    (first :: rest).map (Function.update objects first account) =
      account :: rest.map objects := by
  rw [List.map_cons, Function.update_self]
  congr 1
  apply List.map_congr_left
  intro r hr
  have hne : r ≠ first := fun heq ↦ (List.nodup_cons.mp h).1 (heq ▸ hr)
  exact Function.update_of_ne hne account objects

/-- Selecting an account changes the flag of every record. -/
theorem records_setSelectedAccount (s : AccountStore) (uuid : String) :
    (s.setSelectedAccount uuid).records =
      s.records.map fun a ↦ a.flagged (a.uuid == uuid) := by
  unfold records
  rw [List.map_map]
  apply List.map_congr_left
  intro r hr
  exact if_pos hr

/-- The records after one of an account is put among them. -/
def putAmong (records : List StoredAccountSchema) (account : StoredAccountSchema) :
    List StoredAccountSchema :=
  match records.findIdx? (·.uuid == account.uuid) with
  | some index => records.set index account
  | none => records ++ [account.flagged records.isEmpty]

/-- The records with the first one selected. -/
def firstSelected : List StoredAccountSchema → List StoredAccountSchema
  | first :: rest => first.flagged true :: rest
  | [] => []

/-- The records after an account is deleted from them. -/
def deleteFrom (records : List StoredAccountSchema) (uuid : String) : List StoredAccountSchema :=
  match records.findIdx? (·.uuid == uuid) with
  | some index =>
    if records[index]?.any (·.isSelected) then firstSelected (records.eraseIdx index)
    else records.eraseIdx index
  | none => records

/-- What saving does to the records. -/
theorem records_put (h : s.WellFormed) (account : StoredAccountSchema) :
    (s.put account).records = putAmong s.records account := by
  unfold put putAmong
  rw [indexOf_eq]
  cases s.records.findIdx? (·.uuid == account.uuid) with
  | some index =>
    dsimp only
    rw [records, List.map_set, records_alloc h, objects_alloc_self]
  | none =>
    dsimp only
    rw [records, List.map_append, records_alloc h, List.map_singleton, objects_alloc_self]
    simp [records]

/-- What deleting does to the records. -/
theorem records_deleteAccount (h : s.WellFormed) (uuid : String) :
    (s.deleteAccount uuid).records = deleteFrom s.records uuid := by
  unfold deleteAccount deleteFrom
  rw [indexOf_eq]
  cases s.records.findIdx? (·.uuid == uuid) with
  | none => rfl
  | some index =>
    have hany : (s.accounts[index]?.any fun r ↦ (s.objects r).isSelected) =
        s.records[index]?.any (·.isSelected) := by
      rw [records, List.getElem?_map, Option.any_map]
    have hrest : s.records.eraseIdx index = (s.accounts.eraseIdx index).map s.objects :=
      List.eraseIdx_map s.objects s.accounts index
    have hnodup : (s.accounts.eraseIdx index).Nodup := h.nodup.eraseIdx index
    dsimp only
    rw [hany, hrest]
    cases hcases : s.accounts.eraseIdx index with
    | nil => cases s.records[index]?.any (·.isSelected) <;> rfl
    | cons first rest =>
      rw [hcases] at hnodup
      cases s.records[index]?.any (·.isSelected) with
      | true => exact map_update_head hnodup s.objects _
      | false => rfl

/-- Putting a record keeps the list well-formed. -/
theorem WellFormed.put (h : s.WellFormed) (account : StoredAccountSchema) :
    (s.put account).WellFormed := by
  have hnew : s.size ∉ s.accounts := fun hmem ↦ lt_irrefl _ (h.allocated _ hmem)
  have hold : ∀ r ∈ s.accounts, r < s.size + 1 := fun r hr ↦ Nat.lt_succ_of_lt (h.allocated r hr)
  unfold AccountStore.put
  cases s.indexOf account.uuid with
  | some index =>
    constructor
    · intro r hr
      rcases List.mem_or_eq_of_mem_set hr with hr | rfl
      · exact hold r hr
      · exact Nat.lt_succ_self _
    · exact h.nodup.set hnew
  | none =>
    constructor
    · intro r hr
      rcases List.mem_append.mp hr with hr | hr
      · exact hold r hr
      · rw [List.mem_singleton.mp hr]
        exact Nat.lt_succ_self _
    · exact List.nodup_append_comm.mp (List.nodup_cons.mpr ⟨hnew, h.nodup⟩)

/-- Selecting an account keeps the list well-formed. -/
theorem WellFormed.setSelectedAccount (h : s.WellFormed) (uuid : String) :
    (s.setSelectedAccount uuid).WellFormed := ⟨h.allocated, h.nodup⟩

/-- Deleting an account keeps the list well-formed. -/
theorem WellFormed.deleteAccount (h : s.WellFormed) (uuid : String) :
    (s.deleteAccount uuid).WellFormed := by
  unfold AccountStore.deleteAccount
  cases s.indexOf uuid with
  | none => exact h
  | some index =>
    have hsub := List.eraseIdx_sublist s.accounts index
    have hallocated : ∀ r ∈ s.accounts.eraseIdx index, r < s.size :=
      fun r hr ↦ h.allocated r (hsub.subset hr)
    have hnodup := h.nodup.sublist hsub
    dsimp only
    split
    · split
      · exact ⟨hallocated, hnodup⟩
      · exact ⟨hallocated, hnodup⟩
    · exact ⟨hallocated, hnodup⟩

end Records

end AccountStore

/-- The uuids of records. -/
def uuids (records : List StoredAccountSchema) : List String := records.map (·.uuid)

/-- Exactly one record is selected, if there are any. -/
def OneSelected (records : List StoredAccountSchema) : Prop :=
  records ≠ [] → records.countP (·.isSelected) = 1

section Selections

open AccountStore

variable {records : List StoredAccountSchema} {a : StoredAccountSchema} {uuid : String}
  {index : Nat}

/-- Erasing an element takes it out of a count. -/
theorem countP_eraseIdx {α : Type} {p : α → Bool} {l : List α} {i : Nat} (h : i < l.length) :
    l.countP p = (l.eraseIdx i).countP p + if p l[i] then 1 else 0 := by
  induction l generalizing i with
  | nil => exact absurd h (Nat.not_lt_zero i)
  | cons a l ih =>
    cases i with
    | zero => exact List.countP_cons
    | succ i =>
      have hi : i < l.length := Nat.lt_of_succ_lt_succ h
      rw [List.eraseIdx_cons_succ, List.countP_cons, List.countP_cons, ih hi,
        List.getElem_cons_succ]
      omega

/-- An account that is not in the list is not put in the place of another. -/
theorem findIdx?_eq_none (h : uuid ∉ uuids records) : records.findIdx? (·.uuid == uuid) = none := by
  rw [List.findIdx?_eq_none_iff]
  intro b hb
  rw [beq_eq_false_iff_ne]
  exact fun heq ↦ h (heq ▸ List.mem_map_of_mem hb)

/-- An account that is in the list has a place there. -/
theorem findIdx?_eq_some (h : uuid ∈ uuids records) : ∃ index, ∃ hindex : index < records.length,
    records.findIdx? (·.uuid == uuid) = some index ∧ records[index].uuid = uuid := by
  cases hfind : records.findIdx? (·.uuid == uuid) with
  | none =>
    obtain ⟨b, hb, heq⟩ := List.mem_map.mp h
    have hne := List.findIdx?_eq_none_iff.mp hfind b hb
    exact absurd heq (beq_eq_false_iff_ne.mp hne)
  | some index =>
    obtain ⟨hindex, hfound, -⟩ := List.findIdx?_eq_some_iff_getElem.mp hfind
    exact ⟨index, hindex, rfl, eq_of_beq hfound⟩

/-- A record at the end of the list is selected just if it is the first. -/
theorem oneSelected_append (h : OneSelected records) :
    OneSelected (records ++ [a.flagged records.isEmpty]) := by
  intro _
  rw [List.countP_append]
  cases records with
  | nil => rfl
  | cons b records =>
    rw [h (List.cons_ne_nil b records)]
    rfl

/-- A record in the place of another keeps the selection just if it has its flag. -/
theorem oneSelected_set_iff (h : OneSelected records) (hindex : index < records.length) :
    OneSelected (records.set index a) ↔ a.isSelected = records[index].isSelected := by
  have hne : records ≠ [] := List.ne_nil_of_length_pos (Nat.zero_lt_of_lt hindex)
  have hset : records.set index a ≠ [] := by
    apply List.ne_nil_of_length_pos
    rw [List.length_set]
    exact Nat.zero_lt_of_lt hindex
  unfold OneSelected
  rw [forall_prop_of_true hset, List.countP_set hindex, h hne]
  cases a.isSelected <;> cases records[index].isSelected <;> decide

/-- Deleting an account keeps the selection. -/
theorem oneSelected_deleteFrom (h : OneSelected records) (uuid : String) :
    OneSelected (deleteFrom records uuid) := by
  unfold deleteFrom
  cases hfind : records.findIdx? (·.uuid == uuid) with
  | none => exact h
  | some index =>
    obtain ⟨hindex, -⟩ := List.findIdx?_eq_some_iff_getElem.mp hfind
    have hne : records ≠ [] := List.ne_nil_of_length_pos (Nat.zero_lt_of_lt hindex)
    have hcount := countP_eraseIdx (p := fun a : StoredAccountSchema ↦ a.isSelected) hindex
    rw [h hne] at hcount
    dsimp only
    rw [List.getElem?_eq_getElem hindex, Option.any_some]
    cases hsel : records[index].isSelected with
    | true =>
      rw [hsel, if_pos rfl] at hcount
      rw [if_pos rfl]
      -- The others are not selected, so the first of them is the only one.
      cases hrest : records.eraseIdx index with
      | nil => exact fun hnil ↦ absurd rfl hnil
      | cons first rest =>
        intro _
        rw [hrest, List.countP_cons] at hcount
        rw [firstSelected, List.countP_cons]
        simp only [StoredAccountSchema.flagged]
        rw [if_pos trivial]
        omega
    | false =>
      rw [hsel, if_neg Bool.false_ne_true] at hcount
      rw [if_neg Bool.false_ne_true]
      exact fun _ ↦ hcount.symm

/-- Selecting one of the accounts selects just that one. -/
theorem oneSelected_select (hnodup : (uuids records).Nodup) (h : uuid ∈ uuids records) :
    OneSelected (records.map fun a ↦ a.flagged (a.uuid == uuid)) := by
  intro _
  have hcount : (uuids records).countP (· == uuid) = 1 := List.count_eq_one_of_mem hnodup h
  rw [uuids, List.countP_map] at hcount
  rw [List.countP_map]
  exact hcount

/-- Putting a record adds at most its uuid. -/
theorem nodup_putAmong (h : (uuids records).Nodup) (a : StoredAccountSchema) :
    (uuids (putAmong records a)).Nodup := by
  unfold putAmong
  by_cases hmem : a.uuid ∈ uuids records
  · obtain ⟨index, hindex, hfind, heq⟩ := findIdx?_eq_some hmem
    have hsame : (uuids records).set index a.uuid = uuids records := by
      rw [← heq, uuids, ← List.map_set, List.set_getElem_self]
    rw [hfind]
    dsimp only
    rw [uuids, List.map_set]
    exact hsame ▸ h
  · rw [findIdx?_eq_none hmem, uuids, List.map_append, List.map_singleton]
    exact List.nodup_append_comm.mp (List.nodup_cons.mpr ⟨hmem, h⟩)

/-- Selecting the first record changes no uuid. -/
theorem uuids_firstSelected (records : List StoredAccountSchema) :
    uuids (firstSelected records) = uuids records := by
  cases records with
  | nil => rfl
  | cons first rest => rfl

/-- Deleting an account adds no uuid. -/
theorem uuids_deleteFrom (records : List StoredAccountSchema) (uuid : String) :
    (uuids (deleteFrom records uuid)).Sublist (uuids records) := by
  unfold deleteFrom
  cases records.findIdx? (·.uuid == uuid) with
  | none => exact List.Sublist.refl _
  | some index =>
    have hsub : (uuids (records.eraseIdx index)).Sublist (uuids records) :=
      (List.eraseIdx_sublist records index).map _
    dsimp only
    split
    · rw [uuids_firstSelected]
      exact hsub
    · exact hsub

end Selections

/-- What the page of an account has to offer: its texts, and the state of its switches
(`account_setup_provider.dart:5–18`, `77–89`). -/
structure AccountForm where
  name : String
  displayName : String
  server : String
  username : String
  password : String
  authUsername : String
  domain : String
  proxy : String
  stunServer : String
  turnServer : String
  transport : String
  srtpEnabled : Bool
  publishPresence : Bool

/-- A required field is empty: nothing is tried (`account_setup_provider.dart:90–96`). -/
def AccountForm.incomplete (form : AccountForm) : Bool :=
  form.name.isEmpty || form.server.isEmpty || form.username.isEmpty || form.password.isEmpty

/-- The record that an edit makes when it ends, with what `existing` says by then
(`account_setup_provider.dart:124–142`). -/
def AccountForm.schema (form : AccountForm) (existing : Option StoredAccountSchema) :
    StoredAccountSchema where
  uuid := (existing.map (·.uuid)).getD ""
  accountName := form.name
  displayName := form.displayName
  server := form.server
  sipProxy := form.proxy
  username := form.username
  authUsername := form.authUsername
  domain := form.domain
  password := form.password
  transport := form.transport
  stunServer := form.stunServer
  turnServer := form.turnServer
  tlsEnabled := form.transport == "tls"
  srtpEnabled := form.srtpEnabled
  autoRegister := true
  isSelected := (existing.map (·.isSelected)).getD false
  isEnabled := true
  publishPresence := form.publishPresence

/-- What happens to the accounts: the end of an edit of a record that the service was given, or of
a creation, when the trial registration has come back, a deletion, or a selection. -/
inductive AccountOp where
  | save (existing : Option Nat) (form : AccountForm) (registered : Bool) (newUuid : String)
  | delete (uuid : String)
  | select (uuid : String)

/-- No record has the uuid. -/
def AccountStore.Fresh (s : AccountStore) (newUuid : String) : Prop :=
  newUuid ≠ "" ∧ ∀ r < s.size, (s.objects r).uuid ≠ newUuid

instance (s : AccountStore) (newUuid : String) : Decidable (s.Fresh newUuid) :=
  inferInstanceAs (Decidable (_ ∧ _))

/-- One operation. The uuids that are made are new, and an account that is selected is in the
list. -/
def AccountStore.step (s : AccountStore) : AccountOp → Option AccountStore
  | .save existing form registered newUuid =>
    if s.Fresh newUuid ∧ ∀ r ∈ existing, r < s.size then
      some <| if form.incomplete || !registered then s
        else s.saveAccount newUuid (form.schema (existing.map s.objects))
    else none
  | .delete uuid => some (s.deleteAccount uuid)
  | .select uuid => if (s.indexOf uuid).isSome then some (s.setSelectedAccount uuid) else none

/-- The app has no account yet. -/
def AccountStore.empty : AccountStore where
  objects _ := AccountForm.schema ⟨"", "", "", "", "", "", "", "", "", "", "", false, false⟩ none
  size := 0
  accounts := []

/-- An edit that succeeds finds the flag of the record that it was opened on as that of the account
is now. -/
def FlagCurrent (s : AccountStore) (op : AccountOp) : Prop :=
  ∀ r form newUuid, op = .save (some r) form true newUuid → form.incomplete = false →
    ∀ other ∈ s.accounts, (s.objects other).uuid = (s.objects r).uuid →
      (s.objects r).isSelected = (s.objects other).isSelected

/-- The records that the service was given have uuids, each of which is in the list once at most. -/
structure AccountStore.Identified (s : AccountStore) : Prop where
  wellFormed : s.WellFormed
  named : ∀ r < s.size, (s.objects r).uuid ≠ ""
  nodup : (uuids s.records).Nodup

section Steps

open AccountStore

variable {s t : AccountStore} {op : AccountOp}

/-- A record that is put into the list has a uuid. -/
theorem AccountStore.Identified.put (h : s.Identified) {account : StoredAccountSchema}
    (haccount : account.uuid ≠ "") : (s.put account).Identified := by
  have halloc (a : StoredAccountSchema) (ha : a.uuid ≠ "") :
      ∀ r < s.size + 1, ((s.alloc a).objects r).uuid ≠ "" := by
    intro r hr
    rcases Nat.lt_succ_iff_lt_or_eq.mp hr with hr | rfl
    · rw [objects_alloc_of_ne (Nat.ne_of_lt hr)]
      exact h.named r hr
    · rw [objects_alloc_self]
      exact ha
  refine ⟨h.wellFormed.put account, ?_, ?_⟩
  · unfold AccountStore.put
    cases s.indexOf account.uuid with
    | some index => exact halloc account haccount
    | none => exact halloc (account.flagged s.accounts.isEmpty) haccount
  · rw [records_put h.wellFormed]
    exact nodup_putAmong h.nodup account

/-- Deleting an account leaves the records identified. -/
theorem AccountStore.Identified.deleteAccount (h : s.Identified) (uuid : String) :
    (s.deleteAccount uuid).Identified := by
  refine ⟨h.wellFormed.deleteAccount uuid, ?_, ?_⟩
  · unfold AccountStore.deleteAccount
    cases s.indexOf uuid with
    | none => exact h.named
    | some index =>
      dsimp only
      split
      · next first _ _ =>
        split
        · intro r hr
          by_cases heq : r = first
          · subst heq
            simp only [Function.update_self]
            exact h.named r hr
          · simp only [Function.update_of_ne heq]
            exact h.named r hr
        · exact h.named
      · exact h.named
  · rw [records_deleteAccount h.wellFormed]
    exact h.nodup.sublist (uuids_deleteFrom s.records uuid)

/-- Selecting an account leaves the records identified. -/
theorem AccountStore.Identified.setSelectedAccount (h : s.Identified) (uuid : String) :
    (s.setSelectedAccount uuid).Identified := by
  refine ⟨h.wellFormed.setSelectedAccount uuid, ?_, ?_⟩
  · intro r hr
    unfold AccountStore.setSelectedAccount
    dsimp only
    split
    · exact h.named r hr
    · exact h.named r hr
  · rw [records_setSelectedAccount, uuids, List.map_map]
    exact h.nodup

/-- The record that an edit makes has the uuid that the record it was opened on has. -/
theorem withUuid_schema (h : s.Identified) (form : AccountForm) {r : Nat} (hr : r < s.size)
    (newUuid : String) : (form.schema (some (s.objects r))).withUuid newUuid =
      form.schema (some (s.objects r)) := if_neg (h.named r hr)

/-- Every operation leaves the records identified. -/
theorem AccountStore.Identified.step (h : s.Identified) (hs : s.step op = some t) :
    t.Identified := by
  cases op with
  | save existing form registered newUuid =>
    obtain ⟨⟨hfresh, hexisting⟩, heq⟩ := Option.ite_none_right_eq_some.mp hs
    cases heq
    split
    · exact h
    · apply h.put
      cases existing with
      | none => exact hfresh.1
      | some r =>
        rw [Option.map_some, withUuid_schema h form (hexisting r rfl)]
        exact h.named r (hexisting r rfl)
  | delete uuid =>
    cases hs
    exact h.deleteAccount uuid
  | select uuid =>
    obtain ⟨-, heq⟩ := Option.ite_none_right_eq_some.mp hs
    cases heq
    exact h.setSelectedAccount uuid

/-- A record that is not in the list joins it without changing the selection. -/
theorem oneSelected_put_new (h : s.Identified) (hone : OneSelected s.records)
    {account : StoredAccountSchema} (hnew : account.uuid ∉ uuids s.records) :
    OneSelected (s.put account).records := by
  rw [records_put h.wellFormed, putAmong, findIdx?_eq_none hnew]
  exact oneSelected_append hone

/-- A new uuid is none of the list. -/
theorem not_mem_uuids (h : s.WellFormed) {newUuid : String} (hfresh : s.Fresh newUuid) :
    newUuid ∉ uuids s.records := by
  intro hmem
  obtain ⟨a, ha, heq⟩ := List.mem_map.mp hmem
  obtain ⟨r, hr, rfl⟩ := List.mem_map.mp ha
  exact hfresh.2 r (h.allocated r hr) heq

/-- A record with the uuid of an account joins the list in its place, if it has one, and changes the
selection just if its flag differs. -/
theorem oneSelected_put_iff (h : s.Identified) (hone : OneSelected s.records)
    (account : StoredAccountSchema) : OneSelected (s.put account).records ↔
      ∀ other ∈ s.accounts, (s.objects other).uuid = account.uuid →
        account.isSelected = (s.objects other).isSelected := by
  by_cases hmem : account.uuid ∈ uuids s.records
  · obtain ⟨index, hindex, hfind, heq⟩ := findIdx?_eq_some hmem
    rw [records_put h.wellFormed, putAmong, hfind]
    dsimp only
    rw [oneSelected_set_iff hone hindex]
    constructor
    · intro hsame other hother huuid
      have hrecord : s.objects other = s.records[index] := by
        apply List.inj_on_of_nodup_map h.nodup (List.mem_map_of_mem hother)
          (List.getElem_mem hindex)
        exact huuid.trans heq.symm
      rw [hrecord]
      exact hsame
    · intro hall
      obtain ⟨other, hother, hrecord⟩ := List.mem_map.mp (List.getElem_mem hindex)
      rw [← hrecord] at heq ⊢
      exact hall other hother heq
  · apply iff_of_true (oneSelected_put_new h hone hmem)
    intro other hother huuid
    exact absurd (huuid ▸ List.mem_map_of_mem (List.mem_map_of_mem hother)) hmem

/-- From a list with one selected account, an operation leads to another just if it is no edit that
finds an old flag. -/
theorem oneSelected_step_iff (h : s.Identified) (hone : OneSelected s.records)
    (hs : s.step op = some t) : OneSelected t.records ↔ FlagCurrent s op := by
  cases op with
  | save existing form registered newUuid =>
    obtain ⟨⟨hfresh, hexisting⟩, heq⟩ := Option.ite_none_right_eq_some.mp hs
    cases heq
    by_cases hdone : (form.incomplete || !registered) = true
    · rw [if_pos hdone]
      apply iff_of_true hone
      intro r form' newUuid' heq hcomplete
      cases heq
      rw [hcomplete] at hdone
      cases hdone
    · rw [if_neg hdone]
      rw [Bool.or_eq_true, not_or, Bool.not_eq_true, Bool.not_eq_true', Bool.not_eq_false] at hdone
      obtain ⟨hcomplete, hregistered⟩ := hdone
      cases existing with
      | none =>
        apply iff_of_true (oneSelected_put_new h hone ?_) fun _ _ _ heq ↦ by cases heq
        exact not_mem_uuids h.wellFormed hfresh
      | some r =>
        rw [Option.map_some, saveAccount, withUuid_schema h form (hexisting r rfl),
          oneSelected_put_iff h hone]
        constructor
        · intro hall r' form' newUuid' heq _
          cases heq
          exact hall
        · intro hcurrent
          subst hregistered
          exact hcurrent r form newUuid rfl hcomplete
  | delete uuid =>
    cases hs
    rw [records_deleteAccount h.wellFormed]
    exact iff_of_true (oneSelected_deleteFrom hone uuid) fun _ _ _ heq ↦ by cases heq
  | select uuid =>
    obtain ⟨hsome, heq⟩ := Option.ite_none_right_eq_some.mp hs
    cases heq
    rw [records_setSelectedAccount]
    apply iff_of_true (oneSelected_select h.nodup ?_) fun _ _ _ heq ↦ by cases heq
    by_contra hmem
    rw [indexOf_eq, findIdx?_eq_none hmem] at hsome
    cases hsome

end Steps

/-- In every run from an empty list, exactly one account is selected whenever there is one, if and
only if every edit finds the flag of the record that it was opened on as that of the account is
then. -/
theorem one_selected_iff {ops : List AccountOp} {s : AccountStore}
    (run : ops.foldlM AccountStore.step AccountStore.empty = some s) :
    (∀ first t, first <+: ops → first.foldlM AccountStore.step AccountStore.empty = some t →
      OneSelected t.records) ↔ Path AccountStore.step FlagCurrent AccountStore.empty ops s := by
  have hidentified : AccountStore.empty.Identified :=
    ⟨⟨List.forall_mem_nil _, List.nodup_nil⟩, fun _ h ↦ absurd h (Nat.not_lt_zero _),
      List.nodup_nil⟩
  have hone : OneSelected AccountStore.empty.records := fun hne ↦ absurd rfl hne
  symm
  apply Path.iff_always_kept (I := fun t ↦ OneSelected t.records) hidentified hone ?_ ?_ run
  · exact fun s op t h hs ↦ h.step hs
  · exact fun s op t h hone hs ↦ oneSelected_step_iff h hone hs

/-- A page that is filled in. -/
def filledForm : AccountForm :=
  ⟨"Office", "Ann", "sip.example.com", "ann", "secret", "ann", "", "", "", "", "udp", false, false⟩

/-- An account is created, edited and selected, as an instance. -/
theorem one_selected_iff_edited :
    ∃ s, [.save none filledForm true "a", .save (some 0) filledForm true "b", .select "a"].foldlM
        AccountStore.step AccountStore.empty = some s ∧ OneSelected s.records := by
  have path : Path AccountStore.step FlagCurrent AccountStore.empty [] _ := .nil
  have path := path.next (.save none filledForm true "a") (fun _ _ _ heq ↦ by cases heq) rfl
  have path := path.next (.save (some 0) filledForm true "b") (by
    intro r form newUuid heq _ other hother _
    cases heq
    rw [List.mem_singleton.mp hother]
    rfl) rfl
  have path := path.next (.select "a") (fun _ _ _ heq ↦ by cases heq) rfl
  exact ⟨_, rfl, (one_selected_iff rfl).mpr path _ _ List.prefix_rfl rfl⟩

/-- Two edits are opened on the first of two accounts. The first one ends, the second account is
selected, and the second edit brings the old flag back. -/
theorem two_selected_after_edit :
    ∃ s, [.save none filledForm true "a", .save none filledForm true "b",
        .save (some 0) filledForm true "c", .select "b", .save (some 0) filledForm true "d"].foldlM
          AccountStore.step AccountStore.empty = some s ∧
      s.records.countP (·.isSelected) = 2 ∧ ¬OneSelected s.records := by
  refine ⟨_, rfl, by decide, ?_⟩
  intro hone
  have heq := hone (by decide)
  exact absurd heq (by decide)

end PacketDial.Ui
