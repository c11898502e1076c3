import PacketDial.Ui.AccountService
import PacketDial.Ui.HistoryFile

/-!
# Loading the stores of the app

`AccountService` reads the accounts and the call history from files that hold a JSON array each
(`app_flutter/lib/core/account_service.dart:165–221`). One element that does not decode leaves it
with an empty list, and the next save writes that list over the file.
-/

namespace PacketDial.Ui

open PacketDial.Core PacketDial.Lib

section Loading

variable {α : Type} {decode : Json → Option α} {elements : List Json} {e : Json}

/-- What `loadAccounts` and `loadHistory` keep of an array: an element that throws leaves them with
nothing (`account_service.dart:165–199`). -/
def loadAll (decode : Json → Option α) (elements : List Json) : List α :=
  (elements.mapM decode).getD []

/-- All elements decode, or none does. -/
def AllOrNone (decode : Json → Option α) (elements : List Json) : Prop :=
  (∀ e ∈ elements, (decode e).isSome = true) ∨ ∀ e ∈ elements, decode e = none

/-- One element that does not decode leaves nothing. -/
theorem loadAll_eq_nil (he : e ∈ elements) (h : decode e = none) :
    loadAll decode elements = [] := by
  have hnone : elements.mapM decode = none := by
    induction elements with
    | nil => cases he
    | cons e' elements ih =>
      rw [List.mapM_cons]
      rcases List.mem_cons.mp he with rfl | he
      · rw [h]
        rfl
      · rw [ih he]
        cases decode e' <;> rfl
  rw [loadAll, hnone]
  rfl

/-- Elements that decode one by one decode together. -/
theorem exists_mapM (hall : ∀ e ∈ elements, (decode e).isSome = true) :
    ∃ records, elements.mapM decode = some records := by
  induction elements with
  | nil => exact ⟨[], rfl⟩
  | cons e elements ih =>
    obtain ⟨he, hrest⟩ := List.forall_mem_cons.mp hall
    obtain ⟨a, ha⟩ := Option.isSome_iff_exists.mp he
    obtain ⟨records, hrecords⟩ := ih hrest
    exact ⟨a :: records, by rw [List.mapM_cons, ha, hrecords]; rfl⟩

/-- What decodes together has each element. -/
theorem mem_of_mapM {records : List α} (h : elements.mapM decode = some records) (he : e ∈ elements)
    {a : α} (ha : decode e = some a) : a ∈ records := by
  induction elements generalizing records with
  | nil => cases he
  | cons e' elements ih =>
    rw [List.mapM_cons] at h
    obtain ⟨a', ha', h⟩ := Option.bind_eq_some_iff.mp h
    obtain ⟨rest, hrest, h⟩ := Option.bind_eq_some_iff.mp h
    cases h
    rcases List.mem_cons.mp he with rfl | he
    · cases ha.symm.trans ha'
      exact List.mem_cons_self
    · exact List.mem_cons_of_mem a' (ih hrest he)

/-- Where all elements decode, all are kept. -/
theorem mem_loadAll (hall : ∀ e ∈ elements, (decode e).isSome = true) (he : e ∈ elements) {a : α}
    (ha : decode e = some a) : a ∈ loadAll decode elements := by
  obtain ⟨records, hrecords⟩ := exists_mapM hall
  rw [loadAll, hrecords]
  exact mem_of_mapM hrecords he ha

/-- Where loading is neither, an element that decodes is not kept. -/
theorem exists_lost (h : ¬AllOrNone decode elements) :
    loadAll decode elements = [] ∧ ∃ e ∈ elements, ∃ a, decode e = some a := by
  obtain ⟨hall, hnone⟩ := not_or.mp h
  have hfails : ∃ e ∈ elements, decode e = none := by simpa using hall
  have hdecodes : ∃ e ∈ elements, decode e ≠ none := by simpa using hnone
  obtain ⟨e, he, hfails⟩ := hfails
  obtain ⟨e', he', hdecodes⟩ := hdecodes
  exact ⟨loadAll_eq_nil he hfails, e', he', Option.ne_none_iff_exists'.mp hdecodes⟩

end Loading

section Accounts

variable (enc : Encrypter)

/-- Decode an element of `accounts.json`; one that is no map throws. -/
def decodeAccount : Json → Option StoredAccountSchema
  | .obj fields => StoredAccountSchema.fromJson enc (.obj fields)
  | _ => none

/-- The service that has loaded some records. -/
def AccountStore.ofRecords (records : List StoredAccountSchema) : AccountStore where
  objects r := records.getD r (AccountStore.empty.objects r)
  size := records.length
  accounts := List.range records.length

/-- The operations that save the accounts. -/
inductive AccountSave where
  | setSelectedAccount (uuid : String)
  | saveAccount (newUuid : String) (account : StoredAccountSchema)
  | deleteAccount (uuid : String)
  | setAccountEnabled (uuid : String) (enabled : Bool)

/-- The service after an operation. -/
def AccountSave.run (s : AccountStore) : AccountSave → AccountStore
  | .setSelectedAccount uuid => s.setSelectedAccount uuid
  | .saveAccount newUuid account => s.saveAccount newUuid account
  | .deleteAccount uuid => s.deleteAccount uuid
  | .setAccountEnabled uuid enabled => s.setAccountEnabled uuid enabled

/-- The operation writes the file: the last two only if they find the account. -/
def AccountSave.writes (s : AccountStore) : AccountSave → Bool
  | .deleteAccount uuid => (s.indexOf uuid).isSome
  | .setAccountEnabled uuid _ => (s.indexOf uuid).isSome
  | _ => true

/-- The elements of the file after `loadAccounts` and an operation (`account_service.dart:201–210`).
-/
def accountsAfter (elements : List Json) (op : AccountSave) : List Json :=
  let s := AccountStore.ofRecords (loadAll (decodeAccount enc) elements)
  if op.writes s then (op.run s).records.map (StoredAccountSchema.toJson enc) else elements

/-- The operation deletes the account. -/
def AccountSave.Deletes (op : AccountSave) (uuid : String) : Prop := op = .deleteAccount uuid

/-- The operation saves a new record of the account. -/
def AccountSave.Replaces (op : AccountSave) (uuid : String) : Prop :=
  ∃ newUuid account, op = .saveAccount newUuid account ∧ (account.withUuid newUuid).uuid = uuid

/-- A record of the same account: the same in every field but the two flags that operations set,
unless the operation saved it. -/
def AccountSave.Carries (op : AccountSave) (a b : StoredAccountSchema) : Prop :=
  b.uuid = a.uuid ∧
    (b = { a with isSelected := b.isSelected, isEnabled := b.isEnabled } ∨ op.Replaces a.uuid)

/-- Every element that decodes on its own is still there after the operation, or a record of its
account is, unless the operation deletes it. -/
def AccountsKept (elements : List Json) (op : AccountSave) : Prop :=
  ∀ e ∈ elements, ∀ a, decodeAccount enc e = some a → ¬op.Deletes a.uuid →
    e ∈ accountsAfter enc elements op ∨
      ∃ b, b.toJson enc ∈ accountsAfter enc elements op ∧ op.Carries a b

end Accounts

section AccountOperations

open AccountStore

variable {enc : Encrypter} {records : List StoredAccountSchema} {a account : StoredAccountSchema}
  {uuid : String}

/-- The service that has loaded some records has these. -/
theorem records_ofRecords (records : List StoredAccountSchema) :
    (ofRecords records).records = records := by
  apply List.ext_getElem
  · simp [ofRecords, AccountStore.records]
  · intro i hi hi'
    simp [ofRecords, AccountStore.records, hi']

/-- The list of records that were loaded is well-formed. -/
theorem wellFormed_ofRecords (records : List StoredAccountSchema) :
    (ofRecords records).WellFormed :=
  ⟨fun _ hr ↦ List.mem_range.mp hr, List.nodup_range⟩

/-- A record stays when another is put among them, unless it has the same uuid. -/
theorem mem_putAmong (h : a ∈ records) : a ∈ putAmong records account ∨
    account.uuid = a.uuid ∧ account ∈ putAmong records account := by
  unfold putAmong
  cases hfind : records.findIdx? (·.uuid == account.uuid) with
  | none => exact .inl (List.mem_append_left _ h)
  | some index =>
    obtain ⟨hindex, hfound, -⟩ := List.findIdx?_eq_some_iff_getElem.mp hfind
    obtain ⟨i, hi, heq⟩ := List.mem_iff_getElem.mp h
    dsimp only
    by_cases hsame : i = index
    · subst hsame
      right
      rw [← heq]
      exact ⟨(eq_of_beq hfound).symm, List.mem_set hi _⟩
    · left
      rw [← heq, ← List.getElem_set_ne (Ne.symm hsame) (by simpa using hi)]
      exact List.getElem_mem _

/-- A record stays when an account with another uuid is deleted, but it may be selected then. -/
theorem mem_deleteFrom (h : a ∈ records) (huuid : a.uuid ≠ uuid) :
    a ∈ deleteFrom records uuid ∨ a.flagged true ∈ deleteFrom records uuid := by
  unfold deleteFrom
  cases hfind : records.findIdx? (·.uuid == uuid) with
  | none => exact .inl h
  | some index =>
    obtain ⟨hindex, hfound, -⟩ := List.findIdx?_eq_some_iff_getElem.mp hfind
    obtain ⟨i, hi, heq⟩ := List.mem_iff_getElem.mp h
    have hne : i ≠ index := by
      rintro rfl
      exact huuid (heq ▸ eq_of_beq hfound)
    have hrest : a ∈ records.eraseIdx index :=
      List.mem_eraseIdx_iff_getElem.mpr ⟨i, hi, hne, heq⟩
    dsimp only
    split
    · cases hcases : records.eraseIdx index with
      | nil => rw [hcases] at hrest; cases hrest
      | cons first rest =>
        rw [hcases] at hrest
        rcases List.mem_cons.mp hrest with rfl | hrest
        · exact .inr List.mem_cons_self
        · exact .inl (List.mem_cons_of_mem _ hrest)
    · exact .inl hrest

/-- A record stays when an account is enabled or disabled, but it may be the one. -/
theorem mem_setAccountEnabled {s : AccountStore} (h : a ∈ s.records) (uuid : String)
    (enabled : Bool) :
    ∃ isEnabled, { a with isEnabled } ∈ (s.setAccountEnabled uuid enabled).records := by
  obtain ⟨r, hr, rfl⟩ := List.mem_map.mp h
  unfold setAccountEnabled
  cases s.accounts.find? fun r ↦ (s.objects r).uuid == uuid with
  | none => exact ⟨(s.objects r).isEnabled, List.mem_map_of_mem hr⟩
  | some found =>
    by_cases heq : r = found
    · subst heq
      refine ⟨enabled, List.mem_map.mpr ⟨r, hr, ?_⟩⟩
      exact Function.update_self r _ s.objects
    · refine ⟨(s.objects r).isEnabled, List.mem_map.mpr ⟨r, hr, ?_⟩⟩
      exact Function.update_of_ne heq _ s.objects

/-- After an operation there is a record of each account that it does not delete. -/
theorem exists_carried {s : AccountStore} (h : s.WellFormed) (op : AccountSave)
    (ha : a ∈ s.records) (hkeeps : ¬op.Deletes a.uuid) :
    ∃ b ∈ (op.run s).records, op.Carries a b := by
  cases op with
  | setSelectedAccount uuid =>
    refine ⟨a.flagged (a.uuid == uuid), ?_, rfl, .inl rfl⟩
    rw [AccountSave.run, records_setSelectedAccount]
    exact List.mem_map_of_mem ha
  | saveAccount newUuid account =>
    rw [AccountSave.run, saveAccount, records_put h]
    rcases mem_putAmong ha with hmem | ⟨huuid, hmem⟩
    · exact ⟨a, hmem, rfl, .inl rfl⟩
    · exact ⟨_, hmem, huuid, .inr ⟨newUuid, account, rfl, huuid⟩⟩
  | deleteAccount uuid =>
    rw [AccountSave.run, records_deleteAccount h]
    have hne : a.uuid ≠ uuid := fun heq ↦ hkeeps (by rw [heq]; rfl)
    rcases mem_deleteFrom ha hne with hmem | hmem
    · exact ⟨a, hmem, rfl, .inl rfl⟩
    · exact ⟨a.flagged true, hmem, rfl, .inl rfl⟩
  | setAccountEnabled uuid enabled =>
    obtain ⟨isEnabled, hmem⟩ := mem_setAccountEnabled ha uuid enabled
    exact ⟨_, hmem, rfl, .inl rfl⟩

/-- The accounts that decode stay just if all decode or none does. -/
theorem accountsKept_iff (elements : List Json) :
    (∀ op, AccountsKept enc elements op) ↔ AllOrNone (decodeAccount enc) elements := by
  constructor
  · intro kept
    by_contra hmixed
    obtain ⟨hnil, e, he, a, ha⟩ := exists_lost hmixed
    have hempty : accountsAfter enc elements (.setSelectedAccount "") = [] := by
      unfold accountsAfter
      rw [hnil]
      rfl
    have h := kept (.setSelectedAccount "") e he a ha fun hdel ↦ by cases hdel
    rw [hempty] at h
    rcases h with h | ⟨b, h, -⟩
    · cases h
    · cases h
  · rintro (hall | hnone) op e he a ha hkeeps
    · unfold accountsAfter
      dsimp only
      split
      · right
        have hmem : a ∈ (ofRecords (loadAll (decodeAccount enc) elements)).records := by
          rw [records_ofRecords]
          exact mem_loadAll hall he ha
        obtain ⟨b, hb, hcarries⟩ := exists_carried (wellFormed_ofRecords _) op hmem hkeeps
        exact ⟨b, List.mem_map_of_mem hb, hcarries⟩
      · exact .inl he
    · rw [hnone e he] at ha
      cases ha

end AccountOperations

section History

variable (toIso8601String : Int → String) (parse : String → Option Int)

/-- The operations that save the call history. -/
inductive HistorySave where
  | saveCallHistory (newId : String) (entry : HistoryEntry)
  | clearHistory

/-- The history after an operation (`account_service.dart:360–373`). -/
def HistorySave.run (history : List HistoryEntry) : HistorySave → List HistoryEntry
  | .saveCallHistory newId entry => history ++ [withId newId entry]
  | .clearHistory => []

/-- The elements of the file after `loadHistory` and an operation (`account_service.dart:212–221`).
-/
def historyAfter (elements : List Json) (op : HistorySave) : List Json :=
  (op.run (loadAll (HistoryEntry.fromJson parse) elements)).map
    (HistoryEntry.toJson toIso8601String)

/-- Every entry that decodes on its own is still there after the operation, unless that clears the
history. -/
def HistoryKept (elements : List Json) (op : HistorySave) : Prop :=
  ∀ e ∈ elements, ∀ entry, HistoryEntry.fromJson parse e = some entry → op ≠ .clearHistory →
    entry.toJson toIso8601String ∈ historyAfter toIso8601String parse elements op

variable {toIso8601String parse}

/-- Entries with other ids are written otherwise. -/
theorem toJson_ne_of_id {entry other : HistoryEntry} (h : entry.id ≠ other.id) :
    entry.toJson toIso8601String ≠ other.toJson toIso8601String := by
  intro heq
  have hid := congrArg (fun json ↦ json.get "id") heq
  exact h (Json.str.inj hid)

/-- The entries that decode stay just if all decode or none does. -/
theorem historyKept_iff (elements : List Json) :
    (∀ op, HistoryKept toIso8601String parse elements op) ↔
      AllOrNone (HistoryEntry.fromJson parse) elements := by
  constructor
  · intro kept
    by_contra hmixed
    obtain ⟨hnil, e, he, entry, hentry⟩ := exists_lost hmixed
    -- Another entry is saved, under an id of its own.
    have hid : entry.id ++ "x" ≠ "" := by simp
    have hwith : withId "" { entry with id := entry.id ++ "x" } =
        { entry with id := entry.id ++ "x" } := if_neg hid
    have h := kept (.saveCallHistory "" { entry with id := entry.id ++ "x" }) e he entry hentry
      fun heq ↦ by cases heq
    rw [historyAfter, hnil, HistorySave.run, hwith, List.nil_append, List.map_singleton,
      List.mem_singleton] at h
    refine toJson_ne_of_id ?_ h
    intro heq
    have hlen := congrArg String.length heq
    simp at hlen
  · rintro (hall | hnone) op e he entry hentry hkeeps
    · cases op with
      | clearHistory => exact absurd rfl hkeeps
      | saveCallHistory newId new =>
        apply List.mem_map_of_mem
        exact List.mem_append_left _ (mem_loadAll hall he hentry)
    · rw [hnone e he] at hentry
      cases hentry

end History

/-- Every element of a file that decodes on its own is still there after the file was loaded and
saved by an operation that does not delete it, if and only if all elements of the file decode or
none does. -/
theorem store_kept_iff (enc : Encrypter) (toIso8601String : Int → String)
    (parse : String → Option Int) :
    (∀ elements, (∀ op, AccountsKept enc elements op) ↔ AllOrNone (decodeAccount enc) elements) ∧
      ∀ elements, (∀ op, HistoryKept toIso8601String parse elements op) ↔
        AllOrNone (HistoryEntry.fromJson parse) elements :=
  ⟨accountsKept_iff, historyKept_iff⟩

/-- An account whose neighbour has a number for a uuid is lost when an account is selected. -/
theorem account_lost :
    ¬AccountsKept (maskEncrypter []) [.obj [("uuid", .str "a")], .obj [("uuid", .num (.posInt 5))]]
      (.setSelectedAccount "a") := by
  intro kept
  have h := kept _ List.mem_cons_self _ rfl fun hdel ↦ by cases hdel
  rcases h with h | ⟨b, h, -⟩
  · cases h
  · cases h

end PacketDial.Ui
