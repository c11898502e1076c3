import PacketDial.Lib.Paths
import PacketDial.Shim.Settings

/-!
# The DTMF method of a call

`pd_call_send_dtmf` takes the method from an array that is indexed by the PJSIP id of the account
(`core_rust/src/shim/pjsip_shim.c:91–98`, `1398–1450`). The array has no value for an account whose
method was never set: it starts out with zeros, and adding an account leaves it as it is.
-/

namespace PacketDial.Shim

open PacketDial.Core PacketDial.Lib

/-- The methods in the shim, and the accounts that PJSIP has. -/
structure DtmfStore where
  globalMethod : Int
  accMethod : Int → Int
  accounts : List Int

/-- `g_global_dtmf_method` is Auto, and the array has zeros (`pjsip_shim.c:92`, `98`). -/
def DtmfStore.initial : DtmfStore := ⟨3, fun _ ↦ 0, []⟩

/-- Store the method of an account. -/
def DtmfStore.put (st : DtmfStore) (accId dtmfMethod : Int) : DtmfStore :=
  { st with accMethod := Function.update st.accMethod accId dtmfMethod }

/-- A call of the shim, with what it returned. -/
structure ShimResult where
  call : ShimCall
  rc : Int

/-- What a call changes (`pjsip_shim.c:2177–2190`, `2252–2270`). PJSIP gives a new account an id
below `PJSUA_MAX_ACC` that no other account has. -/
def DtmfStore.step (st : DtmfStore) (r : ShimResult) : Option DtmfStore :=
  match r.call with
  | .pdAccAdd _ =>
    if r.rc < 0 then some st
    else if InRange r.rc ∧ r.rc ∉ st.accounts then
      some { st with accounts := r.rc :: st.accounts }
    else none
  | .pdAccRemove accId =>
    some <| if r.rc = 0 then { st with accounts := st.accounts.filter (· ≠ accId) } else st
  | .pdAccSetDtmfMethod accId dtmfMethod =>
    some <| if InRange accId then st.put accId dtmfMethod else st
  | .pdSetGlobalDtmfMethod dtmfMethod =>
    some { st with
      globalMethod := dtmfMethod
      accMethod := fun accId ↦
        if accId ∈ st.accounts ∧ accId ≠ -1 ∧ accId < maxAccounts then dtmfMethod
        else st.accMethod accId }
  | .pdShutdown => some { st with accounts := [] }
  | _ => some st

/-- The method that `pd_call_send_dtmf` uses, given the account that `pjsua_call_get_info` tells of
the call (`pjsip_shim.c:1403–1410`). -/
def DtmfStore.method (st : DtmfStore) (callInfo : Option Int) : Int :=
  match callInfo with
  | some accId => if InRange accId then st.accMethod accId else st.globalMethod
  | none => st.globalMethod

/-- The ways to send digits. -/
inductive DtmfSend where
  | rfc2833
  | sipInfo
  | inBand
  deriving DecidableEq

/-- How `pd_call_send_dtmf` sends the digits of a call, in the order it tries; `negotiated` tells
whether PJSIP sends them by RFC 2833 (`pjsip_shim.c:1414–1449`). -/
def DtmfStore.sends (st : DtmfStore) (callInfo : Option Int) (negotiated : Bool) : List DtmfSend :=
  let method := st.method callInfo
  if method = 1 ∨ method = 3 then if negotiated then [.rfc2833] else [.rfc2833, .inBand]
  else if method = 2 then [.sipInfo]
  else [.inBand]

/-- What was asked for: the global method, and what was set for an account since it was added or a
global method was set. -/
structure Asked where
  globalMethod : Int
  accMethod : Int → Option Int

/-- Note what is asked for an account. -/
def Asked.put (a : Asked) (accId : Int) (dtmfMethod : Option Int) : Asked :=
  { a with accMethod := Function.update a.accMethod accId dtmfMethod }

/-- What is asked for after a call. -/
def Asked.step (a : Asked) (r : ShimResult) : Asked :=
  match r.call with
  | .pdAccAdd _ =>
    if r.rc < 0 then a else a.put r.rc none
  | .pdAccSetDtmfMethod accId dtmfMethod => a.put accId (some dtmfMethod)
  | .pdSetGlobalDtmfMethod dtmfMethod => ⟨dtmfMethod, fun _ ↦ none⟩
  | _ => a

/-- The method that an account should use. -/
def Asked.method (a : Asked) (accId : Int) : Int := (a.accMethod accId).getD a.globalMethod

/-- The methods in the shim, next to what was asked for. -/
structure DtmfDesk where
  store : DtmfStore
  asked : Asked

/-- Nothing was asked for yet. -/
def DtmfDesk.initial : DtmfDesk := ⟨.initial, 3, fun _ ↦ none⟩

/-- One call of the shim. -/
def DtmfDesk.step (t : DtmfDesk) (r : ShimResult) : Option DtmfDesk :=
  (t.store.step r).map fun store ↦ ⟨store, t.asked.step r⟩

/-- A call of any account uses the method that was asked for. -/
def DtmfDesk.Resolves (t : DtmfDesk) : Prop :=
  ∀ accId ∈ t.store.accounts, t.store.method (some accId) = t.asked.method accId

/-- A new account finds the global method in the array. -/
def FindsGlobal (t : DtmfDesk) (r : ShimResult) : Prop :=
  ∀ args, r.call = .pdAccAdd args → 0 ≤ r.rc → t.store.accMethod r.rc = t.store.globalMethod

/-- An account to add. -/
def plainAccount : AccAddArgs :=
  ⟨"sip:ann@b", "sip:b", "ann", "", "ann", "", 0, "", 0, "Ann"⟩

/-- The global method is the one asked for, and the ids of accounts are indices of the array. -/
structure DtmfDesk.Sound (t : DtmfDesk) : Prop where
  global : t.store.globalMethod = t.asked.globalMethod
  inRange : ∀ accId ∈ t.store.accounts, InRange accId

section Steps

variable {t u : DtmfDesk} {r : ShimResult}

/-- The method of an account is the one in the array. -/
theorem method_of_inRange {st : DtmfStore} {accId : Int} (h : InRange accId) :
    st.method (some accId) = st.accMethod accId := if_pos h

/-- What is noted for an account, it should use. -/
@[simp] theorem method_put_self (a : Asked) (accId : Int) (dtmfMethod : Option Int) :
    (a.put accId dtmfMethod).method accId = dtmfMethod.getD a.globalMethod := by
  simp [Asked.put, Asked.method]

/-- Other accounts should use what they used. -/
theorem method_put_of_ne (a : Asked) {accId other : Int} (h : other ≠ accId)
    (dtmfMethod : Option Int) : (a.put accId dtmfMethod).method other = a.method other := by
  simp [Asked.put, Asked.method, Function.update_of_ne h]

/-- The desk before the first call. -/
theorem sound_initial : DtmfDesk.initial.Sound := ⟨rfl, fun _ h ↦ by cases h⟩

/-- Only a new account can find a method that nobody asked for. -/
theorem findsGlobal_of_not_add (h : ∀ args, r.call ≠ .pdAccAdd args) : FindsGlobal t r :=
  fun args hcall ↦ absurd hcall (h args)

/-- A new account uses the method asked for just if it finds the global one in the array. -/
theorem resolves_add {accId : Int} (h : t.Sound) (hres : t.Resolves) (hrange : InRange accId)
    (hnew : accId ∉ t.store.accounts) :
    DtmfDesk.Resolves ⟨{ t.store with accounts := accId :: t.store.accounts },
      t.asked.put accId none⟩ ↔ t.store.accMethod accId = t.store.globalMethod := by
  have hothers : ∀ other ∈ t.store.accounts,
      t.store.method (some other) = (t.asked.put accId none).method other := by
    intro other hother
    have hne : other ≠ accId := fun heq ↦ hnew (heq ▸ hother)
    rw [method_put_of_ne _ hne]
    exact hres other hother
  unfold DtmfDesk.Resolves
  rw [List.forall_mem_cons, method_put_self, Option.getD_none, method_of_inRange hrange, ← h.global]
  exact and_iff_left hothers

/-- Setting the method of an account is what was asked for. -/
theorem resolves_set (h : t.Sound) (hres : t.Resolves) (accId dtmfMethod : Int) :
    DtmfDesk.Resolves ⟨if InRange accId then t.store.put accId dtmfMethod else t.store,
      t.asked.put accId (some dtmfMethod)⟩ := by
  by_cases hrange : InRange accId
  · rw [if_pos hrange]
    intro other hother
    have hin := h.inRange other hother
    by_cases heq : other = accId
    · subst heq
      rw [method_put_self, method_of_inRange hin]
      exact Function.update_self other dtmfMethod t.store.accMethod
    · rw [method_put_of_ne _ heq, ← hres other hother, method_of_inRange hin,
        method_of_inRange hin]
      exact Function.update_of_ne heq dtmfMethod t.store.accMethod
  · rw [if_neg hrange]
    intro other hother
    have hne : other ≠ accId := fun heq ↦ hrange (heq ▸ h.inRange other hother)
    rw [method_put_of_ne _ hne]
    exact hres other hother

/-- The global method reaches every account. -/
theorem resolves_setGlobal (h : t.Sound) (dtmfMethod : Int) :
    DtmfDesk.Resolves ⟨{ t.store with
      globalMethod := dtmfMethod
      accMethod := fun accId ↦
        if accId ∈ t.store.accounts ∧ accId ≠ -1 ∧ accId < maxAccounts then dtmfMethod
        else t.store.accMethod accId }, dtmfMethod, fun _ ↦ none⟩ := by
  intro accId hmem
  have hin := h.inRange accId hmem
  have hreached : accId ∈ t.store.accounts ∧ accId ≠ -1 ∧ accId < maxAccounts := by
    refine ⟨hmem, ?_, hin.2⟩
    have hpos := hin.1
    omega
  rw [method_of_inRange hin]
  exact if_pos hreached

/-- Every call leaves the desk sound. -/
theorem DtmfDesk.Sound.step (h : t.Sound) (hs : t.step r = some u) : u.Sound := by
  obtain ⟨call, rc⟩ := r
  obtain ⟨store, hstore, rfl⟩ := Option.map_eq_some_iff.mp hs
  cases call with
  | pdAccAdd args =>
    simp only [DtmfStore.step] at hstore
    split at hstore
    · next hfailed =>
      cases hstore
      rw [Asked.step, if_pos hfailed]
      exact h
    · next hrc =>
      split at hstore
      · next hfresh =>
        cases hstore
        rw [Asked.step, if_neg hrc]
        exact ⟨h.global, List.forall_mem_cons.mpr ⟨hfresh.1, h.inRange⟩⟩
      · cases hstore
  | pdAccRemove accId =>
    cases hstore
    split
    · exact ⟨h.global, fun other hother ↦ h.inRange other (List.mem_of_mem_filter hother)⟩
    · exact h
  | pdAccSetDtmfMethod accId dtmfMethod =>
    cases hstore
    split
    · exact ⟨h.global, h.inRange⟩
    · exact ⟨h.global, h.inRange⟩
  | pdSetGlobalDtmfMethod dtmfMethod =>
    cases hstore
    exact ⟨rfl, h.inRange⟩
  | pdShutdown =>
    cases hstore
    exact ⟨h.global, fun _ hmem ↦ by cases hmem⟩
  | _ =>
    cases hstore
    exact h

/-- A step from a desk where calls use the methods asked for leads to one like it just if a new
account finds the global method in the array. -/
theorem resolves_step_iff (h : t.Sound) (hres : t.Resolves) (hs : t.step r = some u) :
    u.Resolves ↔ FindsGlobal t r := by
  obtain ⟨call, rc⟩ := r
  obtain ⟨store, hstore, rfl⟩ := Option.map_eq_some_iff.mp hs
  cases call with
  | pdAccAdd args =>
    simp only [DtmfStore.step] at hstore
    split at hstore
    · next hfailed =>
      cases hstore
      rw [Asked.step, if_pos hfailed]
      apply iff_of_true hres
      exact fun _ _ hrc ↦ absurd hrc (Int.not_le.mpr hfailed)
    · next hrc =>
      split at hstore
      · next hfresh =>
        cases hstore
        rw [Asked.step, if_neg hrc]
        apply (resolves_add h hres hfresh.1 hfresh.2).trans
        exact ⟨fun heq _ _ _ ↦ heq, fun hfinds ↦ hfinds args rfl (Int.not_lt.mp hrc)⟩
      · cases hstore
  | pdAccRemove accId =>
    cases hstore
    apply iff_of_true ?_ (findsGlobal_of_not_add fun _ heq ↦ by cases heq)
    split
    · exact fun other hother ↦ hres other (List.mem_of_mem_filter hother)
    · exact hres
  | pdAccSetDtmfMethod accId dtmfMethod =>
    cases hstore
    apply iff_of_true (resolves_set h hres accId dtmfMethod)
    exact findsGlobal_of_not_add fun _ heq ↦ by cases heq
  | pdSetGlobalDtmfMethod dtmfMethod =>
    cases hstore
    apply iff_of_true (resolves_setGlobal h dtmfMethod)
    exact findsGlobal_of_not_add fun _ heq ↦ by cases heq
  | pdShutdown =>
    cases hstore
    apply iff_of_true (fun _ hmem ↦ by cases hmem)
    exact findsGlobal_of_not_add fun _ heq ↦ by cases heq
  | _ =>
    cases hstore
    apply iff_of_true hres
    exact findsGlobal_of_not_add fun _ heq ↦ by cases heq

end Steps

/-- In every history, each call of an account uses the method that was last set for the account
since it was added or a global method was set, and otherwise the global method, if and only if each
new account finds the global method in the array. -/
theorem dtmf_method_iff {rs : List ShimResult} {t : DtmfDesk}
    (run : rs.foldlM DtmfDesk.step DtmfDesk.initial = some t) :
    (∀ first u, first <+: rs → first.foldlM DtmfDesk.step DtmfDesk.initial = some u →
      u.Resolves) ↔ Path DtmfDesk.step FindsGlobal DtmfDesk.initial rs t := by
  have hinitial : DtmfDesk.initial.Resolves := fun _ hmem ↦ by cases hmem
  symm
  apply Path.iff_always_kept sound_initial hinitial ?_ ?_ run
  · exact fun t r u h hs ↦ h.step hs
  · exact fun t r u h hres hs ↦ resolves_step_iff h hres hs

/-- An account that is added under the in-band method, as an instance. -/
theorem dtmf_method_iff_inBand :
    ∃ t, [⟨.pdSetGlobalDtmfMethod 0, 0⟩, ⟨.pdAccAdd plainAccount, 0⟩,
        ⟨.pdAccSetDtmfMethod 0 2, 0⟩].foldlM DtmfDesk.step DtmfDesk.initial = some t ∧
      t.Resolves ∧ t.store.sends (some 0) true = [.sipInfo] := by
  have path : Path DtmfDesk.step FindsGlobal DtmfDesk.initial [] _ := .nil
  have path := path.next ⟨.pdSetGlobalDtmfMethod 0, 0⟩
    (findsGlobal_of_not_add fun _ h ↦ by cases h) rfl
  have path := path.next ⟨.pdAccAdd plainAccount, 0⟩ (fun _ _ _ ↦ rfl) rfl
  have path := path.next ⟨.pdAccSetDtmfMethod 0 2, 0⟩
    (findsGlobal_of_not_add fun _ h ↦ by cases h) rfl
  exact ⟨_, rfl, (dtmf_method_iff rfl).mpr path _ _ List.prefix_rfl rfl, by decide⟩

/-- An account that is added after RFC 2833 was set sends its digits in-band. -/
theorem added_sends_inBand :
    ∃ t, [⟨.pdSetGlobalDtmfMethod 1, 0⟩, ⟨.pdAccAdd plainAccount, 0⟩].foldlM DtmfDesk.step
        DtmfDesk.initial = some t ∧ ¬t.Resolves ∧ t.store.sends (some 0) true = [.inBand] := by
  refine ⟨_, rfl, ?_, by decide⟩
  intro h
  have heq := h 0 (List.mem_singleton_self 0)
  exact absurd heq (by decide)

end PacketDial.Shim
