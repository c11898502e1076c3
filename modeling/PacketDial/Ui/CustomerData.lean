import PacketDial.Lib.Paths
import PacketDial.Ui.Integration

/-!
# The customer data of a call

`IntegrationService` keeps the data of the last lookup that resolved, whichever call it was for
(`integration_service.dart:25,128`), and hands every data on to whatever banner is shown. So a call
has data of its own just if the last lookup was for its URI or found nothing.
-/

namespace PacketDial.Ui

open PacketDial.Core PacketDial.Lib PacketDial.System

/-- The data is of a URI, if there is any. -/
def DataOf (uri : String) (data : Option Resolved) : Prop := ∀ found ∈ data, found.uri = uri

/-- The customer data that a hook used is of its call, and the data in the banner of its own. -/
structure OwnData (a : App) : Prop where
  runs : ∀ run ∈ a.runs, DataOf run.call.uri run.data
  banner : ∀ banner ∈ a.banner, DataOf banner.uri banner.customerData

/-- The last lookup that has resolved was for a URI or found nothing. -/
def App.LastLookup (a : App) (uri : String) : Prop :=
  ∀ lookup ∈ a.resolved.getLast?, lookup.2.isSome → lookup.1 = uri

/-- The bus delivers an answer or an end that runs a hook. -/
def App.UsesData (a : App) (call : ActiveCall) : Prop :=
  (call.state = .inCall ∧ call.callId ∉ a.answeredCalls) ∨
    (call.state = .ended ∧ call.callId ∉ a.endedCalls)

/-- The call whose end a `CallStateChanged` event reports. -/
def endOf (payload : Json) : Option Int := do
  let callId ← (← asNumToInt (payload.get "call_id"))
  let state ← (← asString (payload.get "state"))
  if CallState.fromString state = .ended then some callId else none

/-- At the step the last lookup is of the call that uses it, and a lookup that finds something is
of the call in the banner. -/
def UsesOwn (t : Office) : OfficeMove → Prop
  | .input i => ∀ payload ∈ reports (i.acts t.engine), ∀ callId ∈ endOf payload,
      ∀ call ∈ t.app.activeCalls.lookup callId, t.app.LastLookup call.uri
  | .app (.deliver _) => ∀ call ∈ t.app.bus.head?, t.app.UsesData call → t.app.LastLookup call.uri
  | .app (.resolve k result) => ∀ call ∈ t.app.lookups[k]?, result.isSome →
      ∀ banner ∈ t.app.banner, banner.uri = call.uri
  | .app (.upload k) => ∀ call ∈ t.app.uploads[k]?, t.app.LastLookup call.uri
  | .app _ => True

/-- The service keeps the data of the last lookup. -/
def Linked (a : App) : Prop :=
  a.lastCustomerData = a.resolved.getLast?.bind fun lookup ↦ lookup.2.map (Resolved.mk lookup.1)

section App

variable {a b : App} {call : ActiveCall}

/-- No data is of any URI. -/
theorem dataOf_none (uri : String) : DataOf uri none := fun _ h ↦ by cases h

/-- The data that the service keeps, against the last lookup. -/
theorem Linked.dataOf (h : Linked a) (uri : String) :
    DataOf uri a.lastCustomerData ↔ a.LastLookup uri := by
  unfold DataOf App.LastLookup
  rw [h]
  cases a.resolved.getLast? with
  | none => simp
  | some lookup =>
    obtain ⟨found, result⟩ := lookup
    cases result <;> simp

/-- A hook that runs must use data of its call. -/
theorem ownData_record {hook : Hook} {data : Option Resolved} :
    OwnData (a.record hook call data) ↔ OwnData a ∧ DataOf call.uri data := by
  constructor
  · rintro ⟨hruns, hbanner⟩
    have hmem : (⟨hook, call, data⟩ : HookRun) ∈ (a.record hook call data).runs :=
      List.mem_append_right _ (List.mem_singleton_self _)
    exact ⟨⟨fun run hrun ↦ hruns run (List.mem_append_left _ hrun), hbanner⟩, hruns _ hmem⟩
  · rintro ⟨⟨hruns, hbanner⟩, hdata⟩
    refine ⟨fun run hrun ↦ ?_, hbanner⟩
    rcases List.mem_append.mp hrun with hrun | hrun
    · exact hruns run hrun
    · rw [List.mem_singleton.mp hrun]
      exact hdata

/-- Only the runs and the banner matter. -/
theorem ownData_congr (hruns : b.runs = a.runs) (hbanner : b.banner = a.banner) :
    OwnData b ↔ OwnData a := by
  constructor <;> rintro ⟨h, h'⟩
  · exact ⟨hruns ▸ h, hbanner ▸ h'⟩
  · exact ⟨hruns ▸ h, hbanner ▸ h'⟩

/-- Only the banner changes when an event is shown. -/
theorem showCallEvent_eq (dndEnabled : Bool) (a : App) (call : ActiveCall) :
    ∃ banner, a.showCallEvent dndEnabled call = { a with banner } := by
  unfold App.showCallEvent
  split
  · exact ⟨_, rfl⟩
  split
  · exact ⟨_, rfl⟩
  · exact ⟨a.banner, rfl⟩

/-- An event that the bus delivers: the banner starts without data. -/
theorem OwnData.showCallEvent (h : OwnData a) (dndEnabled : Bool) :
    OwnData (a.showCallEvent dndEnabled call) := by
  unfold App.showCallEvent
  split
  · refine ⟨h.runs, fun banner hbanner ↦ ?_⟩
    cases hbanner
    exact dataOf_none _
  split
  · exact ⟨h.runs, fun banner hbanner ↦ by cases hbanner⟩
  · exact h

/-- An event that the bus delivers: a hook of an answer or an end uses the data. -/
theorem ownData_onCallEvent (h : OwnData a) : OwnData (a.onCallEvent call) ↔
    (a.UsesData call → DataOf call.uri a.lastCustomerData) := by
  have run (b : App) (hook : Hook) (data : Option Resolved)
      (hruns : b.runs = (a.record hook call data).runs) (hbanner : b.banner = a.banner) :
      OwnData b ↔ DataOf call.uri data := by
    rw [ownData_congr hruns hbanner, ownData_record]
    exact and_iff_right h
  have idle (huses : ¬a.UsesData call) :
      OwnData a ↔ (a.UsesData call → DataOf call.uri a.lastCustomerData) :=
    iff_of_true h fun huses' ↦ absurd huses' huses
  unfold App.onCallEvent
  by_cases hring : call.direction = .incoming ∧ call.state = .ringing
  · have huses : ¬a.UsesData call := by
      rintro (⟨hstate, -⟩ | ⟨hstate, -⟩) <;> exact absurd (hring.2.symm.trans hstate) (by decide)
    rw [if_pos hring]
    split
    · exact idle huses
    · refine Iff.trans (run _ .ring none rfl rfl) ?_
      exact iff_of_true (dataOf_none _) fun huses' ↦ absurd huses' huses
  rw [if_neg hring]
  by_cases hanswer : call.state = .inCall
  · rw [if_pos hanswer]
    split
    · next hmem =>
      refine idle ?_
      rintro (⟨-, hnot⟩ | ⟨hstate, -⟩)
      · exact hnot hmem
      · exact absurd (hanswer.symm.trans hstate) (by decide)
    · next hmem =>
      have huses : a.UsesData call := Or.inl ⟨hanswer, hmem⟩
      refine Iff.trans (run _ .answered a.lastCustomerData rfl rfl) ?_
      exact ⟨fun hdata _ ↦ hdata, fun hdata ↦ hdata huses⟩
  rw [if_neg hanswer]
  by_cases hended : call.state = .ended
  · rw [if_pos hended]
    split
    · next hmem =>
      refine idle ?_
      rintro (⟨hstate, -⟩ | ⟨-, hnot⟩)
      · exact hanswer hstate
      · exact hnot hmem
    · next hmem =>
      have huses : a.UsesData call := Or.inr ⟨hended, hmem⟩
      refine Iff.trans (run _ .ended a.lastCustomerData rfl rfl) ?_
      exact ⟨fun hdata _ ↦ hdata, fun hdata ↦ hdata huses⟩
  · rw [if_neg hended]
    refine idle ?_
    rintro (⟨hstate, -⟩ | ⟨hstate, -⟩)
    · exact hanswer hstate
    · exact hended hstate

/-- A report of an end runs the hook for the entry of the call. -/
theorem ownData_onReport (h : OwnData a) : OwnData (a.onReport call) ↔
    (call.state = .ended → ∀ old ∈ a.activeCalls.lookup call.callId,
      DataOf old.uri a.lastCustomerData) := by
  unfold App.onReport
  dsimp only
  by_cases hended : call.state = .ended
  · rw [if_pos hended]
    cases a.activeCalls.lookup call.callId with
    | none => exact iff_of_true ⟨h.runs, h.banner⟩ fun _ old hold ↦ by cases hold
    | some old =>
      have hdata : OwnData (a.record .ended old a.lastCustomerData) ↔
          DataOf old.uri a.lastCustomerData := ownData_record.trans (and_iff_right h)
      refine Iff.trans (ownData_congr (a := a.record .ended old a.lastCustomerData) rfl rfl) ?_
      rw [hdata]
      exact ⟨fun hdata _ _ hold ↦ Option.some.inj hold ▸ hdata, fun hdata ↦ hdata hended old rfl⟩
  · rw [if_neg hended]
    exact iff_of_true ⟨h.runs, h.banner⟩ fun hended' ↦ absurd hended' hended

/-- A lookup resolves: what it found goes to the banner that is shown. -/
theorem ownData_resolve (h : OwnData a) (uri : String) (result : Option CustomerData) :
    OwnData (a.resolve uri result) ↔
      (result.isSome → ∀ banner ∈ a.banner, banner.uri = uri) := by
  cases result with
  | none => exact iff_of_true ⟨h.runs, h.banner⟩ fun hsome ↦ by cases hsome
  | some data =>
    constructor
    · intro hafter _ banner hbanner
      have hmem : { banner with customerData := some ⟨uri, data⟩ } ∈
          (a.resolve uri (some data)).banner := Option.mem_map_of_mem _ hbanner
      exact (hafter.banner _ hmem _ rfl).symm
    · intro hbanners
      refine ⟨h.runs, fun banner hbanner ↦ ?_⟩
      obtain ⟨old, hold, rfl⟩ := Option.mem_map.mp hbanner
      rintro found hfound
      cases hfound
      exact (hbanners rfl old hold).symm

/-- Only the data and the lookups matter. -/
theorem Linked.congr (h : Linked a) (hdata : b.lastCustomerData = a.lastCustomerData)
    (hresolved : b.resolved = a.resolved) : Linked b := by
  unfold Linked
  rw [hdata, hresolved]
  exact h

/-- An event that the bus delivers leaves the data. -/
theorem data_of_deliver (dndEnabled : Bool) (a : App) (call : ActiveCall) :
    ((a.showCallEvent dndEnabled call).onCallEvent call).lastCustomerData = a.lastCustomerData ∧
      ((a.showCallEvent dndEnabled call).onCallEvent call).resolved = a.resolved := by
  obtain ⟨banner, hshown⟩ := showCallEvent_eq dndEnabled a call
  rw [hshown]
  unfold App.onCallEvent
  repeat' split
  all_goals exact ⟨rfl, rfl⟩

/-- A report leaves the data. -/
theorem Linked.onReport (h : Linked a) : Linked (a.onReport call) := by
  unfold App.onReport
  dsimp only
  split
  · split <;> exact h.congr rfl rfl
  · exact h.congr rfl rfl

/-- The app keeps the data of the last lookup. -/
theorem Linked.act (h : Linked a) {act : AppAct} (hact : a.act act = some b) : Linked b := by
  unfold App.act at hact
  cases act with
  | deliver dndEnabled =>
    dsimp only at hact
    split at hact
    · cases hact
    · next call bus _ =>
      cases hact
      obtain ⟨hdata, hresolved⟩ := data_of_deliver dndEnabled
        { a with bus := bus, delivered := a.delivered ++ [call] } call
      exact h.congr hdata hresolved
  | resolve k result =>
    obtain ⟨call, -, rfl⟩ := Option.map_eq_some_iff.mp hact
    unfold Linked App.resolve
    dsimp only
    rw [List.getLast?_concat, Option.bind_some]
  | expire | upload =>
    obtain ⟨_, -, rfl⟩ := Option.map_eq_some_iff.mp hact
    exact h.congr rfl rfl
  | clearBanner =>
    cases hact
    exact h.congr rfl rfl

end App

section Session

variable {now : Nat → Int} {t u : Office} {move : OfficeMove} {moves : List OfficeMove}

/-- What the app reads from a report of an end. -/
theorem endOf_callPayload (accountName displayName username : String) (call : Call) :
    endOf (callPayload accountName displayName username call) =
      if call.state = .ended then some (call.id.toNat : Int) else none := by
  rcases call with ⟨_, _, _, direction, state, _, _, _, resumed, _, _, _⟩
  cases direction <;> cases state <;> cases resumed <;> rfl

/-- What holds in every state: the tables are keyed, and the service keeps the data of the last
lookup. -/
structure Kept (t : Office) : Prop where
  keyed : (tables t.engine).Keyed
  linked : Linked t.app

/-- What a step of the engine does to the app: nothing, or the app handles one report. -/
theorem app_of_input {i : Input} (hk : (tables t.engine).Keyed)
    (hs : officeStep now t (.input i) = some u) :
    (reports (i.acts t.engine) = [] ∧ u.app = t.app) ∨
      ∃ accountName displayName username call,
        reports (i.acts t.engine) = [callPayload accountName displayName username call] ∧
        u.app = t.app.onReport (shownCall (now t.handled)
          (t.app.activeCalls.lookup (call.id.toNat : Int)) call) := by
  have hsight := sighting_of_change hk (step_change hk (engine_of_officeStep hs))
  generalize hr : reports (i.acts t.engine) = payloads at hsight
  generalize tables u.engine = T at hsight
  cases hsight with
  | silent => exact Or.inl ⟨rfl, app_of_silent hs hr⟩
  | live hreport | opened _ hreport | ended _ hreport | again _ hreport =>
    have happ := app_of_report hs hreport hr
    obtain ⟨accountName, displayName, username, rfl⟩ := hreport
    exact Or.inr ⟨accountName, displayName, username, _, rfl, happ⟩

/-- Before the first operation. -/
theorem kept_initial : Kept .initial := ⟨keyed_initial, rfl⟩

/-- The step lemma of what holds in every state. -/
theorem Kept.step (h : Kept t) (hs : officeStep now t move = some u) : Kept u := by
  cases move with
  | app act =>
    obtain ⟨app, hact, rfl⟩ := Option.map_eq_some_iff.mp hs
    exact ⟨h.keyed, h.linked.act hact⟩
  | input i =>
    refine ⟨keyed_step h.keyed (engine_of_officeStep hs), ?_⟩
    rcases app_of_input h.keyed hs with ⟨-, happ⟩ | ⟨_, _, _, _, -, happ⟩
    · rw [happ]
      exact h.linked
    · rw [happ]
      exact h.linked.onReport

/-- The app acts on its own: it uses the data of the call itself, if and only if it meets the
condition. -/
theorem ownData_act (hlinked : Linked t.app) (h : OwnData t.app) {act : AppAct} {app : App}
    (hact : t.app.act act = some app) : OwnData app ↔ UsesOwn t (.app act) := by
  unfold App.act at hact
  cases act with
  | deliver dndEnabled =>
    dsimp only at hact
    split at hact
    · cases hact
    · next call bus hbus =>
      cases hact
      have hown : OwnData { t.app with bus := bus, delivered := t.app.delivered ++ [call] } :=
        ⟨h.runs, h.banner⟩
      refine Iff.trans (ownData_onCallEvent (hown.showCallEvent dndEnabled)) ?_
      simp only [UsesOwn, hbus, List.head?_cons, Option.mem_some_iff, forall_eq',
        ← hlinked.dataOf]
      obtain ⟨banner, hshown⟩ := showCallEvent_eq dndEnabled
        { t.app with bus := bus, delivered := t.app.delivered ++ [call] } call
      rw [hshown]
      rfl
  | expire k =>
    obtain ⟨callId, -, rfl⟩ := Option.map_eq_some_iff.mp hact
    exact iff_of_true ⟨h.runs, h.banner⟩ trivial
  | resolve k result =>
    obtain ⟨call, hcall, rfl⟩ := Option.map_eq_some_iff.mp hact
    have hown : OwnData { t.app with lookups := t.app.lookups.eraseIdx k } :=
      ⟨h.runs, h.banner⟩
    refine Iff.trans (ownData_resolve hown call.uri result) ?_
    simp only [UsesOwn, hcall, Option.mem_some_iff, forall_eq']
  | upload k =>
    obtain ⟨call, hcall, rfl⟩ := Option.map_eq_some_iff.mp hact
    refine Iff.trans (ownData_record.trans (and_iff_right ⟨h.runs, h.banner⟩)) ?_
    simp only [UsesOwn, hcall, Option.mem_some_iff, forall_eq']
    exact hlinked.dataOf call.uri
  | clearBanner =>
    cases hact
    exact iff_of_true ⟨h.runs, fun banner hbanner ↦ by cases hbanner⟩ trivial

/-- The step lemma: the data stays of its own call just if the step uses the data of the call
itself. -/
theorem ownData_step_iff (h : Kept t) (hown : OwnData t.app) (hs : officeStep now t move = some u) :
    OwnData u.app ↔ UsesOwn t move := by
  cases move with
  | app act =>
    obtain ⟨app, hact, rfl⟩ := Option.map_eq_some_iff.mp hs
    exact ownData_act h.linked hown hact
  | input i =>
    rcases app_of_input h.keyed hs with ⟨hr, happ⟩ | ⟨_, _, _, call, hr, happ⟩
    · rw [happ]
      simp only [UsesOwn, hr]
      exact iff_of_true hown fun payload hpayload ↦ absurd hpayload List.not_mem_nil
    · rw [happ, ownData_onReport hown, shownCall_ended]
      simp only [UsesOwn, hr, List.mem_singleton, forall_eq, endOf_callPayload,
        ← h.linked.dataOf]
      by_cases hended : call.state = .ended
      · rw [if_pos hended]
        simp only [Option.mem_some_iff, forall_eq']
        exact forall_prop_of_true hended
      · rw [if_neg hended]
        exact iff_of_true (fun h ↦ absurd h hended) fun callId h ↦ by cases h

/-- In every run, the customer data of every hook and of the banner is of its own call in every
state, if and only if at every step the last lookup is of the call that uses it, and a lookup that
finds something is of the call in the banner. -/
theorem own_data_iff (run : moves.foldlM (officeStep now) Office.initial = some t) :
    (∀ first u, first <+: moves → first.foldlM (officeStep now) Office.initial = some u →
      OwnData u.app) ↔ Path (officeStep now) UsesOwn Office.initial moves t := by
  have hinitial : OwnData Office.initial.app :=
    ⟨fun _ h ↦ absurd h List.not_mem_nil, fun _ h ↦ by cases h⟩
  have hpath := Path.iff_always_kept kept_initial hinitial (fun _ _ _ h hs ↦ h.step hs)
    (fun _ _ _ h hown hs ↦ ownData_step_iff h hown hs) run
  exact hpath.symm

end Session

/-- A call comes in, and its report is delivered. -/
def rings (pjCallId : Int) (fromUri : String) : List OfficeMove :=
  [OfficeMove.input ⟨.onIncomingCall 0 pjCallId (.text fromUri), quietEnv⟩,
    OfficeMove.app (.deliver false)]

/-- The call 0 of PJSIP is confirmed, and its report is delivered. -/
def confirmed : List OfficeMove :=
  [OfficeMove.input ⟨.onCallState 0 5, quietEnv⟩, OfficeMove.app (.deliver false)]

/-- A lookup finds a contact. -/
def finds (contactName : String) : OfficeMove :=
  OfficeMove.app (.resolve 0 (some ⟨"", contactName, "", "", .null⟩))

/-- One call that is looked up and answered. -/
def oneCaller : List OfficeMove :=
  signIn.map OfficeMove.input ++ rings 0 "sip:x@y" ++ [finds "X"] ++ confirmed

/-- Two calls of which the first is answered when both have been looked up. -/
def twoCallers : List OfficeMove :=
  signIn.map OfficeMove.input ++ rings 0 "sip:x@y" ++ rings 1 "sip:z@y" ++ [finds "X", finds "Z"] ++
    confirmed

/-- The call of one caller, as an instance. -/
theorem own_data_iff_oneCaller :
    ∃ t, oneCaller.foldlM (officeStep fun _ ↦ 0) Office.initial = some t ∧
      ((∀ first u, first <+: oneCaller →
        first.foldlM (officeStep fun _ ↦ 0) Office.initial = some u → OwnData u.app) ↔
      Path (officeStep fun _ ↦ 0) UsesOwn Office.initial oneCaller t) := by
  have h : (oneCaller.foldlM (officeStep fun _ ↦ 0) Office.initial).isSome = true := by decide
  obtain ⟨t, ht⟩ := Option.isSome_iff_exists.mp h
  exact ⟨t, ht, own_data_iff ht⟩

/-- The first of two callers is answered with the data of the second. -/
theorem answered_with_other_data :
    ∃ t, twoCallers.foldlM (officeStep fun _ ↦ 0) Office.initial = some t ∧ ¬OwnData t.app := by
  have h : (twoCallers.foldlM (officeStep fun _ ↦ 0) Office.initial).map
      (fun t ↦ t.app.runs.map fun run ↦ (run.call.uri, run.data.map (·.uri))) =
      some [("sip:x@y", none), ("sip:z@y", none), ("sip:x@y", some "sip:z@y")] := by
    decide
  obtain ⟨t, ht, hruns⟩ := Option.map_eq_some_iff.mp h
  refine ⟨t, ht, fun own ↦ ?_⟩
  have hmem : (("sip:x@y", some "sip:z@y") : String × Option String) ∈
      t.app.runs.map fun run ↦ (run.call.uri, run.data.map (·.uri)) := by
    rw [hruns]
    simp
  obtain ⟨run, hrun, heq⟩ := List.mem_map.mp hmem
  rw [Prod.mk.injEq] at heq
  obtain ⟨found, hfound, huri⟩ := Option.map_eq_some_iff.mp heq.2
  have hsame := own.runs run hrun found hfound
  rw [heq.1, huri] at hsame
  exact absurd hsame (by decide)

end PacketDial.Ui
