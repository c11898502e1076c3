import PacketDial.System.Edits

/-!
# The result of a consultation call

`engine_start_attended_xfer` (`core_rust/src/lib.rs:4076–4147`) answers with an error code or
with the id of the consultation call, in one `i32`; the dialer tests its sign
(`app_flutter/lib/screens/dialer_screen.dart:626`, `689`). The error codes are positive and an
id from `2 ^ 31` on is negative, so the test says what happened just if the call was placed
under a smaller id.
-/

namespace PacketDial.System

open PacketDial.Core PacketDial.Lib

/-- The test of the dialer, `result >= 0`. -/
def dialerAccepts (result : Int) : Bool := decide (0 ≤ result)

/-- From `s` to `s'` a call was entered under `id`. -/
def CallCreated (s s' : Engine) (id : UInt32) : Prop :=
  ∃ call pjCallId, call.id = id ∧ id = s.nextCallId ∧ tables s' = (tables s).track call pjCallId

/-- The result says whether a call was created, and which. -/
def Unambiguous (s : Engine) (out : Outcome Engine Action Int) : Prop :=
  (dialerAccepts out.value = true ↔ ∃ id, CallCreated s out.state id) ∧
    ∀ id, CallCreated s out.state id → out.value = id.toNat

/-- The engine gets as far as the shim, which takes the consultation call. -/
def PlacesConsultation (e : Env) (s : Engine) (callId : Int) (destUri : CPtr) : Prop :=
  s.initialized = true ∧ ∃ text dest pjId, destUri.toStr = some text ∧ cString text = some dest ∧
    pjsipIdOf (tables s) (i32AsU32 callId) = some pjId ∧
    0 ≤ e.rc (.pdCallStartAttendedXfer pjId dest)

section Numbers

/-- A call id as an `i32`: the upper half of the ids is negative. -/
theorem asI32_callId (id : UInt32) :
    asI32 id.toNat =
      if id.toNat < 2 ^ 31 then (id.toNat : Int) else id.toNat - (2 ^ 32 : Nat) := by
  have hlt : id.toNat < 2 ^ 32 := id.toNat_lt
  unfold asI32
  rw [BitVec.toInt_ofInt, Int.bmod_def]
  split <;> split <;> omega

/-- The ids of the lower half are returned as they are. -/
theorem asI32_of_lt {id : UInt32} (h : id.toNat < 2 ^ 31) : asI32 id.toNat = id.toNat := by
  rw [asI32_callId, if_pos h]

/-- The dialer accepts the ids of the lower half only. -/
theorem dialerAccepts_callId (id : UInt32) :
    dialerAccepts (asI32 id.toNat) = true ↔ id.toNat < 2 ^ 31 := by
  have hlt : id.toNat < 2 ^ 32 := id.toNat_lt
  rw [dialerAccepts, decide_eq_true_iff, asI32_callId]
  split <;> omega

/-- The dialer accepts every error code. -/
theorem dialerAccepts_code (rc : EngineErrorCode) : dialerAccepts rc.code = true := by
  cases rc <;> rfl

/-- The next id is another one. -/
theorem burn_ne (T : CallTables) : T.nextCallId + 1 ≠ T.nextCallId := by
  intro h
  have hone : (1 : UInt32) = 0 := by
    rw [← UInt32.add_sub_cancel 1 T.nextCallId, UInt32.add_comm, h, UInt32.sub_self]
  cases hone

end Numbers

section Spec

variable {e : Env} {s : Engine} {callId : Int} {destUri : CPtr}

/-- What a run of `engine_start_attended_xfer` answers and does. -/
inductive ConsultationResult (e : Env) (s : Engine) (callId : Int) (destUri : CPtr) :
    Int → CallTables → Prop where
  | refused (rc : EngineErrorCode) (hnot : ¬ PlacesConsultation e s callId destUri) :
      ConsultationResult e s callId destUri rc.code (tables s)
  | placed (call : Call) (pjCallId : Int) (hplaces : PlacesConsultation e s callId destUri)
      (hid : call.id = s.nextCallId) :
      ConsultationResult e s callId destUri (asI32 s.nextCallId.toNat)
        ((tables s).track call pjCallId)

/-- The entry point, exit by exit. -/
theorem yields_consultation (hk : (tables s).Keyed) (callId : Int) (destUri : CPtr) :
    callView.Yields (engineStartAttendedXfer callId destUri) e s
      fun value _ T ↦ ConsultationResult e s callId destUri value T := by
  unfold engineStartAttendedXfer
  refine yields_withText (fun text htext ↦ ?_) fun htext ↦ .refused .invalidUtf8 ?_
  · refine yields_whenInitialized (fun hinit ↦ ?_) fun hinit ↦ .refused .notInitialized ?_
    · refine yields_callById_bind (i := ⟨.startAttendedXfer callId destUri, e⟩) hk fun s₁ hs₁ ↦ ?_
      dsimp only
      have stay : callView.state s₁ = tables s := hs₁
      split
      · next hnone =>
        refine View.yields_pure ?_
        rw [stay]
        refine .refused .notFound ?_
        rintro ⟨-, _, _, pjId, -, -, hpj, -⟩
        rw [pjsipIdOf, hnone] at hpj
        cases hpj
      · next pjId hpj =>
        split
        · next hnul =>
          refine View.yields_pure ?_
          rw [stay]
          refine .refused .invalidUtf8 ?_
          rintro ⟨-, _, dest, _, htext', hdest, -⟩
          rw [htext] at htext'
          cases htext'
          rw [hnul] at hdest
          cases hdest
        · next dest hdest =>
          refine yields_shim_bind rfl ?_
          split
          · next hneg =>
            refine View.yields_pure ?_
            rw [stay]
            refine .refused .internalError ?_
            rintro ⟨-, _, dest', pjId', htext', hdest', hpj', hpos⟩
            rw [htext] at htext'
            cases htext'
            rw [hdest] at hdest'
            cases hdest'
            rw [pjsipIdOf, hpj] at hpj'
            cases hpj'
            omega
          · next hpos =>
            refine yields_fetchNextCallId_bind fun s₂ hs₂ ↦ ?_
            rw [hs₁] at hs₂ ⊢
            refine yields_trackCall_bind fun report s₃ _ hs₃ ↦ ?_
            refine yields_tame_bind (tame_logEngine (by decide : CanLog []) _ _) fun _ s₄ hs₄ ↦ ?_
            refine View.yields_pure ?_
            rw [show callView.state s₄ = _ from hs₄, hs₃, hs₂]
            have hplaces : PlacesConsultation e s callId destUri :=
              ⟨hinit, text, dest, pjId, htext, hdest, hpj, not_lt.mp hpos⟩
            exact .placed (newCall s.nextCallId _ text .outgoing _) _ hplaces rfl
    · rintro ⟨h, -⟩
      rw [hinit] at h
      cases h
  · rintro ⟨-, text, -, -, htext', -⟩
    rw [htext] at htext'
    cases htext'

/-- Without a placed call, the result is an error code that the dialer accepts. -/
theorem not_unambiguous_of_refused {out : Outcome Engine Action Int} {rc : EngineErrorCode}
    (hvalue : out.value = rc.code) (hT : tables out.state = tables s) :
    ¬ Unambiguous s out := by
  rintro ⟨htest, -⟩
  rw [hvalue] at htest
  obtain ⟨id, call, pjCallId, -, -, htrack⟩ := htest.mp (dialerAccepts_code rc)
  have hnext := congrArg CallTables.nextCallId (hT.symm.trans htrack)
  exact burn_ne (tables s) hnext.symm

/-- With a placed call, the dialer reads the result right just if the id is small. -/
theorem unambiguous_of_placed {out : Outcome Engine Action Int} {call : Call} {pjCallId : Int}
    (hvalue : out.value = asI32 s.nextCallId.toNat) (hid : call.id = s.nextCallId)
    (hT : tables out.state = (tables s).track call pjCallId) :
    Unambiguous s out ↔ s.nextCallId.toNat < 2 ^ 31 := by
  have created : CallCreated s out.state s.nextCallId := ⟨call, pjCallId, hid, rfl, hT⟩
  constructor
  · rintro ⟨htest, -⟩
    rw [hvalue, dialerAccepts_callId] at htest
    exact htest.mpr ⟨_, created⟩
  · intro hlt
    constructor
    · rw [hvalue, dialerAccepts_callId]
      exact ⟨fun _ ↦ ⟨_, created⟩, fun _ ↦ hlt⟩
    · rintro id ⟨_, _, -, rfl, -⟩
      rw [hvalue, asI32_of_lt hlt]

end Spec

/-- In every reachable state, the dialer can tell from the result whether a consultation call
was created, and which, just if the call is placed and its id is below `2 ^ 31`. -/
theorem consultation_result_iff {is : List Input} {s : Engine}
    (run : is.foldlM engineStep Engine.initial = some s) (e : Env) (callId : Int)
    (destUri : CPtr) :
    Unambiguous s ((engineStartAttendedXfer callId destUri).run e s) ↔
      PlacesConsultation e s callId destUri ∧ s.nextCallId.toNat < 2 ^ 31 := by
  have hk : (tables s).Keyed := keyed_run run
  have result := yields_consultation (e := e) hk callId destUri
  unfold View.Yields at result
  generalize hout : (engineStartAttendedXfer callId destUri).run e s = out at result ⊢
  generalize hvalue : out.value = value at result
  generalize hT : callView.state out.state = T at result
  cases result with
  | refused rc hnot =>
    constructor
    · intro h
      exact absurd h (not_unambiguous_of_refused hvalue hT)
    · rintro ⟨hplaces, -⟩
      exact absurd hplaces hnot
  | placed call pjCallId hplaces hid =>
    rw [unambiguous_of_placed hvalue hid hT]
    exact ⟨fun hlt ↦ ⟨hplaces, hlt⟩, And.right⟩

/-- A consultation of the first call, as an instance. -/
theorem consultation_result_iff_placed :
    ∃ s, (signIn ++ [dial]).foldlM engineStep Engine.initial = some s ∧
      Unambiguous s ((engineStartAttendedXfer 1 (.text "sip:z@y")).run quietEnv s) := by
  have h : ((signIn ++ [dial]).foldlM engineStep Engine.initial).map (fun s ↦
      (s.initialized, pjsipIdOf (tables s) 1, s.nextCallId)) = some (true, some 0, 2) := by decide
  obtain ⟨s, run, hs⟩ := Option.map_eq_some_iff.mp h
  simp only [Prod.mk.injEq] at hs
  obtain ⟨hinit, hpj, hnext⟩ := hs
  refine ⟨s, run, (consultation_result_iff run _ _ _).mpr ⟨?_, ?_⟩⟩
  · exact ⟨hinit, _, _, 0, rfl, rfl, hpj, le_refl 0⟩
  · rw [hnext]
    decide

/-- A consultation of a call that does not exist: the code `NotFound` passes for a call id. -/
theorem consultation_result_ambiguous :
    ∃ s, [⟨.init .null, quietEnv⟩].foldlM engineStep Engine.initial = some s ∧
      ((engineStartAttendedXfer 1 (.text "sip:z@y")).run quietEnv s).value = 6 ∧
      dialerAccepts 6 = true ∧
      ¬ Unambiguous s ((engineStartAttendedXfer 1 (.text "sip:z@y")).run quietEnv s) := by
  have h : ([⟨.init .null, quietEnv⟩].foldlM engineStep Engine.initial).map (fun s ↦
      (((engineStartAttendedXfer 1 (.text "sip:z@y")).run quietEnv s).value,
        ((engineStartAttendedXfer 1 (.text "sip:z@y")).run quietEnv s).state.nextCallId,
        s.nextCallId)) = some (6, 1, 1) := by decide
  obtain ⟨s, run, hs⟩ := Option.map_eq_some_iff.mp h
  simp only [Prod.mk.injEq] at hs
  obtain ⟨hvalue, hnext', hnext⟩ := hs
  refine ⟨s, run, hvalue, rfl, ?_⟩
  rintro ⟨htest, -⟩
  rw [hvalue] at htest
  obtain ⟨id, call, pjCallId, -, -, htrack⟩ := htest.mp rfl
  have hburn := congrArg CallTables.nextCallId htrack
  change _ = s.nextCallId + 1 at hburn
  rw [hnext, show (tables _).nextCallId = 1 from hnext'] at hburn
  cases hburn

end PacketDial.System
