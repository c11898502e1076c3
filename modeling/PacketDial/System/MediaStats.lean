import PacketDial.System.Edits
import PacketDial.System.MildCommands

/-!
# The statistics of live calls

`MEDIA_STATS` is written by the poll after a media callback and by the command `MediaStatsUpdate`,
and cleared of a call in one branch of the state callback (`core_rust/src/lib.rs:588–593`,
`808–852`, `2005–2020`). The poll finds its call in `PJSIP_CALL_MAP`, the command takes any number.
-/

namespace PacketDial.System

open PacketDial.Core PacketDial.Lib

/-- The view of a run that shows the media statistics. -/
def statsView : View Engine Action (AList fun _ : UInt32 ↦ MediaStats) Empty :=
  ⟨(·.mediaStats), fun _ ↦ none⟩

/-- The media statistics are left as they were. -/
def Uncounted (_ : List Mutex) : Engine → List Action → Engine → Prop := statsView.Still

instance (held : List Mutex) : Traced.Composable (Uncounted held) :=
  inferInstanceAs (Traced.Composable statsView.Still)

/-- No action shows in the statistics. -/
theorem uncounted_of_eq {held : List Mutex} {s s' : Engine} {t : List Action}
    (h : s'.mediaStats = s.mediaStats) : Uncounted held s t s' :=
  ⟨h, List.filterMap_eq_nil_iff.mpr fun _ _ ↦ rfl⟩

/-- What any view hides leaves the statistics alone, if it is no change of them. -/
instance {γ δ : Type} {v : View Engine Action γ δ} : Sparing v Uncounted where
  update _ hm := uncounted_of_eq hm
  emit _ _ _ _ _ _ := uncounted_of_eq rfl
  shim _ _ := uncounted_of_eq rfl
  guard _ h := uncounted_of_eq h.1
  inner h := h

/-- Neither do the events about recordings change them. -/
instance : Vocal Uncounted where
  emit _ _ _ := uncounted_of_eq rfl

/-- The locks have nothing to do with the statistics. -/
instance {γ δ : Type} {v : View Engine Action γ δ} : Lenient v Uncounted where
  shim _ _ := uncounted_of_eq rfl

/-- The call that a state callback ends. -/
def endedCall (i : Input) (s : Engine) : Option UInt32 :=
  match i.op with
  | .onCallState pjCallId invState =>
    if invCallState invState = some .ended then
      (s.pjsipCallMap.lookup pjCallId).filter fun id ↦ (s.calls.lookup id).isSome
    else none
  | _ => none

/-- The number that a `MediaStatsUpdate` is about. -/
def statsTarget (i : Input) (s : Engine) : Option UInt32 :=
  (commandOf i s).bind fun c ↦ if c.1 = "MediaStatsUpdate" then callIdField c.2 else none

/-- What an input can do to the media statistics. -/
inductive StatsChange (i : Input) (s : Engine) : (AList fun _ : UInt32 ↦ MediaStats) → Prop where
  | kept (hend : endedCall i s = none) (htarget : statsTarget i s = none) :
      StatsChange i s s.mediaStats
  | dropped {id : UInt32} (hend : endedCall i s = some id) (htarget : statsTarget i s = none) :
      StatsChange i s (s.mediaStats.erase id)
  | polled {pjCallId active : Int} {id : UInt32} {stats : MediaStats}
      (hop : i.op = .onCallMedia pjCallId active)
      (hmap : s.pjsipCallMap.lookup pjCallId = some id) :
      StatsChange i s (s.mediaStats.insert id stats)
  | told {id : UInt32} {stats : MediaStats} (htarget : statsTarget i s = some id)
      (hend : endedCall i s = none) : StatsChange i s (s.mediaStats.insert id stats)

section Programs

variable {e : Env} {s : Engine}

/-- Neither do the locks. -/
theorem uncounted_lock (act : LockAct Mutex) :
    Traced.Admits (Uncounted []) (Traced.emit (.lock act) : Eng Unit) :=
  Traced.admits_emit fun _ ↦ uncounted_of_eq rfl

/-- The operations that neither are callbacks on calls nor dispatch any command leave the
statistics alone. -/
theorem uncounted_op {op : Op} (h : statsOp op = false) : Traced.Admits (Uncounted []) op.run :=
  admits_every_op uncounted_lock (fun hstats ↦ by simp [h] at hstats) fun _ ↦ inferInstance

/-- The statistics show nothing of the locks. -/
theorem stats_withLock {α : Type} {m : Mutex} {x : Eng α}
    {Q : α → List Empty → (AList fun _ : UInt32 ↦ MediaStats) → Prop}
    (h : statsView.Yields x e s Q) : statsView.Yields (withLock m x) e s Q := by
  unfold View.Yields at h ⊢
  rw [run_withLock]
  rwa [Subsingleton.elim (statsView.trace _) (statsView.trace (x.run e s).trace)]

/-- Entering statistics in a critical section. -/
theorem stats_insert (id : UInt32) (stats : MediaStats) : statsView.Yields
    (withLock .mediaStats (insertMediaStats id stats)) e s fun _ _ M ↦
      M = s.mediaStats.insert id stats :=
  stats_withLock rfl

/-- What a command about `target` makes of the statistics. -/
def Told (target : Option UInt32) (M M' : AList fun _ : UInt32 ↦ MediaStats) : Prop :=
  (target = none ∧ M' = M) ∨ ∃ id stats, target = some id ∧ M' = M.insert id stats

/-- `cmd_media_stats_update` enters statistics for whatever number it is given. -/
theorem stats_cmdMediaStatsUpdate (p : Json) : statsView.Yields (cmdMediaStatsUpdate p) e s
    fun _ _ M ↦ Told (callIdField p) s.mediaStats M := by
  unfold cmdMediaStatsUpdate
  split
  · next hid => exact View.yields_pure (Or.inl ⟨hid, rfl⟩)
  · next id hid =>
    dsimp only
    refine View.yields_still_bind (tame_pushMediaStats canLog_nil.2 _ : Traced.Admits
      (Uncounted []) _) fun _ s₁ hs₁ ↦ ?_
    refine (stats_insert _ _).bind fun _ _ s₂ hs₂ ↦ View.yields_pure ?_
    rw [show s₁.mediaStats = s.mediaStats from hs₁] at hs₂
    exact Or.inr ⟨id, _, hid, hs₂⟩

/-- Every other command leaves the statistics alone. -/
theorem stats_dispatchCommand (cmd : String) (p : Json) :
    statsView.Yields (dispatchCommand cmd p) e s fun _ _ M ↦
      Told (if cmd = "MediaStatsUpdate" then callIdField p else none) s.mediaStats M := by
  by_cases hcmd : cmd = "MediaStatsUpdate"
  · subst hcmd
    exact View.yields_map (stats_cmdMediaStatsUpdate p)
  · rw [if_neg hcmd]
    refine View.yields_still (?_ : Traced.Admits (Uncounted []) _) fun _ ↦ Or.inl ⟨rfl, rfl⟩
    exact admits_dispatchCommand (admits_registerFailed uncounted_lock) cmd p
      (fun h ↦ absurd h hcmd) fun _ ↦ inferInstance

/-- The critical section of a state callback drops the statistics of a call that ends. -/
theorem stats_stateSection (newState : CallState) (id : UInt32) :
    statsView.Yields (stateSection newState id) e s fun _ _ M ↦
      M = if newState = .ended ∧ (s.calls.lookup id).isSome then s.mediaStats.erase id
        else s.mediaStats := by
  unfold stateSection
  refine stats_withLock (View.yields_get_bind ?_)
  split
  · next hl => exact View.yields_pure (by simp [hl, statsView])
  · next old hl =>
    refine View.yields_still_bind (tame_applyState _ _ : Traced.Admits (Uncounted [.calls]) _)
      fun call s₁ hs₁ ↦ ?_
    refine View.yields_modify_bind ?_
    refine View.yields_still_bind (mild_pushCallState (by decide) (by decide) call : Traced.Admits
      (Uncounted [.calls]) _) fun _ s₂ hs₂ ↦ ?_
    have hs : s₂.mediaStats = s.mediaStats := Eq.trans hs₂ hs₁
    split
    · next hended =>
      refine stats_withLock (Eq.trans (congrArg (AList.erase id) hs) ?_)
      simp [hended, hl]
    · next hended => exact View.yields_pure (by simp [statsView, hended, hs])

/-- A state callback drops the statistics of the call it ends and leaves the others alone. -/
theorem stats_pjsipOnCallState {i : Input} {s : Engine} {pjCallId invState : Int}
    (hop : i.op = .onCallState pjCallId invState) :
    statsView.Yields (pjsipOnCallState pjCallId invState) i.env s fun _ _ M ↦
      StatsChange i s M := by
  have htarget : statsTarget i s = none := by simp [statsTarget, commandOf, hop]
  unfold pjsipOnCallState
  split
  · next h => exact View.yields_pure (.kept (by simp [endedCall, hop, h]) htarget)
  · next newState hnew =>
    have still : Traced.Admits (Uncounted []) (routeState newState pjCallId) :=
      mild_routeState (by decide) newState pjCallId
    obtain ⟨hvalue, htables, -⟩ := run_routeState newState pjCallId i.env s
    have hcalls := congrArg CallTables.calls htables
    rw [CallTables.unmap_calls] at hcalls
    have hstats := (still.run i.env s).1
    refine View.yields_bind rfl hvalue rfl ?_
    cases hmap : (tables s).callMap.lookup pjCallId with
    | none =>
      refine View.yields_still (tame_logEngine canLog_nil _ _ : Traced.Admits (Uncounted []) _)
        fun _ ↦ ?_
      rw [hstats]
      exact .kept (by simp [endedCall, hop, show s.pjsipCallMap.lookup _ = _ from hmap]) htarget
    | some id =>
      have hmap : s.pjsipCallMap.lookup pjCallId = some id := hmap
      refine (stats_stateSection newState id).bind fun _ acts s₂ hs₂ ↦ ?_
      refine View.yields_still (?_ : Traced.Admits (Uncounted []) _) fun _ ↦ ?_
      · refine Traced.admits_ite ?_ (tame_pure _)
        unfold stopAfterEnd
        refine (mild_snapshotCall id).bind fun call ↦ Traced.admits_ite ?_ (tame_pure _)
        exact (mild_stopRecordingForCall id).map _
      · have hcalls : ((routeState newState pjCallId).run i.env s).state.calls = s.calls := by
          have h := congrArg CallTables.calls htables
          rwa [CallTables.unmap_calls] at h
        rw [hs₂, hcalls, show Engine.mediaStats _ = s.mediaStats from hstats]
        split
        · next h =>
          refine .dropped ?_ htarget
          simp [endedCall, hop, hnew, h.1, hmap, h.2]
        · next h =>
          refine .kept ?_ htarget
          simp only [endedCall, hop, hnew, hmap, Option.some.injEq]
          split
          · next hended => simpa [hended] using h
          · rfl

/-- The poll enters statistics for the call that the PJSIP id is routed to, or none. -/
theorem stats_pjsipPollMediaStats (pjCallId : Int) :
    statsView.Yields (pjsipPollMediaStats pjCallId) e s fun _ _ M ↦
      M = s.mediaStats ∨ ∃ id stats, s.pjsipCallMap.lookup pjCallId = some id ∧
        M = s.mediaStats.insert id stats := by
  unfold pjsipPollMediaStats
  refine View.yields_bind (show _ = s from rfl) rfl rfl ?_
  split
  · exact View.yields_pure (Or.inl rfl)
  · next id hmap =>
    refine View.yields_still_bind (tame_shim rfl : Traced.Admits (Uncounted []) _)
      fun rc s₁ hs₁ ↦ ?_
    split
    · refine View.yields_ask_bind ?_
      dsimp only
      refine View.yields_still_bind (tame_pushMediaStats canLog_nil.2 _ : Traced.Admits
        (Uncounted []) _) fun _ s₂ hs₂ ↦ ?_
      refine (stats_insert _ _).imp fun _ _ M hM ↦ ?_
      rw [show s₂.mediaStats = s.mediaStats from Eq.trans hs₂ hs₁] at hM
      exact Or.inr ⟨id, _, hmap, hM⟩
    · exact View.yields_pure (Or.inl hs₁)

/-- A media callback may enter statistics for the call its PJSIP id is routed to. -/
theorem stats_pjsipOnCallMedia {i : Input} {s : Engine} {pjCallId active : Int}
    (hop : i.op = .onCallMedia pjCallId active) :
    statsView.Yields (pjsipOnCallMedia pjCallId active) i.env s fun _ _ M ↦
      StatsChange i s M := by
  have htarget : statsTarget i s = none := by simp [statsTarget, commandOf, hop]
  have kept : StatsChange i s s.mediaStats := .kept (by simp [endedCall, hop]) htarget
  have poll (s₁ : Engine) (hs₁ : s₁.mediaStats = s.mediaStats)
      (hmap : s₁.pjsipCallMap = s.pjsipCallMap) :
      statsView.Yields (if active ≠ 0 then pjsipPollMediaStats pjCallId else pure ()) i.env s₁
        fun _ _ M ↦ StatsChange i s M := by
    split
    · refine (stats_pjsipPollMediaStats pjCallId).imp fun _ _ M hM ↦ ?_
      rw [hs₁, hmap] at hM
      rcases hM with rfl | ⟨id, stats, hid, rfl⟩
      · exact kept
      · exact .polled hop hid
    · refine View.yields_pure ?_
      rw [show statsView.state s₁ = _ from hs₁]
      exact kept
  unfold pjsipOnCallMedia
  refine View.yields_bind (show _ = s from rfl) rfl rfl ?_
  dsimp only
  split
  · exact poll s rfl rfl
  · next id hid =>
    have still : Traced.Admits (Uncounted []) (mediaSection pjCallId active id) :=
      mild_mediaSection pjCallId active id
    refine View.yields_bind rfl rfl rfl (poll _ (still.run i.env s).1 ?_)
    have change := yields_mediaSection (e := i.env) (s := s) pjCallId active id
    rcases change with ⟨-, hT, -⟩ | ⟨old, report, -, -, -, hT⟩
    · exact congrArg CallTables.callMap hT
    · exact congrArg CallTables.callMap hT

end Programs

section Steps

variable {i : Input} {s s' : Engine} {id : UInt32}

/-- A dispatched command is a change of the step that dispatches it. -/
theorem statsChange_told {cmd : String} {p : Json} (hcmd : commandOf i s = some (cmd, p))
    (hend : endedCall i s = none) {M : AList fun _ : UInt32 ↦ MediaStats}
    (h : Told (if cmd = "MediaStatsUpdate" then callIdField p else none) s.mediaStats M) :
    StatsChange i s M := by
  have htarget : statsTarget i s =
      if cmd = "MediaStatsUpdate" then callIdField p else none := by rw [statsTarget, hcmd]; rfl
  rw [← htarget] at h
  rcases h with ⟨hnone, rfl⟩ | ⟨id, stats, hid, rfl⟩
  · exact .kept hend hnone
  · exact .told hid hend

/-- `engine_send_command` dispatches what it parses. -/
theorem stats_engineSendCommand {cmdType payload : CPtr}
    (hop : i.op = .sendCommand cmdType payload) :
    statsView.Yields (engineSendCommand cmdType payload) i.env s fun _ _ M ↦
      StatsChange i s M := by
  have hend : endedCall i s = none := by simp [endedCall, hop]
  have quiet (h : commandOf i s = none) : StatsChange i s s.mediaStats :=
    .kept hend (by simp [statsTarget, h])
  unfold engineSendCommand
  refine yields_withText (fun cmd hc ↦ yields_withText (fun text ht ↦ ?_) fun ht ↦ quiet ?_)
    fun hc ↦ quiet ?_
  · refine yields_whenInitialized (fun hinit ↦ View.yields_ask_bind ?_) fun hinit ↦ quiet ?_
    · split
      · next hp => exact View.yields_pure (quiet (by simp [commandOf, hop, hc, ht, hp]))
      · next p hp =>
        refine View.yields_map ((stats_dispatchCommand cmd p).imp fun _ _ M h ↦ ?_)
        exact statsChange_told (by simp [commandOf, hop, hinit, hc, ht, hp]) hend h
    · simp [commandOf, hop, hinit]
  · simp [commandOf, hop, hc, ht]
  · simp [commandOf, hop, hc]

/-- A line of an IPC client is dispatched when it parses. -/
theorem stats_ipcLine {client : Nat} {line : String} (hop : i.op = .ipcLine client line) :
    statsView.Yields (Core.ipcLine client line) i.env s fun _ _ M ↦ StatsChange i s M := by
  have hend : endedCall i s = none := by simp [endedCall, hop]
  unfold Core.ipcLine
  refine View.yields_ask_bind ?_
  split
  · next hv =>
    exact View.yields_pure (.kept hend (by simp [statsTarget, commandOf, hop, hv]))
  · next v hv =>
    dsimp only
    refine (stats_dispatchCommand _ _).bind fun r _ s₁ h ↦ ?_
    refine View.yields_still (?_ : Traced.Admits (Uncounted []) _) fun _ ↦ ?_
    · split
      · exact discreet_emit (v := accountView) rfl rfl rfl rfl rfl
      · exact tame_pure _
    · exact statsChange_told (by simp [commandOf, hop, hv]) hend h

/-- A command for the first call of a kind has the name it is made with. -/
theorem fst_of_commandOnFirst {q : Call → Bool} {cmd : String} {rest : List (String × Json)}
    {c : String × Json} (h : commandOnFirst i s q cmd rest = some c) : c.1 = cmd := by
  unfold commandOnFirst at h
  split at h
  · obtain ⟨id, -, rfl⟩ := Option.map_eq_some_iff.mp h
    rfl
  · cases h

/-- An operation that makes its command itself makes none on statistics. -/
theorem statsTarget_of_statsOp (h : statsOp i.op = false) : statsTarget i s = none := by
  have other (c : String × Json) (hc : commandOf i s = some c) : c.1 ≠ "MediaStatsUpdate" := by
    unfold commandOf at hc
    cases hop : i.op with
    | makeCall accountId number =>
      rw [hop] at hc
      dsimp only at hc
      split at hc
      · obtain ⟨a, -, hc⟩ := Option.bind_eq_some_iff.mp hc
        obtain ⟨n, -, rfl⟩ := Option.map_eq_some_iff.mp hc
        exact ne_of_beq_false rfl
      · cases hc
    | sendDtmf digits =>
      rw [hop] at hc
      obtain ⟨text, -, hc⟩ := Option.bind_eq_some_iff.mp hc
      rw [fst_of_commandOnFirst hc]
      decide
    | hangup | answerCall | setMute | setHold =>
      rw [hop] at hc
      rw [fst_of_commandOnFirst hc]
      decide
    | sendCommand | ipcLine =>
      rw [hop] at h
      cases h
    | _ =>
      rw [hop] at hc
      cases hc
  unfold statsTarget
  cases hc : commandOf i s with
  | none => rfl
  | some c => exact if_neg (other c hc)

/-- The inversion of a step, as the media statistics see it. -/
theorem step_stats (h : engineStep s i = some s') : StatsChange i s s'.mediaStats := by
  rw [engineStep_eq h]
  change statsView.Yields i.op.run i.env s fun _ _ M ↦ StatsChange i s M
  by_cases hstats : statsOp i.op = true
  · cases hop : i.op with
    | sendCommand cmdType payload => exact View.yields_discard (stats_engineSendCommand hop)
    | ipcLine client line => exact stats_ipcLine hop
    | onCallState pjCallId invState => exact stats_pjsipOnCallState hop
    | onCallMedia pjCallId active => exact stats_pjsipOnCallMedia hop
    | _ => simp [hop, statsOp] at hstats
  · rw [Bool.not_eq_true] at hstats
    refine View.yields_still (uncounted_op hstats) fun _ ↦ ?_
    refine .kept ?_ (statsTarget_of_statsOp hstats)
    cases hop : i.op <;> simp_all [endedCall, statsOp]

end Steps

namespace CallTables

variable {i : Input} {s : Engine} {ids : List Int} {T T' : CallTables} {id : UInt32}

/-- The record with an id is there and has not ended. -/
def Live (T : CallTables) (id : UInt32) : Prop :=
  ∃ call, T.calls.lookup id = some call ∧ call.state ≠ .ended

instance (T : CallTables) (id : UInt32) : Decidable (T.Live id) :=
  decidable_of_iff ((T.calls.lookup id).any (·.state ≠ .ended) = true) <| by
    cases h : T.calls.lookup id <;> simp [Live, h]

/-- Every PJSIP id is routed to a record. -/
def Recorded (T : CallTables) : Prop :=
  ∀ pjCallId id, T.callMap.lookup pjCallId = some id → (T.calls.lookup id).isSome

/-- Writing a record keeps `id` live if it is another one or one that has not ended. -/
theorem Live.setCall (h : T.Live id) {id' : UInt32} {new : Call}
    (hnew : id' = id → new.state ≠ .ended) : (T.setCall id' new).Live id := by
  by_cases heq : id' = id
  · subst heq
    exact ⟨new, lookup_setCall _ _ _, hnew rfl⟩
  · unfold Live
    rw [lookup_setCall_ne _ (Ne.symm heq)]
    exact h

/-- A new call is live. -/
theorem Live.track (h : T.Live id) {call : Call} (hnew : call.state ≠ .ended) (pjCallId : Int) :
    (T.track call pjCallId).Live id :=
  Live.setCall (T := T) h fun _ ↦ hnew

/-- A change by a recording function ends no call. -/
theorem Live.recording (h : T.Live id) {id' : UInt32} (hT : RecordingChange id' T T') :
    T'.Live id := by
  rcases hT with rfl | ⟨old, new, hl, hsame, rfl⟩
  · exact h
  · refine h.setCall ?_
    rintro rfl
    obtain ⟨call, hcall, hlive⟩ := h
    rw [hl] at hcall
    cases hcall
    rwa [hsame.state_eq]

/-- A command ends no call. -/
theorem Live.command (h : (tables s).Live id) {cmd : String} {p : Json} {acts : List CallAct}
    (hT : CommandChange i.env cmd p (tables s) acts T) : T.Live id := by
  cases hT with
  | idle => exact h
  | burn => exact h
  | track => exact h.track (by simp [newCall]) _
  | mute _ _ hl _ =>
    refine h.setCall ?_
    rintro rfl
    obtain ⟨call, hcall, hlive⟩ := h
    rw [hl] at hcall
    cases hcall
    exact hlive
  | hold =>
    refine h.setCall fun _ ↦ ?_
    rw [heldRecord_state]
    split <;> decide
  | record _ _ hl hsame => exact h.recording (Or.inr ⟨_, _, hl, hsame, rfl⟩)

/-- A step ends the call of an ending state callback, and no other. -/
theorem Live.change (h : (tables s).Live id) {acts : List CallAct} (hT : Change i s acts T)
    (hend : endedCall i s ≠ some id) : T.Live id := by
  cases hT with
  | quiet | transfer | consultFailed | completeXfer | merge => exact h
  | command _ hT => exact h.command hT
  | startRecording _ _ hT => exact h.recording hT
  | stopRecording _ _ hT => exact h.recording hT
  | consult => exact h.track (by simp [newCall]) _
  | shutdown => exact h
  | incoming => exact h.track (by simp [newCall]) _
  | @state pjCallId invState newState acts T hop hstate hT =>
    have unmapped : ((tables s).unmap pjCallId newState).Live id := by
      unfold Live
      rw [unmap_calls]
      exact h
    cases hT with
    | unrouted => exact unmapped
    | @routed id' old now report acts T' hmap hl _ hstop _ =>
      refine Live.recording (unmapped.setCall ?_) hstop.2
      rintro rfl
      rw [stateRecord_state]
      rintro rfl
      have hmap : s.pjsipCallMap.lookup pjCallId = some id' := hmap
      have hl : s.calls.lookup id' = some old := hl
      exact hend (by simp [endedCall, hop, hstate, hmap, hl])
  | media _ hT =>
    cases hT with
    | unrouted => exact h
    | routed => exact h.setCall fun _ ↦ mediaRecord_state _ _ _

/-- A media callback leaves the call it is routed to live. -/
theorem Recorded.live_of_media (h : (tables s).Recorded) {acts : List CallAct}
    {pjCallId active : Int} (hT : MediaChange pjCallId active (tables s) acts T)
    (hmap : s.pjsipCallMap.lookup pjCallId = some id) : T.Live id := by
  cases hT with
  | unrouted hmissing =>
    exfalso
    have hsome := h pjCallId id hmap
    rcases hmissing with hnone | ⟨id', hid', hl⟩
    · cases hnone.symm.trans hmap
    · cases hid'.symm.trans hmap
      rw [hl] at hsome
      cases hsome
  | @routed id' old now report hid hl _ =>
    cases hid.symm.trans hmap
    exact ⟨_, lookup_setCall _ _ _, mediaRecord_state _ _ _⟩

/-- Writing records takes none away. -/
theorem Recorded.setCall (h : T.Recorded) (id' : UInt32) (new : Call) :
    (T.setCall id' new).Recorded := by
  intro pjCallId id hmap
  by_cases heq : id = id'
  · subst heq
    rw [lookup_setCall]
    rfl
  · rw [lookup_setCall_ne _ heq]
    exact h pjCallId id hmap

/-- Forgetting a PJSIP id neither. -/
theorem Recorded.unmap (h : T.Recorded) (pjCallId : Int) : (T.unmap pjCallId .ended).Recorded := by
  intro p id hmap
  rw [unmap_calls]
  by_cases heq : p = pjCallId
  · subst heq
    rw [CallTables.unmap, if_pos rfl, AList.lookup_erase] at hmap
    cases hmap
  · rw [CallTables.unmap, if_pos rfl, AList.lookup_erase_ne heq] at hmap
    exact h p id hmap

/-- Every edit leaves the PJSIP ids routed to records. -/
theorem Recorded.edit (h : T.Recorded) (he : Edit i s ids T T') : T'.Recorded := by
  cases he with
  | burn => exact h
  | @enter call pjCallId =>
    intro p id hmap
    by_cases heq : p = pjCallId
    · subst heq
      rw [CallTables.track, AList.lookup_insert] at hmap
      cases hmap
      rw [CallTables.track, AList.lookup_insert]
      rfl
    · rw [CallTables.track, AList.lookup_insert_ne heq] at hmap
      exact h.setCall call.id call p id hmap
  | amend => exact h.setCall _ _
  | hold => exact h.setCall _ _
  | progress => exact h.setCall _ _
  | finish => exact (h.unmap _).setCall _ _
  | forget => exact h.unmap _
  | clear =>
    intro p id hmap
    cases hmap

end CallTables

/-- Every key of the media statistics is the id of a call that has not ended. -/
def CountsLive (s : Engine) : Prop := ∀ id ∈ s.mediaStats, (tables s).Live id

/-- A `MediaStatsUpdate` is about a call that has not ended. -/
def TellsOfLive (s : Engine) (i : Input) : Prop := ∀ id ∈ statsTarget i s, (tables s).Live id

instance (s : Engine) (i : Input) : Decidable (TellsOfLive s i) :=
  Option.decidableForallMem (statsTarget i s)

/-- The records are under their own ids, and every PJSIP id is routed to one. -/
def Filed (s : Engine) : Prop := (tables s).Keyed ∧ (tables s).Recorded

/-- Every step keeps the records filed. -/
theorem filed_step {s s' : Engine} {i : Input} (h : Filed s) (hs : engineStep s i = some s') :
    Filed s' :=
  ⟨keyed_step h.1 hs, edits_invariant (edits_of_change (step_change h.1 hs))
    (fun _ _ hU he ↦ hU.edit he) h.2⟩

/-- A `MediaStatsUpdate` leaves the call tables alone. -/
theorem tables_of_statsTarget {s : Engine} {i : Input} {id : UInt32} {acts : List CallAct}
    {T : CallTables} (h : statsTarget i s = some id) (hT : Change i s acts T) : T = tables s := by
  obtain ⟨⟨cmd, p⟩, hcmd, htarget⟩ := Option.bind_eq_some_iff.mp h
  obtain ⟨rfl, -⟩ := Option.ite_none_right_eq_some.mp htarget
  -- No operation but those that dispatch any command has this one.
  have other (hop : statsOp i.op = false) : T = tables s := by
    rw [statsTarget_of_statsOp hop] at h
    cases h
  cases hT with
  | quiet => rfl
  | command hcmd' hT =>
    cases hcmd.symm.trans hcmd'
    cases hT with
    | idle => rfl
    | burn hne | track hne | mute hne | hold hne => exact absurd hne (by decide)
    | record hne => exact absurd hne (by decide)
  | startRecording hop | stopRecording hop | transfer hop | consultFailed hop | consult hop
  | completeXfer hop | merge hop | shutdown hop | incoming hop => exact other (by rw [hop]; rfl)
  | state hop | media hop =>
    rw [commandOf, hop] at hcmd
    cases hcmd

/-- A step counts live calls only just if it is told of none that is not live. -/
theorem countsLive_step {s s' : Engine} {i : Input} (hf : Filed s) (h : CountsLive s)
    (hs : engineStep s i = some s') : CountsLive s' ↔ TellsOfLive s i := by
  have change := step_change hf.1 hs
  have untold (htarget : statsTarget i s = none) : TellsOfLive s i := by
    intro id hid
    rw [htarget] at hid
    cases hid
  have stats := step_stats hs
  unfold CountsLive
  generalize s'.mediaStats = M at stats
  cases stats with
  | kept hend htarget =>
    exact iff_of_true (fun id hid ↦ (h id hid).change change (by simp [hend])) (untold htarget)
  | @dropped id hend htarget =>
    refine iff_of_true (fun id' hid ↦ ?_) (untold htarget)
    obtain ⟨hne, hid⟩ := AList.mem_erase.mp hid
    refine (h id' hid).change change ?_
    rw [hend]
    exact fun heq ↦ hne (Option.some.inj heq).symm
  | @polled pjCallId active id stats hop hmap =>
    have hend : endedCall i s = none := by simp [endedCall, hop]
    refine iff_of_true (fun id' hid ↦ ?_) (untold (by simp [statsTarget, commandOf, hop]))
    rcases (AList.mem_insert _).mp hid with rfl | hid
    · have media := yields_pjsipOnCallMedia (e := i.env) (s := s) pjCallId active
      rw [engineStep_eq hs, Input.outcome, hop]
      exact hf.2.live_of_media media hmap
    · exact (h id' hid).change change (by simp [hend])
  | @told id stats htarget hend =>
    rw [tables_of_statsTarget htarget change]
    constructor
    · intro live id' hid
      rw [htarget] at hid
      cases hid
      exact live id ((AList.mem_insert _).mpr (Or.inl rfl))
    · intro told id' hid
      rcases (AList.mem_insert _).mp hid with rfl | hid
      · exact told id' htarget
      · exact h id' hid

/-- In a run the statistics are only of live calls, in every state, just if every
`MediaStatsUpdate` of the run is about one. -/
theorem media_stats_live {is : List Input} {s : Engine}
    (run : is.foldlM engineStep Engine.initial = some s) :
    Path engineStep TellsOfLive Engine.initial is s ↔
      ∀ js u, js <+: is → js.foldlM engineStep Engine.initial = some u → CountsLive u :=
  Path.iff_always_kept ⟨keyed_initial, fun _ _ h ↦ by cases h⟩ (fun _ h ↦ by cases h)
    (fun _ _ _ h hs ↦ filed_step h hs) (fun _ _ _ hf h hs ↦ countsLive_step hf h hs) run

/-- A call whose media was polled, about which a client told, and which then ended, as an
instance. -/
theorem media_stats_live_told : ∃ s,
    (signIn ++ [dial, ⟨.onCallMedia 0 1, quietEnv⟩,
      commandInput "MediaStatsUpdate" [("call_id", .ofU32 1)], hangUp]).foldlM engineStep
        Engine.initial = some s ∧
    ∀ js u, js <+: signIn ++ [dial, ⟨.onCallMedia 0 1, quietEnv⟩,
      commandInput "MediaStatsUpdate" [("call_id", .ofU32 1)], hangUp] →
      js.foldlM engineStep Engine.initial = some u → CountsLive u := by
  have h : ((signIn ++ [dial, ⟨.onCallMedia 0 1, quietEnv⟩,
      commandInput "MediaStatsUpdate" [("call_id", .ofU32 1)], hangUp]).foldlM
        (fun s i ↦ if TellsOfLive s i then engineStep s i else none) Engine.initial).isSome := by
    decide +kernel
  obtain ⟨s, hs⟩ := Option.isSome_iff_exists.mp h
  have path := Path.of_guarded hs
  exact ⟨s, path.foldlM_eq, (media_stats_live path.foldlM_eq).mp path⟩

/-- A `MediaStatsUpdate` about a call that never was enters statistics for it. -/
theorem stats_of_unknown_call : ∃ s,
    (signIn ++ [commandInput "MediaStatsUpdate" [("call_id", .ofU32 7)]]).foldlM engineStep
      Engine.initial = some s ∧ ¬ CountsLive s := by
  have h : ((signIn ++ [commandInput "MediaStatsUpdate" [("call_id", .ofU32 7)]]).foldlM engineStep
      Engine.initial).map (fun s ↦ (decide ((7 : UInt32) ∈ s.mediaStats),
        decide ((tables s).Live 7))) = some (true, false) := by decide +kernel
  obtain ⟨s, hs, hv⟩ := Option.map_eq_some_iff.mp h
  obtain ⟨hmem, hlive⟩ := Prod.mk.inj hv
  refine ⟨s, hs, fun counts ↦ ?_⟩
  exact of_decide_eq_false hlive (counts 7 (of_decide_eq_true hmem))

end PacketDial.System
