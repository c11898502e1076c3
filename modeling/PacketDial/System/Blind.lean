import PacketDial.System.Tables

/-!
# Blind families of relations

A fact about runs often speaks of one part of the engine only: of its calls, of its accounts or
of its locks. Such a fact is a family of relations, one for each list of locks held, that is blind
to whatever a view hides. What a program does outside the view is then settled once, for every
blind family at the same time: that the call tables are left alone, that the account tables are,
and that locks are taken in the order of their ranks.
-/

namespace PacketDial.System

open PacketDial.Core PacketDial.Lib

/-- The order in which a thread may nest the locks. -/
def rank : Mutex → Nat
  | .calls => 0
  | .accounts => 1
  | .pjsipAccMap => 2
  | .pjsipCallMap => 3
  | .mediaStats => 4
  | .audioDevices => 5
  | .credStore => 6
  | .logBuffer => 7
  | .eventCallback => 8
  | .clientSenders => 9
  | .retainedPayloads => 10

/-- The lock ranks above all that are held. -/
def Above (held : List Mutex) (m : Mutex) : Prop := ∀ h ∈ held, rank h < rank m

instance (held : List Mutex) (m : Mutex) : Decidable (Above held m) :=
  inferInstanceAs (Decidable (∀ h ∈ held, _))

/-- A lock above all that are held is free. -/
theorem Above.not_mem {held : List Mutex} {m : Mutex} (h : Above held m) : m ∉ held :=
  fun hm ↦ Nat.lt_irrefl _ (h m hm)

/-- A call of the shim. -/
def isShim : Action → Bool
  | .shim _ => true
  | _ => false

/-- A family of relations, one for each list of locks held. -/
abbrev Family := List Mutex → Engine → List Action → Engine → Prop

/-- The family allows everything that `v` hides, with the shim called under no lock, and critical
sections of locks that rank above all that are held. -/
class Blind {γ δ : Type} (v : View Engine Action γ δ) (R : Family) : Prop where
  update : ∀ {held : List Mutex} {s s' : Engine}, v.state s' = v.state s → R held s [] s'
  emit : ∀ {held : List Mutex} {a : Action} (s : Engine), v.act a = none → lockAct a = none →
    isShim a = false → R held s [a] s
  shim : ∀ {call : ShimCall} (s : Engine), v.act (.shim call) = none → R [] s [.shim call] s
  guard : ∀ {held : List Mutex} {m : Mutex} {s s' : Engine} {t : List Action}, Above held m →
    R (m :: held) s t s' → R held s (.lock (.acquire m) :: (t ++ [.lock (.release m)])) s'
  inner : ∀ {held : List Mutex} {m : Mutex} {s s' : Engine}, R held s [] s' → R (m :: held) s [] s'

/-- The event that a conference was merged. -/
def isMerged : Action → Bool
  | .event type _ => type = "ConferenceMerged"
  | _ => false

/-- The family allows everything that `v` hides but the event that a conference was merged. -/
class Discreet {γ δ : Type} (v : View Engine Action γ δ) (R : Family) : Prop where
  update : ∀ {held : List Mutex} {s s' : Engine}, v.state s' = v.state s → R held s [] s'
  emit : ∀ {held : List Mutex} {a : Action} (s : Engine), v.act a = none → lockAct a = none →
    isShim a = false → isMerged a = false → R held s [a] s
  shim : ∀ {call : ShimCall} (s : Engine), v.act (.shim call) = none → R [] s [.shim call] s
  guard : ∀ {held : List Mutex} {m : Mutex} {s s' : Engine} {t : List Action}, Above held m →
    R (m :: held) s t s' → R held s (.lock (.acquire m) :: (t ++ [.lock (.release m)])) s'
  inner : ∀ {held : List Mutex} {m : Mutex} {s s' : Engine}, R held s [] s' → R (m :: held) s [] s'

/-- The events about recordings. -/
def recordingTypes : List String :=
  ["RecordingStarted", "RecordingStopped", "RecordingSaved", "RecordingError"]

/-- An event about a recording. -/
def isRecordingNews : Action → Bool
  | .event type _ => type ∈ recordingTypes
  | _ => false

/-- The family allows everything that `v` hides but the event that a conference was merged, events
about recordings and changes of the media statistics. -/
class Sparing {γ δ : Type} (v : View Engine Action γ δ) (R : Family) : Prop where
  update : ∀ {held : List Mutex} {s s' : Engine}, v.state s' = v.state s →
    s'.mediaStats = s.mediaStats → R held s [] s'
  emit : ∀ {held : List Mutex} {a : Action} (s : Engine), v.act a = none → lockAct a = none →
    isShim a = false → isMerged a = false → isRecordingNews a = false → R held s [a] s
  shim : ∀ {call : ShimCall} (s : Engine), v.act (.shim call) = none → R [] s [.shim call] s
  guard : ∀ {held : List Mutex} {m : Mutex} {s s' : Engine} {t : List Action}, Above held m →
    R (m :: held) s t s' → R held s (.lock (.acquire m) :: (t ++ [.lock (.release m)])) s'
  inner : ∀ {held : List Mutex} {m : Mutex} {s s' : Engine}, R held s [] s' → R (m :: held) s [] s'

/-- The family allows changes of the media statistics. -/
class Lossy (R : Family) : Prop where
  update : ∀ {held : List Mutex} (s : Engine) (mediaStats : AList fun _ : UInt32 ↦ MediaStats),
    R held s [] { s with mediaStats := mediaStats }

/-- The family allows events about recordings. -/
class Vocal (R : Family) : Prop where
  emit : ∀ {held : List Mutex} {type : String} (s : Engine) (payload : Json),
    type ∈ recordingTypes → R held s [.event type payload] s

/-- Blind families are discreet. -/
instance {γ δ : Type} {v : View Engine Action γ δ} {R : Family} [Blind v R] : Discreet v R where
  update h := Blind.update h
  emit s hv hl hs _ := Blind.emit s hv hl hs
  shim s hv := Blind.shim s hv
  guard hm h := Blind.guard v hm h
  inner h := Blind.inner v h

/-- Discreet families are sparing. -/
instance {γ δ : Type} {v : View Engine Action γ δ} {R : Family} [Discreet v R] : Sparing v R where
  update h _ := Discreet.update h
  emit s hv hl hs hm _ := Discreet.emit s hv hl hs hm
  shim s hv := Discreet.shim s hv
  guard hm h := Discreet.guard v hm h
  inner h := Discreet.inner v h

/-- The family also allows the shim to be called under locks. -/
class Lenient {γ δ : Type} (v : View Engine Action γ δ) (R : Family) : Prop where
  shim : ∀ {held : List Mutex} {call : ShimCall} (s : Engine), v.act (.shim call) = none →
    R held s [.shim call] s

section Views

/-- The tables that track accounts. -/
structure AccountTables where
  accounts : AList fun _ : String ↦ Account
  accMap : AList fun _ : Int ↦ String

/-- The account tables of an engine. -/
def accountTables (s : Engine) : AccountTables := ⟨s.accounts, s.pjsipAccMap⟩

/-- The shim calls that add or remove PJSIP accounts. -/
def isAccountOp : ShimCall → Bool
  | .pdAccAdd _ | .pdAccRemove _ | .pdShutdown => true
  | _ => false

/-- The account operation in an action. -/
def accountAct : Action → Option ShimCall
  | .shim call => if isAccountOp call then some call else none
  | _ => none

/-- The view of a run that shows its effect on accounts. -/
def accountView : View Engine Action AccountTables ShimCall := ⟨accountTables, accountAct⟩

/-- The calls and the accounts. -/
abbrev tableView := callView.both accountView

/-- A family that is blind to what the calls hide is blind to what both hide. -/
instance {R : Family} [Blind callView R] : Blind tableView R where
  update h := Blind.update (show callView.state _ = callView.state _ from congrArg Prod.fst h)
  emit s h := Blind.emit s ((View.both_act_eq_none _).mp h).1
  shim s h := Blind.shim s ((View.both_act_eq_none _).mp h).1
  guard hm h := Blind.guard callView hm h
  inner h := Blind.inner callView h

/-- A family that is discreet about what the calls hide is discreet about what both hide. -/
instance {R : Family} [Discreet callView R] : Discreet tableView R where
  update h := Discreet.update (show callView.state _ = callView.state _ from congrArg Prod.fst h)
  emit s h := Discreet.emit s ((View.both_act_eq_none _).mp h).1
  shim s h := Discreet.shim s ((View.both_act_eq_none _).mp h).1
  guard hm h := Discreet.guard callView hm h
  inner h := Discreet.inner callView h

/-- A family that is blind to what the accounts hide is blind to what both hide. -/
instance {R : Family} [Blind accountView R] : Blind tableView R where
  update h := Blind.update (show accountView.state _ = accountView.state _ from congrArg Prod.snd h)
  emit s h := Blind.emit s ((View.both_act_eq_none _).mp h).2
  shim s h := Blind.shim s ((View.both_act_eq_none _).mp h).2
  guard hm h := Blind.guard accountView hm h
  inner h := Blind.inner accountView h

/-- A family that is discreet about what the accounts hide is discreet about what both hide. -/
instance {R : Family} [Discreet accountView R] : Discreet tableView R where
  update h := Discreet.update
    (show accountView.state _ = accountView.state _ from congrArg Prod.snd h)
  emit s h := Discreet.emit s ((View.both_act_eq_none _).mp h).2
  shim s h := Discreet.shim s ((View.both_act_eq_none _).mp h).2
  guard hm h := Discreet.guard accountView hm h
  inner h := Discreet.inner accountView h

/-- A family that is sparing about what the calls hide is sparing about what
both hide. -/
instance {R : Family} [Sparing callView R] : Sparing tableView R where
  update h hm :=
    Sparing.update (show callView.state _ = callView.state _ from congrArg Prod.fst h) hm
  emit s h := Sparing.emit s ((View.both_act_eq_none _).mp h).1
  shim s h := Sparing.shim s ((View.both_act_eq_none _).mp h).1
  guard hm h := Sparing.guard callView hm h
  inner h := Sparing.inner callView h

/-- A family that is sparing about what the accounts hide is sparing about what
both hide. -/
instance {R : Family} [Sparing accountView R] : Sparing tableView R where
  update h hm :=
    Sparing.update (show accountView.state _ = accountView.state _ from congrArg Prod.snd h) hm
  emit s h := Sparing.emit s ((View.both_act_eq_none _).mp h).2
  shim s h := Sparing.shim s ((View.both_act_eq_none _).mp h).2
  guard hm h := Sparing.guard accountView hm h
  inner h := Sparing.inner accountView h

/-- The event in an action, log entries apart. -/
def newsAct : Action → Option (String × Json)
  | .event type payload => if type = "EngineLog" then none else some (type, payload)
  | _ => none

/-- The view of a run that shows its events. -/
def newsView : View Engine Action Unit (String × Json) := ⟨fun _ ↦ (), newsAct⟩

/-- The calls, the accounts and the events. -/
abbrev fullView := tableView.both newsView

/-- A family that is blind to what the tables hide is blind to what they and the events hide. -/
instance {R : Family} [Blind tableView R] : Blind fullView R where
  update h := Blind.update (show tableView.state _ = tableView.state _ from congrArg Prod.fst h)
  emit s h := Blind.emit s ((View.both_act_eq_none _).mp h).1
  shim s h := Blind.shim s ((View.both_act_eq_none _).mp h).1
  guard hm h := Blind.guard tableView hm h
  inner h := Blind.inner tableView h

/-- A family that is discreet about what the tables hide is discreet about what they and the events
hide. -/
instance {R : Family} [Discreet tableView R] : Discreet fullView R where
  update h := Discreet.update (show tableView.state _ = tableView.state _ from congrArg Prod.fst h)
  emit s h := Discreet.emit s ((View.both_act_eq_none _).mp h).1
  shim s h := Discreet.shim s ((View.both_act_eq_none _).mp h).1
  guard hm h := Discreet.guard tableView hm h
  inner h := Discreet.inner tableView h

/-- A family that is sparing about what the tables hide is sparing about what
they and the events hide. -/
instance {R : Family} [Sparing tableView R] : Sparing fullView R where
  update h hm :=
    Sparing.update (show tableView.state _ = tableView.state _ from congrArg Prod.fst h) hm
  emit s h := Sparing.emit s ((View.both_act_eq_none _).mp h).1
  shim s h := Sparing.shim s ((View.both_act_eq_none _).mp h).1
  guard hm h := Sparing.guard tableView hm h
  inner h := Sparing.inner tableView h

/-- The tables and the events hide the media statistics. -/
instance {R : Family} [Discreet fullView R] : Lossy R where
  update _ _ := Discreet.update (v := fullView) rfl

/-- The tables hide the events about recordings. -/
instance {R : Family} [Discreet tableView R] : Vocal R where
  emit := by
    intro held type s payload h
    have hcall : type ≠ "CallStateChanged" := by
      rintro rfl
      exact absurd h (by decide)
    have hmerge : type ≠ "ConferenceMerged" := by
      rintro rfl
      exact absurd h (by decide)
    have hv : tableView.act (.event type payload) = none :=
      (View.both_act_eq_none _).mpr ⟨if_neg hcall, rfl⟩
    exact Discreet.emit (v := tableView) s hv rfl rfl (decide_eq_false hmerge)

end Views

section Families

variable {γ δ : Type} {v : View Engine Action γ δ} {held : List Mutex} {m : Mutex}
  {s s' : Engine} {t : List Action}

/-- What a view that hides the locks shows of a critical section. -/
theorem still_guard (hv : ∀ act, v.act (.lock act) = none) (h : v.Still s t s') :
    v.Still s (.lock (.acquire m) :: (t ++ [.lock (.release m)])) s' := by
  refine ⟨h.1, ?_⟩
  have ht : t.filterMap v.act = [] := h.2
  simp [View.trace, hv, ht]

/-- An action that a view hides. -/
theorem still_action {a : Action} (h : v.act a = none) : v.Still s [a] s :=
  ⟨rfl, by simp [View.trace, h]⟩

/-- The lock actions of a critical section. -/
theorem lawful_guard (hm : m ∉ held) (h : Lawful (m :: held) s t s') :
    Lawful held s (.lock (.acquire m) :: (t ++ [.lock (.release m)])) s' := by
  have hlocks : lockActs (.lock (.acquire m) :: (t ++ [.lock (.release m)])) =
      .acquire m :: (lockActs t ++ [.release m]) := by
    simp [lockActs, lockAct]
  rw [Lawful, hlocks]
  exact GivesBack.guarded hm h

/-- An action that is none on a lock. -/
theorem lawful_action {a : Action} (h : lockAct a = none) : Lawful held s [a] s := by
  simp [Lawful, lockActs, h, GivesBack, replay]

/-- The lock discipline has nothing to do with the tables. -/
instance : Blind v Lawful where
  update _ := givesBack_nil _
  emit _ _ hl _ := lawful_action hl
  shim _ _ := lawful_action rfl
  guard hm h := lawful_guard hm.not_mem h
  inner _ := givesBack_nil _

/-- The lock discipline has nothing to do with the shim. -/
instance : Lenient v Lawful where
  shim _ _ := lawful_action rfl

/-- Tame runs are those that the calls hide. -/
instance : Blind callView Tame where
  update h := ⟨⟨h, rfl⟩, givesBack_nil _⟩
  emit _ hv hl _ := ⟨still_action hv, lawful_action hl⟩
  shim _ hv := ⟨still_action hv, lawful_action rfl⟩
  guard hm h := ⟨still_guard (fun _ ↦ rfl) h.1, lawful_guard hm.not_mem h.2⟩
  inner h := ⟨h.1, givesBack_nil _⟩

/-- The account tables are as they were, and no PJSIP account is added or removed. -/
def Steady (_ : List Mutex) : Engine → List Action → Engine → Prop := accountView.Still

instance (held : List Mutex) : Traced.Composable (Steady held) :=
  inferInstanceAs (Traced.Composable accountView.Still)

/-- Steady runs are those that the accounts hide. -/
instance : Blind accountView Steady where
  update h := ⟨h, rfl⟩
  emit _ hv _ _ := still_action hv
  shim _ hv := still_action hv
  guard _ h := still_guard (fun _ ↦ rfl) h
  inner h := h

/-- The locks have nothing to do with the accounts. -/
instance : Lenient accountView Steady where
  shim _ hv := still_action hv

end Families

section Rules

variable {γ δ : Type} {v : View Engine Action γ δ} {R : Family} {held : List Mutex} {α : Type}
  [∀ held, Traced.Composable (R held)]

/-- An update that the view hides. -/
theorem blind_modify [Discreet v R] {f : Engine → Engine} (h : ∀ s, v.state (f s) = v.state s) :
    Traced.Admits (R held) (Traced.modify f : Eng Unit) :=
  Traced.admits_modify fun s ↦ Discreet.update (h s)

/-- An update that the view hides and that leaves the media statistics alone. -/
theorem sparing_modify [Sparing v R] {f : Engine → Engine} (h : ∀ s, v.state (f s) = v.state s)
    (hm : ∀ s, (f s).mediaStats = s.mediaStats) :
    Traced.Admits (R held) (Traced.modify f : Eng Unit) :=
  Traced.admits_modify fun s ↦ Sparing.update (h s) (hm s)

/-- An action that the view hides. -/
theorem blind_emit [Blind v R] {a : Action} (hv : v.act a = none) (hl : lockAct a = none)
    (hs : isShim a = false) : Traced.Admits (R held) (Traced.emit a : Eng Unit) :=
  Traced.admits_emit fun s ↦ Blind.emit s hv hl hs

/-- An action that the view hides and that is neither the event of a merge nor about a recording. -/
theorem discreet_emit [Sparing v R] {a : Action} (hv : v.act a = none) (hl : lockAct a = none)
    (hs : isShim a = false) (hm : isMerged a = false) (hr : isRecordingNews a = false) :
    Traced.Admits (R held) (Traced.emit a : Eng Unit) :=
  Traced.admits_emit fun s ↦ Sparing.emit s hv hl hs hm hr

/-- The rule for critical sections. -/
theorem blind_withLock (v : View Engine Action γ δ) [Sparing v R] {m : Mutex} {x : Eng α}
    (hm : Above held m) (h : Traced.Admits (R (m :: held)) x) :
    Traced.Admits (R held) (withLock m x) := by
  intro s t a s' hx
  obtain ⟨t₁, s₁, hbody, hmove, rfl⟩ := exec_withLock Traced.silent_refl hx
  have hinner : ∀ u u', Traced.Silent (R held) u u' → Traced.Silent (R (m :: held)) u u' :=
    fun _ _ hu ↦ Sparing.inner v hu
  have hR := Traced.Composable.append (h _ _ _ _ (hbody.mono hinner)) (hinner _ _ hmove)
  rw [List.append_nil] at hR
  exact Sparing.guard v hm hR

/-- A shim call that the view hides. -/
theorem blind_shim [Sparing v R] {call : ShimCall} (h : v.act (.shim call) = none) :
    Traced.Admits (R []) (shim call) := by
  unfold shim
  refine Traced.Admits.bind (Traced.admits_emit fun s ↦ Sparing.shim s h) fun _ ↦ ?_
  exact Traced.admits_ask.bind fun _ ↦ Traced.admits_pure _

/-- A shim call under locks that the view hides. -/
theorem lenient_shim [Lenient v R] {call : ShimCall} (h : v.act (.shim call) = none) :
    Traced.Admits (R held) (shim call) := by
  unfold shim
  refine Traced.Admits.bind (Traced.admits_emit fun s ↦ Lenient.shim s h) fun _ ↦ ?_
  exact Traced.admits_ask.bind fun _ ↦ Traced.admits_pure _

end Rules

end PacketDial.System
