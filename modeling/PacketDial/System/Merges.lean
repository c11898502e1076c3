import PacketDial.System.MildCommands

/-!
# Merges are not announced

The engine has an event `ConferenceMerged` with an id of its own (`core_rust/src/lib.rs:993`,
`3481`), but no program pushes it: `engine_merge_conference` returns what the shim answers.
-/

namespace PacketDial.System

open PacketDial.Core PacketDial.Lib

/-- The action is not the event of a merge. -/
def NotMerged (a : Action) : Prop := isMerged a = false

/-- No merge is announced. -/
def Unmerged (_ : List Mutex) : Engine → List Action → Engine → Prop := Traced.Performs NotMerged

instance (held : List Mutex) : Traced.Composable (Unmerged held) :=
  inferInstanceAs (Traced.Composable (Traced.Performs NotMerged))

/-- Discreet families announce no merge. -/
instance {γ δ : Type} {v : View Engine Action γ δ} : Discreet v Unmerged where
  update _ := List.forall_mem_nil NotMerged
  emit _ _ _ _ hm := List.forall_mem_singleton.mpr hm
  shim _ _ := List.forall_mem_singleton.mpr rfl
  guard _ h := by
    refine List.forall_mem_cons.mpr ⟨rfl, List.forall_mem_append.mpr ⟨h, ?_⟩⟩
    exact List.forall_mem_singleton.mpr rfl
  inner _ := List.forall_mem_nil NotMerged

/-- Whether or not locks are held, the shim announces none. -/
instance {γ δ : Type} {v : View Engine Action γ δ} : Lenient v Unmerged where
  shim _ _ := List.forall_mem_singleton.mpr rfl

/-- No operation announces one. -/
theorem unmerged_op (op : Op) : Traced.Admits (Unmerged []) op.run :=
  admits_every_op (fun act ↦ Traced.admits_emit fun _ ↦
    (List.forall_mem_singleton (p := NotMerged) (a := .lock act)).mpr rfl)
    (fun _ ↦ inferInstance) fun _ ↦ inferInstance

/-- No event of a run says that a conference was merged. -/
theorem merged_not_mem (i : Input) (s : Engine) (payload : Json) :
    .event "ConferenceMerged" payload ∉ (i.outcome s).trace := by
  intro hmem
  have hrun : ∀ a ∈ (i.outcome s).trace, NotMerged a := (unmerged_op i.op).run i.env s
  exact absurd (hrun _ hmem) (by simp [NotMerged, isMerged])

end PacketDial.System
