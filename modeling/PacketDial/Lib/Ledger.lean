import Mathlib.Data.Finset.Basic
import Mathlib.Data.Finset.SDiff

/-!
# Ledgers of a resource

A program opens and closes handles of a resource. The ledger lists what it did, in order;
`openAfter` are the handles that are open at its end, and `ClosesOpen` says that only open
handles were closed, so that none was closed twice.
-/

namespace PacketDial.Lib

/-- An entry of a ledger. -/
inductive Entry (ρ : Type) where
  | opened (r : ρ)
  | closed (r : ρ)
  deriving DecidableEq

variable {ρ : Type} [DecidableEq ρ]

/-- What an entry makes of the live handles. -/
def Entry.apply (live : Finset ρ) : Entry ρ → Finset ρ
  | .opened r => insert r live
  | .closed r => live.erase r

/-- The handles that are live after a ledger. -/
def openAfter (live : Finset ρ) (ledger : List (Entry ρ)) : Finset ρ :=
  ledger.foldl Entry.apply live

/-- Only live handles are closed. -/
def ClosesOpen (live : Finset ρ) : List (Entry ρ) → Prop
  | [] => True
  | .opened r :: ledger => ClosesOpen (insert r live) ledger
  | .closed r :: ledger => r ∈ live ∧ ClosesOpen (live.erase r) ledger

@[simp] theorem openAfter_nil (live : Finset ρ) : openAfter live [] = live := rfl

/-- A ledger after another. -/
theorem openAfter_append (live : Finset ρ) (before after : List (Entry ρ)) :
    openAfter live (before ++ after) = openAfter (openAfter live before) after :=
  List.foldl_append

/-- Closing only live handles, one ledger after another. -/
theorem closesOpen_append {live : Finset ρ} {before after : List (Entry ρ)} :
    ClosesOpen live (before ++ after) ↔
      ClosesOpen live before ∧ ClosesOpen (openAfter live before) after := by
  induction before generalizing live with
  | nil => exact ⟨fun h ↦ ⟨trivial, h⟩, And.right⟩
  | cons entry before ih =>
    cases entry with
    | opened r => exact ih
    | closed r =>
      rw [List.cons_append, ClosesOpen, ClosesOpen, ih, and_assoc]
      rfl

/-- A new handle, closed again, leaves what was there. -/
theorem openAfter_tried {live : Finset ρ} {r : ρ} (h : r ∉ live) :
    openAfter live [.opened r, .closed r] = live :=
  Finset.erase_insert h

/-- Closing a new handle is closing a live one. -/
theorem closesOpen_tried (live : Finset ρ) (r : ρ) : ClosesOpen live [.opened r, .closed r] :=
  ⟨Finset.mem_insert_self r live, trivial⟩

/-- Closing a list of handles takes them away. -/
theorem openAfter_closeAll (live : Finset ρ) (rs : List ρ) :
    openAfter live (rs.map .closed) = live \ rs.toFinset := by
  induction rs generalizing live with
  | nil => simp
  | cons r rs ih =>
    change openAfter (live.erase r) (rs.map .closed) = _
    rw [ih]
    ext q
    simp only [Finset.mem_sdiff, Finset.mem_erase, List.toFinset_cons, Finset.mem_insert]
    tauto

/-- A list of distinct live handles can be closed. -/
theorem closesOpen_closeAll {live : Finset ρ} {rs : List ρ} (hrs : rs.Nodup)
    (hlive : ∀ r ∈ rs, r ∈ live) : ClosesOpen live (rs.map .closed) := by
  induction rs generalizing live with
  | nil => trivial
  | cons r rs ih =>
    obtain ⟨hr, hrs⟩ := List.nodup_cons.mp hrs
    refine ⟨hlive r List.mem_cons_self, ih hrs fun r' hr' ↦ ?_⟩
    rw [Finset.mem_erase]
    constructor
    · rintro rfl
      exact hr hr'
    · exact hlive r' (List.mem_cons_of_mem r hr')

end PacketDial.Lib
