import Mathlib.Data.List.AList
import Mathlib.Logic.Function.Basic

/-!
# Routes and owners

Two tables that should be inverse to each other: `route` sends a key to the record it is
routed to, `owner` sends a record to the key it claims. `Sound` tables never route a key to a
record that does not claim it; `Complete` tables route every claimed key. Together they are a
partial bijection. The lemmas say which updates of the two tables keep either half.
-/

namespace PacketDial.Lib

variable {κ ι : Type}
variable {route : κ → Option ι} {owner : ι → Option κ}

/-- A routed key is claimed by its record. -/
def Sound (route : κ → Option ι) (owner : ι → Option κ) : Prop :=
  ∀ k i, route k = some i → owner i = some k

/-- A claimed key is routed to its record. -/
def Complete (route : κ → Option ι) (owner : ι → Option κ) : Prop :=
  ∀ k i, owner i = some k → route k = some i

namespace Sound

/-- Sound tables never route two keys to one record. -/
theorem injective (h : Sound route owner) {k l : κ} {i : ι} (hk : route k = some i)
    (hl : route l = some i) : k = l := by
  have hi := h k i hk
  rw [h l i hl] at hi
  exact (Option.some.inj hi).symm

/-- A record that claims nothing is not routed to. -/
theorem route_ne (h : Sound route owner) {i : ι} (hi : owner i = none) (k : κ) :
    route k ≠ some i := by
  intro hk
  rw [h k i hk] at hi
  cases hi

/-- Without routes there is nothing to claim. -/
theorem clear (owner : ι → Option κ) : Sound (fun _ : κ ↦ none) owner :=
  fun _ _ h ↦ by cases h

/-- Routes may be dropped. -/
theorem mono (h : Sound route owner) {route' : κ → Option ι}
    (hsub : ∀ k i, route' k = some i → route k = some i) : Sound route' owner :=
  fun k i hk ↦ h k i (hsub k i hk)

variable [DecidableEq κ] [DecidableEq ι]

omit [DecidableEq κ] in
/-- A record that no key is routed to may give up its claim. -/
theorem release (h : Sound route owner) {i : ι} (hi : ∀ k, route k ≠ some i) :
    Sound route (Function.update owner i none) := by
  intro k j hk
  have hji : j ≠ i := by
    rintro rfl
    exact hi k hk
  rw [Function.update_of_ne hji]
  exact h k j hk

/-- A key may be routed to a record that claimed nothing so far. -/
theorem connect (h : Sound route owner) {i : ι} (hi : owner i = none) (k : κ) :
    Sound (Function.update route k (some i)) (Function.update owner i (some k)) := by
  intro l j hl
  by_cases hlk : l = k
  · subst hlk
    rw [Function.update_self] at hl
    cases hl
    rw [Function.update_self]
  · rw [Function.update_of_ne hlk] at hl
    have hji : j ≠ i := by
      rintro rfl
      exact h.route_ne hi l hl
    rw [Function.update_of_ne hji]
    exact h l j hl

/-- A routed key and its record may forget each other. -/
theorem disconnect (h : Sound route owner) {k : κ} {i : ι} (hk : route k = some i) :
    Sound (Function.update route k none) (Function.update owner i none) := by
  intro l j hl
  have hlk : l ≠ k := by
    rintro rfl
    rw [Function.update_self] at hl
    cases hl
  rw [Function.update_of_ne hlk] at hl
  have hji : j ≠ i := by
    rintro rfl
    exact hlk (h.injective hl hk)
  rw [Function.update_of_ne hji]
  exact h l j hl

/-- A record may give up its claim, and the key that it claimed its route. -/
theorem letGo (h : Sound route owner) {k : κ} {i : ι} (hi : owner i = some k) :
    Sound (Function.update route k none) (Function.update owner i none) := by
  have hdrop : Sound (Function.update route k none) owner := by
    apply h.mono
    intro l j hl
    by_cases hlk : l = k
    · rw [hlk, Function.update_self] at hl
      cases hl
    · rwa [Function.update_of_ne hlk] at hl
  apply hdrop.release
  intro l hl
  have hl' := hdrop l i hl
  rw [hi] at hl'
  cases hl'
  rw [Function.update_self] at hl
  cases hl

end Sound

namespace Complete

/-- Where nothing is claimed there need be no routes. -/
theorem clear (h : ∀ i, owner i = none) : Complete (fun _ : κ ↦ none) owner := by
  intro k i hi
  rw [h i] at hi
  cases hi

variable [DecidableEq κ] [DecidableEq ι]

/-- A key that is routed nowhere may be claimed by a record. -/
theorem connect (h : Complete route owner) {k : κ} (hk : route k = none) (i : ι) :
    Complete (Function.update route k (some i)) (Function.update owner i (some k)) := by
  intro l j hj
  by_cases hji : j = i
  · subst hji
    rw [Function.update_self] at hj
    cases hj
    rw [Function.update_self]
  · rw [Function.update_of_ne hji] at hj
    have hlk : l ≠ k := by
      rintro rfl
      rw [h l j hj] at hk
      cases hk
    rw [Function.update_of_ne hlk]
    exact h l j hj

/-- A routed key and its record may forget each other. -/
theorem disconnect (h : Complete route owner) {k : κ} {i : ι} (hk : route k = some i) :
    Complete (Function.update route k none) (Function.update owner i none) := by
  intro l j hj
  have hji : j ≠ i := by
    rintro rfl
    rw [Function.update_self] at hj
    cases hj
  rw [Function.update_of_ne hji] at hj
  have hlk : l ≠ k := by
    rintro rfl
    rw [h l j hj] at hk
    exact hji (Option.some.inj hk)
  rw [Function.update_of_ne hlk]
  exact h l j hj

end Complete

section Lookup

variable {β : Type} [DecidableEq κ]

/-- Looking up after an insertion is an update of looking up. -/
theorem lookup_insert_eq (k : κ) (b : β) (l : AList fun _ : κ ↦ β) :
    (fun j ↦ (l.insert k b).lookup j) = Function.update (fun j ↦ l.lookup j) k (some b) := by
  funext j
  by_cases h : j = k
  · subst h
    rw [AList.lookup_insert, Function.update_self]
  · rw [AList.lookup_insert_ne h, Function.update_of_ne h]

/-- Looking up after an erasure is an update of looking up. -/
theorem lookup_erase_eq (k : κ) (l : AList fun _ : κ ↦ β) :
    (fun j ↦ (l.erase k).lookup j) = Function.update (fun j ↦ l.lookup j) k none := by
  funext j
  by_cases h : j = k
  · subst h
    rw [AList.lookup_erase, Function.update_self]
  · rw [AList.lookup_erase_ne h, Function.update_of_ne h]

end Lookup

end PacketDial.Lib
