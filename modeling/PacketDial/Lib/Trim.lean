import Mathlib.Data.List.DropRight

/-!
# Lists trimmed at both ends

`strip p` takes off, at both ends of a list, what satisfies `p`: trimming a string is the case of
white space. A list is `Clean` where this takes nothing off.
-/

namespace PacketDial.Lib

variable {α : Type} {p : α → Bool} {l : List α}

/-- The list without what satisfies `p` at its ends. -/
def strip (p : α → Bool) (l : List α) : List α := ((l.dropWhile p).reverse.dropWhile p).reverse

/-- Neither end of the list satisfies `p`. -/
structure Clean (p : α → Bool) (l : List α) : Prop where
  head : ∀ a ∈ l.head?, p a = false
  last : ∀ a ∈ l.getLast?, p a = false

/-- Dropping leaves an end that does not satisfy `p`. -/
theorem head?_dropWhile (l : List α) : ∀ a ∈ (l.dropWhile p).head?, p a = false := by
  induction l with
  | nil => simp
  | cons b l ih =>
    by_cases hb : p b = true
    · rwa [List.dropWhile_cons_of_pos hb]
    · rw [List.dropWhile_cons_of_neg hb]
      intro a ha
      rw [← Option.some.inj ha]
      exact Bool.not_eq_true _ ▸ hb

/-- Nothing is dropped where the first entry does not satisfy `p`. -/
theorem dropWhile_eq_self (h : ∀ a ∈ l.head?, p a = false) : l.dropWhile p = l := by
  cases l with
  | nil => rfl
  | cons b l =>
    rw [List.dropWhile_cons_of_neg]
    simpa using h b rfl

/-- What is taken off satisfies `p`. -/
theorem exists_strip (p : α → Bool) (l : List α) :
    ∃ a b, l = a ++ strip p l ++ b ∧ (∀ x ∈ a, p x = true) ∧ ∀ x ∈ b, p x = true := by
  refine ⟨l.takeWhile p, ((l.dropWhile p).reverse.takeWhile p).reverse, ?_, ?_, ?_⟩
  · unfold strip
    rw [List.append_assoc, ← List.reverse_append, List.takeWhile_append_dropWhile,
      List.reverse_reverse, List.takeWhile_append_dropWhile]
  · intro x hx
    exact List.mem_takeWhile_imp hx
  · intro x hx
    exact List.mem_takeWhile_imp (List.mem_reverse.mp hx)

/-- A trimmed list is clean. -/
theorem clean_strip (p : α → Bool) (l : List α) : Clean p (strip p l) := by
  have hlast : ∀ a ∈ (strip p l).getLast?, p a = false := by
    unfold strip
    rw [List.getLast?_reverse]
    exact head?_dropWhile _
  refine ⟨fun a ha ↦ ?_, hlast⟩
  have hprefix : strip p l <+: l.dropWhile p := by
    rw [← List.reverse_suffix, strip, List.reverse_reverse]
    exact List.dropWhile_suffix p
  obtain ⟨rest, hrest⟩ := hprefix
  apply head?_dropWhile l
  rw [← hrest, List.head?_append, ha]
  rfl

/-- Trimming takes nothing off a clean list. -/
theorem Clean.strip_eq (h : Clean p l) : strip p l = l := by
  have hlast : ∀ a ∈ l.reverse.head?, p a = false := by
    rw [List.head?_reverse]
    exact h.last
  rw [strip, dropWhile_eq_self h.head, dropWhile_eq_self hlast, List.reverse_reverse]

/-- Trimming twice is trimming once. -/
theorem strip_strip (p : α → Bool) (l : List α) : strip p (strip p l) = strip p l :=
  (clean_strip p l).strip_eq

/-- The ends of a concatenation are an end of each part. -/
theorem clean_append {l' : List α} (hl : l ≠ []) (hhead : ∀ a ∈ l.head?, p a = false)
    (hl' : l' ≠ []) (hlast : ∀ a ∈ l'.getLast?, p a = false) : Clean p (l ++ l') := by
  constructor
  · rwa [List.head?_append_of_ne_nil l hl]
  · rwa [List.getLast?_append_of_ne_nil l hl']

/-- A clean list goes on cleanly. -/
theorem Clean.append {l' : List α} (h : Clean p l) (hl : l ≠ []) (h' : Clean p l') :
    Clean p (l ++ l') := by
  cases l' with
  | nil => rwa [List.append_nil]
  | cons a l' => exact clean_append hl h.head (List.cons_ne_nil a l') h'.last

/-- A list without entries that satisfy `p` is clean. -/
theorem clean_of_forall (h : ∀ a ∈ l, p a = false) : Clean p l :=
  ⟨fun a ha ↦ h a (List.mem_of_mem_head? ha), fun a ha ↦ h a (List.mem_of_getLast? ha)⟩

/-- Trimming keeps what does not satisfy `p`. -/
theorem count_strip [DecidableEq α] {x : α} (hx : p x = false) (l : List α) :
    (strip p l).count x = l.count x := by
  obtain ⟨a, b, hl, ha, hb⟩ := exists_strip p l
  have absent {m : List α} (hm : ∀ y ∈ m, p y = true) : m.count x = 0 := by
    rw [List.count_eq_zero]
    intro hmem
    rw [hm x hmem] at hx
    cases hx
  have hcount := congrArg (List.count x) hl
  rw [List.count_append, List.count_append, absent ha, absent hb] at hcount
  omega

/-- Trimming keeps what does not satisfy `p`. -/
theorem mem_strip [DecidableEq α] {x : α} (hx : p x = false) : x ∈ strip p l ↔ x ∈ l := by
  rw [← List.count_pos_iff, count_strip hx, List.count_pos_iff]

/-- Trimming takes nothing off a clean front. -/
theorem exists_strip_append {a : List α} (h : Clean p a) (hne : a ≠ []) (b : List α) :
    ∃ b', strip p (a ++ b) = a ++ b' := by
  obtain ⟨x, y, hl, hx, hy⟩ := exists_strip p (a ++ b)
  have hxnil : x = [] := by
    cases x with
    | nil => rfl
    | cons c x =>
      obtain ⟨d, a', rfl⟩ := List.exists_cons_of_ne_nil hne
      have hcd : d = c := (List.cons.inj hl).1
      have hd := h.head d rfl
      rw [hcd, hx c List.mem_cons_self] at hd
      cases hd
  rw [hxnil, List.nil_append] at hl
  obtain ⟨c, hstrip, -⟩ | ⟨c, ha, hyc⟩ := List.append_eq_append_iff.mp hl
  · exact ⟨c, hstrip⟩
  · refine ⟨[], ?_⟩
    cases hlast : c.getLast? with
    | none =>
      rw [List.getLast?_eq_none_iff.mp hlast, List.append_nil] at ha
      rw [List.append_nil]
      exact ha.symm
    | some d =>
      have hd : p d = true := hy d (hyc ▸ List.mem_append_left b (List.mem_of_getLast? hlast))
      have hd' := h.last d (by rw [ha, List.getLast?_append, hlast]; rfl)
      rw [hd] at hd'
      cases hd'

end PacketDial.Lib
