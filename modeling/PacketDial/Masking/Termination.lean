import PacketDial.Lib.Loops
import PacketDial.Masking.Cuts

/-!
# The scan for URIs ends

The `while` loop of `mask_sip_uri_passwords` (`core_rust/src/lib.rs:922–938`) as a loop, without
fuel. The offset of `sip:` is that in a lowered copy of the text, which may be longer or shorter,
so the URI need not begin there. If the offset is not 0 the text in front of it is dropped; if it
is, the text begins with a `sip:` in some letter case, whose first character ends no URI.
-/

namespace PacketDial.Masking

open PacketDial.Core PacketDial.Lib
open String (utf8Len)

/-- The variables of the loop. -/
structure MaskState where
  result : List Char
  remaining : List Char
  deriving DecidableEq

/-- An iteration of the loop (`lib.rs:925–935`). -/
def maskIteration (state : MaskState) : Except Halt (Option MaskState) :=
  match findStr "sip:".toList (toLowercase state.remaining) with
  | none => .ok none
  | some start => do
    let before ← sliceTo state.remaining start
    let uriStart ← sliceFrom state.remaining start
    let uriEnd := (findChar endsUri uriStart).getD (utf8Len uriStart)
    let uri ← sliceTo uriStart uriEnd
    let masked ← maskSingleUri uri
    let rest ← sliceFrom uriStart uriEnd
    return some ⟨state.result ++ before ++ masked, rest⟩

section Iterations

variable {result before uriStart pre s : List Char} {state t : MaskState}

/-- Without `sip:` the loop is left. -/
theorem maskIteration_done (h : beforeSip s = none) : maskIteration ⟨result, s⟩ = .ok none := by
  unfold maskIteration
  rw [findStr_sip, h]
  rfl

/-- A cut between two characters: the URI behind it is masked, and what follows it remains. -/
theorem maskIteration_cut (hpre : beforeSip (before ++ uriStart) = some pre)
    (hlen : utf8Len before = utf8Len (toLowercase pre)) :
    maskIteration ⟨result, before ++ uriStart⟩ =
      .ok (some ⟨result ++ before ++ maskUri (uriOf uriStart), afterUri uriStart⟩) := by
  have hto := sliceTo_append before uriStart
  have hfrom := sliceFrom_append before uriStart
  obtain ⟨huri, hafter⟩ := slices_uriEnd uriStart
  unfold maskIteration
  rw [findStr_sip, hpre]
  simp only [Option.map_some, ← hlen, hto, hfrom]
  change (do
    let uri ← sliceTo uriStart ((findChar endsUri uriStart).getD (utf8Len uriStart))
    let masked ← maskSingleUri uri
    let rest ← sliceFrom uriStart ((findChar endsUri uriStart).getD (utf8Len uriStart))
    return some (MaskState.mk (result ++ before ++ masked) rest)) = _
  rw [huri, hafter]
  change (do
    let masked ← maskSingleUri (uriOf uriStart)
    return some (MaskState.mk (result ++ before ++ masked) (afterUri uriStart))) = _
  rw [maskSingleUri_eq]
  rfl

/-- A cut that lies nowhere between two characters panics. -/
theorem maskIteration_panic (hpre : beforeSip s = some pre)
    (hno : ¬ ∃ before uriStart, s = before ++ uriStart ∧
      utf8Len before = utf8Len (toLowercase pre)) :
    maskIteration ⟨result, s⟩ = .error .panic := by
  unfold maskIteration
  rw [findStr_sip, hpre]
  simp only [Option.map_some, sliceTo_panic hno]
  rfl

/-- The loop is left without `sip:`, it goes on with a cut between two characters, or it panics. -/
theorem maskIteration_cases (state : MaskState) :
    (beforeSip state.remaining = none ∧ maskIteration state = .ok none) ∨
    (∃ before uriStart pre, state.remaining = before ++ uriStart ∧
      beforeSip (before ++ uriStart) = some pre ∧ utf8Len before = utf8Len (toLowercase pre) ∧
      maskIteration state = .ok (some
        ⟨state.result ++ before ++ maskUri (uriOf uriStart), afterUri uriStart⟩)) ∨
    maskIteration state = .error .panic := by
  obtain ⟨result, s⟩ := state
  cases hpre : beforeSip s with
  | none => exact Or.inl ⟨rfl, maskIteration_done hpre⟩
  | some pre =>
    by_cases hcut : ∃ a b, s = a ++ b ∧ utf8Len a = utf8Len (toLowercase pre)
    · obtain ⟨before, uriStart, rfl, hlen⟩ := hcut
      exact Or.inr (Or.inl ⟨before, uriStart, pre, rfl, hpre, hlen, maskIteration_cut hpre hlen⟩)
    · exact Or.inr (Or.inr (maskIteration_panic hpre hcut))

/-- An iteration cuts between two characters. -/
theorem cut_of_iterates (h : Iterates maskIteration state t) :
    ∃ before uriStart pre, state.remaining = before ++ uriStart ∧
      beforeSip (before ++ uriStart) = some pre ∧ utf8Len before = utf8Len (toLowercase pre) ∧
      t = ⟨state.result ++ before ++ maskUri (uriOf uriStart), afterUri uriStart⟩ := by
  unfold Iterates at h
  rcases maskIteration_cases state with
    ⟨-, hdone⟩ | ⟨before, uriStart, pre, hs, hpre, hlen, hcut⟩ | hpanic
  · rw [hdone] at h
    cases h
  · rw [hcut] at h
    cases h
    exact ⟨before, uriStart, pre, hs, hpre, hlen, rfl⟩
  · rw [hpanic] at h
    cases h

/-- Each iteration leaves a shorter text. -/
theorem remaining_shorter (h : Iterates maskIteration state t) :
    utf8Len t.remaining < utf8Len state.remaining := by
  obtain ⟨before, uriStart, pre, hs, hpre, hlen, rfl⟩ := cut_of_iterates h
  have hshort := afterUri_shorter hpre hlen
  obtain ⟨uri, huri⟩ : afterUri uriStart <:+ uriStart := List.dropWhile_suffix _
  have hdropped : before ++ uri ≠ [] := by
    intro hnil
    have hlength := congrArg List.length huri
    have hzero := congrArg List.length hnil
    simp only [List.length_append, List.length_nil] at hlength hzero hshort
    omega
  have hwhole : state.remaining = (before ++ uri) ++ afterUri uriStart := by
    rw [hs, List.append_assoc, huri]
  obtain ⟨c, dropped, hcons⟩ := List.exists_cons_of_ne_nil hdropped
  have hpos := c.utf8Size_pos
  rw [hwhole, hcons, String.utf8Len_append, String.utf8Len_cons]
  dsimp only
  omega

/-- The loop has no infinite run. -/
theorem acc_maskIteration (state : MaskState) :
    Acc (fun t u ↦ Iterates maskIteration u t) state :=
  acc_of_measure (fun state ↦ utf8Len state.remaining) (fun _ _ h ↦ remaining_shorter h) state

/-- A run that is left gives what the function returns. -/
theorem maskSipUriPasswords_of_exit
    (hrun : Relation.ReflTransGen (Iterates maskIteration) state t)
    (hexit : maskIteration t = .ok none) :
    ∃ out, maskSipUriPasswords state.remaining = .ok out ∧
      t.result ++ t.remaining = state.result ++ out := by
  induction hrun using Relation.ReflTransGen.head_induction_on with
  | refl =>
    rcases maskIteration_cases t with ⟨hnone, -⟩ | ⟨_, _, _, _, _, _, hcut⟩ | hpanic
    · exact ⟨_, maskSipUriPasswords_done hnone, rfl⟩
    · rw [hexit] at hcut
      cases hcut
    · rw [hexit] at hpanic
      cases hpanic
  | head hnext _ ih =>
    obtain ⟨before, uriStart, pre, hs, hpre, hlen, rfl⟩ := cut_of_iterates hnext
    obtain ⟨out, hout, heq⟩ := ih
    refine ⟨before ++ maskUri (uriOf uriStart) ++ out, ?_, ?_⟩
    · rw [hs, maskSipUriPasswords_cut hpre hlen, hout]
      rfl
    · rw [heq]
      simp only [List.append_assoc]

end Iterations

/-- Where its slices are valid the loop ends, with what the function returns: each iteration leaves
a shorter text, wherever the offset found in the lowered copy points, so there is no infinite run.
-/
theorem maskIteration_terminates (s : List Char) (h : Unfailing maskIteration ⟨[], s⟩) :
    (∃ t, Relation.ReflTransGen (Iterates maskIteration) ⟨[], s⟩ t ∧
      maskIteration t = .ok none ∧ maskSipUriPasswords s = .ok (t.result ++ t.remaining)) ∧
    Acc (fun t u ↦ Iterates maskIteration u t) ⟨[], s⟩ ∧
    ∀ t u, Iterates maskIteration t u → utf8Len u.remaining < utf8Len t.remaining := by
  have hacc := acc_maskIteration ⟨[], s⟩
  obtain ⟨t, hrun, hexit⟩ := exists_exit hacc h
  obtain ⟨out, hout, heq⟩ := maskSipUriPasswords_of_exit hrun hexit
  refine ⟨⟨t, hrun, hexit, ?_⟩, hacc, fun _ _ ↦ remaining_shorter⟩
  rw [heq]
  exact hout

/-- A display name with a letter that lowering makes longer, right in front of an address. -/
def longerLowered : List Char := "\u0130sip:a:b@x".toList

/-- The offset that is found in the lowered copy points behind the `s` of `sip:`: the loop goes on
with `ip:a:b@x`, takes that for a URI and ends. -/
theorem maskIteration_terminates_longer :
    Iterates maskIteration ⟨[], longerLowered⟩ ⟨longerLowered, []⟩ ∧
      sliceFrom longerLowered 3 = .ok "ip:a:b@x".toList ∧
      ((∃ t, Relation.ReflTransGen (Iterates maskIteration) ⟨[], longerLowered⟩ t ∧
        maskIteration t = .ok none ∧
        maskSipUriPasswords longerLowered = .ok (t.result ++ t.remaining)) ∧
      Acc (fun t u ↦ Iterates maskIteration u t) ⟨[], longerLowered⟩ ∧
      ∀ t u, Iterates maskIteration t u → utf8Len u.remaining < utf8Len t.remaining) := by
  have hfirst : Iterates maskIteration ⟨[], longerLowered⟩ ⟨longerLowered, []⟩ := by
    unfold Iterates
    decide +kernel
  have hexit : maskIteration ⟨longerLowered, []⟩ = .ok none := by decide +kernel
  have hslice : sliceFrom longerLowered 3 = .ok "ip:a:b@x".toList := by decide +kernel
  refine ⟨hfirst, hslice, maskIteration_terminates longerLowered ?_⟩
  exact unfailing_of_exit (.single hfirst) hexit

end PacketDial.Masking
