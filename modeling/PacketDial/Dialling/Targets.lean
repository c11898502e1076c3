import PacketDial.Core.Calls
import PacketDial.Lib.Trim

/-!
# Dial targets

What `normalize_call_target_uri` (`core_rust/src/lib.rs:1567–1589`) makes of a target and the domain
of an account, as a list of characters. A target with a `:` but without an `@` and without a SIP
scheme keeps no domain, and one with an `@` but without a `:` gets a second host.
-/

namespace PacketDial.Dialling

open PacketDial.Core PacketDial.Lib

/-- The target starts with `sip:` or `sips:`. -/
def hasScheme (t : List Char) : Bool := "sip:".toList.isPrefixOf t || "sips:".toList.isPrefixOf t

/-- The domain after an `@`, if there is one. -/
def atDomain : Option String → List Char
  | some d => '@' :: d.toList
  | none => []

/-- The domain that is used: trimmed, and none if it is blank. -/
def dialDomain (domain : Option String) : Option String := (domain.map trim).filter (· ≠ "")

/-- The normalised form of a trimmed target. -/
def normalForm (t : List Char) (d : Option String) : List Char :=
  if hasScheme t then if '@' ∈ t then t else t ++ atDomain d
  else if ':' ∈ t then "sip:".toList ++ t
  else "sip:".toList ++ t ++ atDomain d

/-- The host of a target: what follows the first `@`. -/
def hostOf (t : List Char) : List Char := (t.dropWhile (· ≠ '@')).drop 1

/-- A dialable form of `raw`: one SIP URI, with the host of `raw` if it has one and the domain
otherwise. -/
structure WellFormed (raw domain result : String) : Prop where
  scheme : hasScheme result.toList = true
  oneAt : result.toList.count '@' = 1
  host : hostOf result.toList =
    if '@' ∈ raw.toList then hostOf (trim raw).toList else (trim domain).toList

section Trimming

/-- Trimming a string trims its characters. -/
theorem toList_trim (s : String) : (trim s).toList = strip isWhitespace s.toList := by
  rw [trim, String.toList_ofList]
  rfl

/-- A string whose characters are clean is trimmed. -/
theorem trim_eq_self {s : String} (h : Clean isWhitespace s.toList) : trim s = s := by
  rw [← String.toList_inj, toList_trim, h.strip_eq]

/-- A trimmed string is clean. -/
theorem clean_trim (s : String) : Clean isWhitespace (trim s).toList := by
  rw [toList_trim]
  exact clean_strip _ _

/-- Trimming twice is trimming once. -/
theorem trim_trim (s : String) : trim (trim s) = trim s := trim_eq_self (clean_trim s)

/-- What is not white space stays. -/
theorem mem_trim {c : Char} (hc : isWhitespace c = false) (s : String) :
    c ∈ (trim s).toList ↔ c ∈ s.toList := by
  rw [toList_trim, mem_strip hc]

/-- A domain that is used is trimmed and not empty. -/
theorem dialDomain_eq_some {domain : Option String} {d : String} (h : dialDomain domain = some d) :
    Clean isWhitespace d.toList ∧ d.toList ≠ [] := by
  obtain ⟨hd, hne⟩ := Option.filter_eq_some_iff.mp h
  obtain ⟨raw, -, rfl⟩ := Option.map_eq_some_iff.mp hd
  refine ⟨clean_trim raw, fun hnil ↦ ?_⟩
  rw [← String.toList_empty, String.toList_inj] at hnil
  simp [hnil] at hne

/-- A domain that is not blank is used. -/
theorem dialDomain_some {domain : String} (h : trim domain ≠ "") :
    dialDomain (some domain) = some (trim domain) := by
  simp [dialDomain, h]

end Trimming

section Normalisation

variable {raw : String} {domain : Option String}

/-- The characters of a normalised target. -/
theorem toList_normalizeCallTargetUri (raw : String) (domain : Option String) :
    (normalizeCallTargetUri raw domain).toList =
      normalForm (trim raw).toList (dialDomain domain) := by
  unfold normalizeCallTargetUri normalForm hasScheme
  dsimp only
  have text (s : String) : toString s = s := rfl
  cases hd : dialDomain domain with
  | none =>
    unfold dialDomain at hd
    rw [hd]
    split_ifs <;> simp_all [atDomain]
  | some d =>
    unfold dialDomain at hd
    rw [hd]
    split_ifs <;> simp_all [atDomain]

/-- `sip:` is a scheme. -/
theorem hasScheme_sip (t : List Char) : hasScheme ("sip:".toList ++ t) = true := by
  unfold hasScheme
  rw [List.isPrefixOf_iff_prefix.mpr (List.prefix_append _ t), Bool.true_or]

/-- More text after a target leaves its scheme. -/
theorem hasScheme_append {t : List Char} (h : hasScheme t = true) (u : List Char) :
    hasScheme (t ++ u) = true := by
  unfold hasScheme at h ⊢
  rw [Bool.or_eq_true, List.isPrefixOf_iff_prefix, List.isPrefixOf_iff_prefix] at h ⊢
  exact h.imp (·.trans (List.prefix_append t u)) (·.trans (List.prefix_append t u))

/-- A target with a scheme has a `:`, and it is not empty. -/
theorem colon_of_hasScheme {t : List Char} (h : hasScheme t = true) : ':' ∈ t := by
  unfold hasScheme at h
  rw [Bool.or_eq_true, List.isPrefixOf_iff_prefix, List.isPrefixOf_iff_prefix] at h
  rcases h with h | h
  · exact h.subset (by decide)
  · exact h.subset (by decide)

/-- A normalised target has a scheme. -/
theorem hasScheme_normalForm (t : List Char) (d : Option String) :
    hasScheme (normalForm t d) = true := by
  unfold normalForm
  split_ifs with hscheme hat hcolon
  · exact hscheme
  · exact hasScheme_append hscheme _
  · exact hasScheme_sip t
  · rw [List.append_assoc]
    exact hasScheme_sip _

/-- A text is free of white space when the test over its characters says so. -/
theorem unspaced_of_any {l : List Char} (h : l.any isWhitespace = false) :
    ∀ c ∈ l, isWhitespace c = false := by
  intro c hc
  have hall := List.any_eq_false.mp h c hc
  exact Bool.eq_false_of_not_eq_true hall

/-- The domain ends cleanly. -/
theorem clean_atDomain (domain : Option String) :
    Clean isWhitespace (atDomain (dialDomain domain)) := by
  cases hd : dialDomain domain with
  | none => exact clean_of_forall (List.forall_mem_nil _)
  | some d =>
    have hat : Clean isWhitespace ['@'] := clean_of_forall (unspaced_of_any rfl)
    exact hat.append (List.cons_ne_nil _ _) (dialDomain_eq_some hd).1

/-- A normalised target is trimmed. -/
theorem clean_normalForm {t : List Char} (h : Clean isWhitespace t) (domain : Option String) :
    Clean isWhitespace (normalForm t (dialDomain domain)) := by
  have hsip : Clean isWhitespace "sip:".toList := clean_of_forall (unspaced_of_any rfl)
  have hne : "sip:".toList ≠ [] := by decide
  unfold normalForm
  split_ifs with hscheme hat hcolon
  · exact h
  · exact h.append (List.ne_nil_of_mem (colon_of_hasScheme hscheme)) (clean_atDomain domain)
  · exact hsip.append hne h
  · exact (hsip.append hne h).append (List.append_ne_nil_of_left_ne_nil hne t)
      (clean_atDomain domain)

/-- Where a normalised target has a user and a host. -/
theorem at_mem_normalForm {t : List Char} {d : Option String} : '@' ∈ normalForm t d ↔
    '@' ∈ t ∨ (d ≠ none ∧ (hasScheme t = true ∨ ':' ∉ t)) := by
  have hdomain : '@' ∈ atDomain d ↔ d ≠ none := by
    cases d with
    | none => simp [atDomain]
    | some d => simp [atDomain]
  unfold normalForm
  split_ifs with hscheme hat hcolon
  · simp [hat]
  · simp [hdomain, hscheme, hat]
  · simp [hscheme, hcolon]
  · simp [hdomain, hscheme, hcolon]

/-- The characters of a target that is normalised twice. -/
theorem toList_normalize_twice (raw : String) (domain : Option String) :
    (normalizeCallTargetUri (normalizeCallTargetUri raw domain) domain).toList =
      normalForm (normalForm (trim raw).toList (dialDomain domain)) (dialDomain domain) := by
  have hout := toList_normalizeCallTargetUri raw domain
  have hclean : Clean isWhitespace (normalizeCallTargetUri raw domain).toList := by
    rw [hout]
    exact clean_normalForm (clean_trim raw) domain
  rw [toList_normalizeCallTargetUri, trim_eq_self hclean, hout]

/-- Normalising a target again changes nothing if and only if there is no domain, or the target has
a SIP scheme, has no `:` or has an `@`. -/
theorem normalize_idempotent_iff (raw : String) (domain : Option String) :
    normalizeCallTargetUri (normalizeCallTargetUri raw domain) domain =
        normalizeCallTargetUri raw domain ↔
      dialDomain domain = none ∨ hasScheme (trim raw).toList = true ∨ ':' ∉ raw.toList ∨
        '@' ∈ raw.toList := by
  rw [← mem_trim (by decide) raw, ← mem_trim (by decide) raw, ← String.toList_inj,
    toList_normalize_twice, toList_normalizeCallTargetUri]
  generalize (trim raw).toList = t
  have htwice : normalForm (normalForm t (dialDomain domain)) (dialDomain domain) =
      normalForm t (dialDomain domain) ↔
        '@' ∈ normalForm t (dialDomain domain) ∨ dialDomain domain = none := by
    rw [normalForm, if_pos (hasScheme_normalForm t _)]
    by_cases hat : '@' ∈ normalForm t (dialDomain domain)
    · simp [hat]
    · rw [if_neg hat, List.append_right_eq_self]
      simp only [hat, false_or]
      cases dialDomain domain with
      | none => simp [atDomain]
      | some d => simp [atDomain]
  rw [htwice, at_mem_normalForm]
  by_cases hnone : dialDomain domain = none
  · simp [hnone]
  · simp only [ne_eq, hnone, not_false_eq_true, true_and, false_or, or_false]
    rw [or_comm, or_assoc]

/-- A `tel:` target gets a domain only when it is normalised again. -/
theorem tel_normalised_again :
    normalizeCallTargetUri (normalizeCallTargetUri "tel:127" (some "pbx")) (some "pbx") ≠
      normalizeCallTargetUri "tel:127" (some "pbx") := by decide

end Normalisation

section Shape

variable {raw domain : String}

/-- The host follows the first `@`. -/
theorem hostOf_append {t u : List Char} (h : '@' ∉ t) : hostOf (t ++ u) = hostOf u := by
  unfold hostOf
  rw [List.dropWhile_append_of_pos]
  intro c hc
  simpa using fun hat : c = '@' ↦ h (hat ▸ hc)

/-- The host of a target that ends with a domain. -/
theorem hostOf_atDomain (d : String) : hostOf (atDomain (some d)) = d.toList := rfl

/-- The shape of a normalised target in each case. -/
theorem wellFormed_normalize (hdomain : trim domain ≠ "")
    (hform : (normalForm (trim raw).toList (some (trim domain))).count '@' = 1)
    (hhost : hostOf (normalForm (trim raw).toList (some (trim domain))) =
      if '@' ∈ (trim raw).toList then hostOf (trim raw).toList else (trim domain).toList) :
    WellFormed raw domain (normalizeCallTargetUri raw (some domain)) := by
  have hout := toList_normalizeCallTargetUri raw (some domain)
  rw [dialDomain_some hdomain] at hout
  refine ⟨?_, ?_, ?_⟩
  · rw [hout]
    exact hasScheme_normalForm _ _
  · rw [hout, hform]
  · rw [hout, hhost, if_congr (mem_trim (by decide) raw) rfl rfl]

/-- How many `@` a normalised target has: those of the target, and one for a domain. -/
theorem count_at_normalForm {t : List Char} {d : String} (hd : '@' ∉ d.toList) :
    (normalForm t (some d)).count '@' =
      t.count '@' + if hasScheme t = true then if '@' ∈ t then 0 else 1
        else if ':' ∈ t then 0 else 1 := by
  have hsip : "sip:".toList.count '@' = 0 := by decide
  have hdomain : (atDomain (some d)).count '@' = 1 := by
    rw [atDomain, List.count_cons_self, List.count_eq_zero.mpr hd]
  unfold normalForm
  split_ifs with hscheme hat hcolon
  · rfl
  · rw [List.count_append, hdomain]
  · rw [List.count_append, hsip, Nat.zero_add, Nat.add_zero]
  · rw [List.count_append, List.count_append, hsip, hdomain, Nat.zero_add]

/-- The host of a normalised target: its own if it has one, and the domain otherwise. -/
theorem hostOf_normalForm {t : List Char} {d : String}
    (h : hasScheme t = true ∨ ('@' ∈ t ↔ ':' ∈ t)) :
    hostOf (normalForm t (some d)) = if '@' ∈ t then hostOf t else d.toList := by
  have hsip : '@' ∉ "sip:".toList := by decide
  unfold normalForm
  split_ifs with hscheme hat hcolon hat hat
  · rfl
  · rw [hostOf_append hat, hostOf_atDomain]
  · exact hostOf_append hsip
  · exact absurd ((h.resolve_left hscheme).mpr hcolon) hat
  · exact absurd ((h.resolve_left hscheme).mp hat) hcolon
  · rw [List.append_assoc, hostOf_append hsip, hostOf_append hat, hostOf_atDomain]

/-- For a target with at most one `@`, and a domain that is not blank and has none, the normalised
target is well formed if and only if the target has a SIP scheme, or has both an `@` and a `:` or
neither. -/
theorem well_formed_iff (hat : raw.toList.count '@' ≤ 1)
    (hdomain : trim domain ≠ "") (hd : '@' ∉ domain.toList) :
    WellFormed raw domain (normalizeCallTargetUri raw (some domain)) ↔
      hasScheme (trim raw).toList = true ∨ ('@' ∈ raw.toList ↔ ':' ∈ raw.toList) := by
  have hd' : '@' ∉ (trim domain).toList := fun h ↦ hd ((mem_trim (by decide) domain).mp h)
  have hcount := count_at_normalForm (t := (trim raw).toList) hd'
  have htrim : (trim raw).toList.count '@' = raw.toList.count '@' := by
    rw [toList_trim raw, count_strip (by decide)]
  have hmem : '@' ∈ (trim raw).toList ↔ 0 < raw.toList.count '@' := by
    rw [← htrim, List.count_pos_iff]
  rw [htrim] at hcount
  rw [← mem_trim (by decide) raw, ← mem_trim (by decide) raw]
  constructor
  · intro h
    have hone := h.oneAt
    rw [toList_normalizeCallTargetUri, dialDomain_some hdomain, hcount] at hone
    by_cases hscheme : hasScheme (trim raw).toList = true
    · exact Or.inl hscheme
    · rw [if_neg hscheme] at hone
      refine Or.inr ?_
      by_cases hcolon : ':' ∈ (trim raw).toList
      · rw [if_pos hcolon, Nat.add_zero] at hone
        exact iff_of_true (hmem.mpr (by omega)) hcolon
      · rw [if_neg hcolon] at hone
        exact iff_of_false (fun h ↦ by have := hmem.mp h; omega) hcolon
  · intro h
    refine wellFormed_normalize hdomain ?_ (hostOf_normalForm h)
    rw [hcount]
    by_cases hat' : '@' ∈ (trim raw).toList
    · have hone := hmem.mp hat'
      split_ifs with hscheme hcolon
      · omega
      · omega
      · exact absurd ((h.resolve_left hscheme).mp hat') hcolon
    · have hzero := mt hmem.mpr hat'
      split_ifs with hscheme hcolon
      · omega
      · exact absurd ((h.resolve_left hscheme).mpr hcolon) hat'
      · omega

/-- A target with a scheme and without a host, as an instance. -/
theorem well_formed_iff_sip :
    WellFormed "sip:127" "pbx" (normalizeCallTargetUri "sip:127" (some "pbx")) :=
  (well_formed_iff (by decide) (by decide) (by decide)).mpr (Or.inl (by decide))

/-- A bare address gets a second host, and a `tel:` target gets none. -/
theorem targets_not_well_formed :
    normalizeCallTargetUri "bob@example.org" (some "pbx") = "sip:bob@example.org@pbx" ∧
      ¬ WellFormed "bob@example.org" "pbx"
        (normalizeCallTargetUri "bob@example.org" (some "pbx")) ∧
      ¬ WellFormed "tel:127" "pbx" (normalizeCallTargetUri "tel:127" (some "pbx")) := by
  refine ⟨by decide, fun h ↦ ?_, fun h ↦ ?_⟩
  · have hone := h.oneAt
    revert hone
    decide
  · have hone := h.oneAt
    revert hone
    decide

end Shape

section Schemes

/-- A number, with `sip:` and with `tel:` is dialled to the same target. -/
def SchemeIndependent (u domain : String) : Prop :=
  normalizeCallTargetUri u (some domain) = normalizeCallTargetUri ("sip:" ++ u) (some domain) ∧
    normalizeCallTargetUri u (some domain) = normalizeCallTargetUri ("tel:" ++ u) (some domain)

variable {u domain : String}

/-- A user after a scheme is trimmed. -/
theorem clean_schemeUser (hwhite : ∀ c ∈ u.toList, isWhitespace c = false) {scheme : List Char}
    (hscheme : ∀ c ∈ scheme, isWhitespace c = false) :
    Clean isWhitespace (scheme ++ u.toList) := by
  apply clean_of_forall
  intro c hc
  rcases List.mem_append.mp hc with hc | hc
  · exact hscheme c hc
  · exact hwhite c hc

/-- For no user and no domain are the number and the number with `tel:` dialled to the same target:
`tel:` keeps its prefix and gets no domain. -/
theorem not_schemeIndependent (hcolon : ':' ∉ u.toList) (hat : '@' ∉ u.toList)
    (hwhite : ∀ c ∈ u.toList, isWhitespace c = false) (hdomain : trim domain ≠ "") :
    ¬ SchemeIndependent u domain := by
  rintro ⟨-, htel⟩
  have hclean : Clean isWhitespace ("tel:" ++ u).toList := by
    rw [String.toList_append]
    exact clean_schemeUser hwhite (unspaced_of_any rfl)
  rw [← String.toList_inj, toList_normalizeCallTargetUri, toList_normalizeCallTargetUri,
    trim_eq_self (clean_of_forall hwhite), trim_eq_self hclean, String.toList_append,
    dialDomain_some hdomain] at htel
  have hmem : '@' ∈ normalForm u.toList (some (trim domain)) :=
    at_mem_normalForm.mpr (Or.inr ⟨Option.some_ne_none _, Or.inr hcolon⟩)
  rw [htel, at_mem_normalForm] at hmem
  have hnot : hasScheme ("tel:".toList ++ u.toList) = false := rfl
  rcases hmem with hmem | ⟨-, hscheme | hmem⟩
  · rcases List.mem_append.mp hmem with h | h
    · revert h
      decide
    · exact hat h
  · rw [hnot] at hscheme
    cases hscheme
  · exact hmem (List.mem_append_left _ (by decide))

/-- The number of the integration guide, as an instance. -/
theorem not_schemeIndependent_guide : ¬ SchemeIndependent "127" "pbx" :=
  not_schemeIndependent (by decide) (by decide) (unspaced_of_any rfl) (by decide)

/-- The number of the integration guide: `tel:127` is not dialled as `127` is. -/
theorem guide_targets_differ :
    normalizeCallTargetUri "127" (some "pbx") = "sip:127@pbx" ∧
      normalizeCallTargetUri "sip:127" (some "pbx") = "sip:127@pbx" ∧
      normalizeCallTargetUri "tel:127" (some "pbx") = "sip:tel:127" ∧
      ¬ SchemeIndependent "127" "pbx" := by
  unfold SchemeIndependent
  decide

end Schemes

end PacketDial.Dialling
