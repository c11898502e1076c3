import Mathlib.Data.List.Chain
import PacketDial.Masking.Noninterference

/-!
# Masking twice

A masked line is a line that masking leaves as it is: a header keeps its name and the constant
behind it, a masked URI is cut at the same places again, and the scan finds the same URIs.
-/

namespace PacketDial.Masking

open PacketDial.Core PacketDial.Lib
open String (utf8Len)

/-- Each carriage return is part of a line ending, and of one only. -/
structure PlainBreaks (s : List Char) : Prop where
  followed : s.IsChain fun c d ↦ c = '\r' → d = '\n'
  last : s.getLast? ≠ some '\r'

/-- Masking of a text for its URIs, each of them found where it starts. -/
inductive Scanned : List Char → List Char → Prop where
  | done {s : List Char} (hnone : beforeSip s = none) : Scanned s s
  | cut {before uriStart out : List Char} (hpre : beforeSip (before ++ uriStart) = some before)
      (hlen : utf8Len before = utf8Len (toLowercase before))
      (hrest : Scanned (afterUri uriStart) out) :
      Scanned (before ++ uriStart) (before ++ (maskUri (uriOf uriStart) ++ out))

/-! ### URIs -/

/-- A password is what lies between the first colon and the first at sign behind it. -/
theorem maskBody_password (scheme host : List Char) {user password : List Char}
    (huser : ∀ c ∈ user, c ≠ ':' ∧ c ≠ '@') (hpassword : '@' ∉ password) :
    maskBody scheme (user ++ ':' :: (password ++ '@' :: host)) =
      scheme ++ (user ++ ':' :: ("***".toList ++ '@' :: host)) := by
  have hinfo : ∀ c ∈ user ++ ':' :: password, (!(c == '@')) = true := by
    intro c hc
    have hne : c ≠ '@' := by
      obtain hm | rfl | hm := (List.mem_append.mp hc).imp_right List.mem_cons.mp
      · exact (huser c hm).2
      · decide
      · exact fun h ↦ hpassword (h ▸ hm)
    simpa using hne
  have hname : ∀ c ∈ user, (!(c == ':')) = true := fun c hc ↦ by
    simpa using (huser c hc).1
  have hbody : user ++ ':' :: (password ++ '@' :: host) =
      (user ++ ':' :: password) ++ '@' :: host := by
    rw [List.append_assoc, List.cons_append]
  have htake : (user ++ ':' :: (password ++ '@' :: host)).takeWhile (fun c ↦ !(c == '@')) =
      user ++ ':' :: password := by
    rw [hbody, List.takeWhile_append_of_pos hinfo]
    simp
  have hdrop : (user ++ ':' :: (password ++ '@' :: host)).dropWhile (fun c ↦ !(c == '@')) =
      '@' :: host := by
    rw [hbody, List.dropWhile_append_of_pos hinfo]
    simp
  have hcut : (user ++ ':' :: password).takeWhile (fun c ↦ !(c == ':')) = user := by
    rw [List.takeWhile_append_of_pos hname]
    simp
  have hat : (user ++ ':' :: (password ++ '@' :: host)).any (· == '@') = true := by simp
  have hcolon : (user ++ ':' :: password).any (· == ':') = true := by simp
  simp only [maskBody, htake, hdrop, hcut, hat, hcolon, Bool.and_self, if_true]
  simp

/-- The body of a URI is left as it is, or has a password. -/
theorem maskBody_cases (scheme body : List Char) :
    maskBody scheme body = scheme ++ body ∨
      ∃ user password host, body = user ++ ':' :: (password ++ '@' :: host) ∧
        (∀ c ∈ user, c ≠ ':' ∧ c ≠ '@') ∧ '@' ∉ password := by
  by_cases hat : '@' ∈ body
  · obtain ⟨userinfo, host, rfl, hinfo⟩ := List.eq_append_cons_of_mem hat
    by_cases hcolon : ':' ∈ userinfo
    · obtain ⟨user, password, rfl, huser⟩ := List.eq_append_cons_of_mem hcolon
      refine .inr ⟨user, password, host, by simp, fun c hc ↦ ⟨?_, ?_⟩, ?_⟩
      · exact fun h ↦ huser (h ▸ hc)
      · exact fun h ↦ hinfo (h ▸ List.mem_append_left _ hc)
      · exact fun h ↦ hinfo (List.mem_append_right _ (List.mem_cons_of_mem _ h))
    · refine .inl ?_
      have hall : ∀ c ∈ userinfo, (!(c == '@')) = true := by
        intro c hc
        have hne : c ≠ '@' := fun h ↦ hinfo (h ▸ hc)
        simpa using hne
      have htake : (userinfo ++ '@' :: host).takeWhile (fun c ↦ !(c == '@')) = userinfo := by
        rw [List.takeWhile_append_of_pos hall]
        simp
      have hany : userinfo.any (· == ':') = false := by
        rw [List.any_eq_false]
        intro c hc heq
        exact hcolon (beq_iff_eq.mp heq ▸ hc)
      simp only [maskBody, htake, hany, Bool.and_false, Bool.false_eq_true, if_false]
  · refine .inl ?_
    have hany : body.any (· == '@') = false := by
      rw [List.any_eq_false]
      intro c hc heq
      exact hat (beq_iff_eq.mp heq ▸ hc)
    simp only [maskBody, hany, Bool.false_and, Bool.false_eq_true, if_false]

/-- Behind a scheme of four characters the body starts. -/
theorem maskUri_sip {scheme : List Char} (body : List Char) (hlen : scheme.length = 4)
    (hsip : startsFolded "sip:".toList scheme = true) :
    maskUri (scheme ++ body) = maskBody scheme body := by
  have hlong : startsFolded "sip:".toList (scheme ++ body) = true := by
    rw [startsFolded_append body (length_of_startsFolded hsip), hsip]
  have hscheme : schemeLength (scheme ++ body) = some 4 := by
    rw [schemeLength, if_pos hlong]
  simp only [maskUri, hscheme, ← hlen, List.take_left, List.drop_left]

/-- A masked URI has the same scheme, no characters but its own and those of the mask, and is left
as it is. -/
theorem maskUri_masked {scheme : List Char} (body : List Char) (hlen : scheme.length = 4)
    (hsip : startsFolded "sip:".toList scheme = true) :
    ∃ body', maskUri (scheme ++ body) = scheme ++ body' ∧
      maskUri (scheme ++ body') = scheme ++ body' ∧
      ∀ c ∈ body', c ∈ body ∨ c = ':' ∨ c = '*' := by
  rw [maskUri_sip body hlen hsip]
  obtain hsame | ⟨user, password, host, rfl, huser, hpassword⟩ := maskBody_cases scheme body
  · exact ⟨body, hsame, by rw [maskUri_sip body hlen hsip, hsame], fun c hc ↦ .inl hc⟩
  · refine ⟨_, maskBody_password scheme host huser hpassword, ?_, ?_⟩
    · rw [maskUri_sip _ hlen hsip]
      exact maskBody_password scheme host huser (by decide)
    · intro c hc
      simp only [List.mem_append, List.mem_cons] at hc ⊢
      obtain hc | hc | hc | hc := hc
      · exact .inl (.inl hc)
      · exact .inr (.inl hc)
      · exact .inr (.inr (by simpa using hc))
      · exact .inl (.inr (.inr (.inr hc)))

/-! ### The scan -/

/-- What lies more than the pattern behind a first match does not matter to it. -/
theorem beforeFirst_prefix {pat before found : List Char} (x : List Char)
    (hlen : pat.length ≤ found.length)
    (h : beforeFirst (startsFolded pat) (before ++ (found ++ x)) = some before) :
    beforeFirst (startsFolded pat) (before ++ found) = some before := by
  induction before with
  | nil =>
    obtain ⟨post, hpost, hmatch⟩ := beforeFirst_eq_some h
    rw [List.nil_append, List.nil_append] at hpost
    rw [← hpost, startsFolded_append x hlen] at hmatch
    rw [List.nil_append]
    cases found <;> simp only [beforeFirst, hmatch, if_true]
  | cons c before ih =>
    rw [List.cons_append, beforeFirst] at h
    split at h
    · cases h
    · next hno =>
      obtain ⟨pre, hpre, heq⟩ := Option.map_eq_some_iff.mp h
      obtain rfl : pre = before := (List.cons.inj heq).2
      have hshort : ¬startsFolded pat (c :: (pre ++ found)) = true := by
        have hle : pat.length ≤ (c :: (pre ++ found)).length := by
          rw [List.length_cons, List.length_append]
          omega
        rw [← startsFolded_append x hle, List.cons_append, List.append_assoc]
        exact hno
      rw [List.cons_append, beforeFirst, if_neg hshort, ih hpre]
      rfl

/-- A match, split off. -/
theorem exists_of_startsFolded {pat s : List Char} (h : startsFolded pat s = true) :
    ∃ found rest, s = found ++ rest ∧ found.length = pat.length ∧ startsFolded pat found = true ∧
      ∀ c ∈ found, ∃ p ∈ pat, lowerChar c = [p] := by
  induction pat generalizing s with
  | nil => exact ⟨[], s, rfl, rfl, rfl, fun c hc ↦ nomatch hc⟩
  | cons p pat ih =>
    cases s with
    | nil => cases h
    | cons c s =>
      obtain ⟨hc, hs⟩ := Bool.and_eq_true_iff.mp h
      obtain ⟨found, rest, rfl, hlen, hfound, hmem⟩ := ih hs
      refine ⟨c :: found, rest, rfl, congrArg (· + 1) hlen, Bool.and_eq_true_iff.mpr ⟨hc, hfound⟩,
        ?_⟩
      rw [List.forall_mem_cons]
      refine ⟨⟨p, List.mem_cons_self, beq_iff_eq.mp hc⟩, fun x hx ↦ ?_⟩
      obtain ⟨q, hq, hx⟩ := hmem x hx
      exact ⟨q, List.mem_cons_of_mem p hq, hx⟩

/-- A text in which a URI is found, split at its scheme. -/
theorem uri_of_beforeSip {before uriStart : List Char}
    (h : beforeSip (before ++ uriStart) = some before) :
    ∃ scheme body, uriOf uriStart = scheme ++ body ∧ scheme.length = 4 ∧
      startsFolded "sip:".toList scheme = true ∧ beforeSip (before ++ scheme) = some before := by
  obtain ⟨post, hpost, hmatch⟩ := beforeFirst_eq_some h
  obtain rfl := List.append_cancel_left hpost
  obtain ⟨scheme, rest, rfl, hlen, hscheme, hmem⟩ := exists_of_startsFolded hmatch
  have hopen : afterUri scheme = [] := afterUri_eq_nil_iff.mpr fun c hc ↦ by
    obtain ⟨p, hp, heq⟩ := hmem c hc
    exact endsUri_of_lowerChar hp heq
  exact ⟨scheme, uriOf rest, (uri_append_of_open rest hopen).1, hlen, hscheme,
    beforeFirst_prefix rest (Nat.le_of_eq hlen.symm) h⟩

/-- A scan is a run of the code. -/
theorem Scanned.run {s out : List Char} (h : Scanned s out) : maskSipUriPasswords s = .ok out := by
  induction h with
  | done hnone => exact maskSipUriPasswords_done hnone
  | cut hpre hlen _ ih =>
    rw [maskSipUriPasswords_cut hpre hlen, ih, ← List.append_assoc]
    rfl

/-- A text of characters that keep their length when lowered is scanned. -/
theorem scanned_of_steady {s : List Char} (h : ∀ c ∈ s, utf8Len (lowerChar c) = c.utf8Size) :
    ∃ out, Scanned s out := by
  induction hn : s.length using Nat.strong_induction_on generalizing s with
  | _ n ih =>
    cases hpre : beforeSip s with
    | none => exact ⟨s, .done hpre⟩
    | some pre =>
      obtain ⟨post, rfl, -⟩ := beforeFirst_eq_some hpre
      have hlen : utf8Len pre = utf8Len (toLowercase pre) :=
        (utf8Len_toLowercase fun c hc ↦ h c (List.mem_append_left post hc)).symm
      have hshort := afterUri_shorter hpre hlen
      have hsub : ∀ c ∈ afterUri post, utf8Len (lowerChar c) = c.utf8Size := fun c hc ↦
        h c (List.mem_append_right pre ((List.dropWhile_suffix _).mem hc))
      obtain ⟨out, hout⟩ := ih _ (by omega) hsub rfl
      exact ⟨_, .cut hpre hlen hout⟩

/-- What a scan makes of a text that starts with the end of a URI starts with it too. -/
theorem Scanned.starts {s out : List Char} (h : Scanned s out)
    (hs : ∀ c ∈ s.head?, endsUri c = true) : ∀ c ∈ out.head?, endsUri c = true := by
  cases h with
  | done _ => exact hs
  | @cut before uriStart out hpre _ _ =>
    cases before with
    | cons c before => exact hs
    | nil =>
      obtain ⟨post, hpost, hmatch⟩ := beforeFirst_eq_some hpre
      obtain rfl := List.append_cancel_left hpost
      cases uriStart with
      | nil => cases hmatch
      | cons c uriStart =>
        have hends := hs c rfl
        rw [endsUri_of_startsSip hmatch] at hends
        cases hends

/-- A scanned text is scanned again, and stays as it is. -/
theorem Scanned.again {s out : List Char} (h : Scanned s out) : Scanned out out := by
  induction h with
  | done hnone => exact .done hnone
  | @cut before uriStart out hpre hlen hrest ih =>
    obtain ⟨scheme, body, huri, hfour, hsip, hfound⟩ := uri_of_beforeSip hpre
    obtain ⟨body', hmasked, hagain, hchars⟩ := maskUri_masked body hfour hsip
    rw [huri, hmasked]
    have hopen : afterUri (scheme ++ body') = [] := by
      rw [afterUri_eq_nil_iff]
      have hends : ∀ c ∈ scheme ++ body, endsUri c = false := by
        intro c hc
        rw [← huri] at hc
        simpa using List.mem_takeWhile_imp hc
      intro c hc
      obtain hc | hc := List.mem_append.mp hc
      · exact hends c (List.mem_append_left _ hc)
      · obtain hc | rfl | rfl := hchars c hc
        · exact hends c (List.mem_append_right _ hc)
        · decide
        · decide
    have hstart : ∀ c ∈ out.head?, endsUri c = true := hrest.starts fun c hc ↦ by
      have hdrop := List.head?_dropWhile_not (fun c ↦ !endsUri c) uriStart
      rw [← afterUri, Option.mem_def.mp hc] at hdrop
      simpa using hdrop
    have hout : uriOf out = [] ∧ afterUri out = out := by
      cases out with
      | nil => exact ⟨rfl, rfl⟩
      | cons c out => simp [uriOf, afterUri, hstart c rfl]
    obtain ⟨huri', hafter⟩ := uri_append_of_open out hopen
    rw [hout.1, List.append_nil] at huri'
    rw [hout.2] at hafter
    have hpre' : beforeSip (before ++ (scheme ++ body' ++ out)) = some before := by
      rw [List.append_assoc, ← List.append_assoc]
      exact beforeFirst_append _ hfound
    have hcut : Scanned (before ++ (scheme ++ body' ++ out))
        (before ++ (maskUri (uriOf (scheme ++ body' ++ out)) ++ out)) :=
      .cut hpre' hlen (by rw [hafter]; exact ih)
    rwa [huri', hagain] at hcut

/-- A scan puts no characters into a text but those of the mask. -/
theorem Scanned.chars {s out : List Char} (h : Scanned s out) :
    ∀ c ∈ out, c ∈ s ∨ c = ':' ∨ c = '*' := by
  induction h with
  | done _ => exact fun c hc ↦ .inl hc
  | @cut before uriStart out hpre _ _ ih =>
    obtain ⟨scheme, body, huri, hfour, hsip, -⟩ := uri_of_beforeSip hpre
    obtain ⟨body', hmasked, -, hchars⟩ := maskUri_masked body hfour hsip
    have hsub : ∀ c ∈ scheme ++ body, c ∈ before ++ uriStart := by
      intro c hc
      rw [← huri] at hc
      exact List.mem_append_right _ ((List.takeWhile_prefix _).mem hc)
    rw [huri, hmasked]
    intro c hc
    simp only [List.mem_append] at hc
    obtain hc | (hc | hc) | hc := hc
    · exact .inl (List.mem_append_left _ hc)
    · exact .inl (hsub c (List.mem_append_left _ hc))
    · exact (hchars c hc).imp_left fun hc ↦ hsub c (List.mem_append_right _ hc)
    · exact (ih c hc).imp_left fun hc ↦
        List.mem_append_right _ ((List.dropWhile_suffix _).mem hc)

/-- A pattern without an `s` matches in front of a URI or not at all. -/
theorem startsFolded_scheme {pat scheme : List Char} (before rest : List Char) (hpat : 's' ∉ pat)
    (hsip : startsFolded "sip:".toList scheme = true) :
    startsFolded pat (before ++ (scheme ++ rest)) = startsFolded pat before := by
  cases scheme with
  | nil => cases hsip
  | cons c scheme =>
    have hc : lowerChar c = ['s'] := beq_iff_eq.mp (Bool.and_eq_true_iff.mp hsip).1
    refine startsFolded_barrier before (scheme ++ rest) fun p hp ↦ ?_
    rw [hc, beq_eq_false_iff_ne]
    intro heq
    rw [← List.singleton_inj.mp heq] at hp
    exact hpat hp

/-- A scan neither makes a line a header nor keeps it from being one. -/
theorem Scanned.isAuthorization {s out : List Char} (h : Scanned s out) :
    isAuthorization out = isAuthorization s := by
  cases h with
  | done _ => rfl
  | @cut before uriStart out hpre _ _ =>
    obtain ⟨scheme, body, huri, hfour, hsip, -⟩ := uri_of_beforeSip hpre
    obtain ⟨body', hmasked, -, -⟩ := maskUri_masked body hfour hsip
    have hstart : uriStart = scheme ++ (body ++ afterUri uriStart) := by
      rw [← List.append_assoc, ← huri]
      exact List.takeWhile_append_dropWhile.symm
    rw [huri, hmasked, hstart, List.append_assoc]
    have hauth : 's' ∉ "authorization:".toList := by decide
    have hproxy : 's' ∉ "proxy-authorization:".toList := by decide
    simp only [Masking.isAuthorization, startsFolded_scheme _ _ hauth hsip,
      startsFolded_scheme _ _ hproxy hsip]

/-! ### Lines -/

/-- A masked line is free of line ends, and is left as it is. -/
structure Settled (line : List Char) : Prop where
  again : maskLine line = .ok line
  newline : '\n' ∉ line
  carriage : '\r' ∉ line

/-- Masking settles a line. -/
theorem maskLine_settles {line : List Char} (hascii : ∀ c ∈ line, c.toNat < 0x80)
    (hnewline : '\n' ∉ line) (hcarriage : '\r' ∉ line) :
    ∃ out, maskLine line = .ok out ∧ Settled out := by
  by_cases hauth : isAuthorization line = true
  · by_cases hcolon : ':' ∈ line
    · obtain ⟨name, value, rfl, hname⟩ := List.eq_append_cons_of_mem hcolon
      have hout : isAuthorization (name ++ ':' :: " ***MASKED***".toList) = true := by
        rw [isAuthorization_colon] at hauth ⊢
        exact hauth
      refine ⟨_, maskLine_header value hname hauth, ⟨maskLine_header _ hname hout, ?_, ?_⟩⟩
      · rw [List.mem_append]
        rintro (h | h)
        · exact hnewline (List.mem_append_left _ h)
        · exact absurd h (by decide)
      · rw [List.mem_append]
        rintro (h | h)
        · exact hcarriage (List.mem_append_left _ h)
        · exact absurd h (by decide)
    · have hsame : maskLine line = .ok line := by
        have hfind : findChar (· == ':') line = none :=
          findChar_eq_none_iff.mpr fun c hc ↦ beq_eq_false_iff_ne.mpr fun h ↦ hcolon (h ▸ hc)
        rw [maskLine_eq, if_pos hauth, hfind]
      exact ⟨line, hsame, ⟨hsame, hnewline, hcarriage⟩⟩
  · rw [Bool.not_eq_true] at hauth
    by_cases hscan : isScanned line = true
    · obtain ⟨out, hout⟩ := scanned_of_steady fun c hc ↦ utf8Len_lowerChar (hascii c hc)
      have hrun : maskLine line = .ok out := by
        rw [maskLine_eq, if_neg (by rw [hauth]; decide), if_pos hscan, hout.run]
      have hagain : maskLine out = .ok out := by
        rw [maskLine_eq, if_neg (by rw [hout.isAuthorization, hauth]; decide), hout.again.run,
          ite_self]
      refine ⟨out, hrun, ⟨hagain, fun h ↦ ?_, fun h ↦ ?_⟩⟩
      · obtain h | h | h := hout.chars _ h
        · exact hnewline h
        · exact absurd h (by decide)
        · exact absurd h (by decide)
      · obtain h | h | h := hout.chars _ h
        · exact hcarriage h
        · exact absurd h (by decide)
        · exact absurd h (by decide)
    · have hsame : maskLine line = .ok line := by
        rw [maskLine_eq, if_neg (by rw [hauth]; decide), if_neg hscan]
      exact ⟨line, hsame, ⟨hsame, hnewline, hcarriage⟩⟩

/-! ### Messages -/

/-- Mapping over a list, where each result has some property. -/
theorem exists_mapM {ε α : Type} {f : α → Except ε α} {p : α → Prop} {xs : List α}
    (h : ∀ x ∈ xs, ∃ y, f x = .ok y ∧ p y) : ∃ ys, xs.mapM f = .ok ys ∧ ∀ y ∈ ys, p y := by
  induction xs with
  | nil => exact ⟨[], rfl, fun y hy ↦ nomatch hy⟩
  | cons x xs ih =>
    rw [List.forall_mem_cons] at h
    obtain ⟨⟨y, hy, hp⟩, hxs⟩ := h
    obtain ⟨ys, hys, hps⟩ := ih hxs
    exact ⟨y :: ys, by rw [List.mapM_cons, hy, hys]; rfl, List.forall_mem_cons.mpr ⟨hp, hps⟩⟩

/-- Mapping over a list leaves it as it is where it leaves each element so. -/
theorem mapM_eq_self {ε α : Type} {f : α → Except ε α} {xs : List α} (h : ∀ x ∈ xs, f x = .ok x) :
    xs.mapM f = .ok xs := by
  induction xs with
  | nil => rfl
  | cons x xs ih =>
    rw [List.forall_mem_cons] at h
    rw [List.mapM_cons, h.1, ih h.2]
    rfl

/-- Nothing is put into a line by chomping it. -/
theorem chomp_sublist (line : List Char) : (chomp line).Sublist line := by
  unfold chomp
  split
  · exact List.dropLast_sublist line
  · exact List.Sublist.refl line

/-- A line without a carriage return is not chomped. -/
theorem chomp_of_not_mem {line : List Char} (h : '\r' ∉ line) : chomp line = line := by
  rw [chomp, if_neg]
  exact fun hlast ↦ h (List.mem_of_getLast? hlast)

/-- Of a line that is not broken itself only the end can be a carriage return. -/
theorem not_mem_chomp {line : List Char} (hnewline : '\n' ∉ line)
    (hfollowed : line.IsChain fun c d ↦ c = '\r' → d = '\n') : '\r' ∉ chomp line := by
  obtain rfl | ⟨front, last, rfl⟩ := List.eq_nil_or_concat' line
  · exact List.not_mem_nil
  · have hfront : '\r' ∉ front := by
      intro h
      obtain ⟨a, b, rfl⟩ := List.append_of_mem h
      obtain ⟨d, rest, hrest⟩ := List.exists_cons_of_ne_nil (List.append_ne_nil_of_right_ne_nil b
        (List.cons_ne_nil last []))
      rw [List.append_assoc, List.cons_append, hrest] at hfollowed hnewline
      have hd : d = '\n' := (List.isChain_append_cons_cons.mp hfollowed).2.1 rfl
      rw [hd] at hnewline
      exact hnewline (by simp)
    rw [chomp, List.getLast?_concat]
    split
    · rw [List.dropLast_concat]
      exact hfront
    · next hne =>
      rw [List.mem_append, List.mem_singleton]
      rintro (h | h)
      · exact hfront h
      · exact hne (by rw [h])

/-- Masking a masked message changes nothing, for ASCII messages in which each carriage return is
part of a line ending of its own. -/
theorem maskSipLog_idempotent {input : List Char} (hascii : ∀ c ∈ input, c.toNat < 0x80)
    (hbreaks : PlainBreaks input) :
    ∃ out, maskSipLog input = .ok out ∧ maskSipLog out = .ok out := by
  obtain ⟨rows, tail, rfl, hrows, htail⟩ := exists_rows input
  have hsettles : ∀ line ∈ rows.map chomp, ∃ out, maskLine line = .ok out ∧ Settled out := by
    intro line hline
    obtain ⟨row, hrow, rfl⟩ := List.mem_map.mp hline
    have hwithin : row <:+: rows.flatMap (· ++ ['\n']) ++ tail := by
      obtain ⟨front, back, rfl⟩ := List.append_of_mem hrow
      refine ⟨front.flatMap (· ++ ['\n']), '\n' :: (back.flatMap (· ++ ['\n']) ++ tail), ?_⟩
      simp
    have hsub : ∀ c ∈ chomp row, c ∈ row := fun c hc ↦ (chomp_sublist row).mem hc
    have hfollowed := List.IsChain.infix hbreaks.followed hwithin
    exact maskLine_settles (fun c hc ↦ hascii c (hwithin.mem (hsub c hc)))
      (fun h ↦ hrows row hrow (hsub _ h)) (not_mem_chomp (hrows row hrow) hfollowed)
  have hlastSettles : ∃ last, maskLine tail = .ok last ∧ Settled last := by
    have hsuffix : tail <:+ rows.flatMap (· ++ ['\n']) ++ tail := List.suffix_append _ _
    have hfollowed := List.IsChain.infix hbreaks.followed hsuffix.isInfix
    have hcarriage := not_mem_chomp htail hfollowed
    have hend : tail.getLast? ≠ some '\r' := by
      intro h
      refine hbreaks.last ?_
      rw [List.getLast?_append, h]
      rfl
    rw [chomp, if_neg hend] at hcarriage
    exact maskLine_settles (fun c hc ↦ hascii c (hsuffix.mem hc)) htail hcarriage
  obtain ⟨masked, hmasked, hsettled⟩ := exists_mapM hsettles
  obtain ⟨last, hlast, hsettledLast⟩ := hlastSettles
  refine ⟨masked.flatMap (· ++ ['\n']) ++ last, ?_, ?_⟩
  · rw [maskSipLog_rows hrows htail, hmasked, hlast]
    rfl
  · have hchomp : masked.map chomp = masked := by
      have hsame : ∀ row ∈ masked, chomp row = id row := fun row hrow ↦
        chomp_of_not_mem (hsettled row hrow).carriage
      rw [List.map_congr_left hsame, List.map_id]
    rw [maskSipLog_rows (fun row hrow ↦ (hsettled row hrow).newline) hsettledLast.newline, hchomp,
      mapM_eq_self fun row hrow ↦ (hsettled row hrow).again, hsettledLast.again]
    rfl

/-- A message with both line endings, a header and a URI in a URI. -/
def register : List Char :=
  ("REGISTER sip:pbx SIP/2.0\r\nProxy-Authorization: Digest username=\"100\"\n" ++
    "Contact: <sip:100:secret@pbx;to=sip:a:b@c>\r\n").toList

theorem maskSipLog_idempotent_register :
    ∃ out, maskSipLog register = .ok out ∧ maskSipLog out = .ok out := by
  have hregister : register.all (fun c ↦ c.toNat < 0x80) = true ∧
      register.IsChain (fun c d ↦ c = '\r' → d = '\n') ∧ register.getLast? ≠ some '\r' := by
    unfold register
    rw [String.toList_append, String.toList_ofList, String.toList_ofList]
    decide +kernel
  obtain ⟨hascii, hfollowed, hlast⟩ := hregister
  exact maskSipLog_idempotent (List.all_iff_forall_prop.mp hascii) ⟨hfollowed, hlast⟩

end PacketDial.Masking
