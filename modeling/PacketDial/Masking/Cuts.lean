import Mathlib.Data.Bool.AllAny
import Mathlib.Data.List.TakeWhile
import PacketDial.Masking.Folding

/-!
# The cuts of the masking code

Each slice of `mask_sip_log`, `mask_sip_uri_passwords` and `mask_single_uri` is a cut at a byte
offset. All but one use an offset found in the text they cut. The scan for `sip:` uses an
offset found in the lowered text, where a character may be shorter or longer; `Cuts` says when
each such offset still lies between two characters.
-/

namespace PacketDial.Masking

open PacketDial.Core PacketDial.Lib
open String (utf8Len)

/-- The text in front of the first `sip:`, in either letter case. -/
def beforeSip (s : List Char) : Option (List Char) :=
  beforeFirst (startsFolded "sip:".toList) s

/-- The text up to the end of the URI it starts in. -/
def uriOf (s : List Char) : List Char := s.takeWhile fun c ↦ !endsUri c

/-- The text from the end of the URI it starts in. -/
def afterUri (s : List Char) : List Char := s.dropWhile fun c ↦ !endsUri c

/-- A scan of the text for URIs cuts between two characters each time: some part in front of
the cut is as long as the lowered text in front of the `sip:` found. -/
inductive Cuts : List Char → Prop where
  | done {s : List Char} (hnone : beforeSip s = none) : Cuts s
  | cut {before uriStart pre : List Char} (hpre : beforeSip (before ++ uriStart) = some pre)
      (hlen : utf8Len before = utf8Len (toLowercase pre)) (hrest : Cuts (afterUri uriStart)) :
      Cuts (before ++ uriStart)

/-- The line is an `Authorization` or `Proxy-Authorization` header, as the code tells. -/
def isAuthorization (line : List Char) : Bool :=
  startsFolded "authorization:".toList line || startsFolded "proxy-authorization:".toList line

/-- The line is scanned for URIs. -/
def isScanned (line : List Char) : Bool :=
  !isAuthorization line && (beforeSip line).isSome && line.contains '@' && line.contains ':'

/-- Masking of a URI, cut by characters instead of bytes. -/
def maskBody (scheme body : List Char) : List Char :=
  let userinfo := body.takeWhile fun c ↦ !(c == '@')
  if body.any (· == '@') && userinfo.any (· == ':') then
    scheme ++ userinfo.takeWhile (fun c ↦ !(c == ':')) ++ ":***".toList ++
      body.dropWhile fun c ↦ !(c == '@')
  else scheme ++ body

/-- The length of the scheme that a URI starts with, if it is one that is masked. -/
def schemeLength (uri : List Char) : Option Nat :=
  if startsFolded "sip:".toList uri then some 4
  else if startsFolded "sips:".toList uri then some 5
  else none

/-- `mask_single_uri`, cut by characters instead of bytes. -/
def maskUri (uri : List Char) : List Char :=
  match schemeLength uri with
  | some n => maskBody (uri.take n) (uri.drop n)
  | none => uri

/-! ### Slices -/

/-- Cutting between two texts keeps the first. -/
theorem sliceTo_append (a b : List Char) : sliceTo (a ++ b) (utf8Len a) = .ok a := by
  simp only [sliceTo, splitAtByte_append]

/-- Cutting between two texts keeps the second. -/
theorem sliceFrom_append (a b : List Char) : sliceFrom (a ++ b) (utf8Len a) = .ok b := by
  simp only [sliceFrom, splitAtByte_append]

/-- Slices at the offset of a character found are cut there. -/
theorem slices_findChar {p : Char → Bool} {s : List Char} {n : Nat}
    (h : findChar p s = some n) :
    sliceTo s n = .ok (s.takeWhile fun c ↦ !p c) ∧
      sliceFrom s n = .ok (s.dropWhile fun c ↦ !p c) := by
  rw [findChar_eq] at h
  split at h
  · have hs : s = s.takeWhile (fun c ↦ !p c) ++ s.dropWhile fun c ↦ !p c :=
      (List.takeWhile_append_dropWhile).symm
    have hn : n = utf8Len (s.takeWhile fun c ↦ !p c) := (Option.some.inj h).symm
    have hto := sliceTo_append (s.takeWhile fun c ↦ !p c) (s.dropWhile fun c ↦ !p c)
    have hfrom := sliceFrom_append (s.takeWhile fun c ↦ !p c) (s.dropWhile fun c ↦ !p c)
    rw [← hs, ← hn] at hto hfrom
    exact ⟨hto, hfrom⟩
  · cases h

/-- A character is found exactly when there is one. -/
theorem findChar_isSome (p : Char → Bool) (s : List Char) :
    (findChar p s).isSome = s.any p := by
  rw [findChar_eq]
  by_cases h : s.any p <;> simp [h]

/-- A text that starts with an ASCII pattern is as long there as the pattern. -/
theorem utf8Len_take_of_startsFolded {pat s : List Char}
    (hascii : ∀ p ∈ pat, p.toNat < 0x80 ∧ p ≠ 'k') (h : startsFolded pat s = true) :
    utf8Len (s.take pat.length) = pat.length := by
  induction pat generalizing s with
  | nil => rfl
  | cons p pat ih =>
    cases s with
    | nil => cases h
    | cons c s =>
      simp only [startsFolded, Bool.and_eq_true, beq_iff_eq] at h
      obtain ⟨hp, hk⟩ := hascii p List.mem_cons_self
      have hc : c.utf8Size = 1 := utf8Size_of_ascii (ascii_of_lowerChar h.1 hp hk)
      have htail := ih (fun q hq ↦ hascii q (List.mem_cons_of_mem p hq)) h.2
      simp only [List.length_cons, List.take_succ_cons, String.utf8Len_cons, htail, hc]

/-- The slices in front of and after an ASCII pattern the text starts with. -/
theorem sliceFrom_of_startsFolded {pat s : List Char}
    (hascii : ∀ p ∈ pat, p.toNat < 0x80 ∧ p ≠ 'k') (h : startsFolded pat s = true) :
    sliceFrom s pat.length = .ok (s.drop pat.length) ∧
      sliceTo s (utf8Len s - utf8Len (s.drop pat.length)) = .ok (s.take pat.length) := by
  have hlen := utf8Len_take_of_startsFolded hascii h
  have hs : s = s.take pat.length ++ s.drop pat.length := (List.take_append_drop _ _).symm
  have hsum : utf8Len s = pat.length + utf8Len (s.drop pat.length) := by
    conv_lhs => rw [hs]
    rw [String.utf8Len_append, hlen]
  have hfrom := sliceFrom_append (s.take pat.length) (s.drop pat.length)
  have hto := sliceTo_append (s.take pat.length) (s.drop pat.length)
  rw [← hs, hlen] at hfrom hto
  have hsub : utf8Len s - utf8Len (s.drop pat.length) = pat.length := by omega
  rw [hsub]
  exact ⟨hfrom, hto⟩

/-! ### One URI -/

/-- After the scheme, masking cuts at characters it found. -/
theorem maskSingleUri_body {uri scheme body : List Char}
    (hto : sliceTo uri (utf8Len uri - utf8Len body) = .ok scheme) (huri : scheme ++ body = uri) :
    (do
      let scheme ← sliceTo uri (utf8Len uri - utf8Len body)
      match findChar (· == '@') body with
      | some atPos =>
        let userinfo ← sliceTo body atPos
        let hostinfo ← sliceFrom body atPos
        match findChar (· == ':') userinfo with
        | some colonPos =>
          let user ← sliceTo userinfo colonPos
          return scheme ++ user ++ ":***".toList ++ hostinfo
        | none => return uri
      | none => return uri) = Except.ok (maskBody scheme body) := by
  have hat := findChar_isSome (· == '@') body
  rw [hto]
  cases hf : findChar (· == '@') body with
  | none =>
    rw [hf] at hat
    have hany : (body.any (· == '@')) = false := hat.symm
    simp only [maskBody, hany, Bool.false_and, Bool.false_eq_true, if_false, huri]
    rfl
  | some atPos =>
    rw [hf] at hat
    have hany : (body.any (· == '@')) = true := hat.symm
    obtain ⟨hbody, hhost⟩ := slices_findChar hf
    have hcolon := findChar_isSome (· == ':') (body.takeWhile fun c ↦ !(c == '@'))
    simp only [maskBody, hany, Bool.true_and]
    rw [hbody, hhost]
    cases hu : findChar (· == ':') (body.takeWhile fun c ↦ !(c == '@')) with
    | none =>
      rw [hu] at hcolon
      rw [← hcolon, huri]
      simp [Except.bind, bind, hu, pure, Except.pure]
    | some colonPos =>
      rw [hu] at hcolon
      rw [← hcolon]
      simp [Except.bind, bind, hu, pure, Except.pure, (slices_findChar hu).1]

/-- Masking one URI never panics. -/
theorem maskSingleUri_eq (uri : List Char) : maskSingleUri uri = .ok (maskUri uri) := by
  unfold maskSingleUri maskUri schemeLength
  rw [isPrefixOf_toLowercase (by decide), isPrefixOf_toLowercase (by decide)]
  by_cases hsip : startsFolded "sip:".toList uri = true
  · obtain ⟨hfrom, hto⟩ := sliceFrom_of_startsFolded (List.all_iff_forall_prop.mp (by decide)) hsip
    have hbody := maskSingleUri_body hto (List.take_append_drop _ _)
    rw [if_pos hsip, if_pos hsip]
    rw [show sliceFrom uri 4 = _ from hfrom]
    exact hbody
  · by_cases hsips : startsFolded "sips:".toList uri = true
    · obtain ⟨hfrom, hto⟩ :=
        sliceFrom_of_startsFolded (List.all_iff_forall_prop.mp (by decide)) hsips
      have hbody := maskSingleUri_body hto (List.take_append_drop _ _)
      rw [if_neg hsip, if_neg hsip, if_pos hsips, if_pos hsips]
      rw [show sliceFrom uri 5 = _ from hfrom]
      exact hbody
    · rw [if_neg hsip, if_neg hsip, if_neg hsips, if_neg hsips]
      rfl

/-! ### The scan -/

/-- The offset the scan cuts at is the length of the lowered text in front of a `sip:`. -/
theorem findStr_sip (s : List Char) :
    findStr "sip:".toList (toLowercase s) =
      (beforeSip s).map fun pre ↦ utf8Len (toLowercase pre) :=
  findStr_toLowercase (by decide) (by decide) s

/-- The end of a URI is found in the text it starts in. -/
theorem slices_uriEnd (s : List Char) :
    sliceTo s ((findChar endsUri s).getD (utf8Len s)) = .ok (uriOf s) ∧
      sliceFrom s ((findChar endsUri s).getD (utf8Len s)) = .ok (afterUri s) := by
  cases hf : findChar endsUri s with
  | some n => exact slices_findChar hf
  | none =>
    have hall : ∀ c ∈ s, (!endsUri c) = true := fun c hc ↦ by
      rw [findChar_eq_none_iff.mp hf c hc]
      rfl
    have huri : uriOf s = s := List.takeWhile_eq_self_iff.mpr hall
    have hafter : afterUri s = [] := List.dropWhile_eq_nil_iff.mpr hall
    rw [huri, hafter]
    have hto := sliceTo_append s []
    have hfrom := sliceFrom_append s []
    rw [List.append_nil] at hto hfrom
    exact ⟨hto, hfrom⟩

/-- A text without `sip:` is left as it is. -/
theorem maskRemaining_done {s : List Char} (fuel : Nat) (h : beforeSip s = none) :
    maskRemaining (fuel + 1) s = .ok s := by
  unfold maskRemaining
  rw [findStr_sip, h]
  rfl

/-- A cut between two characters: the URI behind it is masked and the scan goes on after. -/
theorem maskRemaining_cut {before uriStart pre : List Char} (fuel : Nat)
    (hpre : beforeSip (before ++ uriStart) = some pre)
    (hlen : utf8Len before = utf8Len (toLowercase pre)) :
    maskRemaining (fuel + 1) (before ++ uriStart) =
      (maskRemaining fuel (afterUri uriStart)).map fun out ↦
        before ++ maskUri (uriOf uriStart) ++ out := by
  have hto := sliceTo_append before uriStart
  have hfrom := sliceFrom_append before uriStart
  obtain ⟨huri, hafter⟩ := slices_uriEnd uriStart
  rw [maskRemaining, findStr_sip, hpre]
  simp only [Option.map_some, ← hlen, hto, hfrom]
  change (do
    let uri ← sliceTo uriStart ((findChar endsUri uriStart).getD (utf8Len uriStart))
    let masked ← maskSingleUri uri
    let rest ← sliceFrom uriStart ((findChar endsUri uriStart).getD (utf8Len uriStart))
    let out ← maskRemaining fuel rest
    return before ++ masked ++ out) = _
  rw [huri, hafter]
  change (do
    let masked ← maskSingleUri (uriOf uriStart)
    let out ← maskRemaining fuel (afterUri uriStart)
    return before ++ masked ++ out) = _
  rw [maskSingleUri_eq]
  cases maskRemaining fuel (afterUri uriStart) <;> rfl

/-- A slice that ends nowhere between two characters panics. -/
theorem sliceTo_panic {s : List Char} {n : Nat}
    (hno : ¬ ∃ before uriStart, s = before ++ uriStart ∧ utf8Len before = n) :
    sliceTo s n = .error .panic := by
  unfold sliceTo
  split
  · next a b hs => exact absurd ⟨a, b, splitAtByte_eq_some_iff.mp hs⟩ hno
  · rfl

/-- A first cut that lies nowhere between two characters panics. -/
theorem maskRemaining_panic {s pre : List Char} (fuel : Nat) (hpre : beforeSip s = some pre)
    (hno : ¬ ∃ before uriStart, s = before ++ uriStart ∧
      utf8Len before = utf8Len (toLowercase pre)) :
    maskRemaining (fuel + 1) s = .error .panic := by
  rw [maskRemaining, findStr_sip, hpre]
  simp only [Option.map_some, sliceTo_panic hno]
  rfl

/-- A character that lowers to one of `sip:` ends no URI. -/
theorem endsUri_of_lowerChar {c p : Char} (hp : p ∈ "sip:".toList) (h : lowerChar c = [p]) :
    endsUri c = false := by
  have hplain : ∀ p ∈ "sip:".toList, p.toNat < 0x80 ∧ p ≠ 'k' :=
    List.all_iff_forall_prop.mp (by decide +kernel)
  have hascii : c.toNat < 0x80 := ascii_of_lowerChar h (hplain p hp).1 (hplain p hp).2
  have hall : ∀ n < 0x80, (Char.ofNat n).toLower ∈ "sip:".toList →
      endsUri (Char.ofNat n) = false := by
    decide +kernel
  have hc := hall c.toNat hascii
  rw [Char.ofNat_toNat] at hc
  rw [lowerChar_ascii hascii, List.singleton_inj] at h
  rw [h] at hc
  exact hc hp

/-- The first character of `sip:` ends no URI. -/
theorem endsUri_of_startsSip {c : Char} {s : List Char}
    (h : startsFolded "sip:".toList (c :: s) = true) : endsUri c = false := by
  have hc : lowerChar c = ['s'] := by
    have hand := (Bool.and_eq_true_iff.mp h).1
    exact beq_iff_eq.mp hand
  exact endsUri_of_lowerChar (by decide) hc

/-- Lowering leaves no character out. -/
theorem lowerChar_pos (c : Char) : 0 < utf8Len (lowerChar c) := by
  rcases lowerChar_cases c with hc | ⟨x, hc⟩
  · rw [hc]
    decide
  · rw [hc]
    simpa using x.utf8Size_pos

/-- The scan goes on with a shorter text. -/
theorem afterUri_shorter {before uriStart pre : List Char}
    (hpre : beforeSip (before ++ uriStart) = some pre)
    (hlen : utf8Len before = utf8Len (toLowercase pre)) :
    (afterUri uriStart).length < (before ++ uriStart).length := by
  have hle : (afterUri uriStart).length ≤ uriStart.length :=
    (List.dropWhile_suffix _).length_le
  rw [List.length_append]
  cases before with
  | cons c before =>
    rw [List.length_cons]
    omega
  | nil =>
    obtain ⟨post, hs, hpost⟩ := beforeFirst_eq_some hpre
    have hnil : pre = [] := by
      cases pre with
      | nil => rfl
      | cons x pre =>
        have hx := lowerChar_pos x
        rw [toLowercase_cons, String.utf8Len_append] at hlen
        simp only [String.utf8Len_nil] at hlen
        omega
    rw [hnil, List.nil_append, List.nil_append] at hs
    rw [← hs] at hpost
    cases uriStart with
    | nil => cases hpost
    | cons c uriStart =>
      have hc : (!endsUri c) = true := by rw [endsUri_of_startsSip hpost]; rfl
      have hdrop : afterUri (c :: uriStart) = afterUri uriStart :=
        List.dropWhile_cons_of_pos hc
      have htail : (afterUri uriStart).length ≤ uriStart.length :=
        (List.dropWhile_suffix _).length_le
      rw [hdrop, List.length_nil, List.length_cons]
      omega

/-- The fuel of the scan does not matter once it is enough. -/
theorem maskRemaining_fuel {fuel fuel' : Nat} {s : List Char} (h : s.length < fuel)
    (h' : s.length < fuel') : maskRemaining fuel s = maskRemaining fuel' s := by
  induction fuel generalizing s fuel' with
  | zero => omega
  | succ n ih =>
    cases fuel' with
    | zero => omega
    | succ n' =>
      cases hpre : beforeSip s with
      | none => rw [maskRemaining_done n hpre, maskRemaining_done n' hpre]
      | some pre =>
        by_cases hcut : ∃ a b, s = a ++ b ∧ utf8Len a = utf8Len (toLowercase pre)
        · obtain ⟨before, uriStart, rfl, hlen⟩ := hcut
          have hshort := afterUri_shorter hpre hlen
          have hrest : maskRemaining n (afterUri uriStart) =
              maskRemaining n' (afterUri uriStart) := ih (by omega) (by omega)
          rw [maskRemaining_cut n hpre hlen, maskRemaining_cut n' hpre hlen, hrest]
        · rw [maskRemaining_panic n hpre hcut, maskRemaining_panic n' hpre hcut]

/-- `mask_sip_uri_passwords` of a text without `sip:`. -/
theorem maskSipUriPasswords_done {s : List Char} (h : beforeSip s = none) :
    maskSipUriPasswords s = .ok s := maskRemaining_done s.length h

/-- `mask_sip_uri_passwords` of a text with a first cut between two characters. -/
theorem maskSipUriPasswords_cut {before uriStart pre : List Char}
    (hpre : beforeSip (before ++ uriStart) = some pre)
    (hlen : utf8Len before = utf8Len (toLowercase pre)) :
    maskSipUriPasswords (before ++ uriStart) =
      (maskSipUriPasswords (afterUri uriStart)).map fun out ↦
        before ++ maskUri (uriOf uriStart) ++ out := by
  have hshort := afterUri_shorter hpre hlen
  unfold maskSipUriPasswords
  rw [maskRemaining_cut _ hpre hlen,
    maskRemaining_fuel hshort (Nat.lt_succ_self (afterUri uriStart).length)]

/-- A computation that maps the result of another returns when that one does. -/
theorem returns_map {ε α β : Type} (f : α → β) (x : Except ε α) :
    (∃ out, x.map f = .ok out) ↔ ∃ out, x = .ok out := by
  cases x with
  | error e => simp [Except.map]
  | ok a => simp [Except.map]

/-- The scan returns exactly when each of its cuts lies between two characters. -/
theorem maskSipUriPasswords_ok_iff (s : List Char) :
    (∃ out, maskSipUriPasswords s = .ok out) ↔ Cuts s := by
  constructor
  · intro h
    induction hn : s.length using Nat.strong_induction_on generalizing s with
    | _ n ih =>
      cases hpre : beforeSip s with
      | none => exact .done hpre
      | some pre =>
        by_cases hcut : ∃ a b, s = a ++ b ∧ utf8Len a = utf8Len (toLowercase pre)
        · obtain ⟨before, uriStart, rfl, hlen⟩ := hcut
          have hshort := afterUri_shorter hpre hlen
          rw [maskSipUriPasswords_cut hpre hlen, returns_map] at h
          exact .cut hpre hlen (ih _ (by omega) _ h rfl)
        · obtain ⟨out, hout⟩ := h
          rw [maskSipUriPasswords, maskRemaining_panic s.length hpre hcut] at hout
          cases hout
  · intro h
    induction h with
    | done hnone => exact ⟨_, maskSipUriPasswords_done hnone⟩
    | cut hpre hlen _ ih =>
      rw [maskSipUriPasswords_cut hpre hlen, returns_map]
      exact ih

/-! ### Lines and messages -/

/-- What becomes of a line depends on what it is. -/
theorem maskLine_eq (line : List Char) :
    maskLine line =
      if isAuthorization line then
        match findChar (· == ':') line with
        | some colon => do
          let name ← sliceTo line (colon + 1)
          return name ++ " ***MASKED***".toList
        | none => .ok line
      else if isScanned line then maskSipUriPasswords line
      else .ok line := by
  have hsip : (findStr "sip:".toList (toLowercase line)).isSome = (beforeSip line).isSome := by
    rw [findStr_sip, Option.isSome_map]
  simp only [maskLine, isPrefixOf_toLowercase (show Undotted "authorization:".toList by decide),
    isPrefixOf_toLowercase (show Undotted "proxy-authorization:".toList by decide), hsip]
  change (if isAuthorization line = true then _ else _) = _
  by_cases hauth : isAuthorization line = true
  · exact (if_pos hauth).trans (if_pos hauth).symm
  · have hscan : isScanned line =
        ((beforeSip line).isSome && line.contains '@' && line.contains ':') := by
      simp [isScanned, hauth]
    rw [if_neg hauth, if_neg hauth, hscan]

/-- Of a header line with a colon, the name stays. -/
theorem maskLine_header {name : List Char} (value : List Char) (hname : ':' ∉ name)
    (hauth : isAuthorization (name ++ ':' :: value) = true) :
    maskLine (name ++ ':' :: value) = .ok (name ++ ": ***MASKED***".toList) := by
  have hfind : findChar (· == ':') (name ++ ':' :: value) = some (utf8Len name) :=
    findChar_append value (fun x hx ↦ beq_eq_false_iff_ne.mpr fun h ↦ hname (h ▸ hx)) rfl
  have hslice := sliceTo_append (name ++ [':']) value
  have hlen : utf8Len (name ++ [':']) = utf8Len name + 1 := by
    rw [String.utf8Len_append]
    rfl
  rw [hlen, List.append_assoc, List.singleton_append] at hslice
  rw [maskLine_eq, if_pos hauth, hfind]
  simp only [hslice]
  change Except.ok (name ++ [':'] ++ " ***MASKED***".toList) = _
  rw [List.append_assoc]
  rfl

/-- A line returns unless it is scanned and a cut of the scan panics. -/
theorem maskLine_ok_iff (line : List Char) :
    (∃ out, maskLine line = .ok out) ↔ (isScanned line = true → Cuts line) := by
  by_cases hauth : isAuthorization line = true
  · have hscan : isScanned line = false := by simp [isScanned, hauth]
    have hreturns : ∃ out, maskLine line = .ok out := by
      by_cases hcolon : ':' ∈ line
      · obtain ⟨name, value, hline, hname⟩ := List.eq_append_cons_of_mem hcolon
        rw [hline] at hauth ⊢
        exact ⟨_, maskLine_header value hname hauth⟩
      · have hfind : findChar (· == ':') line = none :=
          findChar_eq_none_iff.mpr fun c hc ↦ beq_eq_false_iff_ne.mpr fun h ↦ hcolon (h ▸ hc)
        rw [maskLine_eq, if_pos hauth, hfind]
        exact ⟨line, rfl⟩
    simp [hreturns, hscan]
  · rw [maskLine_eq, if_neg hauth]
    by_cases hscan : isScanned line = true
    · rw [if_pos hscan, maskSipUriPasswords_ok_iff]
      simp [hscan]
    · rw [if_neg hscan]
      simp [hscan]

/-- Mapping over a list returns when it does for each element. -/
theorem returns_mapM {ε α β : Type} (f : α → Except ε β) (xs : List α) :
    (∃ out, xs.mapM f = .ok out) ↔ ∀ x ∈ xs, ∃ y, f x = .ok y := by
  induction xs with
  | nil => simp [pure, Except.pure]
  | cons x xs ih =>
    rw [List.forall_mem_cons, ← ih, List.mapM_cons]
    cases f x with
    | error e => simp [bind, Except.bind]
    | ok y =>
      cases xs.mapM f with
      | error e => simp [bind, Except.bind]
      | ok ys => simp [bind, Except.bind, pure, Except.pure]

/-- Masking a message returns when it does for each line. -/
theorem maskSipLog_ok_iff (input : List Char) :
    (∃ out, maskSipLog input = .ok out) ↔
      ∀ line ∈ lines input, isScanned line = true → Cuts line := by
  have hmap : maskSipLog input =
      ((lines input).mapM maskLine).map fun masked ↦
        dropAddedNewline input (masked.flatMap (· ++ ['\n'])) := by
    unfold maskSipLog
    cases (lines input).mapM maskLine <;> rfl
  rw [hmap, returns_map, returns_mapM]
  simp only [maskLine_ok_iff]

/-- The three masking functions never run out of fuel, and they panic exactly when a scan for
`sip:` cuts inside a character or past the end: `mask_single_uri` never does,
`mask_sip_uri_passwords` and `mask_sip_log` do when a text they scan is not one that `Cuts`. -/
theorem masking_returns_iff (uri s input : List Char) :
    (∃ out, maskSingleUri uri = .ok out) ∧
    ((∃ out, maskSipUriPasswords s = .ok out) ↔ Cuts s) ∧
    ((∃ out, maskSipLog input = .ok out) ↔
      ∀ line ∈ lines input, isScanned line = true → Cuts line) :=
  ⟨⟨_, maskSingleUri_eq uri⟩, maskSipUriPasswords_ok_iff s, maskSipLog_ok_iff input⟩

/-- A request whose sender has the Kelvin sign for a name, right in front of the address. -/
def kelvinInvite : List Char :=
  "INVITE sip:bob@x SIP/2.0\r\nFrom: \u212A<sip:a@b>;tag=1\r\n\r\n".toList

/-- Masking panics on it: the `sip:` of the second line is at byte 10, but at byte 8 of the
lowered copy, which is inside the sign. -/
theorem kelvin_panics : ¬ ∀ input, ∃ out, maskSipLog input = .ok out := by
  intro h
  obtain ⟨out, hout⟩ := h kelvinInvite
  have hpanic : maskSipLog kelvinInvite = .error .panic := by
    unfold kelvinInvite
    rw [String.toList_ofList]
    decide +kernel
  rw [hpanic] at hout
  cases hout

/-- Characters that keep their length when lowered make a text that does. -/
theorem utf8Len_toLowercase {s : List Char} (h : ∀ c ∈ s, utf8Len (lowerChar c) = c.utf8Size) :
    utf8Len (toLowercase s) = utf8Len s := by
  induction s with
  | nil => rfl
  | cons c s ih =>
    have hc := h c List.mem_cons_self
    have hrest := ih fun x hx ↦ h x (List.mem_cons_of_mem c hx)
    rw [toLowercase_cons, String.utf8Len_append, String.utf8Len_cons, hc, hrest, Nat.add_comm]

/-- ASCII characters keep their length when lowered. -/
theorem utf8Len_lowerChar {c : Char} (h : c.toNat < 0x80) :
    utf8Len (lowerChar c) = c.utf8Size := by
  have hall : ∀ n < 0x80, utf8Len [(Char.ofNat n).toLower] = (Char.ofNat n).utf8Size := by
    decide +kernel
  have hc := hall c.toNat h
  rw [Char.ofNat_toNat] at hc
  rw [lowerChar_ascii h]
  exact hc

end PacketDial.Masking
