import PacketDial.Masking.Covered

/-!
# Which passwords the scan gives away

Where a line is not covered, two passwords that differ in their letters alone give two
results: the scan copies the first letter of one of the places.
-/

namespace PacketDial.Masking

open PacketDial.Core PacketDial.Lib
open String (utf8Len)

/-- Two letters to tell passwords apart by. -/
def letter (b : Bool) : Char := if b then 'a' else 'b'

/-- A letter is part of no scheme, ends no URI and takes one byte. -/
theorem letter_plain (b : Bool) :
    endsUri (letter b) = false ∧ letter b ≠ '@' ∧ letter b ≠ ':' ∧
      (∀ p ∈ "sip:".toList, (lowerChar (letter b) == [p]) = false) ∧
      ∀ p ∈ "sips:".toList, (lowerChar (letter b) == [p]) = false := by
  refine ⟨?_, ?_, ?_, List.all_iff_forall_prop.mp ?_, List.all_iff_forall_prop.mp ?_⟩ <;>
    cases b <;> decide +kernel

/-- The password that repeats a letter. -/
def spelled (b : Bool) (n : Nat) : Password where
  text := List.replicate n (letter b)
  plain c hc := by
    rw [List.eq_of_mem_replicate hc]
    exact ⟨(letter_plain b).1, (letter_plain b).2.1⟩

/-- The passwords with one put in front. -/
def withFirst (p : Password) (σ : Nat → Password) : Nat → Password
  | 0 => p
  | n + 1 => σ n

/-- Passwords without letters. -/
def blank : Nat → Password := fun _ ↦ spelled true 0

/-- No text has two letters in one place. -/
theorem no_clash (out front : List Char)
    (h : ∀ b, ∃ tail, out = front ++ letter b :: tail) : False := by
  obtain ⟨x, hx⟩ := h true
  obtain ⟨y, hy⟩ := h false
  have heq : letter true :: x = letter false :: y := List.append_cancel_left (hx.symm.trans hy)
  exact absurd (List.cons.inj heq).1 (by decide)

/-- Every character is lowered to a byte at least. -/
theorem length_le_lowered (s : List Char) : s.length ≤ utf8Len (toLowercase s) := by
  induction s with
  | nil => exact Nat.zero_le _
  | cons c s ih =>
    have hc := lowerChar_pos c
    rw [toLowercase_cons, String.utf8Len_append, List.length_cons]
    omega

/-- A scan that returns has copied a text that ends at its first cut. -/
theorem cut_of_ok {s pre out : List Char} (hpre : beforeSip s = some pre)
    (h : maskSipUriPasswords s = .ok out) :
    ∃ before uriStart tail, s = before ++ uriStart ∧
      utf8Len before = utf8Len (toLowercase pre) ∧ out = before ++ tail := by
  by_cases hcut : ∃ a b, s = a ++ b ∧ utf8Len a = utf8Len (toLowercase pre)
  · obtain ⟨before, uriStart, rfl, hlen⟩ := hcut
    rw [maskSipUriPasswords_cut hpre hlen] at h
    cases hr : maskSipUriPasswords (afterUri uriStart) with
    | error e =>
      rw [hr] at h
      cases h
    | ok rest =>
      rw [hr] at h
      have hout : before ++ maskUri (uriOf uriStart) ++ rest = out := Except.ok.inj h
      exact ⟨before, uriStart, _, rfl, hlen, by rw [← hout, List.append_assoc]⟩
  · rw [maskSipUriPasswords, maskRemaining_panic s.length hpre hcut] at h
    cases h

/-- A cut behind a text is behind the character that follows it, or inside it. -/
theorem copied_of_cut {t before uriStart z : List Char} {c : Char}
    (hs : t ++ c :: z = before ++ uriStart) (hno : ¬ before <+: t) :
    ∃ tail, before = t ++ c :: tail := by
  rcases List.append_eq_append_iff.mp hs with ⟨mid, hb, hc⟩ | ⟨mid, ht, -⟩
  · cases mid with
    | nil =>
      have hpre : before <+: t := ⟨[], by rw [hb, List.append_nil, List.append_nil]⟩
      exact absurd hpre hno
    | cons d mid =>
      have hd : c = d := (List.cons.inj hc).1
      exact ⟨mid, by rw [hb, hd]⟩
  · exact absurd ⟨mid, ht.symm⟩ hno

/-- A run of letters behind a text without `sip:` adds none. -/
theorem beforeSip_letters {t : List Char} (b : Bool) (n : Nat) (h : beforeSip t = none) :
    beforeSip (t ++ List.replicate n (letter b)) = none := by
  induction n with
  | zero => rwa [List.replicate_zero, List.append_nil]
  | succ n ih =>
    have hstep := beforeFirst_barrier [] (by decide) (letter_plain b).2.2.2.1 ih
    rw [List.replicate_succ', ← List.append_assoc]
    rw [beforeSip, hstep]
    rfl

/-- Without a `sip:` in front of a place, its password is copied if it is long enough. -/
theorem exposed_of_no_sip {t out : List Char} {rest : Form} (hpre : beforeSip t = none)
    (h : ∀ σ, maskSipUriPasswords ((Form.hole t rest).fill σ) = .ok out) : False := by
  apply no_clash out t
  intro b
  have hok := h (withFirst (spelled b (utf8Len t + 1)) blank)
  have hfill : (Form.hole t rest).fill (withFirst (spelled b (utf8Len t + 1)) blank) =
      t ++ letter b :: (List.replicate (utf8Len t) (letter b) ++ rest.fill blank) := by
    simp only [Form.fill, withFirst, spelled, List.replicate_succ, List.append_assoc,
      List.cons_append]
  have hfill' : (Form.hole t rest).fill (withFirst (spelled b (utf8Len t + 1)) blank) =
      t ++ List.replicate (utf8Len t) (letter b) ++ letter b :: rest.fill blank := by
    simp only [Form.fill, withFirst, spelled, List.replicate_succ', List.append_assoc,
      List.cons_append, List.nil_append]
  cases hs : beforeSip ((Form.hole t rest).fill (withFirst (spelled b (utf8Len t + 1)) blank)) with
  | none =>
    rw [maskSipUriPasswords_done hs, hfill] at hok
    exact ⟨_, (Except.ok.inj hok).symm⟩
  | some pre =>
    obtain ⟨before, uriStart, tail, hsplit, hlen, hout⟩ := cut_of_ok hs hok
    have hno : ¬ before <+: t := by
      rintro ⟨mid, rfl⟩
      -- The first `sip:` is behind the letters, each of which is lowered to a byte.
      have hbar := beforeFirst_barrier (rest.fill blank) (by decide) (letter_plain b).2.2.2.1
        (beforeSip_letters b (utf8Len (before ++ mid)) hpre)
      rw [beforeSip, hfill', hbar] at hs
      obtain ⟨pre', -, rfl⟩ := Option.map_eq_some_iff.mp hs
      have hge := length_le_lowered
        (before ++ mid ++ List.replicate (utf8Len (before ++ mid)) (letter b) ++
          letter b :: pre')
      simp only [List.length_append, List.length_replicate, List.length_cons,
        String.utf8Len_append] at hge hlen
      omega
    obtain ⟨mid, hmid⟩ := copied_of_cut (hfill.symm.trans hsplit) hno
    rw [hout, hmid, List.append_assoc]
    exact ⟨mid ++ tail, rfl⟩

/-- Where the first cut is not inside the text in front of a place, the password is copied. -/
theorem exposed_of_late_cut {t pre out : List Char} {rest : Form} (hpre : beforeSip t = some pre)
    (hcut : ¬ ∃ a b, t = a ++ b ∧ utf8Len a = utf8Len (toLowercase pre))
    (h : ∀ σ, maskSipUriPasswords ((Form.hole t rest).fill σ) = .ok out) : False := by
  apply no_clash out t
  intro b
  have hok := h (withFirst (spelled b 1) blank)
  have hfill : (Form.hole t rest).fill (withFirst (spelled b 1) blank) =
      t ++ letter b :: rest.fill blank := by
    simp [Form.fill, withFirst, spelled]
  rw [hfill] at hok
  have hs : beforeSip (t ++ letter b :: rest.fill blank) = some pre :=
    beforeFirst_append _ hpre
  obtain ⟨before, uriStart, tail, hsplit, hlen, hout⟩ := cut_of_ok hs hok
  have hno : ¬ before <+: t := by
    rintro ⟨mid, ht⟩
    exact hcut ⟨before, mid, ht.symm, hlen⟩
  obtain ⟨mid, hmid⟩ := copied_of_cut hsplit hno
  rw [hout, hmid, List.append_assoc]
  exact ⟨mid ++ tail, rfl⟩

/-! ### Places in a URI -/

/-- A letter behind a text neither makes nor breaks a scheme at its front. -/
theorem schemeLength_letter (u z : List Char) (b : Bool) :
    schemeLength (u ++ letter b :: z) = schemeLength u := by
  have hsip := startsFolded_barrier u z (letter_plain b).2.2.2.1
  have hsips := startsFolded_barrier u z (letter_plain b).2.2.2.2
  unfold schemeLength
  rw [hsip, hsips]

/-- A place that is not masked because of what is in front of it is copied. -/
theorem maskBody_exposes (scheme : List Char) {body : List Char}
    (h : isUserinfo body = false) :
    ∃ front, ∀ b z, z.head? = some '@' →
      ∃ tail, maskBody scheme (body ++ letter b :: z) = front ++ letter b :: tail := by
  by_cases hat : '@' ∈ body
  · obtain ⟨pre, post, rfl, hpre⟩ := List.eq_append_cons_of_mem hat
    have hall : ∀ c ∈ pre, (!(c == '@')) = true := by
      intro c hc
      have hne : c ≠ '@' := fun h ↦ hpre (h ▸ hc)
      simpa using hne
    have htake : ∀ w, (pre ++ '@' :: w).takeWhile (fun c ↦ !(c == '@')) = pre := by
      intro w
      rw [List.takeWhile_append_of_pos hall]
      simp
    have hdrop : ∀ w, (pre ++ '@' :: w).dropWhile (fun c ↦ !(c == '@')) = '@' :: w := by
      intro w
      rw [List.dropWhile_append_of_pos hall]
      simp
    by_cases hcolon : pre.any (· == ':') = true
    · refine ⟨scheme ++ pre.takeWhile (fun c ↦ !(c == ':')) ++ ":***".toList ++ '@' :: post, ?_⟩
      intro b z _
      have hany : (pre ++ '@' :: (post ++ letter b :: z)).any (· == '@') = true := by simp
      rw [List.append_assoc, List.cons_append]
      simp only [maskBody, htake, hdrop, hany, hcolon, Bool.and_self, if_true]
      exact ⟨z, by simp only [List.append_assoc, List.cons_append]⟩
    · refine ⟨scheme ++ (pre ++ '@' :: post), ?_⟩
      intro b z _
      have hnone : pre.any (· == ':') = false := eq_false_of_ne_true hcolon
      rw [List.append_assoc, List.cons_append]
      simp only [maskBody, htake, hnone, Bool.and_false, Bool.false_eq_true, if_false]
      exact ⟨z, by simp only [List.append_assoc, List.cons_append]⟩
  · have hnil : body = [] := by
      by_contra hne
      have hcontains : body.contains '@' = true := by simpa [isUserinfo, hne] using h
      exact hat (List.contains_iff_mem.mp hcontains)
    refine ⟨scheme, ?_⟩
    intro b z hz
    obtain ⟨w, rfl⟩ : ∃ w, z = '@' :: w := by
      cases z with
      | nil => cases hz
      | cons c w => exact ⟨w, by rw [Option.some.inj hz]⟩
    have hletter : (!(letter b == '@')) = true := by
      have hne := (letter_plain b).2.1
      simpa using hne
    have htake : (letter b :: '@' :: w).takeWhile (fun c ↦ !(c == '@')) = [letter b] := by
      simp [hletter]
    have hnone : [letter b].any (· == ':') = false := by
      have hne := (letter_plain b).2.2.1
      simpa using hne
    rw [hnil, List.nil_append]
    simp only [maskBody, htake, hnone, Bool.and_false, Bool.false_eq_true, if_false]
    exact ⟨_, rfl⟩

/-- A place that a URI does not reach is copied with the URI. -/
theorem maskUri_exposes {u : List Char} (h : reaches u = false) :
    ∃ front, ∀ b z, z.head? = some '@' →
      ∃ tail, maskUri (u ++ letter b :: z) = front ++ letter b :: tail := by
  unfold reaches at h
  unfold maskUri
  cases hn : schemeLength u with
  | none =>
    refine ⟨u, ?_⟩
    intro b z _
    rw [schemeLength_letter, hn]
    exact ⟨z, rfl⟩
  | some n =>
    have hinfo : isUserinfo (u.drop n) = false := by
      rw [hn] at h
      exact h
    obtain ⟨front, hfront⟩ := maskBody_exposes (u.take n) hinfo
    refine ⟨front, ?_⟩
    intro b z hz
    have hle := schemeLength_le hn
    rw [schemeLength_letter, hn]
    simp only [List.take_append_of_le_length hle, List.drop_append_of_le_length hle]
    exact hfront b z hz

/-- A place in a URI that does not reach it gives its password away. -/
theorem exposed_in_uri {before u pre out : List Char} {rest : Form}
    (hpre : beforeSip (before ++ u) = some pre)
    (hlen : utf8Len before = utf8Len (toLowercase pre)) (hends : afterUri u = [])
    (hreaches : reaches u = false) (hat : rest.head.head? = some '@')
    (h : ∀ σ, maskSipUriPasswords ((Form.hole (before ++ u) rest).fill σ) = .ok out) :
    False := by
  obtain ⟨front, hfront⟩ := maskUri_exposes hreaches
  apply no_clash out (before ++ front)
  intro b
  have hok := h (withFirst (spelled b 1) blank)
  obtain ⟨huri, -⟩ := uri_at_place rest (withFirst (spelled b 1) blank) hends
  have hhead := head?_uriOf (Form.head?_fill hat blank)
  obtain ⟨tail, htail⟩ := hfront b _ hhead
  rw [scan_hole _ hpre hlen, huri] at hok
  have hspell : u ++ (withFirst (spelled b 1) blank 0).text ++
      uriOf (rest.fill fun n ↦ withFirst (spelled b 1) blank (n + 1)) =
        u ++ letter b :: uriOf (rest.fill blank) := by
    simp [withFirst, spelled]
  rw [hspell, htail] at hok
  cases hr : maskSipUriPasswords (afterUri
      (u ++ ((withFirst (spelled b 1) blank 0).text ++
        rest.fill fun n ↦ withFirst (spelled b 1) blank (n + 1)))) with
  | error e =>
    rw [hr] at hok
    cases hok
  | ok more =>
    rw [hr] at hok
    have hout := Except.ok.inj hok
    exact ⟨tail ++ more, by rw [← hout]; simp only [List.append_assoc, List.cons_append]⟩

/-- A second place in one URI gives its password away. -/
theorem exposed_in_host {before u pre out : List Char} {rest : Form}
    (hpre : beforeSip (before ++ u) = some pre)
    (hlen : utf8Len before = utf8Len (toLowercase pre)) (hends : afterUri u = [])
    (hreaches : reaches u = true) (hcolon : (before ++ u).getLast? = some ':')
    (hat : rest.head.head? = some '@') (hafter : rest.afterUri = none)
    (h : ∀ σ, maskSipUriPasswords ((Form.hole (before ++ u) rest).fill σ) = .ok out) :
    False := by
  cases rest with
  | text t => cases hafter
  | hole t rest =>
    have hopen : afterUri t = [] := by
      simp only [Form.afterUri] at hafter
      split at hafter
      · assumption
      · cases hafter
    apply no_clash out (before ++ maskedUser u ++ t)
    intro b
    have hok := h (withFirst (spelled true 0) (withFirst (spelled b 1) blank))
    rw [scan_mask _ hpre hlen hends hreaches hcolon hat] at hok
    obtain ⟨huri, -⟩ := uri_at_place rest (withFirst (spelled b 1) blank) hopen
    have hfill : ((Form.hole t rest).fill fun n ↦
        withFirst (spelled true 0) (withFirst (spelled b 1) blank) (n + 1)) =
          t ++ ((withFirst (spelled b 1) blank 0).text ++
            rest.fill fun n ↦ withFirst (spelled b 1) blank (n + 1)) := by
      simp only [Form.fill, withFirst, List.append_assoc]
    rw [hfill, huri] at hok
    cases hr : maskSipUriPasswords (afterUri
        (t ++ ((withFirst (spelled b 1) blank 0).text ++
          rest.fill fun n ↦ withFirst (spelled b 1) blank (n + 1)))) with
    | error e =>
      rw [hr] at hok
      cases hok
    | ok more =>
      rw [hr] at hok
      have hout := Except.ok.inj hok
      refine ⟨uriOf (rest.fill blank) ++ more, ?_⟩
      rw [← hout]
      simp [withFirst, spelled]

/-- A form whose scan leads to that of another is blind only if that one is. -/
theorem blind_of_scan_back {f f' : Form} (front : List Char)
    (lift : (Nat → Password) → Nat → Password)
    (hscan : ∀ τ, maskSipUriPasswords (f.fill (lift τ)) =
      (maskSipUriPasswords (f'.fill τ)).map (front ++ ·))
    (h : f.Blind) : f'.Blind := by
  obtain ⟨out, hout⟩ := h
  refine ⟨out.drop front.length, ?_⟩
  intro τ
  have hτ := hscan τ
  rw [hout] at hτ
  cases hr : maskSipUriPasswords (f'.fill τ) with
  | error e =>
    rw [hr] at hτ
    cases hτ
  | ok o =>
    rw [hr] at hτ
    have ho : out = front ++ o := Except.ok.inj hτ
    rw [ho, List.drop_left]

/-- The end of a form is no longer than the form. -/
theorem Form.length_afterUri {f f' : Form} (h : f.afterUri = some f') :
    f'.fixed.length ≤ f.fixed.length := by
  cases f with
  | text t =>
    cases h
    exact (List.dropWhile_suffix _).length_le
  | hole t rest =>
    simp only [Form.afterUri] at h
    split at h
    · cases h
    · cases h
      have hle := (List.dropWhile_suffix (fun c ↦ !endsUri c) (l := t)).length_le
      simp only [Form.fixed, List.length_append, Masking.afterUri]
      omega

/-- A blind form is covered. -/
theorem covered_of_blind {f : Form} (hplaced : f.Placed) (h : f.Blind) : Covered f := by
  induction hn : f.fixed.length using Nat.strong_induction_on generalizing f with
  | _ n ih =>
    obtain ⟨out, hout⟩ := h
    cases hplaced with
    | text t => exact .text ((maskSipUriPasswords_ok_iff t).mp ⟨out, hout blank⟩)
    | @hole t rest hcolon hat hrest =>
      cases hpre : beforeSip t with
      | none => exact (exposed_of_no_sip hpre hout).elim
      | some pre =>
        by_cases hcut : ∃ a b, t = a ++ b ∧ utf8Len a = utf8Len (toLowercase pre)
        · obtain ⟨before, u, rfl, hlen⟩ := hcut
          by_cases hends : afterUri u = []
          · cases hreaches : reaches u with
            | false => exact (exposed_in_uri hpre hlen hends hreaches hat hout).elim
            | true =>
              cases hafter : rest.afterUri with
              | none =>
                exact (exposed_in_host hpre hlen hends hreaches hcolon hat hafter hout).elim
              | some rest' =>
                have hshort := Form.length_afterUri hafter
                have hlong : 0 < (before ++ u).length := by
                  cases hbu : before ++ u with
                  | nil =>
                    rw [hbu] at hcolon
                    cases hcolon
                  | cons c w => exact Nat.succ_pos _
                have hlt : rest'.fixed.length < n := by
                  rw [← hn]
                  simp only [Form.fixed, List.length_append] at hlong ⊢
                  omega
                have hblind : rest'.Blind := by
                  apply blind_of_scan_back (before ++ (maskedUser u ++ uriOf rest.head))
                    (withFirst (spelled true 0)) _ ⟨out, hout⟩
                  intro τ
                  obtain ⟨huri, hend⟩ := Form.uri_fill hafter τ
                  have hscan := scan_mask (withFirst (spelled true 0) τ) hpre hlen hends hreaches
                    hcolon hat
                  rw [hscan]
                  simp only [withFirst, huri, hend]
                exact .mask hpre hlen hends hreaches hafter
                  (ih _ hlt (hrest.afterUri hafter) hblind rfl)
          · have hshort := afterUri_shorter hpre hlen
            have hlt : (Form.hole (afterUri u) rest).fixed.length < n := by
              rw [← hn]
              simp only [Form.fixed, List.length_append] at hshort ⊢
              omega
            have hsuffix : afterUri u <:+ before ++ u :=
              (List.dropWhile_suffix _).trans (List.suffix_append before u)
            have hlast := getLast?_of_suffix hsuffix hends
            have hblind : (Form.hole (afterUri u) rest).Blind := by
              apply blind_of_scan_back (before ++ maskUri (uriOf u)) id _ ⟨out, hout⟩
              exact fun τ ↦ scan_skip τ hpre hlen hends
            exact .skip hpre hlen hends
              (ih _ hlt (.hole (hlast.trans hcolon) hat hrest) hblind rfl)
        · exact (exposed_of_late_cut hpre hcut hout).elim

/-- The scan gives one text for all passwords exactly when it covers the form. -/
theorem blind_iff_covered {f : Form} (hplaced : f.Placed) : f.Blind ↔ Covered f :=
  ⟨covered_of_blind hplaced, blind_of_covered hplaced⟩

end PacketDial.Masking
