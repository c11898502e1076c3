import PacketDial.Masking.Forms

/-!
# Which passwords the scan masks

`Covered` follows the scan through a line with places for passwords. It looks at the fixed
texts alone: the cuts of a covered line do not depend on the passwords. A line is covered
exactly when the scan gives one result for all passwords.
-/

namespace PacketDial.Masking

open PacketDial.Core PacketDial.Lib
open String (utf8Len)

/-- The places stand between a colon and an at sign. -/
inductive Form.Placed : Form → Prop where
  | text (t : List Char) : Placed (.text t)
  | hole {t : List Char} {rest : Form} (hcolon : t.getLast? = some ':')
      (hat : rest.head.head? = some '@') (hrest : rest.Placed) : Placed (.hole t rest)

/-- The form from the end of the URI it starts in; none if a place comes first. -/
def Form.afterUri : Form → Option Form
  | .text t => some (.text (Masking.afterUri t))
  | .hole t rest =>
    if Masking.afterUri t = [] then none else some (.hole (Masking.afterUri t) rest)

/-- Past the scheme and in front of the place there is user information, with no at sign. -/
def isUserinfo (body : List Char) : Bool := !body.isEmpty && !body.contains '@'

/-- The place behind the text is the one that `mask_single_uri` masks. -/
def reaches (u : List Char) : Bool :=
  match schemeLength u with
  | some n => isUserinfo (u.drop n)
  | none => false

/-- The scan masks every place of the form and cuts between two characters each time: it may
pass a URI in front of the first place, or reach the place with the next one behind the end of
the URI. -/
inductive Covered : Form → Prop where
  | text {t : List Char} (h : Cuts t) : Covered (.text t)
  | skip {before u pre : List Char} {rest : Form} (hpre : beforeSip (before ++ u) = some pre)
      (hlen : utf8Len before = utf8Len (toLowercase pre)) (hends : afterUri u ≠ [])
      (hrest : Covered (.hole (afterUri u) rest)) : Covered (.hole (before ++ u) rest)
  | mask {before u pre : List Char} {rest rest' : Form}
      (hpre : beforeSip (before ++ u) = some pre)
      (hlen : utf8Len before = utf8Len (toLowercase pre)) (hends : afterUri u = [])
      (hreaches : reaches u = true) (hafter : rest.afterUri = some rest')
      (hrest : Covered rest') : Covered (.hole (before ++ u) rest)

/-- What is left in front of the place once it is masked. -/
def maskedUser (u : List Char) : List Char :=
  match schemeLength u with
  | some n => u.take n ++ (u.drop n).takeWhile (fun c ↦ !(c == ':')) ++ ":***".toList
  | none => u

/-- The scan gives the same text for all passwords. -/
def Form.Blind (f : Form) : Prop :=
  ∃ out, ∀ σ : Nat → Password, maskSipUriPasswords (f.fill σ) = .ok out

/-- A place for each URI is a place between a colon and an at sign. -/
theorem Form.OfUris.placed {f : Form} (h : f.OfUris) : f.Placed := by
  induction h with
  | text t => exact .text t
  | hole _ _ hat _ ih => exact .hole (List.getLast?_concat) hat ih

/-! ### URIs of a filled in text -/

/-- A text ends no URI when none of its characters does. -/
theorem afterUri_eq_nil_iff {u : List Char} : afterUri u = [] ↔ ∀ c ∈ u, endsUri c = false := by
  unfold afterUri
  rw [List.dropWhile_eq_nil_iff]
  simp

/-- A URI that ends in a text ends there whatever follows. -/
theorem uri_append_of_ends {u : List Char} (y : List Char) (h : afterUri u ≠ []) :
    uriOf (u ++ y) = uriOf u ∧ afterUri (u ++ y) = afterUri u ++ y := by
  induction u with
  | nil => exact absurd rfl h
  | cons c u ih =>
    by_cases hc : endsUri c = true
    · simp [uriOf, afterUri, hc]
    · have hf : endsUri c = false := by simpa using hc
      have htail : afterUri u ≠ [] := by
        simpa [afterUri, hf] using h
      simpa [uriOf, afterUri, hf] using ih htail

/-- A URI that a text does not end goes on in what follows. -/
theorem uri_append_of_open {u : List Char} (y : List Char) (h : afterUri u = []) :
    uriOf (u ++ y) = u ++ uriOf y ∧ afterUri (u ++ y) = afterUri y := by
  have hu := afterUri_eq_nil_iff.mp h
  induction u with
  | nil => exact ⟨rfl, rfl⟩
  | cons c u ih =>
    have hc := hu c List.mem_cons_self
    have htail : ∀ x ∈ u, endsUri x = false := fun x hx ↦ hu x (List.mem_cons_of_mem c hx)
    have hrest := ih (afterUri_eq_nil_iff.mpr htail) htail
    simpa [uriOf, afterUri, hc] using hrest

/-- A password ends no URI. -/
theorem Password.afterUri_eq_nil (p : Password) : afterUri p.text = [] :=
  afterUri_eq_nil_iff.mpr fun c hc ↦ (p.plain c hc).1

/-- The first character of a filled in form. -/
theorem Form.head?_fill {f : Form} {c : Char} (h : f.head.head? = some c) (σ : Nat → Password) :
    (f.fill σ).head? = some c := by
  cases f with
  | text t => exact h
  | hole t rest =>
    cases t with
    | nil => cases h
    | cons d t => exact h

/-- The URI that a form starts in, and what follows, if no place comes first. -/
theorem Form.uri_fill {f f' : Form} (h : f.afterUri = some f') (σ : Nat → Password) :
    uriOf (f.fill σ) = uriOf f.head ∧ Masking.afterUri (f.fill σ) = f'.fill σ := by
  cases f with
  | text t =>
    cases h
    exact ⟨rfl, rfl⟩
  | hole t rest =>
    simp only [Form.afterUri] at h
    split at h
    · cases h
    · next ht =>
      cases h
      simp only [Form.fill, List.append_assoc]
      exact uri_append_of_ends _ ht

/-! ### Masking at the place -/

/-- Up to the first at sign, a text in front of a password has no at sign of its own. -/
theorem takeWhile_userinfo {body z : List Char} (p : Password) (hbody : '@' ∉ body)
    (hz : z.head? = some '@') :
    (body ++ p.text ++ z).takeWhile (fun c ↦ !(c == '@')) = body ++ p.text ∧
      (body ++ p.text ++ z).dropWhile (fun c ↦ !(c == '@')) = z := by
  have hall : ∀ c ∈ body ++ p.text, (!(c == '@')) = true := by
    intro c hc
    have hne : c ≠ '@' := by
      rcases List.mem_append.mp hc with hm | hm
      · exact fun h ↦ hbody (h ▸ hm)
      · exact (p.plain c hm).2
    simpa using hne
  obtain ⟨w, rfl⟩ : ∃ w, z = '@' :: w := by
    cases z with
    | nil => cases hz
    | cons c w => exact ⟨w, by rw [Option.some.inj hz]⟩
  rw [List.takeWhile_append_of_pos hall, List.dropWhile_append_of_pos hall]
  simp

/-- Where the text in front has a colon, the password behind it goes. -/
theorem maskBody_reached {scheme body z : List Char} (p : Password)
    (hbody : isUserinfo body = true) (hcolon : ':' ∈ body) (hz : z.head? = some '@') :
    maskBody scheme (body ++ p.text ++ z) =
      scheme ++ body.takeWhile (fun c ↦ !(c == ':')) ++ ":***".toList ++ z := by
  have hat : '@' ∉ body := by
    have hand := (Bool.and_eq_true_iff.mp hbody).2
    simpa using hand
  obtain ⟨huser, hhost⟩ := takeWhile_userinfo p hat hz
  have hany : (body ++ p.text ++ z).any (· == '@') = true := by
    cases z with
    | nil => cases hz
    | cons c w =>
      have hc : c = '@' := Option.some.inj hz
      simp [hc]
  have hcol : (body ++ p.text).any (· == ':') = true := by
    rw [List.any_append, List.any_eq_true.mpr ⟨':', hcolon, rfl⟩]
    rfl
  obtain ⟨pre, post, hb, hpre⟩ := List.eq_append_cons_of_mem hcolon
  have hpos : ∀ c ∈ pre, (!(c == ':')) = true := by
    intro c hc
    have hne : c ≠ ':' := fun h ↦ hpre (h ▸ hc)
    simpa using hne
  have htake : (body ++ p.text).takeWhile (fun c ↦ !(c == ':')) =
      body.takeWhile fun c ↦ !(c == ':') := by
    rw [hb, List.append_assoc, List.takeWhile_append_of_pos hpos,
      List.takeWhile_append_of_pos hpos]
    simp
  simp only [maskBody, hany, huser, hhost, hcol, htake, Bool.and_self, if_true]

/-- A scheme is no longer than the URI it starts. -/
theorem schemeLength_le {u : List Char} {n : Nat} (h : schemeLength u = some n) :
    n ≤ u.length := by
  unfold schemeLength at h
  split at h
  · next hs =>
    cases h
    exact length_of_startsFolded hs
  · split at h
    · next hs =>
      cases h
      exact length_of_startsFolded hs
    · cases h

/-- A scheme stays one whatever follows the URI. -/
theorem schemeLength_append {u : List Char} {n : Nat} (y : List Char)
    (h : schemeLength u = some n) : schemeLength (u ++ y) = some n := by
  unfold schemeLength at h ⊢
  split at h
  · next hs => rw [startsFolded_append y (length_of_startsFolded hs), if_pos hs, h]
  · next hsip =>
    split at h
    · next hs =>
      have hle : "sips:".toList.length ≤ u.length := length_of_startsFolded hs
      have hle4 : "sip:".toList.length ≤ u.length :=
        Nat.le_trans (show "sip:".toList.length ≤ "sips:".toList.length by decide) hle
      rw [startsFolded_append y hle4, startsFolded_append y hle, if_neg hsip, if_pos hs, h]
    · cases h

/-- A place that is reached is masked, and what follows stays. -/
theorem maskUri_reached {u z : List Char} (p : Password) (hu : reaches u = true)
    (hcolon : u.getLast? = some ':') (hz : z.head? = some '@') :
    maskUri (u ++ p.text ++ z) = maskedUser u ++ z := by
  unfold reaches at hu
  cases hn : schemeLength u with
  | none =>
    rw [hn] at hu
    cases hu
  | some n =>
    have hinfo : isUserinfo (u.drop n) = true := by
      rw [hn] at hu
      exact hu
    have hle := schemeLength_le hn
    have hne : u.drop n ≠ [] := by
      intro h
      rw [h] at hinfo
      cases hinfo
    have hlast : (u.drop n).getLast? = some ':' := by
      have hlt : n < u.length := by
        have hlen := List.length_pos_of_ne_nil hne
        rw [List.length_drop] at hlen
        omega
      rw [List.getLast?_drop, if_neg (by omega), hcolon]
    have hin : ':' ∈ u.drop n := List.mem_of_getLast? hlast
    have htake : (u ++ p.text ++ z).take n = u.take n := by
      rw [List.append_assoc, List.take_append_of_le_length hle]
    have hdrop : (u ++ p.text ++ z).drop n = u.drop n ++ p.text ++ z := by
      rw [List.append_assoc, List.drop_append_of_le_length hle, List.append_assoc]
    have hlong : schemeLength (u ++ p.text ++ z) = some n := by
      rw [List.append_assoc]
      exact schemeLength_append _ hn
    unfold maskUri maskedUser
    simp only [hlong, hn, htake, hdrop]
    exact maskBody_reached p hinfo hin hz

/-! ### Covered lines are blind -/

/-- A filled in form is its first text, the first password and the rest. -/
theorem Form.fill_hole (before u : List Char) (rest : Form) (σ : Nat → Password) :
    (Form.hole (before ++ u) rest).fill σ =
      before ++ (u ++ ((σ 0).text ++ rest.fill fun n ↦ σ (n + 1))) := by
  simp only [Form.fill, List.append_assoc]

/-- The first cut of a filled in form, when a first `sip:` is in front of the first place. -/
theorem scan_hole {before u pre : List Char} {rest : Form} (σ : Nat → Password)
    (hpre : beforeSip (before ++ u) = some pre)
    (hlen : utf8Len before = utf8Len (toLowercase pre)) :
    maskSipUriPasswords ((Form.hole (before ++ u) rest).fill σ) =
      (maskSipUriPasswords
        (afterUri (u ++ ((σ 0).text ++ rest.fill fun n ↦ σ (n + 1))))).map fun out ↦
          before ++ maskUri (uriOf (u ++ ((σ 0).text ++ rest.fill fun n ↦ σ (n + 1)))) ++ out := by
  have hlong := beforeFirst_append ((σ 0).text ++ rest.fill fun n ↦ σ (n + 1)) hpre
  rw [List.append_assoc] at hlong
  rw [Form.fill_hole, maskSipUriPasswords_cut hlong hlen]

/-- A scan that passes a URI in front of the first place. -/
theorem scan_skip {before u pre : List Char} {rest : Form} (σ : Nat → Password)
    (hpre : beforeSip (before ++ u) = some pre)
    (hlen : utf8Len before = utf8Len (toLowercase pre)) (hends : afterUri u ≠ []) :
    maskSipUriPasswords ((Form.hole (before ++ u) rest).fill σ) =
      (maskSipUriPasswords ((Form.hole (afterUri u) rest).fill σ)).map
        (before ++ maskUri (uriOf u) ++ ·) := by
  obtain ⟨huri, hafter⟩ :=
    uri_append_of_ends ((σ 0).text ++ rest.fill fun n ↦ σ (n + 1)) hends
  rw [scan_hole σ hpre hlen, huri, hafter]
  simp only [Form.fill, List.append_assoc]

/-- The end of a text that ends in a colon does so too. -/
theorem getLast?_of_suffix {s t : List Char} (h : s <:+ t) (hne : s ≠ []) :
    s.getLast? = t.getLast? := by
  obtain ⟨front, rfl⟩ := h
  rw [List.getLast?_append]
  cases hl : s.getLast? with
  | none => exact absurd (List.getLast?_eq_none_iff.mp hl) hne
  | some c => rfl

/-- A URI that ends where a password follows has it in it. -/
theorem uri_at_place {u : List Char} (rest : Form) (σ : Nat → Password)
    (hends : afterUri u = []) :
    uriOf (u ++ ((σ 0).text ++ rest.fill fun n ↦ σ (n + 1))) =
        u ++ (σ 0).text ++ uriOf (rest.fill fun n ↦ σ (n + 1)) ∧
      afterUri (u ++ ((σ 0).text ++ rest.fill fun n ↦ σ (n + 1))) =
        afterUri (rest.fill fun n ↦ σ (n + 1)) := by
  obtain ⟨huri, hafter⟩ :=
    uri_append_of_open ((σ 0).text ++ rest.fill fun n ↦ σ (n + 1)) hends
  obtain ⟨huri', hafter'⟩ :=
    uri_append_of_open (rest.fill fun n ↦ σ (n + 1)) (σ 0).afterUri_eq_nil
  rw [huri, hafter, huri', hafter', List.append_assoc]
  exact ⟨rfl, rfl⟩

/-- A URI starts with the first character of a text, unless that ends it. -/
theorem head?_uriOf {s : List Char} (h : s.head? = some '@') : (uriOf s).head? = some '@' := by
  cases s with
  | nil => cases h
  | cons c w =>
    have hc : c = '@' := Option.some.inj h
    subst hc
    rfl

/-- A scan that reaches the first place. -/
theorem scan_mask {before u pre : List Char} {rest : Form} (σ : Nat → Password)
    (hpre : beforeSip (before ++ u) = some pre)
    (hlen : utf8Len before = utf8Len (toLowercase pre)) (hends : afterUri u = [])
    (hreaches : reaches u = true) (hcolon : (before ++ u).getLast? = some ':')
    (hat : rest.head.head? = some '@') :
    maskSipUriPasswords ((Form.hole (before ++ u) rest).fill σ) =
      (maskSipUriPasswords (afterUri (rest.fill fun n ↦ σ (n + 1)))).map
        (before ++ (maskedUser u ++ uriOf (rest.fill fun n ↦ σ (n + 1))) ++ ·) := by
  have hune : u ≠ [] := by
    intro h
    rw [h] at hreaches
    cases hreaches
  have hucolon : u.getLast? = some ':' := by
    rw [← hcolon]
    exact getLast?_of_suffix (List.suffix_append before u) hune
  have hhead := head?_uriOf (Form.head?_fill hat fun n ↦ σ (n + 1))
  obtain ⟨huri, hafter⟩ := uri_at_place rest σ hends
  rw [scan_hole σ hpre hlen, huri, hafter, maskUri_reached (σ 0) hreaches hucolon hhead]

/-- The end of a form with its places between colons and at signs. -/
theorem Form.Placed.afterUri {f f' : Form} (hplaced : f.Placed) (h : f.afterUri = some f') :
    f'.Placed := by
  cases hplaced with
  | text t =>
    cases h
    exact .text _
  | hole hcolon hat hrest =>
    simp only [Form.afterUri] at h
    split at h
    · cases h
    · next hne =>
      cases h
      have hlast := getLast?_of_suffix (List.dropWhile_suffix _) hne
      exact .hole (hlast.trans hcolon) hat hrest

/-- A form whose scan leads to that of a blind form is blind. -/
theorem blind_of_scan {f f' : Form} (front : List Char) (shift : Nat)
    (hscan : ∀ σ, maskSipUriPasswords (f.fill σ) =
      (maskSipUriPasswords (f'.fill fun n ↦ σ (n + shift))).map (front ++ ·))
    (h : f'.Blind) : f.Blind := by
  obtain ⟨out, hout⟩ := h
  exact ⟨front ++ out, fun σ ↦ by rw [hscan, hout]; rfl⟩

/-- A covered form is blind. -/
theorem blind_of_covered {f : Form} (hplaced : f.Placed) (h : Covered f) : f.Blind := by
  induction h with
  | text hcuts =>
    obtain ⟨out, hout⟩ := (maskSipUriPasswords_ok_iff _).mpr hcuts
    exact ⟨out, fun _ ↦ hout⟩
  | @skip before u pre rest hpre hlen hends _ ih =>
    cases hplaced with
    | hole hcolon hat hrest =>
      have hsuffix : afterUri u <:+ before ++ u :=
        (List.dropWhile_suffix _).trans (List.suffix_append before u)
      have hlast := getLast?_of_suffix hsuffix hends
      have hblind := ih (.hole (hlast.trans hcolon) hat hrest)
      exact blind_of_scan _ 0 (fun σ ↦ scan_skip σ hpre hlen hends) hblind
  | @mask before u pre rest rest' hpre hlen hends hreaches hafter _ ih =>
    cases hplaced with
    | hole hcolon hat hrest =>
      have hblind := ih (hrest.afterUri hafter)
      apply blind_of_scan (before ++ (maskedUser u ++ uriOf rest.head)) 1 _ hblind
      intro σ
      obtain ⟨huri, hend⟩ := Form.uri_fill hafter fun n ↦ σ (n + 1)
      rw [scan_mask σ hpre hlen hends hreaches hcolon hat, huri, hend]

end PacketDial.Masking
