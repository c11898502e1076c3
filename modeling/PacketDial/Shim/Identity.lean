import PacketDial.Core.Accounts
import PacketDial.Lib.SipUri

/-!
# The identity of an account

`pd_acc_add` builds the `From` identity of an account in a buffer of 512 bytes, the display name
between quotes and the URI between angle brackets (`core_rust/src/shim/pjsip_shim.c:975–985`). It is
read as RFC 3261 reads it: as a `name-addr` whose display name is a `quoted-string`, or as a bare
`addr-spec`. The `addr-spec` of an account is a `SIP-URI` or a `SIPS-URI`.
-/

namespace PacketDial.Shim

open PacketDial.Core
open PacketDial.Lib.SipUri (isSipUri)

/-- The byte `"`. -/
abbrev quote : UInt8 := 0x22

/-- The byte `\`. -/
abbrev backslash : UInt8 := 0x5C

/-- The byte `<`. -/
abbrev leftAngle : UInt8 := 0x3C

/-- The byte `>`. -/
abbrev rightAngle : UInt8 := 0x3E

/-- What `snprintf` leaves in a buffer of `size` bytes that ends in a NUL. -/
def snprintf (size : Nat) (text : List UInt8) : List UInt8 := text.take (size - 1)

/-- The identity that `pd_acc_add` builds (`pjsip_shim.c:979–985`). -/
def accountIdentity (displayName sipUri : List UInt8) : List UInt8 :=
  if displayName ≠ [] then
    snprintf 512 ([quote] ++ displayName ++ [quote, 0x20, leftAngle] ++ sipUri ++ [rightAngle])
  else sipUri

/-- The bytes of a C string. -/
def cBytes (text : String) : List UInt8 := text.toList.flatMap String.utf8EncodeChar

/-- The identity of an account that is registered with these arguments. -/
def AccAddArgs.identity (args : AccAddArgs) : List UInt8 :=
  accountIdentity (cBytes args.displayName) (cBytes args.sipUri)

/-- A blank or a tab. A line folded inside a quoted string reads as a blank, so that no text with a
line break is what such a string stands for; the reader refuses one. -/
def isBlank (b : UInt8) : Bool := b == 0x20 || b == 0x09

/-- `qdtext`: what stands for itself in a quoted string. The bytes from 0x80 on are those of the
characters of UTF-8 beyond ASCII. -/
def isQdtext (b : UInt8) : Bool :=
  isBlank b || b == 0x21 || (0x23 ≤ b && b ≤ 0x5B) || (0x5D ≤ b && b ≤ 0x7E) || 0x80 ≤ b

/-- What a backslash may stand in front of. -/
def isQuotable (b : UInt8) : Bool := b ≤ 0x7F && b != 0x0A && b != 0x0D

/-- What a URI may not have where it stands without angle brackets: there it begins what belongs
to the header. -/
def isHeaderMark (b : UInt8) : Bool := b == 0x2C || b == 0x3B || b == 0x3F

/-- A quoted string behind its opening quote: what it stands for, and what follows it. -/
def readQuoted : List UInt8 → Option (List UInt8 × List UInt8)
  | [] => none
  | [b] => if b = quote then some ([], []) else none
  | b :: c :: rest =>
    if b = quote then some ([], c :: rest)
    else if b = backslash then
      if isQuotable c then (readQuoted rest).map fun read ↦ (c :: read.1, read.2) else none
    else if isQdtext b then
      (readQuoted (c :: rest)).map fun read ↦ (b :: read.1, read.2)
    else none

/-- The URI between angle brackets, with nothing but blanks around them. -/
def readAngled (text : List UInt8) : Option (List UInt8) :=
  match text.dropWhile isBlank with
  | [] => none
  | b :: rest =>
    if b = leftAngle ∧ (rest.dropWhile (· ≠ rightAngle)).head? = some rightAngle ∧
        (rest.dropWhile (· ≠ rightAngle)).tail.all isBlank ∧
        isSipUri (rest.takeWhile (· ≠ rightAngle)) then
      some (rest.takeWhile (· ≠ rightAngle))
    else none

/-- The display name and the URI of an identity: those of a `name-addr` with a quoted display name,
or no name and the URI that stands alone. -/
def readIdentity (identity : List UInt8) : Option (List UInt8 × List UInt8) :=
  if identity.head? = some quote then
    (readQuoted identity.tail).bind fun read ↦
      (readAngled read.2).map fun uri ↦ (read.1, uri)
  else if isSipUri identity ∧ ¬identity.any isHeaderMark then some ([], identity)
  else none

/-- The identity is read as the display name and the URI of an account. -/
def Identifies (identity : List UInt8) (displayName sipUri : String) : Prop :=
  readIdentity identity = some (cBytes displayName, cBytes sipUri)

section Quoted

variable {name text rest : List UInt8}

/-- A text of `qdtext` is read as itself. -/
theorem readQuoted_append (h : ∀ b ∈ name, isQdtext b = true) (rest : List UInt8) :
    readQuoted (name ++ quote :: rest) = some (name, rest) := by
  induction name with
  | nil => cases rest <;> rfl
  | cons b name ih =>
    have hb := h b List.mem_cons_self
    have hquote : b ≠ quote := by
      rintro rfl
      exact absurd hb (by decide)
    have hslash : b ≠ backslash := by
      rintro rfl
      exact absurd hb (by decide)
    have hrest := ih fun c hc ↦ h c (List.mem_cons_of_mem b hc)
    obtain ⟨c, more, hmore⟩ : ∃ c more, name ++ quote :: rest = c :: more :=
      List.exists_cons_of_ne_nil (by simp)
    rw [List.cons_append, hmore, readQuoted, if_neg hquote, if_neg hslash, if_pos hb, ← hmore,
      hrest]
    rfl

/-- What is read stands in the text, and is at most as long; it is that long only as `qdtext`. -/
theorem readQuoted_spec (h : readQuoted text = some (name, rest)) : ∃ raw,
    text = raw ++ quote :: rest ∧ name.length ≤ raw.length ∧
      (name.length = raw.length → ∀ b ∈ raw, isQdtext b = true) := by
  induction text using readQuoted.induct generalizing name with
  | case1 => cases h
  | case2 => cases h; exact ⟨[], rfl, Nat.le_refl _, fun _ b hb ↦ by cases hb⟩
  | case3 b hb => rw [readQuoted, if_neg hb] at h; cases h
  | case4 c more => cases h; exact ⟨[], rfl, Nat.le_refl _, fun _ b hb ↦ by cases hb⟩
  | case5 c more hc hquote ih =>
    rw [readQuoted, if_neg hquote, if_pos rfl, if_pos hc] at h
    obtain ⟨⟨name', rest'⟩, hread, heq⟩ := Option.map_eq_some_iff.mp h
    cases heq
    obtain ⟨raw, rfl, hlen, -⟩ := ih hread
    refine ⟨backslash :: c :: raw, rfl, ?_, ?_⟩
    · simp only [List.length_cons]
      omega
    · intro heq
      simp only [List.length_cons] at heq
      omega
  | case6 c more hc hquote =>
    rw [readQuoted, if_neg hquote, if_pos rfl, if_neg hc] at h
    cases h
  | case7 b c more hquote hslash hb ih =>
    rw [readQuoted, if_neg hquote, if_neg hslash, if_pos hb] at h
    obtain ⟨⟨name', rest'⟩, hread, heq⟩ := Option.map_eq_some_iff.mp h
    cases heq
    obtain ⟨raw, hraw, hlen, hall⟩ := ih hread
    refine ⟨b :: raw, by rw [hraw]; rfl, Nat.succ_le_succ hlen, fun heq ↦ ?_⟩
    rw [List.forall_mem_cons]
    exact ⟨hb, hall (Nat.succ.inj heq)⟩
  | case8 b c more hquote hslash hb =>
    rw [readQuoted, if_neg hquote, if_neg hslash, if_neg hb] at h
    cases h

end Quoted

section Angled

variable {uri text : List UInt8}

/-- A URI between angle brackets is read as itself. -/
theorem readAngled_append (h : isSipUri uri = true) :
    readAngled (0x20 :: leftAngle :: (uri ++ [rightAngle])) = some uri := by
  have hbytes := List.all_eq_true.mp (Lib.SipUri.all_of_isSipUri h)
  have hnot : ∀ b ∈ uri, decide (b ≠ rightAngle) = true := fun b hb ↦ by
    apply decide_eq_true
    rintro rfl
    exact absurd (hbytes _ hb) (by decide)
  have htake : (uri ++ [rightAngle]).takeWhile (· ≠ rightAngle) = uri := by
    rw [List.takeWhile_append_of_pos hnot]
    exact List.append_nil uri
  have hdrop : (uri ++ [rightAngle]).dropWhile (· ≠ rightAngle) = [rightAngle] := by
    rw [List.dropWhile_append_of_pos hnot]
    rfl
  unfold readAngled
  rw [List.dropWhile_cons_of_pos (by decide), List.dropWhile_cons_of_neg (by decide)]
  simp only [htake, hdrop]
  exact if_pos ⟨trivial, rfl, rfl, h⟩

/-- What is read is a URI, and stands in the text between its brackets. -/
theorem readAngled_spec (h : readAngled text = some uri) :
    isSipUri uri = true ∧ uri.length + 2 ≤ text.length := by
  unfold readAngled at h
  cases hdrop : text.dropWhile isBlank with
  | nil =>
    rw [hdrop] at h
    cases h
  | cons b rest =>
    rw [hdrop] at h
    simp only at h
    split at h
    · next hread =>
      obtain ⟨-, hhead, -, huri⟩ := hread
      rw [← Option.some.inj h]
      refine ⟨huri, ?_⟩
      have hlen := congrArg List.length (List.takeWhile_append_dropWhile
        (p := fun b ↦ decide (b ≠ rightAngle)) (l := rest))
      have hle := (List.dropWhile_suffix isBlank (l := text)).length_le
      have hne : rest.dropWhile (· ≠ rightAngle) ≠ [] := fun hnil ↦ by
        rw [hnil] at hhead
        cases hhead
      have hpos := List.length_pos_iff.mpr hne
      rw [hdrop] at hle
      rw [List.length_append] at hlen
      rw [List.length_cons] at hle
      omega
    · cases h

/-- A text that begins with a quote is no URI. -/
theorem head?_ne_quote (h : isSipUri text = true) : text.head? ≠ some quote := by
  intro hhead
  obtain ⟨rest, rfl⟩ := List.head?_eq_some_iff.mp hhead
  have hbytes := List.all_eq_true.mp (Lib.SipUri.all_of_isSipUri h)
  exact absurd (hbytes quote List.mem_cons_self) (by decide)

end Angled

/-- The identity of an account whose name and URI fit the buffer. -/
theorem accountIdentity_eq {displayName sipUri : List UInt8} (hname : displayName ≠ [])
    (hfit : displayName.length + sipUri.length + 5 < 512) :
    accountIdentity displayName sipUri =
      quote :: (displayName ++ quote :: 0x20 :: leftAngle :: (sipUri ++ [rightAngle])) := by
  unfold accountIdentity snprintf
  rw [if_pos hname, List.take_of_length_le]
  · simp
  · simp only [List.length_append, List.length_cons, List.length_nil]
    omega

/-- Where a quoted string with room for the URI behind it ends at or behind the display name, it
ends right there. -/
theorem raw_eq {name raw rest uri : List UInt8}
    (h : name ++ quote :: 0x20 :: leftAngle :: (uri ++ [rightAngle]) = raw ++ quote :: rest)
    (hlen : name.length ≤ raw.length) (hroom : uri.length + 2 ≤ rest.length) : raw = name := by
  rcases List.append_eq_append_iff.mp h with ⟨more, rfl, htail⟩ | ⟨more, rfl, -⟩
  · have hmore := congrArg List.length htail
    simp only [List.length_append, List.length_cons, List.length_nil] at hmore
    match more, htail, hmore with
    | [], _, _ => exact List.append_nil name
    | [b], htail, _ => exact absurd (List.cons.inj (List.cons.inj htail).2).1 (by decide)
    | b :: c :: more, _, hmore =>
      simp only [List.length_cons] at hmore
      omega
  · rw [List.length_append] at hlen
    have hnil : more = [] := List.length_eq_zero_iff.mp (by omega)
    rw [hnil, List.append_nil]

/-- What is read of a bare text. -/
theorem readIdentity_bare_iff {uri : List UInt8} :
    readIdentity uri = some ([], uri) ↔
      isSipUri uri = true ∧ ∀ b ∈ uri, isHeaderMark b = false := by
  have hmarks : ¬uri.any isHeaderMark = true ↔ ∀ b ∈ uri, isHeaderMark b = false := by
    rw [Bool.not_eq_true, List.any_eq_false]
    simp only [Bool.not_eq_true]
  rw [← hmarks, readIdentity]
  constructor
  · intro h
    split at h
    · next hhead =>
      -- the URI that is read would be as long as the text that holds it
      obtain ⟨rest, rfl⟩ := List.head?_eq_some_iff.mp hhead
      obtain ⟨⟨name, behind⟩, hquoted, hread⟩ := Option.bind_eq_some_iff.mp h
      obtain ⟨angled, hangled, heq⟩ := Option.map_eq_some_iff.mp hread
      cases heq
      have hroom := (readAngled_spec hangled).2
      obtain ⟨raw, hraw, -⟩ := readQuoted_spec hquoted
      have hlen := congrArg List.length hraw
      simp only [List.length_append, List.length_cons, List.tail_cons] at hlen hroom
      omega
    · split at h
      · next huri => exact huri
      · cases h
  · intro huri
    rw [if_neg (head?_ne_quote huri.1), if_pos huri]

/-- For a display name and a URI that fit the buffer, the identity is read as exactly these, if and
only if the URI is a SIP or SIPS URI and the display name is made of `qdtext` or, where it is empty,
the URI may stand without brackets. -/
theorem identity_iff (displayName sipUri : String)
    (hfit : (cBytes displayName).length + (cBytes sipUri).length + 5 < 512) :
    Identifies (accountIdentity (cBytes displayName) (cBytes sipUri)) displayName sipUri ↔
      isSipUri (cBytes sipUri) = true ∧
        (∀ b ∈ cBytes displayName, isQdtext b = true) ∧
        (cBytes displayName = [] → ∀ b ∈ cBytes sipUri, isHeaderMark b = false) := by
  rw [Identifies]
  by_cases hname : cBytes displayName = []
  · rw [hname, accountIdentity, if_neg (not_not_intro rfl), readIdentity_bare_iff]
    simp
  · rw [accountIdentity_eq hname hfit, readIdentity, List.head?_cons, if_pos rfl, List.tail_cons]
    constructor
    · intro hread
      obtain ⟨⟨name, rest⟩, hquoted, hread⟩ := Option.bind_eq_some_iff.mp hread
      obtain ⟨uri, hangled, heq⟩ := Option.map_eq_some_iff.mp hread
      cases heq
      obtain ⟨raw, hraw, hlen, hall⟩ := readQuoted_spec hquoted
      obtain ⟨huri, hroom⟩ := readAngled_spec hangled
      have heq := raw_eq hraw hlen hroom
      rw [heq] at hall
      exact ⟨huri, hall rfl, fun hnil ↦ absurd hnil hname⟩
    · rintro ⟨huri, hqdtext, -⟩
      rw [readQuoted_append hqdtext, Option.bind_some, readAngled_append huri]
      rfl

/-- A URI of an account. -/
theorem isSipUri_plain : isSipUri (cBytes "sip:ann@b") = true := by
  have hcut : Lib.SipUri.cut 0x3A (cBytes "sip:ann@b") = (cBytes "sip", some (cBytes "ann@b")) := by
    decide
  rw [isSipUri, hcut]
  decide

/-- An identity of plain text, as an instance. -/
theorem identity_iff_plain :
    Identifies (accountIdentity (cBytes "Ann B.") (cBytes "sip:ann@b")) "Ann B." "sip:ann@b" :=
  (identity_iff "Ann B." "sip:ann@b" (by decide)).mpr
    ⟨isSipUri_plain, List.all_eq_true.mp (by decide), fun hnil ↦ absurd hnil (by decide)⟩

/-- A quote in a display name ends the quoted string. -/
theorem quoted_name_not_read :
    ¬Identifies (accountIdentity (cBytes "Ann \"B\" C") (cBytes "sip:ann@b")) "Ann \"B\" C"
      "sip:ann@b" := by
  intro hread
  unfold Identifies at hread
  exact absurd hread (by decide)

section Fallback

variable {what text : String} {a : Account} {args : AccAddArgs}

/-- A text that converts is passed on. -/
theorem of_named_bind {α : Type} {f : String → Except String α} {b : α}
    (h : (named what text >>= f) = .ok b) : f text = .ok b := by
  unfold named cString at h
  split_ifs at h
  · cases h
  · exact h

/-- An account is registered under its display name, its account name or its username, whichever is
the first that is not empty; a name with a NUL counts as empty. -/
theorem identity_of_accAddArgs (h : accAddArgs a = .ok args) :
    AccAddArgs.identity args =
      accountIdentity (cBytes (effectiveDisplayName a)) (cBytes (sipUri a)) := by
  unfold accAddArgs at h
  have hlast := of_named_bind (of_named_bind (of_named_bind (of_named_bind (of_named_bind
    (of_named_bind (of_named_bind h))))))
  cases hlast
  rfl

end Fallback

end PacketDial.Shim
