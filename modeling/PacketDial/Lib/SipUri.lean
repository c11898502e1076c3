/-!
# The URIs of SIP

The grammar of `SIP-URI` and `SIPS-URI` in RFC 3261, section 25.1, on bytes. Its productions are
read from the outside in, each cut at the byte that ends its front part. The IPv6 addresses are
those of RFC 3986, as RFC 3261 was later corrected.
-/

namespace PacketDial.Lib.SipUri

/-- What stands before the first such byte, and what follows that byte if it is there. -/
def cut (sep : UInt8) (text : List UInt8) : List UInt8 × Option (List UInt8) :=
  (text.takeWhile (· ≠ sep), (text.dropWhile (· ≠ sep)).tail?)

/-- `DIGIT`. -/
def isDigit (b : UInt8) : Bool := 0x30 ≤ b && b ≤ 0x39

/-- `ALPHA`. -/
def isAlpha (b : UInt8) : Bool := (0x41 ≤ b && b ≤ 0x5A) || (0x61 ≤ b && b ≤ 0x7A)

/-- `alphanum`. -/
def isAlphanum (b : UInt8) : Bool := isAlpha b || isDigit b

/-- `HEXDIG`, in either case. -/
def isHexdig (b : UInt8) : Bool :=
  isDigit b || (0x41 ≤ b && b ≤ 0x46) || (0x61 ≤ b && b ≤ 0x66)

/-- A letter, a digit, or one of the marks. -/
def isOf (marks : List Char) (b : UInt8) : Bool :=
  isAlphanum b || marks.any fun c ↦ b == c.toUInt8

/-- `mark`: what is `unreserved` beside letters and digits. -/
def mark : List Char := "-_.!~*'()".toList

/-- Letters, digits, marks, and any byte as a percent sign and two digits, which is `escaped`. -/
def isEscapedText (marks : List Char) : List UInt8 → Bool
  | [] => true
  | b :: rest =>
    if b = 0x25 then
      match rest with
      | high :: low :: rest => isHexdig high && isHexdig low && isEscapedText marks rest
      | _ => false
    else isOf marks b && isEscapedText marks rest

/-- `userinfo`, without the `@`: a `user`, and a `password` behind a colon. A
`telephone-subscriber` is such a user. -/
def isUserinfo (text : List UInt8) : Bool :=
  (cut 0x3A text).1 ≠ [] &&
    isEscapedText (mark ++ "&=+$,;?/".toList) (cut 0x3A text).1 &&
    (cut 0x3A text).2.all (isEscapedText (mark ++ "&=+$,".toList))

/-- `domainlabel`: letters, digits and hyphens, with no hyphen at an end. -/
def isDomainlabel (label : List UInt8) : Bool :=
  label.head?.any isAlphanum && label.getLast?.any isAlphanum && label.all (isOf ['-'])

/-- `hostname`: labels between dots, the last of them with a letter in front. A dot may end it. -/
def isHostname (text : List UInt8) : Bool :=
  let labels := text.splitOn 0x2E
  let labels := if labels.getLast? = some [] then labels.dropLast else labels
  labels.all isDomainlabel && labels.getLast?.any fun label ↦ label.head?.any isAlpha

/-- `IPv4address`: four numbers of one to three digits. -/
def isIpv4address (text : List UInt8) : Bool :=
  (text.splitOn 0x2E).length = 4 &&
    (text.splitOn 0x2E).all fun part ↦ part ≠ [] && part.length ≤ 3 && part.all isDigit

/-- `h16`: one to four hexadecimal digits. -/
def isH16 (text : List UInt8) : Bool := text ≠ [] && text.length ≤ 4 && text.all isHexdig

/-- How many words of 16 bits stand between colons, an IPv4 address at the end counting as two. -/
def ipv6Words (endsInIpv4 : Bool) (text : List UInt8) : Option Nat :=
  let groups := text.splitOn 0x3A
  if text = [] then some 0
  else if groups.all isH16 then some groups.length
  else if endsInIpv4 && groups.dropLast.all isH16 && groups.getLast?.any isIpv4address then
    some (groups.length + 1)
  else none

/-- `IPv6address`: eight words, or at most seven with a double colon for those left out. -/
def isIpv6address (text : List UInt8) : Bool :=
  ipv6Words true text = some 8 ||
    (List.range text.length).any fun i ↦ (text.drop i).take 2 = [0x3A, 0x3A] &&
      (ipv6Words false (text.take i)).any fun before ↦
        (ipv6Words true (text.drop (i + 2))).any fun behind ↦ before + behind ≤ 7

/-- `port`. -/
def isPort (text : List UInt8) : Bool := text ≠ [] && text.all isDigit

/-- `hostport`: a `host`, whose IPv6 addresses stand in brackets, and a port behind a colon. -/
def isHostport (text : List UInt8) : Bool :=
  if text.head? = some 0x5B then
    isIpv6address (cut 0x5D text.tail).1 && (cut 0x5D text.tail).2.any fun rest ↦
      rest = [] || rest.head? = some 0x3A && isPort rest.tail
  else
    (isHostname (cut 0x3A text).1 || isIpv4address (cut 0x3A text).1) &&
      (cut 0x3A text).2.all isPort

/-- A capital as a small letter. -/
def lowered (b : UInt8) : UInt8 := if 0x41 ≤ b ∧ b ≤ 0x5A then b + 0x20 else b

/-- The bytes of the text, whatever the case of its letters. -/
def isText (text : String) (bytes : List UInt8) : Bool :=
  bytes.map lowered = text.toList.map Char.toUInt8

/-- The marks of `paramchar`. -/
def paramMarks : List Char := mark ++ "[]/:&+$".toList

/-- `uri-parameter`: a name, and a value behind the equals sign. The values of `transport`, `user`
and `method` may be a `token`. -/
def isUriParameter (text : List UInt8) : Bool :=
  let name := (cut 0x3D text).1
  name ≠ [] && isEscapedText paramMarks name && (cut 0x3D text).2.all fun value ↦
    value ≠ [] && (isEscapedText paramMarks value ||
      (isText "transport" name || isText "user" name || isText "method" name) &&
        value.all (isOf "-.!%*_+`'~".toList))

/-- `header`: a name and a value, with the equals sign between them. -/
def isHeader (text : List UInt8) : Bool :=
  (cut 0x3D text).1 ≠ [] && isEscapedText (mark ++ "[]/?:+$".toList) (cut 0x3D text).1 &&
    (cut 0x3D text).2.any (isEscapedText (mark ++ "[]/?:+$".toList))

/-- What follows the user: the host, the parameters and the headers. -/
def isHostPart (text : List UInt8) : Bool :=
  let front := (cut 0x3F text).1
  isHostport (cut 0x3B front).1 &&
    ((cut 0x3B front).2.all fun parameters ↦ (parameters.splitOn 0x3B).all isUriParameter) &&
    (cut 0x3F text).2.all fun headers ↦ (headers.splitOn 0x26).all isHeader

/-- What follows the scheme. -/
def isSchemePart (text : List UInt8) : Bool :=
  if 0x40 ∈ text then
    isUserinfo (cut 0x40 text).1 && (cut 0x40 text).2.any isHostPart
  else isHostPart text

/-- `SIP-URI` or `SIPS-URI`. -/
def isSipUri (uri : List UInt8) : Bool :=
  (isText "sip" (cut 0x3A uri).1 || isText "sips" (cut 0x3A uri).1) &&
    (cut 0x3A uri).2.any isSchemePart

/-- The marks that stand somewhere in a URI. -/
def uriMarks : List Char := mark ++ "`%&=+$,;?/[]:@".toList

/-- A byte of some URI. -/
def isUriByte (b : UInt8) : Bool := isOf uriMarks b

section Bytes

variable {p : UInt8 → Bool} {b : UInt8} {marks : List Char} {text : List UInt8}

/-- What holds of the byte that cuts and of both parts holds of the text. -/
theorem all_of_cut (sep : UInt8) (hsep : p sep = true) (hfront : (cut sep text).1.all p = true)
    (hbehind : (cut sep text).2.all (·.all p) = true) : text.all p = true := by
  rw [cut] at hfront hbehind
  rw [← List.takeWhile_append_dropWhile (p := fun b ↦ decide (b ≠ sep)) (l := text),
    List.all_append, hfront, Bool.true_and]
  cases hdrop : text.dropWhile (fun b ↦ decide (b ≠ sep)) with
  | nil => rfl
  | cons b rest =>
    have hb : b = sep := by
      have hhead := List.head?_dropWhile_not (fun b ↦ decide (b ≠ sep)) text
      rw [hdrop] at hhead
      simpa using hhead
    rw [hdrop] at hbehind
    rw [List.all_cons, hb, hsep, Bool.true_and]
    exact hbehind

/-- What holds of the byte that splits and of every part holds of the text. -/
theorem all_of_splitOn (sep : UInt8) (hsep : p sep = true)
    (hparts : ∀ part ∈ text.splitOn sep, part.all p = true) : text.all p = true := by
  have hjoin : ∀ parts : List (List UInt8), (∀ part ∈ parts, part.all p = true) →
      ([sep].intercalate parts).all p = true := by
    intro parts hall
    induction parts with
    | nil => rfl
    | cons part parts ih =>
      obtain ⟨hpart, hparts⟩ := List.forall_mem_cons.mp hall
      cases parts with
      | nil => simpa using hpart
      | cons next parts =>
        rw [List.intercalate_cons_of_ne_nil (List.cons_ne_nil next parts), List.all_append,
          List.all_append, hpart, ih hparts]
        simp [hsep]
  have hsplit : [sep].intercalate (text.splitOn sep) = text := List.intercalate_splitOn sep
  rw [← hsplit]
  exact hjoin _ hparts

/-- More marks accept more bytes. -/
theorem isOf_mono {more : List Char} (hsub : marks ⊆ more) (h : isOf marks b = true) :
    isOf more b = true := by
  rw [isOf, Bool.or_eq_true, List.any_eq_true] at h ⊢
  rcases h with h | ⟨c, hc, hb⟩
  · exact .inl h
  · exact .inr ⟨c, hsub hc, hb⟩

/-- A letter or a digit is a byte of a URI. -/
theorem isUriByte_of_alphanum (h : isAlphanum b = true) : isUriByte b = true := by
  rw [isUriByte, isOf, h, Bool.true_or]

/-- So is a digit. -/
theorem isUriByte_of_digit (h : isDigit b = true) : isUriByte b = true := by
  apply isUriByte_of_alphanum
  rw [isAlphanum, h, Bool.or_true]

/-- So is a hexadecimal digit. -/
theorem isUriByte_of_hexdig (h : isHexdig b = true) : isUriByte b = true := by
  rw [isHexdig, Bool.or_eq_true, Bool.or_eq_true] at h
  apply isUriByte_of_alphanum
  simp only [isAlphanum, isAlpha, isDigit, Bool.or_eq_true, Bool.and_eq_true,
    decide_eq_true_eq] at h ⊢
  simp only [UInt8.le_iff_toNat_le] at h ⊢
  simp only [UInt8.reduceToNat] at h ⊢
  omega

/-- Bytes of a kind of which all are bytes of URIs are such bytes. -/
theorem all_of_all {kind : UInt8 → Bool} (hkind : ∀ b, kind b = true → isUriByte b = true)
    (h : text.all kind = true) : text.all isUriByte = true := by
  rw [List.all_eq_true] at h ⊢
  intro b hb
  apply hkind
  exact h b hb

/-- Escaped text is made of bytes of URIs. -/
theorem all_of_isEscapedText (hsub : marks ⊆ uriMarks) (h : isEscapedText marks text = true) :
    text.all isUriByte = true := by
  induction text using isEscapedText.induct with
  | case1 => rfl
  | case2 high low rest ih =>
    rw [isEscapedText, if_pos rfl, Bool.and_eq_true, Bool.and_eq_true] at h
    obtain ⟨⟨hhigh, hlow⟩, hrest⟩ := h
    rw [List.all_cons, List.all_cons, List.all_cons, isUriByte_of_hexdig hhigh,
      isUriByte_of_hexdig hlow, ih hrest]
    decide
  | case3 rest hrest =>
    rw [isEscapedText, if_pos rfl] at h
    · cases h
    · exact hrest
  | case4 b rest hb ih =>
    unfold isEscapedText at h
    rw [if_neg hb, Bool.and_eq_true] at h
    rw [List.all_cons, isUriByte, isOf_mono hsub h.1, ih h.2, Bool.true_and]

/-- Such a list of marks, told by running through it. -/
theorem subset_uriMarks (h : marks.all (uriMarks.contains ·) = true) : marks ⊆ uriMarks :=
  fun c hc ↦ List.contains_iff_mem.mp (List.all_eq_true.mp h c hc)

/-- Letters, digits and such marks are bytes of URIs. -/
theorem all_of_isOf (hsub : marks ⊆ uriMarks) (h : text.all (isOf marks) = true) :
    text.all isUriByte = true :=
  all_of_all (fun _ ↦ isOf_mono hsub) h

/-- What holds of each part of a text holds of its bytes. -/
theorem all_parts (sep : UInt8) {part : List UInt8 → Bool} (hsep : isUriByte sep = true)
    (hpart : ∀ text, part text = true → text.all isUriByte = true)
    (h : (text.splitOn sep).all part = true) : text.all isUriByte = true :=
  all_of_splitOn sep hsep fun text htext ↦ hpart text (List.all_eq_true.mp h text htext)

/-- All but the last, or the last. -/
theorem mem_dropLast_or {α : Type} {l : List α} {a last : α} (hlast : l.getLast? = some last)
    (ha : a ∈ l) : a ∈ l.dropLast ∨ a = last := by
  obtain ⟨front, rfl⟩ := List.getLast?_eq_some_iff.mp hlast
  rw [List.dropLast_concat]
  exact (List.mem_append.mp ha).imp id List.mem_singleton.mp

/-- What holds of what follows a cut holds of its bytes. -/
theorem all_behind {behind : Option (List UInt8)} {part : List UInt8 → Bool}
    (hpart : ∀ text, part text = true → text.all isUriByte = true)
    (h : behind.all part = true) : behind.all (·.all isUriByte) = true := by
  cases behind with
  | none => rfl
  | some text => exact hpart text h

/-- What is there and is such is such where it is there. -/
theorem all_of_any {behind : Option (List UInt8)} {part : List UInt8 → Bool}
    (h : behind.any part = true) : behind.all part = true := by
  cases behind with
  | none => rfl
  | some text => exact h

/-- A label of a host is made of bytes of URIs. -/
theorem all_of_isDomainlabel (h : isDomainlabel text = true) : text.all isUriByte = true := by
  rw [isDomainlabel, Bool.and_eq_true] at h
  exact all_of_isOf (subset_uriMarks (by decide)) h.2

/-- So is the name of a host. -/
theorem all_of_isHostname (h : isHostname text = true) : text.all isUriByte = true := by
  simp only [isHostname, Bool.and_eq_true] at h
  apply all_of_splitOn 0x2E (by decide)
  intro label hlabel
  by_cases hempty : label = []
  · rw [hempty]
    rfl
  · apply all_of_isDomainlabel
    apply List.all_eq_true.mp h.1
    split
    · next hlast =>
      exact (mem_dropLast_or hlast hlabel).resolve_right hempty
    · exact hlabel

/-- So is an IPv4 address. -/
theorem all_of_isIpv4address (h : isIpv4address text = true) : text.all isUriByte = true := by
  rw [isIpv4address, Bool.and_eq_true] at h
  apply all_parts 0x2E (by decide) ?_ h.2
  intro part hpart
  rw [Bool.and_eq_true] at hpart
  exact all_of_all (fun _ ↦ isUriByte_of_digit) hpart.2

/-- So is a word of an IPv6 address. -/
theorem all_of_isH16 (h : isH16 text = true) : text.all isUriByte = true := by
  rw [isH16, Bool.and_eq_true] at h
  exact all_of_all (fun _ ↦ isUriByte_of_hexdig) h.2

/-- So are some words between colons. -/
theorem all_of_ipv6Words {endsInIpv4 : Bool} {n : Nat}
    (h : ipv6Words endsInIpv4 text = some n) : text.all isUriByte = true := by
  simp only [ipv6Words] at h
  split at h
  · next hempty =>
    rw [hempty]
    rfl
  · split at h
    · next hwords => exact all_parts 0x3A (by decide) (fun _ ↦ all_of_isH16) hwords
    · split at h
      · next hmixed =>
        rw [Bool.and_eq_true, Bool.and_eq_true, Option.any_eq_true] at hmixed
        obtain ⟨⟨-, hfront⟩, last, hlast, hipv4⟩ := hmixed
        apply all_of_splitOn 0x3A (by decide)
        intro group hgroup
        rcases mem_dropLast_or hlast hgroup with hgroup | rfl
        · exact all_of_isH16 (List.all_eq_true.mp hfront group hgroup)
        · exact all_of_isIpv4address hipv4
      · cases h

/-- So is an IPv6 address. -/
theorem all_of_isIpv6address (h : isIpv6address text = true) : text.all isUriByte = true := by
  rw [isIpv6address, Bool.or_eq_true] at h
  rcases h with h | h
  · exact all_of_ipv6Words (of_decide_eq_true h)
  · obtain ⟨i, -, h⟩ := List.any_eq_true.mp h
    rw [Bool.and_eq_true] at h
    rw [Option.any_eq_true] at h
    obtain ⟨hcolons, before, hbefore, h⟩ := h
    obtain ⟨behind, hbehind, -⟩ := (Option.any_eq_true _ _).mp h
    rw [← List.take_append_drop i text, List.all_append, all_of_ipv6Words hbefore,
      ← List.take_append_drop 2 (text.drop i), List.all_append, of_decide_eq_true hcolons,
      List.drop_drop, all_of_ipv6Words hbehind]
    decide

/-- So is the port. -/
theorem all_of_isPort (h : isPort text = true) : text.all isUriByte = true := by
  rw [isPort, Bool.and_eq_true] at h
  exact all_of_all (fun _ ↦ isUriByte_of_digit) h.2

/-- So is a host with its port. -/
theorem all_of_isHostport (h : isHostport text = true) : text.all isUriByte = true := by
  rw [isHostport] at h
  split at h
  · next hhead =>
    obtain ⟨rest, rfl⟩ := List.head?_eq_some_iff.mp hhead
    rw [Bool.and_eq_true, Option.any_eq_true] at h
    obtain ⟨haddress, port, hcut, hport⟩ := h
    rw [List.tail_cons] at haddress hcut
    rw [List.all_cons, all_of_cut 0x5D (by decide) (all_of_isIpv6address haddress)]
    · decide
    · rw [hcut, Option.all_some]
      rw [Bool.or_eq_true, Bool.and_eq_true] at hport
      rcases hport with hport | ⟨hcolon, hport⟩
      · rw [of_decide_eq_true hport]
        rfl
      · obtain ⟨digits, rfl⟩ := List.head?_eq_some_iff.mp (of_decide_eq_true hcolon)
        rw [List.tail_cons] at hport
        rw [List.all_cons, all_of_isPort hport]
        decide
  · rw [Bool.and_eq_true, Bool.or_eq_true] at h
    obtain ⟨hhost, hport⟩ := h
    apply all_of_cut 0x3A (by decide)
    · exact hhost.elim all_of_isHostname all_of_isIpv4address
    · exact all_behind (fun _ ↦ all_of_isPort) hport

/-- So is a user with a password. -/
theorem all_of_isUserinfo (h : isUserinfo text = true) : text.all isUriByte = true := by
  rw [isUserinfo, Bool.and_eq_true, Bool.and_eq_true] at h
  apply all_of_cut 0x3A (by decide)
  · exact all_of_isEscapedText (subset_uriMarks (by decide)) h.1.2
  · exact all_behind (fun _ ↦ all_of_isEscapedText (subset_uriMarks (by decide))) h.2

/-- So is a parameter. -/
theorem all_of_isUriParameter (h : isUriParameter text = true) : text.all isUriByte = true := by
  simp only [isUriParameter, Bool.and_eq_true] at h
  apply all_of_cut 0x3D (by decide)
  · exact all_of_isEscapedText (subset_uriMarks (by decide)) h.1.2
  · apply all_behind ?_ h.2
    intro value hvalue
    rw [Bool.and_eq_true, Bool.or_eq_true, Bool.and_eq_true] at hvalue
    rcases hvalue.2 with hvalue | ⟨-, hvalue⟩
    · exact all_of_isEscapedText (subset_uriMarks (by decide)) hvalue
    · exact all_of_isOf (subset_uriMarks (by decide)) hvalue

/-- So is a header. -/
theorem all_of_isHeader (h : isHeader text = true) : text.all isUriByte = true := by
  rw [isHeader, Bool.and_eq_true, Bool.and_eq_true] at h
  apply all_of_cut 0x3D (by decide)
  · exact all_of_isEscapedText (subset_uriMarks (by decide)) h.1.2
  · exact all_behind (fun _ ↦ all_of_isEscapedText (subset_uriMarks (by decide)))
      (all_of_any h.2)

/-- So is what follows the user. -/
theorem all_of_isHostPart (h : isHostPart text = true) : text.all isUriByte = true := by
  simp only [isHostPart, Bool.and_eq_true] at h
  obtain ⟨⟨hhost, hparameters⟩, hheaders⟩ := h
  apply all_of_cut 0x3F (by decide)
  · apply all_of_cut 0x3B (by decide)
    · exact all_of_isHostport hhost
    · exact all_behind (fun _ ↦ all_parts 0x3B (by decide) fun _ ↦ all_of_isUriParameter)
        hparameters
  · exact all_behind (fun _ ↦ all_parts 0x26 (by decide) fun _ ↦ all_of_isHeader) hheaders

/-- So is what follows the scheme. -/
theorem all_of_isSchemePart (h : isSchemePart text = true) : text.all isUriByte = true := by
  rw [isSchemePart] at h
  split at h
  · rw [Bool.and_eq_true] at h
    apply all_of_cut 0x40 (by decide) (all_of_isUserinfo h.1)
    exact all_behind (fun _ ↦ all_of_isHostPart) (all_of_any h.2)
  · exact all_of_isHostPart h

/-- So is a word of letters. -/
theorem all_of_isText {word : String} (hword : word.toList.all (isAlpha ·.toUInt8) = true)
    (h : isText word text = true) : text.all isUriByte = true := by
  rw [List.all_eq_true] at hword ⊢
  intro b hb
  apply isUriByte_of_alphanum
  have hmem : lowered b ∈ word.toList.map Char.toUInt8 := by
    rw [← of_decide_eq_true h]
    exact List.mem_map_of_mem hb
  obtain ⟨c, hc, heq⟩ := List.mem_map.mp hmem
  have halpha := hword c hc
  rw [heq, lowered] at halpha
  rw [isAlphanum, Bool.or_eq_true]
  left
  split at halpha
  · next hcapital => simp [isAlpha, hcapital]
  · exact halpha

/-- A URI is made of bytes of URIs. -/
theorem all_of_isSipUri {uri : List UInt8} (h : isSipUri uri = true) :
    uri.all isUriByte = true := by
  rw [isSipUri, Bool.and_eq_true, Bool.or_eq_true] at h
  apply all_of_cut 0x3A (by decide)
  · exact h.1.elim (all_of_isText (by decide)) (all_of_isText (by decide))
  · exact all_behind (fun _ ↦ all_of_isSchemePart) (all_of_any h.2)

end Bytes

end PacketDial.Lib.SipUri
