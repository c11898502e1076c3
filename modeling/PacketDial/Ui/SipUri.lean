import Mathlib.Data.Bool.AllAny
import PacketDial.Lib.Patterns
import PacketDial.Lib.Replacements
import PacketDial.Ui.Text

/-!
# Numbers, domains and names out of SIP addresses

`SipUriUtils.extractDomain` and `extractNumber` (`app_flutter/lib/core/sip_uri_utils.dart:57–125`)
take the text in the first angle brackets, cut it at a semicolon, take the scheme off and divide it
at an at sign; `friendlyName` prefers a quoted name in front. An address with a display name has
that name in front of the brackets.
-/

namespace PacketDial.Ui

open PacketDial.Core PacketDial.Lib

/-- `RegExp(r'<([^>]+)>')`. -/
def anglePattern : List (Piece Char) := [.only '<', .many (· ≠ '>'), .only '>']

/-- The text in the first angle brackets, or the text itself (`sip_uri_utils.dart:65–69`). -/
def stripAngles (input : List Char) : List Char :=
  match search anglePattern input with
  | some (_, texts, _) => group 1 1 texts
  | none => input

/-- What comes before the first semicolon, unless that is nothing (`sip_uri_utils.dart:72–75`). -/
def stripParameters (input : List Char) : List Char :=
  match input.idxOf? ';' with
  | some (semiIdx + 1) => input.take (semiIdx + 1)
  | _ => input

/-- `toLowerCase().startsWith(scheme)`: no other character is one of a scheme in lower case. -/
def hasScheme (scheme : String) (input : List Char) : Bool :=
  scheme.toList.isPrefixOf (input.map asciiLower)

/-- What follows the scheme (`sip_uri_utils.dart:78–82`). -/
def stripScheme (input : List Char) : List Char :=
  if hasScheme "sip:" input then input.drop 4
  else if hasScheme "sips:" input then input.drop 5
  else input

/-- What the functions divide (`sip_uri_utils.dart:28–45`, `63–82`, `98–117`). -/
def addressOf (raw : String) : List Char :=
  stripScheme (stripParameters (stripAngles (dartTrim raw).toList))

/-- `extractDomain` (`sip_uri_utils.dart:60–90`). -/
def extractDomain : Option String → Option String
  | none => none
  | some raw =>
    if raw = "" then none
    else
      let input := addressOf raw
      match input.idxOf? '@' with
      | some atIdx =>
        if atIdx < input.length - 1 then some (String.ofList (input.drop (atIdx + 1))) else none
      | none => none

/-- `extractNumber` (`sip_uri_utils.dart:95–125`). -/
def extractNumber : Option String → Option String
  | none => none
  | some raw =>
    if raw = "" then none
    else
      let input := addressOf raw
      match input.idxOf? '@' with
      | some (atIdx + 1) => some (String.ofList (input.take (atIdx + 1)))
      | _ => if input ≠ [] then some (String.ofList input) else none

/-- `_tryFormatPhone` (`sip_uri_utils.dart:127–153`). The national form of a valid phone number
comes from the phone number library. -/
def tryFormatPhone (formatNsn : String → Option String) (input : String) : String :=
  if (input.toList.filter Char.isDigit).length < 3 then input
  else if startsWith input "+" ∨ input.toList.head?.any Char.isDigit then
    (formatNsn input).getD input
  else input

/-- `RegExp(r'^"([^"]+)"')`. -/
def quotedPattern : List (Piece Char) := [.only '"', .many (· ≠ '"'), .only '"']

/-- `friendlyName` (`sip_uri_utils.dart:16–55`). -/
def friendlyName (formatNsn : String → Option String) : Option String → String
  | none => "Unknown"
  | some raw =>
    if raw = "" then "Unknown"
    else
      match matchAt quotedPattern (dartTrim raw).toList with
      | some (texts, _) => dartTrim (String.ofList (group 1 1 texts))
      | none =>
        let input := addressOf raw
        let user :=
          match input.idxOf? '@' with
          | some (atIdx + 1) => input.take (atIdx + 1)
          | _ => input
        let formatted := tryFormatPhone formatNsn (String.ofList user)
        if formatted ≠ "" then formatted else "Unknown"

/-- An address with a display name: the user may hold parameters of its own, and the parameters of
the URI and of the header field follow. -/
structure NameAddr where
  displayName : List Char
  user : List Char
  host : List Char
  params : List (List Char)
  hparams : List (List Char)
  user_ne : user ≠ []
  user_plain : ∀ c ∈ user, c ∉ ['@', '<', '>', '"']
  host_ne : host ≠ []
  host_plain : ∀ c ∈ host, c ∉ ['@', ';', '<', '>', '"']
  params_plain : ∀ p ∈ params, '>' ∉ p

/-- A display name between quotes, with the quotes in it escaped. -/
def quoted (displayName : List Char) : List Char :=
  '"' :: (displayName.flatMap fun c ↦ if c = '"' then ['\\', '"'] else [c]) ++ ['"']

/-- What stands in the brackets of an address. -/
def NameAddr.uri (a : NameAddr) : List Char :=
  "sip:".toList ++ (a.user ++ '@' :: a.host) ++ a.params.flatMap (';' :: ·)

/-- An address as it is printed. -/
def NameAddr.print (a : NameAddr) : List Char :=
  quoted a.displayName ++ (' ' :: '<' :: (a.uri ++ '>' :: a.hparams.flatMap (';' :: ·)))

/-- What follows the first opening bracket that no closing one follows at once. -/
def bracketed : List Char → Option (List Char)
  | [] => none
  | c :: rest => if c = '<' ∧ rest.head? ≠ some '>' then some rest else bracketed rest

/-- The text in front of the first closing bracket, or all of it. -/
def untilBracket (text : List Char) : List Char := text.takeWhile (· ≠ '>')

/-- A text in which the pattern may find brackets of its own: what it finds there. -/
def decoy (text : List Char) : Option (List Char) := (bracketed text).map untilBracket

/-- The address is read as it is meant: the display name opens no bracket, other than one closed at
once, and the user has no semicolon; or the name itself spells the same user and host in brackets.
-/
def NameAddr.Readable (a : NameAddr) : Prop :=
  match decoy (quoted a.displayName) with
  | none => ';' ∉ a.user
  | some text => stripScheme (stripParameters text) = a.user ++ '@' :: a.host

/-- The place of the first of an entry. -/
theorem idxOf?_append_cons {a : List Char} {c : Char} (h : c ∉ a) (b : List Char) :
    (a ++ c :: b).idxOf? c = some a.length := by
  induction a with
  | nil => simp [List.idxOf?_cons]
  | cons d a ih =>
    have hne : (d == c) = false := beq_false_of_ne (List.ne_of_not_mem_cons h).symm
    rw [List.cons_append, List.idxOf?_cons, hne, ih (List.not_mem_of_not_mem_cons h)]
    rfl

section Brackets

variable {inner rest text : List Char}

/-- The pattern takes what is in brackets. -/
theorem matchAt_anglePattern (hne : inner ≠ []) (hinner : '>' ∉ inner) :
    matchAt anglePattern ('<' :: (inner ++ '>' :: rest)) = some ([['<'], inner, ['>']], rest) := by
  have hend : matchAt [] rest = some ([], rest) := rfl
  have hclose := matchAt_only (a := '>') hend
  have hmany : matchAt [.many (· ≠ '>'), .only '>'] (inner ++ '>' :: rest) =
      some ([inner, ['>']], rest) := by
    refine matchAt_many hne ?_ ?_ hclose
    · intro c hc
      exact decide_eq_true (ne_of_mem_of_not_mem hc hinner)
    · intro c hc
      rw [← Option.some.inj hc]
      decide
  exact matchAt_only hmany

/-- It takes no brackets with nothing between them. -/
theorem matchAt_anglePattern_closed (rest : List Char) :
    matchAt anglePattern ('<' :: '>' :: rest) = none :=
  matchAt_only_eq_none (matchAt_eq_none (by decide) (by decide) _ rest)

/-- What comes before a closing bracket. -/
theorem untilBracket_append_cons (h : '>' ∉ inner) (rest : List Char) :
    untilBracket (inner ++ '>' :: rest) = inner := by
  have hinner : ∀ c ∈ inner, decide (c ≠ '>') = true :=
    fun c hc ↦ decide_eq_true (ne_of_mem_of_not_mem hc h)
  rw [untilBracket, List.takeWhile_append_of_pos hinner, List.takeWhile_cons_of_neg (by decide),
    List.append_nil]

/-- The pattern takes the text between the first opening bracket that no closing one follows at
once and the closing one after it. -/
theorem stripAngles_of_bracketed (h : bracketed text = some rest) (hclosed : '>' ∈ rest) :
    stripAngles text = untilBracket rest := by
  have hsearch : ∃ front back,
      search anglePattern text = some (front, [['<'], untilBracket rest, ['>']], back) := by
    induction text with
    | nil => cases h
    | cons c text ih =>
      rw [bracketed] at h
      split at h
      · next hopen =>
        cases h
        obtain ⟨back, hback⟩ : ∃ back, rest = untilBracket rest ++ '>' :: back := by
          obtain ⟨a, b, hrest, ha⟩ := List.eq_append_cons_of_mem hclosed
          exact ⟨b, by rw [hrest, untilBracket_append_cons ha]⟩
        have hne : untilBracket rest ≠ [] := by
          intro hnil
          rw [hnil] at hback
          exact hopen.2 (by rw [hback]; rfl)
        have hinner : '>' ∉ untilBracket rest := fun hmem ↦ by
          simpa using List.mem_takeWhile_imp hmem
        have hmatch : matchAt anglePattern ('<' :: rest) =
            some ([['<'], untilBracket rest, ['>']], back) := by
          conv_lhs => rw [hback]
          exact matchAt_anglePattern hne hinner
        rw [hopen.1]
        exact ⟨[], back, search_of_matchAt hmatch⟩
      · next hopen =>
        obtain ⟨front, back, hfound⟩ := ih h
        have hnone : matchAt anglePattern (c :: text) = none := by
          by_cases hc : c = '<'
          · have hhead : text.head? = some '>' := by
              by_contra hhead
              exact hopen ⟨hc, hhead⟩
            obtain ⟨text', rfl⟩ := List.head?_eq_some_iff.mp hhead
            rw [hc, matchAt_anglePattern_closed]
          · exact matchAt_eq_none (by decide) (decide_eq_false hc) _ text
        exact ⟨c :: front, back, by rw [search_cons hnone, hfound]; rfl⟩
  obtain ⟨front, back, hfound⟩ := hsearch
  rw [stripAngles, hfound]
  simp [group]

/-- A text that does not end in an opening bracket has what follows it behind what it opens. -/
theorem bracketed_append {e : Char} (he : e ≠ '<') (text after : List Char) :
    bracketed (text ++ e :: after) =
      ((bracketed (text ++ [e])).map (· ++ after)).or (bracketed after) := by
  induction text with
  | nil => simp [bracketed, he]
  | cons c text ih =>
    have hhead : (text ++ e :: after).head? = (text ++ [e]).head? := by
      cases text <;> rfl
    rw [List.cons_append, List.cons_append, bracketed, bracketed, hhead]
    split
    · simp
    · exact ih

/-- What an opening bracket opens goes on to the last character, if that is another. -/
theorem mem_of_bracketed {e : Char} (he : e ≠ '<') (h : bracketed (text ++ [e]) = some rest) :
    e ∈ rest := by
  induction text with
  | nil => simp [bracketed, he] at h
  | cons c text ih =>
    rw [List.cons_append, bracketed] at h
    split at h
    · cases h
      exact List.mem_append_right text List.mem_cons_self
    · exact ih h

/-- A text without closing brackets is what comes before one behind it. -/
theorem untilBracket_append (h : '>' ∉ text) (after : List Char) :
    untilBracket (text ++ after) = text ++ untilBracket after :=
  List.takeWhile_append_of_pos fun _ hc ↦ decide_eq_true (ne_of_mem_of_not_mem hc h)

end Brackets

section Cuts

variable {a b text : List Char}

/-- What comes before a semicolon is left, if it is something. -/
theorem stripParameters_append_cons (ha : ';' ∉ a) (hne : a ≠ []) (b : List Char) :
    stripParameters (a ++ ';' :: b) = a := by
  obtain ⟨n, hn⟩ := Nat.exists_eq_succ_of_ne_zero (List.length_pos_of_ne_nil hne).ne'
  rw [stripParameters, idxOf?_append_cons ha, hn]
  exact List.take_left' hn

/-- A text without semicolons is left as it is, and so is one that begins with one. -/
theorem stripParameters_eq_self (h : ';' ∈ text → text.head? = some ';') :
    stripParameters text = text := by
  cases hidx : text.idxOf? ';' with
  | none => rw [stripParameters, hidx]
  | some n =>
    have hmem : ';' ∈ text := by
      rw [← List.isSome_idxOf?, hidx]
      rfl
    obtain ⟨rest, rfl⟩ := List.head?_eq_some_iff.mp (h hmem)
    rw [stripParameters, List.idxOf?_cons]
    rfl

/-- More text behind is cut with what it follows, or all of that is left. -/
theorem stripParameters_append (text more : List Char) :
    stripParameters (text ++ more) = stripParameters text ∨
      stripParameters text = text ∧ ∃ left, stripParameters (text ++ more) = text ++ left := by
  by_cases hmem : ';' ∈ text
  · obtain ⟨a, b, rfl, ha⟩ := List.eq_append_cons_of_mem hmem
    by_cases hne : a = []
    · subst hne
      exact .inr ⟨stripParameters_eq_self fun _ ↦ rfl, more, stripParameters_eq_self fun _ ↦ rfl⟩
    · rw [List.append_assoc, List.cons_append, stripParameters_append_cons ha hne,
        stripParameters_append_cons ha hne]
      exact .inl rfl
  · refine .inr ⟨stripParameters_eq_self fun h ↦ absurd h hmem, ?_⟩
    by_cases hmore : ';' ∈ more
    · obtain ⟨a, b, rfl, ha⟩ := List.eq_append_cons_of_mem hmore
      rw [← List.append_assoc]
      by_cases hne : text ++ a = []
      · rw [hne]
        refine ⟨';' :: b, ?_⟩
        rw [(List.append_eq_nil_iff.mp hne).1]
        exact stripParameters_eq_self fun _ ↦ rfl
      · refine ⟨a, stripParameters_append_cons ?_ hne b⟩
        rw [List.mem_append]
        exact not_or.mpr ⟨hmem, ha⟩
    · refine ⟨more, stripParameters_eq_self fun h ↦ ?_⟩
      exact absurd (List.mem_append.mp h) (not_or.mpr ⟨hmem, hmore⟩)

/-- Quotes are no part of a scheme. -/
theorem quote_mem_stripScheme (h : '"' ∈ text) : '"' ∈ stripScheme text := by
  have hlower : asciiLower '"' = '"' := by decide
  have hdrop (scheme : String) (hscheme : '"' ∉ scheme.toList)
      (hhas : hasScheme scheme text = true) : '"' ∈ text.drop scheme.length := by
    obtain ⟨after, hafter⟩ := List.isPrefixOf_iff_prefix.mp hhas
    have htake : (text.take scheme.length).map asciiLower = scheme.toList := by
      rw [List.map_take, ← hafter, ← String.length_toList, List.take_left]
    rw [← List.take_append_drop scheme.length text, List.mem_append] at h
    refine h.resolve_left fun hmem ↦ hscheme ?_
    rw [← htake, ← hlower]
    exact List.mem_map_of_mem hmem
  unfold stripScheme
  split
  · next hsip => exact hdrop "sip:" (by decide) hsip
  · split
    · next hsips => exact hdrop "sips:" (by decide) hsips
    · exact h

end Cuts

section Division

variable {raw : String} {user host : List Char}

/-- The two functions find a user and a host just if that is what they divide. -/
theorem extract_iff (hraw : raw ≠ "") (huser : user ≠ []) (hat : '@' ∉ user) (hhost : host ≠ []) :
    (extractNumber (some raw) = some (String.ofList user) ∧
        extractDomain (some raw) = some (String.ofList host)) ↔
      addressOf raw = user ++ '@' :: host := by
  simp only [extractNumber, extractDomain, if_neg hraw]
  generalize addressOf raw = input
  by_cases hmem : '@' ∈ input
  · obtain ⟨a, b, rfl, ha⟩ := List.eq_append_cons_of_mem hmem
    rw [idxOf?_append_cons ha, append_cons_inj ha hat]
    cases a with
    | nil =>
      refine iff_of_false (fun h ↦ ?_) fun h ↦ huser h.1.symm
      have hnumber := h.1
      simp only [List.nil_append, List.length_nil, if_pos (List.cons_ne_nil '@' b)] at hnumber
      have heq := String.ofList_inj.mp (Option.some.inj hnumber)
      exact hat (heq ▸ List.mem_cons_self)
    | cons c a =>
      by_cases hb : b = []
      · subst hb
        refine iff_of_false (by simp) fun h ↦ hhost h.2.symm
      · have hlt : a.length + 1 < (c :: a ++ '@' :: b).length - 1 := by
          have hpos := List.length_pos_of_ne_nil hb
          simp only [List.length_append, List.length_cons]
          omega
        have htake : (c :: a ++ '@' :: b).take (a.length + 1) = c :: a := List.take_left' rfl
        have hdrop : (c :: a ++ '@' :: b).drop (a.length + 1 + 1) = b := by
          have hsplit : c :: a ++ '@' :: b = (c :: a ++ ['@']) ++ b := by simp
          rw [hsplit]
          exact List.drop_left' (by simp)
        simp only [List.length_cons]
        rw [if_pos hlt, htake, hdrop, Option.some_inj, Option.some_inj, String.ofList_inj,
          String.ofList_inj]
  · have hnone : input.idxOf? '@' = none := List.idxOf?_eq_none_iff.mpr hmem
    rw [hnone]
    refine iff_of_false (by simp) ?_
    rintro rfl
    exact hmem (by simp)

end Division

namespace NameAddr

variable (a : NameAddr)

theorem semicolon_notMem_host : ';' ∉ a.host := fun h ↦ a.host_plain ';' h (by decide)

theorem at_notMem_user : '@' ∉ a.user := fun h ↦ a.user_plain '@' h (by decide)

/-- No bracket is closed in what stands in the brackets of an address. -/
theorem close_notMem_uri : '>' ∉ a.uri := by
  have hparams : '>' ∉ a.params.flatMap (';' :: ·) := by
    rw [List.mem_flatMap]
    rintro ⟨p, hp, hmem⟩
    obtain h | h := List.mem_cons.mp hmem
    · exact absurd h (by decide)
    · exact a.params_plain p hp h
  have huser : '>' ∉ a.user := fun h ↦ a.user_plain '>' h (by decide)
  have hhost : '>' ∉ a.host := fun h ↦ a.host_plain '>' h (by decide)
  simp [uri, hparams, huser, hhost]

/-- What stands in the brackets of an address is read as it is meant just if the user has no
semicolon. -/
theorem readable_uri : stripScheme (stripParameters a.uri) = a.user ++ '@' :: a.host ↔
    ';' ∉ a.user := by
  have hscheme (x : List Char) : stripScheme ("sip:".toList ++ x) = x := rfl
  by_cases huser : ';' ∈ a.user
  · obtain ⟨c, d, hcd, hc⟩ := List.eq_append_cons_of_mem huser
    have huri : a.uri = ("sip:".toList ++ c) ++
        ';' :: (d ++ '@' :: a.host ++ a.params.flatMap (';' :: ·)) := by
      simp [uri, hcd]
    have hplain : ';' ∉ "sip:".toList ++ c := by
      rw [List.mem_append]
      exact not_or.mpr ⟨by decide, hc⟩
    rw [huri, stripParameters_append_cons hplain (by simp), hscheme]
    refine iff_of_false (fun h ↦ ?_) (fun h ↦ h huser)
    have hlength := congrArg List.length h
    rw [hcd] at hlength
    simp only [List.length_append, List.length_cons] at hlength
    omega
  · have hplain : ';' ∉ "sip:".toList ++ (a.user ++ '@' :: a.host) := by
      simp [huser, a.semicolon_notMem_host]
    refine iff_of_true ?_ huser
    rw [uri]
    cases a.params with
    | nil =>
      rw [List.flatMap_nil, List.append_nil, stripParameters_eq_self fun h ↦ absurd h hplain,
        hscheme]
    | cons p ps =>
      rw [List.flatMap_cons, List.cons_append, stripParameters_append_cons hplain (by simp),
        hscheme]

/-- The trimmed address begins like the printed one. -/
theorem dartTrim_print : ∃ tail, (dartTrim (String.ofList a.print)).toList =
    quoted a.displayName ++ (' ' :: '<' :: (a.uri ++ '>' :: tail)) := by
  generalize hfront : quoted a.displayName ++ (' ' :: '<' :: (a.uri ++ ['>'])) = front
  have hclean : Clean isDartWhitespace front := by
    rw [← hfront]
    constructor
    · intro c hc
      rw [← Option.some.inj hc]
      decide
    · intro c hc
      rw [List.getLast?_append, List.getLast?_cons_cons, ← List.cons_append,
        List.getLast?_append] at hc
      rw [← Option.some.inj hc]
      decide
  have hprint : a.print = front ++ a.hparams.flatMap (';' :: ·) := by
    simp [print, ← hfront]
  have hne : front ≠ [] := by
    rw [← hfront]
    exact List.cons_ne_nil _ _
  obtain ⟨tail, htail⟩ := exists_strip_append hclean hne (a.hparams.flatMap (';' :: ·))
  refine ⟨tail, ?_⟩
  rw [dartTrim, String.toList_ofList, String.toList_ofList, hprint, htail]
  simp [← hfront]

/-- What is read of an address. -/
theorem addressOf_print_iff : addressOf (String.ofList a.print) = a.user ++ '@' :: a.host ↔
    a.Readable := by
  obtain ⟨tail, htrim⟩ := a.dartTrim_print
  generalize hafter : ' ' :: '<' :: (a.uri ++ '>' :: tail) = after at htrim
  have hopens : bracketed after = some (a.uri ++ '>' :: tail) := by
    rw [← hafter]
    simp [bracketed, uri]
  have hclosed : '>' ∈ a.uri ++ '>' :: tail := List.mem_append_right _ List.mem_cons_self
  have htext : bracketed (quoted a.displayName ++ after) =
      ((bracketed (quoted a.displayName)).map (· ++ after)).or (bracketed after) := by
    rw [quoted, List.append_assoc, List.singleton_append]
    exact bracketed_append (by decide) _ after
  rw [addressOf, htrim, Readable, decoy]
  cases hname : bracketed (quoted a.displayName) with
  | none =>
    rw [hname, hopens] at htext
    rw [stripAngles_of_bracketed htext hclosed, untilBracket_append_cons a.close_notMem_uri]
    exact a.readable_uri
  | some rest =>
    rw [hname, Option.map_some, Option.some_or] at htext
    have hclosed' : '>' ∈ rest ++ after := by
      rw [← hafter]
      simp
    rw [stripAngles_of_bracketed htext hclosed', Option.map_some]
    by_cases hrest : '>' ∈ rest
    · obtain ⟨b, c, rfl, hb⟩ := List.eq_append_cons_of_mem hrest
      rw [List.append_assoc, List.cons_append, untilBracket_append_cons hb,
        untilBracket_append_cons hb]
    · -- The quote that ends the name stays, unless the text is cut before it.
      have hquote : '"' ∈ rest := mem_of_bracketed (by decide) hname
      have hplain : '"' ∉ a.user ++ '@' :: a.host := by
        have huser : '"' ∉ a.user := fun h ↦ a.user_plain '"' h (by decide)
        have hhost : '"' ∉ a.host := fun h ↦ a.host_plain '"' h (by decide)
        simp [huser, hhost]
      have hself : untilBracket rest = rest := by
        simpa [untilBracket] using untilBracket_append hrest []
      rw [untilBracket_append hrest, hself]
      obtain hcut | ⟨hcut, left, hleft⟩ := stripParameters_append rest (untilBracket after)
      · rw [hcut]
      · rw [hleft]
        dsimp only
        rw [hcut]
        refine iff_of_false (fun h ↦ hplain ?_) (fun h ↦ hplain ?_)
        · rw [← h]
          exact quote_mem_stripScheme (List.mem_append_left left hquote)
        · rw [← h]
          exact quote_mem_stripScheme hquote

/-- The number and the domain of an address are its user and host just if it is read as it is meant.
-/
theorem extract_print_iff (a : NameAddr) :
    (extractNumber (some (String.ofList a.print)) = some (String.ofList a.user) ∧
        extractDomain (some (String.ofList a.print)) = some (String.ofList a.host)) ↔
      a.Readable := by
  have hraw : String.ofList a.print ≠ "" := by
    intro h
    have hlist := congrArg String.toList h
    rw [String.toList_ofList] at hlist
    cases hlist
  rw [extract_iff hraw a.user_ne a.at_notMem_user a.host_ne, a.addressOf_print_iff]

/-- A caller whose display name is an address in brackets. -/
def spoofing : NameAddr where
  displayName := "<sip:100@bank>".toList
  user := "2000".toList
  host := "pbx".toList
  params := []
  hparams := []
  user_ne := by decide
  user_plain := List.all_iff_forall_prop.mp (by decide)
  host_ne := by decide
  host_plain := List.all_iff_forall_prop.mp (by decide)
  params_plain := by decide

/-- That address is taken for the caller's. -/
theorem extract_spoofing :
    ¬(extractNumber (some (String.ofList spoofing.print)) = some (String.ofList spoofing.user) ∧
      extractDomain (some (String.ofList spoofing.print)) =
        some (String.ofList spoofing.host)) := by
  have hprint : String.ofList spoofing.print ≠ "" := by decide
  rw [extract_iff hprint spoofing.user_ne spoofing.at_notMem_user spoofing.host_ne,
    spoofing.addressOf_print_iff]
  change ¬"100@bank".toList = "2000".toList ++ '@' :: "pbx".toList
  decide

end NameAddr

end PacketDial.Ui
