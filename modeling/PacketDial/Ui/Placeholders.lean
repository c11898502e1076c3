import PacketDial.Lib.Decimal
import PacketDial.Lib.Replacements
import PacketDial.Ui.Integration
import PacketDial.Ui.SipUri

/-!
# URL templates

`IntegrationService` and `ScreenPopService` fill in the placeholders of a URL template, one after
another (`app_flutter/lib/core/integration_service.dart:293–344`,
`app_flutter/lib/core/screen_pop_service.dart:142–178`). The second leaves `%DURATION%` as it is,
and `%CONTACT_LINK%` too unless there is one.
-/

namespace PacketDial.Ui

open PacketDial.Core PacketDial.Lib

/-- A hexadecimal digit. -/
def hexDigit (n : Nat) : Char := (Nat.digitChar n).toUpper

/-- What `Uri.encodeComponent` leaves as it is: letters and digits of ASCII, and a few marks. -/
def isUnreserved (c : Char) : Bool := c.isAlphanum || c ∈ "-_.!~*()".toList || c = '\x27'

/-- `Uri.encodeComponent`. -/
def encodeComponent (component : String) : List Char :=
  component.toList.flatMap fun c ↦
    if isUnreserved c then [c]
    else (String.utf8EncodeChar c).flatMap fun b ↦
      ['%', hexDigit (b.toNat / 16), hexDigit (b.toNat % 16)]

/-- `state.name`. -/
def CallState.name : CallState → String
  | .ringing => "ringing"
  | .inCall => "inCall"
  | .onHold => "onHold"
  | .ended => "ended"

/-- `CustomerData.hasContactLink` (`customer_data.dart:53`). -/
def CustomerData.hasContactLink (data : CustomerData) : Bool := data.contactLink ≠ ""

/-- `resolvedName` (`integration_service.dart:305–308`, `screen_pop_service.dart:154–157`). -/
def resolvedName (formatNsn : String → Option String) (call : ActiveCall)
    (customerData : Option CustomerData) : String :=
  let fallbackName := friendlyName formatNsn (some call.uri)
  match customerData with
  | some data =>
    if dartTrim data.contactName ≠ "" then dartTrim data.contactName else fallbackName
  | none => fallbackName

/-- `replaceAll('%name%', value)`. -/
def placeholder (name : String) (value : List Char) : Placeholder Char := ⟨name.toList, value⟩

/-- The placeholders that both services replace first (`integration_service.dart:311–321`,
`screen_pop_service.dart:161–170`). -/
def sharedPlaceholders (formatNsn : String → Option String) (call : ActiveCall)
    (customerData : Option CustomerData) (extid didNumber : Option String) :
    List (Placeholder Char) :=
  let extractedNumber := (extractNumber (some call.uri)).getD call.uri
  let resolvedCompany := (customerData.map (dartTrim ·.company)).getD ""
  [placeholder "NUMBER" (encodeComponent (dartTrim extractedNumber)),
    placeholder "NAME" (encodeComponent (resolvedName formatNsn call customerData)),
    placeholder "COMPANY" (encodeComponent resolvedCompany),
    placeholder "EXTID" (encodeComponent (extid.getD "")),
    placeholder "DID" (encodeComponent (didNumber.getD "")),
    placeholder "ID" (toString call.callId).toList,
    placeholder "DIRECTION" call.direction.name.toList,
    placeholder "ACCOUNT_ID" call.accountId.toList,
    placeholder "STATE" call.state.name.toList]

/-- `%CONTACT_LINK%` (`integration_service.dart:322–325`). -/
def contactLinkPlaceholder (customerData : Option CustomerData) : Placeholder Char :=
  placeholder "CONTACT_LINK" (encodeComponent ((customerData.map (·.contactLink)).getD ""))

/-- `%DURATION%`, in seconds at the time `now` in milliseconds (`integration_service.dart:327–332`).
-/
def durationPlaceholder (now : Int) (startedAt : Option Int) : Placeholder Char :=
  placeholder "DURATION"
    (match startedAt with
      | some startedAt => (toString ((now - startedAt).tdiv 1000)).toList
      | none => "0".toList)

/-- The placeholders of the recording (`integration_service.dart:334–341`). `lastSegment` is
`Uri.parse(recordingPath).pathSegments.last`, which may throw. -/
def recordPlaceholders (lastSegment : String → Option String) :
    Option String → Option (List (Placeholder Char))
  | none => some []
  | some recordingPath =>
    if recordingPath = "" then some []
    else
      (lastSegment recordingPath).map fun filename ↦
        [placeholder "RECORD" (encodeComponent recordingPath),
          placeholder "RECORDFILENAME" (encodeComponent filename)]

namespace IntegrationService

/-- The placeholders that the service replaces, in its order. -/
def placeholders (formatNsn lastSegment : String → Option String) (now : Int) (call : ActiveCall)
    (customerData : Option CustomerData) (recordingPath extid didNumber : Option String) :
    Option (List (Placeholder Char)) :=
  (recordPlaceholders lastSegment recordingPath).map fun record ↦
    sharedPlaceholders formatNsn call customerData extid didNumber ++
      [contactLinkPlaceholder customerData, durationPlaceholder now call.startedAt] ++ record

/-- `_replacePlaceholders` (`integration_service.dart:293–344`). -/
def replacePlaceholders (formatNsn lastSegment : String → Option String) (now : Int)
    (template : String) (call : ActiveCall) (customerData : Option CustomerData)
    (recordingPath extid didNumber : Option String) : Option String :=
  (placeholders formatNsn lastSegment now call customerData recordingPath extid didNumber).map
    fun ps ↦ String.ofList (replaceInTurn '%' ps template.toList)

end IntegrationService

namespace ScreenPopService

/-- The placeholders that the service replaces, in its order. -/
def placeholders (formatNsn : String → Option String) (call : ActiveCall)
    (customerData : Option CustomerData) (extid didNumber : Option String) :
    List (Placeholder Char) :=
  sharedPlaceholders formatNsn call customerData extid didNumber ++
    if customerData.any (·.hasContactLink) then [contactLinkPlaceholder customerData] else []

/-- `_replacePlaceholders` (`screen_pop_service.dart:142–178`). -/
def replacePlaceholders (formatNsn : String → Option String) (template : String)
    (call : ActiveCall) (customerData : Option CustomerData) (extid didNumber : Option String) :
    String :=
  String.ofList (replaceInTurn '%' (placeholders formatNsn call customerData extid didNumber)
    template.toList)

end ScreenPopService

section Simultaneous

variable {ps : List (Placeholder Char)}

/-- The names of all placeholders. -/
def placeholderNames : List (List Char) :=
  ["NUMBER", "NAME", "COMPANY", "EXTID", "DID", "ID", "DIRECTION", "ACCOUNT_ID", "STATE",
    "CONTACT_LINK", "DURATION", "RECORD", "RECORDFILENAME"].map String.toList

/-- The names differ and are free of percent signs. -/
theorem wellNamed_of_sublist (h : (ps.map (·.name)).Sublist placeholderNames) :
    WellNamed '%' ps := by
  have hall : placeholderNames.all (fun name ↦ name ≠ [] ∧ '%' ∉ name) = true := by decide
  have hdistinct : placeholderNames.Nodup := by decide
  have hplain : ∀ p ∈ ps, p.name ≠ [] ∧ '%' ∉ p.name := by
    intro p hp
    have hmem : p.name ∈ placeholderNames := h.subset (List.mem_map_of_mem hp)
    simpa using List.all_eq_true.mp hall p.name hmem
  exact ⟨fun p hp ↦ (hplain p hp).1, fun p hp ↦ (hplain p hp).2, hdistinct.sublist h⟩

variable {formatNsn lastSegment : String → Option String} {now : Int} {call : ActiveCall}
  {customerData : Option CustomerData} {recordingPath extid didNumber : Option String}

/-- The placeholders that the service replaces have these names, in this order; those of the
recording may be missing. -/
theorem names_sublist
    (h : IntegrationService.placeholders formatNsn lastSegment now call customerData recordingPath
      extid didNumber = some ps) : (ps.map (·.name)).Sublist placeholderNames := by
  obtain ⟨record, hrecord, rfl⟩ := Option.map_eq_some_iff.mp h
  have hnames : record = [] ∨ record.map (·.name) = ["RECORD".toList, "RECORDFILENAME".toList] := by
    unfold recordPlaceholders at hrecord
    split at hrecord
    · cases hrecord
      exact .inl rfl
    · split at hrecord
      · cases hrecord
        exact .inl rfl
      · obtain ⟨filename, -, rfl⟩ := Option.map_eq_some_iff.mp hrecord
        exact .inr rfl
  have hfirst : (sharedPlaceholders formatNsn call customerData extid didNumber ++
      [contactLinkPlaceholder customerData, durationPlaceholder now call.startedAt]).map (·.name) =
        placeholderNames.take 11 := rfl
  rw [List.map_append, hfirst]
  rcases hnames with rfl | hrecord'
  · rw [List.map_nil, List.append_nil]
    exact List.take_sublist 11 placeholderNames
  · rw [hrecord']
    exact List.Sublist.refl placeholderNames

/-- The names of the placeholders differ and are free of percent signs. -/
theorem wellNamed_placeholders
    (h : IntegrationService.placeholders formatNsn lastSegment now call customerData recordingPath
      extid didNumber = some ps) : WellNamed '%' ps :=
  wellNamed_of_sublist (names_sublist h)

end Simultaneous

/-- The texts that the placeholders of a recording stand for, where there is one. The last segment
of its path may not be there. -/
def recordingTexts (lastSegment : String → Option String) :
    Option String → Option (List (String × String))
  | none => some []
  | some path =>
    if path = "" then some []
    else (lastSegment path).map fun filename ↦ [("RECORD", path), ("RECORDFILENAME", filename)]

/-- The texts that the placeholders of a URL stand for. -/
def suppliedTexts (formatNsn lastSegment : String → Option String) (now : Int) (call : ActiveCall)
    (customerData : Option CustomerData) (recordingPath extid didNumber : Option String) :
    Option (List (String × String)) :=
  (recordingTexts lastSegment recordingPath).map fun record ↦
    [("NUMBER", dartTrim ((extractNumber (some call.uri)).getD call.uri)),
      ("NAME", resolvedName formatNsn call customerData),
      ("COMPANY", (customerData.map (dartTrim ·.company)).getD ""),
      ("EXTID", extid.getD ""),
      ("DID", didNumber.getD ""),
      ("ID", toString call.callId),
      ("DIRECTION", call.direction.name),
      ("ACCOUNT_ID", call.accountId),
      ("STATE", call.state.name),
      ("CONTACT_LINK", (customerData.map CustomerData.contactLink).getD ""),
      ("DURATION", (call.startedAt.map fun startedAt ↦
        toString ((now - startedAt).tdiv 1000)).getD "0")] ++ record

/-- The placeholders of a URL with their texts percent-encoded, all of them. -/
def encodedPlaceholders (formatNsn lastSegment : String → Option String) (now : Int)
    (call : ActiveCall) (customerData : Option CustomerData)
    (recordingPath extid didNumber : Option String) : Option (List (Placeholder Char)) :=
  (suppliedTexts formatNsn lastSegment now call customerData recordingPath extid didNumber).map
    (·.map fun text ↦ placeholder text.1 (encodeComponent text.2))

/-- `IntegrationService` puts the encoded texts in the place of the template's placeholders at once,
and replaces nothing of a value or of the text around them. -/
def ExpandsAtOnce (formatNsn lastSegment : String → Option String) (now : Int) (template : String)
    (call : ActiveCall) (customerData : Option CustomerData)
    (recordingPath extid didNumber : Option String) : Prop :=
  ∃ ps encoded, IntegrationService.placeholders formatNsn lastSegment now call customerData
      recordingPath extid didNumber = some ps ∧
    encodedPlaceholders formatNsn lastSegment now call customerData recordingPath extid didNumber =
      some encoded ∧
    IntegrationService.replacePlaceholders formatNsn lastSegment now template call customerData
        recordingPath extid didNumber =
      some (String.ofList (expand '%' encoded template.toList)) ∧
    ConfinedInTurn '%' ps (render '%' [] (tokens '%' ps 0 template.toList))

/-- The value of `%ACCOUNT_ID%` percent-encoded, and those of the others as they are. -/
def withAccountId (accountId : String) (p : Placeholder Char) : Placeholder Char :=
  if p.name = "ACCOUNT_ID".toList then placeholder "ACCOUNT_ID" (encodeComponent accountId) else p

/-- Nothing in a template and around the values in it spells a placeholder. -/
structure Undisturbed (ps : List (Placeholder Char)) (template : List Char) : Prop where
  /-- No percent sign outside the placeholders, or at the end of one that is replaced later, is
  followed by the name of a placeholder and another one. -/
  unspelled : ∀ done p rest, ps = done ++ p :: rest →
    ∀ t after, t :: after <:+ tokens '%' ps 0 template →
      (t = .plain '%' ∨ ∃ q ∈ rest, t = .slot q) → ¬p.name ++ ['%'] <+: filled '%' done after
  /-- No escape `%AC` in a value that is put in before `%ACCOUNT_ID%` is looked for is followed by
  the rest of that name and a percent sign. -/
  unescaped : ∀ done p rest, ps = done ++ p :: rest → p.name = "ACCOUNT_ID".toList →
    ∀ q after, .slot q :: after <:+ tokens '%' ps 0 template → q ∈ done →
      ∀ u v, q.value = u ++ "%AC".toList ++ v → ¬"COUNT_ID%".toList <+: v ++ filled '%' done after

section Encoding

/-- A digit of an escape. -/
def isEscapeDigit (c : Char) : Bool := c.isDigit || ('A' ≤ c && c ≤ 'F')

theorem isEscapeDigit_hexDigit {n : Nat} (hn : n < 16) : isEscapeDigit (hexDigit n) = true := by
  have hall : (List.range 16).all (fun n ↦ isEscapeDigit (hexDigit n)) = true := by decide
  exact List.all_eq_true.mp hall n (List.mem_range.mpr hn)

/-- Every percent sign begins an escape. -/
def Escaped (text : List Char) : Prop :=
  ∀ u v, text = u ++ '%' :: v → ∃ high low w, v = high :: low :: w ∧ isEscapeDigit high = true ∧
    isEscapeDigit low = true

theorem Escaped.append {x y : List Char} (hx : Escaped x) (hy : Escaped y) : Escaped (x ++ y) := by
  intro u v heq
  obtain ⟨c, rfl, rfl⟩ | ⟨c, rfl, hc⟩ := List.append_eq_append_iff.mp heq
  · exact hy c v rfl
  · cases c with
    | nil => exact hy [] v hc.symm
    | cons d c =>
      obtain ⟨rfl, rfl⟩ := List.cons.inj hc
      obtain ⟨high, low, w, rfl, hhigh, hlow⟩ := hx u c rfl
      exact ⟨high, low, w ++ y, rfl, hhigh, hlow⟩

theorem escaped_flatMap {α : Type} {l : List α} {f : α → List Char} (h : ∀ a ∈ l, Escaped (f a)) :
    Escaped (l.flatMap f) := by
  induction l with
  | nil =>
    intro u v heq
    simp at heq
  | cons a l ih =>
    rw [List.flatMap_cons]
    obtain ⟨ha, hl⟩ := List.forall_mem_cons.mp h
    exact ha.append (ih hl)

/-- The percent sign itself is encoded. -/
theorem isUnreserved_percent : isUnreserved '%' = false := by decide

/-- An encoded text has percent signs in escapes only. -/
theorem escaped_encodeComponent (component : String) : Escaped (encodeComponent component) := by
  apply escaped_flatMap
  intro c _
  split
  · next hc =>
    intro u v heq
    obtain ⟨-, hv⟩ | ⟨-, hv⟩ := List.append_eq_singleton_iff.mp heq.symm
    · rw [(List.cons.inj hv).1.symm, isUnreserved_percent] at hc
      cases hc
    · exact absurd hv (List.cons_ne_nil _ v)
  · apply escaped_flatMap
    intro b _ u v heq
    have hb := b.toNat_lt
    have hhigh := isEscapeDigit_hexDigit (n := b.toNat / 16) (by omega)
    have hlow := isEscapeDigit_hexDigit (n := b.toNat % 16) (by omega)
    cases u with
    | nil => exact ⟨_, _, [], (List.cons.inj heq).2.symm, hhigh, hlow⟩
    | cons d u =>
      have hmem : '%' ∈ [hexDigit (b.toNat / 16), hexDigit (b.toNat % 16)] := by
        rw [(List.cons.inj heq).2]
        exact List.mem_append_right u List.mem_cons_self
      have hpercent : isEscapeDigit '%' = false := by decide
      rcases List.mem_cons.mp hmem with hd | hd
      · rw [hd, hhigh] at hpercent
        cases hpercent
      · rw [List.mem_singleton.mp hd, hlow] at hpercent
        cases hpercent

/-- Unreserved characters stay as they are. -/
theorem encodeComponent_eq {component : String}
    (h : ∀ c ∈ component.toList, isUnreserved c = true) :
    encodeComponent component = component.toList := by
  rw [encodeComponent]
  conv_rhs => rw [← List.flatMap_singleton' component.toList]
  apply List.flatMap_congr
  intro c hc
  rw [if_pos (h c hc)]

/-- A text stays as it is or gets longer. -/
theorem encodeComponent_eq_or_lt (component : String) :
    encodeComponent component = component.toList ∨
      component.toList.length < (encodeComponent component).length := by
  unfold encodeComponent
  induction component.toList with
  | nil => exact .inl rfl
  | cons c cs ih =>
    rw [List.flatMap_cons, List.length_append, List.length_cons]
    split
    · rcases ih with heq | hlt
      · exact .inl (congrArg (c :: ·) heq)
      · right
        rw [List.length_singleton]
        omega
    · right
      have hpos : 0 < (String.utf8EncodeChar c).length := by
        rw [String.length_utf8EncodeChar]
        exact c.utf8Size_pos
      obtain ⟨b, bytes, hbytes⟩ := List.exists_cons_of_length_pos hpos
      have hle : cs.length ≤ (cs.flatMap fun c ↦ if isUnreserved c then [c] else
          (String.utf8EncodeChar c).flatMap fun b ↦
            ['%', hexDigit (b.toNat / 16), hexDigit (b.toNat % 16)]).length := by
        rcases ih with heq | hlt
        · rw [heq]
        · omega
      rw [hbytes, List.flatMap_cons, List.length_append, List.length_cons, List.length_cons,
        List.length_cons]
      omega

/-- A number has unreserved characters only. -/
theorem encodeComponent_toString (n : Int) :
    encodeComponent (toString n) = (toString n).toList := by
  apply encodeComponent_eq
  have hdigit : ∀ m : Nat, ∀ c ∈ Nat.toDigits 10 m, isUnreserved c = true := by
    intro m c hc
    have hc' := isDigit_of_mem_toDigits hc
    simp [isUnreserved, Char.isAlphanum, hc']
  rw [toList_toString]
  split
  · exact hdigit _
  · intro c hc
    rcases List.mem_cons.mp hc with rfl | hc
    · decide
    · exact hdigit _ c hc

end Encoding

section Neighbours

variable {ps : List (Placeholder Char)} {template : List Char}

/-- `ACCOUNT_ID` alone begins with two digits of an escape. -/
theorem eq_of_isEscapeDigit {name rest : List Char} {high low : Char}
    (hname : name ∈ placeholderNames) (hfront : name ++ ['%'] <+: high :: low :: rest)
    (hhigh : isEscapeDigit high = true) (hlow : isEscapeDigit low = true) :
    name = "ACCOUNT_ID".toList := by
  have hall : placeholderNames.all (fun name ↦ name = "ACCOUNT_ID".toList ∨
      ¬((name ++ ['%']).take 2).all isEscapeDigit) = true := by decide
  have hdigits : ((name ++ ['%']).take 2).all isEscapeDigit = true := by
    rw [List.all_eq_true]
    intro c hc
    have hmem : c ∈ (high :: low :: rest).take 2 := (hfront.take 2).subset hc
    rcases List.mem_cons.mp hmem with rfl | hmem
    · exact hhigh
    · rw [List.mem_singleton.mp hmem]
      exact hlow
  have hor := of_decide_eq_true (List.all_eq_true.mp hall name hname)
  exact hor.resolve_right (not_not_intro hdigits)

/-- Each placeholder is found in its place just if nothing around it spells one, where all values
are percent-encoded. -/
theorem foundInPlace_iff_undisturbed (hnames : WellNamed '%' ps)
    (hknown : ∀ p ∈ ps, p.name ∈ placeholderNames) (hescaped : ∀ p ∈ ps, Escaped p.value) :
    FoundInPlace '%' ps template ↔ Undisturbed ps template := by
  rw [foundInPlace_iff hnames]
  constructor
  · intro hfound
    constructor
    · intro done p rest hps t after hsuffix ht
      have hnone := hfound done p rest hps t after hsuffix []
      apply hnone
      rcases ht with rfl | ⟨q, hq, rfl⟩
      · exact ⟨rfl, rfl⟩
      · have hnodup := hnames.distinct.of_map
        rw [hps, List.nodup_append] at hnodup
        obtain ⟨-, hnodup, hdisjoint⟩ := hnodup
        have hdone : q ∉ done := fun hmem ↦ hdisjoint q hmem q (List.mem_cons_of_mem p hq) rfl
        rw [Token.Behind, if_neg hdone]
        exact ⟨fun heq ↦ (List.nodup_cons.mp hnodup).1 (heq ▸ hq), rfl⟩
    · intro done p rest hps hname q after hsuffix hq u v heq hprefix
      apply hfound done p rest hps (.slot q) after hsuffix ('A' :: 'C' :: v)
      · rw [Token.Behind, if_pos hq]
        exact ⟨u, by simpa using heq⟩
      · rw [hname]
        exact (List.prefix_append_right_inj ['A', 'C']).mpr hprefix
  · intro hundisturbed done p rest hps t after hsuffix v hbehind hprefix
    have hp : p ∈ ps := hps ▸ List.mem_append_right done List.mem_cons_self
    cases t with
    | plain a =>
      obtain ⟨rfl, rfl⟩ := hbehind
      exact hundisturbed.unspelled done p rest hps _ after hsuffix (.inl rfl) hprefix
    | slot q =>
      have hslot : q ∈ ps := mem_of_slot (hsuffix.subset List.mem_cons_self)
      rw [Token.Behind] at hbehind
      split at hbehind
      · next hq =>
        obtain ⟨u, heq⟩ := hbehind
        obtain ⟨high, low, w, rfl, hhigh, hlow⟩ := hescaped q hslot u v heq
        have hname := eq_of_isEscapeDigit (hknown p hp) hprefix hhigh hlow
        rw [hname] at hprefix
        have htwo : 'A' = high ∧ 'C' = low ∧
            "COUNT_ID%".toList <+: w ++ filled '%' done after := by
          simpa using hprefix
        obtain ⟨rfl, rfl, hrest⟩ := htwo
        exact hundisturbed.unescaped done p rest hps hname q after hsuffix hq u w
          (by simpa using heq) hrest
      · next hq =>
        obtain ⟨hne, rfl⟩ := hbehind
        refine hundisturbed.unspelled done p rest hps _ after hsuffix (.inr ⟨q, ?_, rfl⟩) hprefix
        rw [hps, List.mem_append, List.mem_cons] at hslot
        exact (hslot.resolve_left hq).resolve_left hne

end Neighbours

section Encoded

variable {formatNsn lastSegment : String → Option String} {now : Int} {template : String}
  {call : ActiveCall} {customerData : Option CustomerData}
  {recordingPath extid didNumber : Option String} {ps : List (Placeholder Char)}

/-- The names stay. -/
theorem name_withAccountId (accountId : String) (p : Placeholder Char) :
    (withAccountId accountId p).name = p.name := by
  rw [withAccountId]
  split
  · next hname => exact hname.symm
  · rfl

theorem withAccountId_placeholder (accountId : String) (value : List Char) :
    withAccountId accountId (placeholder "ACCOUNT_ID" value) =
      placeholder "ACCOUNT_ID" (encodeComponent accountId) := if_pos rfl

/-- The placeholders that the service replaces, with the account id encoded, are those of the texts
encoded. -/
theorem map_placeholders :
    (IntegrationService.placeholders formatNsn lastSegment now call customerData recordingPath extid
        didNumber).map (·.map (withAccountId call.accountId)) =
      encodedPlaceholders formatNsn lastSegment now call customerData recordingPath extid
        didNumber := by
  have hplain (name : String) (value : List Char) (hname : name.toList ≠ "ACCOUNT_ID".toList) :
      withAccountId call.accountId (placeholder name value) = placeholder name value :=
    if_neg hname
  have hdirection : call.direction.name.toList = encodeComponent call.direction.name := by
    cases call.direction <;> decide
  have hstate : call.state.name.toList = encodeComponent call.state.name := by
    cases call.state <;> decide
  have hduration : durationPlaceholder now call.startedAt = placeholder "DURATION"
      (encodeComponent ((call.startedAt.map fun startedAt ↦
        toString ((now - startedAt).tdiv 1000)).getD "0")) := by
    cases call.startedAt with
    | none =>
      have hzero : "0".toList = encodeComponent "0" := by decide
      exact congrArg (placeholder "DURATION") hzero
    | some startedAt =>
      exact congrArg (placeholder "DURATION") (encodeComponent_toString _).symm
  have hrecord : (recordPlaceholders lastSegment recordingPath).map
      (·.map (withAccountId call.accountId)) =
        (recordingTexts lastSegment recordingPath).map
          (·.map fun text ↦ placeholder text.1 (encodeComponent text.2)) := by
    cases recordingPath with
    | none => rfl
    | some path =>
      rw [recordPlaceholders, recordingTexts]
      split
      · rfl
      · cases lastSegment path with
        | none => rfl
        | some filename =>
          simp only [Option.map_some, List.map_cons, List.map_nil]
          rw [hplain _ _ (by decide), hplain _ _ (by decide)]
  rw [IntegrationService.placeholders, encodedPlaceholders, suppliedTexts, Option.map_map,
    Option.map_map]
  cases hrecording : recordPlaceholders lastSegment recordingPath with
  | none =>
    rw [hrecording] at hrecord
    rw [Option.map_none] at hrecord ⊢
    rw [Option.map_eq_none_iff.mp hrecord.symm]
    rfl
  | some record =>
    rw [hrecording] at hrecord
    obtain ⟨texts, htexts, hmap⟩ := Option.map_eq_some_iff.mp hrecord.symm
    rw [htexts, Option.map_some, Option.map_some]
    simp only [Function.comp_apply, List.map_append, hmap, sharedPlaceholders, List.map_cons,
      List.map_nil, contactLinkPlaceholder, hduration, hdirection, hstate,
      ← encodeComponent_toString, withAccountId_placeholder]
    simp (disch := decide) only [hplain]
    rfl

/-- What the texts encoded are called, and that they have percent signs in escapes only. -/
theorem encodedPlaceholders_spec
    (h : encodedPlaceholders formatNsn lastSegment now call customerData recordingPath extid
      didNumber = some ps) {p : Placeholder Char} (hp : p ∈ ps) :
    p.name ∈ placeholderNames ∧ Escaped p.value := by
  constructor
  · rw [← map_placeholders] at h
    obtain ⟨replaced, hreplaced, rfl⟩ := Option.map_eq_some_iff.mp h
    obtain ⟨q, hq, rfl⟩ := List.mem_map.mp hp
    rw [name_withAccountId]
    exact (names_sublist hreplaced).subset (List.mem_map_of_mem hq)
  · obtain ⟨texts, -, rfl⟩ := Option.map_eq_some_iff.mp h
    obtain ⟨text, -, rfl⟩ := List.mem_map.mp hp
    exact escaped_encodeComponent text.2

/-- The placeholder of the account id. -/
theorem eq_accountId
    (h : IntegrationService.placeholders formatNsn lastSegment now call customerData recordingPath
      extid didNumber = some ps) {p : Placeholder Char} (hp : p ∈ ps)
    (hname : p.name = "ACCOUNT_ID".toList) :
    p = placeholder "ACCOUNT_ID" call.accountId.toList := by
  have hmem : placeholder "ACCOUNT_ID" call.accountId.toList ∈ ps := by
    obtain ⟨record, -, rfl⟩ := Option.map_eq_some_iff.mp h
    apply List.mem_append_left
    apply List.mem_append_left
    simp [sharedPlaceholders]
  exact List.inj_on_of_nodup_map (wellNamed_placeholders h).distinct hp hmem hname

/-- The placeholders of a template all stay just if the account id does or is not asked for. -/
theorem accountId_encoded_iff
    (h : IntegrationService.placeholders formatNsn lastSegment now call customerData recordingPath
      extid didNumber = some ps) (text : List Char) :
    (∀ q, .slot q ∈ tokens '%' ps 0 text → withAccountId call.accountId q = q) ↔
      encodeComponent call.accountId = call.accountId.toList ∨
        ∀ value, .slot (placeholder "ACCOUNT_ID" value) ∉
          tokens '%' (ps.map (withAccountId call.accountId)) 0 text := by
  rw [tokens_map (name_withAccountId call.accountId)]
  constructor
  · intro hfix
    by_cases hsame : encodeComponent call.accountId = call.accountId.toList
    · exact .inl hsame
    · right
      intro value hmem
      obtain ⟨t, ht, heq⟩ := List.mem_map.mp hmem
      cases t with
      | plain a => cases heq
      | slot q =>
        have hq : q = placeholder "ACCOUNT_ID" value :=
          (hfix q ht).symm.trans (Token.slot.inj heq)
        have hraw := eq_accountId h (mem_of_slot ht) (congrArg Placeholder.name hq)
        have hstays := hfix q ht
        rw [hraw, withAccountId_placeholder] at hstays
        exact hsame (congrArg Placeholder.value hstays)
  · intro hor q hq
    by_cases hname : q.name = "ACCOUNT_ID".toList
    · have hraw := eq_accountId h (mem_of_slot hq) hname
      rw [hraw, withAccountId_placeholder]
      rcases hor with hsame | hnone
      · rw [hsame]
      · refine absurd (List.mem_map.mpr ⟨_, hq, ?_⟩) (hnone (encodeComponent call.accountId))
        rw [hraw, Token.map, withAccountId_placeholder]
    · exact if_neg hname

end Encoded

/-- The placeholders of a template are replaced at once by the texts percent-encoded, and nothing
else, just if the account id is as it would be encoded, or not asked for, and nothing around the
placeholders or in an escape spells one. -/
theorem expansion_simultaneous_iff (formatNsn lastSegment : String → Option String) (now : Int)
    (template : String) (call : ActiveCall) (customerData : Option CustomerData)
    (recordingPath extid didNumber : Option String) :
    ExpandsAtOnce formatNsn lastSegment now template call customerData recordingPath extid
        didNumber ↔
      ∃ encoded, encodedPlaceholders formatNsn lastSegment now call customerData recordingPath
          extid didNumber = some encoded ∧
        (encodeComponent call.accountId = call.accountId.toList ∨
          ∀ value, .slot (placeholder "ACCOUNT_ID" value) ∉
            tokens '%' encoded 0 template.toList) ∧
        Undisturbed encoded template.toList := by
  rw [ExpandsAtOnce, ← map_placeholders, IntegrationService.replacePlaceholders]
  cases hps : IntegrationService.placeholders formatNsn lastSegment now call customerData
    recordingPath extid didNumber with
  | none => simp
  | some ps =>
    have hencoded : encodedPlaceholders formatNsn lastSegment now call customerData recordingPath
        extid didNumber = some (ps.map (withAccountId call.accountId)) := by
      rw [← map_placeholders, hps, Option.map_some]
    have hwell := wellNamed_placeholders hps
    have hname := name_withAccountId call.accountId
    have hlonger : ∀ p ∈ ps, withAccountId call.accountId p = p ∨
        p.value.length < (withAccountId call.accountId p).value.length := by
      intro p hp
      by_cases hname : p.name = "ACCOUNT_ID".toList
      · rw [eq_accountId hps hp hname, withAccountId_placeholder]
        exact (encodeComponent_eq_or_lt call.accountId).imp_left (congrArg _)
      · exact .inl (if_neg hname)
    have hreplaced := replaceInTurn_map_iff template.toList hname hwell hlonger
    rw [accountId_encoded_iff hps, foundInPlace_iff_undisturbed (hwell.map hname)
      (fun p hp ↦ (encodedPlaceholders_spec hencoded hp).1)
      (fun p hp ↦ (encodedPlaceholders_spec hencoded hp).2)] at hreplaced
    simp only [Option.map_some, Option.some.injEq, exists_and_left, exists_eq_left',
      String.ofList_inj]
    exact hreplaced

/-- An outgoing call of an account. -/
def outgoingCall (accountId : String) : ActiveCall where
  callId := 1
  accountId := accountId
  uri := "sip:200@pbx"
  direction := .outgoing
  state := .ringing
  muted := false
  onHold := false
  startedAt := none
  accumulatedSeconds := 0
  lastResumedAt := none

/-- The euro sign ends in the byte `AC`: a contact name with two of them spells `%ACCOUNT_ID%`,
which is replaced. -/
theorem expansion_of_euro_signs :
    ¬ExpandsAtOnce some some 0 "%NAME%" (outgoingCall "7") (some ⟨"", "€COUNT_ID€", "", "", .null⟩)
      none none none := by
  rintro ⟨ps, encoded, hps, hencoded, hexpand, -⟩
  cases hps
  cases hencoded
  revert hexpand
  decide +kernel

/-- For a call without start time, both services return the same URL just if that of
`ScreenPopService`, which does not know the placeholder, has no `%DURATION%` left; this provided
that there is a contact link, or no `%CONTACT_LINK%` to replace. -/
theorem expanders_agree_iff (formatNsn lastSegment : String → Option String) (now : Int)
    (template : String) (call : ActiveCall) (customerData : Option CustomerData)
    (extid didNumber : Option String) (hstarted : call.startedAt = none)
    (hlink : customerData.any (·.hasContactLink) = true ∨
      ¬"%CONTACT_LINK%".toList <:+: replaceInTurn '%'
        (sharedPlaceholders formatNsn call customerData extid didNumber) template.toList) :
    IntegrationService.replacePlaceholders formatNsn lastSegment now template call customerData
          none extid didNumber =
        some (ScreenPopService.replacePlaceholders formatNsn template call customerData extid
          didNumber) ↔
      ¬"%DURATION%".toList <:+: (ScreenPopService.replacePlaceholders formatNsn template call
        customerData extid didNumber).toList := by
  generalize hshared : sharedPlaceholders formatNsn call customerData extid didNumber = shared
    at hlink
  have hscreen : ScreenPopService.replacePlaceholders formatNsn template call customerData extid
      didNumber =
        String.ofList (replaceAll "%CONTACT_LINK%".toList
          (contactLinkPlaceholder customerData).value
            (replaceInTurn '%' shared template.toList)) := by
    rw [ScreenPopService.replacePlaceholders, ScreenPopService.placeholders, hshared]
    by_cases hdata : customerData.any (·.hasContactLink) = true
    · rw [if_pos hdata, replaceInTurn, List.foldl_append]
      rfl
    · have hnone := hlink.resolve_left hdata
      rw [if_neg hdata, List.append_nil, replaceAll_of_not_infix hnone]
  have hintegration : IntegrationService.replacePlaceholders formatNsn lastSegment now template call
      customerData none extid didNumber = some (String.ofList (replaceAll "%DURATION%".toList ['0']
        (ScreenPopService.replacePlaceholders formatNsn template call customerData extid
          didNumber).toList)) := by
    rw [hscreen, IntegrationService.replacePlaceholders, IntegrationService.placeholders,
      recordPlaceholders, hshared, hstarted, Option.map_some, Option.map_some, List.append_nil,
      replaceInTurn, List.foldl_append]
    exact congrArg (fun text ↦ some (String.ofList (replaceAll "%DURATION%".toList ['0'] text)))
      String.toList_ofList.symm
  have hzero : '0' ≠ '%' := by decide
  rw [hintegration, Option.some_inj, ← String.toList_inj, String.toList_ofList]
  exact replaceAll_eq_self_iff hzero

/-- A template with a number in it. -/
theorem expanders_agree_on_number :
    IntegrationService.replacePlaceholders some some 0 "q=%NUMBER%" (outgoingCall "7") none none
        none none =
      some (ScreenPopService.replacePlaceholders some "q=%NUMBER%" (outgoingCall "7") none none
        none) :=
  (expanders_agree_iff some some 0 "q=%NUMBER%" (outgoingCall "7") none none none rfl
    (.inr (by decide +kernel))).mpr (by decide +kernel)

/-- A template with a duration in it. -/
theorem expanders_differ_on_duration :
    ¬IntegrationService.replacePlaceholders some some 0 "d=%DURATION%" (outgoingCall "7") none none
        none none =
      some (ScreenPopService.replacePlaceholders some "d=%DURATION%" (outgoingCall "7") none none
        none) := by
  decide +kernel

end PacketDial.Ui
