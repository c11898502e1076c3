import PacketDial.Lib.Replacements
import PacketDial.Ui.Text

/-!
# The presence of contacts

The contacts screen subscribes to the targets that `_buildBlfTarget` makes of the contacts
(`app_flutter/lib/screens/contacts_screen.dart:466–479`), and gives what is reported for a target
to `updatePresence` (`app_flutter/lib/core/contacts_service.dart:136–158`). That looks for the
first contact that goes by the same user, compares no domains, and leaves the others as they are.
-/

namespace PacketDial.Ui

open PacketDial.Core PacketDial.Lib

/-- A contact (`contacts_service.dart:7–26`). -/
structure BlfContact where
  id : String
  name : String
  sipUri : String
  extension : Option String
  presenceDomain : String
  presenceState : String
  activity : Option String
  deriving DecidableEq

/-- The fields of an account that a target is built from. -/
structure AccountSchema where
  domain : String
  server : String

section Targets

-- `String.toLowerCase` of Dart.
variable (toLowerCase : String → String)

/-- `_normalizePresenceKey` (`contacts_service.dart:252–268`). -/
def normalizePresenceKey (value : String) : String :=
  let trimmed := toLowerCase (dartTrim value)
  if trimmed = "" then ""
  else
    let normalized := if startsWith trimmed "sip:" then substringFrom 4 trimmed else trimmed
    let normalized := before '@' normalized
    let normalized :=
      if normalized.toList.head? = some '<' ∧ normalized.toList.getLast? = some '>' then
        String.ofList (normalized.toList.drop 1).dropLast
      else normalized
    dartTrim normalized

/-- `_matchesPresenceTarget` (`contacts_service.dart:221–250`). -/
def matchesPresenceTarget (target : String) (domain : Option String) (contact : BlfContact) :
    Bool :=
  let normalizedTarget := normalizePresenceKey toLowerCase target
  let candidates := contact.sipUri :: contact.extension.toList
  let effectiveDomain :=
    if dartTrim contact.presenceDomain ≠ "" then toLowerCase (dartTrim contact.presenceDomain)
    else domain.getD ""
  normalizedTarget ≠ "" && candidates.any fun candidate ↦
    let normalizedCandidate := normalizePresenceKey toLowerCase candidate
    normalizedCandidate == normalizedTarget || (effectiveDomain ≠ "" &&
      normalizePresenceKey toLowerCase s!"sip:{normalizedCandidate}@{effectiveDomain}" ==
        normalizedTarget)

/-- `updatePresence` (`contacts_service.dart:136–158`): the first contact that matches is written,
unless it has no id. -/
def updatePresence (sipUri state : String) (activity : Option String) (domain : Option String) :
    List BlfContact → List BlfContact
  | [] => []
  | contact :: contacts =>
    if matchesPresenceTarget toLowerCase sipUri domain contact then
      if contact.id ≠ "" then
        { contact with presenceState := state, activity := activity } :: contacts
      else contact :: contacts
    else contact :: updatePresence sipUri state activity domain contacts

/-- `_domainFromUri` (`contacts_screen.dart:31–39`). -/
def domainFromUri (uri : String) : String :=
  let s := toLowerCase (dartTrim uri)
  let s := if startsWith s "sip:" then substringFrom 4 s else s
  let s := if s.toList.head? = some '<' then substringFrom 1 s else s
  let s := if s.toList.getLast? = some '>' then String.ofList s.toList.dropLast else s
  if '@' ∈ s.toList then
    dartTrim (before ':' (String.ofList ((s.toList.dropWhile (· ≠ '@')).drop 1)))
  else ""

end Targets

/-- `_buildBlfTarget` (`contacts_screen.dart:466–479`). -/
def buildBlfTarget (fallbackAccount : AccountSchema) (contact : BlfContact) : String :=
  let extension := dartTrim (contact.extension.getD "")
  let domain :=
    if dartTrim contact.presenceDomain ≠ "" then dartTrim contact.presenceDomain
    else if dartTrim fallbackAccount.domain ≠ "" then dartTrim fallbackAccount.domain
    else before ':' (dartTrim fallbackAccount.server)
  if extension ≠ "" then
    if '@' ∈ extension.toList ∨ startsWith extension "sip:" then extension
    else if domain ≠ "" then s!"sip:{extension}@{domain}"
    else extension
  else dartTrim contact.sipUri

/-- The listener of the contacts screen (`contacts_screen.dart:44–52`) on a status of `uri`. -/
def onBlfStatusChanged (toLowerCase : String → String) (uri state : String)
    (activity : Option String) (contacts : List BlfContact) : List BlfContact :=
  updatePresence toLowerCase uri state activity (some (domainFromUri toLowerCase uri)) contacts

/-- A status of the target `t` is shown by the contacts that are subscribed at `t`, and leaves the
others as they are. -/
def ReachesRight (toLowerCase : String → String) (fallbackAccount : AccountSchema)
    (t state : String) (activity : Option String) (contacts : List BlfContact) : Prop :=
  List.Forall₂ (fun contact contact' ↦
      if buildBlfTarget fallbackAccount contact = t then contact'.presenceState = state
      else contact' = contact)
    contacts (onBlfStatusChanged toLowerCase t state activity contacts)

section Users

/-- What is used of the lower case of a character: that of the scheme, of `@` and of white space is
the character itself, no other character becomes one of the latter, and nothing is lower than lower
case. -/
structure CaseMap (lower : Char → Char) : Prop where
  scheme : "sip:".toList.map lower = "sip:".toList
  eq_at : ∀ c, lower c = '@' ↔ c = '@'
  white : ∀ c, isDartWhitespace (lower c) = isDartWhitespace c
  lowered : ∀ c, lower (lower c) = lower c

/-- A text without the scheme in front of it. -/
def withoutScheme (s : List Char) : List Char :=
  if "sip:".toList.isPrefixOf s then s.drop 4 else s

/-- A text without the brackets around it, and without white space around what is left. -/
def unbracketed (s : List Char) : List Char :=
  strip isDartWhitespace
    (if s.head? = some '<' ∧ s.getLast? = some '>' then (s.drop 1).dropLast else s)

/-- The user that an address names, in lower case and without its domain. -/
def userOf (lower : Char → Char) (address : String) : List Char :=
  unbracketed
    ((withoutScheme ((strip isDartWhitespace address.toList).map lower)).takeWhile (· ≠ '@'))

/-- A contact goes by the user of `sip:e@d` if its address or its extension names this user, at
whatever domain. A contact with a domain, its own or else that of the target, also goes by what is
left of a second pair of brackets. -/
def GoesBy (lower : Char → Char) (e d : String) (contact : BlfContact) : Prop :=
  unbracketed (e.toList.map lower) ≠ [] ∧ ∃ address ∈ contact.sipUri :: contact.extension.toList,
    userOf lower address = unbracketed (e.toList.map lower) ∨
      ((dartTrim contact.presenceDomain ≠ "" ∨
          domainFromUri (lowerText lower) s!"sip:{e}@{d}" ≠ "") ∧
        unbracketed (userOf lower address) = unbracketed (e.toList.map lower))

/-- The domain at which the extension of a contact is subscribed. -/
def domainOf (fallbackAccount : AccountSchema) (contact : BlfContact) : String :=
  if dartTrim contact.presenceDomain ≠ "" then dartTrim contact.presenceDomain
  else if dartTrim fallbackAccount.domain ≠ "" then dartTrim fallbackAccount.domain
  else before ':' (dartTrim fallbackAccount.server)

/-- A contact is subscribed at `sip:e@d`: its extension is this address, or `e` with the domain `d`
to go with it, or there is no extension and its address is this one. -/
def Subscribed (fallbackAccount : AccountSchema) (e d : String) (contact : BlfContact) : Prop :=
  let extension := dartTrim (contact.extension.getD "")
  extension = s!"sip:{e}@{d}" ∨
    (extension = e ∧ e ≠ "" ∧ startsWith e "sip:" = false ∧
      domainOf fallbackAccount contact = d ∧ d ≠ "") ∨
    (extension = "" ∧ dartTrim contact.sipUri = s!"sip:{e}@{d}")

/-- A contact that is subscribed at `sip:e@d` is recognised there: the target has a user, and where
that is the extension and begins with a scheme in capitals, which is cut off the extension and not
off the target, the contact goes by it without its extension. -/
def Recognised (lower : Char → Char) (e d : String) (contact : BlfContact) : Prop :=
  unbracketed (e.toList.map lower) ≠ [] ∧
    (dartTrim (contact.extension.getD "") = e → "sip:".toList <+: e.toList.map lower →
      GoesBy lower e d { contact with extension := none })

/-- What a report of the target `sip:e@d` asks of a contact with the contacts `front` before it. One
that is subscribed there shows the state already, or it is recognised, has an id and is the first
to go by the user. The first to go by the user that is not subscribed there has no id or shows the
report already. -/
structure ShownRight (lower : Char → Char) (fallbackAccount : AccountSchema) (e d state : String)
    (activity : Option String) (front : List BlfContact) (contact : BlfContact) : Prop where
  subscribed : Subscribed fallbackAccount e d contact → contact.presenceState = state ∨
    (contact.id ≠ "" ∧ Recognised lower e d contact ∧ ∀ other ∈ front, ¬ GoesBy lower e d other)
  other : ¬ Subscribed fallbackAccount e d contact → GoesBy lower e d contact →
    (∀ other ∈ front, ¬ GoesBy lower e d other) →
      contact.id = "" ∨ (contact.presenceState = state ∧ contact.activity = activity)

variable {lower : Char → Char}

/-- Taking brackets and white space off leaves a part of the text. -/
theorem unbracketed_sublist (s : List Char) : (unbracketed s).Sublist s := by
  have hstrip (l : List Char) : (strip isDartWhitespace l).Sublist l := by
    obtain ⟨a, b, hl, -, -⟩ := exists_strip isDartWhitespace l
    have hsub : (strip isDartWhitespace l).Sublist (a ++ strip isDartWhitespace l ++ b) :=
      (List.sublist_append_right a _).trans (List.sublist_append_left _ b)
    rwa [← hl] at hsub
  unfold unbracketed
  split
  · exact (hstrip _).trans ((List.dropLast_sublist _).trans (List.drop_sublist 1 s))
  · exact hstrip s

/-- A user has no `@`. -/
theorem at_notMem_userOf (address : String) : '@' ∉ userOf lower address := by
  intro hmem
  have htake := List.mem_takeWhile_imp ((unbracketed_sublist _).subset hmem)
  simp at htake

/-- What is left without the scheme is of the text. -/
theorem mem_of_mem_withoutScheme {s : List Char} {c : Char} (hc : c ∈ withoutScheme s) :
    c ∈ s := by
  unfold withoutScheme at hc
  split at hc
  · exact List.mem_of_mem_drop hc
  · exact hc

/-- No `@` comes of the lower case. -/
theorem ne_at_of_mem_map (h : CaseMap lower) {s : List Char} (hs : '@' ∉ s) :
    ∀ x ∈ s.map lower, (x ≠ '@' : Bool) = true := by
  intro x hx
  obtain ⟨c, hc, rfl⟩ := List.mem_map.mp hx
  have hne : c ≠ '@' := fun heq ↦ hs (heq ▸ hc)
  simpa [h.eq_at] using hne

/-- A user is in lower case. -/
theorem map_userOf (h : CaseMap lower) (address : String) :
    (userOf lower address).map lower = userOf lower address := by
  have hlow : ∀ x ∈ userOf lower address, lower x = x := by
    intro x hx
    have hmem := (List.takeWhile_prefix _).subset ((unbracketed_sublist _).subset hx)
    obtain ⟨c, -, rfl⟩ := List.mem_map.mp (mem_of_mem_withoutScheme hmem)
    exact h.lowered c
  rw [List.map_congr_left hlow, List.map_id']

/-- `_normalizePresenceKey` makes the user of an address. -/
theorem normalizePresenceKey_eq (value : String) :
    normalizePresenceKey (lowerText lower) value = String.ofList (userOf lower value) := by
  have htrim : lowerText lower (dartTrim value) =
      String.ofList ((strip isDartWhitespace value.toList).map lower) := by
    rw [lowerText, dartTrim, String.toList_ofList]
  unfold normalizePresenceKey userOf
  rw [htrim]
  generalize (strip isDartWhitespace value.toList).map lower = s
  by_cases hs : s = []
  · subst hs
    rfl
  · have hne : String.ofList s ≠ "" := by simpa [String.ofList_eq_empty_iff] using hs
    have hscheme : (if startsWith (String.ofList s) "sip:" then substringFrom 4 (String.ofList s)
        else String.ofList s) = String.ofList (withoutScheme s) := by
      unfold withoutScheme startsWith substringFrom
      simp only [String.toList_ofList, apply_ite String.ofList]
    simp only [hne, if_false, hscheme, before, String.toList_ofList, unbracketed, dartTrim]
    split <;> simp_all

/-- The user of a target. -/
theorem userOf_target (h : CaseMap lower) {e : String} (he : '@' ∉ e.toList) (d : String) :
    userOf lower s!"sip:{e}@{d}" = unbracketed (e.toList.map lower) := by
  have hclean : Clean isDartWhitespace ("sip:".toList ++ e.toList ++ ['@']) :=
    clean_append (by simp) (by simp; decide) (by simp) (by simp; decide)
  obtain ⟨b, hb⟩ := exists_strip_append hclean (by simp) d.toList
  have htext : (s!"sip:{e}@{d}").toList = "sip:".toList ++ e.toList ++ ['@'] ++ d.toList := by
    simp [toString]
  have hmap : (strip isDartWhitespace (s!"sip:{e}@{d}").toList).map lower =
      "sip:".toList ++ (e.toList.map lower ++ '@' :: b.map lower) := by
    rw [htext, hb, List.map_append, List.map_append, List.map_append, h.scheme]
    simp [(h.eq_at '@').mpr rfl]
  have hat := ne_at_of_mem_map h he
  rw [userOf, hmap, withoutScheme, if_pos (List.isPrefixOf_iff_prefix.mpr (List.prefix_append _ _))]
  change unbracketed ((e.toList.map lower ++ '@' :: b.map lower).takeWhile _) = _
  rw [List.takeWhile_append_of_pos hat]
  simp

end Users

section Presence

variable {lower : Char → Char} {account : AccountSchema} {e d state : String}
  {activity : Option String} {contact : BlfContact} {contacts : List BlfContact}

/-- A contact matches a target if it goes by its user. -/
theorem matchesPresenceTarget_iff (h : CaseMap lower) (he : '@' ∉ e.toList) :
    matchesPresenceTarget (lowerText lower) s!"sip:{e}@{d}"
      (some (domainFromUri (lowerText lower) s!"sip:{e}@{d}")) contact = true ↔
        GoesBy lower e d contact := by
  have hdomain (domain : String) : (if dartTrim contact.presenceDomain ≠ "" then
        lowerText lower (dartTrim contact.presenceDomain) else domain) ≠ "" ↔
      dartTrim contact.presenceDomain ≠ "" ∨ domain ≠ "" := by
    by_cases hown : dartTrim contact.presenceDomain ≠ ""
    · have hlow : lowerText lower (dartTrim contact.presenceDomain) ≠ "" := by
        simpa [lowerText, String.ofList_eq_empty_iff] using hown
      rw [if_pos hown]
      exact iff_of_true hlow (.inl hown)
    · rw [if_neg hown, or_iff_right hown]
  have hkey (address domain : String) :
      userOf lower s!"sip:{String.ofList (userOf lower address)}@{domain}" =
        unbracketed (userOf lower address) := by
    rw [userOf_target h (by rw [String.toList_ofList]; exact at_notMem_userOf address),
      String.toList_ofList, map_userOf h]
  unfold matchesPresenceTarget GoesBy
  simp only [normalizePresenceKey_eq, userOf_target h he, hkey, Option.getD_some, Bool.and_eq_true,
    decide_eq_true_eq, List.any_eq_true, Bool.or_eq_true, beq_iff_eq, String.ofList_inj, hdomain,
    ne_eq, String.ofList_eq_empty_iff]

theorem buildBlfTarget_eq {x domain : String} (hx : dartTrim (contact.extension.getD "") = x)
    (hdomain : domainOf account contact = domain) :
    buildBlfTarget account contact =
      if x ≠ "" then
        if '@' ∈ x.toList ∨ startsWith x "sip:" then x
        else if domain ≠ "" then s!"sip:{x}@{domain}"
        else x
      else dartTrim contact.sipUri := by
  subst hx hdomain
  rfl

/-- What the contacts screen subscribes a contact to. -/
theorem subscribed_iff (he : '@' ∉ e.toList) :
    buildBlfTarget account contact = s!"sip:{e}@{d}" ↔ Subscribed account e d contact := by
  have hparts (x y : String) : (s!"sip:{x}@{y}").toList =
      "sip:".toList ++ (x.toList ++ '@' :: y.toList) := by simp [toString]
  have hat : '@' ∈ (s!"sip:{e}@{d}").toList := by rw [hparts]; simp
  have hinj (x y : String) (hx : '@' ∉ x.toList) :
      s!"sip:{x}@{y}" = s!"sip:{e}@{d}" ↔ x = e ∧ y = d := by
    rw [← String.toList_inj, hparts, hparts, List.append_cancel_left_eq,
      append_cons_inj hx he, String.toList_inj, String.toList_inj]
  unfold Subscribed
  dsimp only
  generalize hextension : dartTrim (contact.extension.getD "") = x
  generalize hdomain : domainOf account contact = domain
  rw [buildBlfTarget_eq hextension hdomain]
  clear hextension hdomain
  by_cases hx : x = ""
  · subst hx
    have hne : "" ≠ s!"sip:{e}@{d}" := by
      intro heq
      rw [← heq] at hat
      simp at hat
    grind
  · rw [if_pos hx]
    by_cases hfull : '@' ∈ x.toList ∨ startsWith x "sip:" = true
    · rw [if_pos hfull]
      grind
    · have hne : x ≠ s!"sip:{e}@{d}" := by
        rintro rfl
        exact hfull (.inl hat)
      rw [if_neg hfull]
      by_cases hdomain : domain ≠ ""
      · rw [if_pos hdomain, hinj x domain fun hx ↦ hfull (.inl hx)]
        grind
      · rw [if_neg hdomain]
        grind

/-- The white space around an address does not matter. -/
theorem userOf_dartTrim (address : String) :
    userOf lower (dartTrim address) = userOf lower address := by
  rw [userOf, userOf, dartTrim, String.toList_ofList, strip_strip]

/-- The user of a text that is no address is the text. -/
theorem userOf_of_clean (h : CaseMap lower) (he : '@' ∉ e.toList)
    (hclean : Clean isDartWhitespace e.toList) :
    userOf lower e = unbracketed (withoutScheme (e.toList.map lower)) := by
  have hat : ∀ x ∈ withoutScheme (e.toList.map lower), (x ≠ '@' : Bool) = true :=
    fun x hx ↦ ne_at_of_mem_map h he x (mem_of_mem_withoutScheme hx)
  rw [userOf, hclean.strip_eq, List.takeWhile_eq_self_iff.mpr hat]

/-- The lower case of a trimmed text is trimmed. -/
theorem clean_map (h : CaseMap lower) {s : List Char} (hs : Clean isDartWhitespace s) :
    Clean isDartWhitespace (s.map lower) := by
  constructor
  · intro a ha
    rw [List.head?_map, Option.mem_def, Option.map_eq_some_iff] at ha
    obtain ⟨c, hc, rfl⟩ := ha
    rw [h.white, hs.head c hc]
  · intro a ha
    rw [List.getLast?_map, Option.mem_def, Option.map_eq_some_iff] at ha
    obtain ⟨c, hc, rfl⟩ := ha
    rw [h.white, hs.last c hc]

/-- There are no brackets around a scheme. -/
theorem unbracketed_of_scheme {s : List Char} (hs : Clean isDartWhitespace s)
    (hscheme : "sip:".toList <+: s) : unbracketed s = s := by
  obtain ⟨rest, rfl⟩ := hscheme
  unfold unbracketed
  rw [if_neg (by simp), hs.strip_eq]

/-- A subscribed contact goes by the user of its target if it is recognised. -/
theorem goesBy_iff (h : CaseMap lower) (he : '@' ∉ e.toList)
    (hsub : Subscribed account e d contact) :
    GoesBy lower e d contact ↔ Recognised lower e d contact := by
  have hmore : GoesBy lower e d { contact with extension := none } → GoesBy lower e d contact := by
    rintro ⟨huser, address, haddress, hkey⟩
    simp only [Option.toList_none, List.mem_cons, List.not_mem_nil, or_false] at haddress
    exact ⟨huser, address, haddress ▸ List.mem_cons_self, hkey⟩
  constructor
  · rintro ⟨huser, address, haddress, hkey⟩
    refine ⟨huser, fun hext hscheme ↦ ?_⟩
    rcases List.mem_cons.mp haddress with rfl | haddress
    · exact ⟨huser, contact.sipUri, List.mem_cons_self, hkey⟩
    · -- The scheme is cut off the extension, so what is left is too short.
      have hopt : contact.extension = some address := by simpa using haddress
      rw [hopt, Option.getD_some] at hext
      have hclean : Clean isDartWhitespace e.toList := by
        rw [← hext, dartTrim, String.toList_ofList]
        exact clean_strip _ _
      have huser : userOf lower address = unbracketed ((e.toList.map lower).drop 4) := by
        rw [← userOf_dartTrim, hext, userOf_of_clean h he hclean, withoutScheme,
          if_pos (List.isPrefixOf_iff_prefix.mpr hscheme)]
      have hlong : 4 ≤ (e.toList.map lower).length := hscheme.length_le
      have hshort := (unbracketed_sublist ((e.toList.map lower).drop 4)).length_le
      have hshorter := (unbracketed_sublist (userOf lower address)).length_le
      rw [← huser, List.length_drop] at hshort
      rw [unbracketed_of_scheme (clean_map h hclean) hscheme] at hkey
      rcases hkey with hkey | ⟨-, hkey⟩
      · rw [hkey] at hshort
        omega
      · rw [hkey] at hshorter
        omega
  · rintro ⟨huser, hscheme⟩
    have hfull {address : String} (hmem : address ∈ contact.sipUri :: contact.extension.toList)
        (haddress : dartTrim address = s!"sip:{e}@{d}") : GoesBy lower e d contact := by
      refine ⟨huser, address, hmem, .inl ?_⟩
      rw [← userOf_dartTrim, haddress, userOf_target h he]
    have hsome {x : String} (hx : dartTrim (contact.extension.getD "") = x) (hne : x ≠ "") :
        ∃ address ∈ contact.extension.toList, dartTrim address = x := by
      cases hopt : contact.extension with
      | none =>
        rw [hopt] at hx
        exact absurd hx.symm hne
      | some address =>
        rw [hopt] at hx
        exact ⟨address, by simp, hx⟩
    rcases hsub with hext | ⟨hext, hne, -⟩ | ⟨-, huri⟩
    · obtain ⟨address, hmem, haddress⟩ := hsome hext (by simp [← String.toList_inj, toString])
      exact hfull (List.mem_cons_of_mem _ hmem) haddress
    · by_cases hcut : "sip:".toList <+: e.toList.map lower
      · exact hmore (hscheme hext hcut)
      · obtain ⟨address, hmem, rfl⟩ := hsome hext hne
        have hclean : Clean isDartWhitespace (dartTrim address).toList := by
          rw [dartTrim, String.toList_ofList]
          exact clean_strip _ _
        refine ⟨huser, address, List.mem_cons_of_mem _ hmem, .inl ?_⟩
        rw [← userOf_dartTrim, userOf_of_clean h he hclean, withoutScheme,
          if_neg (by rwa [List.isPrefixOf_iff_prefix])]
    · exact hfull List.mem_cons_self huri

/-- The entries of a list with what is in front of them. -/
theorem forall_split_cons {α : Type} {P : List α → α → Prop} {a : α} {l : List α} :
    (∀ front b rest, a :: l = front ++ b :: rest → P front b) ↔
      P [] a ∧ ∀ front b rest, l = front ++ b :: rest → P (a :: front) b := by
  constructor
  · intro h
    exact ⟨h [] a l rfl, fun front b rest hl ↦ h (a :: front) b rest (by rw [hl]; rfl)⟩
  · rintro ⟨ha, hl⟩ front b rest hsplit
    cases front with
    | nil => exact (List.cons.inj hsplit).1 ▸ ha
    | cons c front =>
      obtain ⟨rfl, hrest⟩ := List.cons.inj hsplit
      exact hl front b rest hrest

/-- What a contact must be for it to stay as it is. -/
theorem kept_iff {t : String} :
    (if buildBlfTarget account contact = t then contact.presenceState = state
      else contact = contact) ↔
      (buildBlfTarget account contact = t → contact.presenceState = state) := by
  split
  · next h => simp [h]
  · next h => simp [h]

/-- What a contact must be for it to be written. -/
theorem written_iff {t : String} :
    (if buildBlfTarget account contact = t then
        { contact with presenceState := state, activity := activity }.presenceState = state
      else { contact with presenceState := state, activity := activity } = contact) ↔
      (buildBlfTarget account contact ≠ t →
        contact.presenceState = state ∧ contact.activity = activity) := by
  split
  · next h => simp [h]
  · next h =>
    rw [forall_prop_of_true h]
    cases contact
    simp only [BlfContact.mk.injEq, true_and]
    exact and_congr eq_comm eq_comm

/-- The first contact that matches is written if it has an id, and the others are kept. -/
theorem reachesRight_split {toLowerCase : String → String} {t : String} :
    ReachesRight toLowerCase account t state activity contacts ↔
      ∀ front contact rest, contacts = front ++ contact :: rest →
        ((contact.id ≠ "" ∧
          matchesPresenceTarget toLowerCase t (some (domainFromUri toLowerCase t)) contact = true ∧
          ∀ other ∈ front, ¬ matchesPresenceTarget toLowerCase t
            (some (domainFromUri toLowerCase t)) other = true) ∧
          (buildBlfTarget account contact ≠ t →
            contact.presenceState = state ∧ contact.activity = activity)) ∨
        (¬ (contact.id ≠ "" ∧
          matchesPresenceTarget toLowerCase t (some (domainFromUri toLowerCase t)) contact = true ∧
          ∀ other ∈ front, ¬ matchesPresenceTarget toLowerCase t
            (some (domainFromUri toLowerCase t)) other = true) ∧
          (buildBlfTarget account contact = t → contact.presenceState = state)) := by
  unfold ReachesRight onBlfStatusChanged
  induction contacts with
  | nil => simp [updatePresence]
  | cons contact contacts ih =>
    rw [updatePresence, forall_split_cons]
    by_cases hmatch : matchesPresenceTarget toLowerCase t (some (domainFromUri toLowerCase t))
        contact = true
    · have hkept : List.Forall₂ (fun contact contact' : BlfContact ↦
            if buildBlfTarget account contact = t then contact'.presenceState = state
            else contact' = contact) contacts contacts ↔
          ∀ front contact rest, contacts = front ++ contact :: rest →
            buildBlfTarget account contact = t → contact.presenceState = state := by
        clear ih
        induction contacts with
        | nil => simp
        | cons contact contacts ih => rw [List.forall₂_cons, kept_iff, ih, forall_split_cons]
      by_cases hid : contact.id ≠ ""
      · rw [if_pos hmatch, if_pos hid, List.forall₂_cons, written_iff, hkept]
        simp [hmatch, hid]
      · rw [if_pos hmatch, if_neg hid, List.forall₂_cons, kept_iff, hkept]
        simp [hmatch, hid]
    · rw [if_neg hmatch, List.forall₂_cons, kept_iff, ih]
      simp [hmatch]

/-- For every list of contacts, fallback account and report of a target `sip:e@d`, the report
reaches the contacts that are subscribed there and no other, if and only if it is shown right at
every contact, given those before it. -/
theorem reachesRight_iff (h : CaseMap lower) (he : '@' ∉ e.toList) :
    ReachesRight (lowerText lower) account s!"sip:{e}@{d}" state activity contacts ↔
      ∀ front contact rest, contacts = front ++ contact :: rest →
        ShownRight lower account e d state activity front contact := by
  rw [reachesRight_split]
  refine forall₄_congr fun front contact rest _ ↦ ?_
  have hmatch (other : BlfContact) : matchesPresenceTarget (lowerText lower) s!"sip:{e}@{d}"
      (some (domainFromUri (lowerText lower) s!"sip:{e}@{d}")) other = true ↔
        GoesBy lower e d other := matchesPresenceTarget_iff h he
  have hby : Subscribed account e d contact →
      (GoesBy lower e d contact ↔ Recognised lower e d contact) := goesBy_iff h he
  simp only [hmatch, subscribed_iff he, ne_eq]
  constructor
  · rintro (⟨⟨hid, hgoes, hfirst⟩, hshown⟩ | ⟨hwritten, hshown⟩)
    · exact ⟨fun hsub ↦ .inr ⟨hid, (hby hsub).mp hgoes, hfirst⟩, fun hsub _ _ ↦ .inr (hshown hsub)⟩
    · refine ⟨fun hsub ↦ .inl (hshown hsub), fun _ hgoes hfirst ↦ .inl ?_⟩
      by_contra hid
      exact hwritten ⟨hid, hgoes, hfirst⟩
  · intro hshown
    by_cases hwritten : contact.id ≠ "" ∧ GoesBy lower e d contact ∧
        ∀ other ∈ front, ¬ GoesBy lower e d other
    · exact .inl ⟨hwritten, fun hsub ↦
        (hshown.other hsub hwritten.2.1 hwritten.2.2).resolve_left hwritten.1⟩
    · refine .inr ⟨hwritten, fun hsub ↦ ?_⟩
      rcases hshown.subscribed hsub with hstate | ⟨hid, hrec, hfirst⟩
      · exact hstate
      · exact absurd ⟨hid, (hby hsub).mpr hrec, hfirst⟩ hwritten

/-- The lower case of ASCII. -/
theorem caseMap_asciiLower : CaseMap asciiLower := by
  have hlower (c : Char) : asciiLower c = c ∨
      (asciiLower c ≠ '@' ∧ c ≠ '@' ∧ isDartWhitespace (asciiLower c) = isDartWhitespace c ∧
        asciiLower (asciiLower c) = asciiLower c) := by
    by_cases hupper : 'A' ≤ c ∧ c ≤ 'Z'
    · right
      have hall : ∀ n < 91, 65 ≤ n → asciiLower (Char.ofNat n) ≠ '@' ∧ Char.ofNat n ≠ '@' ∧
          isDartWhitespace (asciiLower (Char.ofNat n)) = isDartWhitespace (Char.ofNat n) ∧
          asciiLower (asciiLower (Char.ofNat n)) = asciiLower (Char.ofNat n) := by decide
      have hlow : 65 ≤ c.toNat := hupper.1
      have hhigh : c.toNat ≤ 90 := hupper.2
      have hc := hall c.toNat (by omega) hlow
      rwa [Char.ofNat_toNat] at hc
    · exact .inl (if_neg hupper)
  refine ⟨by decide, fun c ↦ ?_, fun c ↦ ?_, fun c ↦ ?_⟩
  · rcases hlower c with hc | ⟨hc, hat, -⟩
    · rw [hc]
    · exact iff_of_false hc hat
  · rcases hlower c with hc | ⟨-, -, hc, -⟩
    · rw [hc]
    · exact hc
  · rcases hlower c with hc | ⟨-, -, -, hc⟩
    · rw [hc, hc]
    · exact hc

/-- A contact with an extension and a domain. -/
def extensionAt (id domain : String) : BlfContact where
  id := id
  name := id
  sipUri := ""
  extension := some "101"
  presenceDomain := domain
  presenceState := "Unknown"
  activity := none

/-- An account of the office. -/
def officeAccount : AccountSchema := ⟨"pbx", "10.0.0.5"⟩

/-- A contact that no other goes before is reached. -/
theorem reachesRight_iff_alone :
    ReachesRight (lowerText asciiLower) officeAccount "sip:101@b.example" "Busy" none
      [extensionAt "2" "b.example"] := by
  have hsubscribed : Subscribed officeAccount "101" "b.example" (extensionAt "2" "b.example") :=
    .inr (.inl ⟨by decide, by decide, by decide, by decide, by decide⟩)
  have hrec : Recognised asciiLower "101" "b.example" (extensionAt "2" "b.example") :=
    ⟨by decide, fun _ hscheme ↦ absurd hscheme (by decide)⟩
  have hat : '@' ∉ "101".toList := by decide
  have htarget (e d : String) (he : e = "101") (hd : d = "b.example") :
      "sip:101@b.example" = s!"sip:{e}@{d}" := by
    subst he hd
    decide
  rw [htarget "101" "b.example" rfl rfl]
  refine (reachesRight_iff caseMap_asciiLower hat).mpr (forall_split_cons.mpr
    ⟨⟨fun _ ↦ .inr ⟨by decide, hrec, by simp⟩, fun hsub _ _ ↦ absurd hsubscribed hsub⟩, ?_⟩)
  intro front contact rest hsplit
  simp at hsplit

/-- One extension at two domains: the status of the second is shown by the first. -/
theorem other_domain_written :
    buildBlfTarget officeAccount (extensionAt "2" "b.example") = "sip:101@b.example" ∧
      (onBlfStatusChanged (lowerText asciiLower) "sip:101@b.example" "Busy" none
        [extensionAt "1" "a.example", extensionAt "2" "b.example"]).map (·.presenceState) =
        ["Busy", "Unknown"] ∧
      ¬ ReachesRight (lowerText asciiLower) officeAccount "sip:101@b.example" "Busy" none
        [extensionAt "1" "a.example", extensionAt "2" "b.example"] := by
  have hafter : onBlfStatusChanged (lowerText asciiLower) "sip:101@b.example" "Busy" none
      [extensionAt "1" "a.example", extensionAt "2" "b.example"] =
      [{ extensionAt "1" "a.example" with presenceState := "Busy" },
        extensionAt "2" "b.example"] := by decide +kernel
  refine ⟨by decide, by rw [hafter]; rfl, fun h ↦ ?_⟩
  unfold ReachesRight at h
  rw [hafter, List.forall₂_cons] at h
  have hother : buildBlfTarget officeAccount (extensionAt "1" "a.example") ≠
      "sip:101@b.example" := by decide
  have hkept := h.1
  rw [if_neg hother] at hkept
  exact absurd (congrArg (·.presenceState) hkept) (by decide)

end Presence

end PacketDial.Ui
