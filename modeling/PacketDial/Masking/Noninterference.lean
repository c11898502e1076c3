import PacketDial.Masking.Exposed

/-!
# What a masked message tells of its secrets

`mask_sip_log` gives one text for all secrets of a message exactly when each line is `Hidden`:
a header has its colon right behind its name, and the scan covers the passwords of any other
line.
-/

namespace PacketDial.Masking

open PacketDial.Core PacketDial.Lib
open String (utf8Len)

/-- Masking the line gives one text for all its secrets. -/
def LineForm.Hidden : LineForm → Prop
  | .header _ gap => gap = []
  | .line (.text t) => isScanned t = true → Cuts t
  | .line (.hole t rest) => isAuthorization t = true ∨ Covered (.hole t rest)

/-- The form without the carriage return at its end. -/
def Form.chomp : Form → Form
  | .text t => .text (Masking.chomp t)
  | .hole t rest => .hole t rest.chomp

/-- The line without the carriage return at its end. -/
def LineForm.chomp : LineForm → LineForm
  | .header name gap => .header name gap
  | .line form => .line form.chomp

/-- Every line of the message is hidden. -/
def Message.Hidden (m : Message) : Prop :=
  (∀ row ∈ m.rows, row.chomp.Hidden) ∧ ∀ row ∈ m.last, row.Hidden

/-! ### Lines of text -/

/-- A pattern that ends where it first has a character matches the same, whatever follows that
character in the text. -/
theorem startsFolded_stop {q : List Char} {c : Char} (d : Char) (s y : List Char)
    (hq : ∀ p ∈ q, (lowerChar c == [p]) = false) :
    startsFolded (q ++ [d]) (s ++ c :: y) = startsFolded (q ++ [d]) (s ++ [c]) := by
  induction q generalizing s with
  | nil => cases s <;> rfl
  | cons p q ih =>
    have htail : ∀ x ∈ q, (lowerChar c == [x]) = false := fun x hx ↦
      hq x (List.mem_cons_of_mem p hx)
    cases s with
    | nil => simp only [List.cons_append, List.nil_append, startsFolded, hq p List.mem_cons_self,
        Bool.false_and]
    | cons x s => simp only [List.cons_append, startsFolded, ih s htail]

/-- Whether a line is a header is settled at its first colon. -/
theorem isAuthorization_colon (s y : List Char) :
    isAuthorization (s ++ ':' :: y) = isAuthorization (s ++ [':']) := by
  have hauth := startsFolded_stop (q := "authorization".toList) (c := ':') ':' s y
    (List.all_iff_forall_prop.mp (by decide +kernel))
  have hproxy := startsFolded_stop (q := "proxy-authorization".toList) (c := ':') ':' s y
    (List.all_iff_forall_prop.mp (by decide +kernel))
  unfold isAuthorization
  exact congr (congrArg or hauth) hproxy

/-- A line with a colon and an at sign that is no header is scanned, or has nothing to scan. -/
theorem maskLine_of_not_isAuthorization {line : List Char} (h : isAuthorization line = false)
    (hat : '@' ∈ line) (hcolon : ':' ∈ line) : maskLine line = maskSipUriPasswords line := by
  have hscan : isScanned line = (beforeSip line).isSome := by
    simp [isScanned, h, hat, hcolon]
  rw [maskLine_eq, if_neg (by simp [h]), hscan]
  cases hpre : beforeSip line with
  | none => rw [maskSipUriPasswords_done hpre]; rfl
  | some pre => rfl

/-- A line without an at sign that is no header stays. -/
theorem maskLine_of_no_at {line : List Char} (h : isAuthorization line = false)
    (hat : '@' ∉ line) : maskLine line = .ok line := by
  have hscan : isScanned line = false := by simp [isScanned, hat]
  rw [maskLine_eq, h, hscan]
  rfl

/-- A line of text with places for passwords is hidden exactly when masking it tells nothing of
them. -/
theorem line_hidden_iff {f : Form} (hplaced : f.Placed) :
    (∃ out, ∀ σ : Nat → Password, maskLine (f.fill σ) = .ok out) ↔ (LineForm.line f).Hidden := by
  cases hplaced with
  | text t =>
    have hconst : (∃ out, ∀ σ : Nat → Password, maskLine ((Form.text t).fill σ) = .ok out) ↔
        ∃ out, maskLine t = .ok out := by
      constructor
      · rintro ⟨out, hout⟩
        exact ⟨out, hout blank⟩
      · rintro ⟨out, hout⟩
        exact ⟨out, fun _ ↦ hout⟩
    rw [hconst]
    exact maskLine_ok_iff t
  | @hole t rest hcolon hat hrest =>
    obtain ⟨s, rfl⟩ : ∃ s, t = s ++ [':'] := by
      obtain ⟨s, hs⟩ := List.getLast?_eq_some_iff.mp hcolon
      exact ⟨s, hs⟩
    have hfill : ∀ σ, (Form.hole (s ++ [':']) rest).fill σ =
        s ++ ':' :: ((σ 0).text ++ rest.fill fun n ↦ σ (n + 1)) := fun σ ↦ by
      simp only [Form.fill, List.append_assoc, List.cons_append, List.nil_append]
    cases hauth : isAuthorization (s ++ [':']) with
    | true =>
      have hmem : ':' ∈ s ++ [':'] := by simp
      obtain ⟨name, post, hname, hno⟩ := List.eq_append_cons_of_mem hmem
      have hconst : ∀ σ : Nat → Password, maskLine ((Form.hole (s ++ [':']) rest).fill σ) =
          .ok (name ++ ": ***MASKED***".toList) := by
        intro σ
        have hline : (Form.hole (s ++ [':']) rest).fill σ =
            name ++ ':' :: (post ++ ((σ 0).text ++ rest.fill fun n ↦ σ (n + 1))) := by
          simp only [Form.fill, List.append_assoc]
          rw [← List.append_assoc, hname, List.append_assoc, List.cons_append]
        have hlong : isAuthorization ((Form.hole (s ++ [':']) rest).fill σ) = true := by
          rw [hfill, isAuthorization_colon, hauth]
        rw [hline] at hlong ⊢
        exact maskLine_header _ hno hlong
      exact ⟨fun _ ↦ .inl hauth, fun _ ↦ ⟨_, hconst⟩⟩
    | false =>
      have hscan : ∀ σ : Nat → Password, maskLine ((Form.hole (s ++ [':']) rest).fill σ) =
          maskSipUriPasswords ((Form.hole (s ++ [':']) rest).fill σ) := by
        intro σ
        have hhead := Form.head?_fill hat fun n ↦ σ (n + 1)
        have hmem : '@' ∈ rest.fill fun n ↦ σ (n + 1) := List.mem_of_head? hhead
        apply maskLine_of_not_isAuthorization
        · rw [hfill, isAuthorization_colon, hauth]
        · rw [hfill]
          simp [hmem]
        · rw [hfill]
          simp
      have hblind := blind_iff_covered (.hole hcolon hat hrest)
      simp only [hscan, LineForm.Hidden, hauth, Bool.false_eq_true, false_or]
      exact hblind

/-! ### Headers -/

/-- The name of a header has no character that a lowered name lacks. -/
theorem not_mem_name {name : List Char} {c : Char}
    (hname : toLowercase name = "authorization".toList ∨
      toLowercase name = "proxy-authorization".toList)
    (hlow : lowerChar c = [c]) (hno : c ∉ "proxy-authorization".toList) : c ∉ name := by
  intro hm
  have hmem : c ∈ toLowercase name := List.mem_flatMap.mpr ⟨c, hm, by simp [hlow]⟩
  have hsub : "authorization".toList ⊆ "proxy-authorization".toList := by decide
  rcases hname with h | h
  · rw [h] at hmem
    exact hno (hsub hmem)
  · rw [h] at hmem
    exact hno hmem

/-- Lowering a text in two parts. -/
theorem toLowercase_append (s t : List Char) :
    toLowercase (s ++ t) = toLowercase s ++ toLowercase t := List.flatMap_append

/-- Whether a line is a header, told from its lowered copy. -/
theorem isAuthorization_eq (line : List Char) :
    isAuthorization line = ("authorization:".toList.isPrefixOf (toLowercase line) ||
      "proxy-authorization:".toList.isPrefixOf (toLowercase line)) := by
  rw [isPrefixOf_toLowercase (by decide), isPrefixOf_toLowercase (by decide)]
  rfl

/-- With its colon right behind the name, a header is recognised. -/
theorem isAuthorization_of_name {name : List Char}
    (hname : toLowercase name = "authorization".toList ∨
      toLowercase name = "proxy-authorization".toList) :
    isAuthorization (name ++ [':']) = true := by
  have hlow : lowerChar ':' = [':'] := by decide +kernel
  rw [isAuthorization_eq, toLowercase_append, toLowercase_cons, hlow]
  rcases hname with h | h
  · rw [h]
    rfl
  · rw [h]
    rfl

/-- With a blank behind the name, a header is not recognised. -/
theorem not_isAuthorization_of_blank {name : List Char} {c : Char} (y : List Char)
    (hname : toLowercase name = "authorization".toList ∨
      toLowercase name = "proxy-authorization".toList)
    (hc : c = ' ' ∨ c = '\t') : isAuthorization (name ++ c :: y) = false := by
  have hlow : lowerChar c = [c] := by
    rcases hc with rfl | rfl <;> decide +kernel
  rw [isAuthorization_eq, toLowercase_append, toLowercase_cons, hlow]
  rcases hname with h | h
  · rw [h]
    rcases hc with rfl | rfl <;> rfl
  · rw [h]
    rcases hc with rfl | rfl <;> rfl

/-- The value that is one letter. -/
def spelledValue (b : Bool) : Value := ⟨[letter b], by cases b <;> decide⟩

/-- A header is hidden exactly when masking tells nothing of its value. `cut` may drop the
carriage return at the end of the value. -/
theorem header_hidden_iff {name gap : List Char} (cut : List Char → List Char)
    (hcut : ∀ b, cut [letter b] = [letter b])
    (hvalid : (LineForm.header name gap).Valid) :
    (∃ out, ∀ v : Value, maskLine (name ++ gap ++ ':' :: cut v.text) = .ok out) ↔
      (LineForm.header name gap).Hidden := by
  obtain ⟨hname, hgap⟩ := hvalid
  constructor
  · rintro ⟨out, hout⟩
    cases gap with
    | nil => rfl
    | cons c gap =>
      exfalso
      apply no_clash out (name ++ c :: gap ++ [':'])
      intro b
      have hok := hout (spelledValue b)
      have hauth : isAuthorization (name ++ c :: gap ++ ':' :: cut [letter b]) = false := by
        rw [List.append_assoc, List.cons_append]
        exact not_isAuthorization_of_blank _ hname (hgap c List.mem_cons_self)
      have hat : '@' ∉ name ++ c :: gap ++ ':' :: cut [letter b] := by
        have hn : '@' ∉ name := not_mem_name hname (by decide +kernel) (by decide)
        have hg : '@' ∉ c :: gap := by
          intro hm
          rcases hgap _ hm with h | h <;> revert h <;> decide
        have hl : '@' ∉ [letter b] := by
          cases b <;> decide
        rw [hcut]
        simp only [List.mem_append, List.mem_cons, not_or] at hg hl ⊢
        exact ⟨⟨hn, hg⟩, by decide, hl⟩
      rw [show cut (spelledValue b).text = cut [letter b] from rfl,
        maskLine_of_no_at hauth hat, hcut] at hok
      refine ⟨[], ?_⟩
      rw [← Except.ok.inj hok]
      simp
  · intro hnil
    have hnil : gap = [] := hnil
    subst hnil
    have hcolon : ':' ∉ name := not_mem_name hname (by decide +kernel) (by decide)
    refine ⟨name ++ ": ***MASKED***".toList, ?_⟩
    intro v
    rw [List.append_nil]
    apply maskLine_header _ hcolon
    rw [isAuthorization_colon, isAuthorization_of_name hname]

/-! ### Rows -/

/-- A first character other than a carriage return stays. -/
theorem head?_chomp {t : List Char} (h : t.head? = some '@') : (chomp t).head? = some '@' := by
  cases t with
  | nil => cases h
  | cons c t =>
    have hc : c = '@' := Option.some.inj h
    subst hc
    cases t with
    | nil => rfl
    | cons d t =>
      have happ := chomp_append ['@'] (List.cons_ne_nil d t)
      rw [List.singleton_append] at happ
      rw [happ]
      rfl

/-- The text behind the first place keeps its first character. -/
theorem Form.head?_head_chomp {f : Form} (h : f.head.head? = some '@') :
    f.chomp.head.head? = some '@' := by
  cases f with
  | text t => exact head?_chomp h
  | hole t rest => exact h

/-- Its places stay between colons and at signs. -/
theorem Form.Placed.chomp {f : Form} (h : f.Placed) : f.chomp.Placed := by
  induction h with
  | text t => exact .text _
  | hole hcolon hat _ ih => exact .hole hcolon (Form.head?_head_chomp hat) ih

/-- Only the last fixed text of a form is chomped. -/
theorem Form.chomp_fill {f : Form} (h : f.Placed) (σ : Nat → Password) :
    Masking.chomp (f.fill σ) = f.chomp.fill σ := by
  induction h generalizing σ with
  | text t => rfl
  | @hole t rest hcolon hat hrest ih =>
    have hhead := Form.head?_fill hat fun n ↦ σ (n + 1)
    have hne : (rest.fill fun n ↦ σ (n + 1)) ≠ [] := by
      intro h
      rw [h] at hhead
      cases hhead
    simp only [Form.fill, Form.chomp]
    rw [chomp_append _ hne, ih]

/-- A row is hidden exactly when masking the line read from it tells nothing of its secrets. -/
theorem row_hidden_iff {row : LineForm} (hvalid : row.Valid) :
    (∃ out, ∀ s, maskLine (chomp (row.fill s)) = .ok out) ↔ row.chomp.Hidden := by
  cases row with
  | header name gap =>
    have hcut : ∀ b, chomp [letter b] = [letter b] := fun b ↦ by cases b <;> rfl
    have hfill : ∀ s, chomp ((LineForm.header name gap).fill s) =
        name ++ gap ++ ':' :: chomp s.value.text := by
      intro s
      have hcolon : chomp (':' :: s.value.text) = ':' :: chomp s.value.text := by
        cases ht : s.value.text with
        | nil => rfl
        | cons c t =>
          have happ := chomp_append [':'] (List.cons_ne_nil c t)
          rwa [List.singleton_append] at happ
      simp only [LineForm.fill]
      rw [chomp_append _ (List.cons_ne_nil _ _), hcolon]
    have hconst : (∃ out, ∀ s, maskLine (chomp ((LineForm.header name gap).fill s)) = .ok out) ↔
        ∃ out, ∀ v : Value, maskLine (name ++ gap ++ ':' :: chomp v.text) = .ok out := by
      simp only [hfill]
      constructor
      · rintro ⟨out, hout⟩
        exact ⟨out, fun v ↦ hout ⟨v, blank⟩⟩
      · rintro ⟨out, hout⟩
        exact ⟨out, fun s ↦ hout s.value⟩
    rw [hconst, header_hidden_iff chomp hcut hvalid]
    rfl
  | line f =>
    have hplaced := hvalid.1.placed
    have hconst : (∃ out, ∀ s, maskLine (chomp ((LineForm.line f).fill s)) = .ok out) ↔
        ∃ out, ∀ σ : Nat → Password, maskLine (f.chomp.fill σ) = .ok out := by
      simp only [LineForm.fill, Form.chomp_fill hplaced]
      constructor
      · rintro ⟨out, hout⟩
        exact ⟨out, fun σ ↦ hout ⟨spelledValue true, σ⟩⟩
      · rintro ⟨out, hout⟩
        exact ⟨out, fun s ↦ hout s.passwords⟩
    rw [hconst]
    exact line_hidden_iff hplaced.chomp

/-- The text behind the last newline is hidden exactly when masking it tells nothing of its
secrets. -/
theorem last_hidden_iff {row : LineForm} (hvalid : row.Valid) :
    (∃ out, ∀ s, maskLine (row.fill s) = .ok out) ↔ row.Hidden := by
  cases row with
  | header name gap =>
    rw [← header_hidden_iff id (fun _ ↦ rfl) hvalid]
    constructor
    · rintro ⟨out, hout⟩
      exact ⟨out, fun v ↦ hout ⟨v, blank⟩⟩
    · rintro ⟨out, hout⟩
      exact ⟨out, fun s ↦ hout s.value⟩
  | line f =>
    rw [← line_hidden_iff hvalid.1.placed]
    constructor
    · rintro ⟨out, hout⟩
      exact ⟨out, fun σ ↦ hout ⟨spelledValue true, σ⟩⟩
    · rintro ⟨out, hout⟩
      exact ⟨out, fun s ↦ hout s.passwords⟩

/-! ### Messages -/

/-- Masked rows, each with its newline. -/
def maskRows (rows : List LineForm) (σ : Nat → Secrets) : Except Halt (List Char) :=
  ((rowLines rows σ).mapM maskLine).map (·.flatMap (· ++ ['\n']))

/-- The masked text behind the last newline. -/
def maskLast : Option LineForm → Secrets → Except Halt (List Char)
  | none, _ => .ok []
  | some row, s => maskLine (row.fill s)

/-- One result, joined of two computations with inputs of their own. -/
def joined (x y : Except Halt (List Char)) (mid : List Char) : Except Halt (List Char) := do
  let a ← x
  let b ← y
  return a ++ mid ++ b

/-- A joined result is one text for all inputs exactly when both parts are. -/
theorem joined_const_iff {α β : Type} [Nonempty α] [Nonempty β]
    (g : α → Except Halt (List Char)) (h : β → Except Halt (List Char)) (mid : List Char) :
    (∃ out, ∀ x y, joined (g x) (h y) mid = .ok out) ↔
      (∃ out, ∀ x, g x = .ok out) ∧ ∃ out, ∀ y, h y = .ok out := by
  constructor
  · rintro ⟨out, hout⟩
    have hparts : ∀ x y, ∃ a b, g x = .ok a ∧ h y = .ok b ∧ a ++ mid ++ b = out := by
      intro x y
      have hxy := hout x y
      unfold joined at hxy
      cases ha : g x with
      | error e =>
        rw [ha] at hxy
        cases hxy
      | ok a =>
        cases hb : h y with
        | error e =>
          rw [ha, hb] at hxy
          cases hxy
        | ok b =>
          rw [ha, hb] at hxy
          exact ⟨a, b, rfl, rfl, Except.ok.inj hxy⟩
    obtain ⟨x₀⟩ := ‹Nonempty α›
    obtain ⟨y₀⟩ := ‹Nonempty β›
    obtain ⟨a₀, b₀, ha₀, hb₀, h₀⟩ := hparts x₀ y₀
    refine ⟨⟨a₀, fun x ↦ ?_⟩, b₀, fun y ↦ ?_⟩
    · obtain ⟨a, b, ha, hb, hab⟩ := hparts x y₀
      have hbb : b = b₀ := Except.ok.inj (hb.symm.trans hb₀)
      rw [hbb, ← h₀] at hab
      have haa : a = a₀ := List.append_cancel_right (List.append_cancel_right hab)
      rw [ha, haa]
    · obtain ⟨a, b, ha, hb, hab⟩ := hparts x₀ y
      have haa : a = a₀ := Except.ok.inj (ha.symm.trans ha₀)
      rw [haa, ← h₀] at hab
      have hbb : b = b₀ := List.append_cancel_left hab
      rw [hb, hbb]
  · rintro ⟨⟨a, ha⟩, b, hb⟩
    refine ⟨a ++ mid ++ b, fun x y ↦ ?_⟩
    rw [ha, hb]
    rfl

instance : Nonempty Secrets := ⟨⟨spelledValue true, blank⟩⟩

/-- The secrets of many lines are those of the first and those of the others. -/
theorem forall_secrets_iff {p : Secrets → (Nat → Secrets) → Prop} :
    (∀ σ : Nat → Secrets, p (σ 0) fun n ↦ σ (n + 1)) ↔ ∀ s τ, p s τ := by
  constructor
  · intro h s τ
    exact h fun n ↦ Nat.casesOn n s τ
  · intro h σ
    exact h _ _

/-- Masked rows are the first one and the others. -/
theorem maskRows_cons (row : LineForm) (rows : List LineForm) (σ : Nat → Secrets) :
    maskRows (row :: rows) σ =
      joined (maskLine (chomp (row.fill (σ 0)))) (maskRows rows fun n ↦ σ (n + 1)) ['\n'] := by
  simp only [maskRows, rowLines, List.mapM_cons, joined]
  cases maskLine (chomp (row.fill (σ 0))) with
  | error e => rfl
  | ok a =>
    cases (rowLines rows fun n ↦ σ (n + 1)).mapM maskLine with
    | error e => rfl
    | ok as => rfl

/-- Rows are hidden exactly when masking them tells nothing of their secrets. -/
theorem rows_hidden_iff {rows : List LineForm} (hvalid : ∀ row ∈ rows, row.Valid) :
    (∃ out, ∀ σ, maskRows rows σ = .ok out) ↔ ∀ row ∈ rows, row.chomp.Hidden := by
  induction rows with
  | nil =>
    constructor
    · intro _ row hrow
      cases hrow
    · intro _
      exact ⟨[], fun _ ↦ rfl⟩
  | cons row rows ih =>
    have hrow := row_hidden_iff (hvalid row List.mem_cons_self)
    have htail := ih fun r hr ↦ hvalid r (List.mem_cons_of_mem row hr)
    rw [List.forall_mem_cons, ← hrow, ← htail, ← joined_const_iff _ _ ['\n']]
    simp only [maskRows_cons]
    constructor
    · rintro ⟨out, hout⟩
      exact ⟨out, forall_secrets_iff.mp hout⟩
    · rintro ⟨out, hout⟩
      exact ⟨out, fun σ ↦ hout _ _⟩

/-- Masking of a filled in message, by its rows and its last line. -/
theorem maskSipLog_fill (m : Message) (σ : Nat → Secrets) :
    maskSipLog (m.fill σ) =
      joined (maskRows m.rows fun n ↦ σ (n + 1)) (maskLast m.last (σ 0)) [] := by
  obtain ⟨texts, hfill, hlines, htexts⟩ := exists_fillRows m.rowsValid fun n ↦ σ (n + 1)
  have htail : '\n' ∉ fillLast m.last (σ 0) := by
    cases hlast : m.last with
    | none => exact List.not_mem_nil
    | some row => exact LineForm.newline_not_mem (m.lastValid row hlast) (σ 0)
  have hmask : maskLine (fillLast m.last (σ 0)) = maskLast m.last (σ 0) := by
    cases m.last with
    | none => exact maskLine_nil
    | some row => rfl
  rw [Message.fill, hfill, maskSipLog_rows htexts htail, maskRows, hlines, hmask, joined]
  cases (texts.map chomp).mapM maskLine with
  | error e => rfl
  | ok masked =>
    cases maskLast m.last (σ 0) with
    | error e => rfl
    | ok last =>
      change Except.ok _ = Except.ok (_ ++ [] ++ _)
      rw [List.append_nil]

/-- Masking a message gives one text for all its secrets exactly when each of its lines is
hidden. -/
theorem masks_secrets_iff (m : Message) :
    (∃ out, ∀ σ, maskSipLog (m.fill σ) = .ok out) ↔ m.Hidden := by
  have hlast : (∃ out, ∀ s, maskLast m.last s = .ok out) ↔ ∀ row ∈ m.last, row.Hidden := by
    cases h : m.last with
    | none =>
      constructor
      · intro _ row hrow
        cases hrow
      · intro _
        exact ⟨[], fun _ ↦ rfl⟩
    | some row =>
      have hrow := last_hidden_iff (m.lastValid row h)
      simp only [maskLast, hrow, Option.mem_some_iff, forall_eq']
  unfold Message.Hidden
  rw [← rows_hidden_iff m.rowsValid, ← hlast, ← joined_const_iff _ _ []]
  simp only [maskSipLog_fill]
  constructor
  · rintro ⟨out, hout⟩
    have hparts := forall_secrets_iff (p := fun s τ ↦
      joined (maskRows m.rows τ) (maskLast m.last s) [] = .ok out)
    exact ⟨out, fun τ s ↦ hparts.mp hout s τ⟩
  · rintro ⟨out, hout⟩
    exact ⟨out, fun σ ↦ hout _ _⟩

/-- A message whose `Contact` is a `sips:` URI with a password. -/
def sipsContact : Message where
  rows :=
    [.line (.text "MESSAGE sip:b@h SIP/2.0\r".toList),
      .line (.hole ("Contact: <".toList ++ "sips:".toList ++ "u".toList ++ [':'])
        (.text "@h>\r".toList))]
  last := none
  rowsValid := by
    intro row hrow
    simp only [List.mem_cons, List.not_mem_nil, or_false] at hrow
    rcases hrow with rfl | rfl
    · exact ⟨.text _, by decide⟩
    · have huser := List.all_iff_forall_prop.mp
        (by decide : "u".toList.all fun c ↦ endsUri c = false ∧ c ≠ '@' ∧ c ≠ ':')
      exact ⟨.hole (.inr (by decide +kernel)) huser rfl (.text _), by decide⟩
  lastValid := by
    intro row hrow
    cases hrow
  lastSome := by
    intro row hrow
    cases hrow

/-- The scan looks for `sip:`, which is no part of `sips:`: the password stays. -/
theorem sips_password_stays :
    ¬ ∀ (m : Message) σ τ, maskSipLog (m.fill σ) = maskSipLog (m.fill τ) := by
  intro h
  have heq := h sipsContact (fun _ ↦ ⟨spelledValue true, fun _ ↦ spelled true 1⟩)
    (fun _ ↦ ⟨spelledValue true, fun _ ↦ spelled false 1⟩)
  have hne : maskSipLog (sipsContact.fill fun _ ↦ ⟨spelledValue true, fun _ ↦ spelled true 1⟩) ≠
      maskSipLog (sipsContact.fill fun _ ↦ ⟨spelledValue true, fun _ ↦ spelled false 1⟩) := by
    decide +kernel
  exact hne heq

end PacketDial.Masking
