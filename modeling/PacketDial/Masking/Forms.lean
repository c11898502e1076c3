import PacketDial.Masking.Cuts

/-!
# Messages with places for secrets

A `Message` is a SIP text with its secrets left out: the values of its `Authorization` and
`Proxy-Authorization` headers and the passwords in its `sip:` and `sips:` URIs. Two texts that
differ only there are two ways to fill in one message.
-/

namespace PacketDial.Masking

open PacketDial.Core PacketDial.Lib
open String (utf8Len)

/-- A password as it stands in a URI. -/
structure Password where
  text : List Char
  plain : ∀ c ∈ text, endsUri c = false ∧ c ≠ '@'

/-- The value of a header. -/
structure Value where
  text : List Char
  oneLine : '\n' ∉ text

/-- What one line keeps secret: the value if it is a header, a password for each place. -/
structure Secrets where
  value : Value
  passwords : Nat → Password

/-- A line with places for passwords between its fixed texts. -/
inductive Form where
  | text (t : List Char)
  | hole (t : List Char) (rest : Form)

/-- The text in front of the first place. -/
def Form.head : Form → List Char
  | .text t => t
  | .hole t _ => t

/-- The fixed texts. -/
def Form.fixed : Form → List Char
  | .text t => t
  | .hole t rest => t ++ rest.fixed

/-- The line with its places filled in. -/
def Form.fill : Form → (Nat → Password) → List Char
  | .text t, _ => t
  | .hole t rest, σ => t ++ (σ 0).text ++ rest.fill fun n ↦ σ (n + 1)

/-- Each place is for the password of a URI `sip:user:PW@host` or `sips:user:PW@host`, with the
scheme in any letter case. -/
inductive Form.OfUris : Form → Prop where
  | text (t : List Char) : OfUris (.text t)
  | hole {front scheme user : List Char} {rest : Form}
      (hscheme : toLowercase scheme = "sip:".toList ∨ toLowercase scheme = "sips:".toList)
      (huser : ∀ c ∈ user, endsUri c = false ∧ c ≠ '@' ∧ c ≠ ':')
      (hat : rest.head.head? = some '@') (hrest : rest.OfUris) :
      OfUris (.hole (front ++ scheme ++ user ++ [':']) rest)

/-- A line of a message: a header with a secret value, where blanks may stand in front of the
colon, or text with places for passwords. -/
inductive LineForm where
  | header (name gap : List Char)
  | line (form : Form)

/-- The line with its secrets filled in. -/
def LineForm.fill : LineForm → Secrets → List Char
  | .header name gap, s => name ++ gap ++ ':' :: s.value.text
  | .line form, s => form.fill s.passwords

/-- The secrets of the line are values of `Authorization` or `Proxy-Authorization`, the name in
any letter case, or passwords of URIs; and it is one line. -/
def LineForm.Valid : LineForm → Prop
  | .header name gap =>
    (toLowercase name = "authorization".toList ∨
      toLowercase name = "proxy-authorization".toList) ∧
    ∀ c ∈ gap, c = ' ' ∨ c = '\t'
  | .line form => form.OfUris ∧ '\n' ∉ form.fixed

/-- The lines of a message that end with a newline, and the text behind the last newline if
there is any. -/
structure Message where
  rows : List LineForm
  last : Option LineForm
  rowsValid : ∀ row ∈ rows, row.Valid
  lastValid : ∀ row ∈ last, row.Valid
  lastSome : ∀ row ∈ last, ∀ s, row.fill s ≠ []

/-- Lines with their secrets filled in, each with its newline. -/
def fillRows : List LineForm → (Nat → Secrets) → List Char
  | [], _ => []
  | row :: rows, σ => row.fill (σ 0) ++ '\n' :: fillRows rows fun n ↦ σ (n + 1)

/-- The text behind the last newline, filled in. -/
def fillLast : Option LineForm → Secrets → List Char
  | none, _ => []
  | some row, s => row.fill s

/-- The message with its secrets filled in; those of the last line come first. -/
def Message.fill (m : Message) (σ : Nat → Secrets) : List Char :=
  fillRows m.rows (fun n ↦ σ (n + 1)) ++ fillLast m.last (σ 0)

/-! ### The lines of a text -/

/-- A line without the carriage return at its end. -/
def chomp (s : List Char) : List Char := if s.getLast? = some '\r' then s.dropLast else s

/-- Only the end of a line is chomped. -/
theorem chomp_append (s : List Char) {t : List Char} (ht : t ≠ []) :
    chomp (s ++ t) = s ++ chomp t := by
  have hlast : (s ++ t).getLast? = t.getLast? := by
    rw [List.getLast?_append]
    cases hl : t.getLast? with
    | none => exact absurd (List.getLast?_eq_none_iff.mp hl) ht
    | some c => rfl
  unfold chomp
  rw [hlast]
  split
  · exact List.dropLast_append_of_ne_nil ht
  · rfl

/-- A newline ends the line read so far. -/
theorem linesFrom_newline (acc rest : List Char) :
    linesFrom acc ('\n' :: rest) = chomp acc.reverse :: linesFrom [] rest := by
  cases acc with
  | nil => rfl
  | cons c acc =>
    by_cases hc : c = '\r'
    · subst hc
      simp [linesFrom, chomp]
    · simp [linesFrom, chomp, hc]

/-- The characters of a line are read up to its end. -/
theorem linesFrom_append {l : List Char} (acc rest : List Char) (hl : '\n' ∉ l) :
    linesFrom acc (l ++ rest) = linesFrom (l.reverse ++ acc) rest := by
  induction l generalizing acc with
  | nil => rfl
  | cons c l ih =>
    have hc : c ≠ '\n' := fun h ↦ hl (h ▸ List.mem_cons_self)
    have hrest : '\n' ∉ l := fun h ↦ hl (List.mem_cons_of_mem c h)
    have hstep : linesFrom acc (c :: (l ++ rest)) = linesFrom (c :: acc) (l ++ rest) := by
      simp [linesFrom, hc]
    rw [List.cons_append, hstep, ih (c :: acc) hrest, List.reverse_cons, List.append_assoc]
    rfl

/-- The first line of a text. -/
theorem lines_cons {l : List Char} (rest : List Char) (hl : '\n' ∉ l) :
    lines (l ++ '\n' :: rest) = chomp l :: lines rest := by
  unfold lines
  rw [linesFrom_append [] _ hl, linesFrom_newline, List.append_nil, List.reverse_reverse]

/-- The text behind the last newline is a line of its own. -/
theorem lines_last {l : List Char} (hl : '\n' ∉ l) (hne : l ≠ []) : lines l = [l] := by
  have h := linesFrom_append [] [] hl
  rw [List.append_nil, List.append_nil] at h
  have hrev : l.reverse ≠ [] := fun hr ↦ hne (List.reverse_eq_nil_iff.mp hr)
  unfold lines
  rw [h]
  simp only [linesFrom, hrev, if_false, List.reverse_reverse]

/-- A text is some lines with their newlines and what is behind the last newline. -/
theorem exists_rows (s : List Char) : ∃ (rows : List (List Char)) (tail : List Char),
    s = rows.flatMap (· ++ ['\n']) ++ tail ∧ (∀ row ∈ rows, '\n' ∉ row) ∧ '\n' ∉ tail := by
  induction s with
  | nil => exact ⟨[], [], rfl, (fun row h ↦ nomatch h), List.not_mem_nil⟩
  | cons c s ih =>
    obtain ⟨rows, tail, rfl, hrows, htail⟩ := ih
    by_cases hc : c = '\n'
    · subst hc
      exact ⟨[] :: rows, tail, rfl, List.forall_mem_cons.mpr ⟨List.not_mem_nil, hrows⟩, htail⟩
    · have hcons : ∀ t, '\n' ∉ t → '\n' ∉ c :: t := fun t ht h ↦ by
        obtain h | h := List.mem_cons.mp h
        · exact hc h.symm
        · exact ht h
      cases rows with
      | nil => exact ⟨[], c :: tail, rfl, hrows, hcons tail htail⟩
      | cons row rows =>
        rw [List.forall_mem_cons] at hrows
        exact ⟨(c :: row) :: rows, tail, rfl,
          List.forall_mem_cons.mpr ⟨hcons row hrows.1, hrows.2⟩, htail⟩

/-- The lines of a text. -/
theorem lines_rows {rows : List (List Char)} {tail : List Char} (hrows : ∀ row ∈ rows, '\n' ∉ row)
    (htail : '\n' ∉ tail) :
    lines (rows.flatMap (· ++ ['\n']) ++ tail) =
      rows.map chomp ++ if tail = [] then [] else [tail] := by
  induction rows with
  | nil =>
    rw [List.flatMap_nil, List.nil_append, List.map_nil, List.nil_append]
    by_cases hnil : tail = []
    · rw [if_pos hnil, hnil]
      rfl
    · rw [if_neg hnil, lines_last htail hnil]
  | cons row rows ih =>
    rw [List.forall_mem_cons] at hrows
    rw [List.flatMap_cons, List.append_assoc, List.append_assoc, List.singleton_append,
      lines_cons _ hrows.1, ih hrows.2]
    rfl

/-- A text that does not end with a newline loses the one that the loop adds. -/
theorem dropAddedNewline_of_open {input : List Char} (h : input.getLast? ≠ some '\n')
    (out : List Char) : dropAddedNewline input (out ++ ['\n']) = out := by
  rw [dropAddedNewline, if_pos ⟨h, List.getLast?_concat⟩, List.dropLast_concat]

/-- An empty line is none of those that are masked. -/
theorem maskLine_nil : maskLine [] = .ok [] := rfl

/-- Masking of a message, by its lines and what is behind the last newline. -/
theorem maskSipLog_rows {rows : List (List Char)} {tail : List Char}
    (hrows : ∀ row ∈ rows, '\n' ∉ row) (htail : '\n' ∉ tail) :
    maskSipLog (rows.flatMap (· ++ ['\n']) ++ tail) = do
      let masked ← (rows.map chomp).mapM maskLine
      let last ← maskLine tail
      return masked.flatMap (· ++ ['\n']) ++ last := by
  rw [maskSipLog, lines_rows hrows htail]
  by_cases hnil : tail = []
  · subst hnil
    rw [if_pos rfl, List.append_nil, List.append_nil, maskLine_nil]
    cases hmasked : (rows.map chomp).mapM maskLine with
    | error e => rfl
    | ok masked =>
      have hsame : dropAddedNewline (rows.flatMap (· ++ ['\n'])) (masked.flatMap (· ++ ['\n'])) =
          masked.flatMap (· ++ ['\n']) := by
        obtain rfl | ⟨front, row, rfl⟩ := List.eq_nil_or_concat' rows
        · obtain rfl : [] = masked := Except.ok.inj hmasked
          rfl
        · rw [dropAddedNewline, if_neg]
          rintro ⟨hopen, -⟩
          refine hopen ?_
          rw [List.flatMap_append, List.flatMap_singleton, ← List.append_assoc,
            List.getLast?_concat]
      change Except.ok (dropAddedNewline _ _) = Except.ok (_ ++ [])
      rw [hsame, List.append_nil]
  · have hopen : (rows.flatMap (· ++ ['\n']) ++ tail).getLast? ≠ some '\n' := by
      obtain ⟨front, c, rfl⟩ := (List.eq_nil_or_concat' tail).resolve_left hnil
      rw [← List.append_assoc, List.getLast?_concat]
      intro heq
      rw [Option.some.inj heq] at htail
      exact htail (List.mem_append_right _ List.mem_cons_self)
    rw [if_neg hnil]
    simp only [List.mapM_append, List.mapM_cons, List.mapM_nil]
    cases (rows.map chomp).mapM maskLine with
    | error e => rfl
    | ok masked =>
      cases maskLine tail with
      | error e => rfl
      | ok last =>
        change Except.ok (dropAddedNewline _ ((masked ++ [last]).flatMap (· ++ ['\n']))) =
          Except.ok (masked.flatMap (· ++ ['\n']) ++ last)
        rw [List.flatMap_append, List.flatMap_singleton, ← List.append_assoc,
          dropAddedNewline_of_open hopen]

/-! ### Filled in lines -/

/-- No password holds a newline. -/
theorem Password.newline_not_mem (p : Password) : '\n' ∉ p.text := fun h ↦
  absurd (p.plain _ h).1 (by decide)

/-- A filled in form has no newline but those of its fixed texts. -/
theorem Form.newline_not_mem {f : Form} (h : '\n' ∉ f.fixed) (σ : Nat → Password) :
    '\n' ∉ f.fill σ := by
  induction f generalizing σ with
  | text t => exact h
  | hole t rest ih =>
    have ht : '\n' ∉ t := fun hm ↦ h (List.mem_append_left _ hm)
    have hrest := ih (fun hm ↦ h (List.mem_append_right t hm)) fun n ↦ σ (n + 1)
    simp only [Form.fill, List.mem_append, not_or]
    exact ⟨⟨ht, (σ 0).newline_not_mem⟩, hrest⟩

/-- A filled in line is one line. -/
theorem LineForm.newline_not_mem {row : LineForm} (h : row.Valid) (s : Secrets) :
    '\n' ∉ row.fill s := by
  cases row with
  | line form => exact Form.newline_not_mem h.2 s.passwords
  | header name gap =>
    have hname : '\n' ∉ name := by
      intro hm
      have hlow : '\n' ∈ toLowercase name :=
        List.mem_flatMap.mpr ⟨'\n', hm, by decide +kernel⟩
      rcases h.1 with hn | hn <;> rw [hn] at hlow <;> revert hlow <;> decide
    have hgap : '\n' ∉ gap := by
      intro hm
      rcases h.2 _ hm with hc | hc <;> revert hc <;> decide
    simp only [LineForm.fill, List.mem_append, List.mem_cons, not_or]
    exact ⟨⟨hname, hgap⟩, by decide, s.value.oneLine⟩

/-- The lines that the code reads of filled in rows. -/
def rowLines : List LineForm → (Nat → Secrets) → List (List Char)
  | [], _ => []
  | row :: rows, σ => chomp (row.fill (σ 0)) :: rowLines rows fun n ↦ σ (n + 1)

/-- Filled in rows are some texts with their newlines. -/
theorem exists_fillRows {rows : List LineForm} (hrows : ∀ row ∈ rows, row.Valid)
    (σ : Nat → Secrets) : ∃ texts : List (List Char),
      fillRows rows σ = texts.flatMap (· ++ ['\n']) ∧ rowLines rows σ = texts.map chomp ∧
      ∀ t ∈ texts, '\n' ∉ t := by
  induction rows generalizing σ with
  | nil => exact ⟨[], rfl, rfl, fun t h ↦ nomatch h⟩
  | cons row rows ih =>
    have hrow := LineForm.newline_not_mem (hrows row List.mem_cons_self) (σ 0)
    obtain ⟨texts, hfill, hlines, hnone⟩ :=
      ih (fun r hr ↦ hrows r (List.mem_cons_of_mem row hr)) fun n ↦ σ (n + 1)
    refine ⟨row.fill (σ 0) :: texts, ?_, ?_, List.forall_mem_cons.mpr ⟨hrow, hnone⟩⟩
    · rw [List.flatMap_cons, ← hfill, List.append_assoc]
      rfl
    · rw [List.map_cons, ← hlines]
      rfl

end PacketDial.Masking
