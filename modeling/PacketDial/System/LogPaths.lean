import Mathlib.Data.List.DropRight
import PacketDial.Ffi.Marshalling
import PacketDial.Masking.Noninterference
import PacketDial.System.Machine

/-!
# The ways of a SIP message into the logs

The text of a message reaches the engine from the capture hooks of the shim
(`core_rust/src/shim/pjsip_shim.c:434–464`, `630–691`), which the engine masks, and from
`pj_log_writer` (`pjsip_shim.c:602–619`) with what PJSIP logs, which it does not. Two runs are
compared that differ in the values of `Authorization` and `Proxy-Authorization` headers only.
-/

namespace PacketDial.System

open PacketDial.Core PacketDial.Lib PacketDial.Ffi PacketDial.Masking

/-- The bytes of a C string. -/
def cText (bytes : List UInt8) : List UInt8 := bytes.takeWhile (· ≠ 0)

/-- A part of a SIP message: a line that is the same in both runs, or a header with a value for
each of the two. -/
inductive SipRow where
  | line (bytes : List UInt8)
  | credentials (name blanks : List Char) (value : Bool → List UInt8)

/-- The bytes of a part in one of the runs, with its end. -/
def SipRow.bytes (run : Bool) : SipRow → List UInt8
  | .line bytes => bytes ++ [0x0A]
  | .credentials name blanks value =>
    (name ++ blanks ++ [':']).flatMap String.utf8EncodeChar ++ value run ++ [0x0D, 0x0A]

/-- A line is one line, and the two values, of `Authorization` or `Proxy-Authorization`, have one
length. -/
def SipRow.Valid : SipRow → Prop
  | .line bytes => 0x0A ∉ bytes
  | .credentials name blanks value =>
    (toLowercase name = "authorization".toList ∨
      toLowercase name = "proxy-authorization".toList) ∧
    (∀ c ∈ blanks, c = ' ' ∨ c = '\t') ∧ (value true).length = (value false).length

/-- A SIP message: its parts, and what comes behind the last line end. -/
structure SipText where
  rows : List SipRow
  rest : List UInt8
  valid : ∀ row ∈ rows, row.Valid

/-- The message as it is sent or received in one of the runs. -/
def SipText.bytes (m : SipText) (run : Bool) : List UInt8 := m.rows.flatMap (·.bytes run) ++ m.rest

/-- The capture hooks, from `pjsip_msg_print` on: what does not fit the buffer is not printed. -/
def capture (bytes : List UInt8) : Option CPtr :=
  if 0 < bytes.length ∧ bytes.length ≤ 4095 then some (cStr bytes) else none

/-- The ends of lines that `pj_log_writer` strips. -/
def endsLine (b : UInt8) : Bool := b == 0x0A || b == 0x0D

/-- `pj_log_writer` (`pjsip_shim.c:602–619`). -/
def pjLogWriter (data : List UInt8) : Option CPtr :=
  if data = [] then none else some (cStr ((data.take 2047).rdropWhile endsLine))

/-- What the engine gets from outside, in both runs: an input that is the same, a message that a
hook captures, or one that PJSIP logs between other texts. -/
inductive Feed where
  | other (i : Input)
  | captured (pjCallId isTx : Int) (message : SipText) (env : Env)
  | logged (level : Int) (before : List UInt8) (message : SipText) (after : List UInt8) (env : Env)

/-- The input in one of the runs, if the shim passes it on. -/
def Feed.input (run : Bool) : Feed → Option Input
  | .other i => some i
  | .captured pjCallId isTx message env =>
    (capture (message.bytes run)).map fun msg ↦ ⟨.onSipMsg pjCallId isTx msg, env⟩
  | .logged level before message after env =>
    (pjLogWriter (before ++ message.bytes run ++ after)).map fun msg ↦ ⟨.onLog level msg, env⟩

/-- What goes to the event callback and to the IPC clients. -/
def leaves : Action → Bool
  | .callback .. | .ipcSend .. | .ipcRespond .. => true
  | _ => false

/-- Of each step up to one that does not come to its end: what leaves the engine, and the contents
of `LOG_BUFFER` then. -/
def observe : List Input → Engine → List (List Action × List LogEntry)
  | [], _ => []
  | i :: is, s =>
    let out := i.outcome s
    (out.trace.filter leaves, out.state.logBuffer) ::
      if completes out.trace then observe is out.state else []

/-- Up to a NUL, each header is on one line with its colon right behind the name, and its two values
both have a NUL or neither, and both are UTF-8 up to there or neither. -/
def Recognised : List SipRow → Prop
  | [] => True
  | .line bytes :: rows => 0 ∈ bytes ∨ Recognised rows
  | .credentials _ blanks value :: rows =>
    blanks = [] ∧ (∀ run, 0x0A ∉ cText (value run)) ∧ (0 ∈ value true ↔ 0 ∈ value false) ∧
      (IsUtf8 (cText (value true)) ↔ IsUtf8 (cText (value false))) ∧
      (0 ∈ value true ∨ Recognised rows)

/-- Neither of two C strings is UTF-8. -/
def Unreadable (data : Bool → List UInt8) : Prop := ∀ run, ¬IsUtf8 (cText (data run))

/-- The values do not get through: a captured message has its headers recognised, what is logged
is the same in both runs up to the size of the buffer; or neither text can be read. -/
def Feed.Silent : Feed → Prop
  | .other _ => True
  | .captured _ _ message _ =>
    (message.bytes true).length ≤ 4095 → Recognised message.rows ∨ Unreadable message.bytes
  | .logged _ before message after _ =>
    let data (run : Bool) := (before ++ message.bytes run ++ after).take 2047
    cText (data true) = cText (data false) ∨ Unreadable data

/-- Two texts with the same masked lines, or two that cannot be read. -/
inductive Alike : Option (List Char) → Option (List Char) → Prop where
  | unread : Alike none none
  | read {s t : List Char} (hmasks : (lines s).mapM maskLine = (lines t).mapM maskLine)
      (hempty : s = [] ↔ t = []) (hend : s.getLast? = some '\n' ↔ t.getLast? = some '\n') :
      Alike (some s) (some t)

/-- What is read of a C string. -/
def heard (bytes : List UInt8) : Option (List Char) := decodeChars (cText bytes)

section Texts

variable {x y : Option (List Char)} {bytes : List UInt8} {rows : List SipRow}

/-- A text is like itself. -/
theorem Alike.refl (x : Option (List Char)) : Alike x x := by
  cases x with
  | none => exact .unread
  | some s => exact .read rfl Iff.rfl Iff.rfl

/-- Texts that are alike are masked to one text. -/
theorem Alike.masked (h : Alike x y) : x.map maskSipLog = y.map maskSipLog := by
  cases h with
  | unread => rfl
  | @read s t hmasks hempty hend =>
    have hdrop (out : List Char) : dropAddedNewline s out = dropAddedNewline t out := by
      simp only [dropAddedNewline, ne_eq, hend]
    rw [Option.map_some, Option.map_some]
    unfold maskSipLog
    rw [hmasks]
    simp only [hdrop]

/-- The end of a text with a line in front. -/
theorem getLast?_line (l s : List Char) :
    (l ++ '\n' :: s).getLast? = some '\n' ↔ s = [] ∨ s.getLast? = some '\n' := by
  rw [List.getLast?_append, List.getLast?_cons]
  cases hs : s.getLast? with
  | none =>
    rw [List.getLast?_eq_none_iff] at hs
    exact iff_of_true rfl (.inl hs)
  | some c =>
    have hne : s ≠ [] := by
      rintro rfl
      cases hs
    simp [hne]

/-- Lines in front of texts, of which the same is left. -/
theorem Alike.line {l l' : List Char} (hl : '\n' ∉ l) (hl' : '\n' ∉ l')
    (hmask : maskLine (chomp l) = maskLine (chomp l')) (h : Alike x y) :
    Alike (x.map fun s ↦ l ++ '\n' :: s) (y.map fun t ↦ l' ++ '\n' :: t) := by
  cases h with
  | unread => exact .unread
  | read hmasks hempty hend =>
    apply Alike.read
    · rw [lines_cons _ hl, lines_cons _ hl', List.mapM_cons, List.mapM_cons, hmask, hmasks]
    · simp
    · rw [getLast?_line, getLast?_line, hempty, hend]

/-- A newline is read from a line feed only. -/
theorem newline_notMem {chars : List Char} (h : decodeChars bytes = some chars)
    (hbytes : 0x0A ∉ bytes) : '\n' ∉ chars := by
  rw [decodeChars_eq_some_iff] at h
  intro hmem
  apply hbytes
  rw [← h]
  exact List.mem_flatMap.mpr ⟨'\n', hmem, by decide⟩

/-- A C string is shorter than its bytes if there is a NUL. -/
theorem length_cText_ne (h : 0 ∈ bytes) : (cText bytes).length ≠ bytes.length := by
  intro heq
  have hsub : (cText bytes).Sublist bytes := List.takeWhile_sublist _
  have hzero := List.takeWhile_eq_self_iff.mp (hsub.eq_of_length heq) 0 h
  cases hzero

/-- A C string ends at a NUL. -/
theorem cText_of_nul (h : 0 ∈ bytes) (more : List UInt8) : cText (bytes ++ more) = cText bytes := by
  exact List.takeWhile_append.trans (if_neg (length_cText_ne h))

/-- Nothing behind a NUL is read. -/
theorem heard_of_nul (h : 0 ∈ bytes) (more : List UInt8) : heard (bytes ++ more) = heard bytes := by
  rw [heard, cText_of_nul h, heard]

/-- A line of a C string, and what comes behind it. -/
theorem heard_line (h : 0 ∉ bytes) (more : List UInt8) : heard (bytes ++ 0x0A :: more) =
    (decodeChars bytes).bind fun l ↦ (heard more).map fun s ↦ l ++ '\n' :: s := by
  have hcut : cText (bytes ++ 0x0A :: more) = bytes ++ 0x0A :: cText more := by
    have hall : ∀ b ∈ bytes, decide (b ≠ 0) = true := fun b hb ↦
      decide_eq_true fun hzero ↦ h (hzero ▸ hb)
    rw [cText, List.takeWhile_append_of_pos hall, List.takeWhile_cons_of_pos (by decide), cText]
  rw [heard, hcut]
  exact decodeChars_append_cons (by decide) (by decide) bytes (cText more)

/-- A C string without a NUL is all of its bytes. -/
theorem cText_of_notMem (h : 0 ∉ bytes) : cText bytes = bytes := by
  apply List.takeWhile_eq_self_iff.mpr
  intro b hb
  exact decide_eq_true fun hzero ↦ h (hzero ▸ hb)

end Texts

section Headers

variable {name : List Char} {v v' : List UInt8}

/-- Of a header with its colon behind the name, masking leaves the name. -/
theorem maskLine_credentials (hname : toLowercase name = "authorization".toList ∨
    toLowercase name = "proxy-authorization".toList) (s : List Char) :
    maskLine (name ++ ':' :: s) = .ok (name ++ ": ***MASKED***".toList) := by
  have hcolon : ':' ∉ name := not_mem_name hname (by decide +kernel) (by decide)
  apply maskLine_header s hcolon
  rw [isAuthorization_colon, isAuthorization_of_name hname]

/-- A header begins with no newline. -/
theorem newline_notMem_header (hname : toLowercase name = "authorization".toList ∨
    toLowercase name = "proxy-authorization".toList) {s : List Char} (hs : '\n' ∉ s) :
    '\n' ∉ name ++ ':' :: s := by
  have hfront : '\n' ∉ name := not_mem_name hname (by decide +kernel) (by decide)
  simp only [List.mem_append, List.mem_cons, not_or]
  exact ⟨hfront, by decide, hs⟩

/-- Two values are read, or neither. -/
theorem decodeChars_both (hutf8 : IsUtf8 v ↔ IsUtf8 v') :
    (decodeChars v = none ∧ decodeChars v' = none) ∨
      ∃ s s', decodeChars v = some s ∧ decodeChars v' = some s' := by
  have hnone : decodeChars v = none ↔ decodeChars v' = none := by
    rw [decodeChars_eq_none_iff, decodeChars_eq_none_iff, hutf8]
  cases hv : decodeChars v with
  | none => exact .inl ⟨rfl, hnone.mp hv⟩
  | some s =>
    cases hv' : decodeChars v' with
    | none =>
      rw [hnone.mpr hv'] at hv
      cases hv
    | some s' => exact .inr ⟨s, s', rfl, rfl⟩

/-- Headers that end at a NUL in their values are alike. -/
theorem alike_lastHeader (hname : toLowercase name = "authorization".toList ∨
    toLowercase name = "proxy-authorization".toList) (hv : 0x0A ∉ v) (hv' : 0x0A ∉ v')
    (hutf8 : IsUtf8 v ↔ IsUtf8 v') :
    Alike ((decodeChars v).map (name ++ [':'] ++ ·))
      ((decodeChars v').map (name ++ [':'] ++ ·)) := by
  rcases decodeChars_both hutf8 with ⟨hread, hread'⟩ | ⟨s, s', hread, hread'⟩
  · rw [hread, hread']
    exact .unread
  · have hs := newline_notMem_header hname (newline_notMem hread hv)
    have hs' := newline_notMem_header hname (newline_notMem hread' hv')
    rw [hread, hread', Option.map_some, Option.map_some, List.append_assoc, List.append_assoc,
      List.singleton_append, List.singleton_append]
    apply Alike.read
    · rw [lines_last hs (by simp), lines_last hs' (by simp), List.mapM_cons, List.mapM_cons,
        maskLine_credentials hname, maskLine_credentials hname]
    · simp
    · apply iff_of_false
      · exact fun h ↦ hs (List.mem_of_getLast? h)
      · exact fun h ↦ hs' (List.mem_of_getLast? h)

/-- Headers that are lines of their own are alike if what comes behind them is. -/
theorem alike_header (hname : toLowercase name = "authorization".toList ∨
    toLowercase name = "proxy-authorization".toList) (hv : 0x0A ∉ v) (hv' : 0x0A ∉ v')
    (hutf8 : IsUtf8 v ↔ IsUtf8 v') {x y : Option (List Char)} (h : Alike x y) :
    Alike
      (((decodeChars v).map fun s ↦ name ++ [':'] ++ (s ++ ['\r'])).bind fun l ↦
        x.map fun t ↦ l ++ '\n' :: t)
      (((decodeChars v').map fun s ↦ name ++ [':'] ++ (s ++ ['\r'])).bind fun l ↦
        y.map fun t ↦ l ++ '\n' :: t) := by
  have hmask (s : List Char) : maskLine (chomp (name ++ [':'] ++ (s ++ ['\r']))) =
      .ok (name ++ ": ***MASKED***".toList) := by
    have hchomp : chomp ['\r'] = [] := by decide
    rw [← List.append_assoc, chomp_append _ (List.cons_ne_nil _ _), hchomp, List.append_nil,
      List.append_assoc, List.singleton_append, maskLine_credentials hname]
  have hline {s : List Char} (hs : '\n' ∉ s) : '\n' ∉ name ++ [':'] ++ (s ++ ['\r']) := by
    rw [List.append_assoc, List.singleton_append]
    apply newline_notMem_header hname
    simp [hs]
  rcases decodeChars_both hutf8 with ⟨hread, hread'⟩ | ⟨s, s', hread, hread'⟩
  · rw [hread, hread']
    exact .unread
  · rw [hread, hread']
    apply Alike.line (hline (newline_notMem hread hv)) (hline (newline_notMem hread' hv'))
    · rw [hmask, hmask]
    · exact h

/-- Headers with their colons right behind the names are alike. -/
theorem alike_credentials (hname : toLowercase name = "authorization".toList ∨
    toLowercase name = "proxy-authorization".toList) {value : Bool → List UInt8}
    (more : Bool → List UInt8) (hline : ∀ run, 0x0A ∉ cText (value run))
    (hnul : 0 ∈ value true ↔ 0 ∈ value false)
    (hutf8 : IsUtf8 (cText (value true)) ↔ IsUtf8 (cText (value false)))
    (hmore : 0 ∉ value true → Alike (heard (more true)) (heard (more false))) :
    Alike
      (heard ((SipRow.credentials name [] value).bytes true ++ more true))
      (heard ((SipRow.credentials name [] value).bytes false ++ more false)) := by
  generalize hfront : (name ++ [':']).flatMap String.utf8EncodeChar = front
  have hbytes (run : Bool) : (SipRow.credentials name [] value).bytes run ++ more run =
      front ++ (value run ++ 0x0D :: 0x0A :: more run) := by
    simp [SipRow.bytes, ← hfront]
  rw [hbytes, hbytes]
  by_cases hzero : 0 ∈ front
  · rw [heard_of_nul hzero, heard_of_nul hzero]
    exact Alike.refl _
  · by_cases hvalue : 0 ∈ value true
    · have hcut (run : Bool) (hrun : 0 ∈ value run) :
          heard (front ++ (value run ++ 0x0D :: 0x0A :: more run)) =
            (decodeChars (cText (value run))).map (name ++ [':'] ++ ·) := by
        have hall : ∀ b ∈ front, decide (b ≠ 0) = true := fun b hb ↦
          decide_eq_true fun h ↦ hzero (h ▸ hb)
        rw [← List.append_assoc, heard_of_nul (List.mem_append_right _ hrun), heard, cText,
          List.takeWhile_append_of_pos hall, ← hfront, decodeChars_encode_append]
        rfl
      rw [hcut true hvalue, hcut false (hnul.mp hvalue)]
      exact alike_lastHeader hname (hline true) (hline false) hutf8
    · have hwhole (run : Bool) (hrun : 0 ∉ value run) :
          heard (front ++ (value run ++ 0x0D :: 0x0A :: more run)) =
            ((decodeChars (value run)).map fun s ↦ name ++ [':'] ++ (s ++ ['\r'])).bind fun l ↦
              (heard (more run)).map fun t ↦ l ++ '\n' :: t := by
        have hassoc : front ++ (value run ++ 0x0D :: 0x0A :: more run) =
            front ++ (value run ++ 0x0D :: []) ++ 0x0A :: more run := by simp
        have hno : 0 ∉ front ++ (value run ++ 0x0D :: []) := by
          simp [hzero, hrun]
        have hend := decodeChars_append_cons (c := '\r') (b := 0x0D) (by decide) (by decide)
          (value run) []
        rw [hassoc, heard_line hno, ← hfront, decodeChars_encode_append, hend]
        cases decodeChars (value run) with
        | none => rfl
        | some s => rfl
      rw [hwhole true hvalue, hwhole false (mt hnul.mpr hvalue)]
      have htrue := hline true
      have hfalse := hline false
      rw [cText_of_notMem hvalue] at htrue hutf8
      rw [cText_of_notMem (mt hnul.mpr hvalue)] at hfalse hutf8
      exact alike_header hname htrue hfalse hutf8 (hmore hvalue)

/-- Messages whose headers are recognised are alike. -/
theorem alike_rows {rows : List SipRow} (hvalid : ∀ row ∈ rows, row.Valid) (h : Recognised rows)
    (rest : List UInt8) :
    Alike (heard (rows.flatMap (·.bytes true) ++ rest))
      (heard (rows.flatMap (·.bytes false) ++ rest)) := by
  induction rows with
  | nil => exact Alike.refl _
  | cons row rows ih =>
    obtain ⟨hrow, hrows⟩ := List.forall_mem_cons.mp hvalid
    rw [List.flatMap_cons, List.flatMap_cons, List.append_assoc, List.append_assoc]
    cases row with
    | line bytes =>
      have hbytes (run : Bool) (more : List UInt8) : (SipRow.line bytes).bytes run ++ more =
        bytes ++ 0x0A :: more := List.append_assoc _ _ _
      rw [hbytes, hbytes]
      by_cases hzero : 0 ∈ bytes
      · rw [heard_of_nul hzero, heard_of_nul hzero]
        exact Alike.refl _
      · rw [heard_line hzero, heard_line hzero]
        cases hread : decodeChars bytes with
        | none => exact .unread
        | some l =>
          have hl := newline_notMem hread hrow
          exact Alike.line hl hl rfl (ih hrows (h.resolve_left hzero))
    | credentials name blanks value =>
      obtain ⟨hname, -, -⟩ := hrow
      obtain ⟨hblanks, hline, hnul, hutf8, hmore⟩ := h
      rw [hblanks]
      exact alike_credentials hname (fun run ↦ rows.flatMap (·.bytes run) ++ rest) hline hnul hutf8
        fun hvalue ↦ ih hrows (hmore.resolve_left hvalue)

end Headers

section Sinks

variable {x y : List UInt8}

/-- The engine reads a C string as it is heard. -/
theorem toStr_cStr (bytes : List UInt8) : (cStr bytes).toStr = decodeUtf8 (cText bytes) := by
  unfold cStr cText
  cases decodeUtf8 (bytes.takeWhile (· ≠ 0)) <;> rfl

/-- Messages that are alike are captured alike. -/
theorem pjsipOnSipMsg_alike (h : Alike (heard x) (heard y)) (pjCallId isTx : Int) :
    pjsipOnSipMsg pjCallId isTx (cStr x) = pjsipOnSipMsg pjCallId isTx (cStr y) := by
  have hmasked := h.masked
  unfold heard decodeChars at hmasked
  rw [← toStr_cStr, ← toStr_cStr] at hmasked
  unfold pjsipOnSipMsg
  cases hx : (cStr x).toStr with
  | none =>
    rw [hx] at hmasked
    have hy : (cStr y).toStr = none := by
      cases hy : (cStr y).toStr with
      | none => rfl
      | some raw =>
        rw [hy] at hmasked
        cases hmasked
    rw [hy]
  | some raw =>
    cases hy : (cStr y).toStr with
    | none =>
      rw [hx, hy] at hmasked
      cases hmasked
    | some raw' =>
      rw [hx, hy] at hmasked
      have hmasks : maskSipLog raw.toList = maskSipLog raw'.toList := Option.some.inj hmasked
      simp only [hmasks]

/-- Texts of one length that are the same up to a NUL both have one or neither. -/
theorem nul_mem_of_cText (hlen : x.length = y.length) (h : cText x = cText y) (hx : 0 ∈ x) :
    0 ∈ y := by
  by_contra hy
  apply length_cText_ne hx
  rw [h, cText_of_notMem hy, hlen]

/-- The ends of lines behind a NUL are of no account. -/
theorem cText_stripped_of_nul (h : 0 ∈ x) : cText (x.rdropWhile endsLine) = cText x := by
  have hsplit := List.rdropWhile_append_rtakeWhile (p := endsLine) (l := x)
  have hmem : 0 ∈ x.rdropWhile endsLine := by
    rw [← hsplit] at h
    rcases List.mem_append.mp h with hfront | hback
    · exact hfront
    · exact absurd (List.mem_rtakeWhile_imp hback) (by decide)
  have hcut := cText_of_nul hmem (x.rtakeWhile endsLine)
  rw [hsplit] at hcut
  exact hcut.symm

/-- Without a NUL, what is stripped is read to its end. -/
theorem cText_stripped (h : 0 ∉ x) : cText (x.rdropWhile endsLine) = x.rdropWhile endsLine :=
  cText_of_notMem fun hmem ↦ h ((List.rdropWhile_prefix endsLine x).subset hmem)

/-- Of the same C strings the same is left without the ends of lines. -/
theorem cText_stripped_congr (hlen : x.length = y.length) (h : cText x = cText y) :
    cText (x.rdropWhile endsLine) = cText (y.rdropWhile endsLine) := by
  by_cases hx : 0 ∈ x
  · rw [cText_stripped_of_nul hx, cText_stripped_of_nul (nul_mem_of_cText hlen h hx), h]
  · have hy : 0 ∉ y := fun hmem ↦ hx (nul_mem_of_cText hlen.symm h.symm hmem)
    rw [cText_of_notMem hx, cText_of_notMem hy] at h
    rw [h]

/-- Ends of lines are UTF-8. -/
theorem isUtf8_lineEnds (h : ∀ b ∈ x, endsLine b = true) : IsUtf8 x := by
  induction x with
  | nil => exact IsUtf8.nil
  | cons b bytes ih =>
    obtain ⟨hb, hbytes⟩ := List.forall_mem_cons.mp h
    have hfirst : IsUtf8 [b] := by
      simp only [endsLine, Bool.or_eq_true, beq_iff_eq] at hb
      rcases hb with rfl | rfl <;> decide
    exact hfirst.append (ih hbytes)

/-- What is no UTF-8 is none without the ends of lines. -/
theorem isUtf8_of_stripped (h : IsUtf8 (cText (x.rdropWhile endsLine))) : IsUtf8 (cText x) := by
  by_cases hx : 0 ∈ x
  · rwa [cText_stripped_of_nul hx] at h
  · rw [cText_stripped hx] at h
    rw [cText_of_notMem hx, ← List.rdropWhile_append_rtakeWhile (p := endsLine) (l := x)]
    exact h.append (isUtf8_lineEnds fun b hb ↦ List.mem_rtakeWhile_imp hb)

/-- The log takes texts for the same that are the same up to the size of the buffer, and those that
cannot be read. -/
theorem pjsipOnLog_same (hlen : x.length = y.length)
    (h : cText x = cText y ∨ ¬IsUtf8 (cText x) ∧ ¬IsUtf8 (cText y)) (level : Int) :
    pjsipOnLog level (cStr (x.rdropWhile endsLine)) =
      pjsipOnLog level (cStr (y.rdropWhile endsLine)) := by
  have hread : (cStr (x.rdropWhile endsLine)).toStr = (cStr (y.rdropWhile endsLine)).toStr := by
    rw [toStr_cStr, toStr_cStr]
    rcases h with h | ⟨hx, hy⟩
    · rw [cText_stripped_congr hlen h]
    · have hnone {z : List UInt8} (hz : ¬IsUtf8 (cText z)) :
          decodeUtf8 (cText (z.rdropWhile endsLine)) = none :=
        Option.map_eq_none_iff.mp
          (decodeChars_eq_none_iff.mpr fun hvalid ↦ hz (isUtf8_of_stripped hvalid))
      rw [hnone hx, hnone hy]
  unfold pjsipOnLog
  rw [hread]

end Sinks

section Runs

/-- A message has one length in both runs. -/
theorem SipText.length_bytes (m : SipText) :
    (m.bytes true).length = (m.bytes false).length := by
  have hrow : ∀ row ∈ m.rows, (row.bytes true).length = (row.bytes false).length := by
    intro row hrow
    have hvalid := m.valid row hrow
    cases row with
    | line bytes => rfl
    | credentials name blanks value =>
      obtain ⟨-, -, hlen⟩ := hvalid
      simp [SipRow.bytes, hlen]
  unfold SipText.bytes
  rw [List.length_append, List.length_append, List.length_flatMap, List.length_flatMap,
    List.map_congr_left hrow]

/-- What gets through to the engine in one run does so in the other, with the same outcome. -/
theorem Feed.outcome_same {feed : Feed} (h : feed.Silent) :
    (feed.input true = none ∧ feed.input false = none) ∨
      ∃ i j, feed.input true = some i ∧ feed.input false = some j ∧
        ∀ s, i.outcome s = j.outcome s := by
  cases feed with
  | other i => exact .inr ⟨i, i, rfl, rfl, fun _ ↦ rfl⟩
  | captured pjCallId isTx message env =>
    have hlen := message.length_bytes
    by_cases hfits : 0 < (message.bytes true).length ∧ (message.bytes true).length ≤ 4095
    · have hfits' := hfits
      rw [hlen] at hfits'
      have halike : Alike (heard (message.bytes true)) (heard (message.bytes false)) := by
        rcases h hfits.2 with hrows | hunread
        · exact alike_rows message.valid hrows message.rest
        · have hnone (run : Bool) : heard (message.bytes run) = none :=
            decodeChars_eq_none_iff.mpr (hunread run)
          rw [hnone, hnone]
          exact .unread
      refine .inr ⟨⟨.onSipMsg pjCallId isTx (cStr (message.bytes true)), env⟩,
        ⟨.onSipMsg pjCallId isTx (cStr (message.bytes false)), env⟩, ?_, ?_, fun s ↦ ?_⟩
      · simp only [Feed.input, capture, if_pos hfits, Option.map_some]
      · simp only [Feed.input, capture, if_pos hfits', Option.map_some]
      · unfold Input.outcome Op.run
        dsimp only
        rw [pjsipOnSipMsg_alike halike]
    · have hfits' := hfits
      rw [hlen] at hfits'
      left
      simp only [Feed.input, capture, if_neg hfits, if_neg hfits', Option.map_none, and_self]
  | logged level before message after env =>
    have hlen : (before ++ message.bytes true ++ after).length =
        (before ++ message.bytes false ++ after).length := by
      simp [message.length_bytes]
    have hnil : before ++ message.bytes true ++ after = [] ↔
        before ++ message.bytes false ++ after = [] := by
      rw [← List.length_eq_zero_iff, hlen, List.length_eq_zero_iff]
    by_cases hempty : before ++ message.bytes true ++ after = []
    · left
      simp only [Feed.input, pjLogWriter, if_pos hempty, if_pos (hnil.mp hempty), Option.map_none,
        and_self]
    · right
      have htake : ((before ++ message.bytes true ++ after).take 2047).length =
          ((before ++ message.bytes false ++ after).take 2047).length := by
        rw [List.length_take, List.length_take, hlen]
      have hsame := pjsipOnLog_same htake (h.imp_right fun hunread ↦
        ⟨hunread true, hunread false⟩) level
      refine ⟨⟨.onLog level (cStr (((before ++ message.bytes true ++ after).take 2047).rdropWhile
          endsLine)), env⟩, ⟨.onLog level (cStr (((before ++ message.bytes false ++ after).take
            2047).rdropWhile endsLine)), env⟩, ?_, ?_, fun s ↦ ?_⟩
      · simp only [Feed.input, pjLogWriter, if_neg hempty, Option.map_some]
      · simp only [Feed.input, pjLogWriter, if_neg (mt hnil.mpr hempty), Option.map_some]
      · unfold Input.outcome Op.run
        dsimp only
        rw [hsame]

/-- Nothing that leaves the engine and nothing in `LOG_BUFFER` tells the values, in every pair of
runs from one state whose messages all keep them to themselves. -/
theorem observe_same (feeds : List Feed) (h : ∀ feed ∈ feeds, feed.Silent) (s : Engine) :
    observe (feeds.filterMap (·.input true)) s = observe (feeds.filterMap (·.input false)) s := by
  induction feeds generalizing s with
  | nil => rfl
  | cons feed feeds ih =>
    obtain ⟨hfeed, hfeeds⟩ := List.forall_mem_cons.mp h
    rcases feed.outcome_same hfeed with ⟨htrue, hfalse⟩ | ⟨i, j, htrue, hfalse, hsame⟩
    · rw [List.filterMap_cons_none htrue, List.filterMap_cons_none hfalse]
      exact ih hfeeds s
    · rw [List.filterMap_cons_some htrue, List.filterMap_cons_some hfalse]
      unfold observe
      dsimp only
      rw [hsame s, ih hfeeds]

end Runs

instance (row : SipRow) : Decidable row.Valid :=
  match row with
  | .line _ => inferInstanceAs (Decidable (_ ∉ _))
  | .credentials .. => inferInstanceAs (Decidable (_ ∧ _ ∧ _))

/-- A text without a NUL is read as it is. -/
theorem cStr_utf8Bytes {text : String} (h : 0 ∉ utf8Bytes text) :
    cStr (utf8Bytes text) = .text text := by
  have hread : decodeUtf8 (cText (utf8Bytes text)) = some text := by
    rw [cText_of_notMem h, utf8Bytes_eq, decodeUtf8_flatMap, String.ofList_toList]
  unfold cText at hread
  rw [cStr, hread]
  rfl

/-- The credentials of a registration, with one of two responses. -/
def registerValue (run : Bool) : String :=
  " Digest username=\"u\",realm=\"h\",nonce=\"n\",uri=\"sip:h\",response=" ++
    if run then "\"1f3870be274f6c49b3e31a0c6728957f\"" else "\"72b302bf297a228a75730123efef7c41\""

/-- A registration. -/
def registerMessage : SipText where
  rows :=
    [.line (utf8Bytes "REGISTER sip:h SIP/2.0\r"),
      .line (utf8Bytes "Via: SIP/2.0/UDP c;branch=z9hG4bK1\r"),
      .line (utf8Bytes "Max-Forwards: 70\r"), .line (utf8Bytes "From: <sip:u@h>;tag=1\r"),
      .line (utf8Bytes "To: <sip:u@h>\r"), .line (utf8Bytes "Call-ID: 1\r"),
      .line (utf8Bytes "CSeq: 2 REGISTER\r"),
      .credentials "Authorization".toList [] fun run ↦ utf8Bytes (registerValue run),
      .line (utf8Bytes "Content-Length:  0\r")]
  rest := utf8Bytes "\r\n"
  valid := by
    simp only [List.forall_mem_cons]
    and_intros
    all_goals first | exact List.forall_mem_nil _ | decide +kernel

/-- The registration is captured when it is sent. -/
def capturedRegister : Feed := .captured (-1) 1 registerMessage quietEnv

/-- PJSIP logs it as well. -/
def loggedRegister : Feed :=
  .logged 4 (utf8Bytes "TX 280 bytes Request msg REGISTER/cseq=2 to UDP h:5060:\n") registerMessage
    (utf8Bytes "\n--end msg--\n") quietEnv

/-- The text that comes to the log. -/
def registerLog (run : Bool) : String :=
  "TX 280 bytes Request msg REGISTER/cseq=2 to UDP h:5060:\nREGISTER sip:h SIP/2.0\r\n" ++
    "Via: SIP/2.0/UDP c;branch=z9hG4bK1\r\nMax-Forwards: 70\r\nFrom: <sip:u@h>;tag=1\r\n" ++
    "To: <sip:u@h>\r\nCall-ID: 1\r\nCSeq: 2 REGISTER\r\nAuthorization:" ++
    registerValue run ++ "\r\nContent-Length:  0\r\n\r\n\n--end msg--"

/-- A registration that is captured, and a log entry about something else, as an instance. -/
theorem observe_same_captured :
    observe ([capturedRegister, .other ⟨.onLog 3 (.text "ready"), quietEnv⟩].filterMap
        (·.input true)) Engine.initial =
      observe ([capturedRegister, .other ⟨.onLog 3 (.text "ready"), quietEnv⟩].filterMap
        (·.input false)) Engine.initial := by
  have hvalue (run : Bool) : 0 ∉ utf8Bytes (registerValue run) ∧
      IsUtf8 (cText (utf8Bytes (registerValue run))) ∧
        0x0A ∉ cText (utf8Bytes (registerValue run)) := by
    cases run <;> decide +kernel
  have hrows : Recognised registerMessage.rows := by
    iterate 7 right
    exact ⟨rfl, fun run ↦ (hvalue run).2.2, iff_of_false (hvalue true).1 (hvalue false).1,
      iff_of_true (hvalue true).2.1 (hvalue false).2.1, .inr (.inr trivial)⟩
  apply observe_same
  simp only [List.forall_mem_cons]
  exact ⟨fun _ ↦ .inl hrows, trivial, List.forall_mem_nil _⟩

/-- The log keeps the credentials: of a registration that is logged and captured, `LOG_BUFFER` has
the response. -/
theorem credentials_logged :
    observe ([loggedRegister, capturedRegister].filterMap (·.input true)) Engine.initial ≠
      observe ([loggedRegister, capturedRegister].filterMap (·.input false)) Engine.initial := by
  have hlogged (run : Bool) : loggedRegister.input run =
      some ⟨.onLog 4 (.text (registerLog run)), quietEnv⟩ := by
    have hlog : ((utf8Bytes "TX 280 bytes Request msg REGISTER/cseq=2 to UDP h:5060:\n" ++
        registerMessage.bytes run ++ utf8Bytes "\n--end msg--\n").take 2047).rdropWhile endsLine =
          utf8Bytes (registerLog run) ∧
        0 ∉ utf8Bytes (registerLog run) ∧ utf8Bytes (registerLog run) ≠ [] := by
      cases run <;> decide +kernel
    obtain ⟨hhanded, hzero, hsome⟩ := hlog
    have hnil : utf8Bytes "TX 280 bytes Request msg REGISTER/cseq=2 to UDP h:5060:\n" ++
        registerMessage.bytes run ++ utf8Bytes "\n--end msg--\n" ≠ [] := by
      intro h
      rw [h] at hhanded
      exact hsome hhanded.symm
    simp only [loggedRegister, Feed.input, pjLogWriter, if_neg hnil, hhanded,
      cStr_utf8Bytes hzero, Option.map_some]
  have hbuffer (text : String) (is : List Input) :
      (observe (⟨.onLog 4 (.text text), quietEnv⟩ :: is) Engine.initial).head?.map
        (fun seen ↦ seen.2.map (·.message)) = some [text] := rfl
  intro h
  rw [List.filterMap_cons_some (hlogged true), List.filterMap_cons_some (hlogged false)] at h
  have htext := hbuffer (registerLog true) ([capturedRegister].filterMap (·.input true))
  rw [h, hbuffer] at htext
  revert htext
  decide +kernel

end PacketDial.System
