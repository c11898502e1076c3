import Mathlib.Data.List.Nodup

/-!
# Placeholders replaced one after another

`replaceAll` puts a value in the place of every occurrence of a pattern, from left to right. A row
of placeholders, each a name between two delimiters, may be replaced in a text all at once, or one
after another; then a value, or the text around it, may spell a placeholder that comes later. Marks
on the entries tell what is replaced: an entry of a value, or of the text outside its placeholders,
is `solid`.
-/

namespace PacketDial.Lib

variable {α β : Type}

/-- The first of an entry divides a list in one way. -/
theorem append_cons_inj {a b u v : List α} {c : α} (ha : c ∉ a) (hb : c ∉ b) :
    a ++ c :: u = b ++ c :: v ↔ a = b ∧ u = v := by
  constructor
  · intro h
    induction a generalizing b with
    | nil =>
      cases b with
      | nil => exact ⟨rfl, (List.cons.inj h).2⟩
      | cons e b => exact absurd (List.cons.inj h).1 (List.ne_of_not_mem_cons hb)
    | cons e a ih =>
      cases b with
      | nil => exact absurd (List.cons.inj h).1.symm (List.ne_of_not_mem_cons ha)
      | cons f b =>
        obtain ⟨hab, huv⟩ := ih (List.not_mem_of_not_mem_cons ha)
          (List.not_mem_of_not_mem_cons hb) (List.cons.inj h).2
        exact ⟨by rw [(List.cons.inj h).1, hab], huv⟩
  · rintro ⟨rfl, rfl⟩
    rfl

variable [DecidableEq α]

section Rewriting

variable (read : β → α) (pattern : List α) (value : List β)

/-- The pattern stands in front. -/
def standsIn (s : List β) : Bool := pattern.isPrefixOf (s.map read)

/-- The value in the place of every occurrence of the pattern, after `skip` entries to leave out. -/
def rewrite : Nat → List β → List β
  | _, [] => []
  | skip + 1, _ :: s => rewrite skip s
  | 0, b :: s =>
    if standsIn read pattern (b :: s) then value ++ rewrite (pattern.length - 1) s
    else b :: rewrite 0 s

/-- The occurrences that are replaced. -/
def occurrences : Nat → List β → List (List β)
  | _, [] => []
  | skip + 1, _ :: s => occurrences skip s
  | 0, b :: s =>
    if standsIn read pattern (b :: s) then
      (b :: s).take pattern.length :: occurrences (pattern.length - 1) s
    else occurrences 0 s

end Rewriting

/-- `String.replaceAll` of Dart, for a pattern that is not empty. -/
def replaceAll (pattern value text : List α) : List α := rewrite id pattern value 0 text

section Rules

variable {read : β → α} {pattern : List α} {value s x : List β} {b : β}

theorem rewrite_cons_of_not (h : standsIn read pattern (b :: s) = false) :
    rewrite read pattern value 0 (b :: s) = b :: rewrite read pattern value 0 s := by
  rw [rewrite, h]
  rfl

theorem occurrences_cons_of_not (h : standsIn read pattern (b :: s) = false) :
    occurrences read pattern 0 (b :: s) = occurrences read pattern 0 s := by
  rw [occurrences, h]
  rfl

/-- The entries to leave out are left out. -/
theorem rewrite_skip (x s : List β) :
    rewrite read pattern value x.length (x ++ s) = rewrite read pattern value 0 s := by
  induction x with
  | nil => rfl
  | cons b x ih => exact ih

theorem occurrences_skip (x s : List β) :
    occurrences read pattern x.length (x ++ s) = occurrences read pattern 0 s := by
  induction x with
  | nil => rfl
  | cons b x ih => exact ih

/-- Nothing is replaced that begins in the first of two texts. -/
def Quiet (read : β → α) (pattern : List α) (x s : List β) : Prop :=
  ∀ a b, x = a ++ b → b ≠ [] → standsIn read pattern (b ++ s) = false

/-- A text where nothing is replaced is left as it is. -/
theorem rewrite_append (h : Quiet read pattern x s) :
    rewrite read pattern value 0 (x ++ s) = x ++ rewrite read pattern value 0 s := by
  induction x with
  | nil => rfl
  | cons b x ih =>
    have hfirst : standsIn read pattern (b :: (x ++ s)) = false :=
      h [] (b :: x) rfl (List.cons_ne_nil b x)
    rw [List.cons_append, rewrite_cons_of_not hfirst,
      ih fun a c hx hc ↦ h (b :: a) c (congrArg (b :: ·) hx) hc]
    rfl

theorem occurrences_append (h : Quiet read pattern x s) :
    occurrences read pattern 0 (x ++ s) = occurrences read pattern 0 s := by
  induction x with
  | nil => rfl
  | cons b x ih =>
    have hfirst : standsIn read pattern (b :: (x ++ s)) = false :=
      h [] (b :: x) rfl (List.cons_ne_nil b x)
    rw [List.cons_append, occurrences_cons_of_not hfirst,
      ih fun a c hx hc ↦ h (b :: a) c (congrArg (b :: ·) hx) hc]

/-- The pattern in front is replaced. -/
theorem rewrite_pattern (hx : x.map read = pattern) (hne : x ≠ []) (s : List β) :
    rewrite read pattern value 0 (x ++ s) = value ++ rewrite read pattern value 0 s := by
  obtain ⟨b, x, rfl⟩ := List.exists_cons_of_ne_nil hne
  have hstands : standsIn read pattern (b :: (x ++ s)) = true := by
    rw [standsIn, List.isPrefixOf_iff_prefix, ← hx, ← List.cons_append, List.map_append]
    exact List.prefix_append _ _
  have hlength : pattern.length - 1 = x.length := by
    rw [← hx, List.length_map, List.length_cons]
    rfl
  rw [List.cons_append, rewrite, if_pos hstands, hlength, rewrite_skip]

theorem occurrences_pattern (hx : x.map read = pattern) (hne : x ≠ []) (s : List β) :
    occurrences read pattern 0 (x ++ s) = x :: occurrences read pattern 0 s := by
  obtain ⟨b, x, rfl⟩ := List.exists_cons_of_ne_nil hne
  have hstands : standsIn read pattern (b :: (x ++ s)) = true := by
    rw [standsIn, List.isPrefixOf_iff_prefix, ← hx, ← List.cons_append, List.map_append]
    exact List.prefix_append _ _
  have hlength : pattern.length - 1 = x.length := by
    rw [← hx, List.length_map, List.length_cons]
    rfl
  have htake : (b :: (x ++ s)).take pattern.length = b :: x := by
    rw [← List.cons_append, ← hx, List.length_map, List.take_left]
  rw [List.cons_append, occurrences, if_pos hstands, hlength, occurrences_skip, htake]

/-- What is replaced does not depend on the marks. -/
theorem map_rewrite (skip : Nat) (s : List β) :
    (rewrite read pattern value skip s).map read =
      rewrite id pattern (value.map read) skip (s.map read) := by
  induction s generalizing skip with
  | nil => cases skip <;> rfl
  | cons b s ih =>
    cases skip with
    | succ skip => exact ih skip
    | zero =>
      have hstands : standsIn id pattern (read b :: s.map read) =
          standsIn read pattern (b :: s) := by
        rw [standsIn, standsIn, List.map_id, List.map_cons]
      rw [rewrite, List.map_cons, rewrite, hstands]
      split
      · rw [List.map_append, ih]
      · rw [List.map_cons, ih]

end Rules

section Unchanged

variable {pattern value text : List α}

/-- A text without the pattern is left as it is. -/
theorem replaceAll_of_not_infix (h : ¬pattern <:+: text) :
    replaceAll pattern value text = text := by
  have hquiet : Quiet id pattern text [] := by
    intro a b hab _
    by_contra hstands
    rw [Bool.not_eq_false, standsIn, List.map_id, List.append_nil,
      List.isPrefixOf_iff_prefix] at hstands
    exact h (hab ▸ hstands.isInfix.trans (List.suffix_append a b).isInfix)
  have hrewrite : rewrite id pattern value 0 (text ++ []) =
      text ++ rewrite id pattern value 0 [] := rewrite_append hquiet
  rwa [List.append_nil, rewrite, List.append_nil] at hrewrite

/-- A text is left as it is just if it is without the pattern, where the value begins with another
entry. -/
theorem replaceAll_eq_self_iff {c d : α} (hcd : c ≠ d) :
    replaceAll (d :: pattern) (c :: value) text = text ↔ ¬(d :: pattern) <:+: text := by
  refine ⟨fun h hinfix ↦ ?_, replaceAll_of_not_infix⟩
  induction text with
  | nil => simp at hinfix
  | cons a text ih =>
    cases hstands : standsIn id (d :: pattern) (a :: text) with
    | true =>
      rw [replaceAll, rewrite, if_pos hstands] at h
      have had : d = a := by
        obtain ⟨more, hmore⟩ := List.isPrefixOf_iff_prefix.mp hstands
        exact (List.cons.inj hmore).1
      exact hcd ((List.cons.inj h).1.trans had.symm)
    | false =>
      rw [replaceAll, rewrite_cons_of_not hstands] at h
      refine ih (List.cons.inj h).2 ?_
      obtain hprefix | htail := List.infix_cons_iff.mp hinfix
      · rw [standsIn, List.map_id, ← Bool.not_eq_true, List.isPrefixOf_iff_prefix] at hstands
        exact absurd hprefix hstands
      · exact htail

end Unchanged

/-- A placeholder: its name, and the value that replaces it. -/
structure Placeholder (α : Type) where
  name : List α
  value : List α
  deriving DecidableEq

/-- The name between delimiters. -/
def Placeholder.pattern (d : α) (p : Placeholder α) : List α := d :: (p.name ++ [d])

/-- The placeholders replaced one after another. -/
def replaceInTurn (d : α) (ps : List (Placeholder α)) (text : List α) : List α :=
  ps.foldl (fun text p ↦ replaceAll (p.pattern d) p.value text) text

/-- A part of a text: an entry, or a placeholder. -/
inductive Token (α : Type) where
  | plain (a : α)
  | slot (p : Placeholder α)

/-- The parts of a text, from left to right, after `skip` entries to leave out. -/
def tokens (d : α) (ps : List (Placeholder α)) : Nat → List α → List (Token α)
  | _, [] => []
  | skip + 1, _ :: s => tokens d ps skip s
  | 0, a :: s =>
    match ps.find? fun p ↦ (p.pattern d).isPrefixOf (a :: s) with
    | some p => .slot p :: tokens d ps (p.name.length + 1) s
    | none => .plain a :: tokens d ps 0 s

/-- A part with the placeholders of `done` replaced. Solid is what is no placeholder left. -/
def Token.render (d : α) (done : List (Placeholder α)) : Token α → List (α × Bool)
  | .plain a => [(a, true)]
  | .slot p => if p ∈ done then p.value.map (·, true) else (p.pattern d).map (·, false)

/-- A text with the placeholders of `done` replaced. -/
def render (d : α) (done : List (Placeholder α)) (ts : List (Token α)) : List (α × Bool) :=
  ts.flatMap (·.render d done)

/-- A text with its placeholders replaced at once. -/
def expand (d : α) (ps : List (Placeholder α)) (text : List α) : List α :=
  (render d ps (tokens d ps 0 text)).map Prod.fst

/-- Nothing solid is replaced where the placeholder is. -/
def Confined (d : α) (p : Placeholder α) (s : List (α × Bool)) : Prop :=
  ∀ o ∈ occurrences Prod.fst (p.pattern d) 0 s, ∀ b ∈ o, b.2 = false

/-- One placeholder replaced by its value. -/
def replaceOne (d : α) (p : Placeholder α) (s : List (α × Bool)) : List (α × Bool) :=
  rewrite Prod.fst (p.pattern d) (p.value.map (·, true)) 0 s

/-- Nothing solid is replaced where the placeholders are, one after another. -/
def ConfinedInTurn (d : α) : List (Placeholder α) → List (α × Bool) → Prop
  | [], _ => True
  | p :: ps, s => Confined d p s ∧ ConfinedInTurn d ps (replaceOne d p s)

/-- Each placeholder is found just where the text has it, when those before it are replaced at
once. -/
def FoundInPlace (d : α) (ps : List (Placeholder α)) (text : List α) : Prop :=
  ∀ done p rest, ps = done ++ p :: rest → Confined d p (render d done (tokens d ps 0 text))

/-- The names of placeholders differ and are free of delimiters. -/
structure WellNamed (d : α) (ps : List (Placeholder α)) : Prop where
  ne : ∀ p ∈ ps, p.name ≠ []
  plain : ∀ p ∈ ps, d ∉ p.name
  distinct : (ps.map (·.name)).Nodup

section Placeholders

variable {d : α} {ps done rest : List (Placeholder α)} {p q : Placeholder α}
  {s x y : List (α × Bool)} {ts : List (Token α)}

theorem quiet_append (hx : Quiet Prod.fst (p.pattern d) x (y ++ s))
    (hy : Quiet Prod.fst (p.pattern d) y s) : Quiet Prod.fst (p.pattern d) (x ++ y) s := by
  intro a b hab hb
  obtain ⟨c, rfl, rfl⟩ | ⟨c, rfl, hyb⟩ := List.append_eq_append_iff.mp hab
  · exact hy c b rfl hb
  · by_cases hc : c = []
    · subst hc
      rw [List.nil_append] at hyb
      exact hy [] b hyb.symm hb
    · rw [hyb, List.append_assoc]
      exact hx a c rfl hc

/-- An occurrence begins with what it is found at. -/
theorem head_of_confined {b : α × Bool} (h : Confined d p (b :: s))
    (hb : standsIn Prod.fst (p.pattern d) (b :: s) = true) : b.2 = false := by
  refine h ((b :: s).take (p.pattern d).length) ?_ b ?_
  · rw [occurrences, if_pos hb]
    exact List.mem_cons_self
  · rw [Placeholder.pattern, List.length_cons, List.take_succ_cons]
    exact List.mem_cons_self

/-- Where nothing solid is replaced, nothing is replaced that begins in something solid. -/
theorem quiet_of_solid (hx : ∀ b ∈ x, b.2 = true) (h : Confined d p (x ++ s)) :
    Quiet Prod.fst (p.pattern d) x s := by
  induction x with
  | nil =>
    intro a b hab hb
    exact absurd (List.append_eq_nil_iff.mp hab.symm).2 hb
  | cons c x ih =>
    have hfirst : standsIn Prod.fst (p.pattern d) (c :: (x ++ s)) = false := by
      by_contra hne
      have hc := head_of_confined h (Bool.not_eq_false _ ▸ hne)
      rw [hx c List.mem_cons_self] at hc
      cases hc
    intro a b hab hb
    cases a with
    | nil =>
      have hb' : b = c :: x := hab.symm
      rw [hb']
      exact hfirst
    | cons e a =>
      refine ih (fun b hb ↦ hx b (List.mem_cons_of_mem c hb)) ?_ a b (List.cons.inj hab).2 hb
      rw [Confined, List.cons_append, occurrences_cons_of_not hfirst] at h
      exact h

/-- A text with placeholders replaced begins with something solid or with a delimiter. -/
theorem head_render {b : α × Bool} (h : (render d done ts).head? = some b) :
    b.2 = true ∨ b.1 = d := by
  induction ts with
  | nil => cases h
  | cons t ts ih =>
    rw [render, List.flatMap_cons] at h
    cases t with
    | plain a =>
      cases h
      exact .inl rfl
    | slot q =>
      rw [Token.render] at h
      split at h
      · cases hvalue : q.value with
        | nil =>
          rw [hvalue] at h
          exact ih h
        | cons a value =>
          rw [hvalue] at h
          cases h
          exact .inl rfl
      · cases h
        exact .inr rfl

/-- A placeholder stands in another only if it has its name. -/
theorem eq_of_standsIn (hp : d ∉ p.name) (hq : d ∉ q.name) {after : List (α × Bool)}
    (h : standsIn Prod.fst (p.pattern d) ((q.pattern d).map (·, false) ++ after) = true) :
    p.name = q.name := by
  obtain ⟨more, hmore⟩ := List.isPrefixOf_iff_prefix.mp h
  rw [List.map_append, List.map_map] at hmore
  have hmap : (q.pattern d).map (Prod.fst ∘ fun a ↦ (a, false)) = q.pattern d := List.map_id _
  rw [hmap, Placeholder.pattern, Placeholder.pattern, List.cons_append, List.cons_append,
    List.append_assoc, List.append_assoc] at hmore
  exact ((append_cons_inj hp hq).mp (List.cons.inj hmore).2).1

/-- Where nothing solid is replaced, nothing is replaced that begins in another placeholder: what
follows its last delimiter is solid or another delimiter. -/
theorem quiet_pattern (hne : p.name ≠ []) (hp : d ∉ p.name) (hq : d ∉ q.name)
    (hpq : p.name ≠ q.name) (h : Confined d p ((q.pattern d).map (·, false) ++ render d done ts)) :
    Quiet Prod.fst (p.pattern d) ((q.pattern d).map (·, false)) (render d done ts) := by
  have hsplit : (q.pattern d).map (·, false) =
      ((d, false) :: q.name.map (·, false)) ++ [(d, false)] := by
    simp [Placeholder.pattern]
  have hfront : Quiet Prod.fst (p.pattern d) ((d, false) :: q.name.map (·, false))
      ([(d, false)] ++ render d done ts) := by
    intro a b hab hb
    cases a with
    | nil =>
      have hb' : b = (d, false) :: q.name.map (·, false) := hab.symm
      rw [hb', ← List.append_assoc, ← hsplit]
      by_contra hstands
      exact hpq (eq_of_standsIn hp hq (Bool.not_eq_false _ ▸ hstands))
    | cons e a =>
      obtain ⟨c, b, rfl⟩ := List.exists_cons_of_ne_nil hb
      have hc : c ∈ q.name.map (·, false) := by
        rw [(List.cons.inj hab).2]
        exact List.mem_append_right a List.mem_cons_self
      obtain ⟨u, hu, rfl⟩ := List.mem_map.mp hc
      have hud : (d == u) = false := beq_false_of_ne fun heq ↦ hq (heq ▸ hu)
      rw [standsIn, Placeholder.pattern, List.cons_append, List.map_cons, List.isPrefixOf_cons_cons,
        hud, Bool.false_and]
  rw [hsplit, List.append_assoc] at h
  rw [Confined, occurrences_append hfront, List.singleton_append] at h
  have hlast : standsIn Prod.fst (p.pattern d) ((d, false) :: render d done ts) = false := by
    by_contra hstands
    rw [Bool.not_eq_false] at hstands
    -- The first letter of the name is found behind the delimiter, and is nothing solid.
    obtain ⟨c, name, hname⟩ := List.exists_cons_of_ne_nil hne
    have hcd : c ≠ d := fun heq ↦ hp (by rw [hname, heq]; exact List.mem_cons_self)
    cases hafter : render d done ts with
    | nil => simp [hafter, standsIn, Placeholder.pattern, hname] at hstands
    | cons b after =>
      rw [hafter] at h hstands
      have hb : b.1 = c := by
        obtain ⟨more, hmore⟩ := List.isPrefixOf_iff_prefix.mp hstands
        rw [Placeholder.pattern, hname] at hmore
        exact (List.cons.inj (List.cons.inj hmore).2).1.symm
      have hmem : b ∈ ((d, false) :: b :: after).take (p.pattern d).length := by
        rw [Placeholder.pattern, hname, List.length_cons, List.cons_append, List.length_cons,
          List.take_succ_cons, List.take_succ_cons]
        exact List.mem_cons_of_mem _ List.mem_cons_self
      have hfalse : b.2 = false := by
        refine h _ ?_ b hmem
        rw [occurrences, if_pos hstands]
        exact List.mem_cons_self
      obtain htrue | hd := head_render (by rw [hafter]; rfl : (render d done ts).head? = some b)
      · rw [hfalse] at htrue
        cases htrue
      · exact hcd (hb.symm.trans hd)
  rw [hsplit]
  refine quiet_append hfront fun a b hab hb ↦ ?_
  obtain ⟨-, rfl⟩ | ⟨-, rfl⟩ := List.append_eq_singleton_iff.mp hab.symm
  · exact hlast
  · exact absurd rfl hb

/-- Replacing a placeholder where nothing solid is replaced replaces the text's own. -/
theorem replaceOne_render (hnames : WellNamed d (done ++ p :: rest))
    (hts : ∀ q, .slot q ∈ ts → q ∈ done ++ p :: rest) (h : Confined d p (render d done ts)) :
    replaceOne d p (render d done ts) = render d (done ++ [p]) ts := by
  have hmem : p ∈ done ++ p :: rest := List.mem_append_right done List.mem_cons_self
  induction ts with
  | nil => rfl
  | cons t ts ih =>
    have hrest : ∀ q, .slot q ∈ ts → q ∈ done ++ p :: rest :=
      fun q hq ↦ hts q (List.mem_cons_of_mem t hq)
    have hcons : ∀ done, render d done (t :: ts) = t.render d done ++ render d done ts :=
      fun _ ↦ List.flatMap_cons
    rw [hcons] at h
    have go (hquiet : Quiet Prod.fst (p.pattern d) (t.render d done) (render d done ts))
        (heq : t.render d done = t.render d (done ++ [p])) :
        replaceOne d p (render d done (t :: ts)) = render d (done ++ [p]) (t :: ts) := by
      have hconf : Confined d p (render d done ts) := by
        rw [Confined, occurrences_append hquiet] at h
        exact h
      rw [hcons, hcons, replaceOne, rewrite_append hquiet, ← heq]
      exact congrArg _ (ih hrest hconf)
    cases t with
    | plain a => exact go (quiet_of_solid (by simp [Token.render]) h) rfl
    | slot q =>
      have hq := hts q List.mem_cons_self
      by_cases hdone : q ∈ done
      · have hrender : (Token.slot q).render d done = q.value.map (·, true) := if_pos hdone
        have hrender' : (Token.slot q).render d (done ++ [p]) = q.value.map (·, true) :=
          if_pos (List.mem_append_left [p] hdone)
        refine go (quiet_of_solid ?_ h) (hrender.trans hrender'.symm)
        rw [hrender]
        simp
      · have hrender : (Token.slot q).render d done = (q.pattern d).map (·, false) := if_neg hdone
        by_cases hpq : q = p
        · subst hpq
          have hrender' : (Token.slot q).render d (done ++ [q]) = q.value.map (·, true) :=
            if_pos (List.mem_append_right done List.mem_cons_self)
          have hread : ((q.pattern d).map (·, false)).map Prod.fst = q.pattern d := by
            rw [List.map_map]
            exact List.map_id _
          have hne : (q.pattern d).map (·, false) ≠ [] := List.cons_ne_nil _ _
          rw [hrender, Confined, occurrences_pattern hread hne] at h
          have hconf : Confined d q (render d done ts) :=
            fun o ho ↦ h o (List.mem_cons_of_mem _ ho)
          rw [hcons, hcons, hrender, hrender', replaceOne, rewrite_pattern hread hne]
          exact congrArg _ (ih hrest hconf)
        · have hrender' : (Token.slot q).render d (done ++ [p]) = (q.pattern d).map (·, false) := by
            refine if_neg ?_
            rw [List.mem_append, List.mem_singleton]
            exact not_or.mpr ⟨hdone, hpq⟩
          have hname : p.name ≠ q.name :=
            fun heq ↦ hpq (List.inj_on_of_nodup_map hnames.distinct hq hmem heq.symm)
          refine go ?_ (hrender.trans hrender'.symm)
          rw [hrender] at h ⊢
          exact quiet_pattern (hnames.ne p hmem) (hnames.plain p hmem) (hnames.plain q hq) hname h

/-- The parts of a text make it up. -/
theorem render_tokens (skip : Nat) (text : List α) :
    (render d [] (tokens d ps skip text)).map Prod.fst = text.drop skip := by
  induction text generalizing skip with
  | nil => cases skip <;> rfl
  | cons a s ih =>
    cases skip with
    | succ skip => exact ih skip
    | zero =>
      rw [tokens]
      cases hfind : ps.find? fun p ↦ (p.pattern d).isPrefixOf (a :: s) with
      | none => exact congrArg (a :: ·) (ih 0)
      | some p =>
        have hprefix : (p.pattern d).isPrefixOf (a :: s) = true := by
          simpa using List.find?_some hfind
        obtain ⟨more, hmore⟩ := List.isPrefixOf_iff_prefix.mp hprefix
        obtain ⟨rfl, hs⟩ := List.cons.inj hmore
        have hdrop : s.drop (p.name.length + 1) = more := by
          rw [← hs]
          exact List.drop_left' (by simp)
        have hread : ((p.pattern d).map (·, false)).map Prod.fst = p.pattern d := by
          rw [List.map_map]
          exact List.map_id _
        have hslot : (Token.slot p).render d [] = (p.pattern d).map (·, false) := by
          rw [Token.render, if_neg List.not_mem_nil]
        have htail := ih (p.name.length + 1)
        rw [hdrop] at htail
        dsimp only
        rw [render, List.flatMap_cons, hslot, List.map_append, hread, ← render, htail, hmore]
        rfl

/-- The slots of a text are placeholders. -/
theorem mem_of_slot {skip : Nat} {text : List α} (h : .slot q ∈ tokens d ps skip text) :
    q ∈ ps := by
  induction text generalizing skip with
  | nil => cases skip <;> cases h
  | cons a s ih =>
    cases skip with
    | succ skip => exact ih h
    | zero =>
      rw [tokens] at h
      cases hfind : ps.find? fun p ↦ (p.pattern d).isPrefixOf (a :: s) with
      | none =>
        rw [hfind] at h
        obtain heq | hmem := List.mem_cons.mp h
        · cases heq
        · exact ih hmem
      | some p =>
        rw [hfind] at h
        obtain heq | hmem := List.mem_cons.mp h
        · cases heq
          exact List.mem_of_find?_eq_some hfind
        · exact ih hmem

/-- Nothing solid is replaced in turn just if each placeholder is found in its place. -/
theorem confinedInTurn_iff (hnames : WellNamed d (done ++ rest))
    (hts : ∀ q, .slot q ∈ ts → q ∈ done ++ rest) :
    ConfinedInTurn d rest (render d done ts) ↔
      ∀ mid p after, rest = mid ++ p :: after → Confined d p (render d (done ++ mid) ts) := by
  induction rest generalizing done with
  | nil =>
    refine iff_of_true trivial fun mid p after heq ↦ ?_
    cases mid <;> cases heq
  | cons p rest ih =>
    have hassoc : done ++ p :: rest = done ++ [p] ++ rest := by simp
    have hnext := ih (hassoc ▸ hnames) (hassoc ▸ hts)
    constructor
    · rintro ⟨hfirst, hturn⟩ mid q after heq
      rw [replaceOne_render hnames hts hfirst, hnext] at hturn
      cases mid with
      | nil =>
        obtain ⟨rfl, -⟩ := List.cons.inj heq
        rwa [List.append_nil]
      | cons e mid =>
        obtain ⟨rfl, hrest⟩ := List.cons.inj heq
        have hconf := hturn mid q after hrest
        rwa [List.append_assoc] at hconf
    · intro hall
      have hfirst : Confined d p (render d done ts) := by
        have hconf := hall [] p rest rfl
        rwa [List.append_nil] at hconf
      refine ⟨hfirst, ?_⟩
      rw [replaceOne_render hnames hts hfirst, hnext]
      intro mid q after heq
      rw [List.append_assoc]
      exact hall (p :: mid) q after (congrArg (p :: ·) heq)

/-- Where nothing solid is replaced in turn the text is expanded. -/
theorem foldl_replaceAll (hnames : WellNamed d (done ++ rest))
    (hts : ∀ q, .slot q ∈ ts → q ∈ done ++ rest) (h : ConfinedInTurn d rest (render d done ts)) :
    rest.foldl (fun text p ↦ replaceAll (p.pattern d) p.value text)
        ((render d done ts).map Prod.fst) =
      (render d (done ++ rest) ts).map Prod.fst := by
  induction rest generalizing done with
  | nil => rw [List.foldl_nil, List.append_nil]
  | cons p rest ih =>
    have hassoc : done ++ p :: rest = done ++ [p] ++ rest := by simp
    have hone : replaceAll (p.pattern d) p.value ((render d done ts).map Prod.fst) =
        (replaceOne d p (render d done ts)).map Prod.fst := by
      have hvalue : (p.value.map (·, true)).map Prod.fst = p.value := by
        rw [List.map_map]
        exact List.map_id _
      rw [replaceOne, map_rewrite, hvalue, replaceAll]
    obtain ⟨hfirst, hturn⟩ := h
    rw [replaceOne_render hnames hts hfirst] at hone hturn
    rw [List.foldl_cons, hone, ih (hassoc ▸ hnames) (hassoc ▸ hts) hturn, ← hassoc]

end Placeholders

section Whole

variable {d : α} {ps : List (Placeholder α)} {text : List α}

/-- Nothing solid of a text is replaced just if each placeholder is found in its place. -/
theorem confinedInTurn_iff_foundInPlace (hnames : WellNamed d ps) :
    ConfinedInTurn d ps (render d [] (tokens d ps 0 text)) ↔ FoundInPlace d ps text := by
  have hts : ∀ q, .slot q ∈ tokens d ps 0 text → q ∈ [] ++ ps := fun q hq ↦ mem_of_slot hq
  exact confinedInTurn_iff hnames hts

/-- Placeholders replaced one after another, each in its place, are replaced at once. -/
theorem replaceInTurn_eq_expand (hnames : WellNamed d ps)
    (h : ConfinedInTurn d ps (render d [] (tokens d ps 0 text))) :
    replaceInTurn d ps text = expand d ps text := by
  have hts : ∀ q, .slot q ∈ tokens d ps 0 text → q ∈ [] ++ ps := fun q hq ↦ mem_of_slot hq
  have hfold := foldl_replaceAll hnames hts h
  rw [render_tokens] at hfold
  exact hfold

end Whole

/-- A text with the placeholders of `done` replaced. -/
def filled (d : α) (done : List (Placeholder α)) (ts : List (Token α)) : List α :=
  (render d done ts).map Prod.fst

/-- What follows a delimiter within a part, with the placeholders of `done` replaced and `p` the
next one: a delimiter outside placeholders, one in a value, or the last one of a placeholder that is
left. -/
def Token.Behind (d : α) (done : List (Placeholder α)) (p : Placeholder α) :
    Token α → List α → Prop
  | .plain a, v => a = d ∧ v = []
  | .slot q, v => if q ∈ done then ∃ u, q.value = u ++ d :: v else q ≠ p ∧ v = []

section Neighbours

variable {d : α} {ps done rest : List (Placeholder α)} {p q : Placeholder α} {b : α × Bool}
  {s x : List (α × Bool)} {t : Token α} {ts : List (Token α)}

/-- A placeholder stands where its delimiter is followed by its name and another delimiter. -/
theorem standsIn_cons_iff : standsIn Prod.fst (p.pattern d) (b :: s) = true ↔
    d = b.1 ∧ p.name ++ [d] <+: s.map Prod.fst := by
  rw [standsIn, List.isPrefixOf_iff_prefix, Placeholder.pattern, List.map_cons,
    List.cons_prefix_cons]

/-- Nothing is replaced that begins in a text just if no delimiter in it is followed by a name. -/
theorem quiet_map_iff {value : List α} {mark : Bool} :
    Quiet Prod.fst (p.pattern d) (value.map (·, mark)) s ↔
      ∀ u v, value = u ++ d :: v → ¬p.name ++ [d] <+: v ++ s.map Prod.fst := by
  have hread (v : List α) : (v.map (·, mark) ++ s).map Prod.fst = v ++ s.map Prod.fst := by
    simp [Function.comp_def]
  constructor
  · rintro hquiet u v rfl hprefix
    have hstands := hquiet (u.map (·, mark)) ((d :: v).map (·, mark)) List.map_append
      (List.cons_ne_nil _ _)
    rw [List.map_cons, List.cons_append, ← Bool.not_eq_true, standsIn_cons_iff, hread] at hstands
    exact hstands ⟨rfl, hprefix⟩
  · intro hnone a b hab hb
    obtain ⟨u, w, rfl, rfl, rfl⟩ := List.map_eq_append_iff.mp hab
    cases w with
    | nil => exact absurd rfl hb
    | cons c v =>
      rw [List.map_cons, List.cons_append, ← Bool.not_eq_true, standsIn_cons_iff, hread]
      rintro ⟨rfl, hprefix⟩
      exact hnone u v rfl hprefix

/-- Nothing solid is replaced behind a text where nothing is replaced. -/
theorem confined_append_iff (hquiet : Confined d p (x ++ s) → Quiet Prod.fst (p.pattern d) x s) :
    Confined d p (x ++ s) ↔ Quiet Prod.fst (p.pattern d) x s ∧ Confined d p s := by
  constructor
  · intro h
    have hx := hquiet h
    rw [Confined, occurrences_append hx] at h
    exact ⟨hx, h⟩
  · rintro ⟨hx, h⟩
    rw [Confined, occurrences_append hx]
    exact h

/-- The only place in a placeholder where another one may begin is its last delimiter. -/
theorem quiet_pattern_iff (hp : d ∉ p.name) (hq : d ∉ q.name) (hpq : p.name ≠ q.name) :
    Quiet Prod.fst (p.pattern d) ((q.pattern d).map (·, false)) s ↔
      ¬p.name ++ [d] <+: s.map Prod.fst := by
  rw [quiet_map_iff]
  constructor
  · intro hnone
    exact hnone (d :: q.name) [] rfl
  · intro hnone u v heq hprefix
    cases u with
    | nil =>
      obtain rfl : q.name ++ [d] = v := (List.cons.inj heq).2
      obtain ⟨more, hmore⟩ := hprefix
      rw [List.append_assoc, List.append_assoc] at hmore
      exact hpq ((append_cons_inj hp hq).mp hmore).1
    | cons e u =>
      have htail : q.name ++ [d] = u ++ d :: v := (List.cons.inj heq).2
      obtain ⟨c, -, hc⟩ | ⟨c, hname, hc⟩ := List.append_eq_append_iff.mp htail
      · cases c with
        | nil =>
          obtain rfl : [] = v := (List.cons.inj hc).2
          exact hnone hprefix
        | cons f c => simp at hc
      · cases c with
        | nil =>
          obtain rfl : v = [] := (List.cons.inj hc).2
          exact hnone hprefix
        | cons f c =>
          obtain rfl : d = f := (List.cons.inj hc).1
          exact hq (hname ▸ List.mem_append_right u List.mem_cons_self)

/-- Nothing solid is replaced where a placeholder is, just if its name stands behind no delimiter
but its own. -/
theorem confined_render_iff (hnames : WellNamed d (done ++ p :: rest))
    (hts : ∀ q, .slot q ∈ ts → q ∈ done ++ p :: rest) :
    Confined d p (render d done ts) ↔ ∀ t after, t :: after <:+ ts →
      ∀ v, t.Behind d done p v → ¬p.name ++ [d] <+: v ++ filled d done after := by
  have hmem : p ∈ done ++ p :: rest := List.mem_append_right done List.mem_cons_self
  induction ts with
  | nil =>
    refine iff_of_true (fun o ho ↦ by cases ho) fun t after hsuffix ↦ ?_
    exact absurd (List.suffix_nil.mp hsuffix) (List.cons_ne_nil t after)
  | cons t ts ih =>
    have hrest : ∀ q, .slot q ∈ ts → q ∈ done ++ p :: rest :=
      fun q hq ↦ hts q (List.mem_cons_of_mem t hq)
    have hcons : Confined d p (t.render d done ++ render d done ts) ↔
        (∀ v, t.Behind d done p v → ¬p.name ++ [d] <+: v ++ filled d done ts) ∧
          Confined d p (render d done ts) := by
      cases t with
      | plain a =>
        have hvalue : (Token.plain a).render d done = [a].map (·, true) := rfl
        rw [confined_append_iff (quiet_of_solid (by simp [Token.render])), hvalue, quiet_map_iff]
        apply and_congr_left'
        constructor
        · rintro hnone v ⟨rfl, rfl⟩
          exact hnone [] [] rfl
        · intro hnone u v heq
          obtain ⟨rfl, htail⟩ | ⟨-, htail⟩ := List.append_eq_singleton_iff.mp heq.symm
          · exact hnone v ⟨(List.cons.inj htail).1.symm, (List.cons.inj htail).2⟩
          · exact absurd htail (List.cons_ne_nil d v)
      | slot q =>
        have hq := hts q List.mem_cons_self
        by_cases hdone : q ∈ done
        · have hrender : (Token.slot q).render d done = q.value.map (·, true) := if_pos hdone
          have hbehind : ∀ v, (Token.slot q).Behind d done p v ↔ ∃ u, q.value = u ++ d :: v :=
            fun v ↦ by rw [Token.Behind, if_pos hdone]
          rw [hrender, confined_append_iff (quiet_of_solid (by simp)), quiet_map_iff]
          simp only [hbehind]
          apply and_congr_left'
          exact ⟨fun hnone v ⟨u, heq⟩ ↦ hnone u v heq, fun hnone u v heq ↦ hnone v ⟨u, heq⟩⟩
        · have hrender : (Token.slot q).render d done = (q.pattern d).map (·, false) := if_neg hdone
          have hbehind : ∀ v, (Token.slot q).Behind d done p v ↔ q ≠ p ∧ v = [] :=
            fun v ↦ by rw [Token.Behind, if_neg hdone]
          rw [hrender]
          simp only [hbehind]
          by_cases hpq : q = p
          · subst hpq
            have hread : ((q.pattern d).map (·, false)).map Prod.fst = q.pattern d := by
              rw [List.map_map]
              exact List.map_id _
            rw [Confined, occurrences_pattern hread (List.cons_ne_nil _ _), List.forall_mem_cons]
            apply and_congr_left'
            exact iff_of_true (by simp) fun v hv ↦ absurd rfl hv.1
          · have hname : p.name ≠ q.name :=
              fun heq ↦ hpq (List.inj_on_of_nodup_map hnames.distinct hq hmem heq.symm)
            have hplain := hnames.plain p hmem
            have hplain' := hnames.plain q hq
            rw [confined_append_iff (quiet_pattern (hnames.ne p hmem) hplain hplain' hname),
              quiet_pattern_iff hplain hplain' hname]
            apply and_congr_left'
            constructor
            · rintro hnone v ⟨-, rfl⟩
              exact hnone
            · intro hnone
              exact hnone [] ⟨hpq, rfl⟩
    rw [render, List.flatMap_cons, ← render]
    refine (hcons.trans (and_congr_right' (ih hrest))).trans ?_
    simp only [List.suffix_cons_iff, List.cons.injEq]
    constructor
    · rintro ⟨hfirst, hlater⟩ t' after (⟨rfl, rfl⟩ | hsuffix)
      · exact hfirst
      · exact hlater t' after hsuffix
    · intro hall
      exact ⟨hall t ts (.inl ⟨rfl, rfl⟩), fun t' after hsuffix ↦ hall t' after (.inr hsuffix)⟩

end Neighbours

/-- Each placeholder is found in its place just if, with those before it replaced at once, its name
stands behind no delimiter but its own. -/
theorem foundInPlace_iff {d : α} {ps : List (Placeholder α)} (hnames : WellNamed d ps)
    {text : List α} :
    FoundInPlace d ps text ↔ ∀ done p rest, ps = done ++ p :: rest →
      ∀ t after, t :: after <:+ tokens d ps 0 text →
        ∀ v, t.Behind d done p v → ¬p.name ++ [d] <+: v ++ filled d done after := by
  refine forall₄_congr fun done p rest hps ↦ ?_
  have hts : ∀ q, .slot q ∈ tokens d ps 0 text → q ∈ ps := fun q hq ↦ mem_of_slot hq
  rw [hps] at hnames hts ⊢
  exact confined_render_iff hnames hts

/-- Other values for the placeholders of a text. -/
def Token.map (f : Placeholder α → Placeholder α) : Token α → Token α
  | .plain a => .plain a
  | .slot p => .slot (f p)

section Values

variable {d : α} {ps : List (Placeholder α)} {text : List α} {f : Placeholder α → Placeholder α}

omit [DecidableEq α] in
theorem WellNamed.map (hf : ∀ p, (f p).name = p.name) (h : WellNamed d ps) :
    WellNamed d (ps.map f) := by
  have hnames : (ps.map f).map (·.name) = ps.map (·.name) := by
    rw [List.map_map]
    exact List.map_congr_left fun p _ ↦ hf p
  refine ⟨?_, ?_, hnames ▸ h.distinct⟩
  · rw [List.forall_mem_map]
    exact fun p hp ↦ hf p ▸ h.ne p hp
  · rw [List.forall_mem_map]
    exact fun p hp ↦ hf p ▸ h.plain p hp

/-- Where the placeholders of a text are does not depend on their values. -/
theorem tokens_map (hf : ∀ p, (f p).name = p.name) (skip : Nat) (text : List α) :
    tokens d (ps.map f) skip text = (tokens d ps skip text).map (Token.map f) := by
  induction text generalizing skip with
  | nil => cases skip <;> rfl
  | cons a s ih =>
    cases skip with
    | succ skip => exact ih skip
    | zero =>
      have hpattern : ∀ p, (f p).pattern d = p.pattern d :=
        fun p ↦ by rw [Placeholder.pattern, hf, Placeholder.pattern]
      have hfind : (ps.map f).find? (fun p ↦ (p.pattern d).isPrefixOf (a :: s)) =
          (ps.find? fun p ↦ (p.pattern d).isPrefixOf (a :: s)).map f := by
        rw [List.find?_map]
        congr 2
        funext p
        exact congrArg (List.isPrefixOf · (a :: s)) (hpattern p)
      rw [tokens, tokens, hfind]
      cases ps.find? fun p ↦ (p.pattern d).isPrefixOf (a :: s) with
      | none => exact congrArg (Token.plain a :: ·) (ih 0)
      | some p =>
        simp only [Option.map_some, hf, ih]
        rfl

omit [DecidableEq α] in
/-- The placeholders of a text of which the values stay are the same. -/
theorem map_tokens_eq {ts : List (Token α)} (hfix : ∀ q, .slot q ∈ ts → f q = q) :
    ts.map (Token.map f) = ts := by
  conv_rhs => rw [← List.map_id ts]
  apply List.map_congr_left
  intro t ht
  cases t with
  | plain a => rfl
  | slot q => exact congrArg Token.slot (hfix q ht)

/-- A text of which the values stay is filled in alike. -/
theorem render_map {done : List (Placeholder α)} {ts : List (Token α)}
    (hf : ∀ p, (f p).name = p.name) (hdistinct : (ps.map (·.name)).Nodup) (hdone : done ⊆ ps)
    (hts : ∀ q, .slot q ∈ ts → q ∈ ps) (hfix : ∀ q, .slot q ∈ ts → f q = q) :
    render d (done.map f) ts = render d done ts := by
  apply List.flatMap_congr
  intro t ht
  cases t with
  | plain a => rfl
  | slot q =>
    have hmem : q ∈ done.map f ↔ q ∈ done := by
      constructor
      · intro hq
        obtain ⟨r, hr, heq⟩ := List.mem_map.mp hq
        have hname : r.name = q.name := by rw [← heq, hf]
        rw [← List.inj_on_of_nodup_map hdistinct (hdone hr) (hts q ht) hname]
        exact hr
      · intro hq
        exact List.mem_map.mpr ⟨q, hq, hfix q ht⟩
    rw [Token.render, Token.render]
    simp only [hmem]

/-- Whether each placeholder is found in its place depends on the values in the text alone. -/
theorem foundInPlace_map (hf : ∀ p, (f p).name = p.name) (hnames : WellNamed d ps)
    (hfix : ∀ q, .slot q ∈ tokens d ps 0 text → f q = q) :
    FoundInPlace d (ps.map f) text ↔ FoundInPlace d ps text := by
  have htokens : tokens d (ps.map f) 0 text = tokens d ps 0 text :=
    (tokens_map hf 0 text).trans (map_tokens_eq hfix)
  have hconfined {done rest : List (Placeholder α)} {p : Placeholder α}
      (hps : ps = done ++ p :: rest) :
      Confined d (f p) (render d (done.map f) (tokens d ps 0 text)) ↔
        Confined d p (render d done (tokens d ps 0 text)) := by
    have hdone : done ⊆ ps := hps ▸ List.subset_append_left done (p :: rest)
    rw [render_map hf hnames.distinct hdone (fun q hq ↦ mem_of_slot hq) hfix, Confined, Confined,
      Placeholder.pattern, hf, Placeholder.pattern]
  constructor
  · intro hfound done p rest hps
    have hmap : ps.map f = done.map f ++ f p :: rest.map f := by rw [hps]; simp
    have hconf := hfound (done.map f) (f p) (rest.map f) hmap
    rw [htokens] at hconf
    exact (hconfined hps).mp hconf
  · intro hfound done' p' rest' hmap
    obtain ⟨done, more, hps, rfl, hmore⟩ := List.map_eq_append_iff.mp hmap
    obtain ⟨p, rest, rfl, rfl, rfl⟩ := List.map_eq_cons_iff.mp hmore
    rw [htokens]
    exact (hconfined hps).mpr (hfound done p rest hps)

/-- With all placeholders replaced a text is as long as its other entries and its values. -/
theorem length_filled_map_le {ts : List (Token α)} (hts : ∀ q, .slot q ∈ ts → q ∈ ps)
    (hlonger : ∀ p ∈ ps, f p = p ∨ p.value.length < (f p).value.length) :
    (filled d ps ts).length ≤ (filled d (ps.map f) (ts.map (Token.map f))).length ∧
      ((filled d ps ts).length = (filled d (ps.map f) (ts.map (Token.map f))).length →
        ∀ q, .slot q ∈ ts → f q = q) := by
  induction ts with
  | nil => exact ⟨Nat.le_refl _, fun _ q hq ↦ by cases hq⟩
  | cons t ts ih =>
    obtain ⟨hle, heq⟩ := ih fun q hq ↦ hts q (List.mem_cons_of_mem t hq)
    rw [List.map_cons]
    unfold filled render at hle heq ⊢
    rw [List.flatMap_cons, List.flatMap_cons, List.map_append, List.map_append, List.length_append,
      List.length_append]
    cases t with
    | plain a =>
      have hone : ∀ done, (((Token.plain a).render d done).map Prod.fst).length = 1 := fun _ ↦ rfl
      rw [Token.map, hone, hone]
      refine ⟨by omega, fun hlen q hq ↦ heq (by omega) q ?_⟩
      exact (List.mem_cons.mp hq).resolve_left fun h ↦ by cases h
    | slot r =>
      have hr := hts r List.mem_cons_self
      have hlen : (((Token.slot r).render d ps).map Prod.fst).length = r.value.length := by
        rw [Token.render, if_pos hr, List.length_map, List.length_map]
      have hlen' : (((Token.slot (f r)).render d (ps.map f)).map Prod.fst).length =
          (f r).value.length := by
        rw [Token.render, if_pos (List.mem_map_of_mem hr), List.length_map, List.length_map]
      rw [Token.map, hlen, hlen']
      have hvalue : r.value.length ≤ (f r).value.length := by
        rcases hlonger r hr with hsame | hlt
        · exact Nat.le_of_eq (congrArg (·.value.length) hsame.symm)
        · exact Nat.le_of_lt hlt
      refine ⟨by omega, fun hsum q hq ↦ ?_⟩
      rcases List.mem_cons.mp hq with hq | hq
      · obtain rfl : q = r := Token.slot.inj hq
        rcases hlonger q hr with hsame | hlt
        · exact hsame
        · omega
      · exact heq (by omega) q hq

/-- With other values, all of them longer, a text is expanded alike just if it has none of them. -/
theorem expand_map_iff (hf : ∀ p, (f p).name = p.name) (hnames : WellNamed d ps)
    (hlonger : ∀ p ∈ ps, f p = p ∨ p.value.length < (f p).value.length) :
    expand d ps text = expand d (ps.map f) text ↔
      ∀ q, .slot q ∈ tokens d ps 0 text → f q = q := by
  have hts : ∀ q, .slot q ∈ tokens d ps 0 text → q ∈ ps := fun q hq ↦ mem_of_slot hq
  rw [expand, expand, tokens_map hf]
  constructor
  · intro heq
    exact (length_filled_map_le hts hlonger).2 (congrArg List.length heq)
  · intro hfix
    rw [map_tokens_eq hfix, render_map hf hnames.distinct (List.Subset.refl ps) hts hfix]

/-- Replacing placeholders one after another puts some values in their place at once, and changes
nothing of a value or of the text around them, just if the text has only placeholders with these
values, each in its place. -/
theorem replaceInTurn_map_iff (text : List α) (hf : ∀ p, (f p).name = p.name)
    (hnames : WellNamed d ps)
    (hlonger : ∀ p ∈ ps, f p = p ∨ p.value.length < (f p).value.length) :
    (replaceInTurn d ps text = expand d (ps.map f) text ∧
        ConfinedInTurn d ps (render d [] (tokens d ps 0 text))) ↔
      (∀ q, .slot q ∈ tokens d ps 0 text → f q = q) ∧ FoundInPlace d (ps.map f) text := by
  constructor
  · rintro ⟨hresult, hconf⟩
    rw [replaceInTurn_eq_expand hnames hconf, expand_map_iff hf hnames hlonger] at hresult
    rw [confinedInTurn_iff_foundInPlace hnames] at hconf
    exact ⟨hresult, (foundInPlace_map hf hnames hresult).mpr hconf⟩
  · rintro ⟨hfix, hfound⟩
    rw [foundInPlace_map hf hnames hfix, ← confinedInTurn_iff_foundInPlace hnames] at hfound
    rw [replaceInTurn_eq_expand hnames hfound, expand_map_iff hf hnames hlonger]
    exact ⟨hfix, hfound⟩

end Values

end PacketDial.Lib
