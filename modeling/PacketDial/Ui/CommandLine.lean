import PacketDial.Ui.Accounts
import PacketDial.Ui.Text

/-!
# Click to dial

`main` turns the first protocol URI among the arguments into a `-call` flag
(`app_flutter/lib/main.dart:123–137`), and `CliService.handleArgs` carries out the flags
(`app_flutter/lib/core/cli_service.dart`). A call waits until the engine is ready and looks every
two seconds.
-/

namespace PacketDial.Ui

open PacketDial.Core PacketDial.Lib

/-- `_startupLaunchArg` (`main.dart:33`). -/
def startupLaunchArg : String := "--startup-launch"

/-- An argument that is a protocol URI (`main.dart:129–131`). -/
def isProtocolUri (arg : String) : Bool :=
  startsWith arg "tel:" || startsWith arg "sip:" || startsWith arg "callto:"

/-- `split(c).last` of Dart: what comes after the last `c`. -/
def afterLast (c : Char) (s : String) : String :=
  String.ofList (s.toList.reverse.takeWhile (· ≠ c)).reverse

/-- The loop of `main` over its arguments (`main.dart:127–137`). -/
def replaceProtocolUri : List String → List String
  | [] => []
  | arg :: rest =>
    if isProtocolUri arg then "-call" :: afterLast ':' arg :: rest
    else arg :: replaceProtocolUri rest

/-- `processedArgs` (`main.dart:123–137`). -/
def processedArgs (args : List String) : List String :=
  replaceProtocolUri (args.filter (· ≠ startupLaunchArg))

/-- What `_makeCall` finds when it looks: whether the engine is ready, and the accounts in the order
of `EngineChannel.accounts`. -/
structure Look where
  engineReady : Bool
  accounts : List Account

/-- How far a call has come: it waits for the engine, is placed, or has thrown. -/
inductive Placement where
  | waiting
  | placed (accountId number : String)
  | thrown
  deriving DecidableEq, Repr

/-- `_makeCall` after some looks (`cli_service.dart:44–60`). -/
def makeCall (number : String) : List Look → Placement
  | [] => .waiting
  | now :: later =>
    if now.engineReady then
      match (now.accounts.find? (·.registrationState = .registered)).or now.accounts.head? with
      | some registeredAccount => .placed registeredAccount.uuid number
      | none => .thrown
    else makeCall number later

/-- The flags (`cli_service.dart:19–38`): no other text is one of these in lower case. -/
inductive Flag where
  | call
  | answer
  | hangup
  | setStatus
  | other
  deriving DecidableEq, Repr

/-- `switch (arg.toLowerCase())`. -/
def Flag.of (arg : String) : Flag :=
  match lowered arg with
  | "-call" => .call
  | "-answer" => .answer
  | "-hangup" => .hangup
  | "-setstatus" => .setStatus
  | _ => .other

/-- What a flag does. -/
inductive CliAct where
  | call (placement : Placement)
  | answer
  | hangup
  | setStatus (status : String)
  deriving DecidableEq, Repr

/-- `handleArgs` after some looks (`cli_service.dart:11–42`). An exception of the first look ends
the loop, a later one only its call. -/
def handleArgs (looks : List Look) : List String → List CliAct
  | [] => []
  | arg :: rest =>
    match Flag.of arg, rest with
    | .call, number :: rest =>
      if makeCall number (looks.take 1) = .thrown then [.call .thrown]
      else .call (makeCall number looks) :: handleArgs looks rest
    | .answer, rest => .answer :: handleArgs looks rest
    | .hangup, rest => .hangup :: handleArgs looks rest
    | .setStatus, status :: rest => .setStatus status :: handleArgs looks rest
    | _, rest => handleArgs looks rest

/-- The numbers of the calls that are placed. -/
def placedNumbers (acts : List CliAct) : List String :=
  acts.filterMap fun
    | .call (.placed _ number) => some number
    | _ => none

/-- The numbers behind the `-call` flags. -/
def numbersOf : List String → List String
  | [] => []
  | arg :: rest =>
    match Flag.of arg, rest with
    | .call, number :: rest => number :: numbersOf rest
    | .setStatus, _ :: rest => numbersOf rest
    | _, rest => numbersOf rest

/-- What the next argument is taken for. -/
inductive Awaits where
  | flag
  | number
  | status
  deriving DecidableEq, Repr

/-- What the argument behind some others is taken for. -/
def awaits : List String → Awaits
  | [] => .flag
  | arg :: rest =>
    match Flag.of arg, rest with
    | .call, [] => .number
    | .call, _ :: rest => awaits rest
    | .setStatus, [] => .status
    | .setStatus, _ :: rest => awaits rest
    | _, rest => awaits rest

/-- At the first look that finds the engine ready, if there is one, there is an account. -/
def serves : List Look → Bool
  | [] => false
  | now :: later => if now.engineReady then now.accounts ≠ [] else serves later

/-- The target of a protocol URI between other arguments is kept: it is called and nothing else is.
Behind a flag that takes the `-call` of the URI itself, what is called instead is the target. -/
def KeepsTarget (pre post : List String) (target : String) : Prop :=
  match awaits pre with
  | .flag => ':' ∉ target.toList ∧ numbersOf pre = [] ∧ numbersOf post = []
  | .number => target = "-call" ∧ numbersOf pre = [] ∧ post = []
  | .status => numbersOf pre ++ numbersOf (afterLast ':' target :: post) = [target]

attribute [grind =] makeCall handleArgs numbersOf awaits serves

section Numbers

variable {arg x : String} {rest pre post : List String}

theorem numbersOf_cons_call (h : Flag.of arg = .call) :
    numbersOf (arg :: x :: rest) = x :: numbersOf rest := by
  simp [numbersOf, h]

theorem numbersOf_cons_setStatus (h : Flag.of arg = .setStatus) :
    numbersOf (arg :: x :: rest) = numbersOf rest := by
  simp [numbersOf, h]

theorem numbersOf_cons_other (hcall : Flag.of arg ≠ .call) (hstatus : Flag.of arg ≠ .setStatus) :
    numbersOf (arg :: rest) = numbersOf rest := by
  simp [numbersOf, hcall, hstatus]

/-- What the numbers behind some arguments are depends on what the next argument is taken for. -/
theorem numbersOf_append (pre : List String) (x : String) (post : List String) :
    numbersOf (pre ++ x :: post) = numbersOf pre ++
      match awaits pre with
      | .flag => numbersOf (x :: post)
      | .number => x :: numbersOf post
      | .status => numbersOf post := by
  fun_induction awaits pre with
  | case1 => rfl
  | case2 arg hcall =>
    rw [List.singleton_append, numbersOf_cons_call hcall]
    simp [numbersOf, hcall]
  | case3 arg y rest hcall ih =>
    rw [List.cons_append, List.cons_append, numbersOf_cons_call hcall, numbersOf_cons_call hcall,
      ih]
    rfl
  | case4 arg hstatus =>
    rw [List.singleton_append, numbersOf_cons_setStatus hstatus]
    simp [numbersOf, hstatus]
  | case5 arg y rest hstatus ih =>
    rw [List.cons_append, List.cons_append, numbersOf_cons_setStatus hstatus,
      numbersOf_cons_setStatus hstatus, ih]
  | case6 arg rest hcall hcall' hstatus hstatus' ih =>
    have hneCall : Flag.of arg ≠ .call := by
      intro heq
      cases rest with
      | nil => exact hcall heq rfl
      | cons y rest => exact hcall' y rest heq rfl
    have hneStatus : Flag.of arg ≠ .setStatus := by
      intro heq
      cases rest with
      | nil => exact hstatus heq rfl
      | cons y rest => exact hstatus' y rest heq rfl
    rw [List.cons_append, numbersOf_cons_other hneCall hneStatus,
      numbersOf_cons_other hneCall hneStatus, ih]

end Numbers

section Looks

variable {looks : List Look}

/-- Once the engine is ready and has an account each call is placed. -/
theorem makeCall_of_serves (h : serves looks = true) :
    ∃ accountId, ∀ number, makeCall number looks = .placed accountId number := by
  induction looks with
  | nil => cases h
  | cons now later ih =>
    rw [serves] at h
    by_cases hready : now.engineReady = true
    · rw [if_pos hready, decide_eq_true_eq] at h
      obtain ⟨account, haccount⟩ : ∃ account,
          (now.accounts.find? (·.registrationState = .registered)).or now.accounts.head? =
            some account := by
        obtain ⟨a, accounts, heq⟩ := List.exists_cons_of_ne_nil h
        rw [heq, List.head?_cons]
        cases (a :: accounts).find? (·.registrationState = .registered) with
        | none => exact ⟨a, rfl⟩
        | some account => exact ⟨account, rfl⟩
      exact ⟨account.uuid, fun number ↦ by rw [makeCall, if_pos hready, haccount]⟩
    · rw [if_neg hready] at h
      obtain ⟨accountId, hplaced⟩ := ih h
      exact ⟨accountId, fun number ↦ by rw [makeCall, if_neg hready, hplaced]⟩

/-- Otherwise none is. -/
theorem makeCall_of_not_serves (h : serves looks = false) (number : String) :
    makeCall number looks = .waiting ∨ makeCall number looks = .thrown := by
  induction looks with
  | nil => exact .inl rfl
  | cons now later ih =>
    rw [serves] at h
    by_cases hready : now.engineReady = true
    · rw [if_pos hready, decide_eq_false_iff_not, not_not] at h
      refine .inr ?_
      rw [makeCall, if_pos hready, h]
      rfl
    · rw [if_neg hready] at h
      rw [makeCall, if_neg hready]
      exact ih h

/-- A call that is placed in the end has not thrown at the first look. -/
theorem makeCall_take_one (h : serves looks = true) (number : String) :
    makeCall number (looks.take 1) ≠ .thrown := by
  cases looks with
  | nil => cases h
  | cons now later =>
    by_cases hready : now.engineReady = true
    · have hone : serves [now] = true := by
        rw [serves, if_pos hready] at h ⊢
        exact h
      obtain ⟨accountId, hplaced⟩ := makeCall_of_serves hone
      rw [List.take_one, List.head?_cons, Option.toList_some, hplaced]
      exact Placement.noConfusion
    · rw [List.take_one, List.head?_cons, Option.toList_some, makeCall, if_neg hready]
      exact Placement.noConfusion

/-- The calls that are placed are those behind the `-call` flags. -/
theorem placedNumbers_of_serves (h : serves looks = true) (args : List String) :
    placedNumbers (handleArgs looks args) = numbersOf args := by
  obtain ⟨accountId, hplaced⟩ := makeCall_of_serves h
  fun_induction handleArgs looks args with
  | case1 => rfl
  | case2 arg number rest hcall hthrown => exact absurd hthrown (makeCall_take_one h number)
  | case3 arg number rest hcall _ ih =>
    rw [hplaced, numbersOf_cons_call hcall, ← ih]
    rfl
  | case4 arg rest hflag ih =>
    rw [numbersOf_cons_other (by rw [hflag]; decide) (by rw [hflag]; decide), ← ih]
    rfl
  | case5 arg rest hflag ih =>
    rw [numbersOf_cons_other (by rw [hflag]; decide) (by rw [hflag]; decide), ← ih]
    rfl
  | case6 arg status rest hflag ih =>
    rw [numbersOf_cons_setStatus hflag, ← ih]
    rfl
  | case7 arg rest hcall _ _ hstatus ih =>
    exact ih.trans (numbersOf.eq_4 arg rest hcall hstatus).symm

/-- Without an account when the engine is first ready, or without that, no call is placed. -/
theorem placedNumbers_of_not_serves (h : serves looks = false) (args : List String) :
    placedNumbers (handleArgs looks args) = [] := by
  fun_induction handleArgs looks args with
  | case1 => rfl
  | case2 => rfl
  | case3 arg number rest _ _ ih =>
    obtain hwaiting | hthrown := makeCall_of_not_serves h number
    · rw [hwaiting]
      exact ih
    · rw [hthrown]
      exact ih
  | case4 arg rest _ ih => exact ih
  | case5 arg rest _ ih => exact ih
  | case6 arg status rest _ ih => exact ih
  | case7 arg rest _ _ _ _ ih => exact ih

/-- A look that is too late changes nothing. -/
theorem serves_append (h : serves looks = true) (later : List Look) :
    serves (looks ++ later) = true := by
  induction looks with
  | nil => cases h
  | cons now looks ih =>
    rw [serves] at h
    rw [List.cons_append, serves]
    by_cases hready : now.engineReady = true
    · rwa [if_pos hready] at h ⊢
    · rw [if_neg hready] at h ⊢
      exact ih h

end Looks

section Target

variable {pre post : List String} {scheme target : String}

/-- What the flag is given for a protocol URI does not depend on the scheme. -/
theorem afterLast_append (front : List Char) (hscheme : scheme.toList = front ++ [':'])
    (target : String) : afterLast ':' (scheme ++ target) = afterLast ':' target := by
  rw [afterLast, afterLast, String.toList_append, hscheme, List.reverse_append, List.reverse_append,
    List.takeWhile_append]
  split
  · rename_i hwhole
    have heq : target.toList.reverse.takeWhile (· ≠ ':') = target.toList.reverse :=
      (List.takeWhile_prefix _).eq_of_length hwhole
    rw [heq, List.reverse_singleton, List.singleton_append, List.takeWhile_cons_of_neg (by simp),
      List.append_nil]
  · rfl

/-- A text without the character comes after its last one. -/
theorem afterLast_eq_self_iff (s : String) : afterLast ':' s = s ↔ ':' ∉ s.toList := by
  rw [afterLast, ← String.toList_inj, String.toList_ofList, List.reverse_eq_iff,
    List.takeWhile_eq_self_iff]
  constructor
  · intro h hmem
    simpa using h ':' (List.mem_reverse.mpr hmem)
  · intro h c hc
    rw [decide_eq_true_eq]
    rintro rfl
    exact h (List.mem_reverse.mp hc)

theorem replaceProtocolUri_append {arg : String} (hpre : ∀ arg ∈ pre, isProtocolUri arg = false)
    (harg : isProtocolUri arg = true) (post : List String) :
    replaceProtocolUri (pre ++ arg :: post) = pre ++ "-call" :: afterLast ':' arg :: post := by
  induction pre with
  | nil => rw [List.nil_append, replaceProtocolUri, if_pos harg, List.nil_append]
  | cons other pre ih =>
    obtain ⟨hother, hpre⟩ := List.forall_mem_cons.mp hpre
    rw [List.cons_append, replaceProtocolUri, if_neg (by rw [hother]; exact Bool.false_ne_true),
      ih hpre, List.cons_append]

theorem startsWith_append (start s : String) : startsWith (start ++ s) start = true := by
  rw [startsWith, String.toList_append]
  exact List.isPrefixOf_iff_prefix.mpr (List.prefix_append _ _)

theorem isProtocolUri_of_scheme (hscheme : scheme ∈ ["tel:", "sip:", "callto:"]) (target : String) :
    isProtocolUri (scheme ++ target) = true := by
  have hstart := startsWith_append scheme target
  rw [isProtocolUri]
  simp only [List.mem_cons, List.not_mem_nil, or_false] at hscheme
  obtain rfl | rfl | rfl := hscheme
  · rw [hstart, Bool.true_or, Bool.true_or]
  · rw [hstart, Bool.or_true, Bool.true_or]
  · rw [hstart, Bool.or_true]

theorem isProtocolUri_startupLaunchArg : isProtocolUri startupLaunchArg = false := by decide

/-- The arguments that are handled. -/
theorem processedArgs_eq (hpre : ∀ arg ∈ pre, isProtocolUri arg = false)
    (hscheme : scheme ∈ ["tel:", "sip:", "callto:"]) :
    processedArgs (pre ++ (scheme ++ target) :: post) =
      pre.filter (· ≠ startupLaunchArg) ++
        "-call" :: afterLast ':' target :: post.filter (· ≠ startupLaunchArg) := by
  have huri := isProtocolUri_of_scheme hscheme target
  have hne : scheme ++ target ≠ startupLaunchArg := by
    intro heq
    rw [heq, isProtocolUri_startupLaunchArg] at huri
    cases huri
  have hlast : afterLast ':' (scheme ++ target) = afterLast ':' target := by
    simp only [List.mem_cons, List.not_mem_nil, or_false] at hscheme
    obtain rfl | rfl | rfl := hscheme
    · exact afterLast_append ['t', 'e', 'l'] rfl target
    · exact afterLast_append ['s', 'i', 'p'] rfl target
    · exact afterLast_append ['c', 'a', 'l', 'l', 't', 'o'] rfl target
  rw [processedArgs, List.filter_append, List.filter_cons_of_pos (by simpa using hne),
    replaceProtocolUri_append (fun arg harg ↦ hpre arg (List.mem_of_mem_filter harg)) huri, hlast]

/-- The calls behind the flags of the arguments that are handled are just the target. -/
theorem numbersOf_eq_target_iff (pre post : List String) (target : String) :
    numbersOf (pre ++ "-call" :: afterLast ':' target :: post) = [target] ↔
      KeepsTarget pre post target := by
  have hcall : Flag.of "-call" = .call := by decide
  rw [numbersOf_append, KeepsTarget]
  cases awaits pre with
  | flag =>
    simp only [numbersOf_cons_call hcall]
    rw [← afterLast_eq_self_iff, List.append_eq_singleton_iff]
    constructor
    · rintro (⟨hnone, heq⟩ | ⟨_, hnone⟩)
      · exact ⟨(List.cons.inj heq).1, hnone, (List.cons.inj heq).2⟩
      · cases hnone
    · rintro ⟨htarget, hnone, hpost⟩
      exact .inl ⟨hnone, by rw [htarget, hpost]⟩
  | number =>
    simp only
    rw [List.append_eq_singleton_iff]
    have hlast : afterLast ':' "-call" = "-call" :=
      (afterLast_eq_self_iff _).mpr (by decide)
    constructor
    · rintro (⟨hnone, heq⟩ | ⟨_, hnone⟩)
      · obtain ⟨rfl, hrest⟩ := List.cons.inj heq
        refine ⟨rfl, hnone, ?_⟩
        rw [hlast] at hrest
        cases post with
        | nil => rfl
        | cons x post =>
          rw [numbersOf_cons_call hcall] at hrest
          cases hrest
      · cases hnone
    · rintro ⟨rfl, hnone, rfl⟩
      refine .inl ⟨hnone, ?_⟩
      rw [hlast]
      simp [numbersOf, hcall]
  | status => exact Iff.rfl

end Target

/-- With a first protocol URI among the arguments, and looks at the engine one after another, the
calls that are placed in the end are one to its target just if some look is served and the target is
kept. -/
theorem click_to_dial_iff (looks : Nat → Look) (pre post : List String) (scheme target : String)
    (hpre : ∀ arg ∈ pre, isProtocolUri arg = false)
    (hscheme : scheme ∈ ["tel:", "sip:", "callto:"]) :
    (∃ n, ∀ m ≥ n, placedNumbers (handleArgs ((List.range m).map looks)
        (processedArgs (pre ++ (scheme ++ target) :: post))) = [target]) ↔
      (∃ n, serves ((List.range n).map looks) = true) ∧
        KeepsTarget (pre.filter (· ≠ startupLaunchArg)) (post.filter (· ≠ startupLaunchArg))
          target := by
  rw [processedArgs_eq hpre hscheme, ← numbersOf_eq_target_iff]
  constructor
  · rintro ⟨n, hn⟩
    cases hserves : serves ((List.range n).map looks) with
    | true =>
      have hplaced := hn n (Nat.le_refl n)
      rw [placedNumbers_of_serves hserves] at hplaced
      exact ⟨⟨n, hserves⟩, hplaced⟩
    | false =>
      have hplaced := hn n (Nat.le_refl n)
      rw [placedNumbers_of_not_serves hserves] at hplaced
      cases hplaced
  · rintro ⟨⟨n, hserves⟩, hnumbers⟩
    refine ⟨n, fun m hm ↦ ?_⟩
    obtain ⟨k, rfl⟩ := Nat.exists_eq_add_of_le hm
    have hlooks : (List.range (n + k)).map looks =
        (List.range n).map looks ++ (List.range k).map fun i ↦ looks (n + i) := by
      rw [List.range_add, List.map_append, List.map_map]
      rfl
    rw [hlooks, placedNumbers_of_serves (serves_append hserves _), hnumbers]

/-- A look at an engine that is ready and has one account. -/
def readyLook : Look where
  engineReady := true
  accounts := [{
    uuid := "7"
    accountName := "Office"
    displayName := "Office"
    server := "pbx"
    username := "100"
    password := "secret" }]

theorem click_to_dial_extension :
    ∃ n, ∀ m ≥ n, placedNumbers (handleArgs ((List.range m).map fun _ ↦ readyLook)
      (processedArgs ["--startup-launch", "sip:200"])) = ["200"] :=
  (click_to_dial_iff (fun _ ↦ readyLook) ["--startup-launch"] [] "sip:" "200"
    (List.forall_mem_singleton.mpr (by decide +kernel)) (by decide)).mpr
    ⟨⟨1, by decide +kernel⟩, by rw [← numbersOf_eq_target_iff]; decide +kernel⟩

/-- Of a target with a port only the port is called. -/
theorem click_to_dial_port :
    ¬∃ n, ∀ m ≥ n, placedNumbers (handleArgs ((List.range m).map fun _ ↦ readyLook)
      (processedArgs ["sip:200@pbx:5060"])) = ["200@pbx:5060"] := by
  rintro ⟨n, hn⟩
  have hserves : serves ((List.range (n + 1)).map fun _ ↦ readyLook) = true := by
    rw [List.range_succ_eq_map, List.map_cons, serves]
    rfl
  have hnumbers : numbersOf (processedArgs ["sip:200@pbx:5060"]) = ["5060"] := by decide +kernel
  have hplaced := hn (n + 1) (Nat.le_succ n)
  rw [placedNumbers_of_serves hserves, hnumbers] at hplaced
  exact absurd hplaced (by decide)

end PacketDial.Ui
