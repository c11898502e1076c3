import PacketDial.Core.JsonWriting

/-!
# The writer and the reader of JSON

`serde_json`, with which the engine and `pd` write and read JSON, is not part of the repository: it
is a parameter, and `Sound` names what is used of it. A value comes back as it was written, except
that the members of objects are in the order of their keys and that floating-point numbers may
differ; texts that are nested too deep are refused. The grammar is one such writer and reader.
-/

namespace PacketDial.Core

mutual

/-- How deep arrays and objects are nested. -/
def depth : Json → Nat
  | .arr items => depthItems items + 1
  | .obj members => depthMembers members + 1
  | _ => 0

/-- The same for the elements of an array. -/
def depthItems : List Json → Nat
  | [] => 0
  | item :: rest => max (depth item) (depthItems rest)

/-- The same for the values of members. -/
def depthMembers : List (String × Json) → Nat
  | [] => 0
  | (_, value) :: rest => max (depth value) (depthMembers rest)

end

mutual

/-- A value without floating-point numbers. -/
def Exact : Json → Prop
  | .num (.float _) => False
  | .arr items => ExactItems items
  | .obj members => ExactMembers members
  | _ => True

/-- The same of the elements of an array. -/
def ExactItems : List Json → Prop
  | [] => True
  | item :: rest => Exact item ∧ ExactItems rest

/-- The same of the values of members. -/
def ExactMembers : List (String × Json) → Prop
  | [] => True
  | (_, value) :: rest => Exact value ∧ ExactMembers rest

end

/-- How deep `serde_json` reads: it gives up at the 128th bracket that is open. -/
def nestingLimit : Nat := 127

/-- A parser of JSON reads what the grammar reads. Floating-point numbers and texts that are nested
deep are left to it. -/
structure Conforming (parse : String → Option Json) : Prop where
  reads : ∀ text value, readJson text = some value → Exact value → depth value ≤ nestingLimit →
    parse text = some (byKey value)

/-- `Value::to_string` and `serde_json::from_str`, and what becomes of a floating-point number that
is written and read. -/
structure SerdeJson where
  toText : Json → String
  fromStr : String → Option Json
  reread : Float → Float

/-- A value as it comes back. -/
def SerdeJson.settled (J : SerdeJson) (value : Json) : Json := rereadValue J.reread (byKey value)

/-- What is used of `serde_json`: it reads JSON, and what it wrote itself with white space behind
it; it writes no control characters, and objects between braces. -/
structure SerdeJson.Sound (J : SerdeJson) : Prop where
  conforming : Conforming J.fromStr
  fromStr_toText : ∀ value, IsValue value → depth value ≤ nestingLimit →
    ∀ space, skipSpace space = [] →
      J.fromStr (J.toText value ++ String.ofList space) = some (J.settled value)
  noControls_toText : ∀ value, NoControls (J.toText value).toList
  toText_obj : ∀ members, ∃ inner,
    (J.toText (.obj members)).toList = '\x7b' :: (inner ++ ['\x7d'])

section Sorted

variable {float : Float → Float}

/-- Members by their keys stay in order when they are read back. -/
theorem mergeSort_rereadMembers (members : List (String × Json)) :
    (rereadMembers float (members.mergeSort fun a b ↦ decide (a.1 ≤ b.1))).mergeSort
        (fun a b ↦ decide (a.1 ≤ b.1)) =
      rereadMembers float (members.mergeSort fun a b ↦ decide (a.1 ≤ b.1)) := by
  have htrans (a b c : String × Json) (hab : decide (a.1 ≤ b.1) = true)
      (hbc : decide (b.1 ≤ c.1) = true) : decide (a.1 ≤ c.1) = true := by
    rw [decide_eq_true_eq] at hab hbc ⊢
    exact String.le_trans hab hbc
  have htotal (a b : String × Json) : (decide (a.1 ≤ b.1) || decide (b.1 ≤ a.1)) = true := by
    rw [Bool.or_eq_true, decide_eq_true_eq, decide_eq_true_eq]
    exact String.le_total a.1 b.1
  apply List.mergeSort_of_pairwise
  rw [rereadMembers_eq_map, List.pairwise_map]
  exact List.pairwise_mergeSort htrans htotal members

mutual

/-- Sorting a value that came back changes nothing. -/
theorem byKey_reread : ∀ value : Json,
    byKey (rereadValue float (byKey value)) = rereadValue float (byKey value)
  | .null => rfl
  | .bool _ => rfl
  | .num (.posInt _) => rfl
  | .num (.negInt _) => rfl
  | .num (.float _) => rfl
  | .str _ => rfl
  | .arr items => congrArg Json.arr (byKeyItems_reread items)
  | .obj members => by
    have hsame : byKeyMembers (rereadMembers float
        ((byKeyMembers members).mergeSort fun a b ↦ decide (a.1 ≤ b.1))) =
          rereadMembers float
            ((byKeyMembers members).mergeSort fun a b ↦ decide (a.1 ≤ b.1)) := by
      rw [byKeyMembers_eq_map (rereadMembers _ _), rereadMembers_eq_map, List.map_map]
      refine List.map_congr_left fun member hmember ↦ Prod.ext rfl ?_
      exact byKeyMembers_reread members member (List.mem_mergeSort.mp hmember)
    simp only [byKey, rereadValue]
    rw [hsame, mergeSort_rereadMembers]

/-- The same for the elements of an array. -/
theorem byKeyItems_reread : ∀ items : List Json,
    byKeyItems (rereadItems float (byKeyItems items)) = rereadItems float (byKeyItems items)
  | [] => rfl
  | item :: rest => congrArg₂ List.cons (byKey_reread item) (byKeyItems_reread rest)

/-- The same for the values of members. -/
theorem byKeyMembers_reread : ∀ members : List (String × Json), ∀ member ∈ byKeyMembers members,
    byKey (rereadValue float member.2) = rereadValue float member.2
  | [], _, h => absurd h List.not_mem_nil
  | (_, value) :: rest, member, h => by
    rcases List.mem_cons.mp h with rfl | h
    · exact byKey_reread value
    · exact byKeyMembers_reread rest member h

end

end Sorted

/-- The grammar itself is such a parser. -/
theorem conforming_grammar : Conforming fun text ↦ (readJson text).map byKey where
  reads text value hread _ _ := by
    rw [hread, Option.map_some]

section Grammar

variable (W : FloatText)

/-- It reads what is written, however deep that is nested. -/
theorem grammar_writeJson {value : Json} (h : IsValue value) (space : List Char)
    (hspace : skipSpace space = []) :
    (readJson (writeJson W value ++ String.ofList space)).map byKey =
      some (rereadValue W.reread (byKey value)) := by
  rw [readJson_writeJson W h space hspace, Option.map_some, byKey_reread]

/-- The grammar as `serde_json`. -/
def grammarSerde : SerdeJson where
  toText := writeJson W
  fromStr text := (readJson text).map byKey
  reread := W.reread

/-- It reads what it should. -/
theorem grammarSerde_sound : (grammarSerde W).Sound where
  conforming := conforming_grammar
  fromStr_toText value hvalue _ space hspace := grammar_writeJson W hvalue space hspace
  noControls_toText value := by
    change NoControls (writeJson W value).toList
    rw [writeJson, String.toList_ofList]
    exact noControls_writeValue W _
  toText_obj members := by
    change ∃ inner, (writeJson W (.obj members)).toList = _
    rw [writeJson, byKey, writeValue, String.toList_ofList]
    exact ⟨_, rfl⟩

end Grammar

end PacketDial.Core
