import SampleTypes.Identifier

/-!
# How class names are spelled

A class name is made from the pieces of a text between the characters that are neither letters nor
digits, each with its first character in upper case. So many texts give one class: `base model`,
`base-model` and `BaseModel` are all spellings of `BaseModel`.

## Main results

* `camel_eq`: letters in camel case are pieces with capitals.
* `className_eq_iff`: a name that is no stand-in comes from its spellings only.
-/

namespace SampleTypes.Identifier

/-- The pieces between the characters that are neither letters nor digits; some may be empty. -/
def pieces (cs : List Char) : List (List Char) :=
  cs.splitOnP fun c => !isAlphanumeric c

/-- A piece with its first character in upper case. -/
def capitalized : List Char → List Char
  | [] => []
  | c :: rest => upperAscii c :: rest

/-- The pieces of a text, joined with capitals, are a name. -/
def Spells (text name : String) : Prop :=
  (pieces text.toList).flatMap capitalized = name.toList

instance (text name : String) : Decidable (Spells text name) :=
  inferInstanceAs (Decidable (_ = _))

section

variable {cs : List Char} {c : Char} {text name : String}

theorem pieces_cons_of_alphanumeric (h : isAlphanumeric c = true) (cs : List Char) :
    pieces (c :: cs) = (pieces cs).modifyHead (c :: ·) := by
  simp [pieces, List.splitOnP_cons_eq_if_modifyHead, h]

theorem pieces_cons_of_not_alphanumeric (h : isAlphanumeric c = false) (cs : List Char) :
    pieces (c :: cs) = [] :: pieces cs := by
  simp [pieces, List.splitOnP_cons_eq_if_modifyHead, h]

/-- What stands behind the last letter or digit says nothing. -/
theorem camel_concat (h : isAlphanumeric c = false) (fresh : Bool) (cs : List Char) :
    camel fresh (cs ++ [c]) = camel fresh cs := by
  induction cs generalizing fresh with
  | nil => simp [camel, h]
  | cons first rest ih => rw [List.cons_append, camel, camel, ih, ih]

/-- In the middle of a piece its rest stays as it is, and every later piece starts with a capital.
-/
theorem camel_pieces (cs : List Char) :
    ∃ piece others, pieces cs = piece :: others ∧
      camel false cs = piece ++ others.flatMap capitalized ∧
      camel true cs = capitalized piece ++ others.flatMap capitalized := by
  induction cs with
  | nil => exact ⟨[], [], rfl, rfl, rfl⟩
  | cons c rest ih =>
    obtain ⟨piece, others, hpieces, hinside, hfresh⟩ := ih
    cases hletter : isAlphanumeric c with
    | true =>
      refine ⟨c :: piece, others, ?_, ?_, ?_⟩
      · rw [pieces_cons_of_alphanumeric hletter, hpieces]
        rfl
      · rw [camel, if_pos hletter, if_neg Bool.false_ne_true, hinside]
        rfl
      · rw [camel, if_pos hletter, if_pos rfl, hinside]
        rfl
    | false =>
      have hnot : ¬ isAlphanumeric c = true := by rw [hletter]; exact Bool.false_ne_true
      refine ⟨[], piece :: others, ?_, ?_, ?_⟩
      · rw [pieces_cons_of_not_alphanumeric hletter, hpieces]
      · rw [camel, if_neg hnot, hfresh]
        rfl
      · rw [camel, if_neg hnot, hfresh]
        rfl

/-- **Camel case** is the pieces with capitals. -/
theorem camel_eq (cs : List Char) : camel true cs = (pieces cs).flatMap capitalized := by
  obtain ⟨piece, others, hpieces, -, hfresh⟩ := camel_pieces cs
  rw [hpieces, List.flatMap_cons, hfresh]

/-- A class name that does not start like a stand-in, is no keyword and does not end with a low line
has been spelled. -/
theorem className_eq_iff (hstandIn : ¬ "Model".toList <+: name.toList) (hkeyword : name ∉ keywords)
    (hend : name.toList.getLast? ≠ some '_') (hstart : name.toList.head?.any isDigit = false)
    (hsome : name ≠ "") : className text = name ↔ Spells text name := by
  have hspells : Spells text name ↔ camel true text.toList = name.toList := by
    rw [Spells, camel_eq]
  rw [hspells, className]
  cases hchars : camel true text.toList with
  | nil =>
    have hmodel : ¬ "Model" = name := by
      rintro rfl
      exact hstandIn (List.prefix_refl _)
    have hempty : ¬ [] = name.toList := fun h => hsome (String.toList_eq_nil_iff.1 h.symm)
    simp only [hmodel, hempty]
  | cons c rest =>
    dsimp only
    rw [← String.toList_inj]
    split
    · -- A digit in front gives a stand-in, and is not what the name starts with.
      rename_i hdigit
      constructor
      · intro h
        rw [← h, String.toList_append] at hstandIn
        exact absurd (List.prefix_append _ _) hstandIn
      · intro h
        rw [← h, List.head?_cons, Option.any_some, hdigit] at hstart
        cases hstart
    · split
      · rename_i hbase
        constructor
        · intro h
          rw [← h, String.toList_append, List.getLast?_append] at hend
          exact absurd rfl hend
        · intro h
          rw [h, String.ofList_toList] at hbase
          exact absurd hbase hkeyword
      · rw [String.toList_ofList]

end

end SampleTypes.Identifier
