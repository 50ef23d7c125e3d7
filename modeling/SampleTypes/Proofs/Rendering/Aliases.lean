import SampleTypes.Proofs.Json.Strings
import SampleTypes.Proofs.Rendering.Classes

/-!
# Wire names in generated source

The name of a field on the wire is written by the rules for strings of documents and read by those
for string literals of source. The two differ in one point. In a document two `\uXXXX` escapes may
be the halves of one character; in a literal each of them is a code point of its own. So a literal
denotes the *code units* of the wire name, and these are its code points only as long as every
character belongs to the first plane.

The reader of literals below knows no more escapes than it needs and refuses the others, so that
what it accepts means the same to every reader that knows more.

## Main results

* `denoted?_quote`: a quoted text denotes its code units.
* `codeUnits_eq_codePoints_iff`: when these are its code points.
* `alias_literals_denote_code_units`: what the aliases of any module denote.
-/

namespace SampleTypes.ClassModule

/-! ## What a text is made of -/

/-- The code points of a text. -/
def codePoints (s : String) : List Nat :=
  s.toList.map Char.toNat

/-- The code units of a character: its code point, or two halves if that needs more than four
hexadecimal digits. -/
def unitsOf (c : Char) : List Nat :=
  if c.toNat < 0x10000 then [c.toNat]
  else [0xD800 + (c.toNat - 0x10000) / 0x400, 0xDC00 + (c.toNat - 0x10000) % 0x400]

/-- The code units of a text. -/
def codeUnits (s : String) : List Nat :=
  s.toList.flatMap unitsOf

/-! ## String literals -/

/-- The code point that a letter behind a backslash denotes. -/
def letterCode? (letter : Char) : Option Nat :=
  match letter with
  | '"' => some 0x22
  | '\\' => some 0x5C
  | 'n' => some 0x0A
  | 'r' => some 0x0D
  | 't' => some 0x09
  | 'b' => some 0x08
  | 'f' => some 0x0C
  | _ => none

/-- The number that four hexadecimal digits write. -/
def hexCode? (a b c d : Char) : Option Nat := do
  let a ← Json.Reader.hexValue? a
  let b ← Json.Reader.hexValue? b
  let c ← Json.Reader.hexValue? c
  let d ← Json.Reader.hexValue? d
  return ((a * 16 + b) * 16 + c) * 16 + d

/-- The code points up to the closing quote of a literal, with what stands behind it. Every escape
is a code point of its own, and a line does not end inside a literal. -/
def readLiteral : List Char → Option (List Nat × List Char)
  | [] => none
  | '"' :: rest => some ([], rest)
  | '\n' :: _ => none
  | '\r' :: _ => none
  | '\\' :: 'u' :: a :: b :: c :: d :: rest => do
    let code ← hexCode? a b c d
    let (codes, after) ← readLiteral rest
    return (code :: codes, after)
  | '\\' :: letter :: rest => do
    let code ← letterCode? letter
    let (codes, after) ← readLiteral rest
    return (code :: codes, after)
  | c :: rest => do
    let (codes, after) ← readLiteral rest
    return (c.toNat :: codes, after)

/-- The code points that a string literal denotes. -/
def denoted? (literal : String) : Option (List Nat) :=
  match literal.toList with
  | '"' :: inner =>
    match readLiteral inner with
    | some (codes, []) => some codes
    | _ => none
  | _ => none

section

open Json (quote)
open Json.Printer (Written escapeChar hex4 unitEscape letters written_escapeChar)

variable {c : Char} {form rest after : List Char} {codes : List Nat}

theorem hexCode?_hex4 {n : Nat} (h : n < 0x10000) :
    hexCode? (Nat.digitChar (n / 4096 % 16)) (Nat.digitChar (n / 256 % 16))
      (Nat.digitChar (n / 16 % 16)) (Nat.digitChar (n % 16)) = some n := by
  simp only [hexCode?, Json.Reader.hexValue?_digitChar, Option.bind_eq_bind, Option.bind_some,
    Json.Reader.value_hex4 h]
  rfl

/-- An escaped code unit is one code point. -/
theorem readLiteral_unitEscape {n : Nat} (h : n < 0x10000)
    (hrest : readLiteral rest = some (codes, after)) :
    readLiteral (unitEscape n ++ rest) = some (n :: codes, after) := by
  simp only [unitEscape, hex4, List.cons_append, List.nil_append, readLiteral, hexCode?_hex4 h,
    hrest, Option.bind_eq_bind, Option.bind_some]
  rfl

theorem readLiteral_letter {letter : Char} (h : (c, letter) ∈ letters)
    (hrest : readLiteral rest = some (codes, after)) :
    readLiteral ('\\' :: letter :: rest) = some (c.toNat :: codes, after) := by
  have hletters : ∀ entry ∈ letters,
      entry.2 ≠ 'u' ∧ letterCode? entry.2 = some entry.1.toNat := by decide
  obtain ⟨hne, hcode⟩ := hletters (c, letter) h
  have hstep : readLiteral ('\\' :: letter :: rest) =
      (letterCode? letter).bind fun code =>
        (readLiteral rest).bind fun read => some (code :: read.1, read.2) := by
    rw [readLiteral]
    · rfl
    · intro _ _ _ _ _ heq
      exact absurd heq hne
  rw [hstep, hcode, hrest]
  rfl

/-- **One character denotes its code units**, in whichever form it is written. -/
theorem readLiteral_written (h : Written c form)
    (hrest : readLiteral rest = some (codes, after)) :
    readLiteral (form ++ rest) = some (unitsOf c ++ codes, after) := by
  cases h with
  | itself hlow hhigh hquote hslash =>
    have hfeed : c ≠ '\n' := by
      rintro rfl
      exact absurd hlow (by decide)
    have hreturn : c ≠ '\r' := by
      rintro rfl
      exact absurd hlow (by decide)
    have hplane : c.toNat < 0x10000 := by omega
    rw [List.singleton_append, unitsOf, if_pos hplane, readLiteral, hrest]
    · rfl
    all_goals simp_all
  | letter letter h =>
    have hplane : ∀ entry ∈ letters, entry.1.toNat < 0x10000 := by decide
    rw [unitsOf, if_pos (hplane _ h)]
    exact readLiteral_letter h hrest
  | unit h =>
    rw [unitsOf, if_pos h]
    exact readLiteral_unitEscape h hrest
  | pair offset h hoffset =>
    have hplane : ¬ c.toNat < 0x10000 := by omega
    have hback : c.toNat - 0x10000 = offset := by omega
    rw [unitsOf, if_neg hplane, hback, List.append_assoc]
    exact readLiteral_unitEscape (by omega) (readLiteral_unitEscape (by omega) hrest)

/-- **A quoted text denotes its code units.** -/
theorem denoted?_quote (s : String) : denoted? (quote s) = some (codeUnits s) := by
  have hinner : ∀ cs : List Char, readLiteral (cs.flatMap escapeChar ++ ['"']) =
      some (cs.flatMap unitsOf, []) := by
    intro cs
    induction cs with
    | nil => rfl
    | cons c cs ih =>
      rw [List.flatMap_cons, List.append_assoc, List.flatMap_cons]
      exact readLiteral_written (written_escapeChar c) ih
  have hchars : (quote s).toList = '"' :: (s.toList.flatMap escapeChar ++ ['"']) := by
    rw [quote, String.toList_ofList]
    rfl
  rw [denoted?, hchars]
  simp only [hinner]
  rfl

example : denoted? (quote "\"é\n😀") = some [0x22, 0xE9, 0x0A, 0xD83D, 0xDE00] := by decide

/-- **The code units are the code points** exactly if no character lies beyond the first plane. The
first half of a pair is less than any such character. -/
theorem codeUnits_eq_codePoints_iff (s : String) :
    codeUnits s = codePoints s ↔ ∀ c ∈ s.toList, c.toNat < 0x10000 := by
  unfold codeUnits codePoints
  induction s.toList with
  | nil => simp
  | cons c cs ih =>
    rw [List.flatMap_cons, List.map_cons, List.forall_mem_cons]
    by_cases hplane : c.toNat < 0x10000
    · rw [unitsOf, if_pos hplane, List.singleton_append, List.cons.injEq, ih]
      simp [hplane]
    · have hscalar := Json.Printer.toNat_scalar c
      have hhalf : 0xD800 + (c.toNat - 0x10000) / 0x400 ≠ c.toNat := by omega
      rw [unitsOf, if_neg hplane, List.cons_append, List.cons.injEq]
      simp [hplane, hhalf]

end

/-! ## The aliases of a module -/

/-- In the module of the plan every supported field has a statement, on a line of its own, of which
the literal behind `alias=` denotes what `codes` says of the name of the field on the wire. -/
def AliasesDenote (codes : String → List Nat) (plan : Plan) : Prop :=
  ∃ m, Module.ofPlan plan = .ok m ∧ render plan = .ok m.text ∧
    List.Forall₂ (fun d block => List.Forall₂ (fun field statement =>
        "    " ++ statement.text ∈ m.lines ∧
          ∃ literal, statement.text = statement.attributeName ++ ": " ++ statement.typeText ++
              " = Field(" ++ statement.initial ++ ", alias=" ++ literal ++ ")" ∧
            denoted? literal = some (codes field.wireName))
      d.supported block.fields) plan.definitions m.classes

section

variable {codes : String → List Nat} {plan : Plan}

/-- A statement in front of its alias determines the literal behind it. -/
private theorem alias_of_statement {attributeName : String} {field : Field} {literal : String}
    (h : (Model.attributeOf [] attributeName field).statement.text =
      (Model.attributeOf [] attributeName field).statement.attributeName ++ ": " ++
        (Model.attributeOf [] attributeName field).statement.typeText ++ " = Field(" ++
        (Model.attributeOf [] attributeName field).statement.initial ++ ", alias=" ++ literal ++
        ")") :
    literal = Json.quote field.wireName := by
  rw [FieldStatement.text, String.append_left_inj, String.append_right_inj] at h
  exact h.symm

/-- The aliases of a module denote what they should exactly if this is the code units of the wire
names. -/
theorem aliasesDenote_iff :
    AliasesDenote codes plan ↔
      ∀ d ∈ plan.definitions, ∀ field ∈ d.supported,
        codeUnits field.wireName = codes field.wireName := by
  constructor
  · rintro ⟨m, hm, -, hblocks⟩ d hd field hfield
    rw [ofPlan_eq] at hm
    cases hm
    rw [moduleOf, List.forall₂_map_right_iff, List.forall₂_same] at hblocks
    obtain ⟨name, hpair⟩ :=
      Model.exists_name_of_mem_supported (reservedNames plan.definitions) hfield
    obtain ⟨-, literal, htext, hliteral⟩ := forall₂_statements_iff.1 (hblocks d hd) _ hpair
    rw [alias_of_statement htext, denoted?_quote] at hliteral
    exact Option.some.inj hliteral
  · intro h
    refine ⟨moduleOf plan, ofPlan_eq plan, render_eq plan, ?_⟩
    rw [moduleOf, List.forall₂_map_right_iff, List.forall₂_same]
    intro d hd
    refine forall₂_statements_iff.2 fun pair hpair => ⟨?_, ?_⟩
    · exact line_mem_lines (List.mem_map_of_mem hd)
        (List.mem_map_of_mem (List.mem_map_of_mem hpair))
    · refine ⟨Json.quote pair.2.wireName, rfl, ?_⟩
      rw [denoted?_quote, h d hd pair.2 (List.of_mem_zip hpair).2]

/-- **The literals of the aliases denote the code units of the wire names**, in the module of any
plan. They denote the wire names themselves exactly if no character of a supported field's name lies
beyond the first plane. -/
theorem alias_literals_denote_code_units (plan : Plan) :
    AliasesDenote codeUnits plan ∧
      (AliasesDenote codePoints plan ↔
        ∀ d ∈ plan.definitions, ∀ field ∈ d.supported, ∀ c ∈ field.wireName.toList,
          c.toNat < 0x10000) := by
  refine ⟨aliasesDenote_iff.2 fun _ _ _ _ => rfl, ?_⟩
  rw [aliasesDenote_iff]
  refine forall₂_congr fun d _ => forall₂_congr fun field _ => ?_
  exact codeUnits_eq_codePoints_iff field.wireName

/-- A type with one field, the name of which is a character beyond the first plane. -/
def smiling : Plan :=
  { root := "Mood"
    definitions :=
      [{ name := "Mood"
         fields := [{ wireName := "😀", identifier := "😀", kind := .string }] }] }

/-- The alias of this field does not denote its name. -/
theorem alias_of_smiling_is_not_its_wire_name : ¬ AliasesDenote codePoints smiling := by
  intro h
  have hunits := aliasesDenote_iff.1 h _ List.mem_cons_self _ List.mem_cons_self
  exact absurd hunits (by decide)

end

end SampleTypes.ClassModule
