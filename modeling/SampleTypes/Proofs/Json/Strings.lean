import SampleTypes.Json.Printer
import SampleTypes.Json.Reader

/-!
# Strings of documents, written and read

A string is written character by character, and each character has one of four written forms: it
stands for itself, or it is a backslash with a letter, or one code unit in four hexadecimal digits,
or two such units. `Written` lists the forms, so that what is proved of a reader is one case for
each of them and no reader is compared with the eleven tests of the printer.

A reader of documents looks at more than the form that it reads: the digits of a unit need a
character behind them, and a unit may be the first half of a pair. Both are settled here, because
something always follows a character inside a string, and a character of the first plane is never
half of a pair.

## Main results

* `written_escapeChar`: the printer writes each character in one of its forms.
* `readString_written`: one character is read back.
* `readString_quoted`: a string is read back.
-/

namespace SampleTypes.Json

namespace Printer

/-- The characters that are written as a backslash and a letter, with their letters. -/
def letters : List (Char × Char) :=
  [('"', '"'), ('\\', '\\'), ('\n', 'n'), ('\r', 'r'), ('\t', 't'), ('\x08', 'b'), ('\x0c', 'f')]

/-- The forms in which a character is written inside a string. -/
inductive Written (c : Char) : List Char → Prop where
  /-- A printable character of ASCII stands for itself. -/
  | itself (hlow : 32 ≤ c.toNat) (hhigh : c.toNat ≤ 126) (hquote : c ≠ '"') (hslash : c ≠ '\\') :
    Written c [c]
  | letter (letter : Char) (h : (c, letter) ∈ letters) : Written c ['\\', letter]
  /-- A character of the first plane is one code unit. -/
  | unit (h : c.toNat < 0x10000) : Written c (unitEscape c.toNat)
  /-- A character beyond the first plane is two code units. -/
  | pair (offset : Nat) (h : c.toNat = 0x10000 + offset) (hoffset : offset < 0x100000) :
    Written c (unitEscape (0xD800 + offset / 0x400) ++ unitEscape (0xDC00 + offset % 0x400))

/-- A character is a scalar value: it is no surrogate and not beyond the last plane. -/
theorem toNat_scalar (c : Char) :
    c.toNat < 0xD800 ∨ (0xDFFF < c.toNat ∧ c.toNat < 0x110000) := by
  rcases c.valid with h | ⟨hlow, hhigh⟩
  · exact Or.inl h
  · exact Or.inr ⟨hlow, hhigh⟩

/-- **The printer writes each character in one of its forms.** -/
theorem written_escapeChar (c : Char) : Written c (escapeChar c) := by
  by_cases hletter : ∃ letter, (c, letter) ∈ letters
  · obtain ⟨letter, h⟩ := hletter
    have hform : ∀ entry ∈ letters, escapeChar entry.1 = ['\\', entry.2] := by decide
    rw [hform (c, letter) h]
    exact .letter letter h
  · have hne : ∀ entry ∈ letters, c ≠ entry.1 := by
      rintro ⟨other, letter⟩ h rfl
      exact hletter ⟨letter, h⟩
    simp only [letters, List.forall_mem_cons] at hne
    obtain ⟨hquote, hslash, hfeed, hreturn, htab, hback, hform, -⟩ := hne
    unfold escapeChar
    rw [if_neg hquote, if_neg hslash, if_neg hfeed, if_neg hreturn, if_neg htab, if_neg hback,
      if_neg hform]
    split
    · rename_i hshown
      exact .itself hshown.1 hshown.2 hquote hslash
    split
    · rename_i hplane
      exact .unit hplane
    · rename_i hplane
      have hscalar := toNat_scalar c
      exact .pair (c.toNat - 0x10000) (by omega) (by omega)

theorem length_le_escaped (cs : List Char) : cs.length ≤ (cs.flatMap escapeChar).length := by
  induction cs with
  | nil => exact Nat.le_refl 0
  | cons c cs ih =>
    have hone : 0 < (escapeChar c).length := by
      cases hform : escapeChar c with
      | nil =>
        have hwritten := written_escapeChar c
        rw [hform] at hwritten
        cases hwritten
      | cons _ _ => exact Nat.succ_pos _
    rw [List.flatMap_cons, List.length_append, List.length_cons]
    omega

end Printer

namespace Reader

open Printer

/-! ## Code units -/

theorem hexValue?_digitChar (m : Nat) :
    hexValue? (Nat.digitChar (m % 16)) = some (m % 16) := by
  have hall : ∀ d < 16, hexValue? (Nat.digitChar d) = some d := by decide
  exact hall (m % 16) (Nat.mod_lt m (by decide))

/-- Four hexadecimal digits make up a code unit. -/
theorem value_hex4 {n : Nat} (h : n < 0x10000) :
    ((n / 4096 % 16 * 16 + n / 256 % 16) * 16 + n / 16 % 16) * 16 + n % 16 = n := by
  omega

/-- **A code unit is read back**, if something follows it. -/
theorem codeUnit?_hex4 {n : Nat} (h : n < 0x10000) (next : Char) (rest : List Char) :
    codeUnit? (hex4 n ++ next :: rest) = some (n, next :: rest) := by
  simp only [hex4, List.cons_append, List.nil_append, codeUnit?, hexValue?_digitChar,
    Option.bind_eq_bind, Option.bind_some, value_hex4 h]
  rfl

/-- A character is not the first half of a pair, and it is the character of its own unit. -/
theorem unit_of_char (c : Char) : isHighSurrogate c.toNat = false ∧ unitChar c.toNat = c := by
  have hscalar := toNat_scalar c
  have hhigh : isHighSurrogate c.toNat = false := by
    simp only [isHighSurrogate, Bool.and_eq_false_iff, decide_eq_false_iff_not]
    omega
  have hlow : isLowSurrogate c.toNat = false := by
    simp only [isLowSurrogate, Bool.and_eq_false_iff, decide_eq_false_iff_not]
    omega
  refine ⟨hhigh, ?_⟩
  rw [unitChar, hhigh, hlow]
  exact Char.ofNat_toNat c

/-- The halves of the pair for an offset are a first and a second half. -/
theorem pair_of_offset {offset : Nat} (h : offset < 0x100000) :
    isHighSurrogate (0xD800 + offset / 0x400) = true ∧
      isLowSurrogate (0xDC00 + offset % 0x400) = true := by
  simp only [isHighSurrogate, isLowSurrogate, Bool.and_eq_true, decide_eq_true_eq]
  omega

/-! ## Escapes -/

theorem readEscape_letter {c letter : Char} (h : (c, letter) ∈ letters)
    (opening rest : List Char) : readEscape opening ('\\' :: letter :: rest) = .ok (c, rest) := by
  have hletters : ∀ entry ∈ letters, entry.2 ≠ 'u' ∧ shortEscape? entry.2 = some entry.1 := by
    decide
  obtain ⟨hne, hshort⟩ := hletters (c, letter) h
  simp only [readEscape, List.drop_succ_cons, List.drop_zero]
  rw [if_neg hne, hshort]

/-- An escaped code unit is read with the digits in front of what follows. -/
theorem readEscape_unitEscape {n : Nat} (h : n < 0x10000) (opening : List Char) (next : Char)
    (rest : List Char) :
    readEscape opening (unitEscape n ++ next :: rest) =
      if isHighSurrogate n then
        match lowSurrogate? (next :: rest) with
        | some (low, after) =>
          .ok (Char.ofNat (0x10000 + (n - 0xD800) * 0x400 + (low - 0xDC00)), after)
        | none => .ok (unitChar n, next :: rest)
      else .ok (unitChar n, next :: rest) := by
  have hunit := codeUnit?_hex4 h next rest
  cases hlow : lowSurrogate? (next :: rest) <;>
    simp only [unitEscape, List.cons_append, readEscape, List.drop_succ_cons, List.drop_zero,
      if_true, readUnicode, hunit, hlow]

theorem readEscape_unit {c : Char} (h : c.toNat < 0x10000) (opening : List Char) (next : Char)
    (rest : List Char) :
    readEscape opening (unitEscape c.toNat ++ next :: rest) = .ok (c, next :: rest) := by
  obtain ⟨hhigh, hchar⟩ := unit_of_char c
  rw [readEscape_unitEscape h, hhigh, if_neg Bool.false_ne_true, hchar]

theorem readEscape_pair {c : Char} {offset : Nat} (h : c.toNat = 0x10000 + offset)
    (hoffset : offset < 0x100000) (opening : List Char) (next : Char) (rest : List Char) :
    readEscape opening
        (unitEscape (0xD800 + offset / 0x400) ++
          (unitEscape (0xDC00 + offset % 0x400) ++ next :: rest)) =
      .ok (c, next :: rest) := by
  obtain ⟨hhigh, hlow⟩ := pair_of_offset hoffset
  have hunit := codeUnit?_hex4 (n := 0xDC00 + offset % 0x400) (by omega) next rest
  have hsecond : lowSurrogate?
      (unitEscape (0xDC00 + offset % 0x400) ++ next :: rest) =
        some (0xDC00 + offset % 0x400, next :: rest) := by
    simp only [unitEscape, List.cons_append, lowSurrogate?, hunit, hlow, if_true]
  have hcode : 0x10000 + (0xD800 + offset / 0x400 - 0xD800) * 0x400 +
      (0xDC00 + offset % 0x400 - 0xDC00) = c.toNat := by
    omega
  have hcons : unitEscape (0xDC00 + offset % 0x400) ++ next :: rest =
      '\\' :: ('u' :: hex4 (0xDC00 + offset % 0x400) ++ next :: rest) := rfl
  rw [hcons] at hsecond ⊢
  rw [readEscape_unitEscape (by omega), hhigh, if_pos rfl, hsecond]
  dsimp only
  rw [hcode, Char.ofNat_toNat]

/-! ## Strings -/

/-- What stands behind the quote or the backslash of a form is read with it. -/
private theorem readString_slash {opening form after : List Char} {c : Char}
    (h : readEscape opening ('\\' :: form) = .ok (c, after)) (fuel : Nat) :
    readString opening (fuel + 1) ('\\' :: form) =
      (readString opening fuel after).map fun read => (c :: read.1, read.2) := by
  have hne : ('\\' : Char) ≠ '"' := by decide
  simp only [readString]
  rw [if_neg hne, if_pos trivial, h]
  show (readString opening fuel after >>= fun read => .ok (c :: read.1, read.2)) = _
  cases readString opening fuel after <;> rfl

/-- **One character is read back**, in whichever form it is written, if something follows it. -/
theorem readString_written {c : Char} {form : List Char} (h : Written c form)
    (opening : List Char) (fuel : Nat) (next : Char) (rest : List Char) :
    readString opening (fuel + 1) (form ++ next :: rest) =
      (readString opening fuel (next :: rest)).map fun read => (c :: read.1, read.2) := by
  cases h with
  | itself hlow hhigh hquote hslash =>
    have hshown : ¬ c.toNat ≤ 0x1F := by omega
    simp only [List.cons_append, List.nil_append, readString]
    rw [if_neg hquote, if_neg hslash, if_neg hshown]
    cases readString opening fuel (next :: rest) <;> rfl
  | letter letter h => exact readString_slash (readEscape_letter h opening (next :: rest)) fuel
  | unit h => exact readString_slash (readEscape_unit h opening next rest) fuel
  | pair offset h hoffset =>
    rw [List.append_assoc]
    exact readString_slash (readEscape_pair h hoffset opening next rest) fuel

/-- **A string is read back** from the characters before its closing quote. -/
theorem readString_quoted (opening : List Char) {fuel : Nat} (cs : List Char)
    (h : cs.length < fuel) (rest : List Char) :
    readString opening fuel (cs.flatMap escapeChar ++ '"' :: rest) = .ok (cs, rest) := by
  induction cs generalizing fuel with
  | nil =>
    obtain ⟨fuel, rfl⟩ := Nat.exists_eq_succ_of_ne_zero (Nat.ne_of_gt h)
    rfl
  | cons c cs ih =>
    obtain ⟨fuel, rfl⟩ := Nat.exists_eq_succ_of_ne_zero (Nat.ne_of_gt (Nat.zero_lt_of_lt h))
    have hrest := ih (Nat.lt_of_succ_lt_succ h)
    obtain ⟨next, after, hnext⟩ : ∃ next after, cs.flatMap escapeChar ++ '"' :: rest =
        next :: after := List.exists_cons_of_ne_nil (by simp)
    rw [List.flatMap_cons, List.append_assoc, hnext, Nat.succ_eq_add_one,
      readString_written (written_escapeChar c), ← hnext, hrest]
    rfl

end Reader

end SampleTypes.Json
