import SampleTypes.Proofs.Command.Actions

/-!
# Printed lines

What is printed is free of terminal escapes. An escape holds no space, so it never reaches across
one, and a text can be cut behind a space and printed in two parts. That is how the warnings of two
commands are compared that put different words in front of them.

The scanner takes an escape out in one step, so what it has left is not always the tail. Its fuel
is done with first; behind that the induction is on the length of the text.

## Main results

* `shown_cons`: the scanner without its fuel.
* `printed_append`: a text cut behind a space.
* `stderr_warned`: the lines of warnings.
-/

namespace SampleTypes.Command

/-- The text after the terminal escape that a text starts with. -/
def escapeAt? : List Char → Option (List Char)
  | '\x1b' :: '[' :: inside => afterEscape? inside
  | _ => none

/-- The text without terminal escapes, with as much fuel as it needs. -/
def shown (cs : List Char) : List Char :=
  stripEscapes cs.length cs

section

variable {fuel other : Nat} {cs after rest : List Char} {c : Char}

theorem length_of_afterEscape? (h : afterEscape? cs = some after) : after.length < cs.length := by
  have hle := (List.dropWhile_suffix isEscapeInside (l := cs)).length_le
  unfold afterEscape? at h
  split at h
  · rename_i last rest hdrop
    rw [hdrop, List.length_cons] at hle
    split at h
    · cases h
      exact hle
    · cases h
  · cases h

theorem escapeAt?_eq_none (h : ∀ inside, cs ≠ '\x1b' :: '[' :: inside) : escapeAt? cs = none := by
  unfold escapeAt?
  split
  · exact absurd rfl (h _)
  · rfl

theorem length_of_escapeAt? (h : escapeAt? cs = some after) : after.length < cs.length := by
  unfold escapeAt? at h
  split at h
  · have hinside := length_of_afterEscape? h
    simp only [List.length_cons]
    omega
  · cases h

/-- One step of the scanner. -/
theorem stripEscapes_cons (fuel : Nat) (c : Char) (rest : List Char) :
    stripEscapes (fuel + 1) (c :: rest) =
      match escapeAt? (c :: rest) with
      | some after => stripEscapes fuel after
      | none => c :: stripEscapes fuel rest := by
  conv => lhs; unfold stripEscapes
  split
  · rfl
  · rename_i hno
    have hplain : ∀ inside, c :: rest ≠ '\x1b' :: '[' :: inside := by
      intro inside heq
      obtain ⟨rfl, rfl⟩ := List.cons.inj heq
      exact hno inside rfl rfl
    rw [escapeAt?_eq_none hplain]

/-- Fuel beyond the length of the text makes no difference. -/
theorem stripEscapes_eq (hfuel : cs.length ≤ fuel) (hother : cs.length ≤ other) :
    stripEscapes fuel cs = stripEscapes other cs := by
  induction fuel generalizing cs other with
  | zero =>
    obtain rfl := List.length_eq_zero_iff.1 (Nat.le_zero.1 hfuel)
    cases other <;> rfl
  | succ fuel ih =>
    cases cs with
    | nil => cases other <;> rfl
    | cons c rest =>
      cases other with
      | zero => simp at hother
      | succ other =>
        rw [List.length_cons, Nat.add_le_add_iff_right] at hfuel hother
        rw [stripEscapes_cons, stripEscapes_cons]
        cases hescape : escapeAt? (c :: rest) with
        | none => rw [ih hfuel hother]
        | some after =>
          have hshorter := length_of_escapeAt? hescape
          rw [List.length_cons] at hshorter
          exact ih (by omega) (by omega)

/-- **The scanner without its fuel.** -/
theorem shown_cons (c : Char) (rest : List Char) :
    shown (c :: rest) =
      match escapeAt? (c :: rest) with
      | some after => shown after
      | none => c :: shown rest := by
  rw [shown, List.length_cons, stripEscapes_cons]
  cases hescape : escapeAt? (c :: rest) with
  | none => rfl
  | some after =>
    have hshorter := length_of_escapeAt? hescape
    rw [List.length_cons] at hshorter
    exact stripEscapes_eq (by omega) (Nat.le_refl _)

theorem afterEscape?_append (cs rest : List Char) :
    afterEscape? (cs ++ ' ' :: rest) = (afterEscape? cs).map (· ++ ' ' :: rest) := by
  have hspace : (' ' :: rest).dropWhile isEscapeInside = ' ' :: rest := rfl
  unfold afterEscape?
  rw [List.dropWhile_append, hspace]
  cases cs.dropWhile isEscapeInside with
  | nil => rfl
  | cons last behind => cases hlast : isEscapeEnd last <;> simp [hlast]

/-- An escape does not reach across a space. -/
theorem escapeAt?_append (cs rest : List Char) :
    escapeAt? (cs ++ ' ' :: rest) = (escapeAt? cs).map (· ++ ' ' :: rest) := by
  by_cases hescape : ∃ inside, cs = '\x1b' :: '[' :: inside
  · obtain ⟨inside, rfl⟩ := hescape
    exact afterEscape?_append inside rest
  · have hplain : ∀ inside, cs ++ ' ' :: rest ≠ '\x1b' :: '[' :: inside := by
      intro inside heq
      match cs, heq with
      | first :: second :: tail, heq =>
        simp only [List.cons_append, List.cons.injEq] at heq
        exact hescape ⟨tail, by rw [heq.1, heq.2.1]⟩
    rw [escapeAt?_eq_none hplain, escapeAt?_eq_none fun inside heq => hescape ⟨inside, heq⟩]
    rfl

/-- A text with a space in it is shown in two parts. -/
theorem shown_append (cs rest : List Char) :
    shown (cs ++ ' ' :: rest) = shown cs ++ ' ' :: shown rest := by
  induction hlength : cs.length using Nat.strongRecOn generalizing cs with
  | ind length ih =>
    subst hlength
    cases cs with
    | nil => exact shown_cons ' ' rest
    | cons c tail =>
      rw [List.cons_append, shown_cons, ← List.cons_append, escapeAt?_append, shown_cons]
      cases hescape : escapeAt? (c :: tail) with
      | none => exact congrArg (c :: ·) (ih tail.length (by simp) tail rfl)
      | some after => exact ih after.length (length_of_escapeAt? hescape) after rfl

/-- **A text cut behind a space** is printed in two parts. -/
theorem printed_append (s t : String) :
    printed (s ++ " " ++ t) = printed (s ++ " ") ++ printed t := by
  have hshown : ∀ s : String, printed s = shown s.toList := by
    intro s
    rw [printed, shown, String.length_toList]
  have hspace : (" " : String).toList = [' '] := rfl
  have hnothing : shown [] = [] := rfl
  simp only [hshown, String.toList_append, hspace, List.append_assoc, List.singleton_append,
    shown_append, hnothing]

/-- What is printed in front of a warning ends with a space, so the warning comes out as it would
alone. -/
theorem printed_lead (name t : String) :
    printed (name ++ ": " ++ t) = printed (name ++ ": ") ++ printed t := by
  have hlead : name ++ ": " = name ++ ":" ++ " " := by
    rw [String.append_assoc]
    rfl
  rw [hlead, printed_append]

/-- **The lines of warnings**: the word, what stands in front of the warning, and the warning. -/
theorem stderr_warned {lead : String} (hlead : ∀ t, printed (lead ++ t) = printed lead ++ printed t)
    (before : Session) (warnings : List String) :
    (before.warned lead warnings).stderr = before.stderr ++ warnings.flatMap fun warning =>
      "warning: ".toList ++ printed lead ++ printed (warning ++ "\n") := by
  have hword : ∀ t, printed ("warning: " ++ t) = "warning: ".toList ++ printed t :=
    fun t => (printed_append "warning:" t).trans rfl
  induction warnings generalizing before with
  | nil => simp [Session.warned]
  | cons warning rest ih =>
    have hline : printed ("warning: " ++ lead ++ warning ++ "\n") =
        "warning: ".toList ++ printed lead ++ printed (warning ++ "\n") := by
      rw [String.append_assoc, String.append_assoc, hword, hlead, List.append_assoc]
    rw [List.flatMap_cons, ← List.append_assoc, ← hline]
    exact ih (before.complaining ("warning: " ++ lead ++ warning))

end

end SampleTypes.Command
