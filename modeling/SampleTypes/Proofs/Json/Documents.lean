import SampleTypes.Proofs.Assoc.Bindings
import SampleTypes.Proofs.Json.Strings

/-!
# Documents without numbers, written and read

What the printer writes over several lines is read back as the value that was written, with the
members of every object in the order of their names. The values are those that hold no number and
in which no object repeats a name: a repeated name would be bound once only, and numbers are read
by rules of their own.

The reader is followed on a text with anything behind it, because a value ends where its own text
ends, whatever comes next. Its fuel is measured by the text as well: two calls in a row take one
character at least, so fuel of twice the length is enough for a value, and what a container passes
on to its parts is enough for each of them.

## Main results

* `readValue_indented`: a value is read back from its lines.
* `isTextual_sorted`: putting the names in order keeps a value among those that are read back.
* `read_indented`: a whole text is read back.
-/

namespace SampleTypes.Json

open Printer

mutual

/-- The value holds no number, and no object in it repeats a name. -/
def Value.IsTextual : Value → Prop
  | .int _ => False
  | .float _ => False
  | .array items => AreTextual items
  | .object members => (Assoc.keys members).Nodup ∧ HaveTextual members
  | _ => True

/-- All items of an array are such values. -/
def AreTextual : List Value → Prop
  | [] => True
  | item :: items => item.IsTextual ∧ AreTextual items

/-- All members of an object have such values. -/
def HaveTextual : Members → Prop
  | [] => True
  | (_, value) :: members => value.IsTextual ∧ HaveTextual members

end

namespace Reader

/-! ## Space -/

theorem skipSpace_cons {c : Char} (h : isSpace c = false) (rest : List Char) :
    skipSpace (c :: rest) = c :: rest := by
  simp [skipSpace, h]

/-- The reader passes over a new line with its indentation. -/
theorem skipSpace_newline (level : Nat) (s : List Char) :
    skipSpace (newline level ++ s) = skipSpace s := by
  have hspaces : ∀ n, skipSpace (List.replicate n ' ' ++ s) = skipSpace s := by
    intro n
    induction n with
    | zero => rfl
    | succ n ih => exact ih
  exact hspaces (2 * level)

/-! ## How texts begin -/

/-- The characters that the text of a value without numbers begins with. -/
def starts : List Char := ['n', 't', 'f', '"', '[', '\x7b']

/-- The text begins as that of a value does: neither with space nor with a closing bracket. -/
def Begins (s : List Char) : Prop :=
  ∃ c rest, s = c :: rest ∧ c ∈ starts

theorem Begins.append {s : List Char} (h : Begins s) (t : List Char) : Begins (s ++ t) := by
  obtain ⟨c, rest, rfl, hc⟩ := h
  exact ⟨c, rest ++ t, rfl, hc⟩

theorem Begins.skipSpace {s : List Char} (h : Begins s) : skipSpace s = s := by
  obtain ⟨c, rest, rfl, hc⟩ := h
  have hall : ∀ c ∈ starts, isSpace c = false := by simp [starts, isSpace]
  exact skipSpace_cons (hall c hc) rest

/-- On a line of its own a value is found behind the indentation. -/
theorem Begins.skipLine {s : List Char} (h : Begins s) (level : Nat) :
    Reader.skipSpace (newline level ++ s) = s := by
  rw [skipSpace_newline, h.skipSpace]

/-- Separated parts begin as the first of them does. -/
theorem Begins.separated {part : List Char} (h : Begins part) (mark : List Char)
    (parts : List (List Char)) : Begins (separated mark (part :: parts)) := by
  cases parts with
  | nil => exact h
  | cons next parts =>
    have hpart := h.append (mark ++ Printer.separated mark (next :: parts))
    simpa only [Printer.separated, List.append_assoc] using hpart

theorem begins_indented {v : Value} (h : v.IsTextual) (level : Nat) :
    Begins (v.indentedChars level) := by
  match v with
  | .null => exact ⟨'n', _, rfl, by decide⟩
  | .bool true => exact ⟨'t', _, rfl, by decide⟩
  | .bool false => exact ⟨'f', _, rfl, by decide⟩
  | .int _ => exact h.elim
  | .float _ => exact h.elim
  | .string _ => exact ⟨'"', _, rfl, by decide⟩
  | .array [] => exact ⟨'[', _, rfl, by decide⟩
  | .array (_ :: _) => exact ⟨'[', _, rfl, by decide⟩
  | .object [] => exact ⟨'\x7b', _, rfl, by decide⟩
  | .object (_ :: _) => exact ⟨'\x7b', _, rfl, by decide⟩

/-! ## One call of the reader -/

section Calls

variable {fuel : Nat} {s t u rest after next : List Char} {v : Value} {name : List Char}

theorem readValue_quote {cs : List Char} (h : readString ('"' :: s) fuel s = .ok (cs, rest)) :
    readValue (fuel + 1) ('"' :: s) = .ok (.string (String.ofList cs), rest) := by
  simp only [readValue]
  rw [if_pos trivial, h]
  rfl

theorem readValue_bracket {items : List Value} (hs : skipSpace s = t) (ht : Begins t)
    (h : readItems fuel t = .ok (items, rest)) :
    readValue (fuel + 1) ('[' :: s) = .ok (.array items, rest) := by
  have hquote : ('[' : Char) ≠ '"' := by decide
  have hbrace : ('[' : Char) ≠ '\x7b' := by decide
  simp only [readValue]
  rw [if_neg hquote, if_neg hbrace, if_pos trivial, hs]
  split
  · obtain ⟨c, rest, heq, hc⟩ := ht
    rw [← (List.cons.inj heq).1] at hc
    exact absurd hc (by decide)
  · rw [h]
    rfl

theorem readValue_brace {members : Members} (hs : skipSpace s = t) (ht : Begins t)
    (h : readMembers fuel t = .ok (members, rest)) :
    readValue (fuel + 1) ('\x7b' :: s) = .ok (.object (Assoc.ofList members), rest) := by
  have hquote : ('\x7b' : Char) ≠ '"' := by decide
  simp only [readValue]
  rw [if_neg hquote, if_pos trivial, hs]
  split
  · obtain ⟨c, rest, heq, hc⟩ := ht
    rw [← (List.cons.inj heq).1] at hc
    exact absurd hc (by decide)
  · rw [h]
    rfl

theorem readItems_last (hv : readValue fuel s = .ok (v, t)) (ht : skipSpace t = ']' :: after) :
    readItems (fuel + 1) s = .ok ([v], after) := by
  simp only [readItems, hv, bind, Except.bind, ht]

theorem readItems_next {items : List Value} (hv : readValue fuel s = .ok (v, t))
    (ht : skipSpace t = ',' :: next) (h : readItems fuel (skipSpace next) = .ok (items, rest)) :
    readItems (fuel + 1) s = .ok (v :: items, rest) := by
  simp only [readItems, hv, bind, Except.bind, ht, h]
  rfl

theorem readMembers_last (hname : readString ('"' :: s) fuel s = .ok (name, ':' :: t))
    (hv : readValue fuel (skipSpace t) = .ok (v, u)) (hu : skipSpace u = '\x7d' :: after) :
    readMembers (fuel + 1) ('"' :: s) = .ok ([(String.ofList name, v)], after) := by
  have hcolon : skipSpace (':' :: t) = ':' :: t := skipSpace_cons (by decide) t
  simp only [readMembers, hname, bind, Except.bind, hcolon, hv, hu]

theorem readMembers_next {members : Members}
    (hname : readString ('"' :: s) fuel s = .ok (name, ':' :: t))
    (hv : readValue fuel (skipSpace t) = .ok (v, u)) (hu : skipSpace u = ',' :: next)
    (h : readMembers fuel (skipSpace next) = .ok (members, rest)) :
    readMembers (fuel + 1) ('"' :: s) = .ok ((String.ofList name, v) :: members, rest) := by
  have hcolon : skipSpace (':' :: t) = ':' :: t := skipSpace_cons (by decide) t
  simp only [readMembers, hname, bind, Except.bind, hcolon, hv, hu, h]
  rfl

end Calls

/-! ## Values -/

/-- The lines of an array that is not empty, from its opening bracket on. -/
theorem indentedChars_array (level : Nat) (item : Value) (items : List Value)
    (rest : List Char) :
    Value.indentedChars level (.array (item :: items)) ++ rest =
      '[' :: (newline (level + 1) ++
        (separated (',' :: newline (level + 1)) (indentedItems (level + 1) (item :: items)) ++
          (newline level ++ ']' :: rest))) := by
  simp [Value.indentedChars]

/-- The lines of an object that is not empty, from its opening brace on. -/
theorem indentedChars_object (level : Nat) (member : String × Value) (members : Members)
    (rest : List Char) :
    Value.indentedChars level (.object (member :: members)) ++ rest =
      '\x7b' :: (newline (level + 1) ++
        (separated (',' :: newline (level + 1)) (indentedMembers (level + 1) (member :: members)) ++
          (newline level ++ '\x7d' :: rest))) := by
  simp [Value.indentedChars]

/-- The text of a member, from the quote of its name on. -/
def memberChars (level : Nat) (name : String) (value : Value) : List Char :=
  '"' :: (name.toList.flatMap escapeChar ++ '"' :: ':' :: ' ' :: value.indentedChars level)

theorem indentedMembers_cons (level : Nat) (name : String) (value : Value) (members : Members) :
    indentedMembers level ((name, value) :: members) =
      memberChars level name value :: indentedMembers level members := by
  simp [indentedMembers, memberChars, quoteChars]

theorem memberChars_append (level : Nat) (name : String) (value : Value) (rest : List Char) :
    memberChars level name value ++ rest =
      '"' :: (name.toList.flatMap escapeChar ++
        '"' :: ':' :: ' ' :: (value.indentedChars level ++ rest)) := by
  simp [memberChars]

theorem length_memberChars (level : Nat) (name : String) (value : Value) :
    name.toList.length + (value.indentedChars level).length < (memberChars level name value).length
    := by
  have hname := length_le_escaped name.toList
  simp only [memberChars, List.length_cons, List.length_append]
  omega

theorem begins_items {item : Value} (h : item.IsTextual) (level : Nat) (items : List Value) :
    Begins (separated (',' :: newline level) (indentedItems level (item :: items))) :=
  (begins_indented h level).separated (',' :: newline level) (indentedItems level items)

theorem begins_members (level : Nat) (member : String × Value) (members : Members) :
    Begins (separated (',' :: newline level) (indentedMembers level (member :: members))) := by
  have hmember : Begins (memberChars level member.1 member.2) := ⟨'"', _, rfl, by decide⟩
  rw [indentedMembers_cons]
  exact hmember.separated (',' :: newline level) (indentedMembers level members)

/-- What a reader with this fuel reads back: values from texts up to half as long, and the parts of
containers from slightly shorter ones. -/
structure ReadsBack (fuel : Nat) : Prop where
  value (v : Value) (h : v.IsTextual) (level : Nat) (rest : List Char)
    (hfuel : 2 * (v.indentedChars level).length ≤ fuel) :
    readValue fuel (v.indentedChars level ++ rest) = .ok (v, rest)
  items (item : Value) (items : List Value) (h : AreTextual (item :: items)) (level outer : Nat)
    (rest : List Char)
    (hfuel : 2 * (separated (',' :: newline level)
      (indentedItems level (item :: items))).length < fuel) :
    readItems fuel (separated (',' :: newline level) (indentedItems level (item :: items)) ++
      (newline outer ++ ']' :: rest)) = .ok (item :: items, rest)
  members (member : String × Value) (members : Members) (h : HaveTextual (member :: members))
    (level outer : Nat) (rest : List Char)
    (hfuel : 2 * (separated (',' :: newline level)
      (indentedMembers level (member :: members))).length < fuel) :
    readMembers fuel (separated (',' :: newline level) (indentedMembers level (member :: members)) ++
      (newline outer ++ '\x7d' :: rest)) = .ok (member :: members, rest)

namespace ReadsBack

variable {fuel : Nat} (ih : ReadsBack fuel)

include ih

theorem value_succ (v : Value) (h : v.IsTextual) (level : Nat) (rest : List Char)
    (hfuel : 2 * (v.indentedChars level).length ≤ fuel + 1) :
    readValue (fuel + 1) (v.indentedChars level ++ rest) = .ok (v, rest) := by
  match v, h with
  | .null, _ => rfl
  | .bool true, _ => rfl
  | .bool false, _ => rfl
  | .string s, _ =>
    have hlength := length_le_escaped s.toList
    simp only [Value.indentedChars, quoteChars, List.length_cons, List.length_append] at hfuel
    have hshort : s.toList.length < fuel := by omega
    have hread := readString_quoted ('"' :: (s.toList.flatMap escapeChar ++ '"' :: rest))
      s.toList hshort rest
    have hvalue := readValue_quote hread
    rw [String.ofList_toList] at hvalue
    simpa [Value.indentedChars, quoteChars] using hvalue
  | .array [], _ => rfl
  | .array (item :: items), h =>
    have hlength := congrArg List.length (indentedChars_array level item items [])
    simp only [List.length_cons, List.length_append, List.length_nil] at hlength
    have hitems := ih.items item items h (level + 1) level rest (by omega)
    have hbegins := (begins_items h.1 (level + 1) items).append (newline level ++ ']' :: rest)
    rw [indentedChars_array]
    exact readValue_bracket (hbegins.skipLine (level + 1)) hbegins hitems
  | .object [], _ => rfl
  | .object (member :: members), h =>
    have hlength := congrArg List.length (indentedChars_object level member members [])
    simp only [List.length_cons, List.length_append, List.length_nil] at hlength
    have hmembers := ih.members member members h.2 (level + 1) level rest (by omega)
    have hbegins := (begins_members (level + 1) member members).append
      (newline level ++ '\x7d' :: rest)
    have hread := readValue_brace (hbegins.skipLine (level + 1)) hbegins hmembers
    rw [Assoc.ofList_eq_self h.1] at hread
    rw [indentedChars_object]
    exact hread

theorem items_succ (item : Value) (items : List Value) (h : AreTextual (item :: items))
    (level outer : Nat) (rest : List Char)
    (hfuel : 2 * (separated (',' :: newline level)
      (indentedItems level (item :: items))).length < fuel + 1) :
    readItems (fuel + 1) (separated (',' :: newline level) (indentedItems level (item :: items)) ++
      (newline outer ++ ']' :: rest)) = .ok (item :: items, rest) := by
  cases items with
  | nil =>
    simp only [indentedItems, separated] at hfuel ⊢
    have hitem := ih.value item h.1 level (newline outer ++ ']' :: rest) (by omega)
    exact readItems_last hitem
      ((skipSpace_newline outer _).trans (skipSpace_cons (by decide) rest))
  | cons next items =>
    simp only [indentedItems, separated, List.length_append, List.length_cons] at hfuel ⊢
    have hrest := ih.items next items h.2 level outer rest (by
      simp only [indentedItems]
      omega)
    have hbegins := (begins_items h.2.1 level items).append (newline outer ++ ']' :: rest)
    rw [← hbegins.skipLine level] at hrest
    simp only [List.append_assoc, List.cons_append]
    exact readItems_next (ih.value item h.1 level _ (by omega)) (skipSpace_cons (by decide) _) hrest

theorem members_succ (member : String × Value) (members : Members)
    (h : HaveTextual (member :: members)) (level outer : Nat) (rest : List Char)
    (hfuel : 2 * (separated (',' :: newline level)
      (indentedMembers level (member :: members))).length < fuel + 1) :
    readMembers (fuel + 1)
      (separated (',' :: newline level) (indentedMembers level (member :: members)) ++
        (newline outer ++ '\x7d' :: rest)) = .ok (member :: members, rest) := by
  obtain ⟨name, value⟩ := member
  have hlength := length_memberChars level name value
  rw [indentedMembers_cons] at hfuel ⊢
  have hmember : 2 * (memberChars level name value).length < fuel + 1 := by
    cases hmembers : indentedMembers level members <;>
      simp only [hmembers, separated, List.length_append] at hfuel <;> omega
  have hname : ∀ tail, readString (memberChars level name value ++ tail) fuel
      (name.toList.flatMap escapeChar ++ '"' :: ':' :: ' ' :: (value.indentedChars level ++ tail)) =
        .ok (name.toList, ':' :: ' ' :: (value.indentedChars level ++ tail)) :=
    fun tail => readString_quoted _ name.toList (by omega) _
  have hvalue : ∀ tail, readValue fuel (skipSpace (' ' :: (value.indentedChars level ++ tail))) =
      .ok (value, tail) := by
    intro tail
    have hskip : skipSpace (' ' :: (value.indentedChars level ++ tail)) =
        value.indentedChars level ++ tail := ((begins_indented h.1 level).append tail).skipSpace
    rw [hskip]
    exact ih.value value h.1 level tail (by omega)
  simp only [memberChars_append] at hname
  cases members with
  | nil =>
    simp only [indentedMembers, separated]
    rw [memberChars_append]
    have hread := readMembers_last (hname _) (hvalue (newline outer ++ '\x7d' :: rest))
      ((skipSpace_newline outer _).trans (skipSpace_cons (by decide) rest))
    rwa [String.ofList_toList] at hread
  | cons next members =>
    have hrest := ih.members next members h.2 level outer rest (by
      rw [indentedMembers_cons] at hfuel ⊢
      simp only [separated, List.length_append, List.length_cons] at hfuel
      omega)
    have hbegins := (begins_members level next members).append (newline outer ++ '\x7d' :: rest)
    rw [← hbegins.skipLine level] at hrest
    have hread := readMembers_next (hname _) (hvalue _) (skipSpace_cons (by decide) _) hrest
    rw [String.ofList_toList] at hread
    rw [indentedMembers_cons] at hread ⊢
    simp only [separated, List.append_assoc, List.cons_append, memberChars_append]
    exact hread

end ReadsBack

/-- A reader reads back what its fuel allows. -/
theorem readsBack (fuel : Nat) : ReadsBack fuel := by
  induction fuel with
  | zero =>
    refine ⟨?_, ?_, ?_⟩
    · intro v h level rest hfuel
      obtain ⟨c, cs, hstart, -⟩ := begins_indented h level
      rw [hstart, List.length_cons] at hfuel
      omega
    · intro item items h level outer rest hfuel
      omega
    · intro member members h level outer rest hfuel
      omega
  | succ fuel ih => exact ⟨ih.value_succ, ih.items_succ, ih.members_succ⟩

/-- **A whole text is read back.** -/
theorem readDocument_indented {v : Value} (h : v.IsTextual) {rest : List Char}
    (hrest : skipSpace rest = []) : readDocument (v.indentedChars 0 ++ rest) = .ok v := by
  have hbegins := (begins_indented h 0).append rest
  have hhead : (v.indentedChars 0 ++ rest).head? ≠ some '\ufeff' := by
    obtain ⟨c, cs, heq, hc⟩ := hbegins
    rw [heq]
    rintro ⟨⟩
    exact absurd hc (by decide)
  have hvalue := (readsBack (2 * (v.indentedChars 0 ++ rest).length + 2)).value v h 0 rest (by
    rw [List.length_append]
    omega)
  unfold readDocument
  rw [if_neg hhead, hbegins.skipSpace, hvalue]
  simp only [bind, Except.bind, hrest]
  rfl

end Reader

/-! ## Names in order -/

theorem haveTextual_iff {members : Members} :
    HaveTextual members ↔ ∀ member ∈ members, member.2.IsTextual := by
  induction members with
  | nil => simp [HaveTextual]
  | cons member members ih => simp [HaveTextual, ih]

theorem keys_sortedMembers (members : Members) :
    Assoc.keys (sortedMembers members) = Assoc.keys members := by
  induction members with
  | nil => rfl
  | cons member members ih => exact congrArg (member.1 :: ·) ih

mutual

/-- **Putting the names in order** keeps a value among those that are read back. -/
theorem Value.isTextual_sorted (v : Value) (h : v.IsTextual) : v.sorted.IsTextual := by
  match v, h with
  | .null, h => exact h
  | .bool _, h => exact h
  | .string _, h => exact h
  | .array items, h => exact areTextual_sorted items h
  | .object members, h =>
    have hperm := List.mergeSort_perm (sortedMembers members)
      fun one other => decide (one.1 ≤ other.1)
    have hnodup : (Assoc.keys (sortedMembers members)).Nodup := by
      rw [keys_sortedMembers]
      exact h.1
    refine ⟨(hperm.map Prod.fst).nodup_iff.2 hnodup, haveTextual_iff.2 fun member hmember => ?_⟩
    exact haveTextual_iff.1 (haveTextual_sorted members h.2) member (hperm.mem_iff.1 hmember)

theorem areTextual_sorted (items : List Value) (h : AreTextual items) :
    AreTextual (sortedItems items) := by
  match items, h with
  | [], h => exact h
  | item :: items, h => exact ⟨item.isTextual_sorted h.1, areTextual_sorted items h.2⟩

theorem haveTextual_sorted (members : Members) (h : HaveTextual members) :
    HaveTextual (sortedMembers members) := by
  match members, h with
  | [], h => exact h
  | (_, value) :: members, h =>
    exact ⟨value.isTextual_sorted h.1, haveTextual_sorted members h.2⟩

end

/-- **What is written over several lines is read back**, with the names in order. -/
theorem read_indented {v : Value} (h : v.IsTextual) : read (v.indented ++ "\n") = .ok v.sorted := by
  have htext : (v.indented ++ "\n").toList = v.sorted.indentedChars 0 ++ ['\n'] := by
    rw [String.toList_append, Value.indented, String.toList_ofList]
    rfl
  have hfeed : Reader.skipSpace ['\n'] = [] := rfl
  have hread := Reader.readDocument_indented (v.isTextual_sorted h) hfeed
  simp only [read, htext, hread]

end SampleTypes.Json
