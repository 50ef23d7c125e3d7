import SampleTypes.Source.Pattern

/-!
# What patterns read

What a pattern makes of a row of tokens does not depend on what the reader has looked at before: a
rule finds in its memory only what it would make of the place now. So there is a relation between a
pattern, the tokens in front of it and what it makes of them, and the reader agrees with it.

The relation carries a number that bounds how deeply patterns call each other. Twice this number is
enough fuel for the reader, which takes a step for each pattern and another one for each list in it.

A pattern that cannot begin with a token is often seen to stop by a look at this token alone. This
is decided for closed patterns at once, whatever the tokens behind are.

## Main results

* `Reads.unique`: a pattern makes one thing of a row of tokens.
* `Reads.yields`: the reader finds what its pattern reads, and remembers nothing else.
* `read_eq_ok`, `read_eq_error`: a text is read by what its first rule reads, if it reads it.
* `says_glance`: what is seen by a look at one token.
-/

namespace SampleTypes.Source.Pattern

/-- What a pattern makes of a row of tokens: trees and the tokens behind them, or nothing. -/
abbrev Outcome (ρ : Type) := Option (List (Tree ρ) × List Token)

/-- Whether the next token meets one of some conditions. -/
def startsWith (tests : List Test) (s : List Token) : Bool :=
  s.head?.any fun here => tests.any fun t => t.holds here

/-- What a pattern makes of a row of tokens, in calls at most so deep. -/
inductive Reads {ρ : Type} (body : ρ → Pattern ρ) :
    (depth : Nat) → Pattern ρ → List Token → Outcome ρ → Prop where
  | token {e t here s} : 0 < e → t.holds here = true →
      Reads body e (.token t) (here :: s) (some ([.leaf here], s))
  | otherToken {e t here s} : 0 < e → t.holds here = false →
      Reads body e (.token t) (here :: s) none
  | noToken {e t} : 0 < e → Reads body e (.token t) [] none
  | ahead {e tests s} : 0 < e → startsWith tests s = true →
      Reads body e (.ahead tests) s (some ([], s))
  | aheadStop {e tests s} : 0 < e → startsWith tests s = false → Reads body e (.ahead tests) s none
  | notAhead {e tests s} : 0 < e → startsWith tests s = false →
      Reads body e (.notAhead tests) s (some ([], s))
  | notAheadStop {e tests s} : 0 < e → startsWith tests s = true →
      Reads body e (.notAhead tests) s none
  | seqNil {e s} : 0 < e → Reads body e (.seq []) s (some ([], s))
  | seqStop {d e part parts s} : d < e → Reads body d part s none →
      Reads body e (.seq (part :: parts)) s none
  | seqBreak {d e part parts s trees between} : d < e →
      Reads body d part s (some (trees, between)) → Reads body d (.seq parts) between none →
        Reads body e (.seq (part :: parts)) s none
  | seqNext {d e part parts s trees between more rest} : d < e →
      Reads body d part s (some (trees, between)) →
        Reads body d (.seq parts) between (some (more, rest)) →
          Reads body e (.seq (part :: parts)) s (some (trees ++ more, rest))
  | firstNil {e s} : 0 < e → Reads body e (.first []) s none
  | firstFit {d e choice choices s trees rest} : d < e →
      Reads body d choice s (some (trees, rest)) →
        Reads body e (.first (choice :: choices)) s (some (trees, rest))
  | firstNext {d e choice choices s outcome} : d < e → Reads body d choice s none →
      Reads body d (.first choices) s outcome → Reads body e (.first (choice :: choices)) s outcome
  | manyStop {d e part s} : d < e → Reads body d part s none →
      Reads body e (.many part) s (some ([], s))
  | manyIdle {d e part s trees rest} : d < e → Reads body d part s (some (trees, rest)) →
      s.length ≤ rest.length → Reads body e (.many part) s (some ([], s))
  | manyNext {d e part s trees between more rest} : d < e →
      Reads body d part s (some (trees, between)) → between.length < s.length →
        Reads body d (.many part) between (some (more, rest)) →
          Reads body e (.many part) s (some (trees ++ more, rest))
  | optionStop {d e part s} : d < e → Reads body d part s none →
      Reads body e (.option part) s (some ([], s))
  | optionFit {d e part s trees rest} : d < e → Reads body d part s (some (trees, rest)) →
      Reads body e (.option part) s (some (trees, rest))
  | ruleStop {d e r s} : d < e → Reads body d (body r) s none → Reads body e (.rule r) s none
  | ruleFit {d e r s trees rest} : d < e → Reads body d (body r) s (some (trees, rest)) →
      Reads body e (.rule r) s (some ([Tree.ofRule r trees], rest))

section

variable {ρ : Type} {body : ρ → Pattern ρ} {d e : Nat} {pattern : Pattern ρ} {s rest : List Token}
  {trees : List (Tree ρ)} {outcome other : Outcome ρ}

/-- A reading is found in deeper calls, too. -/
theorem Reads.mono (h : Reads body d pattern s outcome) (hle : d ≤ e) :
    Reads body e pattern s outcome := by
  cases h with
  | token hpos hholds => exact .token (by omega) hholds
  | otherToken hpos hholds => exact .otherToken (by omega) hholds
  | noToken hpos => exact .noToken (by omega)
  | ahead hpos hstarts => exact .ahead (by omega) hstarts
  | aheadStop hpos hstarts => exact .aheadStop (by omega) hstarts
  | notAhead hpos hstarts => exact .notAhead (by omega) hstarts
  | notAheadStop hpos hstarts => exact .notAheadStop (by omega) hstarts
  | seqNil hpos => exact .seqNil (by omega)
  | seqStop hlt hpart => exact .seqStop (by omega) hpart
  | seqBreak hlt hpart hrest => exact .seqBreak (by omega) hpart hrest
  | seqNext hlt hpart hrest => exact .seqNext (by omega) hpart hrest
  | firstNil hpos => exact .firstNil (by omega)
  | firstFit hlt hchoice => exact .firstFit (by omega) hchoice
  | firstNext hlt hchoice hrest => exact .firstNext (by omega) hchoice hrest
  | manyStop hlt hpart => exact .manyStop (by omega) hpart
  | manyIdle hlt hpart hidle => exact .manyIdle (by omega) hpart hidle
  | manyNext hlt hpart hshort hrest => exact .manyNext (by omega) hpart hshort hrest
  | optionStop hlt hpart => exact .optionStop (by omega) hpart
  | optionFit hlt hpart => exact .optionFit (by omega) hpart
  | ruleStop hlt hbody => exact .ruleStop (by omega) hbody
  | ruleFit hlt hbody => exact .ruleFit (by omega) hbody

theorem Reads.pos (h : Reads body d pattern s outcome) : 0 < d := by
  cases h <;> omega

/-- The last part of several. -/
theorem Reads.last {part : Pattern ρ} (h : Reads body d part s (some (trees, rest)))
    (hlt : d < e) : Reads body e (.seq [part]) s (some (trees, rest)) := by
  have hseq := Reads.seqNext hlt h (.seqNil h.pos)
  rwa [List.append_nil] at hseq

/-- **A pattern makes one thing of a row of tokens.** -/
theorem Reads.unique (h : Reads body d pattern s outcome) (h' : Reads body e pattern s other) :
    outcome = other := by
  induction h generalizing e other with
  | token _ hholds => cases h' <;> simp_all
  | otherToken _ hholds => cases h' <;> simp_all
  | noToken => cases h'; rfl
  | ahead _ hstarts => cases h' <;> simp_all
  | aheadStop _ hstarts => cases h' <;> simp_all
  | notAhead _ hstarts => cases h' <;> simp_all
  | notAheadStop _ hstarts => cases h' <;> simp_all
  | seqNil => cases h'; rfl
  | seqStop _ _ ih =>
    cases h' with
    | seqStop => rfl
    | seqBreak => rfl
    | seqNext _ hpart _ => cases ih hpart
  | seqBreak _ _ _ ihpart ihrest =>
    cases h' with
    | seqStop => rfl
    | seqBreak => rfl
    | seqNext _ hpart hrest =>
      cases ihpart hpart
      cases ihrest hrest
  | seqNext _ _ _ ihpart ihrest =>
    cases h' with
    | seqStop _ hpart => cases ihpart hpart
    | seqBreak _ hpart hrest =>
      cases ihpart hpart
      cases ihrest hrest
    | seqNext _ hpart hrest =>
      cases ihpart hpart
      cases ihrest hrest
      rfl
  | firstNil => cases h'; rfl
  | firstFit _ _ ih =>
    cases h' with
    | firstFit _ hchoice => exact ih hchoice
    | firstNext _ hchoice _ => cases ih hchoice
  | firstNext _ _ _ ih ihrest =>
    cases h' with
    | firstFit _ hchoice => cases ih hchoice
    | firstNext _ _ hrest => exact ihrest hrest
  | manyStop _ _ ih =>
    cases h' with
    | manyStop => rfl
    | manyIdle => rfl
    | manyNext _ hpart _ _ => cases ih hpart
  | manyIdle _ _ hidle ih =>
    cases h' with
    | manyStop => rfl
    | manyIdle => rfl
    | manyNext _ hpart hshort _ =>
      cases ih hpart
      omega
  | manyNext _ _ hshort _ ihpart ihrest =>
    cases h' with
    | manyStop _ hpart => cases ihpart hpart
    | manyIdle _ hpart hidle =>
      cases ihpart hpart
      omega
    | manyNext _ hpart _ hrest =>
      cases ihpart hpart
      cases ihrest hrest
      rfl
  | optionStop _ _ ih =>
    cases h' with
    | optionStop => rfl
    | optionFit _ hpart => cases ih hpart
  | optionFit _ _ ih =>
    cases h' with
    | optionStop _ hpart => cases ih hpart
    | optionFit _ hpart => exact ih hpart
  | ruleStop _ _ ih =>
    cases h' with
    | ruleStop => rfl
    | ruleFit _ hbody => cases ih hbody
  | ruleFit _ _ ih =>
    cases h' with
    | ruleStop _ hbody => cases ih hbody
    | ruleFit _ hbody =>
      cases ih hbody
      rfl

/-- Tokens are read from the front. -/
theorem Reads.suffix (h : Reads body d pattern s (some (trees, rest))) : rest <:+ s := by
  generalize houtcome : some (trees, rest) = outcome at h
  induction h generalizing trees rest with
  | token =>
    cases houtcome
    exact List.suffix_cons ..
  | ahead =>
    cases houtcome
    exact List.suffix_rfl
  | notAhead =>
    cases houtcome
    exact List.suffix_rfl
  | seqNil =>
    cases houtcome
    exact List.suffix_rfl
  | seqNext _ _ _ ihpart ihrest =>
    cases houtcome
    exact (ihrest rfl).trans (ihpart rfl)
  | firstFit _ _ ih => exact ih houtcome
  | firstNext _ _ _ _ ihrest => exact ihrest houtcome
  | manyStop =>
    cases houtcome
    exact List.suffix_rfl
  | manyIdle =>
    cases houtcome
    exact List.suffix_rfl
  | manyNext _ _ _ _ ihpart ihrest =>
    cases houtcome
    exact (ihrest rfl).trans (ihpart rfl)
  | optionStop =>
    cases houtcome
    exact List.suffix_rfl
  | optionFit _ _ ih => exact ih houtcome
  | ruleFit _ _ ih =>
    cases houtcome
    exact ih rfl
  | _ => cases houtcome

/-- What an outcome adds to the trees gathered so far, which are kept in reverse. -/
def gathered (sofar : List (Tree ρ)) (outcome : Outcome ρ) : Outcome ρ :=
  outcome.map fun (trees, rest) => (sofar.reverse ++ trees, rest)

theorem gathered_nil (outcome : Outcome ρ) : gathered [] outcome = outcome := by
  cases outcome <;> rfl

theorem gathered_stop (sofar : List (Tree ρ)) (s : List Token) :
    gathered sofar (some ([], s)) = some (sofar.reverse, s) := by
  simp [gathered]

theorem gathered_append (sofar trees more : List (Tree ρ)) (rest : List Token) :
    gathered (trees.reverse ++ sofar) (some (more, rest)) =
      gathered sofar (some (trees ++ more, rest)) := by
  simp [gathered]

end

/-! ## The reader -/

section

variable {ρ : Type} [BEq ρ] [Hashable ρ] {body : ρ → Pattern ρ} {tokens : Array Token}
  {α β : Type} {a : StateM (Progress ρ) α} {f : α → StateM (Progress ρ) β} {x : α} {y : β}
  {d e fuel : Nat} {pattern : Pattern ρ} {r : ρ} {here : Token} {s rest : List Token}
  {trees : List (Tree ρ)} {outcome : Outcome ρ}

/-- The place of the tokens that are left. -/
def placeOf (tokens : Array Token) (s : List Token) : Nat :=
  tokens.size - s.length

/-- What is found at a place, if a pattern makes this of the tokens there. -/
def foundOf (tokens : Array Token) (outcome : Outcome ρ) : Found ρ :=
  outcome.map fun (trees, rest) => (trees, placeOf tokens rest)

/-- Whatever is remembered is what a rule reads. -/
def Remembers (body : ρ → Pattern ρ) (tokens : Array Token) (p : Progress ρ) : Prop :=
  ∀ r s found, s <:+ tokens.toList → p.known[(r, placeOf tokens s)]? = some found →
    ∃ depth outcome, Reads body depth (.rule r) s outcome ∧ found = foundOf tokens outcome

/-- From a memory that is right the answer is this one, and the memory is right again. -/
def Yields (body : ρ → Pattern ρ) (tokens : Array Token) (a : StateM (Progress ρ) α) (x : α) :
    Prop :=
  ∀ p, Remembers body tokens p → ∃ next, a.run p = (x, next) ∧ Remembers body tokens next

theorem yields_pure (x : α) : Yields body tokens (pure x) x :=
  fun p hp => ⟨p, rfl, hp⟩

theorem Yields.bind (h : Yields body tokens a x) (hrest : Yields body tokens (f x) y) :
    Yields body tokens (a >>= f) y := by
  intro p hp
  obtain ⟨between, hfirst, hbetween⟩ := h p hp
  obtain ⟨next, hnext, hlast⟩ := hrest between hbetween
  refine ⟨next, ?_, hlast⟩
  rw [StateT.run_bind, hfirst]
  exact hnext

/-! ### One token -/

theorem getElem?_placeOf (hs : s <:+ tokens.toList) : tokens[placeOf tokens s]? = s.head? := by
  obtain ⟨front, hfront⟩ := hs
  have hsize : tokens.size = front.length + s.length := by
    rw [← Array.length_toList, ← hfront, List.length_append]
  rw [placeOf, hsize, Nat.add_sub_cancel, ← Array.getElem?_toList, ← hfront,
    List.getElem?_append_right (Nat.le_refl _), Nat.sub_self, List.head?_eq_getElem?]

theorem length_le_size (hs : s <:+ tokens.toList) : s.length ≤ tokens.size :=
  List.IsSuffix.length_le hs

/-- The fewer tokens are left, the later is the place. -/
theorem placeOf_le_placeOf (hs : s <:+ tokens.toList) :
    placeOf tokens rest ≤ placeOf tokens s ↔ s.length ≤ rest.length := by
  have hlength := length_le_size hs
  rw [placeOf, placeOf]
  omega

theorem placeOf_cons (hs : here :: s <:+ tokens.toList) :
    placeOf tokens (here :: s) + 1 = placeOf tokens s := by
  have hlength := length_le_size hs
  rw [List.length_cons] at hlength
  rw [placeOf, placeOf, List.length_cons]
  omega

theorem known_missed (place : Nat) (expectation : String) (p : Progress ρ) :
    (p.missed place expectation).known = p.known := by
  unfold Progress.missed
  split
  · rfl
  · split <;> rfl

theorem meets_placeOf (tests : List Test) (hs : s <:+ tokens.toList) :
    meets tokens tests (placeOf tokens s) = startsWith tests s := by
  rw [meets, getElem?_placeOf hs, startsWith]
  cases s <;> rfl

/-- A look behind the last token. -/
theorem findToken_of_none {t : Test} {place : Nat} {p : Progress ρ}
    (h : tokens[place]? = none) : (findToken tokens t place).run p = (none, p) := by
  simp only [findToken, StateT.run, h]

/-- A look at a token. -/
theorem findToken_of_some {t : Test} {place : Nat} {p : Progress ρ}
    (h : tokens[place]? = some here) :
    (findToken tokens t place).run p =
      if t.holds here then (some ([.leaf here], place + 1), p)
      else (none, p.missed place (t.expectation here)) := by
  simp only [findToken, StateT.run, h]

theorem yields_token {t : Test} (hs : s <:+ tokens.toList)
    (h : Reads body e (.token t) s outcome) :
    Yields body tokens (findToken tokens t (placeOf tokens s)) (foundOf tokens outcome) := by
  intro p hp
  have hhere := getElem?_placeOf hs
  cases h with
  | token _ hholds =>
    refine ⟨p, ?_, hp⟩
    rw [findToken_of_some hhere, if_pos hholds, placeOf_cons hs]
    rfl
  | otherToken _ hholds =>
    refine ⟨_, (findToken_of_some hhere).trans (if_neg (Bool.eq_false_iff.1 hholds)),
      fun r s found hsuffix hknown => ?_⟩
    rw [known_missed] at hknown
    exact hp r s found hsuffix hknown
  | noToken => exact ⟨p, findToken_of_none hhere, hp⟩

/-! ### Patterns -/

/-- What the reader finds if a pattern makes this of the tokens in front of it. Lists of patterns
are read by loops, which are given what they have gathered. -/
def Finds (body : ρ → Pattern ρ) (tokens : Array Token) (depth : Nat) (pattern : Pattern ρ)
    (s : List Token) (outcome : Outcome ρ) : Prop :=
  match pattern with
  | .seq parts => ∀ sofar fuel, 2 * depth ≤ fuel + 2 → Yields body tokens
      (findSeq body tokens (fuel + 1) parts sofar (placeOf tokens s))
      (foundOf tokens (gathered sofar outcome))
  | .first choices => ∀ fuel, 2 * depth ≤ fuel + 2 → Yields body tokens
      (findFirst body tokens (fuel + 1) choices (placeOf tokens s)) (foundOf tokens outcome)
  | .many part => ∀ sofar fuel, 2 * depth ≤ fuel + 2 → Yields body tokens
      (findMany body tokens (fuel + 1) part sofar (placeOf tokens s))
      (foundOf tokens (gathered sofar outcome))
  | pattern => ∀ fuel, 2 * depth ≤ fuel + 1 → Yields body tokens
      (find body tokens (fuel + 1) pattern (placeOf tokens s)) (foundOf tokens outcome)

/-- Each pattern is found by a step and what its kind asks for. -/
theorem Finds.yields (h : Finds body tokens d pattern s outcome) (hpos : 0 < d)
    (hfuel : 2 * d ≤ fuel) :
    Yields body tokens (find body tokens fuel pattern (placeOf tokens s))
      (foundOf tokens outcome) := by
  obtain ⟨fuel, rfl⟩ : ∃ fewer, fuel = fewer + 2 := ⟨fuel - 2, by omega⟩
  cases pattern with
  | seq parts =>
    rw [find, ← gathered_nil outcome]
    exact h [] fuel hfuel
  | first choices =>
    rw [find]
    exact h fuel hfuel
  | many part =>
    rw [find, ← gathered_nil outcome]
    exact h [] fuel hfuel
  | _ => exact h (fuel + 1) hfuel

/-- What a rule makes of what its pattern reads. -/
def closed (r : ρ) (found : Found ρ) : Found ρ :=
  found.map fun (parts, next) => ([Tree.ofRule r parts], next)

/-- A rule that has been read here before. -/
theorem find_rule_of_some {p : Progress ρ} {place : Nat} {found : Found ρ}
    (h : p.known[(r, place)]? = some found) :
    (find body tokens (fuel + 1) (.rule r) place).run p = (found, p) := by
  simp only [find, StateT.run_bind, StateT.run_get, pure_bind, h, StateT.run_pure]
  rfl

/-- A rule that is read here for the first time. -/
theorem find_rule_of_none {p next : Progress ρ} {place : Nat} {found : Found ρ}
    (h : p.known[(r, place)]? = none)
    (hbody : (find body tokens fuel (body r) place).run p = (found, next)) :
    (find body tokens (fuel + 1) (.rule r) place).run p =
      (closed r found, next.remember r place (closed r found)) := by
  simp only [find, bind_pure_comp, StateT.run_bind, StateT.run_get, pure_bind, h, hbody,
    StateT.run_map, StateT.run_modify]
  rfl

end

section

variable {ρ : Type} [BEq ρ] [LawfulBEq ρ] [Hashable ρ] {body : ρ → Pattern ρ}
  {tokens : Array Token} {d e fuel : Nat} {pattern : Pattern ρ} {r : ρ} {s rest : List Token}
  {trees : List (Tree ρ)} {outcome : Outcome ρ}

/-- What a rule reads may be remembered. -/
theorem Remembers.remember {p : Progress ρ} (hp : Remembers body tokens p)
    (hs : s <:+ tokens.toList) (h : Reads body d (.rule r) s outcome) :
    Remembers body tokens (p.remember r (placeOf tokens s) (foundOf tokens outcome)) := by
  intro other left found hleft hknown
  rw [Progress.remember, Std.HashMap.getElem?_insert] at hknown
  split at hknown
  case isFalse => exact hp other left found hleft hknown
  case isTrue hkey =>
    cases hknown
    have hsame : (r, placeOf tokens s) = (other, placeOf tokens left) := eq_of_beq hkey
    obtain ⟨rfl, hplace⟩ := Prod.mk.inj hsame
    have heq : s.length = left.length :=
      Nat.le_antisymm ((placeOf_le_placeOf hs).1 (Nat.le_of_eq hplace.symm))
        ((placeOf_le_placeOf hleft).1 (Nat.le_of_eq hplace))
    have hsuffix : s <:+ left := List.suffix_of_suffix_length_le hs hleft (Nat.le_of_eq heq)
    obtain rfl := hsuffix.eq_of_length heq
    exact ⟨d, outcome, h, rfl⟩

theorem yields_rule (hs : s <:+ tokens.toList) (h : Reads body e (.rule r) s outcome)
    {found : Found ρ} (hfound : foundOf tokens outcome = closed r found)
    (hbody : Yields body tokens (find body tokens fuel (body r) (placeOf tokens s)) found) :
    Yields body tokens (find body tokens (fuel + 1) (.rule r) (placeOf tokens s))
      (foundOf tokens outcome) := by
  intro p hp
  cases hknown : p.known[(r, placeOf tokens s)]? with
  | some known =>
    obtain ⟨depth, other, hother, rfl⟩ := hp r s known hs hknown
    refine ⟨p, ?_, hp⟩
    rw [h.unique hother]
    exact find_rule_of_some hknown
  | none =>
    obtain ⟨next, hrun, hnext⟩ := hbody p hp
    refine ⟨next.remember r (placeOf tokens s) (foundOf tokens outcome), ?_, hnext.remember hs h⟩
    rw [hfound]
    exact find_rule_of_none hknown hrun

/-- **The reader agrees with the patterns.** By induction on a reading, with a case for each way in
which a pattern fits or stops. -/
theorem Reads.finds (h : Reads body d pattern s outcome) (hs : s <:+ tokens.toList) :
    Finds body tokens d pattern s outcome := by
  induction h with
  | token hpos hholds =>
    intro fuel _
    rw [find]
    exact yields_token hs (.token hpos hholds)
  | otherToken hpos hholds =>
    intro fuel _
    rw [find]
    exact yields_token hs (.otherToken hpos hholds)
  | noToken hpos =>
    intro fuel _
    rw [find]
    exact yields_token hs (.noToken hpos)
  | ahead _ hstarts =>
    intro fuel _
    rw [find, meets_placeOf _ hs, hstarts]
    exact yields_pure _
  | aheadStop _ hstarts =>
    intro fuel _
    rw [find, meets_placeOf _ hs, hstarts]
    exact yields_pure _
  | notAhead _ hstarts =>
    intro fuel _
    rw [find, meets_placeOf _ hs, hstarts]
    exact yields_pure _
  | notAheadStop _ hstarts =>
    intro fuel _
    rw [find, meets_placeOf _ hs, hstarts]
    exact yields_pure _
  | seqNil =>
    intro sofar fuel _
    rw [findSeq, gathered_stop]
    exact yields_pure _
  | seqStop hlt hpart ih =>
    intro sofar fuel hfuel
    rw [findSeq]
    exact ((ih hs).yields hpart.pos (by omega)).bind (yields_pure _)
  | seqBreak hlt hpart _ ih ihrest =>
    intro sofar fuel hfuel
    have hpos := hpart.pos
    obtain ⟨fuel, rfl⟩ : ∃ fewer, fuel = fewer + 1 := ⟨fuel - 1, by omega⟩
    rw [findSeq]
    exact ((ih hs).yields hpos (by omega)).bind (ihrest (hpart.suffix.trans hs) _ _ (by omega))
  | seqNext hlt hpart _ ih ihrest =>
    intro sofar fuel hfuel
    have hpos := hpart.pos
    obtain ⟨fuel, rfl⟩ : ∃ fewer, fuel = fewer + 1 := ⟨fuel - 1, by omega⟩
    rw [findSeq, ← gathered_append]
    exact ((ih hs).yields hpos (by omega)).bind (ihrest (hpart.suffix.trans hs) _ _ (by omega))
  | firstNil =>
    intro fuel _
    rw [findFirst]
    exact yields_pure _
  | firstFit hlt hchoice ih =>
    intro fuel hfuel
    rw [findFirst]
    exact ((ih hs).yields hchoice.pos (by omega)).bind (yields_pure _)
  | firstNext hlt hchoice _ ih ihrest =>
    intro fuel hfuel
    have hpos := hchoice.pos
    obtain ⟨fuel, rfl⟩ : ∃ fewer, fuel = fewer + 1 := ⟨fuel - 1, by omega⟩
    rw [findFirst]
    exact ((ih hs).yields hpos (by omega)).bind (ihrest hs _ (by omega))
  | manyStop hlt hpart ih =>
    intro sofar fuel hfuel
    rw [findMany, gathered_stop]
    exact ((ih hs).yields hpart.pos (by omega)).bind (yields_pure _)
  | manyIdle hlt hpart hidle ih =>
    intro sofar fuel hfuel
    rw [findMany, gathered_stop]
    refine ((ih hs).yields hpart.pos (by omega)).bind ?_
    show Yields body tokens (if placeOf tokens _ ≤ placeOf tokens _ then _ else _) _
    rw [if_pos ((placeOf_le_placeOf hs).2 hidle)]
    exact yields_pure _
  | manyNext hlt hpart hshort _ ih ihrest =>
    intro sofar fuel hfuel
    have hpos := hpart.pos
    obtain ⟨fuel, rfl⟩ : ∃ fewer, fuel = fewer + 1 := ⟨fuel - 1, by omega⟩
    rw [findMany, ← gathered_append]
    refine ((ih hs).yields hpos (by omega)).bind ?_
    show Yields body tokens (if placeOf tokens _ ≤ placeOf tokens _ then _ else _) _
    rw [if_neg fun hle => absurd ((placeOf_le_placeOf hs).1 hle) (Nat.not_le_of_lt hshort)]
    exact ihrest (hpart.suffix.trans hs) _ _ (by omega)
  | optionStop hlt hpart ih =>
    intro fuel hfuel
    rw [find]
    exact ((ih hs).yields hpart.pos (by omega)).bind (yields_pure _)
  | optionFit hlt hpart ih =>
    intro fuel hfuel
    rw [find]
    exact ((ih hs).yields hpart.pos (by omega)).bind (yields_pure _)
  | ruleStop hlt hbody ih =>
    intro fuel hfuel
    exact yields_rule hs (.ruleStop hlt hbody) rfl ((ih hs).yields hbody.pos (by omega))
  | ruleFit hlt hbody ih =>
    intro fuel hfuel
    exact yields_rule hs (.ruleFit hlt hbody) rfl ((ih hs).yields hbody.pos (by omega))

/-- **The reader finds what its pattern reads**, and what it remembers stays right. -/
theorem Reads.yields (h : Reads body d pattern s outcome) (hs : s <:+ tokens.toList)
    (hfuel : 2 * d ≤ fuel) :
    Yields body tokens (find body tokens fuel pattern (placeOf tokens s))
      (foundOf tokens outcome) :=
  (h.finds hs).yields h.pos hfuel

/-- The reader starts with nothing remembered, and with enough fuel. -/
theorem exists_run_of_reads (h : Reads body d (.rule r) tokens.toList outcome)
    (hdepth : d ≤ 500 * (tokens.size + 2)) :
    ∃ next, (find body tokens (1000 * (tokens.size + 2)) (.rule r) 0).run {} =
      (foundOf tokens outcome, next) := by
  have hplace : placeOf tokens tokens.toList = 0 := by simp [placeOf]
  have hstart : Remembers body tokens {} := by
    intro r s found _ hknown
    simp at hknown
  have hfuel : 2 * d ≤ 1000 * (tokens.size + 2) := by omega
  obtain ⟨next, hrun, -⟩ := h.yields List.suffix_rfl hfuel {} hstart
  rw [hplace] at hrun
  exact ⟨next, hrun⟩

/-- **A text is read by what its first rule reads.** -/
theorem read_eq_ok {tree : Tree ρ} (h : Reads body d (.rule r) tokens.toList (some ([tree], rest)))
    (hdepth : d ≤ 500 * (tokens.size + 2)) : read body r tokens = .ok tree := by
  obtain ⟨next, hrun⟩ := exists_run_of_reads h hdepth
  rw [read, hrun]
  rfl

/-- A text that its first rule makes nothing of is refused. -/
theorem read_eq_error (h : Reads body d (.rule r) tokens.toList none)
    (hdepth : d ≤ 500 * (tokens.size + 2)) : ∃ expected, read body r tokens = .error expected := by
  obtain ⟨next, hrun⟩ := exists_run_of_reads h hdepth
  rw [read, hrun]
  exact ⟨_, rfl⟩

end

/-! ## A look at one token -/

/-- What is seen of a pattern by a look at the next token. -/
inductive Glance where
  /-- The pattern does not fit. -/
  | stops
  /-- The pattern takes nothing. -/
  | passes
  | unknown
  deriving DecidableEq, Repr

section

variable {ρ : Type} {body : ρ → Pattern ρ} {d : Nat} {pattern : Pattern ρ}
  {choices : List (Pattern ρ)} {here : Token} {s : List Token} {outcome : Outcome ρ}

/-- Looks at a pattern and the next token, as deep as `depth`. -/
def glance (body : ρ → Pattern ρ) (here : Token) : (depth : Nat) → Pattern ρ → Glance
  | 0, _ => .unknown
  | depth + 1, pattern =>
    match pattern with
    | .token t => if t.holds here then .unknown else .stops
    | .ahead tests => if tests.any fun t => t.holds here then .passes else .stops
    | .notAhead tests => if tests.any fun t => t.holds here then .stops else .passes
    | .seq [] => .passes
    | .seq (part :: parts) =>
      match glance body here depth part with
      | .passes => glance body here depth (.seq parts)
      | seen => seen
    | .first [] => .stops
    | .first (choice :: choices) =>
      match glance body here depth choice with
      | .stops => glance body here depth (.first choices)
      | seen => seen
    | .many part => if glance body here depth part = .unknown then .unknown else .passes
    | .option part => if glance body here depth part = .unknown then .unknown else .passes
    | .rule r => if glance body here depth (body r) = .stops then .stops else .unknown

/-- What a look says of a reading. -/
def Glance.Says (body : ρ → Pattern ρ) (depth : Nat) (pattern : Pattern ρ) (s : List Token) :
    Glance → Prop
  | .stops => Reads body depth pattern s none
  | .passes => Reads body depth pattern s (some ([], s))
  | .unknown => True

/-- **What is seen by a look at one token** holds whatever comes behind it. -/
theorem says_glance (body : ρ → Pattern ρ) (here : Token) (s : List Token) (depth : Nat)
    (pattern : Pattern ρ) :
    (glance body here depth pattern).Says body depth pattern (here :: s) := by
  induction depth generalizing pattern with
  | zero => trivial
  | succ depth ih =>
    have hpos : 0 < depth + 1 := Nat.succ_pos depth
    have hlt : depth < depth + 1 := Nat.lt_succ_self depth
    cases pattern with
    | token t =>
      rw [glance]
      split
      · trivial
      · exact .otherToken hpos (eq_false_of_ne_true ‹_›)
    | ahead tests =>
      rw [glance]
      split
      · exact .ahead hpos ‹_›
      · exact .aheadStop hpos (eq_false_of_ne_true ‹_›)
    | notAhead tests =>
      rw [glance]
      split
      · exact .notAheadStop hpos ‹_›
      · exact .notAhead hpos (eq_false_of_ne_true ‹_›)
    | seq parts =>
      cases parts with
      | nil => exact .seqNil hpos
      | cons part parts =>
        have hpart := ih part
        have hrest := ih (.seq parts)
        rw [glance]
        cases hseen : glance body here depth part with
        | stops =>
          rw [hseen] at hpart
          exact .seqStop hlt hpart
        | passes =>
          rw [hseen] at hpart
          cases hothers : glance body here depth (.seq parts) with
          | stops =>
            rw [hothers] at hrest
            exact .seqBreak hlt hpart hrest
          | passes =>
            rw [hothers] at hrest
            exact .seqNext hlt hpart hrest
          | unknown => trivial
        | unknown => trivial
    | first choices =>
      cases choices with
      | nil => exact .firstNil hpos
      | cons choice choices =>
        have hchoice := ih choice
        have hrest := ih (.first choices)
        rw [glance]
        cases hseen : glance body here depth choice with
        | stops =>
          rw [hseen] at hchoice
          cases hothers : glance body here depth (.first choices) with
          | stops =>
            rw [hothers] at hrest
            exact .firstNext hlt hchoice hrest
          | passes =>
            rw [hothers] at hrest
            exact .firstNext hlt hchoice hrest
          | unknown => trivial
        | passes =>
          rw [hseen] at hchoice
          exact .firstFit hlt hchoice
        | unknown => trivial
    | many part =>
      have hpart := ih part
      rw [glance]
      cases hseen : glance body here depth part with
      | stops =>
        rw [hseen] at hpart
        exact .manyStop hlt hpart
      | passes =>
        rw [hseen] at hpart
        exact .manyIdle hlt hpart (Nat.le_refl _)
      | unknown => trivial
    | option part =>
      have hpart := ih part
      rw [glance]
      cases hseen : glance body here depth part with
      | stops =>
        rw [hseen] at hpart
        exact .optionStop hlt hpart
      | passes =>
        rw [hseen] at hpart
        exact .optionFit hlt hpart
      | unknown => trivial
    | rule r =>
      have hbody := ih (body r)
      rw [glance]
      cases hseen : glance body here depth (body r) with
      | stops =>
        rw [hseen] at hbody
        exact .ruleStop hlt hbody
      | passes => trivial
      | unknown => trivial

theorem Reads.of_stops (h : glance body here d pattern = .stops) :
    Reads body d pattern (here :: s) none := by
  have hsays := says_glance body here s d pattern
  rwa [h] at hsays

theorem Reads.of_passes (h : glance body here d pattern = .passes) :
    Reads body d pattern (here :: s) (some ([], here :: s)) := by
  have hsays := says_glance body here s d pattern
  rwa [h] at hsays

/-- Choices that are seen to stop are passed over. -/
theorem Reads.skip {n g : Nat}
    (hstops : ∀ other ∈ choices.take n, glance body here g other = .stops) (hdepth : g ≤ d)
    (hrest : Reads body d (.first (choices.drop n)) (here :: s) outcome) :
    Reads body (d + n) (.first choices) (here :: s) outcome := by
  induction n generalizing choices with
  | zero => exact hrest
  | succ n ih =>
    cases choices with
    | nil => exact hrest.mono (by omega)
    | cons other others =>
      rw [List.take_succ_cons] at hstops
      have hother : Reads body (d + n) other (here :: s) none :=
        (Reads.of_stops (hstops other List.mem_cons_self)).mono (by omega)
      exact .firstNext (by omega) hother
        (ih (fun one hone => hstops one (List.mem_cons_of_mem _ hone)) hrest)

end

end SampleTypes.Source.Pattern
