import SampleTypes.Files.FileSystem

/-!
# Trees of files

What putting an entry into a tree does to the other places. Seen from outside, without what is
inside directories, a tree is a function from places to entries, and putting an entry where no
directory stands changes this function at one place. Where a path leads depends on the outsides
only.

## Main results

* `shellAt?_put_self`, `shellAt?_put_of_ne`: putting is an update at one place.
* `Kept`: what a step that only adds and writes files leaves as it is.
* `Kept.follow`: such steps do not move what a path leads to.
-/

namespace SampleTypes.Files

namespace Entry

/-- An entry as it looks from outside: a directory without what is in it. -/
def shell : Entry → Entry
  | .directory _ => .directory []
  | other => other

section

variable {name other : String} {e : Entry} {entries : List (String × Entry)} {path : List String}

theorem eq_directory_of_shell (h : e.shell = .directory []) :
    ∃ entries, e = .directory entries := by
  cases e with
  | directory entries => exact ⟨entries, rfl⟩
  | file octets => cases h
  | sink => cases h

/-- What is no directory is its outside. -/
theorem shell_eq_self (h : e.shell ≠ .directory []) : e.shell = e := by
  cases e with
  | directory entries => exact absurd rfl h
  | file octets => rfl
  | sink => rfl

/-! ## One directory -/

theorem child?_putChild_self (name : String) (e : Entry) (entries : List (String × Entry)) :
    child? name (putChild name e entries) = some e := by
  induction entries with
  | nil => simp [putChild, child?]
  | cons first rest ih =>
    obtain ⟨n, old⟩ := first
    by_cases hname : n = name
    · simp [putChild, child?, hname]
    · simp [putChild, child?, hname, ih]

theorem child?_putChild_of_ne (h : other ≠ name) (e : Entry) (entries : List (String × Entry)) :
    child? other (putChild name e entries) = child? other entries := by
  induction entries with
  | nil => simp [putChild, child?, h.symm]
  | cons first rest ih =>
    obtain ⟨n, old⟩ := first
    by_cases hname : n = name
    · simp [putChild, child?, hname, h.symm]
    · simp [putChild, child?, hname, ih]

/-! ## Paths -/

theorem at?_append (front back : List String) (e : Entry) :
    at? (front ++ back) e = (at? front e).bind (at? back) := by
  induction front generalizing e with
  | nil => rfl
  | cons name rest ih =>
    cases e with
    | directory entries =>
      show (child? name entries).bind (at? (rest ++ back)) =
        ((child? name entries).bind (at? rest)).bind (at? back)
      rw [Option.bind_assoc]
      exact congrArg _ (funext fun e => ih e)
    | file octets => rfl
    | sink => rfl

/-- Behind an entry that is no directory, or an empty one, there is nothing. -/
theorem at?_cons_of_shell (h : e.shell = e) (name : String) (path : List String) :
    at? (name :: path) e = none := by
  cases e with
  | directory entries =>
    cases h
    rfl
  | file octets => rfl
  | sink => rfl

theorem putAt_cons (e : Entry) (name : String) (h : path ≠ []) (entries : List (String × Entry)) :
    putAt e (name :: path) entries =
      match child? name entries with
      | some (.directory inner) => putChild name (.directory (putAt e path inner)) entries
      | _ => entries := by
  cases path with
  | nil => exact absurd rfl h
  | cons next rest => rfl

/-- Putting an entry where no directory stands changes nothing elsewhere. -/
theorem shell_at?_putAt_of_ne (he : e.shell = e) {place : List String}
    (hold : (at? place (.directory entries)).map shell ≠ some (.directory []))
    (hne : path ≠ place) :
    (at? path (.directory (putAt e place entries))).map shell =
      (at? path (.directory entries)).map shell := by
  induction place generalizing entries path with
  | nil => rfl
  | cons name rest ih =>
    cases path with
    | nil => rfl
    | cons start later =>
      show ((child? start (putAt e (name :: rest) entries)).bind (at? later)).map shell =
        ((child? start entries).bind (at? later)).map shell
      by_cases hstart : start = name
      · subst hstart
        have hlater : later ≠ rest := fun heq => hne (heq ▸ rfl)
        by_cases hrest : rest = []
        · -- The place itself: there is nothing behind the old entry, nor behind the new one.
          subst hrest
          obtain ⟨next, others, rfl⟩ := List.exists_cons_of_ne_nil hlater
          have hfront : ∀ found, child? start entries = some found → found.shell = found := by
            intro found hfound
            refine shell_eq_self fun hdirectory => hold ?_
            show ((child? start entries).bind (at? [])).map shell = _
            rw [hfound]
            exact congrArg some hdirectory
          rw [putAt, child?_putChild_self, Option.bind_some, at?_cons_of_shell he]
          cases hfound : child? start entries with
          | none => rfl
          | some found => rw [Option.bind_some, at?_cons_of_shell (hfront found hfound)]
        · rw [putAt_cons e start hrest]
          cases hfound : child? start entries with
          | none => rw [hfound]
          | some found =>
            cases found with
            | directory inner =>
              dsimp only
              rw [child?_putChild_self, Option.bind_some, Option.bind_some]
              refine ih (fun hinner => hold ?_) hlater
              show ((child? start entries).bind (at? rest)).map shell = _
              rw [hfound]
              exact hinner
            | file octets => rw [hfound]
            | sink => rw [hfound]
      · -- Another name in the first directory of the place.
        congr 2
        by_cases hrest : rest = []
        · subst hrest
          exact child?_putChild_of_ne hstart e entries
        · rw [putAt_cons e name hrest]
          split
          · exact child?_putChild_of_ne hstart _ entries
          · rfl

/-- An entry that is put into a directory is there. -/
theorem at?_putAt_self {here : List String}
    (hdirectory : (at? here (.directory entries)).map shell = some (.directory []))
    (e : Entry) (name : String) :
    at? (here ++ [name]) (.directory (putAt e (here ++ [name]) entries)) = some e := by
  induction here generalizing entries with
  | nil =>
    show (child? name (putChild name e entries)).bind (at? []) = some e
    rw [child?_putChild_self]
    rfl
  | cons start rest ih =>
    obtain ⟨last, hlast, hshell⟩ := Option.map_eq_some_iff.1 hdirectory
    obtain ⟨found, hfound, hrest⟩ := Option.bind_eq_some_iff.1 hlast
    have hinner : (at? rest found).map shell = some (.directory []) := by
      rw [hrest]
      exact congrArg some hshell
    -- What leads on to a directory is a directory itself.
    have hopen : ∃ inner, found = .directory inner := by
      cases found with
      | directory inner => exact ⟨inner, rfl⟩
      | file octets => cases rest <;> cases hinner
      | sink => cases rest <;> cases hinner
    obtain ⟨inner, rfl⟩ := hopen
    show (child? start (putAt e (start :: (rest ++ [name])) entries)).bind (at? (rest ++ [name])) =
      some e
    rw [putAt_cons e start (by simp), hfound]
    dsimp only
    rw [child?_putChild_self]
    exact ih hinner

end

end Entry

namespace FileSystem

/-- What stands at a resolved path, seen from outside. -/
def shellAt? (fs : FileSystem) (path : List String) : Option Entry :=
  (fs.entryAt? path).map Entry.shell

section

variable {fs before after last : FileSystem} {here path place parts : List String} {name : String}
  {e : Entry} {entries : List (String × Entry)} {octets : ByteArray} {P : List String → Prop}

theorem entryAt?_of_shellAt? (h : fs.shellAt? path = some e) (he : e ≠ .directory []) :
    fs.entryAt? path = some e := by
  obtain ⟨found, hfound, hshell⟩ := Option.map_eq_some_iff.1 h
  rw [hfound, ← hshell, Entry.shell_eq_self (hshell ▸ he)]

theorem shellAt?_eq_directory :
    fs.shellAt? path = some (.directory []) ↔
      ∃ entries, fs.entryAt? path = some (.directory entries) := by
  constructor
  · intro h
    obtain ⟨found, hfound, hshell⟩ := Option.map_eq_some_iff.1 h
    obtain ⟨entries, rfl⟩ := Entry.eq_directory_of_shell hshell
    exact ⟨entries, hfound⟩
  · rintro ⟨entries, h⟩
    rw [shellAt?, h]
    rfl

/-- The entries of a directory are those one step further. -/
theorem entryAt?_append_singleton (h : fs.entryAt? here = some (.directory entries))
    (name : String) : fs.entryAt? (here ++ [name]) = Entry.child? name entries := by
  rw [entryAt?, Entry.at?_append, ← entryAt?, h]
  exact Option.bind_fun_some (Entry.child? name entries)

/-- Only a directory has entries. -/
theorem directory_of_isSome (h : (fs.entryAt? (here ++ [name])).isSome) :
    ∃ entries, fs.entryAt? here = some (.directory entries) := by
  rw [entryAt?, Entry.at?_append, ← entryAt?] at h
  cases hfound : fs.entryAt? here with
  | none =>
    rw [hfound] at h
    cases h
  | some found =>
    rw [hfound] at h
    cases found with
    | directory entries => exact ⟨entries, rfl⟩
    | file octets => cases h
    | sink => cases h

/-! ## Putting -/

theorem shellAt?_put_of_ne (he : e.shell = e) (hold : fs.shellAt? place ≠ some (.directory []))
    (hne : path ≠ place) : (fs.put place e).shellAt? path = fs.shellAt? path :=
  Entry.shell_at?_putAt_of_ne he hold hne

theorem shellAt?_put_self (hdirectory : fs.shellAt? here = some (.directory [])) (name : String)
    (he : e.shell = e) : (fs.put (here ++ [name]) e).shellAt? (here ++ [name]) = some e := by
  show (Entry.at? _ (.directory (Entry.putAt e _ fs.root))).map Entry.shell = some e
  rw [Entry.at?_putAt_self hdirectory e name]
  exact congrArg some he

/-! ## What stays -/

/-- What stands before stands behind as well, except that a file at a place with `P` may hold
something else. -/
structure Kept (P : List String → Prop) (before after : FileSystem) : Prop where
  working : after.working = before.working
  kept : ∀ path e, before.shellAt? path = some e → after.shellAt? path = some e ∨
    P path ∧ (∃ octets, e = .file octets) ∧ ∃ octets, after.shellAt? path = some (.file octets)

namespace Kept

theorem refl (P : List String → Prop) (fs : FileSystem) : Kept P fs fs :=
  ⟨rfl, fun _ _ h => Or.inl h⟩

theorem trans (hfirst : Kept P before after) (hsecond : Kept P after last) :
    Kept P before last := by
  refine ⟨hsecond.working.trans hfirst.working, fun path e he => ?_⟩
  rcases hfirst.kept path e he with hkept | ⟨hplace, hfile, octets, hwritten⟩
  · exact hsecond.kept path e hkept
  · refine Or.inr ⟨hplace, hfile, ?_⟩
    rcases hsecond.kept path _ hwritten with hkept | ⟨-, -, hagain⟩
    · exact ⟨octets, hkept⟩
    · exact hagain

theorem directory (h : Kept P before after)
    (hdirectory : before.shellAt? path = some (.directory [])) :
    after.shellAt? path = some (.directory []) := by
  rcases h.kept path _ hdirectory with hkept | ⟨-, ⟨octets, hfile⟩, -⟩
  · exact hkept
  · cases hfile

theorem isSome (h : Kept P before after) (hsome : (before.shellAt? path).isSome) :
    (after.shellAt? path).isSome := by
  obtain ⟨e, he⟩ := Option.isSome_iff_exists.1 hsome
  rcases h.kept path e he with hkept | ⟨-, -, octets, hwritten⟩
  · exact Option.isSome_iff_exists.2 ⟨e, hkept⟩
  · exact Option.isSome_iff_exists.2 ⟨_, hwritten⟩

theorem shellAt? (h : Kept P before after) (he : before.shellAt? path = some e) (hout : ¬ P path) :
    after.shellAt? path = some e := by
  rcases h.kept path e he with hkept | ⟨hplace, -⟩
  · exact hkept
  · exact absurd hplace hout

theorem origin (h : Kept P before after) (p : Path) : after.origin p = before.origin p := by
  rw [FileSystem.origin, FileSystem.origin, h.working]

/-- **What a path leads to stays**, because all directories on the way do. -/
theorem follow (h : Kept P before after) (hfollow : before.follow here parts = .ok place) :
    after.follow here parts = .ok place := by
  induction parts generalizing here with
  | nil => exact hfollow
  | cons part rest ih =>
    unfold FileSystem.follow at hfollow ⊢
    split at hfollow
    case h_2 => cases hfollow
    case h_3 => cases hfollow
    rename_i entries hentries
    obtain ⟨others, hothers⟩ :=
      shellAt?_eq_directory.1 (h.directory (shellAt?_eq_directory.2 ⟨entries, hentries⟩))
    rw [hothers]
    dsimp only
    split at hfollow
    · rename_i hback
      rw [if_pos hback]
      exact ih hfollow
    · rename_i hforth
      rw [if_neg hforth]
      split at hfollow
      case h_2 => cases hfollow
      rename_i found hfound
      -- The entry is there before, so there is one behind, whatever it is.
      rw [← entryAt?_append_singleton hentries] at hfound
      have hthere : (after.entryAt? (here ++ [part])).isSome := by
        have hbefore : (before.shellAt? (here ++ [part])).isSome := by
          rw [FileSystem.shellAt?, hfound]
          rfl
        have hafter := h.isSome hbefore
        rw [FileSystem.shellAt?, Option.isSome_map] at hafter
        exact hafter
      obtain ⟨other, hother⟩ := Option.isSome_iff_exists.1 hthere
      rw [entryAt?_append_singleton hothers] at hother
      rw [hother]
      exact ih hfollow

end Kept

end

end FileSystem

end SampleTypes.Files
