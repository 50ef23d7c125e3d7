import SampleTypes.Proofs.Files.Trees

/-!
# Writing files

Making directories adds to a tree and takes nothing away. Writing a text to a path puts a file at
the place that the path leads to, and leaves everything else as it is; a special file keeps
nothing. So a text that has been written is still there when texts have been written to other
names in the same directory.

## Main results

* `kept_makeDirectories`: making directories only adds.
* `writeText_eq_ok`: what writing a text does.
* `Holds.of_writeText`, `Holds.of_writeText_of_ne`: what has been written, and what is written
  elsewhere.
-/

namespace SampleTypes.Files.FileSystem

section

variable {fs before after made : FileSystem} {p q : Path} {here start place parts : List String}
  {name other : String} {found : Option Entry} {e : Entry} {octets : ByteArray} {s t : String}
  {P : List String → Prop}

/-! ## Places -/

theorem entryAt?_of_place (h : fs.place p = .ok (place, found)) : fs.entryAt? place = found := by
  unfold FileSystem.place at h
  split at h
  · cases h
    rfl
  · rename_i last hlast
    cases hfollow : fs.follow (fs.origin p) p.parts.dropLast with
    | error dead =>
      rw [hfollow] at h
      cases h
    | ok here =>
      simp only [hfollow, bind, Except.bind] at h
      split at h
      case h_2 => cases h
      case h_3 => cases h
      rename_i entries hentries
      split at h
      · cases h
        rfl
      · cases h
        exact entryAt?_append_singleton hentries last

/-- A new entry under a name stands in the directory that the rest of the path leads to. -/
theorem place_of_parts (h : fs.place p = .ok (place, found)) (hparts : p.parts = parts ++ [name])
    (hname : name ≠ "..") :
    ∃ here, fs.follow (fs.origin p) parts = .ok here ∧ place = here ++ [name] ∧
      fs.shellAt? here = some (.directory []) := by
  unfold FileSystem.place at h
  rw [hparts, List.getLast?_concat, List.dropLast_concat] at h
  cases hfollow : fs.follow (fs.origin p) parts with
  | error dead =>
    simp only [hfollow] at h
    cases h
  | ok here =>
    simp only [hfollow, bind, Except.bind, hname, if_false] at h
    split at h
    case h_2 => cases h
    case h_3 => cases h
    rename_i entries hentries
    cases h
    exact ⟨here, rfl, rfl, shellAt?_eq_directory.2 ⟨entries, hentries⟩⟩

/-! ## Where paths lead -/

theorem follow_append (fs : FileSystem) (front back : List String) (here : List String) :
    fs.follow here (front ++ back) =
      (fs.follow here front).bind fun there => fs.follow there back := by
  induction front generalizing here with
  | nil => rfl
  | cons part rest ih =>
    rw [List.cons_append, FileSystem.follow, FileSystem.follow]
    split
    · split
      · exact ih here.dropLast
      · split
        · exact ih (here ++ [part])
        · rfl
    · rfl
    · rfl

theorem follow_singleton (hname : name ≠ "..") :
    fs.follow here [name] = .ok place ↔
      place = here ++ [name] ∧ (fs.entryAt? (here ++ [name])).isSome := by
  unfold FileSystem.follow
  constructor
  · intro h
    split at h
    case h_2 => cases h
    case h_3 => cases h
    rename_i entries hentries
    rw [if_neg hname] at h
    split at h
    case h_2 => cases h
    rename_i found hfound
    cases h
    rw [entryAt?_append_singleton hentries, hfound]
    exact ⟨rfl, rfl⟩
  · rintro ⟨rfl, hsome⟩
    obtain ⟨entries, hentries⟩ := directory_of_isSome hsome
    rw [entryAt?_append_singleton hentries] at hsome
    obtain ⟨found, hfound⟩ := Option.isSome_iff_exists.1 hsome
    rw [hentries]
    dsimp only
    rw [if_neg hname, hfound]
    rfl

/-- **What stands under a name**: the entry of that name in the directory that the rest of the path
leads to. -/
theorem find_eq_ok (hparts : p.parts = parts ++ [name]) (hname : name ≠ "..") :
    fs.find p = .ok e ↔
      ∃ here, fs.follow (fs.origin p) parts = .ok here ∧ fs.entryAt? (here ++ [name]) = some e := by
  have hsplit : fs.follow (fs.origin p) p.parts =
      (fs.follow (fs.origin p) parts).bind fun there => fs.follow there [name] := by
    rw [hparts, follow_append]
  unfold FileSystem.find
  rw [hsplit]
  constructor
  · intro h
    cases hfollow : fs.follow (fs.origin p) parts with
    | error dead =>
      rw [hfollow] at h
      cases h
    | ok here =>
      rw [hfollow] at h
      cases hlast : fs.follow here [name] with
      | error dead =>
        simp only [bind, Except.bind, hlast] at h
        cases h
      | ok place =>
        simp only [bind, Except.bind, hlast] at h
        split at h
        case h_2 => cases h
        rename_i entry hentry
        cases h
        rw [((follow_singleton hname).1 hlast).1] at hentry
        exact ⟨here, rfl, hentry⟩
  · rintro ⟨here, hfollow, hentry⟩
    have hlast : fs.follow here [name] = .ok (here ++ [name]) :=
      (follow_singleton hname).2 ⟨rfl, by rw [hentry]; rfl⟩
    rw [hfollow]
    simp only [bind, Except.bind, hlast, hentry]
    rfl

/-! ## Making directories -/

theorem kept_makeDirectory (h : fs.makeDirectory p = .ok made) : Kept P fs made := by
  unfold FileSystem.makeDirectory at h
  split at h
  case h_2 => cases h
  case h_3 => cases h
  rename_i place hplace
  cases h
  have hnone : fs.shellAt? place = none := by
    rw [shellAt?, entryAt?_of_place hplace]
    rfl
  refine ⟨rfl, fun path e he => Or.inl ?_⟩
  have hne : path ≠ place := by
    rintro rfl
    rw [hnone] at he
    cases he
  rw [shellAt?_put_of_ne rfl (by simp [hnone]) hne]
  exact he

/-- **Making directories only adds**, whether it comes to its end or not. -/
theorem kept_makeDirectories (fs : FileSystem) (p : Path) (steps : Nat) :
    Kept P fs (fs.makeDirectories p steps).1 := by
  induction steps generalizing p with
  | zero => exact Kept.refl P fs
  | succ steps ih =>
    unfold FileSystem.makeDirectories
    split
    · rename_i made hmade
      exact kept_makeDirectory hmade
    · split
      · exact Kept.refl P fs
      · have habove := ih p.parent
        split
        · rename_i above cause heq
          rw [heq] at habove
          exact habove
        · rename_i above heq
          rw [heq] at habove
          split
          · rename_i made hmade
            exact habove.trans (kept_makeDirectory hmade)
          · exact habove
    · exact Kept.refl P fs

/-! ## Writing -/

/-- A file that is put into a directory, anew or in place of a file, leaves everything else. -/
theorem kept_put (hdirectory : fs.shellAt? here = some (.directory []))
    (hfound : ∀ e, fs.entryAt? (here ++ [name]) = some e → ∃ old, e = .file old)
    (octets : ByteArray) :
    Kept (· = here ++ [name]) fs (fs.put (here ++ [name]) (.file octets)) ∧
      (fs.put (here ++ [name]) (.file octets)).entryAt? (here ++ [name]) =
        some (.file octets) := by
  have hself := shellAt?_put_self hdirectory name (rfl : (Entry.file octets).shell = _)
  have hfile : ∀ e, fs.shellAt? (here ++ [name]) = some e → ∃ old, e = .file old := by
    intro e he
    obtain ⟨found, hentry, rfl⟩ := Option.map_eq_some_iff.1 he
    obtain ⟨old, rfl⟩ := hfound found hentry
    exact ⟨old, rfl⟩
  have hold : fs.shellAt? (here ++ [name]) ≠ some (.directory []) := by
    intro hdirectory
    obtain ⟨old, hfile⟩ := hfile _ hdirectory
    cases hfile
  refine ⟨⟨rfl, fun path e he => ?_⟩, entryAt?_of_shellAt? hself Entry.noConfusion⟩
  by_cases hpath : path = here ++ [name]
  · subst hpath
    exact Or.inr ⟨rfl, hfile e he, octets, hself⟩
  · left
    rw [shellAt?_put_of_ne rfl hold hpath]
    exact he

/-- **Writing octets** under a name in a directory: there is a file with them, or a special file as
before, and everything else is left alone. -/
theorem writeOctets_eq_ok (h : fs.writeOctets p octets = .ok after)
    (hparts : p.parts = parts ++ [name]) (hname : name ≠ "..") :
    ∃ here, fs.follow (fs.origin p) parts = .ok here ∧ Kept (· = here ++ [name]) fs after ∧
      (after.entryAt? (here ++ [name]) = some (.file octets) ∨
        after.entryAt? (here ++ [name]) = some .sink) := by
  unfold FileSystem.writeOctets at h
  split at h
  case h_4 => cases h
  case h_5 => cases h
  case h_3 place hplace =>
    obtain ⟨here, hfollow, rfl, -⟩ := place_of_parts hplace hparts hname
    cases h
    exact ⟨here, hfollow, Kept.refl _ fs, Or.inr (entryAt?_of_place hplace)⟩
  case h_1 place hplace =>
    obtain ⟨here, hfollow, rfl, hdirectory⟩ := place_of_parts hplace hparts hname
    cases h
    obtain ⟨hkept, hwritten⟩ := kept_put hdirectory (fun e he => by
      rw [entryAt?_of_place hplace] at he
      cases he) octets
    exact ⟨here, hfollow, hkept, Or.inl hwritten⟩
  case h_2 place old hplace =>
    obtain ⟨here, hfollow, rfl, hdirectory⟩ := place_of_parts hplace hparts hname
    cases h
    obtain ⟨hkept, hwritten⟩ := kept_put hdirectory (fun e he => by
      rw [entryAt?_of_place hplace] at he
      cases he
      exact ⟨old, rfl⟩) octets
    exact ⟨here, hfollow, hkept, Or.inl hwritten⟩

/-- **Writing a text** makes the directories above the file, and then the file. -/
theorem writeText_eq_ok (h : fs.writeText p s = (after, .ok ()))
    (hparts : p.parts = parts ++ [name]) (hname : name ≠ "..") :
    ∃ here, after.follow (after.origin p) parts = .ok here ∧ Kept (· = here ++ [name]) fs after ∧
      (after.entryAt? (here ++ [name]) = some (.file s.toUTF8) ∨
        after.entryAt? (here ++ [name]) = some .sink) := by
  unfold FileSystem.writeText at h
  split at h
  · cases h
  · split at h
    · cases h
    · rename_i made hmade
      split at h
      · cases h
      · split at h
        case h_2 => cases h
        rename_i written hwritten
        cases h
        obtain ⟨here, hfollow, hkept, hentry⟩ := writeOctets_eq_ok hwritten hparts hname
        have hmaking := kept_makeDirectories (P := (· = here ++ [name])) fs p.parent
          (p.parts.length + 1)
        rw [hmade] at hmaking
        refine ⟨here, ?_, hmaking.trans hkept, hentry⟩
        rw [hkept.origin]
        exact hkept.follow hfollow

/-! ## Texts in files -/

/-- A text is in the file at a path, unless a special file stands there, which keeps nothing. -/
def Holds (fs : FileSystem) (p : Path) (s : String) : Prop :=
  fs.find p = .ok (.file s.toUTF8) ∨ fs.find p = .ok .sink

/-- Whether a text is in the file at a path. -/
def isHeld (fs : FileSystem) (p : Path) (s : String) : Bool :=
  match fs.find p with
  | .ok (.file octets) => octets.data = s.toUTF8.data
  | .ok .sink => true
  | _ => false

theorem isHeld_iff : fs.isHeld p s = true ↔ fs.Holds p s := by
  unfold isHeld Holds
  rcases fs.find p with dead | (octets | _ | entries) <;> simp [ByteArray.ext_iff]

instance (fs : FileSystem) (p : Path) (s : String) : Decidable (fs.Holds p s) :=
  decidable_of_iff _ isHeld_iff

/-- What has been written is there. -/
theorem Holds.of_writeText (h : fs.writeText p s = (after, .ok ()))
    (hparts : p.parts = parts ++ [name]) (hname : name ≠ "..") : after.Holds p s := by
  obtain ⟨here, hfollow, -, hentry⟩ := writeText_eq_ok h hparts hname
  exact hentry.imp (fun hfile => (find_eq_ok hparts hname).2 ⟨here, hfollow, hfile⟩)
    fun hsink => (find_eq_ok hparts hname).2 ⟨here, hfollow, hsink⟩

/-- **What has been written stays** while other names in the same directory are written. -/
theorem Holds.of_writeText_of_ne (hholds : fs.Holds p s) (h : fs.writeText q t = (after, .ok ()))
    (hroot : q.root = p.root) (hparts : p.parts = parts ++ [name]) (hname : name ≠ "..")
    (hother : q.parts = parts ++ [other]) (hback : other ≠ "..") (hne : name ≠ other) :
    after.Holds p s := by
  obtain ⟨there, hthere, hkept, -⟩ := writeText_eq_ok h hother hback
  have horigin : after.origin q = fs.origin p := by
    rw [hkept.origin, FileSystem.origin, FileSystem.origin, Path.isAbsolute, Path.isAbsolute, hroot]
  have hstays : ∀ e : Entry, e.shell = e → e ≠ .directory [] → fs.find p = .ok e →
      after.find p = .ok e := by
    intro e he hleaf hfind
    obtain ⟨here, hfollow, hentry⟩ := (find_eq_ok hparts hname).1 hfind
    -- Both paths lead to the same directory, so the places differ in the names.
    have hsame : here = there := by
      have hfollow' := hkept.follow hfollow
      rw [← horigin, hthere] at hfollow'
      cases hfollow'
      rfl
    subst hsame
    have hplace : here ++ [name] ≠ here ++ [other] := fun heq =>
      hne (List.singleton_inj.1 (List.append_cancel_left heq))
    have hshell : fs.shellAt? (here ++ [name]) = some e := by
      rw [shellAt?, hentry, Option.map_some, he]
    refine (find_eq_ok hparts hname).2 ⟨here, ?_, ?_⟩
    · rw [hkept.origin]
      exact hkept.follow hfollow
    · exact entryAt?_of_shellAt? (hkept.shellAt? hshell hplace) hleaf
  exact hholds.imp (hstays _ rfl Entry.noConfusion) (hstays _ rfl Entry.noConfusion)

end

end SampleTypes.Files.FileSystem
