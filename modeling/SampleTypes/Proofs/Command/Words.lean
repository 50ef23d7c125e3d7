import SampleTypes.Command.Places
import SampleTypes.Proofs.Loops

/-!
# Paths on the command line

Every path that a command line gives is looked at before anything is done, and one with the
character NUL ends the matter. So a request has none, and neither has the place of its
configuration.

## Main results

* `hasNull_of_ofWords`: the paths of a request.
* `hasNull_configurationPlace`: the place of the configuration.
-/

namespace SampleTypes.Command

open Files (Path)

/-- The paths that the shared options give. -/
def Common.givenPaths (common : Common) : List Path :=
  common.root :: common.config.toList

/-- The paths that a request gives. -/
def Request.givenPaths : Request → List Path
  | .synth common request => common.givenPaths ++ request.sample :: request.output.toList
  | .build common request => common.givenPaths ++ request.outDir.toList
  | .scaffold common request => common.givenPaths ++ request.paths ++ request.output.toList

section

variable {specs : List OptionSpec} {words : List String} {paths : List Path} {p : Path}
  {key : String} {parsed : Parsed} {request : Request}

theorem refuseNull_eq_ok : refuseNull paths = .ok () ↔ ∀ p ∈ paths, p.hasNull = false := by
  unfold refuseNull
  split
  · rename_i hany
    obtain ⟨p, hp, hnull⟩ := List.any_eq_true.1 hany
    constructor
    · nofun
    · intro hall
      rw [hall p hp] at hnull
      cases hnull
  · rename_i hany
    rw [List.any_eq_true] at hany
    refine ⟨fun _ p hp => ?_, fun _ => rfl⟩
    exact Bool.eq_false_iff.2 fun hnull => hany ⟨p, hp, hnull⟩

/-- Words that have been taken apart give no path with NUL. -/
theorem hasNull_path? (h : takeOptions specs words = .ok parsed) (hkey : key ∈ pathKeys)
    (hp : p ∈ (parsed.path? key).toList) : p.hasNull = false := by
  unfold takeOptions at h
  split at h
  · cases h
  · rename_i taken htaken
    obtain ⟨_, hrefuse, h⟩ := Loops.bind_eq_ok.1 h
    cases h
    rw [Option.mem_toList] at hp
    exact refuseNull_eq_ok.1 hrefuse p (List.mem_filterMap.2 ⟨key, hkey, hp⟩)

theorem hasNull_common (h : takeOptions specs words = .ok parsed)
    (hp : p ∈ parsed.common.givenPaths) : p.hasNull = false := by
  rcases List.mem_cons.1 hp with rfl | hp
  · have hkey : "root" ∈ pathKeys := by decide
    show ((parsed.path? "root").getD {}).hasNull = false
    cases hroot : parsed.path? "root" with
    | none => rfl
    | some root => exact hasNull_path? h hkey (Option.mem_toList.2 hroot)
  · exact hasNull_path? h (by decide) hp

theorem hasNull_synthOf (h : synthOf words = .ok request) :
    ∀ p ∈ request.givenPaths, p.hasNull = false := by
  obtain ⟨parsed, hparsed, h⟩ := Loops.bind_eq_ok.1 h
  cases hpositional : parsed.positional.map Path.ofText with
  | nil =>
    rw [hpositional] at h
    cases h
  | cons sample more =>
    rw [hpositional] at h
    obtain ⟨_, hsample, h⟩ := Loops.bind_eq_ok.1 h
    split at h
    · cases h
      intro p hp
      rcases List.mem_append.1 hp with hp | hp
      · exact hasNull_common hparsed hp
      · rcases List.mem_cons.1 hp with rfl | hp
        · exact refuseNull_eq_ok.1 hsample _ (List.mem_singleton_self _)
        · exact hasNull_path? hparsed (by decide) hp
    · cases h

theorem hasNull_buildOf (h : buildOf words = .ok request) :
    ∀ p ∈ request.givenPaths, p.hasNull = false := by
  obtain ⟨parsed, hparsed, h⟩ := Loops.bind_eq_ok.1 h
  split at h
  · cases h
    intro p hp
    rcases List.mem_append.1 hp with hp | hp
    · exact hasNull_common hparsed hp
    · exact hasNull_path? hparsed (by decide) hp
  · cases h

theorem hasNull_scaffoldOf (h : scaffoldOf words = .ok request) :
    ∀ p ∈ request.givenPaths, p.hasNull = false := by
  obtain ⟨parsed, hparsed, h⟩ := Loops.bind_eq_ok.1 h
  obtain ⟨_, hpaths, h⟩ := Loops.bind_eq_ok.1 h
  cases h
  intro p hp
  rcases List.mem_append.1 hp with hp | hp
  · rcases List.mem_append.1 hp with hp | hp
    · exact hasNull_common hparsed hp
    · exact refuseNull_eq_ok.1 hpaths p hp
  · exact hasNull_path? hparsed (by decide) hp

/-- **No path of a request has the character NUL.** -/
theorem hasNull_of_ofWords (h : Request.ofWords words = .ok request) :
    ∀ p ∈ request.givenPaths, p.hasNull = false := by
  have hrequest : ∀ command words, requestOf command words = .ok request →
      ∀ p ∈ request.givenPaths, p.hasNull = false := by
    intro command words h
    unfold requestOf at h
    split at h
    · exact hasNull_synthOf h
    · split at h
      · exact hasNull_buildOf h
      · split at h
        · exact hasNull_scaffoldOf h
        · cases h
  unfold Request.ofWords at h
  split at h
  · exact hrequest _ _ h
  · split at h
    · cases h
    · exact hrequest _ _ h
  · cases h

theorem mem_givenPaths (hp : p ∈ request.common.givenPaths) : p ∈ request.givenPaths := by
  cases request with
  | synth common request => exact List.mem_append_left _ hp
  | build common request => exact List.mem_append_left _ hp
  | scaffold common request => exact List.mem_append_left _ (List.mem_append_left _ hp)

/-- The place of the configuration has none either. -/
theorem hasNull_configurationPlace (h : Request.ofWords words = .ok request) :
    request.configurationPlace.hasNull = false := by
  have hgiven : ∀ p ∈ request.common.givenPaths, p.hasNull = false :=
    fun p hp => hasNull_of_ofWords h p (mem_givenPaths hp)
  unfold Request.configurationPlace Configuration.location
  cases hconfig : request.common.config with
  | some config =>
    exact hgiven config (List.mem_cons_of_mem _ (Option.mem_toList.2 hconfig))
  | none =>
    have hroot := hgiven request.common.root List.mem_cons_self
    have hname : (Path.ofText Configuration.fileName).hasNull = false := by decide
    have hrelative : (Path.ofText Configuration.fileName).isAbsolute = false := by decide
    rw [Option.getD_none, Path.join, if_neg (by rw [hrelative]; exact Bool.false_ne_true)]
    rw [Path.hasNull, List.any_append, Bool.or_eq_false_iff]
    exact ⟨hroot, hname⟩

end

end SampleTypes.Command
