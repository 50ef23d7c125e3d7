import Mathlib.Data.List.Basic
import SampleTypes.Source.Entities

/-!
# Which classes are entities

All class statements of a source file can be listed in order, each with what is around it. An entity
class is one that stands in blocks only, in no other class and in no function, and that has a base
going by the right name: the name itself, an attribute of that name, or a subscript of such a base.

The collector finds exactly those. The induction is on the statements, for any count of classes around
them, and what carries it is that the count is what it was behind every statement: inside of a class
the count is not zero, so nothing is kept there.

One name is no name. An expression that goes by none, such as a call, is compared as the empty text,
and so counts as derived from the empty base.

## Main results

* `goesBy_iff`: which expressions go by a name.
* `names_visit`: what a walk over a statement adds.
* `entities_are_derived_classes_iff`: the classes that are found.
* `class_of_call_is_found`: a class that is found without being derived from the base.
-/

namespace SampleTypes.Source

/-! ## Bases -/

/-- A base goes by a name: it is the name, or an attribute access that ends in it, or a subscript of
such a base. Parentheses change nothing. -/
inductive Expr.Names (base : String) : Expr → Prop where
  | itself : Names base (.name base)
  | ending (value : Expr) : Names base (.member value base)
  | subscript {value : Expr} (h : Names base value) : Names base (.subscript value)
  | group {inner : Expr} (h : Names base inner) : Names base (.group inner)

/-- A base that goes by no name at all. -/
def Expr.Nameless (e : Expr) : Prop :=
  ∀ base, ¬ e.Names base

section

variable {base : String} {e : Expr}

theorem Expr.names_iff : e.Names base ↔ e.baseName? = some base := by
  constructor
  · intro h
    induction h with
    | itself => rfl
    | ending value => rfl
    | subscript _ ih => exact ih
    | group _ ih => exact ih
  · intro h
    induction e with
    | name text =>
      cases h
      exact .itself
    | member value part _ =>
      cases h
      exact .ending value
    | subscript value ih => exact .subscript (ih h)
    | group inner ih => exact .group (ih h)
    | other => cases h

theorem Expr.nameless_iff : e.Nameless ↔ e.baseName? = none := by
  simp only [Nameless, names_iff, Option.eq_none_iff_forall_ne_some]

instance (base : String) (e : Expr) : Decidable (e.Names base) :=
  decidable_of_iff' _ Expr.names_iff

instance (e : Expr) : Decidable e.Nameless :=
  decidable_of_iff' _ Expr.nameless_iff

/-- **Which expressions go by a name.** The empty name takes those that have none. -/
theorem Expr.goesBy_iff : e.goesBy base = true ↔ e.Names base ∨ base = "" ∧ e.Nameless := by
  rw [goesBy, decide_eq_true_iff, names_iff, nameless_iff]
  cases e.baseName? with
  | none => simp [eq_comm]
  | some name => simp

end

/-! ## Class statements -/

/-- What a statement can stand in. -/
inductive Surrounding where
  /-- A block of a condition, a loop or the like. -/
  | block
  | function
  | classBody
  deriving DecidableEq, Repr

/-- A class statement with what is around it, from the outside in. -/
structure ClassStatement where
  around : List Surrounding
  name : String
  /-- The positional bases, and of one that is unpacked the value. -/
  bases : List Expr
  deriving Repr

namespace ClassStatement

/-- The class statement inside of something more. -/
def within (outside : Surrounding) (c : ClassStatement) : ClassStatement :=
  { c with around := outside :: c.around }

/-- The class statement stands in no other class and in no function. -/
def IsOpen (c : ClassStatement) : Prop :=
  ∀ outside ∈ c.around, outside = .block

/-- A positional base goes by the name. -/
def DerivesFrom (base : String) (c : ClassStatement) : Prop :=
  ∃ e ∈ c.bases, e.Names base

/-- A positional base goes by no name. -/
def HasNamelessBase (c : ClassStatement) : Prop :=
  ∃ e ∈ c.bases, e.Nameless

instance (c : ClassStatement) : Decidable c.IsOpen :=
  inferInstanceAs (Decidable (∀ outside ∈ c.around, outside = .block))

instance (base : String) (c : ClassStatement) : Decidable (c.DerivesFrom base) :=
  inferInstanceAs (Decidable (∃ e ∈ c.bases, e.Names base))

instance (c : ClassStatement) : Decidable c.HasNamelessBase :=
  inferInstanceAs (Decidable (∃ e ∈ c.bases, e.Nameless))

theorem isOpen_within {outside : Surrounding} {c : ClassStatement} :
    (c.within outside).IsOpen ↔ outside = .block ∧ c.IsOpen :=
  List.forall_mem_cons

end ClassStatement

mutual

/-- The class statements of a statement, in order. -/
def classesOf : Statement → List ClassStatement
  | .simple => []
  | .blocks bodies => (classesOfBodies bodies).map (.within .block)
  | .function body => (classesOfBody body).map (.within .function)
  | .classBlock name bases body =>
    ⟨[], name, bases⟩ :: (classesOfBody body).map (.within .classBody)

/-- The class statements of a block, in order. -/
def classesOfBody : List Statement → List ClassStatement
  | [] => []
  | s :: rest => classesOf s ++ classesOfBody rest

/-- The class statements of several blocks, in order. -/
def classesOfBodies : List (List Statement) → List ClassStatement
  | [] => []
  | body :: rest => classesOfBody body ++ classesOfBodies rest

end

/-- The class statements in the open whose bases go by the name. -/
def derivedClasses (base : String) (body : List Statement) : List ClassStatement :=
  (classesOfBody body).filter fun c => c.IsOpen ∧ c.DerivesFrom base

/-! ## The walk -/

namespace Collector

/-- A class statement is kept by a collector that is inside of `depth` classes. -/
def Keeps (base : String) (depth : Nat) (c : ClassStatement) : Prop :=
  depth = 0 ∧ c.IsOpen ∧ c.bases.any (Expr.goesBy base)

instance (base : String) (depth : Nat) (c : ClassStatement) : Decidable (Keeps base depth c) :=
  inferInstanceAs (Decidable (_ ∧ _ ∧ _))

/-- The names that are kept of some class statements. -/
def kept (base : String) (depth : Nat) (classes : List ClassStatement) : List String :=
  (classes.filter fun c => Keeps base depth c).map ClassStatement.name

section

variable (base : String) (depth : Nat) (classes others : List ClassStatement)

theorem kept_append : kept base depth (classes ++ others) =
    kept base depth classes ++ kept base depth others := by
  rw [kept, List.filter_append, List.map_append]
  rfl

/-- Nothing is kept inside of a class. -/
theorem kept_inside : kept base (depth + 1) classes = [] := by
  simp [kept, Keeps]

/-- A block is no obstacle. -/
theorem kept_within_block :
    kept base depth (classes.map (.within .block)) = kept base depth classes := by
  have hkeeps : ∀ c, Keeps base depth (.within .block c) ↔ Keeps base depth c := by
    intro c
    rw [Keeps, ClassStatement.isOpen_within]
    exact and_congr_right' (and_congr_left' (and_iff_right rfl))
  rw [kept, List.filter_map, List.map_map]
  simp only [Function.comp_def, hkeeps]
  rfl

/-- What stands in a class or a function is not kept outside of it either. -/
theorem kept_within {outside : Surrounding} (h : outside ≠ .block) :
    kept base depth (classes.map (.within outside)) = [] := by
  have hkeeps : ∀ c, ¬ Keeps base depth (.within outside c) :=
    fun c hkeeps => h (ClassStatement.isOpen_within.1 hkeeps.2.1).1
  rw [kept, List.filter_map, List.map_map]
  simp [Function.comp_def, hkeeps]

end

/-- A class statement that is met where no class is around it stands in the open. -/
theorem names_meet (base name : String) (bases : List Expr) (c : Collector) :
    (c.meet base name bases).names = c.names ++ kept base c.depth [⟨[], name, bases⟩] := by
  have hopen : ClassStatement.IsOpen ⟨[], name, bases⟩ := nofun
  have hkeeps : Keeps base c.depth ⟨[], name, bases⟩ ↔
      c.depth = 0 ∧ bases.any (Expr.goesBy base) :=
    and_congr_right' (and_iff_right hopen)
  unfold meet
  split
  · rename_i h
    simp [kept, hkeeps.2 h]
  · rename_i h
    simp [kept, mt hkeeps.1 h]

mutual

/-- **What a walk over a statement adds**: the names of the class statements in it that are kept. -/
theorem names_visit (base : String) (s : Statement) (c : Collector) :
    (visit base s c).names = c.names ++ kept base c.depth (classesOf s) := by
  match s with
  | .simple => simp [visit, classesOf, kept]
  | .function body =>
    rw [visit, classesOf, kept_within base _ _ (by decide), List.append_nil]
  | .blocks bodies =>
    rw [visit, classesOf, kept_within_block, names_visitBodies]
  | .classBlock name bases body =>
    have hbody := names_visitBody base body (c.meet base name bases).enter
    rw [enter, kept_inside, List.append_nil] at hbody
    rw [visit, classesOf, exit, ← List.singleton_append, kept_append,
      kept_within base _ _ (by decide), List.append_nil]
    exact hbody.trans (names_meet base name bases c)

theorem names_visitBody (base : String) (body : List Statement) (c : Collector) :
    (visitBody base body c).names = c.names ++ kept base c.depth (classesOfBody body) := by
  match body with
  | [] => simp [visitBody, classesOfBody, kept]
  | s :: rest =>
    rw [visitBody, classesOfBody, kept_append, names_visitBody, depth_visit, names_visit,
      List.append_assoc]

theorem names_visitBodies (base : String) (bodies : List (List Statement)) (c : Collector) :
    (visitBodies base bodies c).names = c.names ++ kept base c.depth (classesOfBodies bodies) := by
  match bodies with
  | [] => simp [visitBodies, classesOfBodies, kept]
  | body :: rest =>
    rw [visitBodies, classesOfBodies, kept_append, names_visitBodies, depth_visitBody,
      names_visitBody, List.append_assoc]

end

end Collector

/-! ## What is found -/

section

variable {base : String} {c : ClassStatement}

/-- A class statement that is kept in the end. -/
theorem keeps_iff : Collector.Keeps base 0 c ↔
    c.IsOpen ∧ (c.DerivesFrom base ∨ base = "" ∧ c.HasNamelessBase) := by
  have hany : c.bases.any (Expr.goesBy base) = true ↔
      c.DerivesFrom base ∨ base = "" ∧ c.HasNamelessBase := by
    simp only [List.any_eq_true, Expr.goesBy_iff, ClassStatement.DerivesFrom,
      ClassStatement.HasNamelessBase, and_or_left, exists_or]
    refine or_congr_right ⟨?_, ?_⟩
    · rintro ⟨e, he, hbase, hnone⟩
      exact ⟨hbase, e, he, hnone⟩
    · rintro ⟨hbase, e, he, hnone⟩
      exact ⟨e, he, hbase, hnone⟩
  rw [Collector.Keeps, hany]
  exact and_iff_right rfl

/-- **The names that are found**, in order. -/
theorem entityNames_eq (base : String) (body : List Statement) :
    entityNames base body =
      ((classesOfBody body).filter fun c =>
        c.IsOpen ∧ (c.DerivesFrom base ∨ base = "" ∧ c.HasNamelessBase)).map
          ClassStatement.name := by
  rw [entityNames, Collector.names_visitBody, List.nil_append, Collector.kept]
  simp only [keeps_iff]

/-- **When derived classes are all that is found.** A base that is not empty finds no others. -/
theorem entityNames_eq_derived_iff (base : String) (body : List Statement) :
    entityNames base body = (derivedClasses base body).map ClassStatement.name ↔
      base ≠ "" ∨
        ∀ c ∈ classesOfBody body, c.IsOpen → c.HasNamelessBase → c.DerivesFrom base := by
  rw [entityNames_eq]
  constructor
  · intro hnames
    by_cases hbase : base = ""
    -- All derived classes are found, so as many names mean the same classes.
    · have hsub : (derivedClasses base body).Sublist ((classesOfBody body).filter fun c =>
          c.IsOpen ∧ (c.DerivesFrom base ∨ base = "" ∧ c.HasNamelessBase)) := by
        refine List.monotone_filter_right _ fun c hc => ?_
        obtain ⟨hopen, hderives⟩ := of_decide_eq_true hc
        exact decide_eq_true ⟨hopen, Or.inl hderives⟩
      have hlength := congrArg List.length hnames
      rw [List.length_map, List.length_map] at hlength
      have heq := hsub.eq_of_length hlength.symm
      refine Or.inr fun c hc hopen hnone => ?_
      have hfound : c ∈ derivedClasses base body := by
        rw [heq]
        exact List.mem_filter.2 ⟨hc, decide_eq_true ⟨hopen, Or.inr ⟨hbase, hnone⟩⟩⟩
      exact (of_decide_eq_true (List.mem_filter.1 hfound).2).2
    · exact Or.inl hbase
  · intro h
    rw [derivedClasses]
    refine congrArg (List.map ClassStatement.name) (List.filter_congr fun c hc => ?_)
    rw [decide_eq_decide, and_congr_right_iff]
    intro hopen
    refine ⟨?_, Or.inl⟩
    rintro (hderives | ⟨hempty, hnone⟩)
    · exact hderives
    · rcases h with hbase | hall
      · exact absurd hempty hbase
      · exact hall c hc hopen hnone

end

/-- **Which classes are found.** The names are those of the class statements, in order, that stand in
no other class and in no function and have a positional base that goes by the base's name, or, if this
name is empty, by none; and behind every statement the collector is inside of as many classes as
before. So the classes that are found are the derived ones, unless the base is empty and some class in
the open has a base without a name and none by the empty one. -/
theorem entities_are_derived_classes_iff (base : String) (body : List Statement) :
    entityNames base body =
        ((classesOfBody body).filter fun c =>
          c.IsOpen ∧ (c.DerivesFrom base ∨ base = "" ∧ c.HasNamelessBase)).map
            ClassStatement.name ∧
      (∀ (s : Statement) (c : Collector), (Collector.visit base s c).depth = c.depth) ∧
      (entityNames base body = (derivedClasses base body).map ClassStatement.name ↔
        base ≠ "" ∨
          ∀ c ∈ classesOfBody body, c.IsOpen → c.HasNamelessBase → c.DerivesFrom base) :=
  ⟨entityNames_eq base body, Collector.depth_visit base, entityNames_eq_derived_iff base body⟩

/-- The source `class A(f()): pass`. -/
def classOfCall : List Statement := [.classBlock "A" [.other] [.simple]]

/-- A call is no base called by the empty name, and yet its class is found for this name. -/
theorem class_of_call_is_found :
    entityNames "" classOfCall = ["A"] ∧ derivedClasses "" classOfCall = [] := by
  have hderived : (derivedClasses "" classOfCall).length = 0 := by decide
  exact ⟨by decide, List.length_eq_zero_iff.1 hderived⟩

end SampleTypes.Source
