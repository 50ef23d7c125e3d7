import SampleTypes.ClassModule
import SampleTypes.Outline
import SampleTypes.Transport

/-!
# The forms a plan is written in

Three forms: a module of model classes, an outline, and a document for other programs. The first
two are renderers in the narrow sense; the third joins them where output is asked for by name.
-/

namespace SampleTypes

/-- The forms of output. -/
inductive OutputForm where
  | classModule
  | outline
  | json
  deriving DecidableEq, Repr

namespace OutputForm

/-- The name by which a form is asked for. -/
def name : OutputForm → String
  | .classModule => "pydantic"
  | .outline => "outline"
  | .json => "json"

/-- All forms, in the order in which messages list them. -/
def all : List OutputForm := [.classModule, .outline, .json]

/-- The form with this name. -/
def ofName? (name : String) : Option OutputForm :=
  all.find? fun form => form.name = name

/-- The ending of the files that hold a form. -/
def suffix : OutputForm → String
  | .classModule => ".py"
  | .outline => ".txt"
  | .json => ".json"

theorem ofName?_name (form : OutputForm) : ofName? form.name = some form := by
  cases form <;> decide

end OutputForm

/-- A plan in the given form. -/
def Plan.render (form : OutputForm) (plan : Plan) : Except Fault String :=
  match form with
  | .classModule => ClassModule.render plan
  | .outline => Outline.render plan
  | .json => .ok (Transport.render plan)

/-- A plan in the form with the given name. -/
def Plan.renderNamed (name : String) (plan : Plan) : Except Fault String :=
  match OutputForm.ofName? name with
  | some form => plan.render form
  | none => .error (.unknownRenderer name)

/-- A plan by the renderer with the given name; the document form is not a renderer. -/
def Plan.renderStrictly (name : String) (plan : Plan) : Except Fault String :=
  match OutputForm.ofName? name with
  | some .classModule => plan.render .classModule
  | some .outline => plan.render .outline
  | _ => .error (.unknownRenderer name)

end SampleTypes
