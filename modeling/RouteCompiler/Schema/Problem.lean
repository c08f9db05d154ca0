import RouteCompiler.Yaml.Value.Basic

/-!
Problems found in a document: where they are, and what is expected there.
-/

namespace RouteCompiler.Schema

/-- One step of the way from the root of a document to a value. -/
inductive Place
  | key (k : String)
  | index (i : Int)
  deriving DecidableEq, Repr

inductive Expectation
  /-- The field has to be there. -/
  | present
  | text
  /-- The bytes must be text in UTF-8. -/
  | textBytes
  | truth
  /-- The text or number must spell a truth value. -/
  | truthWord
  | list
  | map
  | record (name : String)
  deriving DecidableEq, Repr

/-- The short name of an expectation that is not met. -/
def Expectation.name : Expectation → String
  | .present => "missing"
  | .text => "string_type"
  | .textBytes => "string_unicode"
  | .truth => "bool_type"
  | .truthWord => "bool_parsing"
  | .list => "list_type"
  | .map => "dict_type"
  | .record _ => "model_type"

def Expectation.message : Expectation → String
  | .present => "Field required"
  | .text => "Input should be a valid string"
  | .textBytes => "Input should be a valid string, unable to parse raw data as a unicode string"
  | .truth => "Input should be a valid boolean"
  | .truthWord => "Input should be a valid boolean, unable to interpret input"
  | .list => "Input should be a valid list"
  | .map => "Input should be a valid dictionary"
  | .record n => s!"Input should be a valid dictionary or instance of {n}"

structure Problem where
  location : List Place
  expectation : Expectation
  deriving DecidableEq, Repr

def Problem.within (p : Place) (q : Problem) : Problem := { q with location := p :: q.location }

/-- A value that was read, or all the problems that prevent it. -/
inductive Checked (α : Type)
  | ok (a : α)
  | bad (problems : List Problem)
  deriving Repr

namespace Checked

variable {α β : Type}

def problems : Checked α → List Problem
  | ok _ => []
  | bad ps => ps

/-- Problems of both sides add up, those of the first side first. -/
def apply (f : Checked (α → β)) (a : Unit → Checked α) : Checked β :=
  match f, a () with
  | ok f, ok a => ok (f a)
  | f, a => bad (f.problems ++ a.problems)

def map (f : α → β) : Checked α → Checked β
  | ok a => ok (f a)
  | bad ps => bad ps

instance : Applicative Checked where
  pure := ok
  map := map
  seq := apply

def refuse (e : Expectation) : Checked α := bad [⟨[], e⟩]

/-- Problems inside a part of the document. -/
def within (p : Place) : Checked α → Checked α
  | ok a => ok a
  | bad ps => bad (ps.map (·.within p))

/-- All values, or all problems. -/
def all : List (Checked α) → Checked (List α)
  | [] => ok []
  | c :: r => (fun a as => a :: as) <$> c <*> all r

end Checked
end RouteCompiler.Schema
