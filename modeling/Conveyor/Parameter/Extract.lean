/-
Extracting a value from a parameter.

A declared pattern takes the first group of its first match, or the whole match where the group took
no part. A resource locator stands for its value, run through the pattern of its mode. A filter
stands for its decision.
-/
import Conveyor.Filter.Basic
import Conveyor.Parameter.Schema
import Conveyor.Regex.Match
import Conveyor.Template.Evaluate

set_option autoImplicit false

namespace Conveyor.Parameter

/-- Why no value was extracted. -/
inductive ExtractionError where
  | invalidPattern (pattern message : String)
  | noMatch (text pattern : String)
  | malformedFilter
  deriving DecidableEq

/-- The text of an extraction error. -/
def ExtractionError.message : ExtractionError → String
  | invalidPattern pattern message => "invalid pattern '" ++ pattern ++ "': " ++ message
  | noMatch text pattern => "'" ++ text ++ "' does not match '" ++ pattern ++ "'"
  | malformedFilter => "malformed filter: its conditions cannot be read"

/-- Why a parameter has no value (`ParameterError`). -/
inductive Error where
  | unknownNodeType (type : String)
  | invalidPath (path : String)
  /-- The selector of a path cannot be read. -/
  | unreadableSelector (path : String)
  | notFound (path : String)
  | expression (cause : Template.Error)
  | filter (path : String) (cause : Filter.Error)
  | extraction (path : String) (cause : ExtractionError)
  | typeMismatch (path expected actual : String)
  | conversion (path actual : String)

/-- The text of a parameter error. -/
def Error.message : Error → String
  | unknownNodeType type => "Unknown node type '" ++ type ++ "'"
  | invalidPath path => "Invalid parameter path '" ++ path ++ "'"
  | unreadableSelector path => "Invalid parameter path '" ++ path ++ ": path error: unreadable'"
  | notFound path => "Could not get parameter '" ++ path ++ "'"
  | expression cause => cause.message
  | filter path cause => "Parameter '" ++ path ++ "': " ++ cause.message
  | extraction path cause =>
    "Could not extract a value from parameter '" ++ path ++ "': " ++ cause.message
  | typeMismatch path expected actual =>
    "Parameter '" ++ path ++ "' is a " ++ actual ++ ", expected a " ++ expected
  | conversion path actual =>
    "Parameter '" ++ path ++ "' has the wrong shape: cannot convert " ++ actual

/-- The first group of the first match of a pattern in a value's text (`extract_regex`). -/
def extractMatch (path : String) (v : Json) (pattern : String) : Except Error Json :=
  match Regex.parse? {} pattern with
  | none => .error (.extraction path (.invalidPattern pattern Regex.refusal))
  | some p =>
    match p.captures? v.plainText with
    | none => .error (.extraction path (.noMatch v.plainText pattern))
    | some (whole, groups) => .ok (.str ((groups.head?.bind id).getD whole))

/-- Applies a declared extraction (`apply_rule`). -/
def Extraction.apply (path : String) (v : Json) : Extraction → Except Error Json
  | pattern regex => extractMatch path v regex

/-- The value of a resource locator (`extract_locator`). -/
def extractLocator (s : Schema) (path : String) (v : Json) : Except Error Json :=
  match v with
  | .obj _ =>
    let inner := (v.member? "value").getD .null
    let mode := (v.member? "mode").bind Json.asString?
    match mode.bind fun m => (s.modes.find? (·.name == m)).bind LocatorMode.extraction with
    | some rule => rule.apply path inner
    | none => .ok inner
  | v => .ok v

/-- The decision of a filter (`extract_filter`). -/
def extractDecision (path : String) (v : Json) (itemIndex : Nat) (tolerant : Bool) :
    Except Error Json :=
  match Filter.decode v with
  | none => .error (.extraction path .malformedFilter)
  | some f =>
    match f.decide itemIndex tolerant with
    | .ok b => .ok (.bool b)
    | .error e => .error (.filter path e)

/-- The value that a parameter's declaration extracts. -/
def Schema.extract (s : Schema) (path : String) (v : Json) (itemIndex : Nat) (tolerant : Bool) :
    Except Error Json :=
  match s.extraction with
  | some rule => rule.apply path v
  | none =>
    match s.kind with
    | .resourceLocator => extractLocator s path v
    | .filter => if Filter.hasShape v then extractDecision path v itemIndex tolerant else .ok v
    | _ => .ok v

end Conveyor.Parameter
