/-
Evaluating templates.

A parameter string that starts with `=` is a template, any other is itself. A template that is one
piece of code and nothing else has the value of the code, whatever its kind. In every other template
the values are written as text between the texts, and a piece of code that fails leaves a mark in
its place. How code is run is a parameter here.
-/
import Conveyor.Json.Text
import Conveyor.Script.Error
import Conveyor.Template.Chunk

set_option autoImplicit false

namespace Conveyor.Template

/-- Why a template has no value (`ExpressionError`). -/
inductive Error where
  | scan (cause : ScanError)
  /-- The only piece of code of the template failed. -/
  | code (code : String) (source : Script.Error)

/-- The text of an error. -/
def Error.message : Error → String
  | scan cause => "Invalid expression: " ++ cause.message
  | code _ source => source.message

/-- Runs a piece of code. -/
abbrev Runner := String → Except Script.Error Json

/-- Whether two opening braces stand next to each other. -/
def hasOpening : List Char → Bool
  | '\x7b' :: '\x7b' :: _ => true
  | _ :: cs => hasOpening cs
  | [] => false

/-- What stands in place of a piece of code that failed. -/
def failureMark (e : Script.Error) : String := "[ERROR: " ++ e.message ++ "]"

/-- The text a chunk is rendered as. -/
def renderChunk (run : Runner) : Chunk → String
  | .text cs => String.ofList cs
  | .code cs =>
    match run (String.ofList cs) with
    | .ok v => v.plainText
    | .error e => failureMark e

/-- The value of chunks. -/
def evaluateChunks (run : Runner) : List Chunk → Except Error Json
  | [.code cs] =>
    match run (String.ofList cs) with
    | .ok v => .ok v
    | .error e => .error (.code (String.ofList cs) e)
  | chunks => .ok (.str (String.join (chunks.map (renderChunk run))))

/-- The value of a template without its `=`. -/
def evaluateBody (run : Runner) (body : List Char) : Except Error Json :=
  if !hasOpening body then .ok (.str (String.ofList body))
  else
    match scan [] 0 body with
    | .ok chunks => evaluateChunks run chunks
    | .error e => .error (.scan e)

/-- The value of a parameter string (`Expression::evaluate`). -/
def evaluate (run : Runner) (raw : String) : Except Error Json :=
  match raw.toList with
  | '=' :: body => evaluateBody run body
  | _ => .ok (.str raw)

mutual

/-- A value with every string in it evaluated; the first failure in document order is reported
(`Expression::resolve_value`). -/
def resolve (run : Runner) : Json → Except Error Json
  | .str raw => evaluate run raw
  | .arr xs => (resolveItems run xs).map .arr
  | .obj o => (resolveMembers run o).map .obj
  | v => .ok v

/-- Entries of an array, resolved in order. -/
def resolveItems (run : Runner) : List Json → Except Error (List Json)
  | [] => .ok []
  | x :: xs =>
    match resolve run x with
    | .error e => .error e
    | .ok y => (resolveItems run xs).map (y :: ·)

/-- Members of an object, resolved in order. -/
def resolveMembers (run : Runner) :
    List (String × Json) → Except Error (List (String × Json))
  | [] => .ok []
  | (k, v) :: rest =>
    match resolve run v with
    | .error e => .error e
    | .ok w => (resolveMembers run rest).map ((k, w) :: ·)

end

end Conveyor.Template
