/-
Templates as chunks of text and code.

Code stands between `{{` and `}}`. A backslash before either delimiter makes it an
ordinary part of the text or code it stands in. A template whose last opening delimiter is never
closed ends in text, that delimiter included.
-/
import Conveyor.Text.Blank

set_option autoImplicit false

namespace Conveyor.Template

/-- A piece of a template. Code has no blanks at its ends and may be empty; text is never empty. -/
inductive Chunk where
  | text (cs : List Char)
  | code (cs : List Char)
  deriving DecidableEq, Repr

/-- Why a text is not a template. -/
inductive ScanError where
  | tooManyExpressions
  deriving DecidableEq

/-- The most pieces of code in one template (`MAX_CODE_CHUNKS`). -/
def maxCodes : Nat := 1000

/-- The text of an error. -/
def ScanError.message : ScanError → String
  | tooManyExpressions => "template contains more than 1000 expressions"

/-! ## Code -/

/-- The code up to the closing delimiter, and what follows it; `acc` is what was read, last first
(`scan_code`). -/
def scanCode (acc : List Char) : List Char → Option (List Char × List Char)
  | '\\' :: '\x7d' :: '\x7d' :: cs => scanCode ('\x7d' :: '\x7d' :: acc) cs
  | '\\' :: '\x7b' :: '\x7b' :: cs => scanCode ('\x7b' :: '\x7b' :: acc) cs
  | '\x7d' :: '\x7d' :: cs => some (acc.reverse, cs)
  | c :: cs => scanCode (c :: acc) cs
  | [] => none

/-- What follows a piece of code is shorter than what it was read from. -/
theorem length_lt_of_scanCode {acc cs code rest : List Char}
    (h : scanCode acc cs = some (code, rest)) : rest.length < cs.length := by
  fun_induction scanCode acc cs with
  | case1 _ cs ih => have := ih h; simp only [List.length_cons]; omega
  | case2 _ cs ih => have := ih h; simp only [List.length_cons]; omega
  | case3 _ cs =>
    simp only [Option.some.injEq, Prod.mk.injEq] at h
    obtain ⟨-, rfl⟩ := h
    simp only [List.length_cons]; omega
  | case4 _ c cs _ _ _ ih => have := ih h; simp only [List.length_cons]; omega
  | case5 => simp at h

/-! ## Chunks -/

/-- The chunk of a text, if there is any. -/
def textChunk (acc : List Char) : List Chunk := if acc.isEmpty then [] else [.text acc.reverse]

/-- The chunks of the rest of a template. `acc` is the text in progress, last character first, and
`codes` the number of pieces of code so far. -/
def scan (acc : List Char) (codes : Nat) : List Char → Except ScanError (List Chunk)
  | [] => .ok (textChunk acc)
  | '\\' :: '\x7b' :: '\x7b' :: cs => scan ('\x7b' :: '\x7b' :: acc) codes cs
  | '\\' :: '\x7d' :: '\x7d' :: cs => scan ('\x7d' :: '\x7d' :: acc) codes cs
  | '\x7b' :: '\x7b' :: cs =>
    match _h : scanCode [] cs with
    | some (code, rest) =>
      if maxCodes ≤ codes then .error .tooManyExpressions
      else
        (scan [] (codes + 1) rest).map fun chunks =>
          textChunk acc ++ .code (Text.trim code) :: chunks
    | none => .ok (textChunk (cs.reverse ++ '\x7b' :: '\x7b' :: acc))
  | c :: cs => scan (c :: acc) codes cs
termination_by cs => cs.length
decreasing_by
  all_goals simp only [List.length_cons]
  · omega
  · omega
  · have := length_lt_of_scanCode _h; omega
  · omega

/-- The chunks of a template. -/
def tokenize (template : String) : Except ScanError (List Chunk) := scan [] 0 template.toList

end Conveyor.Template
