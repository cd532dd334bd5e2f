/-
The functions every program finds, and the store a program starts with.
-/
import Conveyor.Lua.Library.Base
import Conveyor.Lua.Library.Codes
import Conveyor.Lua.Library.Numbers
import Conveyor.Lua.Library.Tables
import Conveyor.Lua.Library.Texts

set_option autoImplicit false

namespace Conveyor.Lua

open Library

/-- What a built-in function does. -/
def Builtin.plan (b : Builtin) (h : Heap) (args : List Value) : Plan :=
  let pure (r : Except Fault (List Value)) : Plan := .ofExcept h r
  match b with
  | assert => assertion h args
  | error => raise h args
  | ipairs => Library.ipairs h args
  | ipairsStep => Library.ipairsStep h args
  | next => nextEntry h args
  | pairs => Library.pairs h args
  | select => Library.select h args
  | tonumber => toNumber h args
  | tostring => toText h args
  | type => typeOf h args
  | warn => pure ((checkText args 1).map fun _ => [])
  | setmetatable => setMetatable h args
  | getmetatable => getMetatable h args
  | rawequal => rawEqual h args
  | rawget => Library.rawGet h args
  | rawlen => rawLength h args
  | rawset => rawSet h args
  | print => .finish h []
  | pcall | unavailable => .fail h (.located "not available here")
  | byte => pure (bytesOf args)
  | char => pure (ofBytes args)
  | find => pure (Library.find args)
  | format => pure (formatted args)
  | gmatch => matchesOf h args
  | gsub => replaceAll h args
  | len => pure (Library.length args)
  | lower => pure (mapped Numeral.lower args)
  | «match» => pure (firstMatch args)
  | rep => pure (repeated args)
  | reverse => pure (reversed args)
  | sub => pure (piece args)
  | upper => pure (mapped Library.upper args)
  | concat => pure (join h args)
  | insert => insertElement h args
  | move => moveElements h args
  | pack => packed h args
  | remove => removeElement h args
  | sort => Library.sort h args
  | unpack => pure (unpacked h args)
  | abs => pure (magnitude args)
  | ceil => pure (rounded args Decimal.Binary.ceil Float.ceil)
  | cos => pure (ofFloat Float.cos args)
  | exp => pure (ofFloat Float.exp args)
  | floor => pure (rounded args Decimal.Binary.floor Float.floor)
  | fmod => pure (dividendRemainder args)
  | log => pure (logarithm args)
  | max => pure (extreme (fun v best => lessThan best v) args)
  | min => pure (extreme lessThan args)
  | modf => pure (parts args)
  | sin => pure (ofFloat Float.sin args)
  | sqrt => pure (ofFloat Float.sqrt args)
  | tan => pure (ofFloat Float.tan args)
  | tointeger => pure (toInteger args)
  | mathType => pure (numberKind args)
  | ult => pure (unsignedLess args)
  | utf8char => pure (ofCodes args)
  | codepoint => pure (codePoints args)
  | utf8len => pure (lengthInCodes args)
  | offset => pure (Library.offset args)

/-! ## The first store -/

/-- The functions among the globals. -/
def baseNames : List (String × Builtin) :=
  [("assert", .assert), ("collectgarbage", .unavailable), ("dofile", .unavailable),
    ("error", .error), ("getmetatable", .getmetatable), ("ipairs", .ipairs),
    ("load", .unavailable), ("loadfile", .unavailable), ("next", .next), ("pairs", .pairs),
    ("pcall", .pcall), ("print", .print), ("rawequal", .rawequal), ("rawget", .rawget),
    ("rawlen", .rawlen), ("rawset", .rawset), ("select", .select), ("setmetatable", .setmetatable),
    ("tonumber", .tonumber), ("tostring", .tostring), ("type", .type), ("warn", .warn),
    ("xpcall", .unavailable)]

/-- The functions on texts. -/
def textNames : List (String × Builtin) :=
  [("byte", .byte), ("char", .char), ("dump", .unavailable), ("find", .find), ("format", .format),
    ("gmatch", .gmatch), ("gsub", .gsub), ("len", .len), ("lower", .lower), ("match", .match),
    ("pack", .unavailable), ("packsize", .unavailable), ("rep", .rep), ("reverse", .reverse),
    ("sub", .sub), ("unpack", .unavailable), ("upper", .upper)]

/-- The functions on tables. -/
def tableNames : List (String × Builtin) :=
  [("concat", .concat), ("insert", .insert), ("move", .move), ("pack", .pack), ("remove", .remove),
    ("sort", .sort), ("unpack", .unpack)]

/-- The functions on numbers. -/
def mathNames : List (String × Builtin) :=
  [("abs", .abs), ("acos", .unavailable), ("asin", .unavailable), ("atan", .unavailable),
    ("ceil", .ceil), ("cos", .cos), ("deg", .unavailable), ("exp", .exp), ("floor", .floor),
    ("fmod", .fmod), ("log", .log), ("max", .max), ("min", .min), ("modf", .modf),
    ("rad", .unavailable), ("random", .unavailable), ("randomseed", .unavailable), ("sin", .sin),
    ("sqrt", .sqrt), ("tan", .tan), ("tointeger", .tointeger), ("type", .mathType), ("ult", .ult)]

/-- The functions on UTF-8 text. -/
def codeNames : List (String × Builtin) :=
  [("char", .utf8char), ("codepoint", .codepoint), ("codes", .unavailable), ("len", .utf8len),
    ("offset", .offset)]

/-- The name under which messages show a built-in function that was not called by a name. -/
def Builtin.shownName? (b : Builtin) : Option String :=
  let named (group : String) (names : List (String × Builtin)) : Option String :=
    (names.find? (·.2 == b)).map fun p => group ++ p.1
  named "" baseNames <|> named "string." textNames <|> named "table." tableNames <|>
    named "math." mathNames <|> named "utf8." codeNames

/-- A table of functions. -/
def libraryTable (names : List (String × Builtin)) : Table :=
  names.foldl (fun t p => t.set (.text p.1) (builtinValue p.2)) (Table.withRoom 0 names.length)

/-- The store before anything of a program has run. -/
def Heap.initial : Heap :=
  let h : Heap := { functions := (builtins.map Callable.builtin).toArray }
  let (h, texts) := h.newTable (libraryTable textNames)
  let (h, tables) := h.newTable (libraryTable tableNames)
  let (h, numbers) := h.newTable
    ((((libraryTable mathNames).set (.text "pi") (.float 3.141592653589793)).set (.text "huge")
      (.float Decimal.infinity)).set (.text "maxinteger") (.int Int64.maxValue)
      |>.set (.text "mininteger") (.int Int64.minValue))
  let pattern := ByteArray.mk
    #[91, 0, 45, 0x7F, 0xC2, 45, 0xFD, 93, 91, 0x80, 45, 0xBF, 93, 42]
  let (h, codes) := h.newTable ((libraryTable codeNames).set (.text "charpattern") (.str pattern))
  let (h, mark) := h.newTable ((Table.withRoom 0 1).set (.text "__metatable") (.bool false))
  let (h, globals) := h.newTable (libraryTable baseNames)
  let h := { h with globals := globals, textMethods := texts, arrayMark := mark }
  let h := h.setField globals "string" (.table texts)
  let h := h.setField globals "table" (.table tables)
  let h := h.setField globals "math" (.table numbers)
  let h := h.setField globals "utf8" (.table codes)
  let h := h.setField globals "_VERSION" (.text "Lua 5.4")
  h.setField globals "_G" (.table globals)

end Conveyor.Lua
