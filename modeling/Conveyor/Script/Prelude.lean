/-
What runs before a script.

The host leaves the items, the outputs of other nodes and the position of the current item in three
globals. The prelude turns them into the bindings that scripts use, removes them, and makes every
global that is not defined an error.
-/
import Conveyor.Lua.Parser

set_option autoImplicit false

namespace Conveyor.Script

/-- The name of the prelude in traces. -/
def preludeName : String := "prelude"

/-- The lines of the prelude; its line numbers and variable names are seen in messages
(`PRELUDE`). -/
def preludeLines : List String :=
  ["",
    "local input_items = __input_items",
    "local node_outputs = __node_outputs",
    "local position = __item_position",
    "",
    "local function accessor(items)",
    "  return \x7b",
    "    item = items[position],",
    "    all = function() return items end,",
    "    first = function() return items[1] end,",
    "    last = function() return items[#items] end,",
    "  \x7d",
    "end",
    "",
    "function __node(name)",
    "  local items = node_outputs[name]",
    "  if items == nil then",
    "    error(\"Referenced node '\" .. tostring(name) .. \"' has not been executed\", 2)",
    "  end",
    "  return accessor(items)",
    "end",
    "",
    "__input = accessor(input_items)",
    "__items = input_items",
    "__item = input_items[position] or \x7b\x7d",
    "__json = __item.json or \x7b\x7d",
    "__binary = __item.binary or \x7b\x7d",
    "",
    "__input_items = nil",
    "__node_outputs = nil",
    "__item_position = nil",
    "",
    "setmetatable(_G, \x7b",
    "  __index = function(_, key)",
    "    error(\"'\" .. tostring(key) .. \"' is not defined\", 2)",
    "  end,",
    "\x7d)"]

/-- The prelude as a program. -/
def prelude : Except Lua.Problem Lua.Function :=
  Lua.parse preludeName ("\n".intercalate preludeLines)

/-- The globals that scripts do not find (`BLOCKED_GLOBALS`). -/
def removedGlobals : List String :=
  ["collectgarbage", "dofile", "getmetatable", "load", "loadfile", "loadstring", "print", "pcall",
    "rawequal", "rawget", "rawlen", "rawset", "require", "setmetatable", "xpcall"]

end Conveyor.Script
