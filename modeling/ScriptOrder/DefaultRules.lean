import ScriptOrder.Rulebook

/-!
# The default rules

The patterns of the declarations, in the order in which they are tried, and
the functions that the engine calls on its own.
-/

set_option autoImplicit false

namespace ScriptOrder

namespace DefaultRules

def keyword (w : String) : Pattern := .all [.lineStart, .word w.toList, .wordEdge true]

def annotated (w : String) : Pattern :=
  .all [.lineStart, .optional (.char '@'), .word w.toList, .wordEdge true]

def spaces : Pattern := .oneOrMore (.oneOf [.space true])

/-- A keyword that may follow `static`, white space, and the beginning of a name. -/
def member (w : String) (name : Pattern) : Pattern :=
  .all [.lineStart, .optional (.all [.word "static".toList, spaces]), .word w.toList, spaces, name]

def letter : Pattern := .oneOf [.range 'A' 'Z', .range 'a' 'z']

def nameIs (w : String) : Pattern := .all [.word w.toList, .wordEdge true]

def exportPattern : Pattern :=
  .all [.lineStart, .either (.all [.word "export".toList, .wordEdge true]) (.word "@export".toList)]

def table : List (Kind × Pattern) :=
  [(.tool, annotated "tool"),
   (.className, keyword "class_name"),
   (.base, keyword "extends"),
   (.signal, keyword "signal"),
   (.enumeration, keyword "enum"),
   (.constant, keyword "const"),
   (.exported, exportPattern),
   (.publicVar, member "var" letter),
   (.privateVar, member "var" (.char '_')),
   (.onready, annotated "onready"),
   (.init, member "func" (nameIs "_init")),
   (.ready, member "func" (nameIs "_ready")),
   (.callback, member "func" (.char '_')),
   (.publicFunc, member "func" letter),
   (.privateFunc, member "func" (.char '_'))]

def engineCallbacks : Names :=
  ["_process", "_physics_process", "_input", "_unhandled_input", "_unhandled_key_input",
   "_shortcut_input", "_gui_input", "_draw", "_get_configuration_warning",
   "_get_configuration_warnings", "_enter_tree", "_exit_tree", "_get", "_get_property_list",
   "_notification", "_set", "_to_string", "_clips_input", "_get_minimum_size",
   "_make_custom_tooltip", "_property_can_revert", "_property_get_revert",
   "_validate_property", "_integrate_forces"].map String.toList

end DefaultRules

def Rulebook.default : Rulebook := ⟨DefaultRules.table, DefaultRules.engineCallbacks⟩

end ScriptOrder
