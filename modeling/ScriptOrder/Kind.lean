/-!
# Kinds of declarations

The kinds are listed in the order of the sections they form; `rank` is the
place in that order.
-/

set_option autoImplicit false

namespace ScriptOrder

inductive Kind where
  | tool
  | className
  | base
  | signal
  | enumeration
  | constant
  | exported
  | publicVar
  | privateVar
  | onready
  | init
  | ready
  | callback
  | publicFunc
  | privateFunc
  /-- Comment text that belongs to no declaration. -/
  | loose
deriving DecidableEq, Repr

namespace Kind

def all : List Kind :=
  [tool, className, base, signal, enumeration, constant, exported, publicVar, privateVar,
   onready, init, ready, callback, publicFunc, privateFunc, loose]

def rank : Kind → Nat
  | tool => 0
  | className => 1
  | base => 2
  | signal => 3
  | enumeration => 4
  | constant => 5
  | exported => 6
  | publicVar => 7
  | privateVar => 8
  | onready => 9
  | init => 10
  | ready => 11
  | callback => 12
  | publicFunc => 13
  | privateFunc => 14
  | loose => 15

def name : Kind → String
  | tool => "tool"
  | className => "class_name"
  | base => "extends"
  | signal => "signal"
  | enumeration => "enum"
  | constant => "const"
  | exported => "export"
  | publicVar => "public_var"
  | privateVar => "private_var"
  | onready => "onready"
  | init => "init"
  | ready => "ready"
  | callback => "builtin_callback"
  | publicFunc => "public_func"
  | privateFunc => "private_func"
  | loose => "class_docstring"

def ofName? (s : String) : Option Kind := all.find? fun k => k.name = s

theorem rank_injective {k l : Kind} (h : k.rank = l.rank) : k = l := by
  cases k <;> cases l <;> first | rfl | simp [rank] at h

end Kind

end ScriptOrder
