import ScriptOrder.Kind

/-!
# Blocks

A block is a range of lines, its end excluded, that moves as one piece.
Sections follow the rank of the kind, and blocks of one kind keep the order
they have in the script.
-/

set_option autoImplicit false

namespace ScriptOrder

structure Block where
  start : Nat
  stop : Nat
  kind : Kind
deriving DecidableEq, Repr

namespace Block

def length (b : Block) : Nat := b.stop - b.start

def isEmpty (b : Block) : Bool := b.start = b.stop

def comesBefore (a b : Block) : Bool := decide (a.kind.rank ≤ b.kind.rank)

def sort (bs : List Block) : List Block := bs.mergeSort comesBefore

theorem sort_perm (bs : List Block) : (sort bs).Perm bs := List.mergeSort_perm _ _

theorem sort_pairwise (bs : List Block) :
    (sort bs).Pairwise fun a b => a.kind.rank ≤ b.kind.rank := by
  have htrans (a b c : Block) (hab : comesBefore a b = true) (hbc : comesBefore b c = true) :
      comesBefore a c = true := by
    simp [comesBefore] at *
    omega
  have htotal (a b : Block) : (comesBefore a b || comesBefore b a) = true := by
    simp [comesBefore]
    omega
  simpa [sort, comesBefore] using List.pairwise_mergeSort htrans htotal bs

end Block

end ScriptOrder
