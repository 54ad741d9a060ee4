import Script.Heap

namespace Script

inductive Container where
  | array (id : ArrayId)
  | object (id : ObjectId)
  deriving DecidableEq, Repr

def Heap.containerCount (h : Heap) : Nat :=
  h.arrays.size + h.objects.size

end Script
