import Script.Heap.Container

namespace Script.Heap

/-- Compares two values, with containers inside each other up to a depth. The pairs of containers
that are being compared are on a stack, and such a pair counts as equal. -/
def compare (h : Heap) : Nat → Value → Value → StateT (List (Container × Container)) Option Bool
  | _, .null, .null => return true
  | _, .number x, .number y => return x == y
  | _, .string s, .string t => return s == t
  | _, .boolean a, .boolean b => return a == b
  | depth + 1, .array a, .array b => do
    if a = b ∨ (.array a, .array b) ∈ (← get) then return true
    let xs := (h.items a).toList
    let ys := (h.items b).toList
    if xs.length ≠ ys.length then return false
    modify ((.array a, .array b) :: ·)
    let same ← (xs.zip ys).allM fun (x, y) => compare h depth x y
    modify List.tail
    return same
  | depth + 1, .object a, .object b => do
    if a = b ∨ (.object a, .object b) ∈ (← get) then return true
    let xs := (h.properties a).entries
    let ys := (h.properties b).entries
    if xs.length ≠ ys.length then return false
    modify ((.object a, .object b) :: ·)
    let same ← (xs.zip ys).allM fun ((k, x), (l, y)) =>
      if k = l then compare h depth x y else return false
    modify List.tail
    return same
  | 0, .array _, .array _ | 0, .object _, .object _ => failure
  | _, .native f, .native g => return f.stamp == g.stamp
  | _, .function f, .function g => return f.same g
  | _, _, _ => return false

def equal (h : Heap) (a b : Value) : Bool :=
  match (h.compare (h.containerCount * h.containerCount + 1) a b).run [] with
  | some (same, _) => same
  -- No pair is on the stack twice, so the depth is enough.
  | none => false

end Script.Heap
