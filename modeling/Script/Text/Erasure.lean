import Script.Text.Cluster

namespace Script.Text

/-- A line while it is typed: its characters, last one first, and how many bytes each cluster
takes. The number is kept in one byte, so a cluster of 256 bytes counts as empty. -/
structure Typed where
  characters : List Char := []
  sizes : List UInt8 := []

def dropBytes (n : Nat) : List Char → List Char
  | [] => []
  | c :: cs => if n = 0 then c :: cs else dropBytes (n - c.utf8Size) cs

namespace Typed

/-- A backspace takes back as many bytes as the last cluster is known to have. With nothing left to
take back it does nothing. -/
def erase (typed : Typed) : Typed :=
  match typed.sizes with
  | [] => typed
  | size :: sizes => ⟨dropBytes size.toNat typed.characters, sizes⟩

def add (typed : Typed) (cluster : List Char) : Typed :=
  let size := cluster.foldr (fun c n => c.utf8Size + n) 0
  ⟨cluster.reverse ++ typed.characters, UInt8.ofNat size :: typed.sizes⟩

def step (typed : Typed) (cluster : List Char) : Typed :=
  if cluster = ['\x08'] then typed.erase else typed.add cluster

end Typed

def erased (line : String) : String :=
  String.ofList ((clusters line.toList).foldl Typed.step {}).characters.reverse

end Script.Text
