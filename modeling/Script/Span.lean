namespace Script

structure Span where
  start : Nat
  stop : Nat
  deriving DecidableEq, Repr

namespace Span

/-- A range that ends before it starts has no length. -/
def length (s : Span) : Nat :=
  s.stop - s.start

def isEmpty (s : Span) : Bool :=
  s.length == 0

def cover (s t : Span) : Span :=
  ⟨min s.start t.start, max s.stop t.stop⟩

def point (position : Nat) : Span :=
  ⟨position, position⟩

theorem cover_comm (s t : Span) : s.cover t = t.cover s := by
  simp [cover, Nat.min_comm, Nat.max_comm]

theorem length_le_length_cover (s t : Span) : s.length ≤ (s.cover t).length := by
  simp only [length, cover]
  omega

end Span
end Script
