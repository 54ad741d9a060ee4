import Script.Value.Display

namespace Script

/-- What the clock shows, in milliseconds, each time that it is read. -/
structure Clock where
  readings : Nat → Nat
  taken : Nat

namespace Clock

def still (now : Nat) : Clock := ⟨fun _ => now, 0⟩

instance : Coe Nat Clock := ⟨still⟩

def now (clock : Clock) : Nat := clock.readings clock.taken

def next (clock : Clock) : Clock := { clock with taken := clock.taken + 1 }

end Clock

structure State where
  heap : Heap
  /-- How many calls of declared functions are going on. -/
  depth : Nat
  sink : Sink
  clock : Clock

/-- An evaluation. One that fails keeps what it has changed so far. -/
abbrev Eval := EStateM RuntimeError State

namespace Eval

def onHeap {α : Type} (action : EStateM RuntimeError Heap α) : Eval α
  | ⟨heap, depth, sink, clock⟩ =>
    match action heap with
    | .ok a heap => .ok a ⟨heap, depth, sink, clock⟩
    | .error error heap => .error error ⟨heap, depth, sink, clock⟩

def readHeap {α : Type} (f : Heap → α) : Eval α := do
  return f (← get).heap

def ofExcept {α : Type} : Except RuntimeError α → Eval α
  | .ok a => pure a
  | .error error => throw error

def newChild (parent : ScopeId) : Eval ScopeId :=
  onHeap (modifyGet fun h => h.newChild parent)

def newArray (items : List Value) : Eval Value :=
  onHeap (modifyGet fun h => let (id, h) := h.newArray items.toArray; (.array id, h))

/-- A later entry wins over an earlier one with the same key. -/
def newObject (entries : List (String × Value)) : Eval Value :=
  onHeap (modifyGet fun h => let (id, h) := h.newObject (Table.ofEntries entries); (.object id, h))

def newStamp : Eval Nat :=
  onHeap (modifyGet Heap.newStamp)

def lookup (scope : ScopeId) (name : String) : Eval Value := do
  ofExcept (← readHeap fun h => h.lookup scope name)

def declare (scope : ScopeId) (name : String) (value : Value) (constant : Bool) : Eval Value := do
  onHeap (Heap.declare scope name value constant)
  return value

def assign (scope : ScopeId) (name : String) (value : Value) : Eval Value := do
  onHeap (Heap.assign scope name value)
  return value

def printLine (line : String) : Eval Unit
  | ⟨heap, depth, sink, clock⟩ =>
    match sink.writeLine line with
    | (.ok (), sink) => .ok () ⟨heap, depth, sink, clock⟩
    | (.error failure, sink) => .error (.output failure) ⟨heap, depth, sink, clock⟩

def readClock : Eval Nat
  | ⟨heap, depth, sink, clock⟩ => .ok clock.now ⟨heap, depth, sink, clock.next⟩

/-- Counts a call while it goes on, however it ends. -/
def counted {α : Type} (call : Eval α) : Eval α
  | ⟨heap, depth, sink, clock⟩ =>
    match call ⟨heap, depth + 1, sink, clock⟩ with
    | .ok a s => .ok a { s with depth := s.depth - 1 }
    | .error error s => .error error { s with depth := s.depth - 1 }

end Eval
end Script
