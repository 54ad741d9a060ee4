import Script.RuntimeError
import Script.Table

namespace Script

structure Scope where
  /-- The scopes around this one, innermost first. -/
  outer : List ScopeId
  bindings : Table Value
  /-- The names that cannot be assigned. -/
  constants : List String

namespace Scope

def inside (outer : List ScopeId) : Scope := ⟨outer, Table.empty, []⟩

def bind (scope : Scope) (name : String) (value : Value) (constant : Bool) : Scope :=
  { scope with
    bindings := scope.bindings.insert name value
    constants := if constant then scope.constants.insert name else scope.constants }

end Scope

/-- Everything that values point to, each kind in the order it was made in. -/
structure Heap where
  scopes : Array Scope
  arrays : Array (Array Value)
  objects : Array (Table Value)
  /-- How many functions have been made. -/
  stamps : Nat

namespace Heap

def empty : Heap := ⟨#[], #[], #[], 0⟩

/-- A place without a scope counts as an empty scope. -/
def scope (h : Heap) (id : ScopeId) : Scope :=
  h.scopes[id.index]?.getD (.inside [])

def items (h : Heap) (id : ArrayId) : Array Value :=
  h.arrays[id.index]?.getD #[]

def properties (h : Heap) (id : ObjectId) : Table Value :=
  h.objects[id.index]?.getD Table.empty

/-- A scope and those around it, innermost first. -/
def chain (h : Heap) (id : ScopeId) : List ScopeId :=
  id :: (h.scope id).outer

def parent? (h : Heap) (id : ScopeId) : Option ScopeId :=
  (h.scope id).outer.head?

def newScope (h : Heap) (outer : List ScopeId) : ScopeId × Heap :=
  (⟨h.scopes.size⟩, { h with scopes := h.scopes.push (.inside outer) })

def newChild (h : Heap) (parent : ScopeId) : ScopeId × Heap :=
  h.newScope (h.chain parent)

def newArray (h : Heap) (items : Array Value) : ArrayId × Heap :=
  (⟨h.arrays.size⟩, { h with arrays := h.arrays.push items })

def newObject (h : Heap) (properties : Table Value) : ObjectId × Heap :=
  (⟨h.objects.size⟩, { h with objects := h.objects.push properties })

def newStamp (h : Heap) : Nat × Heap :=
  (h.stamps, { h with stamps := h.stamps + 1 })

/-- The nearest scope that binds a name, and the value it has there. -/
def binding? (h : Heap) (id : ScopeId) (name : String) : Option (ScopeId × Value) :=
  (h.chain id).findSome? fun holder =>
    ((h.scope holder).bindings.get? name).map fun value => (holder, value)

def bind (h : Heap) (id : ScopeId) (name : String) (value : Value) (constant : Bool) : Heap :=
  { h with scopes := h.scopes.modify id.index fun scope => scope.bind name value constant }

def declare (id : ScopeId) (name : String) (value : Value) (constant : Bool) :
    EStateM RuntimeError Heap Unit := fun h =>
  if (h.scope id).bindings.contains name then .error (.duplicateDeclaration name) h
  else .ok () (h.bind id name value constant)

def assign (id : ScopeId) (name : String) (value : Value) : EStateM RuntimeError Heap Unit :=
  fun h =>
  match h.binding? id name with
  | none => .error (.unresolvedName name) h
  | some (holder, _) =>
    if name ∈ (h.scope holder).constants then .error (.constantAssignment name) h
    else .ok () (h.bind holder name value false)

def lookup (h : Heap) (id : ScopeId) (name : String) : Except RuntimeError Value :=
  match h.binding? id name with
  | none => .error (.unresolvedName name)
  | some (_, value) => .ok value

def resolve (h : Heap) (id : ScopeId) (name : String) : Except RuntimeError ScopeId :=
  match h.binding? id name with
  | none => .error (.unresolvedName name)
  | some (holder, _) => .ok holder

/-- An array has room for an item at each of its places and right behind the last one. -/
def hasRoom (h : Heap) (id : ArrayId) (position : Nat) : Bool :=
  position ≤ (h.items id).size

/-- Replaces an item, or appends it right behind the last one. -/
def store (h : Heap) (id : ArrayId) (position : Nat) (value : Value) : Heap :=
  { h with arrays := h.arrays.modify id.index fun items =>
      if position = items.size then items.push value else items.setIfInBounds position value }

def push (h : Heap) (id : ArrayId) (value : Value) : Heap :=
  { h with arrays := h.arrays.modify id.index fun items => items.push value }

def insert (h : Heap) (id : ObjectId) (key : String) (value : Value) : Heap :=
  { h with objects := h.objects.modify id.index fun properties => properties.insert key value }

end Heap
end Script
