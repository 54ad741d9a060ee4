import Script.State

namespace Script

inductive Slot where
  | item (array : ArrayId) (index : Float)
  | property (object : ObjectId) (key : String)

namespace Slot

/-- An empty slot holds `null`. -/
def read (slot : Slot) (h : Heap) : Value :=
  match slot with
  | item array index =>
    ((Number.position? index).bind fun position => (h.items array)[position]?).getD .null
  | property object key => ((h.properties object).get? key).getD .null

def write (slot : Slot) (value : Value) : EStateM RuntimeError Heap Unit := fun h =>
  match slot with
  | item array index =>
    match (Number.position? index).filter fun position => h.hasRoom array position with
    | some position => .ok () (h.store array position value)
    | none => .error (.indexOutOfRange (Number.truncate index) (h.items array).size) h
  | property object key => .ok () (h.insert object key value)

end Slot

namespace Eval

/-- The slot that a key names in a container. Arrays take numbers; objects take strings, and numbers
by their text. -/
def slot (container key : Value) : Eval Slot :=
  match container, key with
  | .array array, .number index => return .item array index
  | .array _, key => throw (.nonNumericIndex key.type)
  | .object object, .string name => return .property object name
  | .object object, .number x => return .property object (Number.shown.format x)
  | .object _, key => throw (.invalidPropertyKey key.type)
  | container, _ => throw (.notIndexable container.type)

/-- Finds a member and reads it, or writes it when a new value is given. The container comes first,
then the key; a key given from outside replaces the one of an object. -/
def member (container key : Eval Value) (new? : Option Value) (key? : Option String) :
    Eval Value := do
  let owner ← container
  let place ←
    match owner, key? with
    | .object object, some name => pure (.property object name)
    | .object _, none => slot owner (← key)
    | .array _, _ => slot owner (← key)
    | other, _ => throw (.notIndexable other.type)
  match new? with
  | none => readHeap place.read
  | some value =>
    onHeap (place.write value)
    return value

def memberKey (property : Expr) (computed : Bool) (evaluated : Eval Value) : Eval Value :=
  match property, computed with
  | .name name, false => return .string name
  | _, _ => evaluated

end Eval
end Script
