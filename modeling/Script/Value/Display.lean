import Script.Heap.Container
import Script.Text.Quoted

namespace Script.Heap

/-- Writes a value, with containers inside each other up to a depth. The containers that are being
written are on a stack, and such a container is only hinted at. Inside a container strings stand
between quotes. -/
def render (h : Heap) : Nat → Bool → Value → StateT (List Container) Option String
  | _, _, .null => return "null"
  | _, _, .number x => return Number.shown.format x
  | _, nested, .string text => return if nested then Text.quoted text else text
  | _, _, .boolean b => return if b then "true" else "false"
  | depth + 1, _, .array id => do
    if .array id ∈ (← get) then return "[...]"
    modify (.array id :: ·)
    let texts ← (h.items id).toList.mapM (render h depth true)
    modify List.tail
    return "[" ++ ", ".intercalate texts ++ "]"
  | depth + 1, _, .object id => do
    if .object id ∈ (← get) then return "\x7b...\x7d"
    let entries := (h.properties id).entries
    if entries.isEmpty then return "\x7b\x7d"
    modify (.object id :: ·)
    let texts ← entries.mapM fun (key, value) => return key ++ ": " ++ (← render h depth true value)
    modify List.tail
    return "\x7b " ++ ", ".intercalate texts ++ " \x7d"
  | 0, _, .array _ | 0, _, .object _ => failure
  | _, _, .native function => return "<native " ++ function.name ++ ">"
  | _, _, .function closure => return "<func " ++ closure.declaration.name ++ ">"

def display (h : Heap) (value : Value) : String :=
  match (h.render (h.containerCount + 1) false value).run [] with
  | some (text, _) => text
  -- No container is on the stack twice, so the depth is enough.
  | none => ""

def quotedNames (names : List String) : String :=
  "[" ++ ", ".intercalate (names.map Text.quoted) ++ "]"

def describe? (h : Heap) (value : Value) : Option String :=
  match value with
  | .array _ => some ("Array(" ++ h.display value ++ ")")
  | .object _ => some ("Object(" ++ h.display value ++ ")")
  | .native function =>
    some ("NativeFunction \x7b name: " ++ Text.quoted function.name ++ ", .. \x7d")
  | .function closure =>
    some ("FunctionValue \x7b name: " ++ Text.quoted closure.declaration.name ++
      ", parameters: " ++ quotedNames closure.declaration.parameters ++ ", .. \x7d")
  | _ => none

def describeScope (h : Heap) (id : ScopeId) : String :=
  let scope := h.scope id
  "Environment \x7b bindings: " ++ quotedNames scope.bindings.keys ++ ", has_parent: " ++
    (if scope.outer.isEmpty then "false" else "true") ++ " \x7d"

end Script.Heap
