import Script.Heap

namespace Script.Heap

def newNative (h : Heap) (name : String) (action : Action) : Native × Heap :=
  let (stamp, h) := h.newStamp
  (⟨stamp, name, action⟩, h)

/-- A new outermost scope with the names that every program knows. None of them can be changed. -/
def newGlobals (h : Heap) : ScopeId × Heap :=
  let (print, h) := h.newNative "print" .print
  let (time, h) := h.newNative "time" .time
  let (scope, h) := h.newScope []
  let constants : List (String × Value) :=
    [("true", .boolean true), ("false", .boolean false), ("null", .null),
      ("print", .native print), ("time", .native time)]
  (scope, constants.foldl (fun h (name, value) => h.bind scope name value true) h)

end Script.Heap
