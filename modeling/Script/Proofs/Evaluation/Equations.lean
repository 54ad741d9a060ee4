import Script.Evaluation

namespace Script

def Value.isContainer : Value → Bool
  | .array _ => true
  | .object _ => true
  | _ => false

def Slot.access (slot : Slot) : Option Value → Eval Value
  | none => Eval.readHeap slot.read
  | some value => do
    Eval.onHeap (slot.write value)
    return value

namespace Eval

variable {α β : Type}

theorem bind_of_ok {m : Eval α} {f : α → Eval β} {s t : State} {a : α} (h : m s = .ok a t) :
    (m >>= f) s = f a t := by
  show EStateM.bind m f s = f a t
  rw [EStateM.bind, h]

theorem bind_of_error {m : Eval α} {f : α → Eval β} {s t : State} {e : RuntimeError}
    (h : m s = .error e t) : (m >>= f) s = .error e t := by
  show EStateM.bind m f s = .error e t
  rw [EStateM.bind, h]

theorem bind_eq_ok_iff {m : Eval α} {f : α → Eval β} {s t : State} {b : β} :
    (m >>= f) s = .ok b t ↔ ∃ a u, m s = .ok a u ∧ f a u = .ok b t := by
  constructor
  · intro h
    cases hm : m s with
    | ok a u =>
      rw [bind_of_ok hm] at h
      exact ⟨a, u, rfl, h⟩
    | error e u =>
      rw [bind_of_error hm] at h
      cases h
  · rintro ⟨a, u, hm, hf⟩
    rw [bind_of_ok hm, hf]

def leave : EStateM.Result RuntimeError State α → EStateM.Result RuntimeError State α
  | .ok a s => .ok a { s with depth := s.depth - 1 }
  | .error e s => .error e { s with depth := s.depth - 1 }

theorem counted_eq (call : Eval α) (s : State) :
    counted call s = leave (call { s with depth := s.depth + 1 }) := by
  obtain ⟨heap, depth, sink, clock⟩ := s
  rw [counted]
  cases call ⟨heap, depth + 1, sink, clock⟩ <;> rfl

/-- The key of a member is evaluated only behind a container. -/
theorem member_eq (container key : Eval Value) (new? : Option Value) :
    member container key new? none = (do
      let owner ← container
      if owner.isContainer then
        let k ← key
        let place ← slot owner k
        place.access new?
      else throw (.notIndexable owner.type)) := by
  unfold member
  congr 1
  funext owner
  cases owner <;> cases new? <;> rfl

/-- Whether a call is let in depends on how many go on already. -/
theorem function_succ (limit room : Nat) (closure : Closure) (arguments : List Value) (s : State) :
    function limit (room + 1) closure arguments s =
      if limit ≤ s.depth then .error (.recursionLimit limit) s
      else (do
        let scope ← newChild closure.captured
        parameters scope closure.declaration.parameters arguments
        counted (body (function limit room) scope closure.declaration.body)) s := by
  show (if limit ≤ s.depth then _ else _ : Eval Value) s = _
  split <;> rfl

end Eval
end Script
