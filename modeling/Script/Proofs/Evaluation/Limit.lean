import Script.Globals
import Script.Proofs.Evaluation.Coupling

namespace Script.Eval

def sameUntilLimit : Comparison where
  alike s s' := s' = s
  parted e _ _ := ∃ limit, e = .recursionLimit limit

theorem lawful_sameUntilLimit : sameUntilLimit.Lawful where
  heap h := congrArg State.heap h
  depth h := congrArg State.depth h
  clock h := congrArg State.clock h
  withHeap h _ := by
    cases h
    rfl
  withDepth h _ := by
    cases h
    rfl
  withClock h _ := by
    cases h
    rfl
  partedDepth h _ _ := h
  goesOn e s :=
    { refl := fun _ h => h
      trans := fun h h' => h' ∘ h
      newChild := fun _ _ h => h
      newArray := fun _ _ h => h
      newObject := fun _ _ h => h
      newStamp := fun _ h => h
      onDeclare := fun _ _ _ _ _ h => h
      onAssign := fun _ _ _ _ h => h
      onWrite := fun _ _ _ h => h
      readClock := fun _ h => h
      printLine := fun _ _ h => h
      counted := fun _ _ h => h }
  printLine {s s'} line h := by
    cases h
    cases printLine line s with
    | ok a t => exact .ok rfl
    | error e t => exact .error rfl

/-- Under a higher limit, and with at least as much room, calls go the same way as long as the lower
limit lets them in. -/
theorem callsTogether_function {limit limit' : Nat} (hlimit : limit ≤ limit') {room room' : Nat}
    (hroom : room ≤ room') :
    CallsTogether sameUntilLimit (function limit room) (function limit' room') := by
  have hc := lawful_sameUntilLimit
  induction room generalizing room' with
  | zero =>
    intro closure arguments
    refine ⟨?_, fun e s => (hc.goesOn e s).function limit' room' closure arguments⟩
    intro s s' _
    exact .of_parted ⟨limit, rfl⟩
  | succ room ih =>
    obtain ⟨room', rfl⟩ : ∃ k, room' = k + 1 := Nat.exists_eq_succ_of_ne_zero (by omega)
    intro closure arguments
    refine ⟨?_, fun e s => (hc.goesOn e s).function limit' (room' + 1) closure arguments⟩
    intro s s' h
    cases h
    have hbody := hc.body (ih (Nat.le_of_succ_le_succ hroom))
    have hrun := hc.bind (hc.newChild closure.captured) fun scope =>
      hc.bind (hc.parameters scope closure.declaration.parameters arguments) fun _ =>
        hc.counted (hbody scope closure.declaration.body)
    -- Either the lower limit is met here, and the runs part, or both let the call in.
    by_cases hfull : limit ≤ s.depth
    · rw [function_succ, if_pos hfull]
      exact .of_parted ⟨limit, rfl⟩
    · have hfull' : ¬limit' ≤ s.depth := by omega
      rw [function_succ, function_succ, if_neg hfull, if_neg hfull']
      exact hrun.ends s s rfl

/-- A run that does not meet its limit is the same run under every higher limit: it ends with the
same value or error, the same heap and the same output. -/
theorem program_eq_of_limit_le {limit limit' : Nat} (hlimit : limit ≤ limit') (scope : ScopeId)
    (p : Program) (s : State)
    (hfree : ∀ reached t, program limit scope p s ≠ .error (.recursionLimit reached) t) :
    program limit' scope p s = program limit scope p s := by
  have hcall := callsTogether_function hlimit (Nat.succ_le_succ hlimit)
  have hends := (lawful_sameUntilLimit.body hcall scope p).ends s s rfl
  change Ends _ (program limit scope p s) (program limit' scope p s) at hends
  generalize program limit scope p s = low at hends hfree ⊢
  generalize program limit' scope p s = high at hends ⊢
  cases hends with
  | ok halike =>
    cases halike
    rfl
  | error halike =>
    cases halike
    rfl
  | passed hparted =>
    obtain ⟨reached, rfl⟩ := hparted
    exact absurd rfl (hfree reached _)
  | failed hparted =>
    obtain ⟨reached, rfl⟩ := hparted
    exact absurd rfl (hfree reached _)

/-- A call inside a call needs a limit of two, and three is then as good. -/
theorem program_eq_of_limit_le_nested :
    let s : State := ⟨Heap.empty.newGlobals.2, 0, .unbounded, .still 0⟩
    let p : Program := [.function "f" [] [.expr (.name "true")],
      .function "g" [] [.expr (.call (.name "f") [])], .expr (.call (.name "g") [])]
    (∃ t, program 1 ⟨0⟩ p s = .error (.recursionLimit 1) t) ∧
      (∀ reached t, program 2 ⟨0⟩ p s ≠ .error (.recursionLimit reached) t) ∧
      program 3 ⟨0⟩ p s = program 2 ⟨0⟩ p s := by
  intro s p
  have hfree : ∀ reached t, program 2 ⟨0⟩ p s ≠ .error (.recursionLimit reached) t := by
    have hok : ∃ t, program 2 ⟨0⟩ p s = .ok (.boolean true) t := ⟨_, rfl⟩
    obtain ⟨t, ht⟩ := hok
    intro reached u hu
    rw [ht] at hu
    cases hu
  exact ⟨⟨_, rfl⟩, hfree, program_eq_of_limit_le (by decide) ⟨0⟩ p s hfree⟩

end Script.Eval
