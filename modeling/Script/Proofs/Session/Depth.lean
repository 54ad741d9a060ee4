import Script.Proofs.Evaluation.Termination
import Script.Proofs.Session.Constants

namespace Script

namespace Task

variable {s : State} (task : Task)

theorem counts_run {limit : Nat} (hbound : s.depth ≤ limit) (n : Nat) :
    Machine.Counts limit s.depth ((task.start s).run limit n) := by
  have hcontrol : task.control.isEntering = false := by cases task <;> rfl
  exact (Machine.Counts.start hbound hcontrol).run n

end Task

namespace Session

theorem depth_eval (session : Session) (source : String) :
    (session.eval source).2.state.depth = session.state.depth := by
  cases h : Program.parse source with
  | error errors => simp only [eval, h]
  | ok program =>
    rw [eval_of_parse h]
    exact Eval.stable_depth.program session.limit session.globals program session.state

theorem Becomes.depth_eq {first session : Session} (h : first.Becomes session) :
    session.state.depth = first.state.depth := by
  induction h with
  | same => rfl
  | eval source _ ih => rw [depth_eval, ih]
  | clock _ _ ih => exact ih

/-- The counter of calls is exact. Whatever is evaluated and however it ends, the counter is back
where it was. On the way it tells at each step how many bodies of functions are being evaluated, on
top of what it started with, and never goes above the limit. So between the sources of a session no
call is counted. -/
theorem depth_exact :
    (∀ (limit : Nat) (task : Task) (s : State), s.depth ≤ limit →
      (Eval.final (task.eval limit) s).depth = s.depth ∧
      (∀ n, ((task.start s).run limit n).state.depth =
          s.depth + ((task.start s).run limit n).active ∧
        ((task.start s).run limit n).state.depth ≤ limit) ∧
      (s.heap.WellFormed → task.Fits s.heap →
        ∃ n, ∀ k, n ≤ k → ((task.start s).run limit k).outcome? = some (task.eval limit s))) ∧
    ∀ (limit : Nat) (sink : Sink) (clock : Clock) (session : Session),
      (start limit sink clock).Becomes session → session.state.depth = 0 := by
  refine ⟨?_, ?_⟩
  · intro limit task s hbound
    refine ⟨Task.keeps Eval.stable_depth task limit s, fun n => ?_, fun hw hfits => ?_⟩
    · have hcounts := task.counts_run hbound n
      exact ⟨hcounts.depth, hcounts.bound⟩
    · exact Task.halts limit hw hfits
  · intro limit sink clock session hsession
    exact hsession.depth_eq

/-- A call fails while its parameters are declared. -/
theorem depth_exact_repeated_parameter :
    let s : State := ⟨Heap.empty.newGlobals.2, 1, .unbounded, .still 0⟩
    let task : Task := .program ⟨0⟩ [.function "f" ["a", "a"] [], .expr (.call (.name "f") [])]
    let session := ((start 2 .unbounded (.still 0)).eval "f").2
    s.depth ≤ 2 ∧ s.heap.WellFormed ∧ task.Fits s.heap ∧
      (∃ t, task.eval 2 s = .error (.duplicateDeclaration "a") t ∧ t.depth = 1) ∧
      (∀ n, ((task.start s).run 2 n).state.depth = 1 + ((task.start s).run 2 n).active ∧
        ((task.start s).run 2 n).state.depth ≤ 2) ∧
      (∃ n, ∀ k, n ≤ k → ((task.start s).run 2 k).outcome? = some (task.eval 2 s)) ∧
      (start 2 .unbounded (.still 0)).Becomes session ∧ session.state.depth = 0 := by
  intro s task session
  have hbound : s.depth ≤ 2 := by decide
  have hw : s.heap.WellFormed := Heap.wellFormed_empty.newGlobals
  have hfits : task.Fits s.heap := Nat.zero_lt_one
  have hsession : (start 2 .unbounded (.still 0)).Becomes session := .eval "f" .same
  obtain ⟨hdepth, hrun, hhalts⟩ := depth_exact.1 2 task s hbound
  exact ⟨hbound, hw, hfits, ⟨_, rfl, hdepth⟩, hrun, hhalts hw hfits, hsession,
    depth_exact.2 2 .unbounded (.still 0) session hsession⟩

end Session
end Script
