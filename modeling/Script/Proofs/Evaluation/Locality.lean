import Script.Proofs.Evaluation.WellFormed

namespace Script

def Region.reached (h : Heap) (scope : ScopeId) : Region :=
  ⟨h, h.Reaches (.scope scope)⟩

theorem Region.confines_reached (h : Heap) (scope : ScopeId) : (reached h scope).Confines h :=
  .start fun _ _ hreaches hpoints => hreaches.tail hpoints

namespace Eval

/-- What an evaluation in a scope may do from a state on. What the scope does not reach stays as it
is. Afterwards the scope and the value reach only what the scope reached before, and what has been
made on the way. In well-formed heaps all that is reached is reached over links to parents and by
the values that places hold. -/
structure Local (scope : ScopeId) (m : Eval Value) (s : State) : Prop where
  untouched : ∀ place, s.heap.Has place → ¬s.heap.Reaches (.scope scope) place →
    s.heap.SameAt (final m s).heap place
  fromScope : ∀ place, (final m s).heap.Reaches (.scope scope) place →
    s.heap.Reaches (.scope scope) place ∨ ¬s.heap.Has place ∧ (final m s).heap.Has place
  fromValue : ∀ value t root place, m s = .ok value t → value.place? = some root →
    t.heap.Reaches root place →
      s.heap.Reaches (.scope scope) place ∨ ¬s.heap.Has place ∧ t.heap.Has place
  byLinks : s.heap.WellFormed → s.heap.Has (.scope scope) →
    ∀ h ∈ [s.heap, (final m s).heap], ∀ place target,
      h.Reaches place target ↔ Relation.ReflTransGen h.LinksTo place target

/-- An evaluation that stays inside every region, in particular stays inside the one that its scope
reaches. -/
theorem Local.of_inside {scope : ScopeId} {m : Eval Value}
    (hm : ∀ r : Region, Inside r scope m r.Admits) (s : State) : Local scope m s := by
  have hstays := hm (.reached s.heap scope) s (Region.confines_reached s.heap scope) (.inl .refl)
  have hc := hstays.moves.confines
  refine ⟨fun place hhas hnot => hc.same hhas hnot, ?_, ?_, ?_⟩
  · intro place hreaches
    exact hc.contains_of_reaches (.inl .refl) hreaches
  · intro value t root place hok hroot hreaches
    rw [final_of_ok hok] at hc
    exact hc.contains_of_reaches (hstays.answer hok root hroot) hreaches
  · intro hw hscope
    have hwhole := hm (.whole s.heap) s (Region.confines_whole hw) (.inl hscope)
    have hafter := hwhole.moves.confines.wellFormed hw
    rintro h (- | ⟨_, - | ⟨_, ⟨⟩⟩⟩)
    · exact hw.linked.reaches_iff
    · exact hafter.linked.reaches_iff

/-- The effects of statements and programs are local to the scope that they are evaluated in. -/
theorem effects_local (limit : Nat) (scope : ScopeId) (s : State) :
    (∀ statement, Local scope (stmt (caller limit) scope statement) s) ∧
      ∀ p, Local scope (program limit scope p) s :=
  ⟨fun statement => .of_inside (fun _ => .stmt (callsStay_function limit (limit + 1)) statement) s,
    fun p => .of_inside (fun _ => .program limit scope p) s⟩

end Eval
end Script
