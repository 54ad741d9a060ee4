import Script.Globals
import Script.Proofs.Evaluation.Confinement

namespace Script

namespace Heap

/-- A value that leads to nothing but what has been made. -/
def Carries (h : Heap) (value : Value) : Prop :=
  ∀ place, value.place? = some place → h.Has place

/-- A well-formed heap stays so under a change that leads to what has been made. -/
theorem WellFormed.change {h h' : Heap} {place : Place} {targets : Place → Prop}
    (hw : h.WellFormed) (hchange : h.ChangesAt h' place targets)
    (htargets : ∀ q, targets q → h'.Has q) (hlinked : h'.Linked) : h'.WellFormed := by
  refine ⟨hlinked, ?_⟩
  intro p q hpoints
  by_cases heq : p = place
  · subst heq
    exact (hchange.points q hpoints).elim (fun hold => hchange.has (hw.has hold)) (htargets q)
  · exact hchange.has (hw.has ((hchange.same heq).pointsTo hpoints))

theorem wellFormed_empty : empty.WellFormed := by
  refine ⟨?_, fun {p _} hpoints => ?_⟩
  · intro id parent hparent
    cases hparent
  · exact absurd hpoints.has (by cases p <;> exact Nat.not_lt_zero _)

theorem WellFormed.newStamp {h : Heap} (hw : h.WellFormed) : h.newStamp.2.WellFormed :=
  hw.change (h.changesAt_newStamp (.scope ⟨0⟩)) (fun _ => False.elim) hw.linked

theorem WellFormed.newScope {h : Heap} (hw : h.WellFormed) : (h.newScope []).2.WellFormed := by
  apply hw.change (h.changesAt_newScope [])
  · rintro q ⟨around, hmem, -⟩
    cases hmem
  · apply hw.linked.newScope
    intro parent hparent
    cases hparent

theorem WellFormed.bind {h : Heap} (hw : h.WellFormed) (id : ScopeId) (name : String)
    {value : Value} (hvalue : h.Carries value) (constant : Bool) :
    (h.bind id name value constant).WellFormed := by
  have hchange := h.changesAt_bind id name value constant
  exact hw.change hchange (fun q hq => hchange.has (hvalue q hq))
    (hw.linked.bind id name value constant)

theorem WellFormed.newGlobals {h : Heap} (hw : h.WellFormed) : h.newGlobals.2.WellFormed := by
  have hstart : (h.newStamp.2.newStamp.2.newScope []).2.WellFormed := hw.newStamp.newStamp.newScope
  -- The constants of the outermost scope lead nowhere.
  have hbind : ∀ {h : Heap} {value : Value} (id : ScopeId) (name : String), value.place? = none →
      h.WellFormed → (h.bind id name value true).WellFormed := by
    intro h value id name hnone hw
    refine hw.bind id name (fun place hplace => ?_) true
    rw [hnone] at hplace
    cases hplace
  unfold Heap.newGlobals
  simp only [List.foldl_cons, List.foldl_nil]
  exact hbind _ _ rfl (hbind _ _ rfl (hbind _ _ rfl (hbind _ _ rfl (hbind _ _ rfl hstart))))

end Heap

structure Region.Rooted (r : Region) : Prop where
  has : ∀ place, r.inside place → r.origin.Has place
  origin : r.origin.Linked

theorem Region.Rooted.linked {r : Region} {h : Heap} (hrooted : r.Rooted) (hc : r.Confines h) :
    h.Linked :=
  hc.linked hrooted.has hrooted.origin

def Region.whole (h : Heap) : Region :=
  ⟨h, h.Has⟩

namespace Region

variable {h h' : Heap}

theorem rooted_whole (hw : h.WellFormed) : (whole h).Rooted :=
  ⟨fun _ hplace => hplace, hw.linked⟩

theorem confines_whole (hw : h.WellFormed) : (whole h).Confines h :=
  .start fun _ _ _ hpoints => hw.has hpoints

theorem Confines.contains_whole_iff (hc : (whole h).Confines h') (place : Place) :
    (whole h).Contains h' place ↔ h'.Has place := by
  constructor
  · exact fun hplace => hplace.elim hc.has fun hmade => hmade.2
  · intro hplace
    by_cases hold : h.Has place
    · exact .inl hold
    · exact .inr ⟨hold, hplace⟩

theorem Confines.wellFormed (hc : (whole h).Confines h') (hw : h.WellFormed) : h'.WellFormed := by
  refine ⟨(rooted_whole hw).linked hc, ?_⟩
  intro p q hpoints
  have hp := (hc.contains_whole_iff p).mpr hpoints.has
  exact (hc.contains_whole_iff q).mp (hc.closed hp hpoints)

end Region
end Script
