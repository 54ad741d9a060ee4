import Script.Proofs.Evaluation.Keeps
import Script.Proofs.Heap.Reach

namespace Script

structure Region where
  origin : Heap
  inside : Place → Prop

namespace Region

/-- What is made later on counts as part of the region. -/
def Contains (r : Region) (h : Heap) (place : Place) : Prop :=
  r.inside place ∨ ¬r.origin.Has place ∧ h.Has place

/-- A value that leads nowhere else than into the region. -/
def Admits (r : Region) (h : Heap) (value : Value) : Prop :=
  ∀ place, value.place? = some place → r.Contains h place

/-- All that has happened to a heap was confined to the region: nothing is lost, the rest is as it
was, and the region leads nowhere else. -/
structure Confines (r : Region) (h : Heap) : Prop where
  has : ∀ {p}, r.origin.Has p → h.Has p
  same : ∀ {p}, r.origin.Has p → ¬r.inside p → r.origin.SameAt h p
  closed : ∀ {p q}, r.Contains h p → h.PointsTo p q → r.Contains h q
  linked : (∀ p, r.inside p → r.origin.Has p) → r.origin.Linked → h.Linked

structure Moves (r : Region) (h h' : Heap) : Prop where
  confines : r.Confines h'
  has : ∀ {p}, h.Has p → h'.Has p

variable {r : Region} {h h' : Heap} {place : Place} {value : Value}

theorem Moves.refl (hc : r.Confines h) : r.Moves h h :=
  ⟨hc, fun hp => hp⟩

theorem Moves.trans {h'' : Heap} (hm : r.Moves h h') (hm' : r.Moves h' h'') : r.Moves h h'' :=
  ⟨hm'.confines, fun hp => hm'.has (hm.has hp)⟩

theorem Contains.mono (hplace : r.Contains h place) (hhas : ∀ {p}, h.Has p → h'.Has p) :
    r.Contains h' place :=
  hplace.imp_right fun hmade => ⟨hmade.1, hhas hmade.2⟩

theorem Admits.mono (hvalue : r.Admits h value) (hhas : ∀ {p}, h.Has p → h'.Has p) :
    r.Admits h' value :=
  fun place hplace => (hvalue place hplace).mono hhas

theorem admits_of_place?_eq_none (hnone : value.place? = none) : r.Admits h value := by
  intro place hplace
  rw [hnone] at hplace
  cases hplace

namespace Confines

/-- Nothing has happened yet. -/
theorem start (hclosed : ∀ p q, r.inside p → r.origin.PointsTo p q → r.inside q) :
    r.Confines r.origin := by
  refine ⟨fun hp => hp, fun _ _ => .refl _ _, ?_, fun _ hlinked => hlinked⟩
  intro p q hp hpoints
  exact .inl (hclosed p q (hp.resolve_right fun hmade => hmade.1 hmade.2) hpoints)

/-- There is no way out of the region. -/
theorem contains_of_reaches (hc : r.Confines h) {target : Place} (hplace : r.Contains h place)
    (hreaches : h.Reaches place target) : r.Contains h target := by
  induction hreaches with
  | refl => exact hplace
  | tail _ hpoints ih => exact hc.closed ih hpoints

theorem contains_of_chain (hc : r.Confines h) {scope holder : ScopeId}
    (hscope : r.Contains h (.scope scope)) (hholder : holder ∈ h.chain scope) :
    r.Contains h (.scope holder) := by
  rcases List.mem_cons.mp hholder with rfl | houter
  · exact hscope
  · exact hc.closed hscope (.outer houter)

theorem contains_of_binding? (hc : r.Confines h) {scope holder : ScopeId} {name : String}
    {value : Value} (hscope : r.Contains h (.scope scope))
    (hfound : h.binding? scope name = some (holder, value)) :
    r.Contains h (.scope holder) ∧ r.Admits h value := by
  have hget := Heap.get?_of_binding? hfound
  have hholder : r.Contains h (.scope holder) := by
    obtain ⟨candidate, hmem, hcandidate⟩ := List.exists_of_findSome?_eq_some hfound
    obtain ⟨_, _, hpair⟩ := Option.map_eq_some_iff.mp hcandidate
    cases hpair
    exact hc.contains_of_chain hscope hmem
  exact ⟨hholder, fun place hplace => hc.closed hholder (.held (.bound hget) hplace)⟩

theorem admits_lookup (hc : r.Confines h) {scope : ScopeId} {name : String}
    (hscope : r.Contains h (.scope scope)) (hfound : h.lookup scope name = .ok value) :
    r.Admits h value := by
  unfold Heap.lookup at hfound
  split at hfound
  · cases hfound
  · next hbinding =>
    cases hfound
    exact (hc.contains_of_binding? hscope hbinding).2

/-- A change inside the region that adds no way out of it. -/
theorem change (hc : r.Confines h) {targets : Place → Prop}
    (hchange : h.ChangesAt h' place targets) (hplace : r.Contains h' place)
    (htargets : ∀ q, targets q → r.Contains h q)
    (hlinked : (∀ p, r.Contains h p → h.Has p) → h.Linked → h'.Linked) : r.Moves h h' := by
  refine ⟨⟨fun hp => hchange.has (hc.has hp), ?_, ?_, ?_⟩, hchange.has⟩
  · intro p hp hout
    have hne : p ≠ place := by
      intro heq
      exact (heq ▸ hplace).elim hout fun hmade => hmade.1 hp
    exact (hc.same hp hout).trans (hchange.same hne)
  · intro p q hp hpoints
    have hcases : h.PointsTo p q ∨ targets q := by
      by_cases heq : p = place
      · exact heq ▸ hchange.points q (heq ▸ hpoints)
      · exact .inl ((hchange.same heq).pointsTo hpoints)
    rcases hcases with hold | htarget
    · -- A place that led somewhere before was there before.
      have hp' : r.Contains h p := hp.imp_right fun hmade => ⟨hmade.1, hold.has⟩
      exact (hc.closed hp' hold).mono hchange.has
    · exact (htargets q htarget).mono hchange.has
  · intro hinside horigin
    apply hlinked _ (hc.linked hinside horigin)
    intro p hp
    exact hp.elim (fun hold => hc.has (hinside p hold)) fun hmade => hmade.2

/-- A new place is part of the region. -/
theorem make (hc : r.Confines h) {targets : Place → Prop}
    (hchange : h.ChangesAt h' place targets) (hnew : ¬h.Has place) (hplace : h'.Has place)
    (htargets : ∀ q, targets q → r.Contains h q)
    (hlinked : (∀ p, r.Contains h p → h.Has p) → h.Linked → h'.Linked) :
    r.Moves h h' ∧ r.Contains h' place := by
  have hcontains : r.Contains h' place := .inr ⟨fun hold => hnew (hc.has hold), hplace⟩
  exact ⟨hc.change hchange hcontains htargets hlinked, hcontains⟩

theorem newChild (hc : r.Confines h) {parent : ScopeId} (hparent : r.Contains h (.scope parent)) :
    r.Moves h (h.newChild parent).2 ∧
      r.Contains (h.newChild parent).2 (.scope (h.newChild parent).1) := by
  apply hc.make (h.changesAt_newScope _) (Nat.lt_irrefl _)
  · simp [Heap.Has, Heap.newScope]
  · rintro q ⟨around, hmem, rfl⟩
    exact hc.contains_of_chain hparent hmem
  · intro hhas hlinked
    exact hlinked.newChild (hhas _ hparent)

theorem newArray (hc : r.Confines h) (items : Array Value) (hitems : ∀ v ∈ items, r.Admits h v) :
    r.Moves h (h.newArray items).2 ∧
      r.Contains (h.newArray items).2 (.array (h.newArray items).1) := by
  apply hc.make (h.changesAt_newArray items) (Nat.lt_irrefl _)
  · simp [Heap.Has, Heap.newArray]
  · rintro q ⟨v, hmem, hplace⟩
    exact hitems v hmem q hplace
  · exact fun _ hlinked => hlinked

theorem newObject (hc : r.Confines h) (properties : Table Value)
    (hproperties : ∀ key v, properties.get? key = some v → r.Admits h v) :
    r.Moves h (h.newObject properties).2 ∧
      r.Contains (h.newObject properties).2 (.object (h.newObject properties).1) := by
  apply hc.make (h.changesAt_newObject properties) (Nat.lt_irrefl _)
  · simp [Heap.Has, Heap.newObject]
  · rintro q ⟨key, v, hget, hplace⟩
    exact hproperties key v hget q hplace
  · exact fun _ hlinked => hlinked

theorem newStamp (hc : r.Confines h) (hplace : r.Contains h place) :
    r.Moves h h.newStamp.2 := by
  have hchange := h.changesAt_newStamp place
  exact hc.change hchange (hplace.mono hchange.has) (fun _ => False.elim) fun _ hlinked => hlinked

theorem bind (hc : r.Confines h) {id : ScopeId} (name : String) (constant : Bool)
    (hid : r.Contains h (.scope id)) (hvalue : r.Admits h value) :
    r.Moves h (h.bind id name value constant) := by
  have hchange := h.changesAt_bind id name value constant
  exact hc.change hchange (hid.mono hchange.has) hvalue fun _ hl => hl.bind id name value constant

theorem declare (hc : r.Confines h) {id : ScopeId} (name : String) (constant : Bool)
    (hid : r.Contains h (.scope id)) (hvalue : r.Admits h value) :
    r.Moves h (Eval.final (Heap.declare id name value constant) h) := by
  unfold Eval.final Heap.declare
  by_cases hbound : (h.scope id).bindings.contains name
  · rw [if_pos hbound]
    exact .refl hc
  · rw [if_neg hbound]
    exact hc.bind name constant hid hvalue

theorem assign (hc : r.Confines h) {id : ScopeId} (name : String)
    (hid : r.Contains h (.scope id)) (hvalue : r.Admits h value) :
    r.Moves h (Eval.final (Heap.assign id name value) h) := by
  unfold Eval.final Heap.assign
  cases hfound : h.binding? id name with
  | none => exact .refl hc
  | some found =>
    obtain ⟨holder, old⟩ := found
    by_cases hconstant : name ∈ (h.scope holder).constants
    · simp only [hconstant, if_true]
      exact .refl hc
    · simp only [hconstant, if_false]
      exact hc.bind name false (hc.contains_of_binding? hid hfound).1 hvalue

end Confines

def Holds (r : Region) (h : Heap) : Slot → Prop
  | .item array _ => r.Contains h (.array array)
  | .property object _ => r.Contains h (.object object)

theorem Confines.read (hc : r.Confines h) {slot : Slot} (hslot : r.Holds h slot) :
    r.Admits h (slot.read h) := by
  intro place hplace
  cases slot with
  | item array index =>
    unfold Slot.read at hplace
    cases hfound : (Number.position? index).bind fun position => (h.items array)[position]? with
    | none =>
      simp only [hfound] at hplace
      cases hplace
    | some found =>
      simp only [hfound] at hplace
      obtain ⟨position, -, hget⟩ := Option.bind_eq_some_iff.mp hfound
      exact hc.closed hslot (.held (.item (Array.mem_of_getElem? hget)) hplace)
  | property object key =>
    unfold Slot.read at hplace
    cases hfound : (h.properties object).get? key with
    | none =>
      simp only [hfound] at hplace
      cases hplace
    | some found =>
      simp only [hfound] at hplace
      exact hc.closed hslot (.held (.property hfound) hplace)

theorem Confines.write (hc : r.Confines h) {slot : Slot} (hslot : r.Holds h slot)
    (hvalue : r.Admits h value) : r.Moves h (Eval.final (slot.write value) h) := by
  unfold Eval.final Slot.write
  cases slot with
  | item array index =>
    cases hroom : (Number.position? index).filter fun position => h.hasRoom array position with
    | none =>
      simp only [hroom]
      exact .refl hc
    | some position =>
      simp only [hroom]
      have hchange := h.changesAt_store array position value
      exact hc.change hchange (hslot.mono hchange.has) hvalue fun _ hlinked => hlinked
  | property object key =>
    have hchange := h.changesAt_insert object key value
    exact hc.change hchange (hslot.mono hchange.has) hvalue fun _ hlinked => hlinked

end Region
end Script
