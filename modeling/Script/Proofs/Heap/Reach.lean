import Mathlib.Logic.Relation
import Script.Member
import Script.Proofs.Heap.Scope

namespace Script

inductive Place where
  | scope (id : ScopeId)
  | array (id : ArrayId)
  | object (id : ObjectId)
  deriving DecidableEq, Repr

/-- The place a value stands for. A function stands for the scope it captured. -/
def Value.place? : Value → Option Place
  | .array id => some (.array id)
  | .object id => some (.object id)
  | .function closure => some (.scope closure.captured)
  | _ => none

namespace Heap

def Has (h : Heap) : Place → Prop
  | .scope id => id.index < h.scopes.size
  | .array id => id.index < h.arrays.size
  | .object id => id.index < h.objects.size

inductive HeldAt (h : Heap) : Place → Value → Prop
  | bound {id : ScopeId} {name : String} {value : Value} :
    (h.scope id).bindings.get? name = some value → HeldAt h (.scope id) value
  | item {id : ArrayId} {value : Value} : value ∈ h.items id → HeldAt h (.array id) value
  | property {id : ObjectId} {key : String} {value : Value} :
    (h.properties id).get? key = some value → HeldAt h (.object id) value

/-- One place leads to another: a scope to those around it, and each place by the values there. -/
inductive PointsTo (h : Heap) : Place → Place → Prop
  | outer {id around : ScopeId} :
    around ∈ (h.scope id).outer → PointsTo h (.scope id) (.scope around)
  | held {place target : Place} {value : Value} :
    h.HeldAt place value → value.place? = some target → PointsTo h place target

def Reaches (h : Heap) : Place → Place → Prop :=
  Relation.ReflTransGen h.PointsTo

def SameAt (h h' : Heap) : Place → Prop
  | .scope id => h'.scope id = h.scope id
  | .array id => h'.items id = h.items id
  | .object id => h'.properties id = h.properties id

theorem SameAt.refl (h : Heap) (place : Place) : h.SameAt h place := by
  cases place <;> rfl

theorem SameAt.trans {first second third : Heap} {place : Place} (h : first.SameAt second place)
    (h' : second.SameAt third place) : first.SameAt third place := by
  cases place <;> exact Eq.trans h' h

theorem SameAt.heldAt {h h' : Heap} {place : Place} {value : Value} (hsame : h.SameAt h' place)
    (hheld : h'.HeldAt place value) : h.HeldAt place value := by
  cases hheld with
  | bound hget => exact .bound (hsame ▸ hget)
  | item hmem => exact .item (hsame ▸ hmem)
  | property hget => exact .property (hsame ▸ hget)

/-- A place that holds the same leads to the same. -/
theorem SameAt.pointsTo {h h' : Heap} {place target : Place} (hsame : h.SameAt h' place)
    (hpoints : h'.PointsTo place target) : h.PointsTo place target := by
  cases hpoints with
  | outer hmem => exact .outer (hsame ▸ hmem)
  | held hheld hplace => exact .held (hsame.heldAt hheld) hplace

/-- Only what has been made leads anywhere. -/
theorem PointsTo.has {h : Heap} {place target : Place} (hpoints : h.PointsTo place target) :
    h.Has place := by
  apply Classical.byContradiction
  intro hnone
  cases hpoints with
  | outer hmem => simp_all [Has, scope, Scope.inside]
  | held hheld _ =>
    cases hheld with
    | bound hget => simp_all [Has, scope, Scope.inside]
    | item hmem => simp_all [Has, items]
    | property hget => simp_all [Has, properties]

structure Differs {α : Type} (xs ys : Array α) (index : Nat) : Prop where
  size : xs.size ≤ ys.size
  same : ∀ i, i ≠ index → ys[i]? = xs[i]?

theorem differs_modify {α : Type} (xs : Array α) (index : Nat) (f : α → α) :
    Differs xs (xs.modify index f) index := by
  refine ⟨Nat.le_of_eq Array.size_modify.symm, ?_⟩
  intro i hi
  rw [Array.getElem?_modify, if_neg (Ne.symm hi)]

theorem differs_push {α : Type} (xs : Array α) (x : α) : Differs xs (xs.push x) xs.size := by
  refine ⟨Array.size_push x ▸ Nat.le_succ _, ?_⟩
  intro i hi
  rw [Array.getElem?_push, if_neg hi]

/-- A heap becomes another by a change at one place, which may be new. What that place leads to
afterwards is among what it led to before and the new targets. -/
structure ChangesAt (h h' : Heap) (place : Place) (targets : Place → Prop) : Prop where
  has : ∀ {p}, h.Has p → h'.Has p
  same : ∀ {p}, p ≠ place → h.SameAt h' p
  points : ∀ q, h'.PointsTo place q → h.PointsTo place q ∨ targets q

namespace ChangesAt

variable {h : Heap} {targets : Place → Prop}

theorem of_scopes {id : ScopeId} {scopes : Array Scope}
    (hdiffers : Differs h.scopes scopes id.index)
    (hpoints : ∀ q, { h with scopes := scopes }.PointsTo (.scope id) q →
      h.PointsTo (.scope id) q ∨ targets q) :
    h.ChangesAt { h with scopes := scopes } (.scope id) targets := by
  refine ⟨?_, ?_, hpoints⟩
  · intro p hp
    cases p with
    | scope other => exact Nat.lt_of_lt_of_le hp hdiffers.size
    | _ => exact hp
  · intro p hp
    cases p with
    | scope other =>
      have hne : other.index ≠ id.index := fun heq => hp (congrArg (fun i => Place.scope ⟨i⟩) heq)
      show Option.getD _ _ = Option.getD _ _
      rw [hdiffers.same other.index hne]
    | _ => rfl

theorem of_arrays {id : ArrayId} {arrays : Array (Array Value)}
    (hdiffers : Differs h.arrays arrays id.index)
    (hpoints : ∀ q, { h with arrays := arrays }.PointsTo (.array id) q →
      h.PointsTo (.array id) q ∨ targets q) :
    h.ChangesAt { h with arrays := arrays } (.array id) targets := by
  refine ⟨?_, ?_, hpoints⟩
  · intro p hp
    cases p with
    | array other => exact Nat.lt_of_lt_of_le hp hdiffers.size
    | _ => exact hp
  · intro p hp
    cases p with
    | array other =>
      have hne : other.index ≠ id.index := fun heq => hp (congrArg (fun i => Place.array ⟨i⟩) heq)
      show Option.getD _ _ = Option.getD _ _
      rw [hdiffers.same other.index hne]
    | _ => rfl

theorem of_objects {id : ObjectId} {objects : Array (Table Value)}
    (hdiffers : Differs h.objects objects id.index)
    (hpoints : ∀ q, { h with objects := objects }.PointsTo (.object id) q →
      h.PointsTo (.object id) q ∨ targets q) :
    h.ChangesAt { h with objects := objects } (.object id) targets := by
  refine ⟨?_, ?_, hpoints⟩
  · intro p hp
    cases p with
    | object other => exact Nat.lt_of_lt_of_le hp hdiffers.size
    | _ => exact hp
  · intro p hp
    cases p with
    | object other =>
      have hne : other.index ≠ id.index := fun heq => hp (congrArg (fun i => Place.object ⟨i⟩) heq)
      show Option.getD _ _ = Option.getD _ _
      rw [hdiffers.same other.index hne]
    | _ => rfl

end ChangesAt

section Operations

variable (h : Heap)

theorem changesAt_newScope (outer : List ScopeId) :
    h.ChangesAt (h.newScope outer).2 (.scope (h.newScope outer).1)
      fun q => ∃ around ∈ outer, q = .scope around := by
  have hnew : (h.newScope outer).2.scope (h.newScope outer).1 = .inside outer := by
    simp [newScope, scope]
  refine .of_scopes (differs_push _ _) fun q hq => ?_
  change (h.newScope outer).2.PointsTo (.scope (h.newScope outer).1) q at hq
  cases hq with
  | outer hmem =>
    rw [hnew] at hmem
    exact .inr ⟨_, hmem, rfl⟩
  | held hheld _ =>
    obtain ⟨hget⟩ := hheld
    rw [hnew] at hget
    cases hget

theorem changesAt_newArray (items : Array Value) :
    h.ChangesAt (h.newArray items).2 (.array (h.newArray items).1)
      fun q => ∃ value ∈ items, value.place? = some q := by
  have hnew : (h.newArray items).2.items (h.newArray items).1 = items := by
    simp [newArray, Heap.items]
  refine .of_arrays (differs_push _ _) fun q hq => ?_
  change (h.newArray items).2.PointsTo (.array (h.newArray items).1) q at hq
  cases hq with
  | held hheld hplace =>
    obtain - | hmem := hheld
    rw [hnew] at hmem
    exact .inr ⟨_, hmem, hplace⟩

theorem changesAt_newObject (properties : Table Value) :
    h.ChangesAt (h.newObject properties).2 (.object (h.newObject properties).1)
      fun q => ∃ key value, properties.get? key = some value ∧ value.place? = some q := by
  have hnew : (h.newObject properties).2.properties (h.newObject properties).1 = properties := by
    simp [newObject, Heap.properties]
  refine .of_objects (differs_push _ _) fun q hq => ?_
  change (h.newObject properties).2.PointsTo (.object (h.newObject properties).1) q at hq
  cases hq with
  | held hheld hplace =>
    obtain - | - | hget := hheld
    rw [hnew] at hget
    exact .inr ⟨_, _, hget, hplace⟩

/-- A stamp is taken from no place. -/
theorem changesAt_newStamp (place : Place) : h.ChangesAt h.newStamp.2 place fun _ => False := by
  have hsame : ∀ p, h.SameAt h.newStamp.2 p := fun p => by cases p <;> rfl
  refine ⟨?_, fun _ => hsame _, fun q hq => .inl ((hsame place).pointsTo hq)⟩
  intro p hp
  cases p <;> exact hp

theorem changesAt_bind (id : ScopeId) (name : String) (value : Value) (constant : Bool) :
    h.ChangesAt (h.bind id name value constant) (.scope id) fun q => value.place? = some q := by
  refine .of_scopes (differs_modify _ _ _) fun q hq => ?_
  change (h.bind id name value constant).PointsTo (.scope id) q at hq
  rcases h.scope_bind_cases id name value constant id with hsame | ⟨-, hbound⟩
  · have hsame : h.SameAt (h.bind id name value constant) (.scope id) := hsame
    exact .inl (hsame.pointsTo hq)
  · cases hq with
    | outer hmem =>
      rw [hbound] at hmem
      exact .inl (.outer hmem)
    | held hheld hplace =>
      obtain ⟨hget⟩ := hheld
      rw [hbound] at hget
      rcases Table.get?_insert_cases hget with ⟨-, rfl⟩ | hbefore
      · exact .inr hplace
      · exact .inl (.held (.bound hbefore) hplace)

theorem changesAt_store (id : ArrayId) (position : Nat) (value : Value) :
    h.ChangesAt (h.store id position value) (.array id) fun q => value.place? = some q := by
  refine .of_arrays (differs_modify _ _ _) fun q hq => ?_
  change (h.store id position value).PointsTo (.array id) q at hq
  by_cases hid : id.index < h.arrays.size
  · have hstored : (h.store id position value).items id =
        if position = (h.items id).size then (h.items id).push value
        else (h.items id).setIfInBounds position value := by
      simp [store, items, Array.getElem_modify, hid]
    cases hq with
    | @held _ _ found hheld hplace =>
      obtain - | hmem := hheld
      have hold : found ∈ h.items id ∨ found = value := by
        rw [hstored] at hmem
        split at hmem
        · exact Array.mem_push.mp hmem
        · exact Array.mem_or_eq_of_mem_setIfInBounds hmem
      rcases hold with hold | heq
      · exact .inl (.held (.item hold) hplace)
      · exact .inr (heq ▸ hplace)
  · have hsame : h.SameAt (h.store id position value) (.array id) := by
      simp [SameAt, items, store, hid]
    exact .inl (hsame.pointsTo hq)

theorem changesAt_insert (id : ObjectId) (key : String) (value : Value) :
    h.ChangesAt (h.insert id key value) (.object id) fun q => value.place? = some q := by
  refine .of_objects (differs_modify _ _ _) fun q hq => ?_
  change (h.insert id key value).PointsTo (.object id) q at hq
  by_cases hid : id.index < h.objects.size
  · have hinserted : (h.insert id key value).properties id =
        (h.properties id).insert key value := by
      simp [insert, properties, Array.getElem_modify, hid]
    cases hq with
    | held hheld hplace =>
      obtain - | - | hget := hheld
      rw [hinserted] at hget
      rcases Table.get?_insert_cases hget with ⟨-, rfl⟩ | hbefore
      · exact .inr hplace
      · exact .inl (.held (.property hbefore) hplace)
  · have hsame : h.SameAt (h.insert id key value) (.object id) := by
      simp [SameAt, properties, insert, hid]
    exact .inl (hsame.pointsTo hq)

end Operations

/-- The parent of a scope has been made, and the scopes around a scope are its parent and those
around the parent. -/
def Linked (h : Heap) : Prop :=
  ∀ id parent, h.parent? id = some parent →
    h.Has (.scope parent) ∧ (h.scope id).outer = h.chain parent

/-- Besides, nothing leads to a place that was never made. -/
structure WellFormed (h : Heap) : Prop where
  linked : h.Linked
  has : ∀ {p q}, h.PointsTo p q → h.Has q

section Linked

variable {h : Heap}

/-- The links to parents come to an end: what passes from each parent to its children, and holds of
the outermost scopes, holds of all. -/
@[elab_as_elim]
theorem Linked.induction (hlinked : h.Linked) {motive : ScopeId → Prop}
    (outermost : ∀ id, (h.scope id).outer = [] → motive id)
    (inner : ∀ id parent, h.parent? id = some parent → motive parent → motive id) (id : ScopeId) :
    motive id := by
  generalize hlist : (h.scope id).outer = list
  -- The scopes around the parent are a shorter list.
  induction list generalizing id with
  | nil => exact outermost id hlist
  | cons parent rest ih =>
    have hparent : h.parent? id = some parent := by rw [parent?, hlist, List.head?_cons]
    have hchain := (hlinked id parent hparent).2
    rw [hlist, chain, List.cons.injEq] at hchain
    exact inner id parent hparent (ih parent hchain.2.symm)

/-- In a linked heap the scopes around a scope are those that the links to parents lead to. -/
theorem Linked.mem_outer_iff (hlinked : h.Linked) (id around : ScopeId) :
    around ∈ (h.scope id).outer ↔
      Relation.TransGen (fun child parent => h.parent? child = some parent) id around := by
  constructor
  · intro hmem
    induction id using hlinked.induction with
    | outermost id houter =>
      rw [houter] at hmem
      cases hmem
    | inner id parent hparent ih =>
      rw [(hlinked id parent hparent).2] at hmem
      rcases List.mem_cons.mp hmem with rfl | houter
      · exact .single hparent
      · exact .head hparent (ih houter)
  · intro hpath
    induction hpath using Relation.TransGen.head_induction_on with
    | single hparent =>
      rw [(hlinked _ _ hparent).2]
      exact List.mem_cons_self
    | head hparent _ ih =>
      rw [(hlinked _ _ hparent).2]
      exact List.mem_cons_of_mem _ ih

/-- The steps of `Heap.Reaches` when a scope leads to its parent only. -/
inductive LinksTo (h : Heap) : Place → Place → Prop
  | parent {id parent : ScopeId} :
    h.parent? id = some parent → LinksTo h (.scope id) (.scope parent)
  | held {place target : Place} {value : Value} :
    h.HeldAt place value → value.place? = some target → LinksTo h place target

theorem Linked.reaches_iff (hlinked : h.Linked) (place target : Place) :
    h.Reaches place target ↔ Relation.ReflTransGen h.LinksTo place target := by
  constructor
  · intro hreaches
    induction hreaches with
    | refl => exact .refl
    | tail _ hpoints ih =>
      cases hpoints with
      | outer hmem =>
        -- One step to a scope further out is a way over several parents.
        have hparents := ((hlinked.mem_outer_iff _ _).mp hmem).to_reflTransGen
        exact ih.trans (hparents.lift Place.scope fun _ _ hparent => .parent hparent)
      | held hheld hplace => exact ih.tail (.held hheld hplace)
  · intro hlinks
    induction hlinks with
    | refl => exact .refl
    | tail _ hlink ih =>
      cases hlink with
      | parent hparent => exact ih.tail (.outer ((hlinked.mem_outer_iff _ _).mpr (.single hparent)))
      | held hheld hplace => exact ih.tail (.held hheld hplace)

/-- Only the scopes around each scope matter. -/
theorem Linked.of_outer_eq {h' : Heap} (hlinked : h.Linked)
    (hhas : ∀ id, h.Has (.scope id) → h'.Has (.scope id))
    (houter : ∀ id, (h'.scope id).outer = (h.scope id).outer) : h'.Linked := by
  intro id parent hparent
  rw [parent?, houter] at hparent
  obtain ⟨hmade, hchain⟩ := hlinked id parent hparent
  refine ⟨hhas parent hmade, ?_⟩
  rw [houter, hchain, chain, chain, houter]

theorem outer_bind (h : Heap) (id : ScopeId) (name : String) (value : Value) (constant : Bool)
    (other : ScopeId) :
    ((h.bind id name value constant).scope other).outer = (h.scope other).outer := by
  rcases h.scope_bind_cases id name value constant other with hsame | ⟨rfl, hbound⟩
  · rw [hsame]
  · rw [hbound, Scope.bind]

theorem Linked.bind (hlinked : h.Linked) (id : ScopeId) (name : String) (value : Value)
    (constant : Bool) : (h.bind id name value constant).Linked := by
  apply hlinked.of_outer_eq
  · intro other hother
    exact (h.changesAt_bind id name value constant).has hother
  · exact h.outer_bind id name value constant

/-- A new scope is outermost, or lies in a parent and in the scopes around that one. -/
theorem Linked.newScope (hlinked : h.Linked) {outer : List ScopeId}
    (houter : ∀ parent, outer.head? = some parent →
      h.Has (.scope parent) ∧ outer = h.chain parent) : (h.newScope outer).2.Linked := by
  have hchanges := h.changesAt_newScope outer
  have hold : ∀ {id}, h.Has (.scope id) → (h.newScope outer).2.chain id = h.chain id := by
    intro id hid
    rw [chain, chain, scope_newScope h outer hid]
  intro id parent hparent
  by_cases hid : id = (h.newScope outer).1
  · have hnew : (h.newScope outer).2.scope id = .inside outer := by
      rw [hid]
      simp [Heap.newScope, scope]
    rw [parent?, hnew] at hparent
    obtain ⟨hmade, hchain⟩ := houter parent hparent
    rw [hnew, hold hmade]
    exact ⟨hchanges.has hmade, hchain⟩
  · have hsame : (h.newScope outer).2.scope id = h.scope id :=
      hchanges.same fun heq => hid (Place.scope.inj heq)
    rw [parent?, hsame] at hparent
    obtain ⟨hmade, hchain⟩ := hlinked id parent hparent
    rw [hsame, hold hmade]
    exact ⟨hchanges.has hmade, hchain⟩

theorem Linked.newChild (hlinked : h.Linked) {parent : ScopeId} (hparent : h.Has (.scope parent)) :
    (h.newChild parent).2.Linked := by
  apply hlinked.newScope
  intro above habove
  cases habove
  exact ⟨hparent, rfl⟩

end Linked
end Heap
end Script
