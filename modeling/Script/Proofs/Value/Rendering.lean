import Mathlib.Logic.Relation
import Script.Proofs.Heap.Reach
import Script.Proofs.Program.Literal
import Script.Proofs.Value.Walk

namespace Script.Heap

variable {h : Heap} {v part : Value}

def parts (h : Heap) : Value → List Value
  | .array id => (h.items id).toList
  | .object id => (h.properties id).values
  | _ => []

def Holds (h : Heap) (v part : Value) : Prop :=
  part ∈ h.parts v

def Within (h : Heap) : Value → Value → Prop :=
  Relation.ReflTransGen h.Holds

/-- Nothing in the value is inside itself. -/
def Acyclic (h : Heap) (v : Value) : Prop :=
  ∀ part, h.Within v part → ¬Relation.TransGen h.Holds part part

theorem Acyclic.of_holds (hv : h.Acyclic v) (hpart : h.Holds v part) : h.Acyclic part :=
  fun deeper hdeeper => hv deeper (.head hpart hdeeper)

/-- A value is acyclic if what is inside it ranks lower. -/
theorem acyclic_of_rank (rank : Value → Nat) (hrank : ∀ a b, h.Holds a b → rank b < rank a)
    (v : Value) : h.Acyclic v := by
  have hdescends : ∀ a b, Relation.TransGen h.Holds a b → rank b < rank a := by
    intro a b hab
    induction hab with
    | single hab => exact hrank _ _ hab
    | tail _ hbc ih => exact (hrank _ _ hbc).trans ih
  intro part _ hcycle
  exact Nat.lt_irrefl _ (hdescends part part hcycle)

/-- Only containers of the heap hold anything. -/
theorem Holds.exists_container (hpart : h.Holds v part) : ∃ c ∈ h.containers, v = c.value := by
  cases v with
  | array id => exact ⟨.array id, array_mem_of_mem_items hpart, rfl⟩
  | object id => exact ⟨.object id, object_mem_of_mem_values hpart, rfl⟩
  | _ => cases hpart

def Inside (h : Heap) (opened : List Container) (v : Value) : Prop :=
  ∀ c ∈ opened, Relation.TransGen h.Holds c.value v

theorem inside_nil (h : Heap) (v : Value) : h.Inside [] v :=
  fun _ hmem => absurd hmem List.not_mem_nil

section Container

variable {opened : List Container} {c : Container}

theorem Inside.cons (hinside : h.Inside opened c.value) (hpart : h.Holds c.value part) :
    h.Inside (c :: opened) part := by
  intro outer houter
  rcases List.mem_cons.mp houter with rfl | houter
  · exact .single hpart
  · exact (hinside outer houter).tail hpart

theorem Acyclic.not_mem (hv : h.Acyclic c.value) (hinside : h.Inside opened c.value) :
    c ∉ opened :=
  fun hmem => hv _ .refl (hinside c hmem)

end Container

/-- What holds of an acyclic value may be shown from what holds of its parts. -/
theorem Acyclic.induction {P : Value → Prop}
    (hstep : ∀ v, h.Acyclic v → (∀ part, h.Holds v part → P part) → P v) (hv : h.Acyclic v) :
    P v := by
  -- The containers around the value are open. Going into the value opens a further one.
  have hinside : ∀ (opened : List Container) (v : Value),
      h.Acyclic v → h.Inside opened v → P v := by
    intro opened
    induction opened using unopened_induction h.containers with
    | hstep opened ih =>
      intro v hv hinside
      apply hstep v hv
      intro part hpart
      obtain ⟨c, hmem, rfl⟩ := hpart.exists_container
      exact ih c hmem (hv.not_mem hinside) part (hv.of_holds hpart) (hinside.cons hpart)
  exact hinside [] v hv (h.inside_nil v)

section Container

variable {opened : List Container} {c : Container}

theorem textOf_congr {text text' : Value → String}
    (heq : ∀ part, h.Holds c.value part → text part = text' part) :
    h.textOf text c = h.textOf text' c := by
  cases c with
  | array id =>
    have hitems : (h.items id).toList.map text = (h.items id).toList.map text' :=
      List.map_congr_left heq
    rw [textOf, textOf, hitems]
  | object id =>
    have hentries : (h.properties id).entries.map (fun entry => entry.1 ++ ": " ++ text entry.2) =
        (h.properties id).entries.map fun entry => entry.1 ++ ": " ++ text' entry.2 := by
      apply List.map_congr_left
      intro entry hentry
      rw [heq entry.2 (List.mem_map_of_mem hentry)]
    rw [textOf, textOf, hentries]

/-- Quotes only make a difference for strings. -/
theorem display_eq (hv : ∀ text, v ≠ .string text) :
    h.display v = h.displayFrom [] true v := by
  have hcontainer : ∀ c : Container, h.display c.value = h.displayFrom [] true c.value := by
    intro c
    rw [display_eq_displayFrom, displayFrom_value List.not_mem_nil,
      displayFrom_value List.not_mem_nil]
  cases v with
  | string text => exact absurd rfl (hv text)
  | array id => exact hcontainer (.array id)
  | object id => exact hcontainer (.object id)
  | _ => simp only [display_eq_displayFrom, displayFrom]

/-- The containers around an acyclic value do not show in its text. -/
theorem Acyclic.displayFrom_eq (hv : h.Acyclic v) (hinside : h.Inside opened v) :
    h.displayFrom opened true v = h.displayFrom [] true v := by
  revert opened
  refine Acyclic.induction (P := fun v => ∀ {opened : List Container}, h.Inside opened v →
    h.displayFrom opened true v = h.displayFrom [] true v) ?_ hv
  intro v hv ih opened hinside
  have hcontainer : ∀ c : Container, v = c.value →
      h.displayFrom opened true v = h.displayFrom [] true v := by
    rintro c rfl
    rw [displayFrom_value (hv.not_mem hinside), displayFrom_value List.not_mem_nil]
    apply textOf_congr
    intro part hpart
    rw [ih part hpart (hinside.cons hpart), ih part hpart ((h.inside_nil _).cons hpart)]
  cases v with
  | array id => exact hcontainer (.array id) rfl
  | object id => exact hcontainer (.object id) rfl
  | _ => simp only [displayFrom]

theorem Acyclic.displayFrom_value (hv : h.Acyclic c.value) (nested : Bool) :
    h.displayFrom [] nested c.value = h.textOf (h.displayFrom [] true) c := by
  rw [Heap.displayFrom_value List.not_mem_nil]
  apply textOf_congr
  intro part hpart
  exact (hv.of_holds hpart).displayFrom_eq ((h.inside_nil _).cons hpart)

end Container

def readableEscapes (c : Char) : List (List Char) :=
  [[c], ['\\', 'n'], ['\\', 't'], ['\\', 'r'], ['\\', '"'], ['\\', '\\']]

/-- The text of the value says what the value is. Its parts are not asked. -/
inductive Legible (h : Heap) : Value → Prop
  | null : Legible h .null
  | boolean (b : Bool) : Legible h (.boolean b)
  | string {text : String} (hescapes : ∀ c ∈ text.toList, Text.escape '"' c ∈ readableEscapes c) :
      Legible h (.string text)
  | number {x y : Float} (hform : IsNumber (Number.shown.format x).toList)
      (hread : Number.read? (Number.shown.format x) = some y) (hequal : (y == x) = true) :
      Legible h (.number x)
  | array {id : ArrayId} (hid : h.Has (.array id)) : Legible h (.array id)
  | object {id : ObjectId} (hid : h.Has (.object id))
      (hkeys : ∀ key ∈ (h.properties id).keys, IsName key) : Legible h (.object id)

theorem conveys_escape {c : Char} (hc : Text.escape '"' c ∈ readableEscapes c) :
    Stretch.Conveys '"' c (Text.escape '"' c) := by
  unfold Text.escape at hc ⊢
  split_ifs at hc ⊢ with hnul htab hreturn hline hquote hvisible
  · subst hnul
    simp [readableEscapes] at hc
  · exact .inr ⟨'t', rfl, htab ▸ rfl⟩
  · exact .inr ⟨'r', rfl, hreturn ▸ rfl⟩
  · exact .inr ⟨'n', rfl, hline ▸ rfl⟩
  · refine .inr ⟨c, rfl, ?_⟩
    rcases hquote with rfl | rfl <;> rfl
  · exact .inl ⟨rfl, not_or.mp hquote⟩
  · simp [readableEscapes] at hc

end Script.Heap
