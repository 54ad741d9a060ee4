import Script.Value.Display
import Script.Value.Equality

namespace Script

def Container.value : Container → Value
  | array id => .array id
  | object id => .object id

theorem Container.value_injective {p q : Container} (h : p.value = q.value) : p = q := by
  cases p <;> cases q <;> cases h <;> rfl

namespace Heap

def containers (h : Heap) : List Container :=
  (List.range h.arrays.size).map (fun i => .array ⟨i⟩) ++
    (List.range h.objects.size).map fun i => .object ⟨i⟩

def containerPairs (h : Heap) : List (Container × Container) :=
  h.containers.flatMap fun a => h.containers.map fun b => (a, b)

variable {h : Heap}

theorem length_containers (h : Heap) : h.containers.length = h.containerCount := by
  simp [containers, containerCount]

theorem length_containerPairs (h : Heap) :
    h.containerPairs.length = h.containerCount * h.containerCount := by
  simp [containerPairs, List.length_flatMap, List.map_const', length_containers]

theorem array_mem_containers {id : ArrayId} {items : Array Value}
    (hitems : h.arrays[id.index]? = some items) : .array id ∈ h.containers := by
  have hlt : id.index < h.arrays.size := (Array.getElem?_eq_some_iff.mp hitems).1
  exact List.mem_append_left _ (List.mem_map.mpr ⟨id.index, List.mem_range.mpr hlt, rfl⟩)

theorem object_mem_containers {id : ObjectId} {properties : Table Value}
    (hproperties : h.objects[id.index]? = some properties) : .object id ∈ h.containers := by
  have hlt : id.index < h.objects.size := (Array.getElem?_eq_some_iff.mp hproperties).1
  exact List.mem_append_right _ (List.mem_map.mpr ⟨id.index, List.mem_range.mpr hlt, rfl⟩)

theorem array_mem_of_mem_items {id : ArrayId} {x : Value} (hx : x ∈ (h.items id).toList) :
    .array id ∈ h.containers := by
  cases hid : h.arrays[id.index]? with
  | none => simp [items, hid] at hx
  | some xs => exact array_mem_containers hid

theorem object_mem_of_mem_entries {id : ObjectId} {entry : String × Value}
    (hentry : entry ∈ (h.properties id).entries) : .object id ∈ h.containers := by
  cases hid : h.objects[id.index]? with
  | none => simp [properties, hid, Table.empty] at hentry
  | some t => exact object_mem_containers hid

theorem object_mem_of_mem_values {id : ObjectId} {x : Value} (hx : x ∈ (h.properties id).values) :
    .object id ∈ h.containers := by
  obtain ⟨entry, hentry, -⟩ := List.mem_map.mp hx
  exact object_mem_of_mem_entries hentry

theorem pair_mem_containerPairs {a b : Container} (ha : a ∈ h.containers)
    (hb : b ∈ h.containers) : (a, b) ∈ h.containerPairs :=
  List.mem_flatMap.mpr ⟨a, ha, List.mem_map.mpr ⟨b, hb, rfl⟩⟩

end Heap

/-- How many members of a list are not open. A walk that opens only members that are not open yet
ends because this number falls. -/
def unopened {α : Type} [DecidableEq α] (all opened : List α) : Nat :=
  all.countP fun a => a ∉ opened

section Unopened

variable {α : Type} [DecidableEq α] {all opened : List α} {a : α}

theorem unopened_lt {depth : Nat} (hdepth : all.length < depth) : unopened all opened < depth :=
  Nat.lt_of_le_of_lt List.countP_le_length hdepth

theorem unopened_cons_le (all opened : List α) (a : α) :
    unopened all (a :: opened) ≤ unopened all opened := by
  apply List.countP_mono_left
  intro b _ hb
  simp only [List.mem_cons, not_or, decide_eq_true_eq] at hb ⊢
  exact hb.2

theorem unopened_cons_lt (hall : a ∈ all) (hopened : a ∉ opened) :
    unopened all (a :: opened) < unopened all opened := by
  induction all with
  | nil => simp at hall
  | cons b rest ih =>
    have hrest : unopened (b :: rest) (a :: opened) =
        unopened rest (a :: opened) + if b ∉ a :: opened then 1 else 0 := by
      simp [unopened, List.countP_cons]
    have hrest' : unopened (b :: rest) opened =
        unopened rest opened + if b ∉ opened then 1 else 0 := by
      simp [unopened, List.countP_cons]
    rw [hrest, hrest']
    have hle := unopened_cons_le rest opened a
    by_cases hab : a = b
    · subst hab
      simp only [List.mem_cons, true_or, not_true_eq_false, if_false, hopened,
        not_false_eq_true, if_true]
      omega
    · have hlt := ih ((List.mem_cons.mp hall).resolve_left hab)
      have hmem : b ∉ a :: opened ↔ b ∉ opened := by
        simp [List.mem_cons, Ne.symm hab]
      simp only [hmem]
      omega

/-- What holds under a list of open members may be shown from what holds when one more is open. -/
theorem unopened_induction (all : List α) {P : List α → Prop}
    (hstep : ∀ opened, (∀ a ∈ all, a ∉ opened → P (a :: opened)) → P opened)
    (opened : List α) : P opened := by
  induction hn : unopened all opened using Nat.strongRecOn generalizing opened with
  | _ n ih =>
    apply hstep
    intro a ha hopen
    exact ih _ (hn ▸ unopened_cons_lt ha hopen) _ rfl

end Unopened

/-- The walk comes to its end with this answer, and leaves the stack as it found it. -/
def Restores {σ α : Type} (walk : StateT σ Option α) (stack : σ) (answer : α) : Prop :=
  walk.run stack = some (answer, stack)

section Restores

variable {α β σ : Type} {stack : σ} {xs : List α}

theorem restores_pure (answer : α) (stack : σ) : Restores (pure answer) stack answer := rfl

theorem Restores.bind {walk : StateT σ Option α} {next : α → StateT σ Option β} {a : α} {b : β}
    (h : Restores walk stack a) (hnext : Restores (next a) stack b) :
    Restores (walk >>= next) stack b := by
  rw [Restores, StateT.run_bind, h]
  exact hnext

theorem restores_mapM {walk : α → StateT σ Option β} {f : α → β}
    (h : ∀ x ∈ xs, Restores (walk x) stack (f x)) : Restores (xs.mapM walk) stack (xs.map f) := by
  induction xs with
  | nil => exact restores_pure [] stack
  | cons x xs ih =>
    rw [List.forall_mem_cons] at h
    rw [List.mapM_cons, List.map_cons]
    exact h.1.bind ((ih h.2).bind (restores_pure _ stack))

/-- The first member that fails ends the walk. -/
theorem restores_allM {walk : α → StateT σ Option Bool} {f : α → Bool}
    (h : ∀ x ∈ xs, Restores (walk x) stack (f x)) : Restores (xs.allM walk) stack (xs.all f) := by
  induction xs with
  | nil => exact restores_pure true stack
  | cons x xs ih =>
    rw [List.forall_mem_cons] at h
    rw [List.allM, List.all_cons]
    refine h.1.bind ?_
    cases f x with
    | true => exact ih h.2
    | false => exact restores_pure false stack

/-- What is put on the stack is taken off again. -/
theorem Restores.push {γ : Type} {c : γ} {opened : List γ} {walk : StateT (List γ) Option α}
    {a : α} (h : Restores walk (c :: opened) a) (f : α → β) :
    Restores (do
      modify (c :: ·)
      let x ← walk
      modify List.tail
      return f x) opened (f a) := by
  unfold Restores at *
  simp only [StateT.run_bind, StateT.run_modify, Option.pure_def, Option.bind_eq_bind,
    Option.bind_some, h]
  rfl

end Restores

namespace Heap

variable {h : Heap} {c : Container} {opened : List Container}

set_option linter.unusedVariables false in
mutual

/-- The text of a value while some containers are already being shown. -/
def displayFrom (h : Heap) (opened : List Container) (nested : Bool) : Value → String
  | .null => "null"
  | .number x => Number.shown.format x
  | .string text => if nested then Text.quoted text else text
  | .boolean b => if b then "true" else "false"
  | .array id =>
    if hopen : .array id ∈ opened then "[...]"
    else
      match ha : h.arrays[id.index]? with
      | none => "[]"
      | some items =>
        "[" ++ ", ".intercalate (displayAll h (.array id :: opened) items.toList) ++ "]"
  | .object id =>
    if hopen : .object id ∈ opened then "\x7b...\x7d"
    else
      match ho : h.objects[id.index]? with
      | none => "\x7b\x7d"
      | some properties =>
        if properties.isEmpty then "\x7b\x7d"
        else
          let texts := displayAll h (.object id :: opened) properties.values
          let entries := properties.keys.zipWith (fun key text => key ++ ": " ++ text) texts
          "\x7b " ++ ", ".intercalate entries ++ " \x7d"
  | .native function => "<native " ++ function.name ++ ">"
  | .function closure => "<func " ++ closure.declaration.name ++ ">"
  termination_by (unopened h.containers opened, 0)
  decreasing_by
    · exact Prod.Lex.left _ _ (unopened_cons_lt (array_mem_containers ha) hopen)
    · exact Prod.Lex.left _ _ (unopened_cons_lt (object_mem_containers ho) hopen)

def displayAll (h : Heap) (opened : List Container) : List Value → List String
  | [] => []
  | value :: values => displayFrom h opened true value :: displayAll h opened values
  termination_by values => (unopened h.containers opened, values.length + 1)

end

def textOf (h : Heap) (text : Value → String) : Container → String
  | .array id => "[" ++ ", ".intercalate ((h.items id).toList.map text) ++ "]"
  | .object id =>
    let entries := (h.properties id).entries.map fun entry => entry.1 ++ ": " ++ text entry.2
    if entries.isEmpty then "\x7b\x7d" else "\x7b " ++ ", ".intercalate entries ++ " \x7d"

theorem displayAll_eq_map (h : Heap) (opened : List Container) (values : List Value) :
    h.displayAll opened values = values.map (h.displayFrom opened true) := by
  induction values with
  | nil => rw [displayAll, List.map_nil]
  | cons value values ih => rw [displayAll, List.map_cons, ih]

/-- A container that is not open is shown by its parts, with the container open from then on. -/
theorem displayFrom_value (hopen : c ∉ opened) (nested : Bool) :
    h.displayFrom opened nested c.value = h.textOf (h.displayFrom (c :: opened) true) c := by
  cases c with
  | array id =>
    rw [Container.value, displayFrom, dif_neg hopen]
    split
    case h_1 hnone => simp [textOf, items, hnone]
    case h_2 found hsome => simp [textOf, items, hsome, displayAll_eq_map]
  | object id =>
    rw [Container.value, displayFrom, dif_neg hopen]
    split
    case h_1 hnone => simp [textOf, properties, hnone, Table.empty]
    case h_2 found hsome =>
      simp only [textOf, properties, hsome, Option.getD_some, Table.isEmpty, List.isEmpty_map,
        displayAll_eq_map, Table.keys, Table.values, List.map_map, List.zipWith_map,
        List.zipWith_self, Function.comp_def]

/-- A container that is not open is written by its parts, which find it on the stack. -/
theorem restores_render_value {depth : Nat} {text : Value → String} (hopen : c ∉ opened)
    (nested : Bool) (hparts : c ∈ h.containers → ∀ part,
      Restores (h.render depth true part) (c :: opened) (text part)) :
    Restores (h.render (depth + 1) nested c.value) opened (h.textOf text c) := by
  -- A container that is not on the stack is not hinted at.
  have hget : ∀ {hint : String} {rest : StateT (List Container) Option String} {answer : String},
      Restores rest opened answer → Restores (do
        if c ∈ (← get) then return hint
        rest) opened answer := by
    intro hint rest answer hrest
    unfold Restores at *
    simp [hopen, hrest]
  cases c with
  | array id =>
    rw [Container.value, render]
    apply hget
    have hitems : ∀ x ∈ (h.items id).toList,
        Restores (h.render depth true x) (.array id :: opened) (text x) :=
      fun x hx => hparts (array_mem_of_mem_items hx) x
    exact (restores_mapM hitems).push _
  | object id =>
    rw [Container.value, render]
    apply hget
    rw [textOf]
    simp only [List.isEmpty_map]
    split
    · exact restores_pure _ _
    · have hentries : ∀ entry ∈ (h.properties id).entries,
          Restores (do return entry.1 ++ ": " ++ (← h.render depth true entry.2))
            (.object id :: opened) (entry.1 ++ ": " ++ text entry.2) := by
        intro entry hentry
        have hpart := hparts (object_mem_of_mem_entries hentry) entry.2
        exact hpart.bind (restores_pure _ _)
      exact (restores_mapM hentries).push _

/-- Every container of the heap is opened at most once on the way down, and so a depth above the
number of containers that are not open is enough. -/
theorem restores_render {depth : Nat} (hdepth : unopened h.containers opened < depth)
    (nested : Bool) (v : Value) :
    Restores (h.render depth nested v) opened (h.displayFrom opened nested v) := by
  induction depth generalizing opened nested v with
  | zero => exact absurd hdepth (Nat.not_lt_zero _)
  | succ depth ih =>
    have hcontainer : ∀ c : Container, Restores (h.render (depth + 1) nested c.value) opened
        (h.displayFrom opened nested c.value) := by
      intro c
      by_cases hopen : c ∈ opened
      · cases c <;> simp [Restores, Container.value, render, displayFrom, hopen]
      · rw [displayFrom_value hopen]
        refine restores_render_value hopen nested fun hmem part => ?_
        have hless := unopened_cons_lt hmem hopen
        exact ih (by omega) true part
    cases v with
    | array id => exact hcontainer (.array id)
    | object id => exact hcontainer (.object id)
    | _ =>
      rw [render, displayFrom]
      exact restores_pure _ _

theorem display_eq_displayFrom (h : Heap) (v : Value) : h.display v = h.displayFrom [] false v := by
  have hdepth : h.containers.length < h.containerCount + 1 := by
    rw [length_containers]
    exact Nat.lt_succ_self _
  rw [display, restores_render (unopened_lt hdepth) false v]

section Equality

variable {opened : List (Container × Container)}

set_option linter.unusedVariables false in
mutual

/-- Equality of values while some pairs of containers are already being compared. -/
def equalFrom (h : Heap) (opened : List (Container × Container)) : Value → Value → Bool
  | .null, .null => true
  | .number x, .number y => x == y
  | .string s, .string t => s == t
  | .boolean a, .boolean b => a == b
  | .array a, .array b =>
    if a = b then true
    else if hopen : (.array a, .array b) ∈ opened then true
    else
      match ha : h.arrays[a.index]?, hb : h.arrays[b.index]? with
      | some xs, some ys => equalAll h ((.array a, .array b) :: opened) xs.toList ys.toList
      | _, _ => (h.items a).isEmpty && (h.items b).isEmpty
  | .object a, .object b =>
    if a = b then true
    else if hopen : (.object a, .object b) ∈ opened then true
    else
      match ha : h.objects[a.index]?, hb : h.objects[b.index]? with
      | some xs, some ys =>
        equalEntries h ((.object a, .object b) :: opened) xs.entries ys.entries
      | _, _ => (h.properties a).isEmpty && (h.properties b).isEmpty
  | .native f, .native g => f.stamp == g.stamp
  | .function f, .function g => f.same g
  | _, _ => false
  termination_by (unopened h.containerPairs opened, 0)
  decreasing_by
    · exact Prod.Lex.left _ _ (unopened_cons_lt
        (pair_mem_containerPairs (array_mem_containers ha) (array_mem_containers hb)) hopen)
    · exact Prod.Lex.left _ _ (unopened_cons_lt
        (pair_mem_containerPairs (object_mem_containers ha) (object_mem_containers hb)) hopen)

def equalAll (h : Heap) (opened : List (Container × Container)) :
    List Value → List Value → Bool
  | [], [] => true
  | x :: xs, y :: ys => equalFrom h opened x y && equalAll h opened xs ys
  | _, _ => false
  termination_by xs => (unopened h.containerPairs opened, xs.length + 1)

def equalEntries (h : Heap) (opened : List (Container × Container)) :
    List (String × Value) → List (String × Value) → Bool
  | [], [] => true
  | (k, x) :: xs, (l, y) :: ys =>
    k == l && equalFrom h opened x y && equalEntries h opened xs ys
  | _, _ => false
  termination_by xs => (unopened h.containerPairs opened, xs.length + 1)

end

/-- A comparison of two rows in step is one of their lengths and of the pairs. -/
theorem eq_all_zip {α : Type} {rows : List α → List α → Bool} {same : α × α → Bool}
    (hnil : rows [] [] = true) (hleft : ∀ x xs, rows (x :: xs) [] = false)
    (hright : ∀ y ys, rows [] (y :: ys) = false)
    (hcons : ∀ x xs y ys, rows (x :: xs) (y :: ys) = (same (x, y) && rows xs ys))
    (xs ys : List α) :
    rows xs ys = (decide (xs.length = ys.length) && (xs.zip ys).all same) := by
  induction xs generalizing ys with
  | nil => cases ys <;> simp [hnil, hright]
  | cons x xs ih =>
    cases ys with
    | nil => simp [hleft]
    | cons y ys =>
      rw [hcons, ih, List.zip_cons_cons, List.all_cons, Bool.and_left_comm]
      simp

theorem equalAll_eq_all (h : Heap) (opened : List (Container × Container)) (xs ys : List Value) :
    h.equalAll opened xs ys = (decide (xs.length = ys.length) &&
      (xs.zip ys).all fun (x, y) => h.equalFrom opened x y) := by
  apply eq_all_zip <;> simp [equalAll]

theorem equalEntries_eq_all (h : Heap) (opened : List (Container × Container))
    (xs ys : List (String × Value)) :
    h.equalEntries opened xs ys = (decide (xs.length = ys.length) &&
      (xs.zip ys).all fun ((k, x), (l, y)) => k == l && h.equalFrom opened x y) := by
  apply eq_all_zip <;> simp [equalEntries]

/-- Entries agree if their keys do and their values do. -/
theorem equalEntries_eq (h : Heap) (opened : List (Container × Container))
    (xs ys : List (String × Value)) :
    h.equalEntries opened xs ys = (xs.map Prod.fst == ys.map Prod.fst &&
      h.equalAll opened (xs.map Prod.snd) (ys.map Prod.snd)) := by
  induction xs generalizing ys with
  | nil => cases ys <;> simp [equalEntries, equalAll]
  | cons x xs ih =>
    cases ys with
    | nil => simp [equalEntries]
    | cons y ys =>
      obtain ⟨k, x⟩ := x
      obtain ⟨l, y⟩ := y
      simp only [equalEntries, ih, List.map_cons, equalAll, List.cons_beq_cons]
      ac_rfl

/-- What is left of a match on two options once both are asked for. -/
theorem eq_none_or_eq_none {α : Type} {first second : Option α}
    (h : ∀ x y, first = some x → second = some y → False) : first = none ∨ second = none := by
  cases first with
  | none => exact .inl rfl
  | some x =>
    cases second with
    | none => exact .inr rfl
    | some y => exact (h x y rfl rfl).elim

theorem equalFrom_array {a b : ArrayId} (hne : a ≠ b) (hopen : (.array a, .array b) ∉ opened) :
    h.equalFrom opened (.array a) (.array b) =
      h.equalAll ((.array a, .array b) :: opened) (h.items a).toList (h.items b).toList := by
  have hempty : ∀ xs ys : Array Value, xs = #[] ∨ ys = #[] → (xs.isEmpty && ys.isEmpty) =
      h.equalAll ((.array a, .array b) :: opened) xs.toList ys.toList := by
    rintro ⟨xs⟩ ⟨ys⟩ hxy
    cases xs <;> cases ys <;> simp_all [equalAll]
  rw [equalFrom, if_neg hne, dif_neg hopen]
  split
  case h_1 xs ys ha hb => simp [items, ha, hb]
  case h_2 hmissing =>
    apply hempty
    exact (eq_none_or_eq_none hmissing).imp (fun ha => by simp [items, ha])
      (fun hb => by simp [items, hb])

theorem equalFrom_object {a b : ObjectId} (hne : a ≠ b)
    (hopen : (.object a, .object b) ∉ opened) :
    h.equalFrom opened (.object a) (.object b) =
      h.equalEntries ((.object a, .object b) :: opened) (h.properties a).entries
        (h.properties b).entries := by
  have hempty : ∀ s t : Table Value, s = .empty ∨ t = .empty → (s.isEmpty && t.isEmpty) =
      h.equalEntries ((.object a, .object b) :: opened) s.entries t.entries := by
    rintro ⟨xs, hxs⟩ ⟨ys, hys⟩ hxy
    cases xs <;> cases ys <;> simp_all [Table.empty, Table.isEmpty, equalEntries]
  rw [equalFrom, if_neg hne, dif_neg hopen]
  split
  case h_1 xs ys ha hb => simp [properties, ha, hb]
  case h_2 hmissing =>
    apply hempty
    exact (eq_none_or_eq_none hmissing).imp (fun ha => by simp [properties, ha])
      (fun hb => by simp [properties, hb])

/-- Two rows of the same length are compared member by member, with their pair on the stack. -/
theorem restores_rows {α : Type} {one : Prop} [Decidable one] {pair : Container × Container}
    {xs ys : List α} {walk : α × α → StateT (List (Container × Container)) Option Bool}
    {f : α × α → Bool} (hone : ¬one) (hopen : pair ∉ opened)
    (hwalk : ∀ p ∈ xs.zip ys, Restores (walk p) (pair :: opened) (f p)) :
    Restores (do
      if one ∨ pair ∈ (← get) then return true
      if xs.length ≠ ys.length then return false
      modify (pair :: ·)
      let same ← (xs.zip ys).allM walk
      modify List.tail
      return same) opened (decide (xs.length = ys.length) && (xs.zip ys).all f) := by
  have hpushed := (restores_allM hwalk).push id
  unfold Restores at *
  by_cases hlength : xs.length = ys.length
  · simpa [hone, hopen, hlength] using hpushed
  · simp [hone, hopen, hlength]

theorem restores_compare {depth : Nat} (hdepth : unopened h.containerPairs opened < depth)
    (a b : Value) : Restores (h.compare depth a b) opened (h.equalFrom opened a b) := by
  induction depth generalizing opened a b with
  | zero => exact absurd hdepth (Nat.not_lt_zero _)
  | succ depth ih =>
    -- Every pair that is opened is one of the heap and was not open yet.
    have hopened : ∀ pair ∈ h.containerPairs, pair ∉ opened → ∀ x y,
        Restores (h.compare depth x y) (pair :: opened) (h.equalFrom (pair :: opened) x y) := by
      intro pair hpair hopen x y
      have hless := unopened_cons_lt hpair hopen
      exact ih (by omega) x y
    cases a with
    | array a =>
      cases b with
      | array b =>
        by_cases hab : a = b
        · simp [Restores, compare, equalFrom, hab]
        by_cases hopen : (.array a, .array b) ∈ opened
        · simp [Restores, compare, equalFrom, hopen]
        rw [compare, equalFrom_array hab hopen, equalAll_eq_all]
        refine restores_rows hab hopen fun p hp => ?_
        obtain ⟨hx, hy⟩ := List.of_mem_zip hp
        exact hopened _ (pair_mem_containerPairs (array_mem_of_mem_items hx)
          (array_mem_of_mem_items hy)) hopen p.1 p.2
      | _ => simp [Restores, compare, equalFrom]
    | object a =>
      cases b with
      | object b =>
        by_cases hab : a = b
        · simp [Restores, compare, equalFrom, hab]
        by_cases hopen : (.object a, .object b) ∈ opened
        · simp [Restores, compare, equalFrom, hopen]
        rw [compare, equalFrom_object hab hopen, equalEntries_eq_all]
        refine restores_rows hab hopen fun p hp => ?_
        obtain ⟨⟨k, x⟩, l, y⟩ := p
        obtain ⟨hx, hy⟩ := List.of_mem_zip hp
        have hxy := hopened _ (pair_mem_containerPairs (object_mem_of_mem_entries hx)
          (object_mem_of_mem_entries hy)) hopen x y
        by_cases hkey : k = l
        · simpa [hkey] using hxy
        · have hkeys : (k == l) = false := beq_eq_false_iff_ne.mpr hkey
          simpa [hkey, hkeys] using restores_pure false _
      | _ => simp [Restores, compare, equalFrom]
    | _ => cases b <;> simp [Restores, compare, equalFrom]

theorem equal_eq_equalFrom (h : Heap) (a b : Value) : h.equal a b = h.equalFrom [] a b := by
  have hdepth : h.containerPairs.length < h.containerCount * h.containerCount + 1 := by
    rw [length_containerPairs]
    exact Nat.lt_succ_self _
  rw [equal, restores_compare (unopened_lt hdepth) a b]

end Equality

end Heap
end Script
