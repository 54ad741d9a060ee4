import Mathlib.Data.List.Forall2
import Mathlib.Data.List.Sort
import Script.Proofs.Heap.Scope
import Script.Proofs.Value.Walk

namespace Script

namespace Table

variable {α : Type}

theorem sorted_keys (t : Table α) : t.keys.Pairwise (· < ·) :=
  List.pairwise_map.mpr t.sorted

/-- The order of the keys is fixed, so the set of them decides the list. -/
theorem keys_eq_iff (s t : Table α) :
    s.keys = t.keys ↔ ∀ key, s.contains key = t.contains key := by
  have hmem : ∀ (u : Table α) key, key ∈ u.keys ↔ u.contains key = true := by
    intro u key
    rw [mem_keys_iff, contains, Option.isSome_iff_exists]
  constructor
  · intro hkeys key
    rw [Bool.eq_iff_iff, ← hmem, ← hmem, hkeys]
  · intro hcontains
    apply s.sorted_keys.eq_of_mem_iff t.sorted_keys
    intro key
    rw [hmem, hmem, hcontains]

/-- In tables with the same keys, the values in a row are the values at each key. -/
theorem forall₂_values_iff {R : α → α → Prop} {s t : Table α} (hkeys : s.keys = t.keys) :
    List.Forall₂ R s.values t.values ↔
      ∀ key x y, s.get? key = some x → t.get? key = some y → R x y := by
  obtain ⟨xs, hxs⟩ := s
  obtain ⟨ys, hys⟩ := t
  simp only [← mem_entries_iff, values, keys] at hkeys ⊢
  induction xs generalizing ys with
  | nil =>
    obtain rfl : ys = [] := by simpa using hkeys.symm
    simp
  | cons first xs ih =>
    cases ys with
    | nil => simp at hkeys
    | cons second ys =>
      obtain ⟨key, x⟩ := first
      obtain ⟨key', y⟩ := second
      obtain ⟨rfl, hrest⟩ : key = key' ∧ xs.map Prod.fst = ys.map Prod.fst := by
        simpa using hkeys
      obtain ⟨hx, hxs⟩ := List.pairwise_cons.mp hxs
      obtain ⟨hy, hys⟩ := List.pairwise_cons.mp hys
      -- No entry further on has the first key again.
      have hfirst : ∀ z, (key, z) ∉ xs := fun z hz => String.lt_irrefl key (hx _ hz)
      have hsecond : ∀ z, (key, z) ∉ ys := fun z hz => String.lt_irrefl key (hy _ hz)
      rw [List.map_cons, List.map_cons, List.forall₂_cons, ih hxs ys hys hrest]
      constructor
      · intro hboth k u v hu hv
        by_cases hk : k = key
        · subst hk
          have hu' : u = x := by simpa [hfirst] using hu
          have hv' : v = y := by simpa [hsecond] using hv
          rw [hu', hv']
          exact hboth.1
        · exact hboth.2 k u v (by simpa [hk] using hu) (by simpa [hk] using hv)
      · intro hall
        refine ⟨hall key x y List.mem_cons_self List.mem_cons_self, ?_⟩
        intro k u v hu hv
        exact hall k u v (List.mem_cons_of_mem _ hu) (List.mem_cons_of_mem _ hv)

end Table

namespace Heap

variable {h : Heap} {R S : Value → Value → Prop} {a b : Value}

/-- What two values have in common when they are equal, where `R` says it of their contents. -/
inductive Matches (h : Heap) (R : Value → Value → Prop) : Value → Value → Prop
  | null : Matches h R .null .null
  | number {x y : Float} (hxy : (x == y) = true) : Matches h R (.number x) (.number y)
  | string {s : String} : Matches h R (.string s) (.string s)
  | boolean {b : Bool} : Matches h R (.boolean b) (.boolean b)
  | native {f g : Native} (hstamp : f.stamp = g.stamp) : Matches h R (.native f) (.native g)
  | function {f g : Closure} (hdeclaration : f.declaration.stamp = g.declaration.stamp)
      (hcaptured : f.captured = g.captured) : Matches h R (.function f) (.function g)
  | sameArray {a : ArrayId} : Matches h R (.array a) (.array a)
  | array {a b : ArrayId} (hsize : (h.items a).size = (h.items b).size)
      (hitems : ∀ (i : Nat) x y, (h.items a)[i]? = some x → (h.items b)[i]? = some y → R x y) :
      Matches h R (.array a) (.array b)
  | sameObject {a : ObjectId} : Matches h R (.object a) (.object a)
  | object {a b : ObjectId}
      (hkeys : ∀ key, (h.properties a).contains key = (h.properties b).contains key)
      (hvalues : ∀ key x y, (h.properties a).get? key = some x →
        (h.properties b).get? key = some y → R x y) :
      Matches h R (.object a) (.object b)

theorem Matches.mono (hab : h.Matches R a b) (hRS : ∀ x y, R x y → S x y) : h.Matches S a b := by
  cases hab with
  | null => exact .null
  | number hxy => exact .number hxy
  | string => exact .string
  | boolean => exact .boolean
  | native hstamp => exact .native hstamp
  | function hdeclaration hcaptured => exact .function hdeclaration hcaptured
  | sameArray => exact .sameArray
  | array hsize hitems => exact .array hsize fun i x y hx hy => hRS x y (hitems i x y hx hy)
  | sameObject => exact .sameObject
  | object hkeys hvalues => exact .object hkeys fun key x y hx hy => hRS x y (hvalues key x y hx hy)

def IsBisimulation (h : Heap) (R : Value → Value → Prop) : Prop :=
  ∀ x y, R x y → h.Matches R x y

/-- Bisimilarity where the pairs of `S` are granted inside containers. -/
def Bisimilar (h : Heap) (S : Value → Value → Prop) (a b : Value) : Prop :=
  ∃ R : Value → Value → Prop, (∀ x y, R x y → h.Matches (fun u v => R u v ∨ S u v) x y) ∧ R a b

theorem bisimilar_iff_matches :
    h.Bisimilar S a b ↔ h.Matches (fun u v => h.Bisimilar S u v ∨ S u v) a b := by
  have hforward : ∀ x y, h.Bisimilar S x y →
      h.Matches (fun u v => h.Bisimilar S u v ∨ S u v) x y := by
    intro x y ⟨R, hR, hxy⟩
    exact (hR x y hxy).mono fun u v => Or.imp_left fun huv => ⟨R, hR, huv⟩
  refine ⟨hforward a b, fun hab => ?_⟩
  refine ⟨h.Matches fun u v => h.Bisimilar S u v ∨ S u v, ?_, hab⟩
  intro x y hxy
  exact hxy.mono fun u v => Or.imp_left (hforward u v)

theorem Bisimilar.mono {S' : Value → Value → Prop} (hab : h.Bisimilar S a b)
    (hS : ∀ x y, S x y → S' x y) : h.Bisimilar S' a b := by
  obtain ⟨R, hR, hab⟩ := hab
  exact ⟨R, fun x y hxy => (hR x y hxy).mono fun u v => Or.imp_right (hS u v), hab⟩

/-- To show that a pair is bisimilar, the pair itself may be granted inside. -/
theorem Bisimilar.of_granted (hab : h.Bisimilar (fun x y => S x y ∨ x = a ∧ y = b) a b) :
    h.Bisimilar S a b := by
  refine ⟨h.Bisimilar fun x y => S x y ∨ x = a ∧ y = b, ?_, hab⟩
  intro x y hxy
  refine (bisimilar_iff_matches.mp hxy).mono ?_
  rintro u v (huv | huv | ⟨rfl, rfl⟩)
  · exact .inl huv
  · exact .inr huv
  · exact .inl hab

theorem bisimilar_false_iff :
    h.Bisimilar (fun _ _ => False) a b ↔ ∃ R, h.IsBisimulation R ∧ R a b := by
  simp only [Bisimilar, IsBisimulation, or_false]

section Comparison

variable {opened : List (Container × Container)}

/-- The values that point to a pair of containers which is being compared already. -/
def Opened (opened : List (Container × Container)) (a b : Value) : Prop :=
  a.type = b.type ∧ ∃ pair ∈ opened, a = pair.1.value ∧ b = pair.2.value

def Equates (h : Heap) (opened : List (Container × Container)) (a b : Value) : Prop :=
  h.Bisimilar (Opened opened) a b ∨ Opened opened a b

theorem opened_iff_mem {p q : Container} (htype : p.value.type = q.value.type) :
    Opened opened p.value q.value ↔ (p, q) ∈ opened := by
  constructor
  · rintro ⟨-, ⟨p', q'⟩, hmem, hp, hq⟩
    rwa [Container.value_injective hp, Container.value_injective hq]
  · intro hmem
    exact ⟨htype, (p, q), hmem, rfl, rfl⟩

/-- A pair that is not open is compared by its contents, with the pair open from then on. -/
theorem equates_iff_matches {p q : Container} (hnot : ¬Opened opened p.value q.value) :
    h.Equates opened p.value q.value ↔
      h.Matches (h.Equates ((p, q) :: opened)) p.value q.value := by
  have hsub : ∀ x y, Opened opened x y → Opened ((p, q) :: opened) x y := by
    rintro x y ⟨htype, pair, hmem, hx, hy⟩
    exact ⟨htype, pair, List.mem_cons_of_mem _ hmem, hx, hy⟩
  have hcons : ∀ x y, Opened ((p, q) :: opened) x y →
      Opened opened x y ∨ x = p.value ∧ y = q.value := by
    rintro x y ⟨htype, pair, hmem, hx, hy⟩
    rcases List.mem_cons.mp hmem with rfl | hmem
    · exact .inr ⟨hx, hy⟩
    · exact .inl ⟨htype, pair, hmem, hx, hy⟩
  rw [Equates, or_iff_left hnot]
  constructor
  · intro hab
    exact bisimilar_iff_matches.mp (hab.mono hsub)
  · intro hab
    apply Bisimilar.of_granted
    exact (bisimilar_iff_matches.mpr hab).mono hcons

theorem equalFrom_object_eq {a b : ObjectId} (hne : a ≠ b)
    (hopen : (.object a, .object b) ∉ opened) :
    h.equalFrom opened (.object a) (.object b) =
      ((h.properties a).keys == (h.properties b).keys &&
        h.equalAll ((.object a, .object b) :: opened) (h.properties a).values
          (h.properties b).values) := by
  rw [equalFrom_object hne hopen, equalEntries_eq]
  rfl

/-- Items are compared in turn, and each comparison finds out what it should. -/
theorem equalAll_iff {xs ys : List Value}
    (hitem : ∀ x ∈ xs, ∀ y ∈ ys, h.equalFrom opened x y = true ↔ h.Equates opened x y) :
    h.equalAll opened xs ys = true ↔ List.Forall₂ (h.Equates opened) xs ys := by
  induction xs generalizing ys with
  | nil => cases ys <;> simp [equalAll]
  | cons x xs ih =>
    cases ys with
    | nil => simp [equalAll]
    | cons y ys =>
      have hrest := ih fun u hu v hv =>
        hitem u (List.mem_cons_of_mem _ hu) v (List.mem_cons_of_mem _ hv)
      have hfirst := hitem x List.mem_cons_self y List.mem_cons_self
      rw [equalAll, Bool.and_eq_true, List.forall₂_cons, hfirst, hrest]

theorem forall₂_toList_iff {α β : Type} {R : α → β → Prop} {xs : Array α} {ys : Array β} :
    List.Forall₂ R xs.toList ys.toList ↔ xs.size = ys.size ∧
      ∀ (i : Nat) x y, xs[i]? = some x → ys[i]? = some y → R x y := by
  rw [List.forall₂_iff_get]
  refine and_congr Iff.rfl ⟨?_, ?_⟩
  · intro hget i x y hx hy
    obtain ⟨hi, rfl⟩ := Array.getElem?_eq_some_iff.mp hx
    obtain ⟨hi', rfl⟩ := Array.getElem?_eq_some_iff.mp hy
    exact hget i hi hi'
  · intro hitems i hi hi'
    apply hitems i
    · simp
    · simp

theorem matches_array_iff {R : Value → Value → Prop} {a b : ArrayId} (hne : a ≠ b) :
    h.Matches R (.array a) (.array b) ↔
      List.Forall₂ R (h.items a).toList (h.items b).toList := by
  rw [forall₂_toList_iff]
  constructor
  · intro hab
    cases hab with
    | sameArray => exact absurd rfl hne
    | array hsize hitems => exact ⟨hsize, hitems⟩
  · intro ⟨hsize, hitems⟩
    exact .array hsize hitems

theorem matches_object_iff {R : Value → Value → Prop} {a b : ObjectId} (hne : a ≠ b) :
    h.Matches R (.object a) (.object b) ↔ (h.properties a).keys = (h.properties b).keys ∧
      List.Forall₂ R (h.properties a).values (h.properties b).values := by
  constructor
  · intro hab
    cases hab with
    | sameObject => exact absurd rfl hne
    | object hkeys hvalues =>
      have hsame := (Table.keys_eq_iff _ _).mpr hkeys
      exact ⟨hsame, (Table.forall₂_values_iff hsame).mpr hvalues⟩
  · intro ⟨hkeys, hvalues⟩
    exact .object ((Table.keys_eq_iff _ _).mp hkeys) ((Table.forall₂_values_iff hkeys).mp hvalues)

/-- Values that are no containers are compared by themselves. -/
theorem equalFrom_iff_matches {R : Value → Value → Prop} (hplain : ∀ p : Container, a ≠ p.value) :
    h.equalFrom opened a b = true ↔ h.Matches R a b := by
  constructor
  · intro hequal
    cases a with
    | null => cases b <;> simp [equalFrom] at hequal; exact .null
    | number x =>
      cases b <;> simp only [equalFrom, Bool.false_eq_true] at hequal
      exact .number hequal
    | string s => cases b <;> simp [equalFrom] at hequal; exact hequal ▸ .string
    | boolean c => cases b <;> simp [equalFrom] at hequal; exact hequal ▸ .boolean
    | array id => exact absurd rfl (hplain (.array id))
    | object id => exact absurd rfl (hplain (.object id))
    | native f => cases b <;> simp [equalFrom] at hequal; exact .native hequal
    | function f =>
      cases b <;> simp [equalFrom, Closure.same] at hequal
      exact .function hequal.1 hequal.2
  · intro hmatches
    cases hmatches with
    | null | string | boolean => simp [equalFrom]
    | number hxy => simpa [equalFrom] using hxy
    | native hstamp => simpa [equalFrom] using hstamp
    | function hdeclaration hcaptured => simp [equalFrom, Closure.same, hdeclaration, hcaptured]
    | sameArray | array => exact absurd rfl (hplain (.array _))
    | sameObject | object => exact absurd rfl (hplain (.object _))

section Containers

variable (hdeeper : ∀ pair ∈ h.containerPairs, pair ∉ opened → ∀ x y : Value,
  h.equalFrom (pair :: opened) x y = true ↔ h.Equates (pair :: opened) x y)

include hdeeper

theorem equalFrom_array_iff (a b : ArrayId) :
    h.equalFrom opened (.array a) (.array b) = true ↔ h.Equates opened (.array a) (.array b) := by
  have hopened : Opened opened (.array a) (.array b) ↔ (.array a, .array b) ∈ opened :=
    opened_iff_mem (p := .array a) (q := .array b) rfl
  by_cases hab : a = b
  · subst hab
    have hequates : h.Equates opened (.array a) (.array a) :=
      .inl (bisimilar_iff_matches.mpr .sameArray)
    simp [equalFrom, hequates]
  by_cases hopen : (.array a, .array b) ∈ opened
  · simp [equalFrom, hopen, Equates, hopened]
  have hitem : ∀ x ∈ (h.items a).toList, ∀ y ∈ (h.items b).toList,
      h.equalFrom ((.array a, .array b) :: opened) x y = true ↔
        h.Equates ((.array a, .array b) :: opened) x y := by
    intro x hx y hy
    have hpair := pair_mem_containerPairs (array_mem_of_mem_items hx) (array_mem_of_mem_items hy)
    exact hdeeper _ hpair hopen x y
  rw [equalFrom_array hab hopen, equalAll_iff hitem, ← matches_array_iff hab]
  exact (equates_iff_matches (p := .array a) (q := .array b) (hopened.not.mpr hopen)).symm

theorem equalFrom_object_iff (a b : ObjectId) :
    h.equalFrom opened (.object a) (.object b) = true ↔
      h.Equates opened (.object a) (.object b) := by
  have hopened : Opened opened (.object a) (.object b) ↔ (.object a, .object b) ∈ opened :=
    opened_iff_mem (p := .object a) (q := .object b) rfl
  by_cases hab : a = b
  · subst hab
    have hequates : h.Equates opened (.object a) (.object a) :=
      .inl (bisimilar_iff_matches.mpr .sameObject)
    simp [equalFrom, hequates]
  by_cases hopen : (.object a, .object b) ∈ opened
  · simp [equalFrom, hopen, Equates, hopened]
  have hvalue : ∀ x ∈ (h.properties a).values, ∀ y ∈ (h.properties b).values,
      h.equalFrom ((.object a, .object b) :: opened) x y = true ↔
        h.Equates ((.object a, .object b) :: opened) x y := by
    intro x hx y hy
    have hpair := pair_mem_containerPairs (object_mem_of_mem_values hx)
      (object_mem_of_mem_values hy)
    exact hdeeper _ hpair hopen x y
  rw [equalFrom_object_eq hab hopen, Bool.and_eq_true, beq_iff_eq, equalAll_iff hvalue,
    ← matches_object_iff hab]
  exact (equates_iff_matches (p := .object a) (q := .object b) (hopened.not.mpr hopen)).symm

end Containers

theorem Equates.type_eq (hab : h.Equates opened a b) : a.type = b.type := by
  rcases hab with hab | hab
  · cases bisimilar_iff_matches.mp hab <;> rfl
  · exact hab.1

theorem type_eq_of_equalFrom (hab : h.equalFrom opened a b = true) : a.type = b.type := by
  revert hab
  cases a <;> cases b <;> simp [equalFrom, Value.type]

theorem equates_iff_matches_of_plain (hplain : ∀ p : Container, a ≠ p.value) :
    h.Equates opened a b ↔ h.Matches (h.Equates opened) a b := by
  have hnot : ¬Opened opened a b := fun ⟨_, pair, _, ha, _⟩ => hplain pair.1 ha
  rw [Equates, or_iff_left hnot, bisimilar_iff_matches]
  rfl

/-- Whatever is open, a comparison finds out what it should. -/
theorem equalFrom_iff (h : Heap) (opened : List (Container × Container)) (a b : Value) :
    h.equalFrom opened a b = true ↔ h.Equates opened a b := by
  induction opened using unopened_induction h.containerPairs generalizing a b with
  | hstep opened ih =>
    by_cases htype : a.type = b.type
    · cases a with
      | array a =>
        cases b <;> simp [Value.type] at htype
        exact equalFrom_array_iff ih _ _
      | object a =>
        cases b <;> simp [Value.type] at htype
        exact equalFrom_object_iff ih _ _
      | _ =>
        rw [equalFrom_iff_matches, equates_iff_matches_of_plain]
        all_goals rintro (_ | _) <;> simp [Container.value]
    · exact iff_of_false (fun hab => htype (type_eq_of_equalFrom hab)) fun hab => htype hab.type_eq

/-- Every comparison comes to an end with no pair left open, in whichever depth above the number of
all pairs. It finds two values equal exactly when a bisimulation relates them. -/
theorem equal_iff_bisimulation (h : Heap) (a b : Value) :
    (∀ depth, h.containerPairs.length < depth →
      (h.compare depth a b).run [] = some (h.equal a b, [])) ∧
    (h.equal a b = true ↔ ∃ R, h.IsBisimulation R ∧ R a b) := by
  rw [equal_eq_equalFrom]
  refine ⟨fun depth hdepth => restores_compare (unopened_lt hdepth) a b, ?_⟩
  have hnone : Opened [] = fun _ _ => False := by
    funext x y
    simp [Opened]
  rw [equalFrom_iff, Equates, hnone, or_false, bisimilar_false_iff]

end Comparison

end Heap
end Script
