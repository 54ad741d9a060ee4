import Script.Heap

namespace Script

namespace Table

variable {α : Type}

/-- The entries of a table are what can be looked up in it: no key stands in it twice. -/
theorem mem_entries_iff (t : Table α) (key : String) (value : α) :
    (key, value) ∈ t.entries ↔ t.get? key = some value := by
  obtain ⟨entries, hsorted⟩ := t
  show (key, value) ∈ entries ↔ entries.lookup key = some value
  induction entries with
  | nil => simp
  | cons head rest ih =>
    obtain ⟨k, v⟩ := head
    obtain ⟨hk, hrest⟩ := List.pairwise_cons.mp hsorted
    rw [List.lookup_cons, List.mem_cons]
    by_cases hkey : key = k
    · subst hkey
      -- An entry further on would have a greater key.
      have hnot : (key, value) ∉ rest := fun hmem => String.lt_irrefl key (hk _ hmem)
      simp [hnot, eq_comm]
    · simp [beq_eq_false_iff_ne.mpr hkey, hkey, ih hrest]

theorem mem_keys_iff (t : Table α) (key : String) :
    key ∈ t.keys ↔ ∃ value, t.get? key = some value := by
  simp [keys, ← mem_entries_iff]

/-- What is found after an insertion was inserted or was there before. -/
theorem get?_insert_cases {t : Table α} {key other : String} {value found : α}
    (h : (t.insert key value).get? other = some found) :
    (other = key ∧ found = value) ∨ t.get? other = some found := by
  by_cases heq : other = key
  · rw [heq, get?_insert_self] at h
    exact .inl ⟨heq, (Option.some.inj h).symm⟩
  · rw [get?_insert_of_ne t heq] at h
    exact .inr h

/-- What is found in a table of entries is one of the entries. -/
theorem mem_of_get?_ofEntries {entries : List (String × α)} {key : String} {value : α}
    (h : (ofEntries entries).get? key = some value) : (key, value) ∈ entries := by
  suffices hfold : ∀ t : Table α,
      (entries.foldl (fun t e => t.insert e.1 e.2) t).get? key = some value →
        (key, value) ∈ entries ∨ t.get? key = some value from
    (hfold empty h).resolve_right (by simp)
  clear h
  induction entries with
  | nil => exact fun t hget => .inr hget
  | cons entry rest ih =>
    intro t hget
    rcases ih _ hget with hrest | hinserted
    · exact .inl (List.mem_cons_of_mem _ hrest)
    · rcases get?_insert_cases hinserted with ⟨rfl, rfl⟩ | hbefore
      · exact .inl List.mem_cons_self
      · exact .inr hbefore

end Table

namespace Scope

def names (scope : Scope) : List String :=
  scope.bindings.keys

theorem mem_names_iff (scope : Scope) (name : String) :
    name ∈ scope.names ↔ ∃ value, scope.bindings.get? name = some value :=
  scope.bindings.mem_keys_iff name

theorem contains_iff (scope : Scope) (name : String) :
    scope.bindings.contains name = true ↔ name ∈ scope.names := by
  rw [mem_names_iff, Table.contains, Option.isSome_iff_exists]

theorem mem_names_bind (scope : Scope) (name : String) (value : Value) (constant : Bool)
    (other : String) :
    other ∈ (scope.bind name value constant).names ↔ other = name ∨ other ∈ scope.names := by
  rw [mem_names_iff, mem_names_iff, bind]
  by_cases heq : other = name
  · simp [heq]
  · simp [heq, Table.get?_insert_of_ne _ heq]

theorem mem_constants_bind (scope : Scope) (name : String) (value : Value) (constant : Bool)
    (other : String) : other ∈ (scope.bind name value constant).constants ↔
      constant = true ∧ other = name ∨ other ∈ scope.constants := by
  cases constant <;> simp [bind]

def Fixes (scope : Scope) (name : String) (value : Value) : Prop :=
  name ∈ scope.constants ∧ scope.bindings.get? name = some value

theorem fixes_bind (scope : Scope) (name : String) (value : Value) :
    (scope.bind name value true).Fixes name value :=
  ⟨(scope.mem_constants_bind name value true name).mpr (.inl ⟨rfl, rfl⟩),
    Table.get?_insert_self _ _ _⟩

end Scope

namespace Heap

/-- No name is constant where it is not bound. -/
def BindsConstants (h : Heap) : Prop :=
  ∀ id, (h.scope id).constants ⊆ (h.scope id).names

theorem size_bind (h : Heap) (id : ScopeId) (name : String) (value : Value) (constant : Bool) :
    (h.bind id name value constant).scopes.size = h.scopes.size := by
  simp [bind]

theorem scope_bind (h : Heap) {id : ScopeId} (name : String) (value : Value) (constant : Bool)
    (hid : id.index < h.scopes.size) (other : ScopeId) :
    (h.bind id name value constant).scope other =
      if other = id then (h.scope id).bind name value constant else h.scope other := by
  by_cases hother : other = id
  · subst hother
    rw [if_pos rfl, scope, bind, Array.getElem?_modify, if_pos rfl, scope,
      Array.getElem?_eq_getElem hid]
    rfl
  · have hindex : id.index ≠ other.index :=
      fun heq => hother (congrArg ScopeId.mk heq.symm)
    simp [bind, scope, Array.getElem?_modify, hindex, hother]

/-- Nothing can be bound in a scope that was never made. -/
theorem scope_bind_cases (h : Heap) (id : ScopeId) (name : String) (value : Value)
    (constant : Bool) (other : ScopeId) :
    (h.bind id name value constant).scope other = h.scope other ∨
      other = id ∧
        (h.bind id name value constant).scope other = (h.scope id).bind name value constant := by
  by_cases hid : id.index < h.scopes.size
  · rw [scope_bind h name value constant hid]
    by_cases hother : other = id
    · exact .inr ⟨hother, if_pos hother⟩
    · exact .inl (if_neg hother)
  · left
    simp only [scope, bind, Array.getElem?_modify]
    split
    · next heq => simp [← heq, hid]
    · rfl

theorem scope_newScope (h : Heap) (outer : List ScopeId) {id : ScopeId}
    (hid : id.index < h.scopes.size) : (h.newScope outer).2.scope id = h.scope id := by
  simp [newScope, scope, Array.getElem?_push, Nat.ne_of_lt hid]

theorem BindsConstants.bind {h : Heap} (hbinds : h.BindsConstants) (id : ScopeId) (name : String)
    (value : Value) (constant : Bool) : (h.bind id name value constant).BindsConstants := by
  intro other
  rcases h.scope_bind_cases id name value constant other with hsame | ⟨-, hbound⟩
  · rw [hsame]
    exact hbinds other
  · rw [hbound]
    intro bound hconstant
    rw [Scope.mem_names_bind]
    rcases (Scope.mem_constants_bind _ _ _ _ _).mp hconstant with hnew | hbefore
    · exact .inl hnew.2
    · exact .inr (hbinds id hbefore)

theorem BindsConstants.newScope {h : Heap} (hbinds : h.BindsConstants) (outer : List ScopeId) :
    (h.newScope outer).2.BindsConstants := by
  intro id
  by_cases hid : id.index < h.scopes.size
  · rw [scope_newScope h outer hid]
    exact hbinds id
  · -- Behind the old scopes there is the new one, and nothing.
    have hnone : ((h.newScope outer).2.scope id).constants = [] := by
      simp only [Heap.newScope, scope, Array.getElem?_push,
        Array.getElem?_eq_none (Nat.le_of_not_lt hid)]
      split <;> rfl
    rw [hnone]
    exact List.nil_subset _

theorem get?_of_binding? {h : Heap} {id holder : ScopeId} {name : String} {value : Value}
    (hfound : h.binding? id name = some (holder, value)) :
    (h.scope holder).bindings.get? name = some value := by
  obtain ⟨candidate, -, hcandidate⟩ := List.exists_of_findSome?_eq_some hfound
  obtain ⟨b, hb, hpair⟩ := Option.map_eq_some_iff.mp hcandidate
  cases hpair
  exact hb

/-- What this very scope binds is not looked for any further. -/
theorem lookup_of_get? {h : Heap} {id : ScopeId} {name : String} {value : Value}
    (hbound : (h.scope id).bindings.get? name = some value) : h.lookup id name = .ok value := by
  have hfound : h.binding? id name = some (id, value) := by
    simp [binding?, chain, hbound]
  rw [lookup, hfound]

end Heap
end Script
