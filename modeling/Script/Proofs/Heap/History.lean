import Script.Proofs.Heap.Reach

namespace Script

inductive ScopeRequest where
  | declare (id : ScopeId) (name : String) (value : Value) (constant : Bool)
  | assign (id : ScopeId) (name : String) (value : Value)
  | lookup (id : ScopeId) (name : String)

def ScopeRequest.scope : ScopeRequest → ScopeId
  | declare id _ _ _ => id
  | assign id _ _ => id
  | lookup id _ => id

namespace Heap

def enter (h : Heap) : Option ScopeId → ScopeId × Heap
  | none => h.newScope []
  | some parent => h.newChild parent

def around (h : Heap) : Option ScopeId → List ScopeId
  | none => []
  | some parent => h.chain parent

theorem enter_eq (h : Heap) (parent? : Option ScopeId) :
    h.enter parent? = h.newScope (h.around parent?) := by
  cases parent? <;> rfl

theorem head?_around (h : Heap) (parent? : Option ScopeId) :
    (h.around parent?).head? = parent? := by
  cases parent? <;> rfl

theorem scope_enter (h : Heap) (parent? : Option ScopeId) (id : ScopeId) :
    (h.enter parent?).2.scope id =
      if id = (h.enter parent?).1 then .inside (h.around parent?) else h.scope id := by
  rw [enter_eq]
  split
  case isTrue hid =>
    rw [hid]
    simp [newScope, scope]
  case isFalse hid =>
    exact (h.changesAt_newScope _).same fun heq => hid (Place.scope.inj heq)

/-- Where a scope is made there was none before. -/
theorem scope_of_enter (h : Heap) (parent? : Option ScopeId) :
    h.scope (h.enter parent?).1 = .inside [] := by
  rw [enter_eq]
  simp [newScope, scope]

theorem get?_enter (h : Heap) (parent? : Option ScopeId) (id : ScopeId) (name : String) :
    ((h.enter parent?).2.scope id).bindings.get? name = (h.scope id).bindings.get? name := by
  rw [scope_enter]
  split
  case isTrue hid => rw [hid, scope_of_enter, Scope.inside, Scope.inside]
  case isFalse => rfl

theorem constants_enter (h : Heap) (parent? : Option ScopeId) (id : ScopeId) :
    ((h.enter parent?).2.scope id).constants = (h.scope id).constants := by
  rw [scope_enter]
  split
  case isTrue hid => rw [hid, scope_of_enter, Scope.inside, Scope.inside]
  case isFalse => rfl

theorem parent?_enter (h : Heap) (parent? : Option ScopeId) (id : ScopeId) :
    (h.enter parent?).2.parent? id =
      if id = (h.enter parent?).1 then parent? else h.parent? id := by
  rw [Heap.parent?, scope_enter]
  split
  case isTrue => exact h.head?_around parent?
  case isFalse => rfl

theorem has_enter_iff (h : Heap) (parent? : Option ScopeId) (id : ScopeId) :
    (h.enter parent?).2.Has (.scope id) ↔ id = (h.enter parent?).1 ∨ h.Has (.scope id) := by
  obtain ⟨index⟩ := id
  rw [enter_eq]
  simp only [newScope, Has, Array.size_push, ScopeId.mk.injEq]
  omega

/-- The answer to a request and the heap afterwards. Declarations and assignments answer the value
they were given. -/
def serve (h : Heap) : ScopeRequest → Except RuntimeError Value × Heap
  | .declare id name value constant =>
    match declare id name value constant h with
    | .ok _ h' => (.ok value, h')
    | .error e h' => (.error e, h')
  | .assign id name value =>
    match assign id name value h with
    | .ok _ h' => (.ok value, h')
    | .error e h' => (.error e, h')
  | .lookup id name => (h.lookup id name, h)

variable (h : Heap) (id : ScopeId) (name : String) (value : Value)

theorem serve_declare (constant : Bool) : h.serve (.declare id name value constant) =
    if (h.scope id).bindings.contains name then (.error (.duplicateDeclaration name), h)
    else (.ok value, h.bind id name value constant) := by
  rw [serve, declare]
  cases (h.scope id).bindings.contains name <;> rfl

theorem serve_assign_of_none (hnone : h.binding? id name = none) :
    h.serve (.assign id name value) = (.error (.unresolvedName name), h) := by
  rw [serve, assign, hnone]

theorem serve_assign_of_some {holder : ScopeId} {old : Value}
    (hsome : h.binding? id name = some (holder, old)) : h.serve (.assign id name value) =
      if name ∈ (h.scope holder).constants then (.error (.constantAssignment name), h)
      else (.ok value, h.bind holder name value false) := by
  rw [serve, assign, hsome]
  by_cases hconstant : name ∈ (h.scope holder).constants
  · simp only [hconstant, if_true]
  · simp only [hconstant, if_false]

/-- A request that fails changes nothing. -/
theorem serve_of_error {request : ScopeRequest} {e : RuntimeError} {h' : Heap}
    (hserve : h.serve request = (.error e, h')) : h' = h := by
  cases request with
  | declare id name value constant =>
    rw [serve_declare] at hserve
    split at hserve <;> cases hserve
    rfl
  | assign id name value =>
    cases hfound : h.binding? id name with
    | none =>
      rw [serve_assign_of_none h id name value hfound] at hserve
      cases hserve
      rfl
    | some found =>
      rw [serve_assign_of_some h id name value hfound] at hserve
      split at hserve <;> cases hserve
      rfl
  | lookup id name => exact (congrArg Prod.snd hserve).symm

variable {h id name value}

theorem binding?_of_get? (hbound : (h.scope id).bindings.get? name = some value) :
    h.binding? id name = some (id, value) := by
  simp [binding?, chain, hbound]

/-- What a scope does not bind is looked for in the scopes around it. -/
theorem binding?_of_get?_eq_none (hfree : (h.scope id).bindings.get? name = none) :
    h.binding? id name = (h.scope id).outer.findSome? fun holder =>
      ((h.scope holder).bindings.get? name).map fun value => (holder, value) := by
  simp [binding?, chain, hfree]

theorem has_of_get? (hbound : (h.scope id).bindings.get? name = some value) :
    h.Has (.scope id) := by
  apply Classical.byContradiction
  intro hnone
  simp_all [Has, scope, Scope.inside]

theorem get?_bind {holder : ScopeId} (hholder : h.Has (.scope holder)) (bound : String)
    (value : Value) (constant : Bool) (id : ScopeId) (name : String) :
    ((h.bind holder bound value constant).scope id).bindings.get? name =
      if id = holder ∧ name = bound then some value else (h.scope id).bindings.get? name := by
  rw [scope_bind h bound value constant hholder]
  by_cases hid : id = holder
  · subst hid
    rw [if_pos rfl]
    by_cases hname : name = bound
    · subst hname
      rw [if_pos ⟨rfl, rfl⟩]
      exact Table.get?_insert_self _ _ _
    · rw [if_neg fun hboth => hname hboth.2]
      exact Table.get?_insert_of_ne _ hname _
  · rw [if_neg hid, if_neg fun hboth => hid hboth.1]

theorem constants_bind_false (h : Heap) (holder : ScopeId) (name : String) (value : Value)
    (id : ScopeId) : ((h.bind holder name value false).scope id).constants =
      (h.scope id).constants := by
  rcases h.scope_bind_cases holder name value false id with hsame | ⟨rfl, hbound⟩
  · rw [hsame]
  · rw [hbound, Scope.bind]
    rfl

end Heap

inductive History.Event where
  | entered (parent? : Option ScopeId) (id : ScopeId)
  | served (request : ScopeRequest) (answer : Except RuntimeError Value)

/-- What has happened, the latest first. -/
abbrev History := List History.Event

namespace History

variable {history before : History} {event : Event} {id holder parent : ScopeId} {name : String}
  {value : Value} {constant : Bool}

def Made (history : History) (id : ScopeId) : Prop :=
  ∃ parent?, .entered parent? id ∈ history

def Parent (history : History) (id parent : ScopeId) : Prop :=
  .entered (some parent) id ∈ history

def DeclaredAs (history : History) (id : ScopeId) (name : String) (constant : Bool) : Prop :=
  ∃ value, .served (.declare id name value constant) (.ok value) ∈ history

def Declared (history : History) (id : ScopeId) (name : String) : Prop :=
  ∃ constant, DeclaredAs history id name constant

/-- From a scope outwards, the first one with a declaration of the name. -/
inductive Nearest (history : History) (name : String) : ScopeId → ScopeId → Prop
  | here {id : ScopeId} : Declared history id name → Nearest history name id id
  | outward {id parent holder : ScopeId} : ¬Declared history id name → Parent history id parent →
      Nearest history name parent holder → Nearest history name id holder

/-- The event gives the value to the name in this scope: it is a declaration there, or an assignment
that the scope was the nearest holder for when it was made. -/
inductive Gives (before : History) : Event → ScopeId → String → Value → Prop
  | declared {holder : ScopeId} {name : String} {value : Value} {constant : Bool} :
      Gives before (.served (.declare holder name value constant) (.ok value)) holder name value
  | assigned {id holder : ScopeId} {name : String} {value : Value} :
      Nearest before name id holder →
      Gives before (.served (.assign id name value) (.ok value)) holder name value

inductive Latest : History → ScopeId → String → Value → Prop
  | now {before : History} {event : Event} {holder : ScopeId} {name : String} {value : Value} :
      Gives before event holder name value → Latest (event :: before) holder name value
  | earlier {before : History} {event : Event} {holder : ScopeId} {name : String} {value : Value} :
      (∀ other, ¬Gives before event holder name other) → Latest before holder name value →
      Latest (event :: before) holder name value

inductive Expected (history : History) : ScopeRequest → Except RuntimeError Value → Prop
  | found {id holder : ScopeId} {name : String} {value : Value} : Nearest history name id holder →
      Latest history holder name value → Expected history (.lookup id name) (.ok value)
  | notFound {id : ScopeId} {name : String} : (∀ holder, ¬Nearest history name id holder) →
      Expected history (.lookup id name) (.error (.unresolvedName name))
  | declared {id : ScopeId} {name : String} {value : Value} {constant : Bool} :
      ¬Declared history id name → Expected history (.declare id name value constant) (.ok value)
  | duplicate {id : ScopeId} {name : String} {value : Value} {constant : Bool} :
      Declared history id name →
      Expected history (.declare id name value constant) (.error (.duplicateDeclaration name))
  | assigned {id holder : ScopeId} {name : String} {value : Value} :
      Nearest history name id holder → DeclaredAs history holder name false →
      Expected history (.assign id name value) (.ok value)
  | constant {id holder : ScopeId} {name : String} {value : Value} :
      Nearest history name id holder → DeclaredAs history holder name true →
      Expected history (.assign id name value) (.error (.constantAssignment name))
  | unassignable {id : ScopeId} {name : String} {value : Value} :
      (∀ holder, ¬Nearest history name id holder) →
      Expected history (.assign id name value) (.error (.unresolvedName name))

/-- The histories of a heap that starts empty. Only scopes that were made are asked or entered. -/
inductive Recorded : History → Heap → Prop
  | start : Recorded [] Heap.empty
  | enter {history : History} {h : Heap} (parent? : Option ScopeId) : Recorded history h →
      (∀ parent, parent? = some parent → Made history parent) →
      Recorded (.entered parent? (h.enter parent?).1 :: history) (h.enter parent?).2
  | serve {history : History} {h : Heap} (request : ScopeRequest) : Recorded history h →
      Made history request.scope →
      Recorded (.served request (h.serve request).1 :: history) (h.serve request).2

/-- The heap holds what the history tells: the scopes with their parents, and for each name of a
scope what it was declared as and the value it was given last. -/
structure Mirrors (history : History) (h : Heap) : Prop where
  linked : h.Linked
  made : ∀ id, Made history id ↔ h.Has (.scope id)
  parent : ∀ id parent, Parent history id parent ↔ h.parent? id = some parent
  binds : h.BindsConstants
  declaredAs : ∀ id name constant, DeclaredAs history id name constant ↔
    name ∈ (h.scope id).names ∧ decide (name ∈ (h.scope id).constants) = constant
  latest : ∀ id name value, Latest history id name value ↔
    (h.scope id).bindings.get? name = some value

namespace Mirrors

variable {h : Heap} {request : ScopeRequest} {answer : Except RuntimeError Value}

theorem declared_iff (m : Mirrors history h) :
    Declared history id name ↔ ∃ value, (h.scope id).bindings.get? name = some value := by
  simp [Declared, m.declaredAs, Scope.mem_names_iff]

theorem not_declared_iff (m : Mirrors history h) :
    ¬Declared history id name ↔ (h.scope id).bindings.get? name = none := by
  rw [m.declared_iff, Option.eq_none_iff_forall_ne_some, not_exists]

/-- The nearest holder is the scope that a name is found in. The induction goes outwards along the
parents. -/
theorem nearest_iff (m : Mirrors history h) : Nearest history name id holder ↔
    ∃ value, h.binding? id name = some (holder, value) := by
  have hhere : ∀ {id}, Declared history id name → (Nearest history name id holder ↔
      ∃ value, h.binding? id name = some (holder, value)) := by
    intro id hdeclared
    obtain ⟨value, hbound⟩ := m.declared_iff.mp hdeclared
    rw [Heap.binding?_of_get? hbound]
    constructor
    · rintro (- | ⟨hnot, -, -⟩)
      · exact ⟨value, rfl⟩
      · exact absurd hdeclared hnot
    · rintro ⟨_, heq⟩
      cases heq
      exact .here hdeclared
  induction id using m.linked.induction with
  | outermost id houter =>
    by_cases hdeclared : Declared history id name
    · exact hhere hdeclared
    · rw [Heap.binding?_of_get?_eq_none (m.not_declared_iff.mp hdeclared), houter]
      constructor
      · rintro (hnow | ⟨-, hparent, -⟩)
        · exact absurd hnow hdeclared
        · rw [m.parent, Heap.parent?, houter] at hparent
          cases hparent
      · rintro ⟨_, heq⟩
        cases heq
  | inner id parent hparent ih =>
    by_cases hdeclared : Declared history id name
    · exact hhere hdeclared
    · -- The parent looks through all the scopes around that are left.
      have houter : h.binding? id name = h.binding? parent name := by
        rw [Heap.binding?_of_get?_eq_none (m.not_declared_iff.mp hdeclared),
          (m.linked id parent hparent).2]
        rfl
      rw [houter]
      constructor
      · rintro (hnow | ⟨-, hparent', hnearest⟩)
        · exact absurd hnow hdeclared
        · rw [m.parent, hparent] at hparent'
          cases hparent'
          exact ih.mp hnearest
      · intro hfound
        exact .outward hdeclared ((m.parent id parent).mpr hparent) (ih.mpr hfound)

theorem not_nearest_iff (m : Mirrors history h) :
    (∀ holder, ¬Nearest history name id holder) ↔ h.binding? id name = none := by
  simp only [m.nearest_iff, Option.eq_none_iff_forall_ne_some, Prod.forall, not_exists, ne_eq]

theorem declaredAs_of_binding? (m : Mirrors history h)
    (hfound : h.binding? id name = some (holder, value)) :
    DeclaredAs history holder name constant ↔
      decide (name ∈ (h.scope holder).constants) = constant := by
  rw [m.declaredAs, Scope.mem_names_iff]
  exact and_iff_right ⟨value, Heap.get?_of_binding? hfound⟩

theorem latest_of_binding? (m : Mirrors history h)
    (hfound : h.binding? id name = some (holder, value)) :
    Latest history holder name value :=
  (m.latest holder name value).mpr (Heap.get?_of_binding? hfound)

theorem latest_cons_iff : Latest (event :: before) holder name value ↔
    Gives before event holder name value ∨
      (∀ other, ¬Gives before event holder name other) ∧ Latest before holder name value := by
  constructor
  · rintro (hgives | ⟨hnone, hlatest⟩)
    · exact .inl hgives
    · exact .inr ⟨hnone, hlatest⟩
  · rintro (hgives | ⟨hnone, hlatest⟩)
    · exact .now hgives
    · exact .earlier hnone hlatest

theorem start : Mirrors [] Heap.empty where
  linked id parent hparent := by cases hparent
  made id := iff_of_false (by simp [Made]) (Nat.not_lt_zero _)
  parent id parent := iff_of_false (by simp [Parent]) (by rintro ⟨⟩)
  binds id := List.nil_subset _
  declaredAs id name constant := iff_of_false (by simp [DeclaredAs]) (by rintro ⟨⟨⟩, -⟩)
  latest id name value := iff_of_false (by rintro ⟨⟩) (by rintro ⟨⟩)

/-- A new scope has no names. -/
theorem enter (m : Mirrors history h) {parent? : Option ScopeId}
    (hparent : ∀ parent, parent? = some parent → Made history parent) :
    Mirrors (.entered parent? (h.enter parent?).1 :: history) (h.enter parent?).2 := by
  have hgives : ∀ id name value,
      ¬Gives history (.entered parent? (h.enter parent?).1) id name value := by
    rintro _ _ _ ⟨⟩
  refine ⟨?_, fun id => ?_, fun id parent => ?_, ?_, fun id name constant => ?_,
    fun id name value => ?_⟩
  · rw [Heap.enter_eq]
    apply m.linked.newScope
    intro parent hhead
    rw [Heap.head?_around] at hhead
    subst hhead
    exact ⟨(m.made parent).mp (hparent parent rfl), rfl⟩
  · rw [Heap.has_enter_iff, ← m.made]
    simp [Made, exists_or, eq_comm]
  · -- The new scope had no parent before, and none is told of it.
    have hnew : ¬Parent history (h.enter parent?).1 parent := by
      rw [m.parent, Heap.parent?, Heap.scope_of_enter]
      rintro ⟨⟩
    have hold := m.parent id parent
    unfold Parent at hnew hold ⊢
    rw [Heap.parent?_enter]
    split
    case isTrue hid => simp [hid, hnew, eq_comm]
    case isFalse hid => simpa [hid] using hold
  · rw [Heap.enter_eq]
    exact m.binds.newScope _
  · have hold := m.declaredAs id name constant
    rw [Scope.mem_names_iff] at hold ⊢
    rw [Heap.get?_enter, Heap.constants_enter, ← hold]
    simp [DeclaredAs]
  · rw [Heap.get?_enter, ← m.latest, latest_cons_iff]
    simp [hgives]

/-- An answer that gives no value to any name leaves everything as it is. -/
theorem idle (m : Mirrors history h)
    (hidle : ∀ holder name value, ¬Gives history (.served request answer) holder name value) :
    Mirrors (.served request answer :: history) h where
  linked := m.linked
  made id := by simpa [Made] using m.made id
  parent id parent := by simpa [Parent] using m.parent id parent
  binds := m.binds
  declaredAs id name constant := by
    rw [← m.declaredAs]
    refine exists_congr fun value => ⟨fun hmem => ?_, List.mem_cons_of_mem _⟩
    rcases List.mem_cons.mp hmem with heq | hmem
    · exact absurd (heq ▸ .declared) (hidle id name value)
    · exact hmem
  latest id name value := by
    rw [← m.latest, latest_cons_iff]
    exact ⟨fun hlatest => (hlatest.resolve_left (hidle id name value)).2,
      fun hlatest => .inr ⟨hidle id name, hlatest⟩⟩

/-- An answer that gives a value to one name of one scope is a binding there. -/
theorem bind (m : Mirrors history h) (hholder : h.Has (.scope holder))
    (hold : name ∈ (h.scope holder).names → name ∉ (h.scope holder).constants ∧ constant = false)
    (hgives : ∀ id bound new, Gives history (.served request answer) id bound new ↔
      (id = holder ∧ bound = name) ∧ new = value)
    (hdeclares : ∀ id bound c, DeclaredAs (.served request answer :: history) id bound c ↔
      DeclaredAs history id bound c ∨ (id = holder ∧ bound = name) ∧ c = constant) :
    Mirrors (.served request answer :: history) (h.bind holder name value constant) where
  linked := m.linked.bind holder name value constant
  made id := by simpa [Made, Heap.Has, Heap.size_bind] using m.made id
  parent id parent := by
    have hsame : (h.bind holder name value constant).parent? id = h.parent? id := by
      rw [Heap.parent?, Heap.parent?, Heap.outer_bind]
    simpa [Parent, hsame] using m.parent id parent
  binds := m.binds.bind holder name value constant
  declaredAs id bound c := by
    rw [hdeclares, Heap.scope_bind h name value constant hholder, m.declaredAs]
    by_cases hid : id = holder
    case neg => simp [hid]
    subst hid
    simp only [if_pos, Scope.mem_names_bind, Scope.mem_constants_bind]
    by_cases hname : bound = name
    case neg => simp [hname]
    -- A new name was no constant, and a name that is bound again stays what it was.
    subst hname
    by_cases hbound : bound ∈ (h.scope id).names
    · obtain ⟨hconstant, rfl⟩ := hold hbound
      simp [hbound, hconstant, eq_comm]
    · have hconstant : bound ∉ (h.scope id).constants := fun hmem => hbound (m.binds id hmem)
      simp [hbound, hconstant, eq_comm]
  latest id bound new := by
    rw [latest_cons_iff, hgives, Heap.get?_bind hholder, m.latest]
    by_cases hhere : id = holder ∧ bound = name
    · simp [hhere, hgives, eq_comm]
    · simp [hhere, hgives]

theorem serve (m : Mirrors history h) (hmade : Made history request.scope) :
    Mirrors (.served request (h.serve request).1 :: history) (h.serve request).2 := by
  cases request with
  | declare id name value constant =>
    rw [Heap.serve_declare]
    split
    case isTrue =>
      apply m.idle
      rintro _ _ _ ⟨⟩
    case isFalse hfree =>
      apply m.bind ((m.made id).mp hmade)
      · intro hname
        exact absurd (((h.scope id).contains_iff name).mpr hname) hfree
      · intro id' bound new
        constructor
        · rintro ⟨⟩
          exact ⟨⟨rfl, rfl⟩, rfl⟩
        · rintro ⟨⟨rfl, rfl⟩, rfl⟩
          exact .declared
      · intro id' bound c
        simp only [DeclaredAs, List.mem_cons, exists_or]
        rw [or_comm]
        simp [and_assoc]
  | assign id name value =>
    cases hfound : h.binding? id name with
    | none =>
      rw [h.serve_assign_of_none id name value hfound]
      apply m.idle
      rintro _ _ _ ⟨⟩
    | some found =>
      obtain ⟨holder, old⟩ := found
      rw [h.serve_assign_of_some id name value hfound]
      split
      case isTrue =>
        apply m.idle
        rintro _ _ _ ⟨⟩
      case isFalse hconstant =>
        apply m.bind (Heap.has_of_get? (Heap.get?_of_binding? hfound))
        · exact fun _ => ⟨hconstant, rfl⟩
        · intro id' bound new
          constructor
          · rintro (- | hnearest)
            obtain ⟨_, hfound'⟩ := m.nearest_iff.mp hnearest
            rw [hfound] at hfound'
            cases hfound'
            exact ⟨⟨rfl, rfl⟩, rfl⟩
          · rintro ⟨⟨rfl, rfl⟩, rfl⟩
            exact .assigned (m.nearest_iff.mpr ⟨old, hfound⟩)
        · intro id' bound c
          have hdeclared := (m.declaredAs_of_binding? hfound).mpr (decide_eq_false hconstant)
          have hsame : DeclaredAs (.served (.assign id name value) (.ok value) :: history) id'
              bound c ↔ DeclaredAs history id' bound c := by simp [DeclaredAs]
          rw [hsame]
          -- The holder had the name already, and not as a constant.
          refine ⟨.inl, fun hor => hor.elim (fun h => h) ?_⟩
          rintro ⟨⟨rfl, rfl⟩, rfl⟩
          exact hdeclared
  | lookup id name =>
    apply m.idle
    rintro _ _ _ ⟨⟩

/-- The heap gives the answer that the history calls for. -/
theorem expected (m : Mirrors history h) (request : ScopeRequest) :
    Expected history request (h.serve request).1 := by
  cases request with
  | declare id name value constant =>
    rw [Heap.serve_declare]
    split
    case isTrue hbound => exact .duplicate (m.declared_iff.mpr (Option.isSome_iff_exists.mp hbound))
    case isFalse hfree =>
      exact .declared (m.not_declared_iff.mpr (Option.not_isSome_iff_eq_none.mp hfree))
  | assign id name value =>
    cases hfound : h.binding? id name with
    | none =>
      rw [h.serve_assign_of_none id name value hfound]
      exact .unassignable (m.not_nearest_iff.mpr hfound)
    | some found =>
      obtain ⟨holder, old⟩ := found
      have hnearest := m.nearest_iff.mpr ⟨old, hfound⟩
      rw [h.serve_assign_of_some id name value hfound]
      split
      case isTrue hconstant =>
        exact .constant hnearest
          ((m.declaredAs_of_binding? hfound).mpr (decide_eq_true hconstant))
      case isFalse hconstant =>
        exact .assigned hnearest
          ((m.declaredAs_of_binding? hfound).mpr (decide_eq_false hconstant))
  | lookup id name =>
    rw [Heap.serve, Heap.lookup]
    cases hfound : h.binding? id name with
    | none => exact .notFound (m.not_nearest_iff.mpr hfound)
    | some found =>
      obtain ⟨holder, value⟩ := found
      exact .found (m.nearest_iff.mpr ⟨value, hfound⟩) (m.latest_of_binding? hfound)

/-- No other answer is called for. -/
theorem serve_of_expected (m : Mirrors history h) (hexpected : Expected history request answer) :
    (h.serve request).1 = answer := by
  cases hexpected with
  | found hnearest hlatest =>
    obtain ⟨found, hfound⟩ := m.nearest_iff.mp hnearest
    have hbound := (m.latest _ _ _).mp hlatest
    rw [Heap.get?_of_binding? hfound] at hbound
    rw [Heap.serve, Heap.lookup, hfound, Option.some.inj hbound]
  | notFound hnone => rw [Heap.serve, Heap.lookup, m.not_nearest_iff.mp hnone]
  | declared hfree =>
    rw [Heap.serve_declare, Table.contains, m.not_declared_iff.mp hfree]
    rfl
  | duplicate hdeclared =>
    obtain ⟨old, hbound⟩ := m.declared_iff.mp hdeclared
    rw [Heap.serve_declare, Table.contains, hbound]
    rfl
  | assigned hnearest hdeclared =>
    obtain ⟨old, hfound⟩ := m.nearest_iff.mp hnearest
    have hconstant := of_decide_eq_false ((m.declaredAs_of_binding? hfound).mp hdeclared)
    rw [h.serve_assign_of_some _ _ _ hfound, if_neg hconstant]
  | constant hnearest hdeclared =>
    obtain ⟨old, hfound⟩ := m.nearest_iff.mp hnearest
    have hconstant := of_decide_eq_true ((m.declaredAs_of_binding? hfound).mp hdeclared)
    rw [h.serve_assign_of_some _ _ _ hfound, if_pos hconstant]
  | unassignable hnone => rw [h.serve_assign_of_none _ _ _ (m.not_nearest_iff.mp hnone)]

/-- An assignment that succeeds binds the name anew in its nearest holder, and nothing else. -/
theorem scope_assign (m : Mirrors history h) (hnearest : Nearest history name id holder)
    (hassign : (h.serve (.assign id name value)).1 = .ok value) (other : ScopeId)
    (bound : String) :
    ((h.serve (.assign id name value)).2.scope other).bindings.get? bound =
        (if other = holder ∧ bound = name then some value
        else (h.scope other).bindings.get? bound) ∧
      ((h.serve (.assign id name value)).2.scope other).constants = (h.scope other).constants := by
  obtain ⟨old, hfound⟩ := m.nearest_iff.mp hnearest
  rw [h.serve_assign_of_some id name value hfound] at hassign ⊢
  split at hassign
  case isTrue => cases hassign
  case isFalse hconstant =>
    rw [if_neg hconstant]
    have hholder := Heap.has_of_get? (Heap.get?_of_binding? hfound)
    exact ⟨Heap.get?_bind hholder name value false other bound,
      h.constants_bind_false holder name value other⟩

end Mirrors

/-- Whatever happens, the heap goes on to mirror its history. -/
theorem Recorded.mirrors {h : Heap} (hrecorded : Recorded history h) : Mirrors history h := by
  induction hrecorded with
  | start => exact .start
  | enter parent? _ hparent ih => exact ih.enter hparent
  | serve request _ hmade ih => exact ih.serve hmade

/-- At every point of every history the answer to a request is the one that the events so far call
for. An assignment that succeeds takes effect in the nearest holder alone. A request that fails
leaves the heap as it was, so that no later answer tells of it. -/
theorem serve_recorded {h : Heap} (hrecorded : Recorded history h) :
    (∀ request answer, (h.serve request).1 = answer ↔ Expected history request answer) ∧
    (∀ id name value holder, Nearest history name id holder →
      (h.serve (.assign id name value)).1 = .ok value → ∀ other bound,
        ((h.serve (.assign id name value)).2.scope other).bindings.get? bound =
            (if other = holder ∧ bound = name then some value
            else (h.scope other).bindings.get? bound) ∧
          ((h.serve (.assign id name value)).2.scope other).constants =
            (h.scope other).constants) ∧
    ∀ request e, (h.serve request).1 = .error e → (h.serve request).2 = h := by
  have m := hrecorded.mirrors
  refine ⟨fun request answer => ⟨?_, m.serve_of_expected⟩, ?_, ?_⟩
  · rintro rfl
    exact m.expected request
  · intro id name value holder hnearest hassign
    exact m.scope_assign hnearest hassign
  · intro request e herror
    exact h.serve_of_error (Prod.ext herror rfl)

/-- A variable is assigned from an inner scope, which then has a constant of that name. -/
theorem serve_recorded_shadowed : ∃ history h, Recorded history h ∧
    (h.serve (.lookup ⟨0⟩ "x")).1 = .ok (.boolean true) ∧
    Expected history (.lookup ⟨0⟩ "x") (.ok (.boolean true)) ∧
    Expected history (.lookup ⟨1⟩ "x") (.ok .null) ∧
    Expected history (.assign ⟨1⟩ "x" (.boolean false)) (.error (.constantAssignment "x")) ∧
    (h.serve (.assign ⟨1⟩ "x" (.boolean false))).2 = h := by
  have hrecorded := ((((Recorded.start.enter none (by rintro _ ⟨⟩)).enter (some ⟨0⟩) (by
      rintro _ ⟨⟩
      exact ⟨none, .head _⟩)).serve (.declare ⟨0⟩ "x" .null false)
        ⟨none, .tail _ (.head _)⟩).serve (.assign ⟨1⟩ "x" (.boolean true))
          ⟨some ⟨0⟩, .tail _ (.head _)⟩).serve (.declare ⟨1⟩ "x" .null true)
            ⟨some ⟨0⟩, .tail _ (.tail _ (.head _))⟩
  obtain ⟨hexpected, -, hfailed⟩ := serve_recorded hrecorded
  exact ⟨_, _, hrecorded, rfl, (hexpected _ _).mp rfl, (hexpected _ _).mp rfl,
    (hexpected _ _).mp rfl, hfailed _ (.constantAssignment "x") rfl⟩

end History
end Script
