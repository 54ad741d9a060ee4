import Script.Proofs.Evaluation.Members
import Script.Proofs.Evaluation.Termination

namespace Script

inductive Expr.IsLink : Expr → Bool → Prop
  | plain (name : String) : IsLink (.name name) false
  | number (x : Float) : IsLink (.number x) true
  | bound (name : String) : IsLink (.name name) true

inductive Expr.IsPath : Expr → Prop
  | name (name : String) : IsPath (.name name)
  | link {object property : Expr} {computed : Bool} :
    IsPath object → IsLink property computed → IsPath (.member object property computed)

namespace Heap

inductive Key (h : Heap) (scope : ScopeId) : Expr → Bool → Value → Prop
  | plain (name : String) : Key h scope (.name name) false (.string name)
  | number (x : Float) : Key h scope (.number x) true (.number x)
  | bound {name : String} {value : Value} :
    h.lookup scope name = .ok value → Key h scope (.name name) true value

/-- The slots that a path leads through, in order, and the value it ends at. -/
inductive Route (h : Heap) (scope : ScopeId) : Expr → List Slot → Value → Prop
  | name {name : String} {value : Value} :
    h.lookup scope name = .ok value → Route h scope (.name name) [] value
  | link {object property : Expr} {computed : Bool} {slots : List Slot} {owner key : Value}
      {slot : Slot} :
    Route h scope object slots owner → Key h scope property computed key →
      Slot.Named owner key slot →
      Route h scope (.member object property computed) (slots ++ [slot]) (slot.read h)

/-- A path does not lead through the slot that it ends at. -/
def Untangled (h : Heap) (scope : ScopeId) (path : Expr) : Prop :=
  ∀ slots last value, h.Route scope path (slots ++ [last]) value → ∀ slot ∈ slots, ¬slot.Same last

/-- Routes to a member end with its slot. -/
theorem Route.member_inv {h : Heap} {scope : ScopeId} {object property : Expr} {computed : Bool}
    {slots : List Slot} {last : Slot} {value : Value}
    (hroute : h.Route scope (.member object property computed) (slots ++ [last]) value) :
    ∃ owner key, h.Route scope object slots owner ∧ h.Key scope property computed key ∧
      Slot.Named owner key last := by
  generalize hall : slots ++ [last] = all at hroute
  cases hroute with
  | @link _ _ _ slots' owner key slot hobject hkey hnamed =>
    obtain ⟨rfl, hlast⟩ := List.append_inj' hall rfl
    cases hlast
    exact ⟨owner, key, hobject, hkey, hnamed⟩

section Writing

variable {h h' : Heap} {slot : Slot} {value : Value}

/-- Scopes are no containers. -/
theorem lookup_write (hwrite : slot.write value h = .ok () h') (scope : ScopeId) (name : String) :
    h'.lookup scope name = h.lookup scope name := by
  cases Slot.writes hwrite <;> rfl

theorem Key.write {scope : ScopeId} {property : Expr} {computed : Bool} {key : Value}
    (hkey : h.Key scope property computed key) (hwrite : slot.write value h = .ok () h') :
    h'.Key scope property computed key := by
  cases hkey with
  | plain name => exact .plain name
  | number x => exact .number x
  | bound hbound => exact .bound ((lookup_write hwrite scope _).trans hbound)

/-- A path stays the same when none of its slots is written. -/
theorem Route.write {scope : ScopeId} {path : Expr} {slots : List Slot} {target : Value}
    (hroute : h.Route scope path slots target) (hhas : h.Has slot.place)
    (hwrite : slot.write value h = .ok () h') (hfree : ∀ other ∈ slots, ¬other.Same slot) :
    h'.Route scope path slots target := by
  induction hroute with
  | name hname => exact .name ((lookup_write hwrite scope _).trans hname)
  | @link object property computed slots owner key other _ hkey hnamed ih =>
    -- The value at the end of the route is read anew, and reads the same.
    have hobject := ih fun before hbefore => hfree before (List.mem_append_left _ hbefore)
    have hread : other.read h' = other.read h :=
      Slot.read_write_of_not_same hhas hwrite (hfree other (by simp))
    rw [← hread]
    exact .link hobject (hkey.write hwrite) hnamed

end Writing
end Heap

namespace Eval

variable {call : Caller} {scope : ScopeId} {s t : State} {value : Value}

theorem lookup_eq_ok_iff {name : String} :
    lookup scope name s = .ok value t ↔ t = s ∧ s.heap.lookup scope name = .ok value := by
  have hlookup : lookup scope name s = ofExcept (s.heap.lookup scope name) s := rfl
  rw [hlookup]
  cases s.heap.lookup scope name with
  | ok found =>
    show EStateM.Result.ok found s = _ ↔ _
    simp [and_comm, eq_comm]
  | error e =>
    show EStateM.Result.error e s = _ ↔ _
    simp

theorem memberKey_eq_ok_iff {property : Expr} {computed : Bool}
    (hlink : property.IsLink computed) :
    memberKey property computed (expr call scope property) s = .ok value t ↔
      t = s ∧ s.heap.Key scope property computed value := by
  cases hlink with
  | plain name =>
    constructor
    · intro h
      cases h
      exact ⟨rfl, .plain name⟩
    · rintro ⟨rfl, hkey⟩
      cases hkey
      rfl
  | number x =>
    constructor
    · intro h
      cases h
      exact ⟨rfl, .number x⟩
    · rintro ⟨rfl, hkey⟩
      cases hkey
      rfl
  | bound name =>
    refine lookup_eq_ok_iff.trans (and_congr_right fun _ => ⟨.bound, fun hkey => ?_⟩)
    cases hkey with
    | bound hbound => exact hbound

/-- A path is evaluated along its route, and nothing changes on the way. -/
theorem expr_path_eq_ok_iff {path : Expr} (hpath : path.IsPath) :
    expr call scope path s = .ok value t ↔
      t = s ∧ ∃ slots, s.heap.Route scope path slots value := by
  induction hpath generalizing value t with
  | name name =>
    refine lookup_eq_ok_iff.trans (and_congr_right fun _ => ⟨fun h => ⟨[], .name h⟩, ?_⟩)
    rintro ⟨slots, hroute⟩
    cases hroute with
    | name hname => exact hname
  | link _ hlink ih =>
    -- The object leaves the state as it is, so the key is looked up in it as well.
    refine member_eq_ok_iff.trans ⟨?_, ?_⟩
    · rintro ⟨owner, key, slot, s', u, hobject, hkey, hnamed, hread⟩
      obtain ⟨rfl, slots, hroute⟩ := ih.mp hobject
      obtain ⟨rfl, hkey⟩ := (memberKey_eq_ok_iff hlink).mp hkey
      cases hread
      exact ⟨rfl, slots ++ [slot], .link hroute hkey hnamed⟩
    · rintro ⟨rfl, slots, hroute⟩
      cases hroute with
      | link hroute hkey hnamed =>
        exact ⟨_, _, _, _, _, ih.mpr ⟨rfl, _, hroute⟩, (memberKey_eq_ok_iff hlink).mpr ⟨rfl, hkey⟩,
          hnamed, rfl⟩

/-- An assignment to a path that succeeds evaluates the value first. Only then is the path looked
up, and the slot at its end is written. -/
theorem assign_path_cases {object property e : Expr} {computed : Bool}
    (hpath : (Expr.member object property computed).IsPath)
    (hassign : expr call scope (.assign (.member object property computed) e) s = .ok value t) :
    ∃ u slots owner key slot h, expr call scope e s = .ok value u ∧
      u.heap.Route scope object slots owner ∧ u.heap.Key scope property computed key ∧
      Slot.Named owner key slot ∧ slot.write value u.heap = .ok () h ∧
      t = { u with heap := h } := by
  obtain ⟨v, u, hvalue, hmember⟩ := bind_eq_ok_iff.mp hassign
  cases hpath with
  | link hobject hlink =>
    obtain ⟨owner, key, slot, s', u', howner, hkey, hnamed, haccess⟩ := member_eq_ok_iff.mp hmember
    obtain ⟨rfl, slots, hroute⟩ := (expr_path_eq_ok_iff hobject).mp howner
    obtain ⟨rfl, hkey⟩ := (memberKey_eq_ok_iff hlink).mp hkey
    rcases access_some_cases slot v u' with ⟨h, hwrite, hok⟩ | ⟨e, h, -, herror⟩
    · rw [hok] at haccess
      cases haccess
      exact ⟨u', slots, owner, key, slot, h, hvalue, hroute, hkey, hnamed, hwrite, rfl⟩
    · rw [herror] at haccess
      cases haccess

/-- What a path leads to has been made. -/
theorem carries_of_route {path : Expr} {slots : List Slot} (hw : s.heap.WellFormed)
    (hscope : s.heap.Has (.scope scope)) (hpath : path.IsPath)
    (hroute : s.heap.Route scope path slots value) : s.heap.Carries value := by
  have hfits : (Task.expr scope path).Fits s.heap := hscope
  have hvalue : (Task.expr scope path).eval 0 s = .ok value s :=
    (expr_path_eq_ok_iff hpath).mpr ⟨rfl, slots, hroute⟩
  intro place hplace
  rcases (Task.stays 0 hw hfits).answer hvalue place hplace with hold | ⟨-, hmade⟩
  · exact hold
  · exact hmade

/-- After an assignment to a path, the path gives the value that was assigned. The value may be what
changes the path, and the path may run through the written container more than once. It must not
read the written slot on its way there. -/
theorem expr_path_assigned {limit : Nat} {object property e : Expr} {computed : Bool}
    (hs : s.Reached) (hscope : s.heap.Has (.scope scope))
    (hpath : (Expr.member object property computed).IsPath)
    (hassign : expr (caller limit) scope (.assign (.member object property computed) e) s =
      .ok value t)
    (huntangled : ∀ u, expr (caller limit) scope e s = .ok value u →
      u.heap.Untangled scope (.member object property computed)) :
    expr (caller limit) scope (.member object property computed) t = .ok value t := by
  obtain ⟨u, slots, owner, key, slot, h, hvalue, hroute, hkey, hnamed, hwrite, rfl⟩ :=
    assign_path_cases hpath hassign
  have hfits : (Task.expr scope e).Fits s.heap := hscope
  have hmoves := (Task.stays limit hs.wellFormed hfits).moves
  rw [Task.eval, final_of_ok hvalue] at hmoves
  -- The path is looked up where the value left off, and its container is known there.
  have hcarries : u.heap.Carries owner := by
    cases hpath with
    | link hobject _ =>
      exact carries_of_route (hmoves.confines.wellFormed hs.wellFormed) (hmoves.has hscope) hobject
        hroute
  have hhas : u.heap.Has slot.place := hcarries _ hnamed.place?_eq
  have hfree := huntangled u hvalue slots slot _ (.link hroute hkey hnamed)
  refine (expr_path_eq_ok_iff hpath).mpr ⟨rfl, slots ++ [slot], ?_⟩
  have hread : slot.read h = value := Slot.read_write hhas hwrite
  rw [← hread]
  exact .link (hroute.write hhas hwrite hfree) (hkey.write hwrite) hnamed

/-- The value that is assigned to `a.b.c` makes `a.b` the object `a` itself, and that is written. -/
theorem expr_path_assigned_cyclic :
    let s := final (program 3 ⟨0⟩ [.declare false "a" (some (.object []))])
      ⟨Heap.empty.newGlobals.2, 0, .unbounded, .still 0⟩
    let object := Expr.member (.name "a") (.name "b") false
    let path := Expr.member object (.name "c") false
    let e := Expr.assign object (.name "a")
    s.Reached ∧ s.heap.Has (.scope ⟨0⟩) ∧ path.IsPath ∧
      (∀ u, expr (caller 3) ⟨0⟩ e s = .ok (.object ⟨0⟩) u → u.heap.Untangled ⟨0⟩ path) ∧
      ∃ t, expr (caller 3) ⟨0⟩ (.assign path e) s = .ok (.object ⟨0⟩) t ∧
        expr (caller 3) ⟨0⟩ path t = .ok (.object ⟨0⟩) t := by
  intro s object path e
  have hreached : s.Reached :=
    .eval 3 (.program ⟨0⟩ [.declare false "a" (some (.object []))]) (.new .unbounded (.still 0))
      Nat.zero_lt_one
  have hscope : s.heap.Has (.scope ⟨0⟩) := Nat.zero_lt_one
  have hpath : path.IsPath := .link (.link (.name "a") (.plain "b")) (.plain "c")
  have huntangled : ∀ u, expr (caller 3) ⟨0⟩ e s = .ok (.object ⟨0⟩) u →
      u.heap.Untangled ⟨0⟩ path := by
    -- The path leads through `a.b` and ends at `c` of the same object.
    intro u _ slots last value hroute slot hslot hsame
    obtain ⟨owner, key, hobject, hkey, hnamed⟩ := hroute.member_inv
    cases hkey
    obtain ⟨_, rfl⟩ := hnamed.eq_property
    unfold object at hobject
    cases hobject with
    | link hname hkey hnamed =>
      cases hname
      cases hkey
      obtain ⟨_, rfl⟩ := hnamed.eq_property
      obtain rfl := List.mem_singleton.mp hslot
      exact absurd hsame.2 (by decide)
  exact ⟨hreached, hscope, hpath, huntangled, _, rfl,
    expr_path_assigned hreached hscope hpath rfl huntangled⟩

-- Where `a.a` is `a` itself, `a.a.a` is tangled: writing to it breaks the path.
example :
    let s := final (program 3 ⟨0⟩ [.declare false "a" (some (.object [])),
        .expr (.assign (.member (.name "a") (.name "a") false) (.name "a"))])
      ⟨Heap.empty.newGlobals.2, 0, .unbounded, .still 0⟩
    let path := Expr.member (.member (.name "a") (.name "a") false) (.name "a") false
    ∃ t e, expr (caller 3) ⟨0⟩ (.assign path (.string "x")) s = .ok (.string "x") t ∧
      expr (caller 3) ⟨0⟩ path t = .error e t :=
  ⟨_, _, rfl, rfl⟩

end Eval
end Script
