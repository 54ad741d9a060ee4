import Script.Proofs.Evaluation.Paths
import Script.Proofs.Value.Copies

namespace Script

mutual

def Expr.isInert : Expr → Bool
  | .number _ => true
  | .string _ => true
  | .name _ => true
  | .binary _ left right => left.isInert && right.isInert
  | .assign _ _ => false
  | .object ps => Property.allInert ps
  | .array es => Expr.allInert es
  | .member object property _ => object.isInert && property.isInert
  | .call _ _ => false

def Expr.allInert : List Expr → Bool
  | [] => true
  | e :: es => e.isInert && Expr.allInert es

def Property.allInert : List Property → Bool
  | [] => true
  | p :: ps => p.isInert && Property.allInert ps

def Property.isInert : Property → Bool
  | .copied _ => true
  | .given _ value => value.isInert

end

theorem Expr.IsLink.isInert {property : Expr} {computed : Bool} (h : property.IsLink computed) :
    property.isInert = true := by
  cases h <;> rfl

theorem Expr.IsPath.isInert {path : Expr} (h : path.IsPath) : path.isInert = true := by
  induction h with
  | name name => rfl
  | link _ hlink ih => rw [Expr.isInert, ih, hlink.isInert, Bool.and_self]

/-- Nothing has happened but that arrays and objects were made. -/
structure State.Adds (s t : State) : Prop where
  /-- All scopes, arrays and objects that were there hold the same. -/
  kept : s.heap.Extends t.heap
  scopes : t.heap.scopes = s.heap.scopes
  stamps : t.heap.stamps = s.heap.stamps
  /-- The output, the calls that go on and the clock are the same. -/
  rest : t = { s with heap := t.heap }

namespace Eval

variable {R : State → State → Prop} {call : Caller} {scope : ScopeId}

structure Gathers (R : State → State → Prop) : Prop extends Composes R where
  newArray : ∀ items, Keeps R (newArray items)
  newObject : ∀ entries, Keeps R (newObject entries)

namespace Gathers

mutual

/-- The cases are those of `Eval.expr` that are left without calls and assignments. -/
theorem expr (hR : Gathers R) : ∀ e : Expr, e.isInert = true → Keeps R (Eval.expr call scope e)
  | .number _, _ => hR.pure _
  | .string _, _ => hR.pure _
  | .name name, _ => hR.lookup scope name
  | .binary _ left right, h =>
    hR.bind (expr hR left (Bool.and_elim_left h)) fun _ =>
      hR.bind (expr hR right (Bool.and_elim_right h)) fun _ => hR.pure _
  | .object ps, h => hR.bind (properties hR ps h) hR.newObject
  | .array es, h => hR.bind (exprs hR es h) hR.newArray
  | .member object property computed, h =>
    hR.member (expr hR object (Bool.and_elim_left h))
      (hR.memberKey property computed (expr hR property (Bool.and_elim_right h))) hR.read none

theorem exprs (hR : Gathers R) :
    ∀ es : List Expr, Expr.allInert es = true → Keeps R (Eval.exprs call scope es)
  | [], _ => hR.pure _
  | e :: es, h =>
    hR.bind (expr hR e (Bool.and_elim_left h)) fun _ =>
      hR.bind (exprs hR es (Bool.and_elim_right h)) fun _ => hR.pure _

theorem properties (hR : Gathers R) :
    ∀ ps : List Property, Property.allInert ps = true → Keeps R (Eval.properties call scope ps)
  | [], _ => hR.pure _
  | p :: ps, h =>
    hR.bind (property hR p (Bool.and_elim_left h)) fun _ =>
      hR.bind (properties hR ps (Bool.and_elim_right h)) fun _ => hR.pure _

theorem property (hR : Gathers R) :
    ∀ p : Property, p.isInert = true → Keeps R (Eval.property call scope p)
  | .copied key, _ => hR.bind (hR.lookup scope key) fun _ => hR.pure _
  | .given _ value, h => hR.bind (expr hR value h) fun _ => hR.pure _

end

end Gathers

/-- A path makes nothing: it is looked up without a change of any kind. -/
theorem keeps_path (hR : Composes R) {path : Expr} (hpath : path.IsPath) :
    Keeps R (expr call scope path) := by
  induction hpath with
  | name name => exact hR.lookup scope name
  | @link object property computed _ hlink ih =>
    have hkey : Keeps R (expr call scope property) := by
      cases hlink with
      | plain name => exact hR.lookup scope name
      | number x => exact hR.pure _
      | bound name => exact hR.lookup scope name
    exact hR.member ih (hR.memberKey property computed hkey) hR.read none

theorem gathers_adds : Gathers State.Adds where
  refl s := ⟨.refl s.heap, rfl, rfl, rfl⟩
  trans h h' :=
    ⟨h.kept.trans h'.kept, h'.scopes.trans h.scopes, h'.stamps.trans h.stamps, by
      rw [h'.rest, h.rest]⟩
  newArray _ s := ⟨.newArray s.heap _, rfl, rfl, rfl⟩
  newObject _ s := ⟨.newObject s.heap _, rfl, rfl, rfl⟩

/-- An expression without calls and assignments leaves all that was there as it is, and with it what
was printed and how many calls go on, whether it ends with a value or with an error. A path is such
an expression. It does not even make anything, and evaluating it once more ends in the same way. -/
theorem expr_inert (e : Expr) (s : State) :
    (e.isInert = true → s.Adds (final (expr call scope e) s)) ∧
      (e.IsPath → e.isInert = true ∧ final (expr call scope e) s = s ∧
        expr call scope e (final (expr call scope e) s) = expr call scope e s) := by
  refine ⟨fun he => gathers_adds.expr e he s, fun hpath => ?_⟩
  have hsame : s = final (expr call scope e) s := keeps_path ⟨fun _ => rfl, Eq.trans⟩ hpath s
  rw [← hsame]
  exact ⟨hpath.isInert, rfl, rfl⟩

/-- The first expression fails behind an object that it has made, the second one is a path into a
value that has no members. -/
theorem expr_inert_failing :
    let s : State := ⟨Heap.empty.newGlobals.2, 0, .unbounded, .still 0⟩
    let e := Expr.array [.object [.copied "true"], .binary .add (.name "x") (.number 1)]
    let path := Expr.member (.member (.name "true") (.name "a") false) (.name "null") true
    e.isInert = true ∧ path.isInert = true ∧ path.IsPath ∧
      (∃ t, expr (caller 3) ⟨0⟩ e s = .error (.unresolvedName "x") t ∧ s.Adds t ∧
        t.heap.objects.size = 1) ∧
      expr (caller 3) ⟨0⟩ path s = .error (.notIndexable .boolean) s ∧
      expr (caller 3) ⟨0⟩ path (final (expr (caller 3) ⟨0⟩ path) s) =
        .error (.notIndexable .boolean) s := by
  intro s e path
  have hpath : path.IsPath := .link (.link (.name "true") (.plain "a")) (.bound "null")
  have hadds : s.Adds (final (expr (caller 3) ⟨0⟩ e) s) := (expr_inert e s).1 rfl
  have hfails : expr (caller 3) ⟨0⟩ path s = .error (.notIndexable .boolean) s := rfl
  obtain ⟨hinert, -, hagain⟩ := (@expr_inert (caller 3) ⟨0⟩ path s).2 hpath
  exact ⟨rfl, hinert, hpath, ⟨_, rfl, hadds, rfl⟩, hfails, hagain.trans hfails⟩

end Eval
end Script
