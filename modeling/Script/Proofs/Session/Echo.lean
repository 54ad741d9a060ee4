import Mathlib.Tactic.Choose
import Script.Proofs.Evaluation.Equations
import Script.Proofs.Value.Copies
import Script.Proofs.Value.Rendering
import Script.Session

namespace Script

def Heap.named : List (String × Value) :=
  [("null", .null), ("true", .boolean true), ("false", .boolean false)]

structure Heap.Understands (h : Heap) (scope : ScopeId) : Prop where
  has : h.Has (.scope scope)
  bound : ∀ entry ∈ named, (h.scope scope).bindings.get? entry.1 = some entry.2

theorem Heap.Understands.mono {h h' : Heap} {scope : ScopeId} (hscope : h.Understands scope)
    (hext : h.Extends h') : h'.Understands scope := by
  have hsame : h'.scope scope = h.scope scope := hext.same hscope.has
  refine ⟨hext.has hscope.has, ?_⟩
  rw [hsame]
  exact hscope.bound

theorem Heap.understands_newGlobals (h : Heap) : h.newGlobals.2.Understands h.newGlobals.1 := by
  constructor
  · simp [Has, newGlobals, newNative, newStamp, newScope, bind]
  · simp only [named, List.forall_mem_cons, List.not_mem_nil, false_implies, implies_true, and_true,
      newGlobals, newNative, newStamp, newScope, bind, scope, List.foldl, Array.getElem?_modify,
      if_true, Array.getElem?_push_size, Option.map_some, Option.getD_some]
    exact ⟨rfl, rfl, rfl⟩

namespace Eval

/-- Wherever its names are understood, the expression makes a copy of the value at new places. -/
def Recreates (g : Heap) (e : Expr) (v : Value) : Prop :=
  ∀ (call : Caller) (scope : ScopeId) (s : State), s.heap.Understands scope →
    ∃ w t, expr call scope e s = .ok w t ∧ s.heap.Extends t.heap ∧ t.heap.Copies g w v

variable {g : Heap} {scope : ScopeId} {s : State}

theorem recreates_name {name : String} {v : Value} (hname : (name, v) ∈ Heap.named) :
    Recreates g (.name name) v := by
  intro call scope s hscope
  have hlookup := Heap.lookup_of_get? (hscope.bound _ hname)
  refine ⟨v, s, ?_, .refl _, ?_⟩
  · show ofExcept (s.heap.lookup scope name) s = .ok v s
    rw [hlookup]
    rfl
  · simp only [Heap.named, List.mem_cons, List.not_mem_nil, or_false, Prod.mk.injEq] at hname
    rcases hname with ⟨-, rfl⟩ | ⟨-, rfl⟩ | ⟨-, rfl⟩
    · exact .null
    · exact .boolean true
    · exact .boolean false

theorem recreates_number {x y : Float} (hequal : (y == x) = true) :
    Recreates g (.number y) (.number x) :=
  fun _ _ s _ => ⟨.number y, s, rfl, .refl _, .number hequal⟩

theorem recreates_string (text : String) : Recreates g (.string text) (.string text) :=
  fun _ _ s _ => ⟨.string text, s, rfl, .refl _, .string text⟩

theorem exprs_recreate {es : List Expr} {vs : List Value} (h : List.Forall₂ (Recreates g) es vs)
    (call : Caller) (hscope : s.heap.Understands scope) :
    ∃ ws t, exprs call scope es s = .ok ws t ∧ s.heap.Extends t.heap ∧
      List.Forall₂ (t.heap.Copies g) ws vs := by
  induction h generalizing s with
  | nil => exact ⟨[], s, rfl, .refl _, .nil⟩
  | cons hfirst _ ih =>
    obtain ⟨w, t, hw, hext, hcopies⟩ := hfirst call scope s hscope
    obtain ⟨ws, u, hws, hext', hall⟩ := ih (hscope.mono hext)
    refine ⟨w :: ws, u, ?_, hext.trans hext', .cons (hcopies.mono hext' (.refl g)) hall⟩
    rw [exprs, bind_of_ok hw, bind_of_ok hws]
    rfl

theorem recreates_array {es : List Expr} {id : ArrayId} (hid : g.Has (.array id))
    (h : List.Forall₂ (Recreates g) es (g.items id).toList) :
    Recreates g (.array es) (.array id) := by
  intro call scope s hscope
  obtain ⟨ws, t, hws, hext, hcopies⟩ := exprs_recreate h call hscope
  have hmade := Heap.Extends.newArray t.heap ws.toArray
  refine ⟨.array (t.heap.newArray ws.toArray).1, { t with heap := (t.heap.newArray ws.toArray).2 },
    ?_, hext.trans hmade, ?_⟩
  · rw [expr, bind_of_ok hws]
    rfl
  · have hitems : (t.heap.newArray ws.toArray).2.items (t.heap.newArray ws.toArray).1 =
        ws.toArray := by
      simp [Heap.newArray, Heap.items]
    refine .of_items ?_ hid ?_
    · simp [Heap.Has, Heap.newArray]
    · rw [hitems]
      exact hcopies.imp fun _ _ hcopy => hcopy.mono hmade (.refl g)

def RecreatesEntry (g : Heap) (p : Property) (entry : String × Value) : Prop :=
  ∃ e, p = .given entry.1 e ∧ Recreates g e entry.2

theorem properties_recreate {ps : List Property} {entries : List (String × Value)}
    (h : List.Forall₂ (RecreatesEntry g) ps entries) (call : Caller)
    (hscope : s.heap.Understands scope) :
    ∃ found t, properties call scope ps s = .ok found t ∧ s.heap.Extends t.heap ∧
      List.Forall₂ (fun copied entry => copied.1 = entry.1 ∧ t.heap.Copies g copied.2 entry.2)
        found entries := by
  induction h generalizing s with
  | nil => exact ⟨[], s, rfl, .refl _, .nil⟩
  | @cons p entry ps entries hfirst _ ih =>
    obtain ⟨e, rfl, he⟩ := hfirst
    obtain ⟨w, t, hw, hext, hcopies⟩ := he call scope s hscope
    obtain ⟨found, u, hfound, hext', hall⟩ := ih (hscope.mono hext)
    have hproperty : property call scope (.given entry.1 e) s = .ok (entry.1, w) t := by
      rw [property, bind_of_ok hw]
      rfl
    refine ⟨(entry.1, w) :: found, u, ?_, hext.trans hext',
      .cons ⟨rfl, hcopies.mono hext' (.refl g)⟩ hall⟩
    rw [properties, bind_of_ok hproperty, bind_of_ok hfound]
    rfl

theorem recreates_object {ps : List Property} {id : ObjectId} (hid : g.Has (.object id))
    (h : List.Forall₂ (RecreatesEntry g) ps (g.properties id).entries) :
    Recreates g (.object ps) (.object id) := by
  intro call scope s hscope
  obtain ⟨found, t, hfound, hext, hcopies⟩ := properties_recreate h call hscope
  -- The entries come in the order of their keys, so the new table has them in the same row.
  have hkeys : found.map Prod.fst = (g.properties id).keys := by
    rw [← List.forall₂_eq_eq_eq, Table.keys, List.forall₂_map_left_iff,
      List.forall₂_map_right_iff]
    exact hcopies.imp fun _ _ hboth => hboth.1
  have hsorted : found.Pairwise fun a b => a.1 < b.1 := by
    rw [← List.pairwise_map, hkeys]
    exact Table.sorted_keys _
  let table := Table.ofEntries found
  have hmade := Heap.Extends.newObject t.heap table
  refine ⟨.object (t.heap.newObject table).1, { t with heap := (t.heap.newObject table).2 },
    ?_, hext.trans hmade, ?_⟩
  · rw [expr, bind_of_ok hfound]
    rfl
  · have hproperties : (t.heap.newObject table).2.properties (t.heap.newObject table).1 =
        table := by
      simp [Heap.newObject, Heap.properties]
    refine .of_entries ?_ hid ?_
    · simp [Heap.Has, Heap.newObject]
    · rw [hproperties, Table.entries_ofEntries hsorted]
      exact hcopies.imp fun _ _ hboth => ⟨hboth.1, hboth.2.mono hmade (.refl g)⟩

end Eval

namespace Heap

variable {h : Heap} {v : Value}

/-- The expression that the text of the value is read as, and that makes a copy of the value. -/
def IsLiteral (h : Heap) (v : Value) (e : Expr) : Prop :=
  Source.Denotes (Derives .assignment) (h.displayFrom [] true v) e ∧ Eval.Recreates h e v

theorem isLiteral_name {name : String} (hname : (name, v) ∈ named) (hword : IsName name)
    (htext : h.displayFrom [] true v = name) : h.IsLiteral v (.name name) := by
  refine ⟨?_, Eval.recreates_name hname⟩
  rw [htext]
  exact Source.denotes_name hword

section Container

variable {literal : Value → Expr}

theorem isLiteral_array {id : ArrayId} (hv : h.Acyclic (.array id)) (hid : h.Has (.array id))
    (hparts : ∀ part, h.Holds (.array id) part → h.IsLiteral part (literal part)) :
    h.IsLiteral (.array id) (.array ((h.items id).toList.map literal)) := by
  constructor
  · have htext := Acyclic.displayFrom_value (c := .array id) hv true
    rw [Container.value, textOf] at htext
    rw [htext]
    apply Source.denotes_array
    rw [List.forall₂_map_left_iff, List.forall₂_map_right_iff, List.forall₂_same]
    exact fun part hpart => (hparts part hpart).1
  · apply Eval.recreates_array hid
    rw [List.forall₂_map_left_iff, List.forall₂_same]
    exact fun part hpart => (hparts part hpart).2

theorem isLiteral_object {id : ObjectId} (hv : h.Acyclic (.object id)) (hid : h.Has (.object id))
    (hkeys : ∀ key ∈ (h.properties id).keys, IsName key)
    (hparts : ∀ part, h.Holds (.object id) part → h.IsLiteral part (literal part)) :
    h.IsLiteral (.object id) (.object
      ((h.properties id).entries.map fun entry => .given entry.1 (literal entry.2))) := by
  have hentry : ∀ entry ∈ (h.properties id).entries, h.IsLiteral entry.2 (literal entry.2) :=
    fun entry hmem => hparts entry.2 (List.mem_map_of_mem hmem)
  constructor
  · have htext := Acyclic.displayFrom_value (c := .object id) hv true
    rw [Container.value, textOf] at htext
    rw [htext]
    split
    case isTrue hempty =>
      rw [List.isEmpty_map, List.isEmpty_iff] at hempty
      rw [hempty]
      exact Source.denotes_braces
    case isFalse =>
      apply Source.denotes_object
      rw [List.forall₂_map_left_iff, List.forall₂_map_right_iff, List.forall₂_same]
      intro entry hmem
      exact Source.denotes_property (hkeys entry.1 (List.mem_map_of_mem hmem)) (hentry entry hmem).1
  · apply Eval.recreates_object hid
    rw [List.forall₂_map_left_iff, List.forall₂_same]
    exact fun entry hmem => ⟨_, rfl, (hentry entry hmem).2⟩

end Container

theorem exists_literal (hv : h.Acyclic v) (hlegible : ∀ part, h.Within v part → h.Legible part) :
    ∃ e, h.IsLiteral v e := by
  revert hlegible
  refine Acyclic.induction (P := fun v => (∀ part, h.Within v part → h.Legible part) →
    ∃ e, h.IsLiteral v e) ?_ hv
  intro v hv ih hlegible
  have hnonempty : Nonempty Expr := ⟨.array []⟩
  have hparts : ∀ part, h.Holds v part → ∃ e, h.IsLiteral part e := by
    intro part hpart
    exact ih part hpart fun deeper hdeeper => hlegible deeper (.head hpart hdeeper)
  -- Each part has a literal of its own, whichever container it stands in.
  choose! literal hliteral using hparts
  cases hlegible v .refl with
  | null =>
    have htext : h.displayFrom [] true .null = "null" := by rw [displayFrom]
    exact ⟨_, isLiteral_name (by simp [named]) (by decide) htext⟩
  | boolean b =>
    have htext : h.displayFrom [] true (.boolean b) = if b then "true" else "false" := by
      rw [displayFrom]
    cases b with
    | true => exact ⟨_, isLiteral_name (by simp [named]) (by decide) htext⟩
    | false => exact ⟨_, isLiteral_name (by simp [named]) (by decide) htext⟩
  | @string text hescapes =>
    refine ⟨.string text, ?_, Eval.recreates_string text⟩
    rw [displayFrom]
    exact Source.denotes_quoted fun c hc => conveys_escape (hescapes c hc)
  | @number x y hform hread hequal =>
    refine ⟨.number y, ?_, Eval.recreates_number hequal⟩
    rw [displayFrom]
    exact Source.denotes_number hform hread
  | array hid => exact ⟨_, isLiteral_array hv hid hliteral⟩
  | object hid hkeys => exact ⟨_, isLiteral_object hv hid hkeys hliteral⟩

end Heap

namespace Session

def startIn (heap : Heap) (limit : Nat) (sink : Sink) (clock : Clock) : Session :=
  let (globals, heap) := heap.newGlobals
  ⟨limit, globals, ⟨heap, 0, sink, clock⟩⟩

theorem startIn_empty (limit : Nat) (sink : Sink) (clock : Clock) :
    startIn .empty limit sink clock = start limit sink clock :=
  rfl

theorem understands_startIn (heap : Heap) (limit : Nat) (sink : Sink) (clock : Clock) :
    (startIn heap limit sink clock).state.heap.Understands
      (startIn heap limit sink clock).globals :=
  heap.understands_newGlobals

theorem eval_literal {session : Session} {h : Heap} {v : Value} {e : Expr}
    (hscope : session.state.heap.Understands session.globals) (hliteral : h.IsLiteral v e) :
    ∃ w after, session.eval (h.displayFrom [] true v) = (.ok w, after) ∧
      session.state.heap.Extends after.state.heap ∧ after.state.heap.Copies h w v := by
  have hparse := Program.parse_of_denotes hliteral.1
  obtain ⟨w, t, hw, hext, hcopies⟩ := hliteral.2 (Eval.caller session.limit) _ _ hscope
  have hprogram : Eval.program session.limit session.globals [.expr e] session.state = .ok w t :=
    Eval.bind_of_ok (f := pure) hw
  refine ⟨w, { session with state := t }, ?_, hext, hcopies⟩
  simp only [eval, hparse, hprogram]

/-- The text of data without cycles evaluates in a fresh session to a copy of the data. In a heap
that holds the data as well, the copy is equal to it, and the data is still what it was. -/
theorem eval_display {h : Heap} {v : Value} (hacyclic : h.Acyclic v)
    (hlegible : ∀ part, h.Within v part → h.Legible part) (hv : ∀ text, v ≠ .string text)
    (limit : Nat) (sink : Sink) (clock : Clock) :
    (∃ w after, (start limit sink clock).eval (h.display v) = (.ok w, after) ∧
      after.state.heap.Copies h w v) ∧
    ∃ w after, (startIn h limit sink clock).eval (h.display v) = (.ok w, after) ∧
      h.Extends after.state.heap ∧ after.state.heap.equal w v = true := by
  obtain ⟨e, hliteral⟩ := Heap.exists_literal hacyclic hlegible
  rw [Heap.display_eq hv, ← startIn_empty]
  constructor
  · obtain ⟨w, after, heval, -, hcopies⟩ :=
      eval_literal (understands_startIn .empty limit sink clock) hliteral
    exact ⟨w, after, heval, hcopies⟩
  · obtain ⟨w, after, heval, hext, hcopies⟩ :=
      eval_literal (understands_startIn h limit sink clock) hliteral
    have hkept : h.Extends after.state.heap := (Heap.Extends.newGlobals h).trans hext
    exact ⟨w, after, heval, hkept, (hcopies.mono (.refl _) hkept).equal_eq_true⟩

def shared : Heap where
  scopes := #[]
  arrays := #[#[.null, .number (-1.5), .string "a\n\"b\"", .boolean true], #[],
    #[.object ⟨1⟩, .array ⟨0⟩, .array ⟨1⟩]]
  objects := #[.empty, .ofEntries [("z", .array ⟨0⟩), ("a", .array ⟨0⟩), ("m", .object ⟨0⟩)]]
  stamps := 0

def age : Value → Nat
  | .array id => 2 * id.index + 1
  | .object id => 2 * id.index + 2
  | _ => 0

theorem holds_shared {a b : Value} (hab : shared.Holds a b) :
    a = .array ⟨0⟩ ∧ b ∈ [.null, .number (-1.5), .string "a\n\"b\"", .boolean true] ∨
    a = .array ⟨2⟩ ∧ b ∈ [.object ⟨1⟩, .array ⟨0⟩, .array ⟨1⟩] ∨
    a = .object ⟨1⟩ ∧ b ∈ [.array ⟨0⟩, .object ⟨0⟩, .array ⟨0⟩] := by
  obtain ⟨c, hc, rfl⟩ := hab.exists_container
  have hcontainers : shared.containers =
      [.array ⟨0⟩, .array ⟨1⟩, .array ⟨2⟩, .object ⟨0⟩, .object ⟨1⟩] := rfl
  simp only [hcontainers, List.mem_cons, List.not_mem_nil, or_false] at hc
  rcases hc with rfl | rfl | rfl | rfl | rfl
  · exact .inl ⟨rfl, hab⟩
  · cases hab
  · exact .inr (.inl ⟨rfl, hab⟩)
  · cases hab
  · exact .inr (.inr ⟨rfl, hab⟩)

theorem legible_shared {part : Value} (hpart : shared.Within (.array ⟨2⟩) part) :
    shared.Legible part := by
  have harray : ∀ i < 3, shared.Legible (.array ⟨i⟩) := fun i hi => .array hi
  have hempty : shared.Legible (.object ⟨0⟩) :=
    .object Nat.zero_lt_two (fun _ hkey => by cases hkey)
  have hobject : shared.Legible (.object ⟨1⟩) := by
    refine .object Nat.one_lt_two ?_
    have hkeys : (shared.properties ⟨1⟩).keys = ["a", "m", "z"] := by decide
    rw [hkeys]
    simp only [List.forall_mem_cons, List.not_mem_nil, false_implies, implies_true, and_true]
    exact ⟨by decide, by decide, by decide⟩
  have hstring : shared.Legible (.string "a\n\"b\"") := by
    refine .string ?_
    have hchars : "a\n\"b\"".toList = ['a', '\n', '"', 'b', '"'] := rfl
    rw [hchars]
    simp only [List.forall_mem_cons, List.not_mem_nil, false_implies, implies_true, and_true]
    exact ⟨by decide, by decide, by decide, by decide, by decide⟩
  have hnumber : shared.Legible (.number (-1.5)) := by
    have htext : Number.shown.format (-1.5) = "-1.5" := by rfl
    have hread : Number.read? "-1.5" = some (-1.5) := by rfl
    have hequal : ((-1.5 : Float) == -1.5) = true := by rfl
    have hnumeral : Stretch.IsNumeral (['1'] ++ '.' :: ['5']) :=
      .fraction (by simp) (by simp) (by simp)
    refine .number ?_ (htext ▸ hread) hequal
    rw [htext]
    exact .inr ⟨_, rfl, hnumeral⟩
  rcases Relation.ReflTransGen.cases_tail hpart with rfl | ⟨a, -, hab⟩
  · exact harray 2 (by decide)
  · rcases holds_shared hab with ⟨-, hmem⟩ | ⟨-, hmem⟩ | ⟨-, hmem⟩
    all_goals simp only [List.mem_cons, List.not_mem_nil, or_false] at hmem
    · rcases hmem with rfl | rfl | rfl | rfl
      · exact .null
      · exact hnumber
      · exact hstring
      · exact .boolean true
    · rcases hmem with rfl | rfl | rfl
      · exact hobject
      · exact harray 0 (by decide)
      · exact harray 1 (by decide)
    · rcases hmem with rfl | rfl | rfl
      · exact harray 0 (by decide)
      · exact hempty
      · exact harray 0 (by decide)

theorem eval_display_shared : shared.Acyclic (.array ⟨2⟩) ∧
    (∀ part, shared.Within (.array ⟨2⟩) part → shared.Legible part) ∧
    (∃ w after, (start defaultLimit .unbounded (.still 0)).eval (shared.display (.array ⟨2⟩)) =
      (.ok w, after) ∧ after.state.heap.Copies shared w (.array ⟨2⟩)) ∧
    ∃ w after, (startIn shared defaultLimit .unbounded (.still 0)).eval
        (shared.display (.array ⟨2⟩)) = (.ok w, after) ∧ shared.Extends after.state.heap ∧
        after.state.heap.equal w (.array ⟨2⟩) = true := by
  have hacyclic : shared.Acyclic (.array ⟨2⟩) := by
    apply Heap.acyclic_of_rank age
    intro a b hab
    rcases holds_shared hab with ⟨rfl, hmem⟩ | ⟨rfl, hmem⟩ | ⟨rfl, hmem⟩
    all_goals simp only [List.mem_cons, List.not_mem_nil, or_false] at hmem
    · rcases hmem with rfl | rfl | rfl | rfl <;> decide
    · rcases hmem with rfl | rfl | rfl <;> decide
    · rcases hmem with rfl | rfl | rfl <;> decide
  have hlegible : ∀ part, shared.Within (.array ⟨2⟩) part → shared.Legible part :=
    fun _ hpart => legible_shared hpart
  exact ⟨hacyclic, hlegible, eval_display hacyclic hlegible (by simp) _ _ _⟩

end Session
end Script
