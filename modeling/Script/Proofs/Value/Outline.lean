import Mathlib.Tactic.Choose
import Script.Proofs.Value.Rendering

namespace Script

/-- What is shown of a value, one node for each occurrence. -/
inductive Outline where
  /-- The text of a value that contains nothing. -/
  | word (text : String)
  /-- A container that is only hinted at. -/
  | hint (c : Container)
  /-- A container with all of its parts. -/
  | full (c : Container) (parts : List Outline)
  deriving Inhabited

def Value.container? : Value → Option Container
  | .array id => some (.array id)
  | .object id => some (.object id)
  | _ => none

def Value.ownText? (nested : Bool) : Value → Option String
  | .null => some "null"
  | .number x => some (Number.shown.format x)
  | .string text => some (if nested then Text.quoted text else text)
  | .boolean b => some (if b then "true" else "false")
  | .native f => some ("<native " ++ f.name ++ ">")
  | .function f => some ("<func " ++ f.declaration.name ++ ">")
  | .array _ | .object _ => none

def Container.hintText : Container → String
  | .array _ => "[...]"
  | .object _ => "\x7b...\x7d"

def Heap.enclose (h : Heap) (c : Container) (texts : List String) : String :=
  match c with
  | .array _ => "[" ++ ", ".intercalate texts ++ "]"
  | .object id =>
    let entries := (h.properties id).keys.zipWith (fun key text => key ++ ": " ++ text) texts
    if entries.isEmpty then "\x7b\x7d" else "\x7b " ++ ", ".intercalate entries ++ " \x7d"

namespace Outline

mutual

def text (h : Heap) : Outline → String
  | word text => text
  | hint c => c.hintText
  | full c parts => h.enclose c (texts h parts)

def texts (h : Heap) : List Outline → List String
  | [] => []
  | t :: ts => t.text h :: texts h ts

end

theorem texts_eq_map (h : Heap) (ts : List Outline) : texts h ts = ts.map (text h) := by
  induction ts with
  | nil => rfl
  | cons t ts ih => rw [texts, ih, List.map_cons]

/-- `t.Occurs above node`: the node stands in `t` inside of the containers `above`, the outermost
of them first. -/
inductive Occurs : Outline → List Container → Outline → Prop
  | here {t : Outline} : Occurs t [] t
  | inside {c : Container} {parts above : List _} {part node : Outline} (hpart : part ∈ parts)
      (hnode : Occurs part above node) : Occurs (full c parts) (c :: above) node

/-- Where some containers are open already, the outline hints at a container exactly if it is one of
them or shown further up on the path to the occurrence. -/
def Marks (t : Outline) (opened : List Container) : Prop :=
  ∀ above c, (t.Occurs above (hint c) → c ∈ above ++ opened) ∧
    ∀ parts, t.Occurs above (full c parts) → c ∉ above ++ opened

variable {c : Container} {parts : List Outline} {opened : List Container}

theorem marks_word (text : String) (opened : List Container) : (word text).Marks opened := by
  intro above c
  constructor
  · intro hoccurs
    cases hoccurs
  · intro parts hoccurs
    cases hoccurs

theorem marks_hint : (hint c).Marks opened ↔ c ∈ opened := by
  constructor
  · intro hmarks
    exact (hmarks [] c).1 .here
  · intro hmem above c'
    constructor
    · intro hoccurs
      cases hoccurs
      exact hmem
    · intro parts hoccurs
      cases hoccurs

/-- Inside a container that is shown, that container is open as well. -/
theorem marks_full : (full c parts).Marks opened ↔
    c ∉ opened ∧ ∀ part ∈ parts, part.Marks (c :: opened) := by
  have hmem : ∀ (c' : Container) (above : List Container),
      c' ∈ c :: above ++ opened ↔ c' ∈ above ++ c :: opened := by
    intro c' above
    simp only [List.cons_append, List.mem_cons, List.mem_append]
    exact or_left_comm
  constructor
  · intro hmarks
    refine ⟨(hmarks [] c).2 parts .here, fun part hpart above c' => ⟨?_, ?_⟩⟩
    · intro hoccurs
      exact (hmem c' above).mp ((hmarks (c :: above) c').1 (.inside hpart hoccurs))
    · intro deeper hoccurs hopen
      exact (hmarks (c :: above) c').2 deeper (.inside hpart hoccurs) ((hmem c' above).mpr hopen)
  · rintro ⟨hopen, hparts⟩ above c'
    constructor
    · intro hoccurs
      cases hoccurs with
      | inside hpart hnode => exact (hmem _ _).mpr ((hparts _ hpart _ _).1 hnode)
    · intro deeper hoccurs
      cases hoccurs with
      | here => exact hopen
      | inside hpart hnode => exact fun h => (hparts _ hpart _ _).2 _ hnode ((hmem _ _).mp h)

end Outline

namespace Heap

variable {h : Heap} {v : Value} {c : Container} {nested : Bool} {opened : List Container}

/-- The outline is one of the value: it shows all parts of each container that it does not only hint
at. It may hint at any container. -/
inductive Depicts (h : Heap) : Bool → Value → Outline → Prop
  | word {nested : Bool} {v : Value} {text : String} (htext : v.ownText? nested = some text) :
      Depicts h nested v (.word text)
  | hint {nested : Bool} {c : Container} : Depicts h nested c.value (.hint c)
  | full {nested : Bool} {c : Container} {parts : List Outline}
      (hlength : parts.length = (h.parts c.value).length)
      (hparts : ∀ (i : Nat) part t, (h.parts c.value)[i]? = some part → parts[i]? = some t →
        Depicts h true part t) : Depicts h nested c.value (.full c parts)

theorem eq_value_or_ownText? (v : Value) (nested : Bool) :
    (∃ c : Container, v = c.value) ∨ ∃ text, v.ownText? nested = some text := by
  cases v with
  | array id => exact .inl ⟨.array id, rfl⟩
  | object id => exact .inl ⟨.object id, rfl⟩
  | _ => exact .inr ⟨_, rfl⟩

theorem ownText?_value (c : Container) (nested : Bool) : c.value.ownText? nested = none := by
  cases c <;> rfl

theorem container?_value (c : Container) : c.value.container? = some c := by
  cases c <;> rfl

theorem container?_of_ownText? {text : String} (htext : v.ownText? nested = some text) :
    v.container? = none := by
  cases v with
  | array id | object id => cases htext
  | _ => rfl

theorem displayFrom_of_ownText? {text : String} (htext : v.ownText? nested = some text)
    (opened : List Container) : h.displayFrom opened nested v = text := by
  cases v with
  | array id | object id => cases htext
  | _ =>
    rw [displayFrom]
    exact Option.some.inj htext

theorem displayFrom_of_mem (hopen : c ∈ opened) (nested : Bool) :
    h.displayFrom opened nested c.value = c.hintText := by
  cases c with
  | array id => rw [Container.value, displayFrom, dif_pos hopen, Container.hintText]
  | object id => rw [Container.value, displayFrom, dif_pos hopen, Container.hintText]

theorem textOf_eq_enclose (h : Heap) (text : Value → String) (c : Container) :
    h.textOf text c = h.enclose c ((h.parts c.value).map text) := by
  cases c with
  | array id => rfl
  | object id =>
    simp only [textOf, enclose, parts, Container.value, Table.keys, Table.values, List.map_map,
      List.zipWith_map, List.zipWith_self, Function.comp_def]

theorem displayFrom_eq_enclose (hopen : c ∉ opened) (nested : Bool) :
    h.displayFrom opened nested c.value =
      h.enclose c ((h.parts c.value).map (h.displayFrom (c :: opened) true)) := by
  rw [displayFrom_value hopen, textOf_eq_enclose]

/-- Going on to a part opens one more container of the heap. -/
theorem Holds.unopened_lt {part : Value} (hpart : h.Holds c.value part) (hopen : c ∉ opened) :
    unopened h.containers (c :: opened) < unopened h.containers opened := by
  obtain ⟨c', hmem, heq⟩ := hpart.exists_container
  obtain rfl := Container.value_injective heq
  exact unopened_cons_lt hmem hopen

theorem exists_outline (h : Heap) (opened : List Container) (nested : Bool) (v : Value) :
    ∃ t, h.Depicts nested v t ∧ t.Marks opened ∧ h.displayFrom opened nested v = t.text h := by
  induction hn : unopened h.containers opened using Nat.strong_induction_on
    generalizing opened nested v with
  | _ n ih =>
    rcases eq_value_or_ownText? v nested with ⟨c, rfl⟩ | ⟨text, htext⟩
    · by_cases hopen : c ∈ opened
      · exact ⟨.hint c, .hint, Outline.marks_hint.mpr hopen, displayFrom_of_mem hopen nested⟩
      · have hparts : ∀ part, h.Holds c.value part → ∃ t, h.Depicts true part t ∧
            t.Marks (c :: opened) ∧ h.displayFrom (c :: opened) true part = t.text h := by
          intro part hpart
          exact ih _ (hn ▸ hpart.unopened_lt hopen) _ true part rfl
        -- Equal parts get equal outlines, so one outline for each value will do.
        choose! outline hdepicts hmarks htext using hparts
        refine ⟨.full c ((h.parts c.value).map outline), .full (List.length_map _) ?_,
          Outline.marks_full.mpr ⟨hopen, ?_⟩, ?_⟩
        · intro i part t hpart ht
          rw [List.getElem?_map, hpart] at ht
          obtain rfl := Option.some.inj ht
          exact hdepicts part (List.mem_of_getElem? hpart)
        · intro t ht
          obtain ⟨part, hpart, rfl⟩ := List.mem_map.mp ht
          exact hmarks part hpart
        · rw [displayFrom_eq_enclose hopen, Outline.text, Outline.texts_eq_map, List.map_map]
          exact congrArg (h.enclose c) (List.map_congr_left htext)
    · exact ⟨.word text, .word htext, Outline.marks_word text opened,
        displayFrom_of_ownText? htext opened⟩

/-- Where the hints have to be leaves no choice. -/
theorem Depicts.unique {t t' : Outline} (ht : h.Depicts nested v t) (hmarks : t.Marks opened)
    (ht' : h.Depicts nested v t') (hmarks' : t'.Marks opened) : t = t' := by
  induction ht generalizing t' opened with
  | word htext =>
    cases ht' with
    | word htext' => rw [Option.some.inj (htext.symm.trans htext')]
    | hint | full => rw [ownText?_value] at htext; cases htext
  | @hint nested c =>
    have hopen := Outline.marks_hint.mp hmarks
    -- The other outline shows a container in full only if it is not open.
    generalize hv : c.value = v at ht'
    cases ht' with
    | word htext => rw [← hv, ownText?_value] at htext; cases htext
    | hint => rw [Container.value_injective hv]
    | full =>
      obtain rfl := Container.value_injective hv
      exact absurd hopen (Outline.marks_full.mp hmarks').1
  | @full nested c parts hlength hparts ih =>
    obtain ⟨hopen, hmarks⟩ := Outline.marks_full.mp hmarks
    generalize hv : c.value = v at ht'
    cases ht' with
    | word htext => rw [← hv, ownText?_value] at htext; cases htext
    | hint =>
      obtain rfl := Container.value_injective hv
      exact absurd (Outline.marks_hint.mp hmarks') hopen
    | @full _ _ parts' hlength' hparts' =>
      obtain rfl := Container.value_injective hv
      have hmarks' := (Outline.marks_full.mp hmarks').2
      have hsame : parts = parts' := by
        apply List.ext_getElem (hlength.trans hlength'.symm)
        intro i hi hi'
        have hpart : (h.parts c.value)[i]? = some ((h.parts c.value)[i]) :=
          List.getElem?_eq_getElem (hlength ▸ hi)
        have ht := List.getElem?_eq_getElem hi
        have ht' := List.getElem?_eq_getElem hi'
        exact ih i _ _ hpart ht (hmarks _ (List.getElem_mem hi)) (hparts' i _ _ hpart ht')
          (hmarks' _ (List.getElem_mem hi'))
      rw [hsame]

def showValue (nested : Bool) (enter : Container → Option String) (v : Value) : Option String :=
  match v.container? with
  | none => v.ownText? nested
  | some c => enter c

def showParts (h : Heap) (inner : Value → Option String) (c : Container) : Option String :=
  ((h.parts c.value).mapM inner).map (h.enclose c)

/-- The plain rendering, without any record, where it may nest up to a depth. -/
def plainWithin (h : Heap) : Nat → Bool → Value → Option String
  | 0, _, _ => none
  | depth + 1, nested, v => showValue nested (h.showParts (h.plainWithin depth true)) v

theorem showValue_value (enter : Container → Option String) :
    showValue nested enter c.value = enter c := by
  rw [showValue, container?_value]

theorem showValue_of_ownText? {text : String} (htext : v.ownText? nested = some text)
    (enter : Container → Option String) : showValue nested enter v = some text := by
  rw [showValue, container?_of_ownText? htext]
  exact htext

theorem mapM_eq_some_iff {α β : Type} {f : α → Option β} {xs : List α} {ys : List β} :
    xs.mapM f = some ys ↔ List.Forall₂ (fun x y => f x = some y) xs ys := by
  induction xs generalizing ys with
  | nil => simp [eq_comm]
  | cons x xs ih => cases ys <;> simp [List.mapM_cons, Option.bind_eq_some_iff, ih]

/-- Parts that can be shown are shown as they should be if each of them is. -/
theorem showParts_eq_some_iff {inner : Value → Option String} {text : String} :
    h.showParts inner c = some text ↔ ∃ texts,
      List.Forall₂ (fun part text => inner part = some text) (h.parts c.value) texts ∧
        h.enclose c texts = text := by
  simp only [showParts, Option.map_eq_some_iff, mapM_eq_some_iff]

theorem showParts_eq {inner : Value → Option String} {shown : Value → String}
    (hinner : ∀ part, h.Holds c.value part → inner part = some (shown part)) :
    h.showParts inner c = some (h.enclose c ((h.parts c.value).map shown)) := by
  refine showParts_eq_some_iff.mpr ⟨_, ?_, rfl⟩
  rw [List.forall₂_map_right_iff, List.forall₂_same]
  exact hinner

/-- A container is acyclic if its parts are. -/
theorem acyclic_of_parts (hparts : ∀ part, h.Holds v part → h.Acyclic part) : h.Acyclic v := by
  intro deeper hdeeper hcycle
  rcases Relation.ReflTransGen.cases_head hdeeper with rfl | ⟨part, hpart, hwithin⟩
  · obtain ⟨part, hpart, hback⟩ := Relation.TransGen.head'_iff.mp hcycle
    exact hparts part hpart v hback hcycle
  · exact hparts part hpart deeper hwithin hcycle

/-- On the way down into an acyclic value no container comes twice, so the plain rendering ends as
well. -/
theorem Acyclic.plainWithin_eq {depth : Nat} (hv : h.Acyclic v) (hinside : h.Inside opened v)
    (hdepth : unopened h.containers opened < depth) (nested : Bool) :
    h.plainWithin depth nested v = some (h.displayFrom [] nested v) := by
  induction depth generalizing opened nested v with
  | zero => exact absurd hdepth (Nat.not_lt_zero _)
  | succ depth ih =>
    rw [plainWithin]
    rcases eq_value_or_ownText? v nested with ⟨c, rfl⟩ | ⟨text, htext⟩
    · rw [showValue_value, hv.displayFrom_value, textOf_eq_enclose]
      apply showParts_eq
      intro part hpart
      have hless := hpart.unopened_lt (hv.not_mem hinside)
      exact ih (hv.of_holds hpart) (hinside.cons hpart) (by omega) true
    · rw [showValue_of_ownText? htext, displayFrom_of_ownText? htext]

/-- The plain rendering only ends for values without cycles. -/
theorem acyclic_of_plainWithin {depth : Nat} {text : String}
    (htext : h.plainWithin depth nested v = some text) :
    h.Acyclic v ∧ h.displayFrom [] nested v = text := by
  induction depth generalizing nested v text with
  | zero => cases htext
  | succ depth ih =>
    rw [plainWithin] at htext
    rcases eq_value_or_ownText? v nested with ⟨c, rfl⟩ | ⟨own, hown⟩
    · rw [showValue_value, showParts_eq_some_iff] at htext
      obtain ⟨texts, hparts, rfl⟩ := htext
      obtain ⟨hacyclic, htexts⟩ :=
        (List.forall₂_and_left _ _).mp (hparts.imp fun _ _ => ih)
      have hacyclic : h.Acyclic c.value := acyclic_of_parts hacyclic
      have htexts : (h.parts c.value).map (h.displayFrom [] true) = texts := by
        rwa [← List.forall₂_eq_eq_eq, List.forall₂_map_left_iff]
      rw [hacyclic.displayFrom_value, textOf_eq_enclose, htexts]
      exact ⟨hacyclic, rfl⟩
    · rw [showValue_of_ownText? hown] at htext
      refine ⟨acyclic_of_parts ?_, ?_⟩
      · intro part hpart
        obtain ⟨c, -, rfl⟩ := hpart.exists_container
        rw [ownText?_value] at hown
        cases hown
      · rw [displayFrom_of_ownText? hown]
        exact Option.some.inj htext

/-- Every value is shown to its end with no container left open, in whichever depth above the number
of all containers. The text is that of the one outline in which a container is hinted at exactly
where it is shown further up on the same path. The plain rendering ends exactly for the values
without cycles, and then it gives the same text. -/
theorem display_outlines (h : Heap) (v : Value) :
    (∀ depth, h.containers.length < depth →
      (h.render depth false v).run [] = some (h.display v, [])) ∧
      (∃ t : Outline, h.display v = t.text h ∧
        ∀ t', h.Depicts false v t' ∧ t'.Marks [] ↔ t' = t) ∧
      ∀ text, (∃ depth, h.plainWithin depth false v = some text) ↔
        h.Acyclic v ∧ h.display v = text := by
  have hbound : unopened h.containers [] < h.containers.length + 1 :=
    unopened_lt (Nat.lt_succ_self _)
  rw [display_eq_displayFrom]
  refine ⟨fun depth hdepth => restores_render (unopened_lt hdepth) false v, ?_,
    fun text => ⟨?_, ?_⟩⟩
  · obtain ⟨t, hdepicts, hmarks, htext⟩ := h.exists_outline [] false v
    refine ⟨t, htext, fun t' => ⟨?_, ?_⟩⟩
    · rintro ⟨hdepicts', hmarks'⟩
      exact hdepicts'.unique hmarks' hdepicts hmarks
    · rintro rfl
      exact ⟨hdepicts, hmarks⟩
  · rintro ⟨depth, htext⟩
    exact acyclic_of_plainWithin htext
  · rintro ⟨hacyclic, rfl⟩
    exact ⟨_, hacyclic.plainWithin_eq (h.inside_nil v) hbound false⟩

def knot : Heap where
  scopes := #[]
  arrays := #[#[.array ⟨0⟩, .object ⟨0⟩, .object ⟨0⟩]]
  objects := #[.ofEntries [("name", .string "k"), ("back", .array ⟨0⟩)]]
  stamps := 0

-- The object is shared, not open, so it is shown in full both times.
example : (knot.render 3 false (.array ⟨0⟩)).run [] = some
    ("[[...], \x7b back: [...], name: \"k\" \x7d, \x7b back: [...], name: \"k\" \x7d]", []) := by
  decide +kernel

end Heap
end Script
