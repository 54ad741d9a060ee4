import Script.Proofs.Value.Outline

namespace Script

namespace Text

def Diverge (s t : String) : Prop :=
  ∃ common c d rest rest', s.toList = common ++ c :: rest ∧ t.toList = common ++ d :: rest' ∧ c ≠ d

namespace Diverge

variable {s t : String}

theorem ne (h : Diverge s t) : s ≠ t := by
  obtain ⟨common, c, d, rest, rest', hs, ht, hne⟩ := h
  rintro rfl
  rw [hs, List.append_cancel_left_eq, List.cons.injEq] at ht
  exact hne ht.1

theorem symm (h : Diverge s t) : Diverge t s := by
  obtain ⟨common, c, d, rest, rest', hs, ht, hne⟩ := h
  exact ⟨common, d, c, rest', rest, ht, hs, hne.symm⟩

theorem append_left (h : Diverge s t) (before : String) : Diverge (before ++ s) (before ++ t) := by
  obtain ⟨common, c, d, rest, rest', hs, ht, hne⟩ := h
  exact ⟨before.toList ++ common, c, d, rest, rest', by simp [hs], by simp [ht], hne⟩

theorem append_right (h : Diverge s t) (after : String) : Diverge s (t ++ after) := by
  obtain ⟨common, c, d, rest, rest', hs, ht, hne⟩ := h
  exact ⟨common, c, d, rest, rest' ++ after.toList, hs, by simp [ht], hne⟩

theorem append (h : Diverge s t) (after after' : String) : Diverge (s ++ after) (t ++ after') :=
  ((h.append_right after').symm.append_right after).symm

end Diverge

theorem exists_intercalate_cons (separator first : String) (texts : List String) :
    ∃ after, separator.intercalate (first :: texts) = first ++ after := by
  cases texts with
  | nil => exact ⟨"", by simp⟩
  | cons second texts => exact ⟨_, String.intercalate_cons_cons.trans (String.append_assoc ..)⟩

/-- Rows of texts diverge where the first two of them do. -/
theorem diverge_intercalate {α : Type} (separator : String) {f g : α → String} {xs : List α}
    (hall : ∀ x ∈ xs, f x = g x ∨ Diverge (f x) (g x)) (hsome : ∃ x ∈ xs, f x ≠ g x) :
    Diverge (separator.intercalate (xs.map f)) (separator.intercalate (xs.map g)) := by
  induction xs with
  | nil => simp at hsome
  | cons x xs ih =>
    rw [List.forall_mem_cons] at hall
    rw [List.map_cons, List.map_cons]
    by_cases hx : f x = g x
    · obtain ⟨y, hy, hne⟩ : ∃ y ∈ xs, f y ≠ g y := by
        obtain ⟨y, hy, hne⟩ := hsome
        rcases List.mem_cons.mp hy with rfl | hy
        · exact absurd hx hne
        · exact ⟨y, hy, hne⟩
      have hnil : ∀ k : α → String, xs.map k ≠ [] := fun k hk =>
        List.ne_nil_of_mem hy (List.map_eq_nil_iff.mp hk)
      rw [String.intercalate_cons_of_ne_nil (hnil f), String.intercalate_cons_of_ne_nil (hnil g),
        hx]
      exact (ih hall.2 ⟨y, hy, hne⟩).append_left _
    · obtain ⟨after, hf⟩ := exists_intercalate_cons separator (f x) (xs.map f)
      obtain ⟨after', hg⟩ := exists_intercalate_cons separator (g x) (xs.map g)
      rw [hf, hg]
      exact (hall.1.resolve_left hx).append after after'

end Text

namespace Heap

variable {h : Heap} {a b : ObjectId} {c : Container} {opened opened' : List Container}

/-- The texts of a container diverge where those of its parts do. -/
theorem diverge_textOf {text text' : Value → String}
    (hall : ∀ part, h.Holds c.value part → text part = text' part ∨
      Text.Diverge (text part) (text' part))
    (hsome : ∃ part, h.Holds c.value part ∧ text part ≠ text' part) :
    Text.Diverge (h.textOf text c) (h.textOf text' c) := by
  obtain ⟨part, hpart, hne⟩ := hsome
  cases c with
  | array id =>
    have hrow := Text.diverge_intercalate ", " hall ⟨part, hpart, hne⟩
    exact (hrow.append_left _).append _ _
  | object id =>
    obtain ⟨entry, hentry, rfl⟩ := List.mem_map.mp hpart
    have hrow : Text.Diverge
        (", ".intercalate ((h.properties id).entries.map fun e => e.1 ++ ": " ++ text e.2))
        (", ".intercalate ((h.properties id).entries.map fun e => e.1 ++ ": " ++ text' e.2)) := by
      refine Text.diverge_intercalate ", " (fun e he => ?_) ⟨entry, hentry, fun heq => hne ?_⟩
      · rcases hall e.2 (List.mem_map_of_mem he) with heq | hdiverge
        · exact .inl (by rw [heq])
        · exact .inr (hdiverge.append_left _)
      · simpa using heq
    have hsome : (h.properties id).entries.isEmpty = false := by
      rw [List.isEmpty_eq_false_iff]
      exact List.ne_nil_of_mem hentry
    simp only [textOf, List.isEmpty_map, hsome]
    exact (hrow.append_left _).append _ _

/-- The text of an object goes on otherwise than the hint behind the first brace. -/
theorem diverge_hintText (text : Value → String) (id : ObjectId) :
    Text.Diverge (Container.object id).hintText (h.textOf text (.object id)) := by
  simp only [Container.hintText, textOf]
  split
  · exact ⟨['\x7b'], '.', '\x7d', ['.', '.', '\x7d'], [], by simp, by simp, by decide⟩
  · have hstart : Text.Diverge "\x7b...\x7d" "\x7b " :=
      ⟨['\x7b'], '.', ' ', ['.', '.', '\x7d'], [], by simp, by simp, by decide⟩
    exact (hstart.append_right _).append_right _

/-- The lists agree but for two objects, each of which is open in one of them. -/
structure Exchanges (a b : ObjectId) (opened opened' : List Container) : Prop where
  first : .object a ∈ opened ∧ .object a ∉ opened'
  second : .object b ∉ opened ∧ .object b ∈ opened'
  others : ∀ c, c ≠ .object a → c ≠ .object b → (c ∈ opened ↔ c ∈ opened')

theorem Exchanges.cons (hopened : Exchanges a b opened opened') (hca : c ≠ .object a)
    (hcb : c ≠ .object b) : Exchanges a b (c :: opened) (c :: opened') where
  first := by simpa [Ne.symm hca] using hopened.first
  second := by simpa [Ne.symm hcb] using hopened.second
  others c' hc'a hc'b := by rw [List.mem_cons, List.mem_cons, hopened.others c' hc'a hc'b]

def Covers (these : Container → Prop) (v : Value) : Prop :=
  ∀ c : Container, v = c.value → these c

/-- Containers that hold only each other and those that are open both times. The value is among them
if it is a container, and the two objects are not. -/
structure Secludes (h : Heap) (a b : ObjectId) (opened opened' : List Container)
    (met : Container → Prop) (v : Value) : Prop where
  first : ¬met (.object a)
  second : ¬met (.object b)
  covers : Covers (fun c => met c ∨ c ∈ opened ∧ c ∈ opened') v
  closed : ∀ c part, met c → h.Holds c.value part →
    Covers (fun c => met c ∨ c ∈ opened ∧ c ∈ opened') part

theorem secludes_of_covers {v : Value} (hv : Covers (fun c => c ∈ opened ∧ c ∈ opened') v) :
    h.Secludes a b opened opened' (fun _ => False) v where
  first := id
  second := id
  covers c hc := .inr (hv c hc)
  closed _ _ hmet := hmet.elim

/-- What is met in the parts of a container is met in it, and so is the container itself. -/
theorem secludes_value {met : Value → Container → Prop} (hca : c ≠ .object a) (hcb : c ≠ .object b)
    (hparts : ∀ part, h.Holds c.value part →
      h.Secludes a b (c :: opened) (c :: opened') (met part) part) :
    h.Secludes a b opened opened'
      (fun c' => c' = c ∨ ∃ part, h.Holds c.value part ∧ met part c') c.value := by
  -- The container itself was open inside of its parts, and now it counts as met.
  have hwiden : ∀ {part v}, h.Holds c.value part →
      Covers (fun c' => met part c' ∨ c' ∈ c :: opened ∧ c' ∈ c :: opened') v →
      Covers (fun c' => (c' = c ∨ ∃ part, h.Holds c.value part ∧ met part c') ∨
        c' ∈ opened ∧ c' ∈ opened') v := by
    intro part v hpart hv c' hc'
    rcases hv c' hc' with hmet | ⟨hmem, hmem'⟩
    · exact .inl (.inr ⟨part, hpart, hmet⟩)
    · by_cases heq : c' = c
      · exact .inl (.inl heq)
      · exact .inr ⟨List.mem_of_ne_of_mem heq hmem, List.mem_of_ne_of_mem heq hmem'⟩
  constructor
  · rintro (heq | ⟨part, hpart, hmet⟩)
    · exact hca heq.symm
    · exact (hparts part hpart).first hmet
  · rintro (heq | ⟨part, hpart, hmet⟩)
    · exact hcb heq.symm
    · exact (hparts part hpart).second hmet
  · intro c' hc'
    exact .inl (.inl (Container.value_injective hc').symm)
  · rintro c' deeper (rfl | ⟨part, hpart, hmet⟩) hdeeper
    · exact hwiden hdeeper (hparts deeper hdeeper).covers
    · exact hwiden hpart ((hparts part hpart).closed c' deeper hmet hdeeper)

/-- If nothing is open both times, neither object is inside of the value. -/
theorem Secludes.not_within {met : Container → Prop} {v : Value}
    (hv : h.Secludes a b opened opened' met v) (hneither : ∀ c, ¬(c ∈ opened ∧ c ∈ opened')) :
    ¬h.Within v (.object a) ∧ ¬h.Within v (.object b) := by
  have hmet : ∀ {part}, h.Within v part → Covers met part := by
    intro part hpart c hc
    induction hpart generalizing c with
    | refl => exact (hv.covers c hc).resolve_right (hneither c)
    | tail _ hholds ih =>
      obtain ⟨holder, -, rfl⟩ := hholds.exists_container
      exact (hv.closed holder _ (ih holder rfl) hholds c hc).resolve_right (hneither c)
  exact ⟨fun hin => hv.first (hmet hin (.object a) rfl),
    fun hin => hv.second (hmet hin (.object b) rfl)⟩

/-- What a value shows where one of two objects is open, and where the other is. Either the texts
diverge, or they are the same and the two objects are not met. -/
theorem diverge_or_secludes (hopened : Exchanges a b opened opened') (v : Value) :
    Text.Diverge (h.displayFrom opened true v) (h.displayFrom opened' true v) ∨
      h.displayFrom opened true v = h.displayFrom opened' true v ∧
        ∃ met, h.Secludes a b opened opened' met v := by
  induction hn : unopened h.containers opened using Nat.strong_induction_on
    generalizing opened opened' v with
  | _ n ih =>
    rcases eq_value_or_ownText? v true with ⟨c, rfl⟩ | ⟨text, htext⟩
    case inr =>
      rw [displayFrom_of_ownText? htext, displayFrom_of_ownText? htext]
      refine .inr ⟨rfl, _, secludes_of_covers fun c hc => ?_⟩
      rw [hc, ownText?_value] at htext
      cases htext
    -- Each of the two objects is hinted at where it is open, and shown where the other is.
    by_cases hca : c = .object a
    · subst hca
      rw [displayFrom_of_mem hopened.first.1, displayFrom_value hopened.first.2]
      exact .inl (diverge_hintText _ a)
    by_cases hcb : c = .object b
    · subst hcb
      rw [displayFrom_of_mem hopened.second.2, displayFrom_value hopened.second.1]
      exact .inl (diverge_hintText _ b).symm
    by_cases hopen : c ∈ opened
    · have hopen' : c ∈ opened' := (hopened.others c hca hcb).mp hopen
      rw [displayFrom_of_mem hopen, displayFrom_of_mem hopen']
      refine .inr ⟨rfl, _, secludes_of_covers fun c' hc' => ?_⟩
      obtain rfl := Container.value_injective hc'
      exact ⟨hopen, hopen'⟩
    have hopen' : c ∉ opened' := (hopened.others c hca hcb).not.mp hopen
    have hparts := fun part (hpart : h.Holds c.value part) =>
      ih _ (hn ▸ hpart.unopened_lt hopen) (hopened.cons hca hcb) part rfl
    rw [displayFrom_value hopen, displayFrom_value hopen']
    by_cases hsome : ∃ part, h.Holds c.value part ∧
        h.displayFrom (c :: opened) true part ≠ h.displayFrom (c :: opened') true part
    · refine .inl (diverge_textOf (fun part hpart => ?_) hsome)
      exact (hparts part hpart).symm.imp_left And.left
    have hsame : ∀ part, h.Holds c.value part →
        h.displayFrom (c :: opened) true part = h.displayFrom (c :: opened') true part :=
      fun part hpart => not_not.mp fun hne => hsome ⟨part, hpart, hne⟩
    have hmet := fun part (hpart : h.Holds c.value part) =>
      ((hparts part hpart).resolve_left fun hdiverge => hdiverge.ne (hsame part hpart)).2
    choose! met hmet using hmet
    exact .inr ⟨textOf_congr hsame, _, secludes_value hca hcb hmet⟩

/-- Only the open containers that are inside of a value show in its text. -/
theorem displayFrom_congr {v : Value}
    (hopened : ∀ c, h.Within v c.value → (c ∈ opened ↔ c ∈ opened')) (nested : Bool) :
    h.displayFrom opened nested v = h.displayFrom opened' nested v := by
  induction hn : unopened h.containers opened using Nat.strong_induction_on
    generalizing opened opened' v nested with
  | _ n ih =>
    rcases eq_value_or_ownText? v nested with ⟨c, rfl⟩ | ⟨text, htext⟩
    case inr => rw [displayFrom_of_ownText? htext, displayFrom_of_ownText? htext]
    by_cases hopen : c ∈ opened
    · rw [displayFrom_of_mem hopen, displayFrom_of_mem ((hopened c .refl).mp hopen)]
    · rw [displayFrom_value hopen, displayFrom_value ((hopened c .refl).not.mp hopen)]
      refine textOf_congr fun part hpart => ?_
      refine ih _ (hn ▸ hpart.unopened_lt hopen) (fun c' hc' => ?_) true rfl
      rw [List.mem_cons, List.mem_cons, hopened c' (.head hpart hc')]

/-- Two objects with the same properties have the same text exactly if they are one, or neither is
inside of the properties. -/
theorem display_object_eq_iff (hsame : h.properties a = h.properties b) :
    h.display (.object a) = h.display (.object b) ↔ a = b ∨
      ∀ part, h.Holds (.object a) part →
        ¬h.Within part (.object a) ∧ ¬h.Within part (.object b) := by
  by_cases hab : a = b
  · simp [hab]
  have hdisplay : ∀ id, h.display (.object id) =
      h.textOf (h.displayFrom [.object id] true) (.object id) := by
    intro id
    rw [display_eq_displayFrom]
    exact displayFrom_value (c := .object id) List.not_mem_nil false
  have htext : h.textOf (h.displayFrom [.object b] true) (.object b) =
      h.textOf (h.displayFrom [.object b] true) (.object a) := by
    simp only [textOf, hsame]
  have hopened : Exchanges a b [.object a] [.object b] := by
    constructor <;> simp_all [Ne.symm hab]
  have hneither : ∀ c : Container, ¬(c ∈ [.object a] ∧ c ∈ [.object b]) := by
    rintro c ⟨hca, hcb⟩
    rw [List.mem_singleton] at hca hcb
    exact hab (Container.object.inj (hca.symm.trans hcb))
  -- Both texts are now made from the same parts, shown while a different object is open.
  rw [hdisplay, hdisplay, htext, or_iff_right hab]
  constructor
  · intro heq part hpart
    rcases diverge_or_secludes hopened part with hdiverge | ⟨-, met, hmet⟩
    · have hparts := fun other (_ : h.Holds (.object a) other) =>
        (diverge_or_secludes (h := h) hopened other).symm.imp_left And.left
      exact absurd heq (diverge_textOf (c := .object a) hparts ⟨part, hpart, hdiverge.ne⟩).ne
    · exact hmet.not_within hneither
  · intro hout
    refine textOf_congr (c := .object a) fun part hpart => displayFrom_congr (fun c hc => ?_) true
    have hca : c ≠ .object a := by
      rintro rfl
      exact (hout part hpart).1 hc
    have hcb : c ≠ .object b := by
      rintro rfl
      exact (hout part hpart).2 hc
    simp [hca, hcb]

end Heap
end Script
