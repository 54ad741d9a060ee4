import Script.Proofs.Evaluation.WellFormed
import Script.Proofs.Heap.Slot

namespace Script

/-- The slot that a key names in a container. Only numbers name slots of arrays; a number names the
same slot of an object as its text does. -/
inductive Slot.Named : Value → Value → Slot → Prop
  | item (array : ArrayId) (x : Float) : Named (.array array) (.number x) (.item array x)
  | property (object : ObjectId) (name : String) :
    Named (.object object) (.string name) (.property object name)
  | numbered (object : ObjectId) (x : Float) :
    Named (.object object) (.number x) (.property object (Number.shown.format x))

namespace Slot.Named

variable {container key : Value} {slot : Slot}

theorem isContainer (h : Named container key slot) : container.isContainer = true := by
  cases h <;> rfl

theorem place?_eq (h : Named container key slot) : container.place? = some slot.place := by
  cases h <;> rfl

theorem eq_property {name : String} (h : Named container (.string name) slot) :
    ∃ object, slot = .property object name := by
  cases h
  exact ⟨_, rfl⟩

end Slot.Named

namespace Eval

theorem slot_eq_ok_iff {container key : Value} {place : Slot} {s t : State} :
    slot container key s = .ok place t ↔ Slot.Named container key place ∧ t = s := by
  constructor
  · intro h
    unfold slot at h
    split at h <;> cases h
    · exact ⟨.item _ _, rfl⟩
    · exact ⟨.property _ _, rfl⟩
    · exact ⟨.numbered _ _, rfl⟩
  · rintro ⟨hnamed, rfl⟩
    cases hnamed <;> rfl

/-- Once container and key are known, their slot is read or written. -/
theorem member_of_named {container key : Eval Value} {owner k : Value} {place : Slot}
    {s t u : State} (hcontainer : container s = .ok owner t) (hkey : key t = .ok k u)
    (hnamed : Slot.Named owner k place) (new? : Option Value) :
    member container key new? none s = place.access new? u := by
  rw [member_eq, bind_of_ok hcontainer, if_pos hnamed.isContainer, bind_of_ok hkey,
    bind_of_ok (slot_eq_ok_iff.mpr ⟨hnamed, rfl⟩)]

/-- A member that was read or written has a container, a key and a slot. -/
theorem member_eq_ok_iff {container key : Eval Value} {new? : Option Value} {value : Value}
    {s t : State} :
    member container key new? none s = .ok value t ↔
      ∃ owner k place s' u, container s = .ok owner s' ∧ key s' = .ok k u ∧
        Slot.Named owner k place ∧ place.access new? u = .ok value t := by
  constructor
  · intro h
    rw [member_eq, bind_eq_ok_iff] at h
    obtain ⟨owner, s', hcontainer, h⟩ := h
    split at h
    · obtain ⟨k, u, hkey, h⟩ := bind_eq_ok_iff.mp h
      obtain ⟨place, u', hplace, haccess⟩ := bind_eq_ok_iff.mp h
      obtain ⟨hnamed, rfl⟩ := slot_eq_ok_iff.mp hplace
      exact ⟨owner, k, place, s', u', hcontainer, hkey, hnamed, haccess⟩
    · cases h
  · rintro ⟨owner, k, place, s', u, hcontainer, hkey, hnamed, haccess⟩
    rw [member_of_named hcontainer hkey hnamed, haccess]

theorem member_pure {container key : Value} {place : Slot} (hnamed : Slot.Named container key place)
    (new? : Option Value) (s : State) :
    member (pure container) (pure key) new? none s = place.access new? s :=
  member_of_named rfl rfl hnamed new?

theorem access_none (place : Slot) (s : State) :
    place.access none s = .ok (place.read s.heap) s := rfl

/-- A slot is written if its heap lets it, and otherwise the error is passed on. -/
theorem access_some_cases (place : Slot) (value : Value) (s : State) :
    (∃ h, place.write value s.heap = .ok () h ∧
      place.access (some value) s = .ok value { s with heap := h }) ∨
    ∃ e h, place.write value s.heap = .error e h ∧
      place.access (some value) s = .error e { s with heap := h } := by
  cases hwrite : place.write value s.heap with
  | ok _ h =>
    have hon : onHeap (place.write value) s = .ok () { s with heap := h } := by rw [onHeap, hwrite]
    exact .inl ⟨h, rfl, bind_of_ok hon⟩
  | error e h =>
    have hon : onHeap (place.write value) s = .error e { s with heap := h } := by
      rw [onHeap, hwrite]
    exact .inr ⟨e, h, rfl, bind_of_error hon⟩

/-- After a write: the slot reads as what was written, whichever way one gets to the container, and
every other slot as before. An array has grown if the slot was right behind its items. No other
place has changed. -/
structure Written (container key value : Value) (place : Slot) (s t : State) : Prop where
  here : ∀ way index : Eval Value, way t = .ok container t → index t = .ok key t →
    member way index none none t = .ok value t
  elsewhere : ∀ other place', slot container other s = .ok place' s → ¬place'.Same place →
    ∃ found, member (pure container) (pure other) none none s = .ok found s ∧
      member (pure container) (pure other) none none t = .ok found t
  size : ∀ array x, container = .array array → key = .number x →
    (t.heap.items array).size =
      if Number.whole? x = some ((s.heap.items array).size : ℤ) then (s.heap.items array).size + 1
      else (s.heap.items array).size
  others : ∀ p, container.place? ≠ some p → s.heap.SameAt t.heap p
  rest : t = { s with heap := t.heap }

/-- After a write that failed: the number has no whole part or one outside the array, the error
tells the whole part and the size, nothing has changed, and there is nothing to read at that
number. -/
structure Refused (container key : Value) (e : RuntimeError) (s t : State) : Prop where
  index : ∃ array x, container = .array array ∧ key = .number x ∧
    (∀ i, Number.whole? x = some i → i < 0 ∨ (s.heap.items array).size < i) ∧
    e = .indexOutOfRange (Number.truncate x) (s.heap.items array).size ∧
    Number.IsTruncation x (Number.truncate x)
  unchanged : t = s
  null : member (pure container) (pure key) none none s = .ok .null s

theorem written_of_write {s : State} {container key value : Value} {place : Slot} {h : Heap}
    (hcontainer : s.heap.Carries container) (hnamed : Slot.Named container key place)
    (hwrite : place.write value s.heap = .ok () h) :
    Written container key value place s { s with heap := h } where
  here way index hway hindex := by
    rw [member_of_named hway hindex hnamed, access_none,
      Slot.read_write (hcontainer _ hnamed.place?_eq) hwrite]
  elsewhere other place' hother hsame := by
    have hnamed' := (slot_eq_ok_iff.mp hother).1
    refine ⟨place'.read s.heap, member_pure hnamed' none s, ?_⟩
    rw [member_pure hnamed', access_none,
      Slot.read_write_of_not_same (hcontainer _ hnamed.place?_eq) hwrite hsame]
  size array x harray hx := by
    subst harray hx
    cases hnamed
    exact Slot.size_write (hcontainer _ rfl) hwrite
  others p hp := Slot.sameAt_write hwrite fun heq => hp (heq ▸ hnamed.place?_eq)
  rest := rfl

theorem refused_of_write {s : State} {container key value : Value} {place : Slot}
    {e : RuntimeError} {h : Heap} (hnamed : Slot.Named container key place)
    (hwrite : place.write value s.heap = .error e h) :
    Refused container key e s { s with heap := h } := by
  cases Slot.writes hwrite with
  | @refused array x houtside =>
    refine ⟨?_, rfl, ?_⟩
    · cases hnamed
      exact ⟨array, x, rfl, rfl, houtside, rfl, Number.isTruncation_truncate x⟩
    · rw [member_pure hnamed, access_none, Slot.read_item_of_outside]
      intro i hi
      have hbeyond := houtside i hi
      omega

/-- Members obey the laws of a store. Every property of an object can be written. An item of an
array can be written at a number whose whole part is a place of the array or the one right behind
its items. -/
theorem member_store {s : State} {container key : Value} {place : Slot}
    (hcontainer : s.heap.Carries container) (hkey : slot container key s = .ok place s)
    (value : Value) :
    let write := member (pure container) (pure key) (some value) none s
    (∀ object, container = .object object → ∃ t, write = .ok value t) ∧
    (∀ array x, container = .array array → key = .number x →
      ((∃ t, write = .ok value t) ↔
        ∃ i, Number.whole? x = some i ∧ 0 ≤ i ∧ i ≤ (s.heap.items array).size)) ∧
    (∀ answer t, write = .ok answer t → answer = value ∧ Written container key value place s t) ∧
    (∀ e t, write = .error e t → Refused container key e s t) := by
  intro write
  have hnamed := (slot_eq_ok_iff.mp hkey).1
  have hwrite : write = place.access (some value) s := member_pure hnamed (some value) s
  rcases access_some_cases place value s with ⟨h, hstored, haccess⟩ | ⟨e, h, hfailed, haccess⟩
  · rw [hwrite, haccess]
    refine ⟨fun _ _ => ⟨_, rfl⟩, ?_, ?_, ?_⟩
    · rintro array x rfl rfl
      cases hnamed
      exact iff_of_true ⟨_, rfl⟩ (Slot.write_item_eq_ok_iff.mp ⟨h, hstored⟩)
    · intro answer t hanswer
      cases hanswer
      exact ⟨rfl, written_of_write hcontainer hnamed hstored⟩
    · intro e t herror
      cases herror
  · -- Only an array refuses a write, and only outside of its items.
    rw [hwrite, haccess]
    have hrefused := refused_of_write hnamed hfailed
    obtain ⟨array, x, rfl, rfl, houtside, -⟩ := hrefused.index
    refine ⟨?_, ?_, ?_, ?_⟩
    · intro object hobject
      cases hobject
    · rintro _ _ ⟨⟩ ⟨⟩
      refine iff_of_false (fun hok => ?_) fun hinside => ?_
      · obtain ⟨t, ht⟩ := hok
        cases ht
      · obtain ⟨i, hi, hlow, hhigh⟩ := hinside
        have hout := houtside i hi
        omega
    · intro answer t hanswer
      cases hanswer
    · intro e' t herror
      cases herror
      exact hrefused

/-- Minus a half names the first item. -/
theorem member_store_fraction :
    let s : State := ⟨{ Heap.empty with arrays := #[#[.null]] }, 0, .unbounded, .still 0⟩
    let container := Value.array ⟨0⟩
    let key := Value.number (-0.5)
    s.heap.Carries container ∧ slot container key s = .ok (.item ⟨0⟩ (-0.5)) s ∧
      ∃ t, member (pure container) (pure key) (some (.boolean true)) none s =
          .ok (.boolean true) t ∧
        Written container key (.boolean true) (.item ⟨0⟩ (-0.5)) s t := by
  intro s container key
  have hcontainer : s.heap.Carries container := by
    rintro _ ⟨⟩
    exact Nat.zero_lt_one
  have hkey : slot container key s = .ok (.item ⟨0⟩ (-0.5)) s := rfl
  obtain ⟨-, harray, hwritten, -⟩ := member_store hcontainer hkey (.boolean true)
  have hposition : Number.position? (-0.5) = some 0 := by decide +kernel
  obtain ⟨t, ht⟩ := (harray ⟨0⟩ (-0.5) rfl rfl).mpr
    ⟨0, (Number.position?_eq_some_iff _ 0).mp hposition, Int.le_refl 0, Int.natCast_nonneg 1⟩
  exact ⟨hcontainer, hkey, t, ht, (hwritten _ t ht).2⟩

end Eval
end Script
