import Script.Proofs.Heap.Reach
import Script.Proofs.Number.Truncation

namespace Script

namespace Heap

variable {h : Heap}

theorem items_store {id : ArrayId} (hid : h.Has (.array id)) (position : Nat) (value : Value) :
    (h.store id position value).items id =
      if position = (h.items id).size then (h.items id).push value
      else (h.items id).setIfInBounds position value := by
  have hlt : id.index < h.arrays.size := hid
  simp [store, items, Array.getElem_modify, hlt]

theorem getElem?_items_store {id : ArrayId} (hid : h.Has (.array id)) {position : Nat}
    (hroom : position ≤ (h.items id).size) (value : Value) (i : Nat) :
    ((h.store id position value).items id)[i]? =
      if i = position then some value else (h.items id)[i]? := by
  rw [items_store hid]
  by_cases hend : position = (h.items id).size
  · rw [if_pos hend, Array.getElem?_push, hend]
  · have hlt : position < (h.items id).size := by omega
    rw [if_neg hend, Array.getElem?_setIfInBounds]
    by_cases hi : i = position
    · rw [if_pos hi.symm, if_pos hi, if_pos hlt]
    · rw [if_neg (Ne.symm hi), if_neg hi]

theorem size_items_store {id : ArrayId} (hid : h.Has (.array id)) (position : Nat) (value : Value) :
    ((h.store id position value).items id).size =
      if position = (h.items id).size then (h.items id).size + 1 else (h.items id).size := by
  rw [items_store hid]
  split
  · exact Array.size_push _
  · exact Array.size_setIfInBounds

theorem properties_insert {id : ObjectId} (hid : h.Has (.object id)) (key : String)
    (value : Value) :
    (h.insert id key value).properties id = (h.properties id).insert key value := by
  have hlt : id.index < h.objects.size := hid
  simp [insert, properties, Array.getElem_modify, hlt]

end Heap

namespace Slot

def place : Slot → Place
  | item array _ => .array array
  | property object _ => .object object

/-- Two slots are the same when they belong to one container and have indices with the same whole
part, or the same key. -/
def Same : Slot → Slot → Prop
  | item array x, item array' x' => array = array' ∧ Number.whole? x = Number.whole? x'
  | property object key, property object' key' => object = object' ∧ key = key'
  | _, _ => False

inductive Writes (h : Heap) (value : Value) :
    Slot → EStateM.Result RuntimeError Heap Unit → Prop
  | stored {array : ArrayId} {x : Float} {position : Nat} :
    Number.whole? x = some (position : ℤ) → position ≤ (h.items array).size →
      Writes h value (item array x) (.ok () (h.store array position value))
  | refused {array : ArrayId} {x : Float} :
    (∀ i, Number.whole? x = some i → i < 0 ∨ (h.items array).size < i) →
      Writes h value (item array x)
        (.error (.indexOutOfRange (Number.truncate x) (h.items array).size) h)
  | inserted {object : ObjectId} {key : String} :
    Writes h value (property object key) (.ok () (h.insert object key value))

theorem writes {slot : Slot} {value : Value} {h : Heap}
    {result : EStateM.Result RuntimeError Heap Unit} (hwrite : slot.write value h = result) :
    Writes h value slot result := by
  subst hwrite
  cases slot with
  | property object key => exact .inserted
  | item array x =>
    unfold write
    cases hroom : (Number.position? x).filter fun position => h.hasRoom array position with
    | some position =>
      simp only [hroom]
      obtain ⟨hposition, hle⟩ := Option.filter_eq_some_iff.mp hroom
      exact .stored ((Number.position?_eq_some_iff x position).mp hposition) (of_decide_eq_true hle)
    | none =>
      simp only [hroom]
      refine .refused fun i hi => ?_
      by_contra hinside
      obtain ⟨position, rfl⟩ : ∃ position : Nat, i = position := ⟨i.toNat, by omega⟩
      have hposition := (Number.position?_eq_some_iff x position).mpr hi
      rw [Option.filter_eq_none_iff] at hroom
      exact hroom position hposition (decide_eq_true (by omega))

theorem read_item_of_whole {x : Float} {position : Nat} (hx : Number.whole? x = some (position : ℤ))
    (array : ArrayId) (h : Heap) :
    (item array x).read h = (h.items array)[position]?.getD .null := by
  rw [read, (Number.position?_eq_some_iff x position).mpr hx, Option.bind_some]

/-- Outside of an array there is nothing to read. -/
theorem read_item_of_outside {x : Float} {array : ArrayId} {h : Heap}
    (hx : ∀ i, Number.whole? x = some i → i < 0 ∨ (h.items array).size ≤ i) :
    (item array x).read h = .null := by
  cases hposition : Number.position? x with
  | none => rw [read, hposition, Option.bind_none, Option.getD_none]
  | some position =>
    have hwhole := (Number.position?_eq_some_iff x position).mp hposition
    have hbehind : (h.items array).size ≤ position := by
      have houtside := hx position hwhole
      omega
    rw [read_item_of_whole hwhole, Array.getElem?_eq_none hbehind, Option.getD_none]

/-- An item can be written where the array has one, or right behind the last. -/
theorem write_item_eq_ok_iff {array : ArrayId} {x : Float} {value : Value} {h : Heap} :
    (∃ h', (item array x).write value h = .ok () h') ↔
      ∃ i, Number.whole? x = some i ∧ 0 ≤ i ∧ i ≤ (h.items array).size := by
  generalize hresult : (item array x).write value h = result
  cases writes hresult with
  | @stored _ _ position hwhole hroom =>
    exact ⟨fun _ => ⟨position, hwhole, by omega, by omega⟩, fun _ => ⟨_, rfl⟩⟩
  | refused houtside =>
    constructor
    · rintro ⟨h', hok⟩
      cases hok
    · rintro ⟨i, hi, hlow, hhigh⟩
      have hout := houtside i hi
      omega

section Writing

variable {slot : Slot} {value : Value} {h h' : Heap}

theorem read_write (hhas : h.Has slot.place) (hwrite : slot.write value h = .ok () h') :
    slot.read h' = value := by
  cases writes hwrite with
  | stored hwhole hroom =>
    rw [read_item_of_whole hwhole, Heap.getElem?_items_store hhas hroom, if_pos rfl,
      Option.getD_some]
  | inserted =>
    rw [read, Heap.properties_insert hhas, Table.get?_insert_self, Option.getD_some]

theorem sameAt_write (hwrite : slot.write value h = .ok () h') {place : Place}
    (hplace : place ≠ slot.place) : h.SameAt h' place := by
  cases writes hwrite with
  | stored => exact (h.changesAt_store _ _ value).same hplace
  | inserted => exact (h.changesAt_insert _ _ value).same hplace

/-- A slot of a container that holds the same reads the same. -/
theorem read_of_sameAt (hsame : h.SameAt h' slot.place) : slot.read h' = slot.read h := by
  cases slot with
  | item array x => rw [read, read, show h'.items array = h.items array from hsame]
  | property object key =>
    rw [read, read, show h'.properties object = h.properties object from hsame]

theorem read_write_of_not_same (hhas : h.Has slot.place) (hwrite : slot.write value h = .ok () h')
    {other : Slot} (hother : ¬other.Same slot) : other.read h' = other.read h := by
  by_cases hplace : other.place = slot.place
  · -- In one container, slots differ by their whole parts or by their keys.
    cases writes hwrite with
    | @stored array x position hwhole hroom =>
      cases other with
      | property object key => cases hplace
      | item array' y =>
        cases hplace
        have hne : Number.whole? y ≠ some (position : ℤ) :=
          fun heq => hother ⟨rfl, heq.trans hwhole.symm⟩
        cases hposition : Number.position? y with
        | none => rw [read, read, hposition, Option.bind_none, Option.bind_none]
        | some place =>
          have hwhole' := (Number.position?_eq_some_iff y place).mp hposition
          have hplace : place ≠ position := by
            rintro rfl
            exact hne hwhole'
          rw [read_item_of_whole hwhole', read_item_of_whole hwhole',
            Heap.getElem?_items_store hhas hroom, if_neg hplace]
    | @inserted object key =>
      cases other with
      | item array x => cases hplace
      | property object' key' =>
        cases hplace
        have hkey : key' ≠ key := fun heq => hother ⟨rfl, heq⟩
        rw [read, read, Heap.properties_insert hhas, Table.get?_insert_of_ne _ hkey]
  · exact read_of_sameAt (sameAt_write hwrite hplace)

theorem size_write {array : ArrayId} {x : Float} (hhas : h.Has (.array array))
    (hwrite : (item array x).write value h = .ok () h') :
    (h'.items array).size =
      if Number.whole? x = some ((h.items array).size : ℤ) then (h.items array).size + 1
      else (h.items array).size := by
  cases writes hwrite with
  | @stored _ _ position hwhole hroom =>
    rw [Heap.size_items_store hhas, hwhole]
    simp

end Writing
end Slot
end Script
