import Mathlib.Data.Option.Basic
import Script.Proofs.Heap.Slot
import Script.Proofs.Text.ByteOrder
import Script.Proofs.Value.Bisimilarity

namespace Script

namespace Table

variable {α : Type}

def last? (entries : List (String × α)) (key : String) : Option α :=
  (entries.filter fun entry => entry.1 = key).getLast?.map Prod.snd

theorem last?_concat (entries : List (String × α)) (entry : String × α) (key : String) :
    last? (entries ++ [entry]) key = if entry.1 = key then some entry.2 else last? entries key := by
  by_cases hkey : entry.1 = key <;> simp [last?, hkey]

theorem ofEntries_append (first second : List (String × α)) :
    ofEntries (first ++ second) =
      second.foldl (fun t entry => t.insert entry.1 entry.2) (ofEntries first) :=
  List.foldl_append

theorem get?_insert (t : Table α) (key : String) (value : α) (other : String) :
    (t.insert key value).get? other = if key = other then some value else t.get? other := by
  split
  case isTrue hkey => rw [← hkey, get?_insert_self]
  case isFalse hkey => exact get?_insert_of_ne t (Ne.symm hkey) value

/-- Of all entries that are put in, the last one with the key is found. -/
theorem get?_foldl_insert (entries : List (String × α)) (t : Table α) (key : String) :
    (entries.foldl (fun t entry => t.insert entry.1 entry.2) t).get? key =
      (last? entries key).or (t.get? key) := by
  induction entries using List.reverseRecOn with
  | nil => rfl
  | append_singleton entries entry ih =>
    rw [List.foldl_append, List.foldl_cons, List.foldl_nil, get?_insert, ih, last?_concat]
    split <;> rfl

theorem get?_ofEntries (entries : List (String × α)) (key : String) :
    (ofEntries entries).get? key = last? entries key := by
  rw [ofEntries, get?_foldl_insert, get?_empty, Option.or_none]

/-- A table is determined by what is found in it. -/
theorem eq_of_get? {s t : Table α} (h : ∀ key, s.get? key = t.get? key) : s = t := by
  have hkeys : s.keys = t.keys := by
    refine (keys_eq_iff s t).mpr fun key => ?_
    rw [contains, contains, h]
  have hvalues : s.values = t.values := by
    rw [← List.forall₂_eq_eq_eq, forall₂_values_iff hkeys]
    intro key x y hx hy
    rw [h, hy] at hx
    exact (Option.some.inj hx).symm
  have hentries : s.entries = t.entries := by
    have hs : s.entries = s.keys.zip s.values := List.zip_of_prod rfl rfl
    rw [hs, hkeys, hvalues]
    exact (List.zip_of_prod rfl rfl).symm
  obtain ⟨xs, hxs⟩ := s
  obtain ⟨ys, hys⟩ := t
  cases hentries
  rfl

theorem sorted_bytes (t : Table α) :
    t.entries.Pairwise fun a b => Text.bytes a.1 < Text.bytes b.1 :=
  t.sorted.imp Text.lt_iff_bytes_lt.mp

end Table

namespace Heap

variable {h : Heap} {opened : List (Container × Container)}

theorem equalAll_iff_forall₂ {xs ys : List Value} :
    h.equalAll opened xs ys = true ↔
      List.Forall₂ (fun x y => h.equalFrom opened x y = true) xs ys := by
  induction xs generalizing ys with
  | nil => cases ys <;> simp [equalAll]
  | cons x xs ih =>
    cases ys with
    | nil => simp [equalAll]
    | cons y ys => rw [equalAll, Bool.and_eq_true, List.forall₂_cons, ih]

/-- Two objects, unless they are one or are being compared already, are compared by the values that
they have under each key. -/
theorem equalFrom_object_iff_get? (a b : ObjectId) :
    h.equalFrom opened (.object a) (.object b) = true ↔ a = b ∨ (.object a, .object b) ∈ opened ∨
      ∀ key, Option.Rel (fun x y => h.equalFrom ((.object a, .object b) :: opened) x y = true)
        ((h.properties a).get? key) ((h.properties b).get? key) := by
  by_cases hne : a = b
  · simp [equalFrom, hne]
  by_cases hopen : (.object a, .object b) ∈ opened
  · simp [equalFrom, hopen]
  rw [equalFrom_object_eq hne hopen, Bool.and_eq_true, beq_iff_eq, equalAll_iff_forall₂]
  simp only [hne, hopen, false_or]
  -- Keys in a fixed order and values in a row amount to the values under each key.
  constructor
  · rintro ⟨hkeys, hvalues⟩ key
    rw [Table.forall₂_values_iff hkeys] at hvalues
    have hcontains := (Table.keys_eq_iff _ _).mp hkeys key
    unfold Table.contains at hcontains
    cases hx : (h.properties a).get? key with
    | none =>
      rw [hx, Option.isSome_none, eq_comm, Option.isSome_eq_false_iff, Option.isNone_iff_eq_none]
        at hcontains
      rw [hcontains]
      exact .none
    | some x =>
      rw [hx, Option.isSome_some, eq_comm, Option.isSome_iff_exists] at hcontains
      obtain ⟨y, hy⟩ := hcontains
      rw [hy]
      exact .some (hvalues key x y hx hy)
  · intro hrel
    have hkeys : (h.properties a).keys = (h.properties b).keys := by
      refine (Table.keys_eq_iff _ _).mpr fun key => ?_
      have hkey := hrel key
      unfold Table.contains
      generalize (h.properties a).get? key = x, (h.properties b).get? key = y at hkey ⊢
      cases hkey <;> rfl
    refine ⟨hkeys, (Table.forall₂_values_iff hkeys).mpr fun key x y hx hy => ?_⟩
    have hkey := hrel key
    rw [hx, hy] at hkey
    cases hkey with
    | some hxy => exact hxy

theorem modify_id {α : Type} (xs : Array α) (i : Nat) : xs.modify i (fun x => x) = xs := by
  apply Array.ext_getElem?
  intro j
  rw [Array.getElem?_modify]
  split <;> simp

theorem modify_modify {α : Type} (xs : Array α) (i : Nat) (f g : α → α) :
    (xs.modify i f).modify i g = xs.modify i fun x => g (f x) := by
  apply Array.ext_getElem?
  intro j
  simp only [Array.getElem?_modify]
  split <;> simp [Function.comp_def]

def insertAll (h : Heap) (object : ObjectId) (entries : List (String × Value)) : Heap :=
  entries.foldl (fun h entry => h.insert object entry.1 entry.2) h

theorem insertAll_eq (h : Heap) (object : ObjectId) (entries : List (String × Value)) :
    h.insertAll object entries =
      ⟨h.scopes, h.arrays, h.objects.modify object.index fun table =>
        entries.foldl (fun t entry => t.insert entry.1 entry.2) table, h.stamps⟩ := by
  induction entries generalizing h with
  | nil => exact congrArg (Heap.mk _ _ · _) (modify_id _ _).symm
  | cons entry entries ih =>
    have hstep : h.insertAll object (entry :: entries) =
        (h.insert object entry.1 entry.2).insertAll object entries := rfl
    rw [hstep, ih]
    simp only [insert, modify_modify, List.foldl_cons]

/-- In whatever order and however often, entries with the same last values leave the same heap. -/
theorem insertAll_congr (h : Heap) (object : ObjectId) {entries entries' : List (String × Value)}
    (hlast : ∀ key, Table.last? entries key = Table.last? entries' key) :
    h.insertAll object entries = h.insertAll object entries' := by
  rw [insertAll_eq, insertAll_eq]
  congr 2
  funext table
  apply Table.eq_of_get?
  intro key
  rw [Table.get?_foldl_insert, Table.get?_foldl_insert, hlast]

end Heap

structure PropertyWrite where
  object : ObjectId
  key : String
  value : Value

/-- What has been written into objects, the earliest first. -/
abbrev Journal := List PropertyWrite

namespace Journal

def into (object : ObjectId) (entries : List (String × Value)) : Journal :=
  entries.map fun entry => ⟨object, entry.1, entry.2⟩

def entriesOf (journal : Journal) (object : ObjectId) : List (String × Value) :=
  (journal.filter fun write => write.object = object).map fun write => (write.key, write.value)

def last? (journal : Journal) (object : ObjectId) (key : String) : Option Value :=
  Table.last? (journal.entriesOf object) key

theorem entriesOf_append (first second : Journal) (object : ObjectId) :
    (first ++ second).entriesOf object = first.entriesOf object ++ second.entriesOf object := by
  simp [entriesOf]

theorem entriesOf_into (object : ObjectId) (entries : List (String × Value)) (other : ObjectId) :
    (into object entries).entriesOf other = if object = other then entries else [] := by
  by_cases hobject : object = other <;>
    simp [entriesOf, into, List.filter_map, Function.comp_def, hobject]

/-- Every object of the journal is in the heap, and each object of the heap holds what the journal
tells. -/
structure Tells (journal : Journal) (h : Heap) : Prop where
  has : ∀ write ∈ journal, h.Has (.object write.object)
  properties_eq : ∀ object, h.properties object = Table.ofEntries (journal.entriesOf object)

namespace Tells

variable {journal : Journal} {h : Heap}

theorem of_objects_eq {h' : Heap} (htells : journal.Tells h) (hobjects : h'.objects = h.objects) :
    journal.Tells h' := by
  refine ⟨fun write hwrite => ?_, fun object => ?_⟩
  · have hhas := htells.has write hwrite
    simpa only [Heap.Has, hobjects] using hhas
  · rw [← htells.properties_eq, Heap.properties, Heap.properties, hobjects]

/-- Nothing is written while the objects stay as they are. -/
theorem quiet {h' : Heap} (htells : journal.Tells h) (hobjects : h'.objects = h.objects) :
    (journal ++ []).Tells h' := by
  rw [List.append_nil]
  exact htells.of_objects_eq hobjects

theorem insert (htells : journal.Tells h) {object : ObjectId} (hhas : h.Has (.object object))
    (key : String) (value : Value) :
    (journal ++ into object [(key, value)]).Tells (h.insert object key value) := by
  have hchange := h.changesAt_insert object key value
  refine ⟨fun write hwrite => hchange.has ?_, fun other => ?_⟩
  · rcases List.mem_append.mp hwrite with hold | hnew
    · exact htells.has write hold
    · obtain rfl := List.mem_singleton.mp hnew
      exact hhas
  · rw [entriesOf_append, Table.ofEntries_append, ← htells.properties_eq, entriesOf_into]
    by_cases hobject : object = other
    · subst hobject
      rw [if_pos rfl, Heap.properties_insert hhas]
      rfl
    · rw [if_neg hobject]
      exact hchange.same (p := .object other) (by simpa using Ne.symm hobject)

/-- Nothing has been written into an object before it is made. -/
theorem entriesOf_new (htells : journal.Tells h) : journal.entriesOf ⟨h.objects.size⟩ = [] := by
  have hnone : journal.filter (fun write => write.object = ⟨h.objects.size⟩) = [] := by
    rw [List.filter_eq_nil_iff]
    intro write hwrite
    have hlt : write.object.index < h.objects.size := htells.has write hwrite
    simp only [decide_eq_true_eq]
    intro heq
    rw [heq] at hlt
    exact Nat.lt_irrefl _ hlt
  rw [entriesOf, hnone, List.map_nil]

theorem newObject (htells : journal.Tells h) (entries : List (String × Value)) :
    (journal ++ into ⟨h.objects.size⟩ entries).Tells (h.newObject (.ofEntries entries)).2 := by
  have hchange := h.changesAt_newObject (.ofEntries entries)
  refine ⟨fun write hwrite => ?_, fun other => ?_⟩
  · rcases List.mem_append.mp hwrite with hold | hnew
    · exact hchange.has (htells.has write hold)
    · obtain ⟨entry, -, rfl⟩ := List.mem_map.mp hnew
      simp [Heap.Has, Heap.newObject]
  · rw [entriesOf_append, entriesOf_into]
    by_cases hobject : (⟨h.objects.size⟩ : ObjectId) = other
    · subst hobject
      rw [if_pos rfl, htells.entriesOf_new, List.nil_append]
      simp [Heap.properties, Heap.newObject]
    · rw [if_neg hobject, List.append_nil, ← htells.properties_eq]
      exact hchange.same (p := .object other) (by simpa [Heap.newObject] using Ne.symm hobject)

theorem get?_eq (htells : journal.Tells h) (object : ObjectId) (key : String) :
    (h.properties object).get? key = journal.last? object key := by
  rw [htells.properties_eq, Table.get?_ofEntries, last?]

end Tells
end Journal
end Script
