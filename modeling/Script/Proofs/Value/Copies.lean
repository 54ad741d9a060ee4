import Script.Globals
import Script.Proofs.Heap.Reach
import Script.Proofs.Value.Bisimilarity

namespace Script

namespace Table

variable {α : Type}

theorem insertEntry_last {key : String} (value : α) {entries : List (String × α)}
    (hlast : ∀ entry ∈ entries, entry.1 < key) :
    insertEntry key value entries = entries ++ [(key, value)] := by
  induction entries with
  | nil => rfl
  | cons first rest ih =>
    obtain ⟨k, v⟩ := first
    rw [List.forall_mem_cons] at hlast
    have hnot : ¬key < k := fun hlt => String.lt_irrefl key (String.lt_trans hlt hlast.1)
    have hne : key ≠ k := fun heq => String.lt_irrefl key (heq ▸ hlast.1)
    rw [insertEntry, if_neg hnot, if_neg hne, ih hlast.2]
    rfl

/-- Entries that are in order already stay as they are. -/
theorem entries_ofEntries {entries : List (String × α)}
    (hsorted : entries.Pairwise fun a b => a.1 < b.1) : (ofEntries entries).entries = entries := by
  have hfold : ∀ (rest : List (String × α)) (t : Table α),
      (t.entries ++ rest).Pairwise (fun a b => a.1 < b.1) →
        (rest.foldl (fun t entry => t.insert entry.1 entry.2) t).entries = t.entries ++ rest := by
    intro rest
    induction rest with
    | nil => exact fun t _ => (List.append_nil _).symm
    | cons entry rest ih =>
      intro t hsorted
      have hlast : ∀ earlier ∈ t.entries, earlier.1 < entry.1 := by
        intro earlier hearlier
        exact (List.pairwise_append.mp hsorted).2.2 earlier hearlier entry List.mem_cons_self
      have hinsert : (t.insert entry.1 entry.2).entries = t.entries ++ [entry] :=
        insertEntry_last entry.2 hlast
      rw [List.foldl_cons, ih, hinsert, List.append_assoc, List.singleton_append]
      rwa [hinsert, List.append_assoc, List.singleton_append]
  exact hfold entries empty hsorted

end Table

namespace Heap

structure Extends (h h' : Heap) : Prop where
  has : ∀ {place}, h.Has place → h'.Has place
  same : ∀ {place}, h.Has place → h.SameAt h' place

variable {h h' g g' : Heap}

namespace Extends

theorem refl (h : Heap) : h.Extends h :=
  ⟨id, fun _ => .refl h _⟩

theorem trans {first second third : Heap} (hfirst : first.Extends second)
    (hsecond : second.Extends third) : first.Extends third :=
  ⟨fun hp => hsecond.has (hfirst.has hp),
    fun hp => (hfirst.same hp).trans (hsecond.same (hfirst.has hp))⟩

/-- A further change at a place that was not there at first. -/
theorem change {place : Place} {targets : Place → Prop} (hext : h.Extends h')
    (hchange : h'.ChangesAt g place targets) (hnew : ¬h.Has place) : h.Extends g := by
  refine ⟨fun hp => hchange.has (hext.has hp), fun hp => (hext.same hp).trans (hchange.same ?_)⟩
  rintro rfl
  exact hnew hp

theorem newArray (h : Heap) (items : Array Value) : h.Extends (h.newArray items).2 :=
  (refl h).change (h.changesAt_newArray items) (Nat.lt_irrefl _)

theorem newObject (h : Heap) (properties : Table Value) : h.Extends (h.newObject properties).2 :=
  (refl h).change (h.changesAt_newObject properties) (Nat.lt_irrefl _)

/-- Names are bound in the new scope alone. -/
theorem newGlobals (h : Heap) : h.Extends h.newGlobals.2 := by
  have hnew : ¬h.Has (.scope ⟨h.scopes.size⟩) := Nat.lt_irrefl _
  have hbind : ∀ (constants : List (String × Value)) (h' : Heap), h.Extends h' →
      h.Extends (constants.foldl
        (fun h' entry => h'.bind ⟨h.scopes.size⟩ entry.1 entry.2 true) h') := by
    intro constants
    induction constants with
    | nil => exact fun _ hext => hext
    | cons constant constants ih =>
      exact fun h' hext => ih _ (hext.change (h'.changesAt_bind _ _ _ _) hnew)
  have hstamps : h.Extends h.newStamp.2.newStamp.2 :=
    ((refl h).change (h.changesAt_newStamp _) hnew).change (changesAt_newStamp _ _) hnew
  exact hbind _ _ (hstamps.change (changesAt_newScope _ []) hnew)

end Extends

/-- Two values of perhaps different heaps that are made up in the same way. Nothing is said of what
is shared in either. -/
inductive Copies (h g : Heap) : Value → Value → Prop
  | null : Copies h g .null .null
  | number {x y : Float} (hxy : (x == y) = true) : Copies h g (.number x) (.number y)
  | string (text : String) : Copies h g (.string text) (.string text)
  | boolean (b : Bool) : Copies h g (.boolean b) (.boolean b)
  | array {a b : ArrayId} (ha : h.Has (.array a)) (hb : g.Has (.array b))
      (hsize : (h.items a).size = (g.items b).size)
      (hitems : ∀ (i : Nat) x y, (h.items a)[i]? = some x → (g.items b)[i]? = some y →
        Copies h g x y) : Copies h g (.array a) (.array b)
  | object {a b : ObjectId} (ha : h.Has (.object a)) (hb : g.Has (.object b))
      (hkeys : (h.properties a).keys = (g.properties b).keys)
      (hvalues : ∀ key x y, (h.properties a).get? key = some x →
        (g.properties b).get? key = some y → Copies h g x y) : Copies h g (.object a) (.object b)

namespace Copies

variable {w v : Value}

theorem of_items {a b : ArrayId} (ha : h.Has (.array a)) (hb : g.Has (.array b))
    (hitems : List.Forall₂ (h.Copies g) (h.items a).toList (g.items b).toList) :
    h.Copies g (.array a) (.array b) := by
  rw [forall₂_toList_iff] at hitems
  exact .array ha hb hitems.1 hitems.2

theorem of_entries {a b : ObjectId} (ha : h.Has (.object a)) (hb : g.Has (.object b))
    (hentries : List.Forall₂ (fun copied entry => copied.1 = entry.1 ∧ h.Copies g copied.2 entry.2)
      (h.properties a).entries (g.properties b).entries) :
    h.Copies g (.object a) (.object b) := by
  have hkeys : (h.properties a).keys = (g.properties b).keys := by
    rw [← List.forall₂_eq_eq_eq, Table.keys, Table.keys, List.forall₂_map_left_iff,
      List.forall₂_map_right_iff]
    exact hentries.imp fun _ _ hboth => hboth.1
  refine .object ha hb hkeys ((Table.forall₂_values_iff hkeys).mp ?_)
  rw [Table.values, Table.values, List.forall₂_map_left_iff, List.forall₂_map_right_iff]
  exact hentries.imp fun _ _ hboth => hboth.2

theorem mono (hcopies : h.Copies g w v) (hh : h.Extends h') (hg : g.Extends g') :
    h'.Copies g' w v := by
  induction hcopies with
  | null => exact .null
  | number hxy => exact .number hxy
  | string text => exact .string text
  | boolean b => exact .boolean b
  | @array a b ha hb hsize _ ih =>
    have hitems : h'.items a = h.items a := hh.same ha
    have hitems' : g'.items b = g.items b := hg.same hb
    refine .array (hh.has ha) (hg.has hb) ?_ ?_
    · rw [hitems, hitems', hsize]
    · rw [hitems, hitems']
      exact ih
  | @object a b ha hb hkeys _ ih =>
    have hproperties : h'.properties a = h.properties a := hh.same ha
    have hproperties' : g'.properties b = g.properties b := hg.same hb
    refine .object (hh.has ha) (hg.has hb) ?_ ?_
    · rw [hproperties, hproperties', hkeys]
    · rw [hproperties, hproperties']
      exact ih

theorem isBisimulation (h : Heap) : h.IsBisimulation (h.Copies h) := by
  intro w v hcopies
  cases hcopies with
  | null => exact .null
  | number hxy => exact .number hxy
  | string text => exact .string
  | boolean b => exact .boolean
  | array _ _ hsize hitems => exact .array hsize hitems
  | object _ _ hkeys hvalues => exact .object ((Table.keys_eq_iff _ _).mp hkeys) hvalues

/-- A copy in the same heap is equal to what it was made from. -/
theorem equal_eq_true (hcopies : h.Copies h w v) : h.equal w v = true := by
  have hbisimilar : h.Bisimilar (fun _ _ => False) w v :=
    bisimilar_false_iff.mpr ⟨_, isBisimulation h, hcopies⟩
  rw [equal_eq_equalFrom, equalFrom_iff]
  exact .inl (hbisimilar.mono fun _ _ => False.elim)

end Copies
end Heap
end Script
