import Script.Proofs.Evaluation.Writes
import Script.Proofs.Value.Likeness

namespace Script

/-- States with the journal of all that has been written into objects. A new state has none. Then
objects are made of entries, values are inserted, and tasks are done, any number of steps of them.
Besides, anything may happen that leaves the objects alone. -/
inductive State.Recorded : State → Journal → Prop
  | new (sink : Sink) (clock : Clock) : Recorded ⟨Heap.empty.newGlobals.2, 0, sink, clock⟩ []
  | make {s : State} {journal : Journal} (entries : List (String × Value)) :
    Recorded s journal → (∀ entry ∈ entries, s.heap.Carries entry.2) →
      Recorded { s with heap := (s.heap.newObject (.ofEntries entries)).2 }
        (journal ++ .into (s.heap.newObject (.ofEntries entries)).1 entries)
  | insert {s : State} {journal : Journal} (object : ObjectId) (key : String) (value : Value) :
    Recorded s journal → s.heap.Has (.object object) → s.heap.Carries value →
      Recorded { s with heap := s.heap.insert object key value }
        (journal ++ .into object [(key, value)])
  | steps {s : State} {journal : Journal} (limit n : Nat) (task : Task) :
    Recorded s journal → task.Fits s.heap →
      Recorded ((task.start s).run limit n).state (journal ++ (task.start s).journal limit n)
  | other {s t : State} {journal : Journal} :
    Recorded s journal → t.heap.objects = s.heap.objects → t.heap.WellFormed → Recorded t journal

namespace State.Recorded

variable {s s' : State} {journal journal' : Journal}

/-- The heap holds what the journal tells. -/
theorem sound (hs : s.Recorded journal) : s.heap.WellFormed ∧ journal.Tells s.heap := by
  induction hs with
  | new sink clock =>
    refine ⟨Heap.wellFormed_empty.newGlobals, by simp, fun object => ?_⟩
    rfl
  | make entries _ hentries ih =>
    obtain ⟨hw, htells⟩ := ih
    refine ⟨?_, htells.newObject entries⟩
    have hnew := (Region.confines_whole hw).newObject (.ofEntries entries)
      fun key v hget place hplace =>
        .inl (hentries _ (Table.mem_of_get?_ofEntries hget) place hplace)
    exact hnew.1.confines.wellFormed hw
  | @insert s _ object key value _ hobject hvalue ih =>
    obtain ⟨hw, htells⟩ := ih
    have hchange := s.heap.changesAt_insert object key value
    exact ⟨hw.change hchange (fun q hq => hchange.has (hvalue q hq)) hw.linked,
      htells.insert hobject key value⟩
  | steps limit n task _ hfits ih =>
    obtain ⟨hw, htells⟩ := ih
    have hinside := task.inside_start hw hfits
    exact ⟨(hinside.run limit n).confines.wellFormed hw, Machine.tells_run hinside htells limit n⟩
  | other _ hobjects hw ih => exact ⟨hw, ih.2.of_objects_eq hobjects⟩

/-- What is done to its end is recorded with all that its steps have written. -/
theorem exists_final (hs : s.Recorded journal) (limit : Nat) {task : Task}
    (hfits : task.Fits s.heap) :
    ∃ n, ((task.start s).run limit n).outcome? = some (task.eval limit s) ∧
      (Eval.final (task.eval limit) s).Recorded
        (journal ++ (task.start s).journal limit n) := by
  obtain ⟨n, hn⟩ := task.leads limit hs.sound.1 hfits
  have hfinal : Eval.final (task.eval limit) s = ((task.start s).run limit n).state := by
    rw [hn, Eval.final]
    cases task.eval limit s <;> rfl
  refine ⟨n, by rw [hn, Machine.outcome?_settle], ?_⟩
  rw [hfinal]
  exact hs.steps limit n task hfits

/-- An object holds under each key the last value that was written there. -/
theorem mem_entries_iff (hs : s.Recorded journal) (object : ObjectId) (key : String)
    (value : Value) : (key, value) ∈ (s.heap.properties object).entries ↔
      journal.last? object key = some value := by
  rw [Table.mem_entries_iff, hs.sound.2.get?_eq]

theorem holds_object_iff (hs : s.Recorded journal) (object : ObjectId) (value : Value) :
    s.heap.Holds (.object object) value ↔ ∃ key, journal.last? object key = some value := by
  simp only [← hs.mem_entries_iff, Heap.Holds, Heap.parts, Table.values, List.mem_map,
    Prod.exists, exists_eq_right]

/-- The last values decide what an object holds. -/
theorem properties_eq (hs : s.Recorded journal) (hs' : s'.Recorded journal') {a b : ObjectId}
    (hlast : ∀ key, journal.last? a key = journal'.last? b key) :
    s.heap.properties a = s'.heap.properties b := by
  apply Table.eq_of_get?
  intro key
  rw [hs.sound.2.get?_eq, hs'.sound.2.get?_eq, hlast]

/-- What is done to its end is recorded with all that its steps have written. The entries of an
object are in the order of the bytes of their keys, and they are the last values. So insertions that
end in the same values leave the same heap, and objects with the same last values have the same
entries, in one state or in two. Within one state they also have the same text, unless they are two
and one of them is inside of the values. The comparison of two objects compares what was last
written under equal keys. -/
theorem objects_canonical (hs : s.Recorded journal) :
    (∀ limit (task : Task), task.Fits s.heap →
      ∃ n, ((task.start s).run limit n).outcome? = some (task.eval limit s) ∧
        (Eval.final (task.eval limit) s).Recorded
          (journal ++ (task.start s).journal limit n)) ∧
    (∀ object,
      (s.heap.properties object).entries.Pairwise (fun x y => Text.bytes x.1 < Text.bytes y.1) ∧
      ∀ key value, (key, value) ∈ (s.heap.properties object).entries ↔
        journal.last? object key = some value) ∧
    (∀ object entries entries', (∀ key, Table.last? entries key = Table.last? entries' key) →
      Table.ofEntries entries = Table.ofEntries entries' ∧
      s.heap.insertAll object entries = s.heap.insertAll object entries') ∧
    (∀ s' journal' a b, State.Recorded s' journal' →
      (∀ key, journal.last? a key = journal'.last? b key) →
      (s.heap.properties a).entries = (s'.heap.properties b).entries ∧
      (s.heap.properties a).size = (s'.heap.properties b).size) ∧
    (∀ a b, (∀ key, journal.last? a key = journal.last? b key) →
      (s.heap.display (.object a) = s.heap.display (.object b) ↔ a = b ∨
        ∀ key value, journal.last? a key = some value →
          ¬s.heap.Within value (.object a) ∧ ¬s.heap.Within value (.object b))) ∧
    (∀ opened x y depth, s.heap.containerPairs.length < depth →
      (s.heap.compare depth x y).run opened = some (s.heap.equalFrom opened x y, opened)) ∧
    ∀ opened a b, s.heap.equalFrom opened (.object a) (.object b) = true ↔
      a = b ∨ (.object a, .object b) ∈ opened ∨ ∀ key, Option.Rel
        (fun x y => s.heap.equalFrom ((.object a, .object b) :: opened) x y = true)
        (journal.last? a key) (journal.last? b key) := by
  refine ⟨fun limit task hfits => hs.exists_final limit hfits,
    fun object => ⟨Table.sorted_bytes _, hs.mem_entries_iff object⟩, ?_, ?_, ?_,
    fun opened x y depth hdepth => Heap.restores_compare (unopened_lt hdepth) x y, ?_⟩
  · intro object entries entries' hlast
    refine ⟨Table.eq_of_get? fun key => ?_, s.heap.insertAll_congr object hlast⟩
    rw [Table.get?_ofEntries, Table.get?_ofEntries, hlast]
  · intro s' journal' a b hs' hlast
    rw [hs.properties_eq hs' hlast]
    exact ⟨rfl, rfl⟩
  · intro a b hlast
    rw [Heap.display_object_eq_iff (hs.properties_eq hs hlast)]
    simp only [hs.holds_object_iff, forall_exists_index]
    rw [forall_comm]
  · intro opened a b
    rw [Heap.equalFrom_object_iff_get?]
    simp only [hs.sound.2.get?_eq]

/-- An object made by a literal with a repeated key, and then a member of it written again. -/
theorem objects_canonical_rewritten :
    let s : State := ⟨Heap.empty.newGlobals.2, 0, .unbounded, .still 0⟩
    let literal := Expr.object [.given "b" (.string "old"), .given "a" (.string "x"),
      .given "b" (.string "new")]
    let member := Expr.member (.name "o") (.name "a") false
    let task := Task.program ⟨0⟩
      [.declare true "o" (some literal), .expr (.assign member (.string "y"))]
    let t := ((task.start s).run 1 40).state
    let journal := (task.start s).journal 1 40
    t.Recorded journal ∧
      (t.heap.properties ⟨0⟩).entries = [("a", .string "y"), ("b", .string "new")] ∧
      journal.last? ⟨0⟩ "a" = some (.string "y") ∧
      journal.last? ⟨0⟩ "b" = some (.string "new") := by
  intro s literal member task t journal
  have hrecorded : t.Recorded journal := (State.Recorded.new _ _).steps 1 40 task Nat.zero_lt_one
  have hentries : (t.heap.properties ⟨0⟩).entries =
      [("a", .string "y"), ("b", .string "new")] := rfl
  have hlast := (objects_canonical hrecorded).2.1 ⟨0⟩
  refine ⟨hrecorded, hentries, ?_, ?_⟩
  · exact (hlast.2 "a" _).mp (by rw [hentries]; exact List.mem_cons_self)
  · exact (hlast.2 "b" _).mp (by rw [hentries]; exact List.mem_cons_of_mem _ List.mem_cons_self)

/-- Both objects hold the first of them under the same key. -/
theorem objects_shown_apart :
    let s : State := ⟨Heap.empty.newGlobals.2, 0, .unbounded, .still 0⟩
    let made := ((s.heap.newObject (.ofEntries [])).2.newObject (.ofEntries [])).2
    let h := (made.insert ⟨0⟩ "me" (.object ⟨0⟩)).insert ⟨1⟩ "me" (.object ⟨0⟩)
    let journal : Journal := .into ⟨0⟩ [("me", .object ⟨0⟩)] ++ .into ⟨1⟩ [("me", .object ⟨0⟩)]
    State.Recorded { s with heap := h } journal ∧
      (∀ key, journal.last? ⟨0⟩ key = journal.last? ⟨1⟩ key) ∧
      h.display (.object ⟨0⟩) = "\x7b me: \x7b...\x7d \x7d" ∧
      h.display (.object ⟨1⟩) = "\x7b me: \x7b me: \x7b...\x7d \x7d \x7d" := by
  intro s made h journal
  have hmade : State.Recorded { s with heap := made } [] :=
    ((State.Recorded.new _ _).make [] nofun).make [] nofun
  have hfirst : made.Has (.object ⟨0⟩) := Nat.zero_lt_two
  have hsecond : made.Has (.object ⟨1⟩) := Nat.one_lt_two
  have hcarries : made.Carries (.object ⟨0⟩) := by
    rintro place ⟨⟩
    exact hfirst
  have hdisplay : ∀ {v text}, (h.render 3 false v).run [] = some (text, []) →
      h.display v = text := by
    intro v text htext
    have hdepth : unopened h.containers [] < 3 := by decide +kernel
    have hrender := Heap.restores_render hdepth false v
    rw [Restores, htext] at hrender
    rw [Heap.display_eq_displayFrom]
    exact (Prod.mk.inj (Option.some.inj hrender)).1.symm
  refine ⟨?_, fun key => rfl, hdisplay (by decide +kernel), hdisplay (by decide +kernel)⟩
  exact (hmade.insert ⟨0⟩ "me" _ hfirst hcarries).insert ⟨1⟩ "me" _ hsecond hcarries

end State.Recorded
end Script
