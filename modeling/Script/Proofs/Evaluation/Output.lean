import Script.Proofs.Evaluation.Coupling

namespace Script

namespace Sink

def limited (capacity : Nat) : Sink := ⟨.empty, some capacity, false⟩

def given (bytes : ByteArray) : Sink := ⟨bytes, none, false⟩

/-- A sink that takes `capacity` bytes, after it was given these: it keeps the first ones. -/
def cut (capacity : Nat) (bytes : ByteArray) : Sink :=
  ⟨bytes.extract 0 capacity, some capacity, false⟩

theorem cut_empty (capacity : Nat) : cut capacity .empty = limited capacity := by
  simp [cut, limited]

/-- What is given to a full sink is lost. -/
theorem cut_append {capacity : Nat} {bytes : ByteArray} (hfull : capacity ≤ bytes.size)
    (more : ByteArray) : cut capacity (bytes ++ more) = cut capacity bytes := by
  have hnone : capacity - bytes.size = 0 := Nat.sub_eq_zero_of_le hfull
  rw [cut, cut, ByteArray.extract_append, hnone]
  simp

theorem write_given (bytes : ByteArray) (text : String) :
    (given bytes).write text = (.ok (), given (bytes ++ text.toUTF8)) := rfl

theorem write_cut {capacity : Nat} {bytes : ByteArray} (hroom : bytes.size ≤ capacity)
    (text : String) :
    (cut capacity bytes).write text =
      (if (bytes ++ text.toUTF8).size ≤ capacity then .ok () else .error .full,
        cut capacity (bytes ++ text.toUTF8)) := by
  have hkept : (cut capacity bytes).written.size = bytes.size := by
    simp [cut, hroom]
  have hwritten : bytes.extract 0 capacity ++ text.toUTF8.extract 0 (capacity - bytes.size) =
      (bytes ++ text.toUTF8).extract 0 capacity := by
    rw [ByteArray.extract_append, Nat.zero_sub]
  have hfits : text.toUTF8.size ≤ capacity - bytes.size ↔
      (bytes ++ text.toUTF8).size ≤ capacity := by
    rw [ByteArray.size_append]
    omega
  simp only [write, hkept]
  simp only [cut, hfits, hwritten]

def lineBytes (line : String) : ByteArray :=
  line.toUTF8 ++ "\n".toUTF8

theorem writeLine_given (bytes : ByteArray) (line : String) :
    (given bytes).writeLine line = (.ok (), given (bytes ++ lineBytes line)) := by
  simp only [writeLine, write_given, lineBytes, ByteArray.append_assoc]
  rfl

/-- The line may be cut anywhere, also before its end: the sink keeps the first bytes of all it was
given, and fails if they are not all. -/
theorem writeLine_cut {capacity : Nat} {bytes : ByteArray} (hroom : bytes.size ≤ capacity)
    (line : String) :
    (cut capacity bytes).writeLine line =
      (if (bytes ++ lineBytes line).size ≤ capacity then .ok () else .error .full,
        cut capacity (bytes ++ lineBytes line)) := by
  have hsize : (bytes ++ lineBytes line).size = (bytes ++ line.toUTF8).size + "\n".toUTF8.size := by
    rw [lineBytes, ← ByteArray.append_assoc, ByteArray.size_append]
  have hlonger : ∀ more, bytes ++ (line.toUTF8 ++ more) = bytes ++ line.toUTF8 ++ more :=
    fun more => ByteArray.append_assoc.symm
  rw [writeLine, write_cut hroom]
  by_cases hline : (bytes ++ line.toUTF8).size ≤ capacity
  · rw [if_pos hline]
    dsimp only
    rw [write_cut hline, lineBytes, hlonger]
    by_cases hend : (bytes ++ line.toUTF8 ++ "\n".toUTF8).size ≤ capacity
    · rw [if_pos hend]
      rfl
    · rw [if_neg hend]
  · have hall : ¬(bytes ++ lineBytes line).size ≤ capacity := by omega
    rw [if_neg hline, if_neg hall, lineBytes, hlonger, cut_append (Nat.le_of_not_le hline)]

end Sink

namespace Eval

/-- One run prints into a sink that takes `capacity` bytes, the other into one that takes
everything. They do the same until the first sink is full. Then the first run has failed, and
whatever is printed later, its sink holds the first bytes of all. -/
def untilFull (capacity : Nat) : Comparison where
  alike s s' := ∃ bytes : ByteArray, bytes.size ≤ capacity ∧ s.sink = .cut capacity bytes ∧
    s' = { s with sink := .given bytes }
  parted e s s' := ∃ bytes : ByteArray, capacity < bytes.size ∧ e = .output .full ∧
    s.sink = .cut capacity bytes ∧ s'.sink = .given bytes

theorem printLine_given {s : State} {bytes : ByteArray} (h : s.sink = .given bytes)
    (line : String) :
    printLine line s = .ok () { s with sink := .given (bytes ++ Sink.lineBytes line) } := by
  obtain ⟨heap, depth, sink, clock⟩ := s
  subst h
  rw [printLine, Sink.writeLine_given]

theorem printLine_cut {s : State} {capacity : Nat} {bytes : ByteArray}
    (hroom : bytes.size ≤ capacity) (h : s.sink = .cut capacity bytes) (line : String) :
    printLine line s =
      if (bytes ++ Sink.lineBytes line).size ≤ capacity then
        .ok () { s with sink := .cut capacity (bytes ++ Sink.lineBytes line) }
      else
        .error (.output .full) { s with sink := .cut capacity (bytes ++ Sink.lineBytes line) } := by
  obtain ⟨heap, depth, sink, clock⟩ := s
  subst h
  rw [printLine, Sink.writeLine_cut hroom]
  by_cases hfits : (bytes ++ Sink.lineBytes line).size ≤ capacity
  · rw [if_pos hfits, if_pos hfits]
  · rw [if_neg hfits, if_neg hfits]

/-- What happens behind the cut does not change the first bytes. -/
theorem stable_parted_untilFull (capacity : Nat) (e : RuntimeError) (s : State) :
    Stable fun t u => (untilFull capacity).parted e s t → (untilFull capacity).parted e s u where
  refl _ h := h
  trans h h' := h' ∘ h
  newChild _ _ h := h
  newArray _ _ h := h
  newObject _ _ h := h
  newStamp _ h := h
  onDeclare _ _ _ _ t h := by rwa [final_onHeap]
  onAssign _ _ _ t h := by rwa [final_onHeap]
  onWrite _ _ t h := by rwa [final_onHeap]
  readClock _ h := h
  printLine line t h := by
    obtain ⟨bytes, hover, he, hcut, hgiven⟩ := h
    rw [final_of_ok (printLine_given hgiven line)]
    refine ⟨bytes ++ Sink.lineBytes line, ?_, he, ?_, rfl⟩
    · rw [ByteArray.size_append]
      omega
    · rw [hcut, Sink.cut_append (Nat.le_of_lt hover)]
  counted {call} hcall t h := by
    obtain ⟨bytes, hover, he, hcut, hgiven⟩ := hcall { t with depth := t.depth + 1 } h
    exact ⟨bytes, hover, he, hcut, (sink_counted call t).trans hgiven⟩

theorem lawful_untilFull (capacity : Nat) : (untilFull capacity).Lawful where
  heap := by
    rintro s _ ⟨bytes, -, -, rfl⟩
    rfl
  depth := by
    rintro s _ ⟨bytes, -, -, rfl⟩
    rfl
  clock := by
    rintro s _ ⟨bytes, -, -, rfl⟩
    rfl
  withHeap := by
    rintro s _ ⟨bytes, hroom, hcut, rfl⟩ h
    exact ⟨bytes, hroom, hcut, rfl⟩
  withDepth := by
    rintro s _ ⟨bytes, hroom, hcut, rfl⟩ d
    exact ⟨bytes, hroom, hcut, rfl⟩
  withClock := by
    rintro s _ ⟨bytes, hroom, hcut, rfl⟩ clock
    exact ⟨bytes, hroom, hcut, rfl⟩
  partedDepth h _ _ := h
  goesOn := stable_parted_untilFull capacity
  printLine := by
    rintro s _ line ⟨bytes, hroom, hcut, rfl⟩
    rw [printLine_cut hroom hcut, printLine_given rfl]
    by_cases hfits : (bytes ++ Sink.lineBytes line).size ≤ capacity
    · rw [if_pos hfits]
      exact .ok ⟨_, hfits, rfl, rfl⟩
    · rw [if_neg hfits]
      exact .passed ⟨_, Nat.lt_of_not_le hfits, rfl, rfl, rfl⟩

/-- A sink that takes `capacity` bytes cuts the output of a program and changes nothing else. If all
that the program prints fits in, the run ends as it does with a sink that takes everything, in the
same state with the same bytes written; if not, it ends because the sink is full, which holds the
first bytes of what would have been printed. -/
theorem program_limited (limit : Nat) (scope : ScopeId) (p : Program) (s : State)
    (capacity : Nat) :
    let whole := program limit scope p { s with sink := .unbounded }
    let last := final (program limit scope p) { s with sink := .unbounded }
    let printed := last.sink.written
    let run := program limit scope p { s with sink := .limited capacity }
    if printed.size ≤ capacity then
      run = endIn { last with sink := { last.sink with capacity? := some capacity } } whole
    else
      ∃ t, run = .error (.output .full) t ∧ t.sink.written = printed.extract 0 capacity := by
  intro whole last printed run
  have hends := ((lawful_untilFull capacity).program limit scope p).ends
    { s with sink := .limited capacity } { s with sink := .unbounded }
    ⟨.empty, Nat.zero_le _, (Sink.cut_empty capacity).symm, rfl⟩
  rcases hends.alike_or_parted with ⟨t, ⟨bytes, hroom, hcut, hlast⟩, hrun⟩ |
    ⟨e, t, ⟨bytes, hover, rfl, hcut, hgiven⟩, hrun⟩
  · have hprinted : printed = bytes := congrArg (fun u : State => u.sink.written) hlast
    -- All bytes fit in, so none are cut off.
    have hkept : bytes.extract 0 capacity = bytes :=
      Nat.max_eq_left hroom ▸ ByteArray.extract_zero_max_size
    have hstate : t = { last with sink := { last.sink with capacity? := some capacity } } := by
      rw [show last = { t with sink := .given bytes } from hlast]
      obtain ⟨heap, depth, sink, clock⟩ := t
      subst hcut
      rw [Sink.cut, hkept]
      rfl
    rw [if_pos (hprinted ▸ hroom), ← hstate]
    exact hrun
  · have hprinted : printed = bytes := congrArg Sink.written hgiven
    rw [if_neg (hprinted ▸ Nat.not_le_of_lt hover), hprinted]
    exact ⟨t, hrun, congrArg Sink.written hcut⟩

end Eval
end Script
