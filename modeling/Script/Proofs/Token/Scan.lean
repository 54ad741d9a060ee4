import Script.Proofs.Token.Reading

namespace Script.Source

theorem byteSize_cons (c : Char) (cs : List Char) :
    byteSize (c :: cs) = c.utf8Size + byteSize cs := rfl

theorem byteSize_append (xs ys : List Char) : byteSize (xs ++ ys) = byteSize xs + byteSize ys := by
  induction xs with
  | nil => simp [byteSize]
  | cons c xs ih =>
    simp only [byteSize, List.cons_append, List.foldr_cons] at ih ⊢
    omega

def textOf (segments : List Segment) : List Char :=
  segments.flatMap fun segment => segment.stretch.text

/-- The tokens before a place, last one first, once some segments have been read behind others. -/
def behind (before : List Token) (segments : List Segment) : List Token :=
  (segments.flatMap Segment.tokens).reverse ++ before

@[simp] theorem textOf_nil : textOf [] = [] := rfl

@[simp] theorem textOf_cons (segment : Segment) (segments : List Segment) :
    textOf (segment :: segments) = segment.stretch.text ++ textOf segments := rfl

@[simp] theorem textOf_append (xs ys : List Segment) :
    textOf (xs ++ ys) = textOf xs ++ textOf ys := by
  simp [textOf]

@[simp] theorem behind_nil (before : List Token) : behind before [] = before := rfl

theorem behind_cons (before : List Token) (segment : Segment) (segments : List Segment) :
    behind before (segment :: segments) = behind (segment.tokens.reverse ++ before) segments := by
  simp [behind]

/-- The segments follow each other from byte `start` on, each by the rules of reading, behind the
tokens `before` and in front of `rest`. -/
def Scans (rest : List Char) : List Token → Nat → List Segment → Prop
  | _, _, [] => True
  | before, start, segment :: segments =>
    segment.span = ⟨start, start + byteSize segment.stretch.text⟩ ∧
      segment.stretch.Reads before (textOf segments ++ rest) ∧
      Scans rest (segment.tokens.reverse ++ before) segment.span.stop segments

theorem segmentsFrom_of_reads {before : List Token} {stretch : Stretch} {rest : List Char}
    (h : stretch.Reads before rest) (start : Nat) :
    segmentsFrom before start (stretch.text ++ rest) =
      ⟨⟨start, start + byteSize stretch.text⟩, stretch⟩ ::
        segmentsFrom ((stretch.tokens ⟨start, start + byteSize stretch.text⟩).reverse ++ before)
          (start + byteSize stretch.text) rest := by
  obtain ⟨c, cs, htext, hread⟩ := h.read_eq
  have hrest : cs.drop (stretch.text.length - 1) = rest := by
    obtain ⟨d, ds, hd⟩ := List.exists_cons_of_ne_nil h.text_ne_nil
    rw [hd] at htext ⊢
    obtain ⟨-, rfl⟩ := List.cons.inj htext
    simp
  rw [htext, segmentsFrom]
  simp only [hread, hrest]

/-- Reading a text gives segments that follow the rules and make up the whole text. -/
theorem scans_segmentsFrom (before : List Token) (start : Nat) (cs : List Char) :
    Scans [] before start (segmentsFrom before start cs) ∧
      textOf (segmentsFrom before start cs) = cs := by
  induction hlength : cs.length using Nat.strong_induction_on generalizing before start cs with
  | _ n ih =>
    cases cs with
    | nil => simp [segmentsFrom, Scans]
    | cons c cs =>
      obtain ⟨rest, htext, hreads⟩ := Stretch.reads_read before c cs
      have hshort : rest.length < n := by
        have hne := List.length_pos_iff.mpr hreads.text_ne_nil
        have hsum := congrArg List.length htext
        rw [List.length_append] at hsum
        omega
      rw [← htext, segmentsFrom_of_reads hreads]
      obtain ⟨hscans, hrest⟩ := ih _ hshort
        ((Stretch.tokens (Stretch.read before c cs) ⟨start, start + byteSize
          (Stretch.read before c cs).text⟩).reverse ++ before)
        (start + byteSize (Stretch.read before c cs).text) rest rfl
      refine ⟨⟨rfl, ?_, hscans⟩, ?_⟩
      · rw [hrest, List.append_nil]
        exact hreads
      · rw [textOf_cons, hrest]

theorem Scans.segmentsFrom_eq {rest : List Char} {before : List Token} {start : Nat}
    {segments : List Segment} (h : Scans rest before start segments) :
    segmentsFrom before start (textOf segments ++ rest) =
      segments ++
        segmentsFrom (behind before segments) (start + byteSize (textOf segments)) rest := by
  induction segments generalizing before start with
  | nil => simp [byteSize]
  | cons segment segments ih =>
    obtain ⟨span, stretch⟩ := segment
    obtain ⟨hspan, hreads, hrest⟩ := h
    simp only at hspan hreads
    subst hspan
    have hnext := ih hrest
    rw [textOf_cons, List.append_assoc, segmentsFrom_of_reads hreads, behind_cons, byteSize_append,
      ← Nat.add_assoc]
    exact congrArg _ hnext

/-- Segments that make up a whole source are those that are read. -/
theorem Scans.segments_eq {segments : List Segment} (h : Scans [] [] 0 segments) :
    Source.segments (String.ofList (textOf segments)) = segments := by
  have heq := h.segmentsFrom_eq
  rw [List.append_nil, segmentsFrom, List.append_nil] at heq
  rw [Source.segments, String.toList_ofList, heq]

theorem scans_append {rest : List Char} {before : List Token} {start : Nat}
    {xs ys : List Segment} : Scans rest before start (xs ++ ys) ↔
      Scans (textOf ys ++ rest) before start xs ∧
        Scans rest (behind before xs) (start + byteSize (textOf xs)) ys := by
  induction xs generalizing before start with
  | nil => simp [Scans, byteSize]
  | cons segment xs ih =>
    simp only [List.cons_append, Scans, ih, textOf_append, List.append_assoc, behind_cons,
      textOf_cons, byteSize_append, and_assoc]
    constructor
    · intro ⟨hspan, hreads, hxs, hys⟩
      refine ⟨hspan, hreads, hxs, ?_⟩
      rwa [hspan, Nat.add_assoc] at hys
    · intro ⟨hspan, hreads, hxs, hys⟩
      refine ⟨hspan, hreads, hxs, ?_⟩
      rwa [hspan, Nat.add_assoc]

/-- What is put behind a text leaves its segments alone if it does so with the last of them. -/
theorem Scans.extend {rest : List Char} {before : List Token} {start : Nat}
    {segments : List Segment} (h : Scans [] before start segments)
    (hlast : ∀ last ∈ segments.getLast?, ∀ before,
      last.stretch.Reads before [] → last.stretch.Reads before rest) :
    Scans rest before start segments := by
  induction segments generalizing before start with
  | nil => trivial
  | cons segment segments ih =>
    obtain ⟨hspan, hreads, hrest⟩ := h
    cases segments with
    | nil => exact ⟨hspan, hlast segment rfl _ hreads, trivial⟩
    | cons next segments =>
      have hrest' := ih hrest fun last hmem => hlast last (by simpa using hmem)
      -- There is a segment behind this one, and reading looks at one character only.
      refine ⟨hspan, hreads.congr_head ?_, hrest'⟩
      have hne : textOf (next :: segments) ≠ [] := by
        have := hrest.2.1.text_ne_nil
        simp [this]
      obtain ⟨c, cs, hc⟩ := List.exists_cons_of_ne_nil hne
      rw [hc]
      rfl

end Script.Source
