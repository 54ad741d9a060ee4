import Script.Proofs.Token.Lexeme

namespace Script

namespace Stretch

def isComment : Stretch → Bool
  | lineComment _ | blockComment _ => true
  | _ => false

def isMute : Stretch → Bool
  | lineComment _ | blockComment _ | unknown _ => true
  | _ => false

theorem isMute_of_isComment {s : Stretch} (h : s.isComment = true) : s.isMute = true := by
  cases s with
  | lineComment | blockComment => rfl
  | _ => simp [isComment] at h

theorem tokens_of_isMute {s : Stretch} (h : s.isMute = true) (span : Span) :
    s.tokens span = [] := by
  cases s with
  | lineComment | blockComment | unknown => rfl
  | _ => simp [isMute] at h

/-- A comment starts with a slash, and no minus sign or line end is a character that cannot be
read. -/
theorem Reads.head?_of_isMute {before : List Token} {s : Stretch} {rest : List Char}
    (h : Reads before s rest) (hmute : s.isMute = true) :
    ∃ c cs, s.text = c :: cs ∧ c ≠ '-' ∧ c ≠ '\n' := by
  cases h with
  | lineComment | blockComment | openBlock => exact ⟨'/', _, rfl, by decide, by decide⟩
  | @unknown c _ hmark =>
    refine ⟨c, [], rfl, ?_, ?_⟩ <;>
    · rintro rfl
      revert hmark
      decide
  | _ => simp [isMute] at hmute

/-- A stretch that is not followed by a minus sign or a line end could as well be the last one. -/
theorem Reads.at_end {before : List Token} {s : Stretch} {c : Char} {rest : List Char}
    (h : Reads before s (c :: rest)) (hminus : c ≠ '-') (hline : c ≠ '\n') :
    Reads before s [] ∧ s.isOpen = false := by
  cases h with
  | blank hc => exact ⟨.blank hc, rfl⟩
  | lineComment _ hrest => exact absurd (hrest c rfl) hline
  | blockComment hclosed hbody => exact ⟨.blockComment hclosed hbody, by simp [isOpen, hclosed]⟩
  | number htext => exact ⟨.number htext (by simp [NumeralEnds]), rfl⟩
  | negative hbefore htext => exact ⟨.negative hbefore htext (by simp [NumeralEnds]), rfl⟩
  | quoted hquote hraw => exact ⟨.quoted hquote hraw, rfl⟩
  | word hne htext => exact ⟨.word hne htext (by simp), rfl⟩
  | arrow => exact ⟨.arrow, rfl⟩
  | compound hoperator hdoubled htarget => exact ⟨.compound hoperator hdoubled htarget, rfl⟩
  | negation hbefore => exact ⟨.negation hbefore (by simp), rfl⟩
  | operator hc _ hsign =>
    refine ⟨.operator hc (by simp) (fun hop => ⟨by simp, .inr ?_⟩) (by simp), rfl⟩
    exact (hsign hop).2.resolve_left fun hhead => hminus (Option.some.inj hhead)
  | single hc => exact ⟨.single hc, rfl⟩
  | pair hc => exact ⟨.pair hc, rfl⟩
  | alone hc => exact ⟨.alone hc (by simp), rfl⟩
  | unknown hmark hsingle hpair => exact ⟨.unknown hmark hsingle hpair, rfl⟩

def filled (gap : Stretch → Nat) (s : Stretch) : List Char :=
  if gap s = 0 then s.text else List.replicate (gap s) ' '

theorem filled_of_eq_zero {gap : Stretch → Nat} {s : Stretch} (h : gap s = 0) :
    s.filled gap = s.text :=
  if_pos h

theorem filled_of_ne_zero {gap : Stretch → Nat} {s : Stretch} (h : gap s ≠ 0) :
    s.filled gap = List.replicate (gap s) ' ' :=
  if_neg h

end Stretch

/-- A way to put spaces in place of stretches that stand for no token: how many spaces, what is seen
of the tokens afterwards, and where positions in the text come to stand. -/
structure Filling (α : Type) where
  gap : Stretch → Nat
  isMute : ∀ s, gap s ≠ 0 → s.isMute = true
  view : Token → α
  tellsKind : Token.TellsKind view
  meets : Nat → Nat → Prop
  meets_next : ∀ (s : Stretch) {start start' : Nat}, meets start start' →
    meets (start + Source.byteSize s.text) (start' + Source.byteSize (s.filled gap))
  map_view : ∀ (s : Stretch) {start start' : Nat}, meets start start' →
    (s.tokens ⟨start', start' + Source.byteSize s.text⟩).map view =
      (s.tokens ⟨start, start + Source.byteSize s.text⟩).map view

namespace Source

def filled (gap : Stretch → Nat) (segments : List Segment) : List Char :=
  segments.flatMap fun segment => segment.stretch.filled gap

theorem filled_cons (gap : Stretch → Nat) (segment : Segment) (segments : List Segment) :
    filled gap (segment :: segments) = segment.stretch.filled gap ++ filled gap segments := rfl

theorem byteSize_spaces (n : Nat) : byteSize (List.replicate n ' ') = n := by
  induction n with
  | zero => rfl
  | succ n ih =>
    have hspace : ' '.utf8Size = 1 := by decide
    simp only [byteSize, List.replicate_succ, List.foldr_cons, hspace] at ih ⊢
    omega

/-- Spaces are read one by one and stand for nothing. -/
theorem exists_scans_spaces (n : Nat) (rest : List Char) (before : List Token) (start : Nat) :
    ∃ segments, Scans rest before start segments ∧ textOf segments = List.replicate n ' ' ∧
      segments.flatMap Segment.tokens = [] ∧ straysOf segments = [] := by
  induction n generalizing start with
  | zero => exact ⟨[], trivial, rfl, rfl, rfl⟩
  | succ n ih =>
    let space : Segment := ⟨⟨start, start + byteSize [' ']⟩, .blank ' '⟩
    obtain ⟨segments, hscans, htext, htokens, hstrays⟩ := ih (start + byteSize [' '])
    refine ⟨space :: segments, ⟨rfl, .blank rfl, hscans⟩, ?_, ?_, ?_⟩
    · rw [textOf_cons, htext]
      rfl
    · rw [List.flatMap_cons, htokens]
      rfl
    · exact hstrays

variable {α : Type} (f : Filling α)

/-- In front of what is filled, a stretch is read as in front of what was there. -/
theorem Scans.reads_filled {before : List Token} {start : Nat} {segment : Segment}
    {segments : List Segment} (h : Scans [] before start (segment :: segments)) :
    segment.stretch.Reads before (filled f.gap segments) := by
  obtain ⟨-, hreads, hrest⟩ := h
  rw [List.append_nil] at hreads
  cases segments with
  | nil => exact hreads
  | cons next segments =>
    have hnext := hrest.2.1
    rw [textOf_cons] at hreads
    rw [filled_cons]
    by_cases hgap : f.gap next.stretch = 0
    · -- The next segment stays, and reading looks at its first character only.
      obtain ⟨c, cs, hc⟩ := List.exists_cons_of_ne_nil hnext.text_ne_nil
      refine hreads.congr_head ?_
      rw [Stretch.filled_of_eq_zero hgap, hc]
      rfl
    · obtain ⟨c, cs, hc, hminus, hline⟩ := hnext.head?_of_isMute (f.isMute _ hgap)
      rw [hc] at hreads
      obtain ⟨hend, hopen⟩ := hreads.at_end hminus hline
      obtain ⟨n, hn⟩ := Nat.exists_eq_succ_of_ne_zero hgap
      rw [Stretch.filled_of_ne_zero hgap, hn, List.replicate_succ]
      exact hend.before_blank hopen rfl _

/-- One stretch, or the spaces in its place, is read behind tokens that look the same. -/
theorem exists_scans_filled {before before' : List Token} {s : Stretch} {rest : List Char}
    {start start' : Nat} (h : s.Reads before rest)
    (hbefore : before.map f.view = before'.map f.view) (hmeets : f.meets start start') :
    ∃ first, Scans rest before' start' first ∧ textOf first = s.filled f.gap ∧
      (first.flatMap Segment.tokens).map f.view =
        (s.tokens ⟨start, start + byteSize s.text⟩).map f.view ∧
      straysOf first = if f.gap s = 0 then s.stray?.toList else [] := by
  by_cases hgap : f.gap s = 0
  · -- Only the places in a target may differ.
    obtain ⟨s', hreads, hresembles⟩ := h.of_view f.tellsKind hbefore
    refine ⟨[⟨⟨start', start' + byteSize s'.text⟩, s'⟩], ⟨rfl, hreads, trivial⟩, ?_, ?_, ?_⟩
    · rw [Stretch.filled_of_eq_zero hgap, ← hresembles.text_eq]
      exact List.append_nil _
    · rw [List.flatMap_singleton, Segment.tokens, hresembles.map_tokens, hresembles.text_eq]
      exact f.map_view s hmeets
    · rw [if_pos hgap, ← hresembles.stray?_eq]
      exact (straysOf_cons _ []).trans (List.append_nil _)
  · obtain ⟨first, hscans, htext, htokens, hstrays⟩ :=
      exists_scans_spaces (f.gap s) rest before' start'
    refine ⟨first, hscans, ?_, ?_, ?_⟩
    · rw [htext, Stretch.filled_of_ne_zero hgap]
    · rw [htokens, Stretch.tokens_of_isMute (f.isMute s hgap)]
    · rw [hstrays, if_neg hgap]

/-- Reading a filled text gives tokens that look the same, and the characters that cannot be read
are those that were left. -/
theorem Scans.exists_filled {before before' : List Token} {start start' : Nat}
    {segments : List Segment} (h : Scans [] before start segments)
    (hbefore : before.map f.view = before'.map f.view)
    (hmeets : f.meets start start') :
    ∃ segments', Scans [] before' start' segments' ∧
      textOf segments' = filled f.gap segments ∧
      (segments'.flatMap Segment.tokens).map f.view =
        (segments.flatMap Segment.tokens).map f.view ∧
      straysOf segments' = straysOf (segments.filter fun segment => f.gap segment.stretch = 0) := by
  induction segments generalizing before before' start start' with
  | nil => exact ⟨[], trivial, rfl, rfl, rfl⟩
  | cons segment segments ih =>
    obtain ⟨first, hfirst, htext, hview, hstrays⟩ :=
      exists_scans_filled f (h.reads_filled f) hbefore hmeets
    obtain ⟨hspan, -, hrest⟩ := h
    -- The rest is read behind tokens that look the same, so it is read alike.
    have hbehind : (segment.tokens.reverse ++ before).map f.view =
        (behind before' first).map f.view := by
      rw [behind, Segment.tokens, hspan, List.map_append, List.map_append, List.map_reverse,
        List.map_reverse, hview, hbefore]
    have hmeets' : f.meets segment.span.stop (start' + byteSize (textOf first)) := by
      rw [hspan, htext]
      exact f.meets_next segment.stretch hmeets
    obtain ⟨second, hsecond, htext', hview', hstrays'⟩ := ih hrest hbehind hmeets'
    refine ⟨first ++ second, scans_append.mpr ⟨?_, hsecond⟩, ?_, ?_, ?_⟩
    · rwa [htext', List.append_nil]
    · rw [textOf_append, htext, htext', filled_cons]
    · rw [List.flatMap_append, List.map_append, hview, hview', List.flatMap_cons, List.map_append,
        Segment.tokens, hspan]
    · rw [straysOf_append, hstrays, hstrays', List.filter_cons]
      by_cases hgap : f.gap segment.stretch = 0
      · simp [hgap, straysOf_cons]
      · simp [hgap]

end Source
end Script
