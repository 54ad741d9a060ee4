import Script.Proofs.Token.Lexeme

namespace Script.Source

theorem map_view_behind {α : Type} (view : Token → α) (before : List Token)
    (segments : List Segment) : (behind before segments).map view =
      ((segments.flatMap Segment.tokens).map view).reverse ++ before.map view := by
  rw [behind, List.map_append, List.map_reverse]

theorem map_lexeme_behind (before : List Token) (segments : List Segment) :
    (behind before segments).map Token.lexeme =
      (lexemesOf segments).reverse ++ before.map Token.lexeme := by
  rw [map_view_behind, map_lexeme_flatMap_tokens]

/-- Behind tokens that look like `before`, and in front of `rest`, the text is read as tokens that
look like `told`. -/
def Tells {α : Type} (view : Token → α) (before : List α) (text : List Char) (told : List α)
    (rest : List Char) : Prop :=
  ∀ (tokens : List Token) (start : Nat), tokens.map view = before →
    ∃ segments, Scans rest tokens start segments ∧ textOf segments = text ∧
      (segments.flatMap Segment.tokens).map view = told ∧ straysOf segments = []

section Tells

variable {α : Type} {view : Token → α} {before : List α}

theorem Tells.nil {rest : List Char} : Tells view before [] [] rest :=
  fun _ _ _ => ⟨[], trivial, rfl, rfl, rfl⟩

/-- Two texts in a row tell what one says and then what the other says. -/
theorem Tells.append {xs ys rest : List Char} {told more : List α}
    (hx : Tells view before xs told (ys ++ rest))
    (hy : Tells view (told.reverse ++ before) ys more rest) :
    Tells view before (xs ++ ys) (told ++ more) rest := by
  intro tokens start hbefore
  obtain ⟨first, hfirst, htext, htold, hstrays⟩ := hx tokens start hbefore
  have hbehind : (behind tokens first).map view = told.reverse ++ before := by
    rw [map_view_behind, htold, hbefore]
  obtain ⟨second, hsecond, htext', htold', hstrays'⟩ :=
    hy (behind tokens first) (start + byteSize (textOf first)) hbehind
  refine ⟨first ++ second, scans_append.mpr ⟨?_, hsecond⟩, ?_, ?_, ?_⟩
  · rwa [htext']
  · rw [textOf_append, htext, htext']
  · rw [List.flatMap_append, List.map_append, htold, htold']
  · rw [straysOf_append, hstrays, hstrays']
    rfl

theorem tells_of_reads {told : List α} {rest : List Char} (stretch : Stretch)
    (h : ∀ tokens : List Token, tokens.map view = before → stretch.Reads tokens rest)
    (htold : ∀ span, (stretch.tokens span).map view = told) (hstray : stretch.stray? = none) :
    Tells view before stretch.text told rest := by
  intro tokens start hbefore
  refine ⟨[⟨⟨start, start + byteSize stretch.text⟩, stretch⟩], ⟨rfl, h tokens hbefore, trivial⟩,
    ?_, ?_, ?_⟩
  · simp [textOf]
  · rw [List.flatMap_singleton]
    exact htold _
  · simp [straysOf, hstray]

end Tells

/-- Behind tokens that say `before`, and in front of `rest`, the text is read as the lexemes. -/
def Spells (before : List Lexeme) (text : List Char) (lexemes : List Lexeme)
    (rest : List Char) : Prop :=
  ∀ (tokens : List Token) (start : Nat), tokens.map Token.lexeme = before →
    ∃ segments, Scans rest tokens start segments ∧ textOf segments = text ∧
      lexemesOf segments = lexemes ∧ straysOf segments = []

theorem spells_iff_tells {before : List Lexeme} {text : List Char} {ls : List Lexeme}
    {rest : List Char} :
    Spells before text ls rest ↔ Tells Token.lexeme before text ls rest := by
  simp only [Spells, Tells, map_lexeme_flatMap_tokens]

theorem Spells.nil {before : List Lexeme} {rest : List Char} : Spells before [] [] rest :=
  spells_iff_tells.mpr Tells.nil

theorem spells_of_reads {before : List Lexeme} {rest : List Char} (stretch : Stretch)
    (h : ∀ tokens : List Token, tokens.map Token.lexeme = before → stretch.Reads tokens rest)
    (hstray : stretch.stray? = none) : Spells before stretch.text stretch.lexemes rest :=
  spells_iff_tells.mpr (tells_of_reads stretch h stretch.map_lexeme_tokens hstray)

/-- Two texts in a row spell what one says and then what the other says. -/
theorem Spells.append {before : List Lexeme} {xs ys rest : List Char} {ls ms : List Lexeme}
    (hx : Spells before xs ls (ys ++ rest)) (hy : Spells (ls.reverse ++ before) ys ms rest) :
    Spells before (xs ++ ys) (ls ++ ms) rest :=
  spells_iff_tells.mpr ((spells_iff_tells.mp hx).append (spells_iff_tells.mp hy))

/-- A source that is spelled out is read as what it spells. -/
theorem Spells.lexemes_eq {text : List Char} {ls : List Lexeme} (h : Spells [] text ls []) :
    lexemes (String.ofList text) = .ok (ls ++ [⟨.endOfFile, "EndOfFile"⟩]) := by
  obtain ⟨segments, hscans, htext, hlexemes, hstrays⟩ := h [] 0 rfl
  have hsegments : Source.segments (String.ofList text) = segments := by
    rw [← htext, hscans.segments_eq]
  rw [Source.lexemes_eq, hsegments, hlexemes, hstrays, if_pos rfl]

/-- Two texts that spell the same leave what follows to be read alike. -/
theorem Spells.alike {before : List Token} {xs ys rest : List Char} {ls : List Lexeme}
    (hx : Spells (before.map Token.lexeme) xs ls rest)
    (hy : Spells (before.map Token.lexeme) ys ls rest) (start start' : Nat) :
    Alike (segmentsFrom before start (xs ++ rest)) (segmentsFrom before start' (ys ++ rest)) := by
  obtain ⟨first, hfirst, rfl, hlexemes, hstrays⟩ := hx before start rfl
  obtain ⟨second, hsecond, rfl, hlexemes', hstrays'⟩ := hy before start' rfl
  rw [hfirst.segmentsFrom_eq, hsecond.segmentsFrom_eq]
  refine Alike.append ⟨?_, ?_⟩ (segmentsFrom_alike ?_ _ _ _)
  · rw [hlexemes, hlexemes']
  · rw [hstrays, hstrays']
  · rw [map_lexeme_behind, map_lexeme_behind, hlexemes, hlexemes']

def closesOperand (before : List Lexeme) : Bool :=
  before.head?.any fun lexeme => lexeme.kind.endsOperand

theorem followsOperand_eq (tokens : List Token) :
    Stretch.followsOperand tokens = closesOperand (tokens.map Token.lexeme) := by
  cases tokens <;> rfl

variable {before : List Lexeme} {rest : List Char}

theorem spells_blank {c : Char} (hc : Stretch.isBlank c = true) : Spells before [c] [] rest :=
  spells_of_reads (.blank c) (fun _ _ => .blank hc) rfl

theorem spells_word {text : String} (hne : text.toList ≠ [])
    (hletters : ∀ c ∈ text.toList, Text.isAlphabetic c = true)
    (hrest : ∀ c ∈ rest.head?, Text.isAlphabetic c = false) :
    Spells before text.toList [⟨(Kind.keyword? text).getD .identifier, text⟩] rest := by
  have h : Spells before _ _ rest :=
    spells_of_reads (.word text.toList) (fun _ _ => .word hne hletters hrest) rfl
  simpa [Stretch.text, Stretch.lexemes, Stretch.tokens] using h

theorem spells_name {text : String} (h : IsName text)
    (hrest : ∀ c ∈ rest.head?, Text.isAlphabetic c = false) :
    Spells before text.toList [⟨.identifier, text⟩] rest := by
  have hword : Spells before _ _ rest := spells_word h.ne_nil h.letters hrest
  rwa [h.not_keyword] at hword

theorem spells_number {text : String} (h : IsNumber text.toList)
    (hminus : text.toList.head? = some '-' → closesOperand before = false)
    (hrest : ∀ c ∈ rest.head?, c.isDigit = false ∧ c ≠ '.') :
    Spells before text.toList [⟨.number, text⟩] rest := by
  have hends : ∀ digits, Stretch.NumeralEnds digits rest.head? :=
    fun _ c hc => ⟨(hrest c hc).1, fun hpoint => absurd hpoint (hrest c hc).2⟩
  have hreads : ∀ tokens : List Token, tokens.map Token.lexeme = before →
      (Stretch.number text.toList).Reads tokens rest := by
    intro tokens hbefore
    rcases h with hnumeral | ⟨digits, hdigits, hnumeral⟩
    · exact .number hnumeral (hends _)
    · rw [hdigits] at hminus ⊢
      refine .negative ?_ hnumeral (hends _)
      rw [followsOperand_eq, hbefore]
      exact hminus rfl
  have hspells := spells_of_reads (.number text.toList) hreads rfl
  simpa [Stretch.text, Stretch.lexemes, Stretch.tokens] using hspells

theorem spells_single {c : Char} {kind : Kind} (h : (c, kind) ∈ Stretch.singles) :
    Spells before [c] [⟨kind, String.singleton c⟩] rest := by
  have hspells : Spells before _ _ rest :=
    spells_of_reads (.symbol kind [c]) (fun _ _ => .single h) rfl
  simpa [Stretch.text, Stretch.lexemes, Stretch.tokens] using hspells

/-- In front of a blank or of the end, whatever is closed is read as at the end. -/
theorem spells_apart (stretch : Stretch)
    (h : ∀ tokens : List Token, tokens.map Token.lexeme = before → stretch.Reads tokens [])
    (hopen : stretch.isOpen = false) (hstray : stretch.stray? = none)
    (hrest : ∀ c ∈ rest.head?, Stretch.isBlank c = true) :
    Spells before stretch.text stretch.lexemes rest := by
  refine spells_of_reads stretch (fun tokens hbefore => ?_) hstray
  cases rest with
  | nil => exact h tokens hbefore
  | cons c rest => exact (h tokens hbefore).before_blank hopen (hrest c rfl) rest

theorem spells_operator {c : Char} (hc : c ∈ Stretch.updaters)
    (hminus : c = '-' → closesOperand before = true)
    (hrest : ∀ c ∈ rest.head?, Stretch.isBlank c = true) :
    Spells before [c] [⟨.operator, String.singleton c⟩] rest := by
  have hreads : ∀ tokens : List Token, tokens.map Token.lexeme = before →
      (Stretch.symbol .operator [c]).Reads tokens [] := by
    intro tokens hbefore
    refine .operator hc (by simp) ?_ (by simp)
    intro hop
    rw [followsOperand_eq, hbefore]
    exact ⟨by simp, .inr (hminus hop)⟩
  have hspells : Spells before _ _ rest := spells_apart _ hreads rfl rfl hrest
  simpa [Stretch.text, Stretch.lexemes, Stretch.tokens] using hspells

theorem spells_alone {c second : Char} {paired alone : Kind}
    (h : (c, second, paired, alone) ∈ Stretch.pairs) (hrest : rest.head? ≠ some second) :
    Spells before [c] [⟨alone, String.ofList [c]⟩] rest :=
  spells_of_reads (.symbol alone [c]) (fun _ _ => .alone h hrest) rfl

end Script.Source
