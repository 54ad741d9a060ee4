import Script.Proofs.Token.Lexeme

namespace Script

def Kind.marks : List Kind :=
  [.equals, .comma, .dot, .colon, .semicolon, .openParen, .closeParen, .openBrace, .closeBrace,
    .openBracket, .closeBracket, .greater, .greaterEquals, .lesser, .lesserEquals, .equalsCompare,
    .notEqualsCompare, .exclamation, .doubleAmpersand, .ampersand, .bar, .arrow]

def Kind.symbols : List (List Char) :=
  Kind.marks.filterMap fun kind => kind.spelling?.map String.toList

/-- A part of a source: its characters, its place in bytes, the tokens it stands for, and its
character if it cannot be read. -/
structure Piece where
  text : List Char
  span : Span
  tokens : List Token
  stray? : Option Char

namespace Piece

def unrecognized? (piece : Piece) : Option Unrecognized :=
  piece.stray?.map fun c => ⟨c, piece.span⟩

/-- `IsComment text rest`: the text is a comment in front of `rest`. A line comment ends with its
line, a block comment with the first closing mark or with the source. -/
inductive IsComment : List Char → List Char → Prop
  | line {body rest : List Char} (hbody : '\n' ∉ body) (hrest : ∀ c ∈ rest.head?, c = '\n') :
      IsComment ('/' :: '/' :: body) rest
  | block {body rest : List Char} (hbody : ¬['*', '/'] <:+: body ++ ['*']) :
      IsComment ('/' :: '*' :: body ++ ['*', '/']) rest
  | openBlock {body : List Char} (hbody : ¬['*', '/'] <:+: body) :
      IsComment ('/' :: '*' :: body) []

/-- The inside of a string: the quote stands in it only with a backslash before it. -/
inductive IsInside (quote : Char) : List Char → Prop
  | nil : IsInside quote []
  | plain {c : Char} {cs : List Char} (hquote : c ≠ quote) (hescape : c ≠ '\\')
      (hrest : IsInside quote cs) : IsInside quote (c :: cs)
  | escape {c : Char} {cs : List Char} (hrest : IsInside quote cs) :
      IsInside quote ('\\' :: c :: cs)

def IsCutOff (quote : Char) (raw : List Char) : Prop :=
  IsInside quote raw ∨ ∃ inside, IsInside quote inside ∧ raw = inside ++ ['\\']

def EndsOperand (tokens : List Token) : Prop :=
  ∃ last ∈ tokens.getLast?, last.kind.endsOperand = true

/-- `IsOrdinary before rest kind text`: behind the tokens `before` and in front of `rest`, the text
is a number, a word or a symbol of the kind, and goes on as long as it can. -/
inductive IsOrdinary (before : List Token) (rest : List Char) : Kind → List Char → Prop
  | number {text : List Char} (htext : Stretch.IsNumeral text)
      (hrest : Stretch.NumeralEnds text rest.head?) : IsOrdinary before rest .number text
  | negative {text : List Char} (hbefore : ¬EndsOperand before) (htext : Stretch.IsNumeral text)
      (hrest : Stretch.NumeralEnds text rest.head?) : IsOrdinary before rest .number ('-' :: text)
  | word {text : List Char} (hne : text ≠ []) (htext : ∀ c ∈ text, Text.isAlphabetic c = true)
      (hrest : ∀ c ∈ rest.head?, Text.isAlphabetic c = false) :
      IsOrdinary before rest ((Kind.keyword? (String.ofList text)).getD .identifier) text
  | mark {kind : Kind} {text : List Char} (hkind : kind ∈ Kind.marks)
      (htext : kind.spelling? = some (String.ofList text))
      (hrest : ∀ c ∈ rest.head?, text ++ [c] ∉ Kind.symbols) : IsOrdinary before rest kind text
  | percent : IsOrdinary before rest .operator ['%']
  /-- A sign that starts neither a comment nor an arrow, does not belong to a number and updates
  nothing. -/
  | sign {c : Char} (hc : c ∈ ['+', '-', '*', '/'])
      (hcomment : c = '/' → ∀ d ∈ rest.head?, d ≠ '/' ∧ d ≠ '*')
      (hminus : c = '-' →
        rest.head? ≠ some '>' ∧ (rest.head? = some '-' ∨ EndsOperand before))
      (hupdate : rest.head? = some '=' ∨ rest.head? = some c ∧ c ∈ ['+', '-'] →
        Token.assignablePath? before = none) : IsOrdinary before rest .operator [c]

structure IsStray (c : Char) : Prop where
  not_blank : c ∉ [' ', '\n', '\t', '\r']
  not_digit : c.isDigit = false
  not_quote : c ∉ ['"', '\'']
  not_letter : Text.isAlphabetic c = false
  not_sign : c ∉ ['+', '-', '*', '/', '%']
  not_symbol : ∀ symbol ∈ Kind.symbols, symbol.head? ≠ some c

/-- `piece.Stands before rest`: what the piece is, and what it stands for, behind the tokens
`before` and in front of `rest`. -/
inductive Stands (before : List Token) (rest : List Char) : Piece → Prop
  | blank {c : Char} {span : Span} (hc : c ∈ [' ', '\n', '\t', '\r']) :
      Stands before rest ⟨[c], span, [], none⟩
  | comment {text : List Char} {span : Span} (htext : IsComment text rest) :
      Stands before rest ⟨text, span, [], none⟩
  | stray {c : Char} {span : Span} (hc : IsStray c) : Stands before rest ⟨[c], span, [], some c⟩
  | ordinary {kind : Kind} {text : List Char} {span : Span}
      (htext : IsOrdinary before rest kind text) :
      Stands before rest
        ⟨text, span, [⟨kind, String.ofList text, String.ofList text, span⟩], none⟩
  | string {quote : Char} {raw : List Char} {span : Span} (hquote : quote ∈ ['"', '\''])
      (hraw : IsInside quote raw) :
      Stands before rest ⟨quote :: raw ++ [quote], span,
        [⟨.string, String.ofList (Stretch.decode quote raw), String.ofList raw, span⟩], none⟩
  | openString {quote : Char} {raw : List Char} {span : Span} (hquote : quote ∈ ['"', '\''])
      (hraw : IsCutOff quote raw) (hrest : rest = []) :
      Stands before rest ⟨quote :: raw, span,
        [⟨.string, String.ofList (Stretch.decode quote raw), String.ofList raw, span⟩], none⟩
  | update {operator : Char} {target : List Token} {span : Span}
      (hoperator : operator ∈ ['+', '-', '*', '/'])
      (htarget : Token.assignablePath? before = some target) :
      Stands before rest ⟨[operator, '='], span,
        ⟨.equals, "=", "=", span⟩ :: target ++
          [⟨.operator, String.singleton operator, String.singleton operator, span⟩], none⟩
  | step {operator : Char} {target : List Token} {span : Span}
      (hoperator : operator ∈ ['+', '-'])
      (htarget : Token.assignablePath? before = some target) :
      Stands before rest ⟨[operator, operator], span,
        ⟨.equals, "=", "=", span⟩ :: target ++
          [⟨.operator, String.singleton operator, String.singleton operator, span⟩,
            ⟨.number, "1", "1", span⟩], none⟩
  | negation {span : Span} (hbefore : ¬EndsOperand before)
      (hrest : ∀ c ∈ rest.head?, c.isDigit = false ∧ c ≠ '>' ∧ c ≠ '-') :
      Stands before rest
        ⟨['-'], span, [⟨.number, "0", "0", span⟩, ⟨.operator, "-", "-", span⟩], none⟩

/-- A comment ends with its first closing mark. -/
theorem length_blockBody_le (first rest : List Char) :
    (Stretch.blockBody (first ++ '*' :: '/' :: rest)).length ≤ first.length + 2 := by
  induction first with
  | nil => simp [Stretch.blockBody]
  | cons c first ih =>
    by_cases hmark : c = '*' ∧ (first ++ '*' :: '/' :: rest).head? = some '/'
    · obtain ⟨rfl, hhead⟩ := hmark
      obtain ⟨more, hmore⟩ := List.head?_eq_some_iff.mp hhead
      rw [List.cons_append, hmore]
      simp [Stretch.blockBody]
    · rw [List.cons_append, Stretch.blockBody_cons fun hc hhead => hmark ⟨hc, hhead⟩]
      simpa using ih

theorem isComment_block {body rest : List Char} (hclosed : ['*', '/'] <:+ body)
    (hbody : Stretch.blockBody body = body) : IsComment ('/' :: '*' :: body) rest := by
  obtain ⟨inner, rfl⟩ := hclosed
  apply IsComment.block
  rintro ⟨first, more, hinner⟩
  have hlength := length_blockBody_le first (more ++ ['/'])
  have heq : first ++ '*' :: '/' :: (more ++ ['/']) = inner ++ ['*', '/'] := by
    have hlast := congrArg (· ++ ['/']) hinner
    simpa using hlast
  rw [heq, hbody, ← heq] at hlength
  simp at hlength

theorem isComment_openBlock {body : List Char} (hopen : ¬['*', '/'] <:+ body)
    (hbody : Stretch.blockBody body = body) : IsComment ('/' :: '*' :: body) [] := by
  apply IsComment.openBlock
  rintro ⟨first, more, rfl⟩
  have hlength := length_blockBody_le first more
  rw [List.append_assoc] at hbody hopen
  rw [show '*' :: '/' :: more = ['*', '/'] ++ more from rfl, hbody] at hlength
  obtain rfl : more = [] := by simpa using hlength
  exact hopen ⟨first, by simp⟩

/-- What is read of a string is its inside, cut off behind a backslash only where no quote closes
it. -/
theorem isInside_of_rawBody {quote : Char} {cs raw : List Char} {closed : Bool}
    (h : Stretch.rawBody quote cs = (raw, closed)) : IsInside quote raw ∨
      closed = false ∧ ∃ inside, IsInside quote inside ∧ raw = inside ++ ['\\'] := by
  fun_induction Stretch.rawBody quote cs generalizing raw closed with
  | case1 =>
    obtain ⟨rfl, rfl⟩ := Prod.mk.inj h
    exact .inl .nil
  | case2 =>
    obtain ⟨rfl, rfl⟩ := Prod.mk.inj h
    exact .inr ⟨rfl, [], .nil, rfl⟩
  | case3 c cs body ended heq ih =>
    obtain ⟨rfl, rfl⟩ := Prod.mk.inj h
    rcases ih heq with hinside | ⟨hopen, inside, hinside, rfl⟩
    · exact .inl (.escape hinside)
    · exact .inr ⟨hopen, _, .escape hinside, rfl⟩
  | case4 =>
    obtain ⟨rfl, rfl⟩ := Prod.mk.inj h
    exact .inl .nil
  | case5 c cs hlone hescape hne body ended heq ih =>
    obtain ⟨rfl, rfl⟩ := Prod.mk.inj h
    -- A backslash belongs to the two cases before.
    have hplain : c ≠ '\\' := by
      rintro rfl
      cases cs with
      | nil => exact hlone rfl rfl
      | cons d ds => exact hescape d ds rfl rfl
    rcases ih heq with hinside | ⟨hopen, inside, hinside, rfl⟩
    · exact .inl (.plain hne hplain hinside)
    · exact .inr ⟨hopen, _, .plain hne hplain hinside, rfl⟩

/-- Whatever starts a symbol has an entry in one of the tables, or is an arithmetic operator. -/
theorem symbols_start : Kind.symbols.all (fun symbol => symbol.head?.all fun c =>
    decide (c ∈ Stretch.updaters) || (Stretch.singles.lookup c).isSome ||
      (Stretch.pairs.lookup c).isSome) = true := by
  decide

theorem isStray_of_lookup {c : Char} (hc : Stretch.isMark c = true)
    (hsingle : Stretch.singles.lookup c = none) (hpair : Stretch.pairs.lookup c = none) :
    IsStray c := by
  simp only [Stretch.isMark, Bool.and_eq_true, Bool.not_eq_true', decide_eq_true_eq] at hc
  obtain ⟨⟨⟨⟨⟨hblank, hdigit⟩, hdouble⟩, hquote⟩, hletter⟩, hupdater⟩ := hc
  have hpercent : c ≠ '%' := by
    rintro rfl
    simp [Stretch.singles] at hsingle
  refine ⟨?_, hdigit, by simp [hdouble, hquote], hletter, ?_, ?_⟩
  · simpa [Stretch.isBlank, and_assoc] using hblank
  · simp only [Stretch.updaters, List.mem_cons, List.not_mem_nil, or_false, not_or] at hupdater
    simp [hupdater, hpercent]
  · intro symbol hsymbol hhead
    have hstart := List.all_eq_true.mp symbols_start symbol hsymbol
    simp [hhead, hsingle, hpair, hupdater] at hstart

/-- A symbol of one character ends where no symbol goes on with the next. -/
theorem isOrdinary_single {before : List Token} {rest : List Char} {c : Char} {kind : Kind}
    (hc : (c, kind) ∈ Stretch.singles) : IsOrdinary before rest kind [c] := by
  have hkind : ∀ entry ∈ Stretch.singles, entry = ('%', .operator) ∨ entry.2 ∈ Kind.marks ∧
      entry.2.spelling? = some (String.ofList [entry.1]) := by decide
  have hend : ∀ entry ∈ Stretch.singles, ∀ symbol ∈ Kind.symbols,
      symbol.head? = some entry.1 → symbol.length = 1 := by decide
  rcases hkind _ hc with heq | ⟨hmark, hspelling⟩
  · obtain ⟨rfl, rfl⟩ := Prod.mk.inj heq
    exact .percent
  · refine .mark hmark hspelling fun d _ hsymbol => ?_
    simpa using hend _ hc _ hsymbol rfl

/-- No symbol has more than two characters. -/
theorem isOrdinary_double {before : List Token} {rest : List Char} {kind : Kind} {c d : Char}
    (hkind : kind ∈ Kind.marks) (htext : kind.spelling? = some (String.ofList [c, d])) :
    IsOrdinary before rest kind [c, d] := by
  have hend : ∀ symbol ∈ Kind.symbols, symbol.length ≤ 2 := by decide
  refine .mark hkind htext fun e _ hsymbol => ?_
  simpa using hend _ hsymbol

theorem isOrdinary_pair {before : List Token} {rest : List Char} {c second : Char}
    {paired alone : Kind} (hc : (c, second, paired, alone) ∈ Stretch.pairs) :
    IsOrdinary before rest paired [c, second] := by
  have hkind : ∀ entry ∈ Stretch.pairs, entry.2.2.1 ∈ Kind.marks ∧
      entry.2.2.1.spelling? = some (String.ofList [entry.1, entry.2.1]) := by decide
  exact isOrdinary_double (hkind _ hc).1 (hkind _ hc).2

theorem isOrdinary_alone {before : List Token} {rest : List Char} {c second : Char}
    {paired alone : Kind} (hc : (c, second, paired, alone) ∈ Stretch.pairs)
    (hrest : rest.head? ≠ some second) : IsOrdinary before rest alone [c] := by
  have hkind : ∀ entry ∈ Stretch.pairs, entry.2.2.2 ∈ Kind.marks ∧
      entry.2.2.2.spelling? = some (String.ofList [entry.1]) := by decide
  have hend : ∀ entry ∈ Stretch.pairs, ∀ symbol ∈ Kind.symbols,
      symbol.head? = some entry.1 → symbol.length = 2 → symbol = [entry.1, entry.2.1] := by decide
  obtain ⟨hmark, hspelling⟩ := hkind _ hc
  refine .mark hmark hspelling fun d hd hsymbol => ?_
  obtain rfl : d = second := by simpa using hend _ hc _ hsymbol rfl rfl
  exact hrest hd

theorem followsOperand_reverse (before : List Token) :
    Stretch.followsOperand before.reverse = true ↔ EndsOperand before := by
  rw [EndsOperand, ← List.head?_reverse]
  cases before.reverse <;> simp [Stretch.followsOperand]

theorem not_endsOperand {before : List Token}
    (h : Stretch.followsOperand before.reverse = false) : ¬EndsOperand before := by
  rw [← followsOperand_reverse, h]
  exact Bool.false_ne_true

def ofSegment (segment : Segment) : Piece :=
  ⟨segment.stretch.text, segment.span, segment.tokens, segment.stretch.stray?⟩

theorem stands_of_reads {before : List Token} {s : Stretch} {rest : List Char} (span : Span)
    (h : s.Reads before.reverse rest) : (ofSegment ⟨span, s⟩).Stands before rest := by
  cases h with
  | blank hc => exact .blank (by simpa [Stretch.isBlank, or_assoc] using hc)
  | lineComment hbody hrest => exact .comment (.line (fun hmem => hbody _ hmem rfl) hrest)
  | blockComment hclosed hbody =>
    exact .comment (isComment_block hclosed (by simpa using hbody []))
  | openBlock hopen hbody => exact .comment (isComment_openBlock hopen hbody)
  | number htext hrest => exact .ordinary (.number htext hrest)
  | negative hbefore htext hrest =>
    exact .ordinary (.negative (not_endsOperand hbefore) htext hrest)
  | quoted hquote hraw =>
    have hinside := (isInside_of_rawBody (hraw [])).resolve_right (by simp)
    exact .string (by simpa using hquote) hinside
  | @openQuoted quote raw hquote hraw =>
    have hcut : IsCutOff quote raw := (isInside_of_rawBody hraw).imp_right And.right
    have htext : (Stretch.quoted quote raw false).text = quote :: raw := List.append_nil _
    rw [ofSegment, htext]
    exact .openString (by simpa using hquote) hcut rfl
  | word hne htext hrest => exact .ordinary (.word hne htext hrest)
  | arrow => exact .ordinary (isOrdinary_double (by decide) rfl)
  | @compound target operator doubled _ hoperator hdoubled htarget =>
    cases doubled with
    | true => exact .step (by simpa using hdoubled rfl) htarget
    | false => exact .update hoperator htarget
  | negation hbefore hrest => exact .negation (not_endsOperand hbefore) hrest
  | operator hc hslash hminus htarget =>
    refine .ordinary (.sign hc hslash ?_ ?_)
    · intro hop
      rw [← followsOperand_reverse]
      exact hminus hop
    · intro hupdate
      exact htarget (by simpa using hupdate)
  | single hc => exact .ordinary (isOrdinary_single hc)
  | pair hc => exact .ordinary (isOrdinary_pair hc)
  | alone hc hrest => exact .ordinary (isOrdinary_alone hc hrest)
  | unknown hmark hsingle hpair => exact .stray (isStray_of_lookup hmark hsingle hpair)

end Piece

namespace Source

theorem utf8ByteSize_ofList (cs : List Char) :
    (String.ofList cs).utf8ByteSize = byteSize cs := by
  induction cs with
  | nil => rfl
  | cons c cs ih =>
    rw [← List.singleton_append, String.ofList_append, String.utf8ByteSize_append, ih,
      byteSize_append, ← String.singleton_eq_ofList, String.utf8ByteSize_singleton]
    rfl

theorem byteSize_toList (source : String) : byteSize source.toList = source.utf8ByteSize := by
  rw [← utf8ByteSize_ofList, String.ofList_toList]

@[simp] theorem flatMap_text_ofSegment (segments : List Segment) :
    (segments.map Piece.ofSegment).flatMap Piece.text = textOf segments :=
  List.flatMap_map ..

@[simp] theorem flatMap_tokens_ofSegment (segments : List Segment) :
    (segments.map Piece.ofSegment).flatMap Piece.tokens = segments.flatMap Segment.tokens :=
  List.flatMap_map ..

@[simp] theorem filterMap_unrecognized?_ofSegment (segments : List Segment) :
    (segments.map Piece.ofSegment).filterMap Piece.unrecognized? =
      segments.filterMap Segment.unrecognized? := by
  rw [List.filterMap_map]
  congr 1
  funext segment
  cases hs : segment.stretch <;>
    simp [Piece.unrecognized?, Piece.ofSegment, Segment.unrecognized?, Stretch.stray?, hs]

/-- What is known of a segment from those before it and behind it. -/
theorem Scans.at_segment {rest : List Char} {before : List Token} {start : Nat}
    {first more : List Segment} {segment : Segment}
    (h : Scans rest before start (first ++ segment :: more)) :
    segment.span = ⟨start + byteSize (textOf first),
        start + byteSize (textOf first) + byteSize segment.stretch.text⟩ ∧
      segment.stretch.Reads (behind before first) (textOf more ++ rest) := by
  obtain ⟨hspan, hreads, -⟩ := (scans_append.mp h).2
  exact ⟨hspan, hreads⟩

/-- Reading splits a source into pieces, from its start to its end, each of which stands for its
own tokens or cannot be read. -/
theorem tokenize_pieces (source : String) : ∃ pieces : List Piece,
    pieces.flatMap Piece.text = source.toList ∧
    (∀ first piece rest, pieces = first ++ piece :: rest →
      let start := (String.ofList (first.flatMap Piece.text)).utf8ByteSize
      piece.text ≠ [] ∧
      piece.span = ⟨start, start + (String.ofList piece.text).utf8ByteSize⟩ ∧
      piece.Stands (first.flatMap Piece.tokens) (rest.flatMap Piece.text)) ∧
    (pieces.filterMap Piece.unrecognized? = [] →
      tokenize source = .ok (pieces.flatMap Piece.tokens ++
        [⟨.endOfFile, "EndOfFile", "EndOfFile", ⟨source.utf8ByteSize, source.utf8ByteSize⟩⟩])) ∧
    (pieces.filterMap Piece.unrecognized? ≠ [] →
      tokenize source = .error (pieces.filterMap Piece.unrecognized?)) := by
  obtain ⟨hscans, htext⟩ := scans_segmentsFrom [] 0 source.toList
  refine ⟨(segments source).map Piece.ofSegment, ?_, ?_, ?_, ?_⟩
  · rw [flatMap_text_ofSegment]
    exact htext
  · intro first piece rest hpieces
    obtain ⟨earlier, tail, hsegments, rfl, htail⟩ := List.map_eq_append_iff.mp hpieces
    obtain ⟨segment, later, rfl, rfl, rfl⟩ := List.map_eq_cons_iff.mp htail
    rw [show segmentsFrom [] 0 source.toList = _ from hsegments] at hscans
    -- A piece is a segment, and the segments before it make up what it stands behind.
    obtain ⟨hspan, hreads⟩ := hscans.at_segment
    have hplace : segment.stretch.Reads (earlier.flatMap Segment.tokens).reverse
        (textOf later) := by
      simpa [behind] using hreads
    refine ⟨hreads.text_ne_nil, ?_, ?_⟩
    · simpa [utf8ByteSize_ofList, Piece.ofSegment] using hspan
    · simpa using Piece.stands_of_reads segment.span hplace
  · intro hnone
    rw [filterMap_unrecognized?_ofSegment] at hnone
    rw [tokenize, hnone, flatMap_tokens_ofSegment, ← byteSize_toList]
    rfl
  · intro hsome
    rw [filterMap_unrecognized?_ofSegment] at hsome ⊢
    rw [tokenize]
    split
    case h_1 hnone => exact absurd hnone hsome
    case h_2 => rfl

end Source
end Script
