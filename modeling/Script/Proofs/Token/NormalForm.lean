import Mathlib.Data.String.Basic
import Script.Proofs.Token.Minus
import Script.Proofs.Token.Separation
import Script.Proofs.Token.Writing

namespace Script

namespace Token

def slice (source : String) (span : Span) : String :=
  String.Pos.Raw.extract source ⟨span.start⟩ ⟨span.stop⟩

/-- How a token is written anew: a string as it stands in the source, anything else as what it
says. -/
def written (source : String) (token : Token) : String :=
  if token.kind = .string then slice source token.span else token.text

def IsVerbatim (token : Token) : Prop :=
  token.kind ≠ .string → token.raw = token.text

theorem isVerbatim_plain (kind : Kind) (text : String) (span : Span) :
    (plain kind text span).IsVerbatim :=
  fun _ => rfl

theorem IsVerbatim.of_content {token token' : Token} (h : token.IsVerbatim)
    (hcontent : token'.content = token.content) : token'.IsVerbatim := by
  obtain ⟨hkind, htext, hraw⟩ : token'.kind = token.kind ∧ token'.text = token.text ∧
      token'.raw = token.raw := by
    simpa [content] using hcontent
  rw [IsVerbatim, hkind, htext, hraw]
  exact h

theorem map_lexeme_of_content {xs ys : List Token} (h : xs.map content = ys.map content) :
    xs.map lexeme = ys.map lexeme := by
  have hview : lexeme = (fun said => ⟨said.1, said.2.1⟩) ∘ content := rfl
  rw [hview, ← List.map_map, h, List.map_map]

/-- Every string among the tokens is the slice of the source, and would be read again from it. One
with no closing quote is the last token. -/
inductive Sliced (source : String) : List Token → Prop
  | nil : Sliced source []
  | other {token : Token} {tokens : List Token} (hkind : token.kind ≠ .string)
      (htokens : Sliced source tokens) : Sliced source (token :: tokens)
  | quoted {quote : Char} {raw : List Char} {closed : Bool} {span : Span} {tokens : List Token}
      (hreads : ∀ before rest, (closed = false → rest = []) →
        (Stretch.quoted quote raw closed).Reads before rest)
      (hslice : slice source span = String.ofList (Stretch.quoted quote raw closed).text)
      (hlast : closed = false → tokens = []) (htokens : Sliced source tokens) :
      Sliced source (⟨.string, String.ofList (Stretch.decode quote raw), String.ofList raw, span⟩ ::
        tokens)

theorem Sliced.append_other {source : String} {first tokens : List Token}
    (hfirst : ∀ token ∈ first, token.kind ≠ .string) (h : Sliced source tokens) :
    Sliced source (first ++ tokens) := by
  induction first with
  | nil => exact h
  | cons token first ih =>
    exact .other (hfirst token (by simp)) (ih fun token hmem => hfirst token (by simp [hmem]))

end Token

namespace Stretch

theorem Reads.isVerbatim {before : List Token} {s : Stretch} {rest : List Char}
    (h : Reads before s rest) (hbefore : ∀ token ∈ before, token.IsVerbatim) (span : Span) :
    ∀ token ∈ s.tokens span, token.IsVerbatim := by
  intro token hmem
  cases s with
  | quoted =>
    obtain rfl := List.mem_singleton.mp hmem
    exact fun hkind => absurd rfl hkind
  | compound target operator doubled =>
    cases h with
    | compound _ _ htarget =>
      simp only [tokens, List.cons_append, List.mem_cons, List.mem_append] at hmem
      rcases hmem with rfl | hmem | rfl | hone
      · exact Token.isVerbatim_plain _ _ _
      · exact hbefore token (Token.mem_of_pathBefore? htarget token hmem)
      · exact Token.isVerbatim_plain _ _ _
      · cases doubled with
        | true =>
          obtain rfl := List.mem_singleton.mp hone
          exact Token.isVerbatim_plain _ _ _
        | false => simp at hone
  | negation =>
    rcases List.mem_cons.mp hmem with rfl | hmem
    · exact Token.isVerbatim_plain _ _ _
    · obtain rfl := List.mem_singleton.mp hmem
      exact Token.isVerbatim_plain _ _ _
  | number | word | symbol =>
    obtain rfl := List.mem_singleton.mp hmem
    exact Token.isVerbatim_plain _ _ _
  | blank | lineComment | blockComment | unknown => simp [tokens] at hmem

/-- A string is read anywhere, but with no closing quote only at the end. -/
theorem Reads.quoted_anywhere {before : List Token} {quote : Char} {raw : List Char}
    {closed : Bool} {rest : List Char} (h : Reads before (.quoted quote raw closed) rest) :
    (closed = false → rest = []) ∧ ∀ before' rest', (closed = false → rest' = []) →
      Reads before' (.quoted quote raw closed) rest' := by
  cases h with
  | quoted hquote hraw => exact ⟨by simp, fun _ _ _ => .quoted hquote hraw⟩
  | openQuoted hquote hraw =>
    refine ⟨fun _ => rfl, fun before' rest' hrest => ?_⟩
    rw [hrest rfl]
    exact .openQuoted hquote hraw

end Stretch

namespace Source

theorem byteSize_eq_utf8Len (cs : List Char) : byteSize cs = String.utf8Len cs := by
  rw [← String.utf8ByteSize_ofList, ← byteSize_toList, String.toList_ofList]

theorem slice_of_split {source : String} {passed text rest : List Char}
    (h : source.toList = passed ++ (text ++ rest)) :
    Token.slice source ⟨byteSize passed, byteSize passed + byteSize text⟩ =
      String.ofList text := by
  rw [← String.ofList_toList (s := source), h, ← List.append_assoc, Token.slice,
    byteSize_eq_utf8Len, byteSize_eq_utf8Len]
  exact String.extract_of_valid passed text rest

theorem Scans.isVerbatim {rest : List Char} {before : List Token} {start : Nat}
    {segments : List Segment} (h : Scans rest before start segments)
    (hbefore : ∀ token ∈ before, token.IsVerbatim) :
    ∀ token ∈ behind before segments, token.IsVerbatim :=
  h.all Stretch.Reads.isVerbatim hbefore

theorem Scans.eq_nil {rest : List Char} {before : List Token} {start : Nat}
    {segments : List Segment} (h : Scans rest before start segments)
    (htext : textOf segments = []) : segments = [] := by
  cases segments with
  | nil => rfl
  | cons segment segments =>
    rw [textOf_cons] at htext
    exact absurd (List.append_eq_nil_iff.mp htext).1 h.2.1.text_ne_nil

theorem Scans.sliced {source : String} {before : List Token} {passed : List Char}
    {segments : List Segment} (h : Scans [] before (byteSize passed) segments)
    (hsource : source.toList = passed ++ textOf segments) :
    Token.Sliced source (segments.flatMap Segment.tokens) := by
  induction segments generalizing before passed with
  | nil => exact .nil
  | cons segment segments ih =>
    obtain ⟨span, stretch⟩ := segment
    obtain ⟨hspan, hreads, hrest⟩ := h.uncons
    simp only [textOf_cons] at hspan hreads hsource
    have hsliced := ih hrest (by rw [hsource, List.append_assoc])
    rw [List.flatMap_cons]
    rcases hreads.kind_of_mem_tokens span with ⟨quote, raw, closed, rfl⟩ | hkind
    · obtain ⟨hend, hanywhere⟩ := hreads.quoted_anywhere
      refine .quoted hanywhere ?_ (fun hopen => ?_) hsliced
      · rw [hspan]
        exact slice_of_split hsource
      · -- With no closing quote, the string takes all that is left of the source.
        rw [hrest.eq_nil (hend hopen)]
        rfl
    · exact hsliced.append_other fun token hmem => (hkind token hmem).1

/-- Where every token before is written as what it says, so is one that is read, and then only its
kind and its text matter. -/
theorem Spells.tells {before : List Token} {text : List Char} {lexeme : Lexeme} {rest : List Char}
    (h : Spells (before.map Token.lexeme) text [lexeme] rest)
    (hbefore : ∀ token ∈ before, token.IsVerbatim) (hkind : lexeme.kind ≠ .string) :
    Tells Token.content (before.map Token.content) text [(lexeme.kind, lexeme.text, lexeme.text)]
      rest := by
  intro tokens start hcontent
  obtain ⟨segments, hscans, htext, hlexemes, hstrays⟩ :=
    h tokens start (Token.map_lexeme_of_content hcontent)
  have htokens : ∀ token ∈ tokens, token.IsVerbatim := by
    intro token hmem
    have hmem' : token.content ∈ before.map Token.content := by
      rw [← hcontent]
      exact List.mem_map_of_mem hmem
    obtain ⟨token', htoken', hsame⟩ := List.mem_map.mp hmem'
    exact (hbefore token' htoken').of_content hsame.symm
  refine ⟨segments, hscans, htext, ?_, hstrays⟩
  -- Only a string or a target before could make the token something else than what it says.
  rw [← map_lexeme_flatMap_tokens] at hlexemes
  obtain ⟨token, hsingle, rfl⟩ := List.map_eq_singleton_iff.mp hlexemes
  have hverbatim := hscans.isVerbatim htokens token (by simp [behind, hsingle])
  rw [hsingle, List.map_singleton, Token.content, hverbatim hkind]
  rfl

end Source

structure Token.Recurs (before : List Token) (token : Token) : Prop where
  verbatim : token.IsVerbatim
  fits : token.lexeme.Fits
  inner : token.kind ≠ .endOfFile
  stands : token.lexeme.Stands (before.map lexeme)

namespace Source

def rewritten (source : String) (tokens : List Token) : String :=
  " ".intercalate (tokens.map (Token.written source))

variable {source : String} {before : List Token}

theorem tells_rewritten_cons {token : Token} {tokens : List Token}
    (hhead : ∀ rest : List Char, (∀ c ∈ rest.head?, c = ' ') → (tokens = [] → rest = []) →
      Tells Token.content (before.map Token.content) (token.written source).toList
        [token.content] rest)
    (htail : Tells Token.content ((token :: before).map Token.content)
      (rewritten source tokens).toList (tokens.map Token.content) []) :
    Tells Token.content (before.map Token.content) (rewritten source (token :: tokens)).toList
      ((token :: tokens).map Token.content) [] := by
  cases tokens with
  | nil => simpa [rewritten] using hhead [] (by simp) fun _ => rfl
  | cons token' tokens =>
    have hspace : ∀ rest, Tells Token.content ((token :: before).map Token.content) [' '] [] rest :=
      fun rest => tells_of_reads (.blank ' ') (fun _ _ => .blank rfl) (fun _ => rfl) rfl
    have htext : (rewritten source (token :: token' :: tokens)).toList =
        (token.written source).toList ++
          ([' '] ++ (rewritten source (token' :: tokens)).toList) := by
      simp [rewritten, String.intercalate_cons_cons]
    rw [htext]
    exact (hhead _ (by simp) (by simp)).append ((hspace _).append htail)

/-- By induction on the tokens that are still to be written. -/
theorem tells_rewritten {tokens : List Token} (hsliced : Token.Sliced source tokens)
    (hbefore : ∀ token ∈ before, token.IsVerbatim)
    (hrecurs : Token.Along Token.Recurs before tokens) :
    Tells Token.content (before.map Token.content) (rewritten source tokens).toList
      (tokens.map Token.content) [] := by
  induction hsliced generalizing before with
  | nil => exact Tells.nil
  | @other token tokens hkind htokens ih =>
    obtain ⟨htoken, hrest⟩ := hrecurs
    have hverbatim : ∀ t ∈ token :: before, t.IsVerbatim :=
      List.forall_mem_cons.mpr ⟨htoken.verbatim, hbefore⟩
    refine tells_rewritten_cons (fun rest hspace _ => ?_) (ih hverbatim hrest)
    have hlexeme : token.lexeme.kind ≠ .string := hkind
    have hspells := spells_written hspace htoken.fits htoken.inner htoken.stands
    have htells := hspells.tells hbefore hlexeme
    rw [Lexeme.written, if_neg hlexeme] at htells
    rw [Token.written, if_neg hkind, Token.content, htoken.verbatim hkind]
    exact htells
  | @quoted quote raw closed span tokens hreads hslice hlast htokens ih =>
    obtain ⟨htoken, hrest⟩ := hrecurs
    have hverbatim := List.forall_mem_cons.mpr ⟨htoken.verbatim, hbefore⟩
    refine tells_rewritten_cons (fun rest _ hend => ?_) (ih hverbatim hrest)
    rw [Token.written, if_pos rfl, hslice, String.toList_ofList]
    exact tells_of_reads (.quoted quote raw closed)
      (fun tokens _ => hreads tokens rest fun hopen => hend (hlast hopen)) (fun _ => rfl) rfl

theorem signed_of_tokenize {tokens : List Token} (h : tokenize source = .ok tokens) :
    Token.Along (Token.Signed source) [] tokens := by
  obtain ⟨-, rfl⟩ := tokenize_eq_ok_iff.mp h
  obtain ⟨hscans, htext⟩ := scans_segmentsFrom [] 0 source.toList
  have hsource : source.toList = [] ++ textOf (segmentsFrom [] 0 source.toList) := htext.symm
  have hend : ∀ size before, Token.Signed source before (Token.endOfFile size) := fun _ _ =>
    Token.signed_of_kind (by simp [Token.endOfFile, Token.plain])
      (by simp [Token.endOfFile, Token.plain])
  exact Token.along_append.mpr ⟨hscans.signed hsource, hend _ _, trivial⟩

theorem sliced_tokens (source : String) : Token.Sliced source (Source.tokens source) := by
  obtain ⟨hscans, htext⟩ := scans_segmentsFrom [] 0 source.toList
  have hsource : source.toList = [] ++ textOf (segmentsFrom [] 0 source.toList) := htext.symm
  exact hscans.sliced hsource

/-- A token that means itself behind those before it is read again. -/
theorem recurs_of_tokenize {tokens : List Token} (h : tokenize source = .ok tokens)
    (hminus : ∀ first minus rest, tokens = first ++ minus :: rest →
      minus.lexeme = ⟨.operator, "-"⟩ → Piece.EndsOperand first) :
    Token.Along Token.Recurs [] (Source.tokens source) := by
  have hsigned := Token.along_iff.mp (signed_of_tokenize h)
  obtain ⟨-, rfl⟩ := tokenize_eq_ok_iff.mp h
  refine Token.along_iff.mpr fun first token rest hsplit => ?_
  have hmem : token ∈ Source.tokens source := by simp [hsplit]
  have hwhole : Source.tokens source ++ [Token.endOfFile (byteSize source.toList)] =
      first ++ token :: (rest ++ [Token.endOfFile (byteSize source.toList)]) := by
    simp [hsplit]
  refine ⟨forall_mem_tokens Stretch.Reads.isVerbatim source token hmem,
    forall_mem_tokens Stretch.Reads.fits_tokens source token hmem,
    kind_ne_of_mem_tokens source token hmem, ?_, ?_⟩
  · rw [← followsOperand_eq]
    exact (hsigned _ _ _ hwhole).numeral
  · intro hlexeme
    rw [← followsOperand_eq, List.append_nil, Piece.followsOperand_reverse]
    exact hminus _ _ _ hwhole hlexeme

/-- The tokens of a source, written anew with single spaces between them, are read as tokens that
say the same and are written the same, if every minus operator has an operand before it. One that
has none is the first of two minus signs in the source that update nothing. -/
theorem tokenize_rewritten {tokens : List Token} (h : tokenize source = .ok tokens) :
    ((∀ first minus rest, tokens = first ++ minus :: rest → minus.lexeme = ⟨.operator, "-"⟩ →
        Piece.EndsOperand first) →
      ∃ tokens', tokenize (rewritten source tokens.dropLast) = .ok tokens' ∧
        tokens'.map Token.content = tokens.map Token.content) ∧
    ∀ first minus rest, tokens = first ++ minus :: rest → minus.lexeme = ⟨.operator, "-"⟩ →
      ¬Piece.EndsOperand first →
        Token.IsDoubled source minus.span ∧ Token.assignablePath? first = none := by
  refine ⟨fun hminus => ?_, fun first minus rest hsplit hlexeme hoperand => ?_⟩
  · have hrecurs := recurs_of_tokenize h hminus
    obtain ⟨-, rfl⟩ := tokenize_eq_ok_iff.mp h
    have htells := tells_rewritten (sliced_tokens source) (List.forall_mem_nil _) hrecurs
    obtain ⟨segments, hsegments, hwritten, htold, hstrays⟩ := htells [] 0 rfl
    have hread : Source.segments (rewritten source (Source.tokens source)) = segments := by
      rw [← hsegments.segments_eq, hwritten, String.ofList_toList]
    rw [List.dropLast_concat]
    refine exists_tokenize_content _ (by rw [hread, hstrays]) ?_
    rw [Source.tokens, hread, htold]
  · have hsigned := Token.along_iff.mp (signed_of_tokenize h) first minus rest hsplit
    have hbefore : Stretch.followsOperand first.reverse = false := by
      rw [← Bool.not_eq_true, Piece.followsOperand_reverse]
      exact hoperand
    rw [List.append_nil] at hsigned
    obtain ⟨hkind, htext⟩ : minus.kind = .operator ∧ minus.text = "-" := by
      simpa [Token.lexeme] using hlexeme
    exact ⟨hsigned.minus hkind htext hbefore, Stretch.pathBefore?_of_followsOperand hbefore⟩

/-- A negation, an update of a negative index, a quote behind a backslash, and a string that the
end of the source cuts off behind a character of two bytes. -/
theorem tokenize_rewritten_mixed :
    ∃ tokens tokens', tokenize "x=-y a[-1]++-'\\''\"é" = .ok tokens ∧
      tokenize "x = 0 - y a [ -1 ] = a [ -1 ] + 1 - '\\'' \"é" = .ok tokens' ∧
      tokens'.map Token.content = tokens.map Token.content := by
  have h : tokenize "x=-y a[-1]++-'\\''\"é" =
      .ok (Source.tokens "x=-y a[-1]++-'\\''\"é" ++ [Token.endOfFile 20]) := by
    decide +kernel
  have hminus : Token.Along
      (fun before token => token.lexeme = ⟨.operator, "-"⟩ →
        Stretch.followsOperand before = true) []
      (Source.tokens "x=-y a[-1]++-'\\''\"é" ++ [Token.endOfFile 20]) := by
    decide +kernel
  have hwritten : rewritten "x=-y a[-1]++-'\\''\"é"
      (Source.tokens "x=-y a[-1]++-'\\''\"é" ++ [Token.endOfFile 20]).dropLast =
        "x = 0 - y a [ -1 ] = a [ -1 ] + 1 - '\\'' \"é" := by
    decide +kernel
  obtain ⟨tokens', hread, hcontent⟩ := (tokenize_rewritten h).1 fun first minus rest hsplit heq =>
    (Piece.followsOperand_reverse first).mp
      (by simpa using Token.along_iff.mp hminus first minus rest hsplit heq)
  rw [hwritten] at hread
  exact ⟨_, tokens', h, hread, hcontent⟩

/-- With no operand before it, a minus sign that stands alone is read as a negation. -/
example : (tokenize (rewritten "--x" (tokens "--x"))).map (List.map Token.content) ≠
    (tokenize "--x").map (List.map Token.content) := by
  decide +kernel

end Source
end Script
