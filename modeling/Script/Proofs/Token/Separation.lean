import Script.Proofs.Token.Expansion

namespace Script

namespace Stretch

def isUnterminated : Stretch → Bool
  | blockComment body => !(['*', '/'].isSuffixOf body)
  | quoted _ _ closed => !closed
  | _ => false

theorem Reads.before_newline {tokens : List Token} {s : Stretch} (hreads : Reads tokens s [])
    (hend : s.isUnterminated = false) (rest : List Char) : Reads tokens s ('\n' :: rest) := by
  cases s with
  | lineComment body =>
    cases hreads with
    | lineComment hbody _ => exact .lineComment hbody fun c hc => (Option.some.inj hc).symm
  | blockComment body => exact hreads.before_blank hend rfl rest
  | quoted quote raw closed => exact hreads.before_blank hend rfl rest
  | _ => exact hreads.before_blank rfl rfl rest

/-- No stretch is an end mark, and strings are the only ones to hold a string. -/
theorem Reads.kind_of_mem_tokens {before : List Token} {s : Stretch} {rest : List Char}
    (h : Reads before s rest) (span : Span) :
    (∃ quote raw closed, s = .quoted quote raw closed) ∨
      ∀ token ∈ s.tokens span, token.kind ≠ .string ∧ token.kind ≠ .endOfFile := by
  have hsingles : ∀ entry ∈ singles, entry.2 ≠ .string ∧ entry.2 ≠ .endOfFile := by decide
  have hpairs : ∀ entry ∈ pairs, (entry.2.2.1 ≠ .string ∧ entry.2.2.1 ≠ .endOfFile) ∧
      entry.2.2.2 ≠ .string ∧ entry.2.2.2 ≠ .endOfFile := by decide
  have hpath : ∀ kind ∈ [Kind.identifier, .dot, .openBracket, .number, .closeBracket],
      kind ≠ .string ∧ kind ≠ .endOfFile := by decide
  cases h with
  | quoted | openQuoted => exact .inl ⟨_, _, _, rfl⟩
  | word => exact .inr (by simp [tokens, Token.plain, Kind.keyword?_getD_ne])
  | @compound target operator doubled _ _ _ htarget =>
    have hmem := (Token.isPath_of_pathBefore? htarget).kind_mem
    refine .inr fun token htoken => ?_
    simp only [tokens, List.cons_append, List.mem_cons, List.mem_append] at htoken
    rcases htoken with rfl | htoken | rfl | hone
    · simp [Token.plain]
    · exact hpath _ (hmem token htoken)
    · simp [Token.plain]
    · cases doubled with
      | true =>
        obtain rfl := List.mem_singleton.mp hone
        simp [Token.plain]
      | false => simp at hone
  | single hc => exact .inr (by simpa [tokens, Token.plain] using hsingles _ hc)
  | pair hc => exact .inr (by simpa [tokens, Token.plain] using (hpairs _ hc).1)
  | alone hc => exact .inr (by simpa [tokens, Token.plain] using (hpairs _ hc).2)
  | _ => exact .inr (by simp [tokens, Token.plain])

end Stretch

/-- The kinds of token that no target holds and no operand ends with. -/
def Kind.severs : Kind → Bool
  | .semicolon | .operator => true
  | _ => false

namespace Token

variable {edge : Token} (h : edge.kind.severs = true) (tokens before : List Token)

include h

/-- A target does not reach over a token that severs. -/
theorem pathLength?_edge : pathLength? (tokens ++ edge :: before) = pathLength? tokens := by
  have hnone : ∀ more, pathLength? (edge :: more) = none := by
    intro more
    cases hkind : edge.kind <;> simp_all [pathLength?, Kind.severs]
  have hindex : ¬(edge.kind = .number ∨ edge.kind = .identifier) := by
    rintro (hkind | hkind) <;> simp [hkind, Kind.severs] at h
  have hbracket : edge.kind ≠ .openBracket := by
    intro hkind
    simp [hkind, Kind.severs] at h
  have hdot : edge.kind ≠ .dot := by
    intro hkind
    simp [hkind, Kind.severs] at h
  fun_induction pathLength? tokens with
  | case1 => exact hnone before
  | case2 last index bracket tokens hlast hlink ih => simp [pathLength?, hlast, hlink, ih]
  | case3 last index bracket tokens hlast hlink => simp [pathLength?, hlast, hlink]
  | case4 last link tokens hlast hlink ih => simp [pathLength?, hlast, hlink, ih]
  | case5 last link tokens hlast hlink => simp [pathLength?, hlast, hlink]
  | case6 last hlast => simp [pathLength?, hlast, hdot]
  | case7 last tokens hbracket' hlink hlone =>
    have hname : last.kind ≠ .identifier := by
      intro hkind
      cases tokens with
      | nil => exact hlone hkind rfl
      | cons link tokens => exact hlink link tokens hkind rfl
    by_cases hkind : last.kind = .closeBracket
    · -- The severing token stands where an index or its bracket would have to.
      cases tokens with
      | nil => cases before <;> simp [pathLength?, hkind, hindex]
      | cons index tokens =>
        cases tokens with
        | nil => simp [pathLength?, hkind, hbracket]
        | cons bracket tokens => exact absurd rfl (hbracket' index bracket tokens hkind)
    · rw [List.cons_append, pathLength?]
      · exact fun _ _ _ hclose _ => hkind hclose
      · exact fun _ _ hidentifier _ => hname hidentifier
      · exact fun hidentifier _ => hname hidentifier

omit h in
theorem pathLength?_le {n : Nat} (hn : pathLength? tokens = some n) : n ≤ tokens.length := by
  fun_induction pathLength? tokens generalizing n with
  | case2 last index bracket tokens hlast hlink ih =>
    obtain ⟨m, hm, rfl⟩ := Option.map_eq_some_iff.mp hn
    have hle := ih hm
    simp only [List.length_cons]
    omega
  | case4 last link tokens hlast hlink ih =>
    obtain ⟨m, hm, rfl⟩ := Option.map_eq_some_iff.mp hn
    have hle := ih hm
    simp only [List.length_cons]
    omega
  | case5 | case6 =>
    obtain rfl := Option.some.inj hn
    simp
  | case1 | case3 | case7 => simp at hn

theorem pathBefore?_edge : pathBefore? (tokens ++ edge :: before) = pathBefore? tokens := by
  rw [pathBefore?, pathBefore?, pathLength?_edge h]
  cases hn : pathLength? tokens with
  | none => rfl
  | some n =>
    rw [Option.map_some, Option.map_some, List.take_append_of_le_length (pathLength?_le tokens hn)]

end Token

namespace Stretch

variable {edge : Token} (h : edge.kind.severs = true) (tokens before : List Token)

include h

theorem followsOperand_edge :
    followsOperand (tokens ++ edge :: before) = followsOperand tokens := by
  cases tokens with
  | nil =>
    show edge.kind.endsOperand = false
    cases hkind : edge.kind <;> simp_all [Kind.severs, Kind.endsOperand]
  | cons last tokens => rfl

theorem read_edge (c : Char) (cs : List Char) :
    read (tokens ++ edge :: before) c cs = read tokens c cs := by
  rw [read, read, arithmetic, arithmetic, followsOperand_edge h, Token.pathBefore?_edge h]

end Stretch

namespace Source

theorem segmentsFrom_edge {edge : Token} (h : edge.kind.severs = true)
    (tokens before : List Token) (start : Nat) (cs : List Char) :
    segmentsFrom (tokens ++ edge :: before) start cs = segmentsFrom tokens start cs := by
  fun_induction segmentsFrom tokens start cs with
  | case1 => rw [segmentsFrom]
  | case2 tokens start c cs stretch span ih =>
    rw [List.append_assoc] at ih
    rw [segmentsFrom]
    simp only [Stretch.read_edge h]
    exact congrArg _ ih

def endsUnterminated (source : String) : Bool :=
  (segments source).getLast?.any fun segment => segment.stretch.isUnterminated

def separator : String := "\n;\n"

/-- The line end, the semicolon and the other line end are read one by one, and the second source
from then on as if it stood alone. -/
theorem segmentsFrom_separator (before : List Token) (start : Nat) (cs : List Char) :
    ∃ (line mark line' : Segment) (start' : Nat),
      segmentsFrom before start ('\n' :: ';' :: '\n' :: cs) =
        [line, mark, line'] ++ segmentsFrom [] start' cs ∧
      line.stretch = .blank '\n' ∧ mark.stretch = .symbol .semicolon [';'] ∧
      line'.stretch = .blank '\n' := by
  have hblank : ∀ tokens rest, (Stretch.blank '\n').Reads tokens rest :=
    fun _ _ => .blank rfl
  have hmark : ∀ tokens rest, (Stretch.symbol .semicolon [';']).Reads tokens rest :=
    fun _ _ => .single (by decide)
  have hline := segmentsFrom_of_reads (hblank before (';' :: '\n' :: cs)) start
  have hsemicolon := fun start => segmentsFrom_of_reads (hmark before ('\n' :: cs)) start
  have hline' := fun tokens start => segmentsFrom_of_reads (hblank tokens cs) start
  simp only [Stretch.text, Stretch.tokens, List.cons_append, List.nil_append, List.reverse_nil,
    List.reverse_cons] at hline hsemicolon hline'
  rw [hline, hsemicolon, hline', ← List.nil_append (Token.plain _ _ _ :: before),
    segmentsFrom_edge rfl]
  exact ⟨_, _, _, _, rfl, rfl, rfl, rfl⟩

theorem segments_separated {first : String} (hend : endsUnterminated first = false)
    (second : String) : ∃ (line mark line' : Segment) (start : Nat),
      segments (first ++ separator ++ second) =
        segments first ++ ([line, mark, line'] ++ segmentsFrom [] start second.toList) ∧
      line.stretch = .blank '\n' ∧ mark.stretch = .symbol .semicolon [';'] ∧
      line'.stretch = .blank '\n' := by
  have hmore : (separator ++ second).toList = '\n' :: ';' :: '\n' :: second.toList := by
    rw [String.toList_append]
    rfl
  have hlast : ∀ last ∈ (segments first).getLast?, ∀ before,
      last.stretch.Reads before [] → last.stretch.Reads before (separator ++ second).toList := by
    intro last hlast before hreads
    have hterminated : last.stretch.isUnterminated = false := by
      simpa [endsUnterminated, Option.mem_def.mp hlast] using hend
    rw [hmore]
    exact hreads.before_newline hterminated _
  obtain ⟨line, mark, line', start, hsegments, hstretches⟩ := segmentsFrom_separator
    (behind [] (segments first)) (byteSize first.toList) second.toList
  refine ⟨line, mark, line', start, ?_, hstretches⟩
  rw [String.append_assoc, segments_append hlast, hmore, hsegments]

def tokens (source : String) : List Token :=
  (segments source).flatMap Segment.tokens

theorem tokenize_eq_ok_iff {source : String} {all : List Token} : tokenize source = .ok all ↔
    straysOf (segments source) = [] ∧
      all = tokens source ++ [Token.endOfFile (byteSize source.toList)] := by
  rw [← map_character_unrecognized?, List.map_eq_nil_iff, tokenize]
  split
  case h_1 hnone => simp only [hnone, true_and, Except.ok.injEq, tokens, eq_comm]
  case h_2 hsome =>
    constructor
    · intro h
      cases h
    · intro h
      exact absurd h.1 hsome

theorem tokenize_eq_error_iff {source : String} {errors : List Unrecognized} :
    tokenize source = .error errors ↔
      straysOf (segments source) ≠ [] ∧
        errors = (segments source).filterMap Segment.unrecognized? := by
  rw [← map_character_unrecognized?, ne_eq, List.map_eq_nil_iff, tokenize]
  split
  case h_1 hnone =>
    constructor
    · intro h
      cases h
    · intro h
      exact absurd hnone h.1
  case h_2 hsome =>
    constructor
    · intro h
      exact ⟨hsome, (Except.error.inj h).symm⟩
    · intro h
      rw [h.2]

/-- Tokens that look like the given ones still do so with an end mark behind both. -/
theorem exists_tokenize_content {source : String} {told : List Token} (size : Nat)
    (hstrays : straysOf (segments source) = [])
    (htokens : (tokens source).map Token.content = told.map Token.content) :
    ∃ all, tokenize source = .ok all ∧
      all.map Token.content = (told ++ [Token.endOfFile size]).map Token.content := by
  refine ⟨_, tokenize_eq_ok_iff.mpr ⟨hstrays, rfl⟩, ?_⟩
  rw [List.map_append, List.map_append, htokens, List.map_singleton, List.map_singleton,
    Token.content_endOfFile, Token.content_endOfFile]

/-- What each stretch keeps true of the tokens is true of all tokens of a source. -/
theorem forall_mem_tokens {P : Token → Prop}
    (hstep : ∀ {before : List Token} {s : Stretch} {rest : List Char}, s.Reads before rest →
      (∀ token ∈ before, P token) → ∀ span, ∀ token ∈ s.tokens span, P token)
    (source : String) : ∀ token ∈ tokens source, P token := by
  intro token hmem
  refine (scans_segmentsFrom [] 0 source.toList).1.all hstep (by simp) token ?_
  rw [behind, List.append_nil, List.mem_reverse]
  exact hmem

theorem kind_ne_of_mem_tokens (source : String) :
    ∀ token ∈ tokens source, token.kind ≠ .endOfFile := by
  refine forall_mem_tokens ?_ source
  intro before s rest hreads _ span token hmem
  rcases hreads.kind_of_mem_tokens span with ⟨quote, raw, closed, rfl⟩ | hkind
  · obtain rfl := List.mem_singleton.mp hmem
    simp
  · exact (hkind token hmem).2

/-- Two sources apart have the tokens of the one, the semicolon, and tokens that say what those of
the other say. -/
theorem tokenize_separated {first second : String} (hfirst : straysOf (segments first) = [])
    (hsecond : straysOf (segments second) = []) (hend : endsUnterminated first = false) :
    ∃ (semicolon : Token) (more : List Token) (size : Nat), semicolon.kind = .semicolon ∧
      more.map Token.lexeme = (tokens second).map Token.lexeme ∧
      tokenize (first ++ separator ++ second) =
        .ok (tokens first ++ semicolon :: more ++ [Token.endOfFile size]) := by
  obtain ⟨line, mark, line', start, hsegments, hline, hmark, hline'⟩ :=
    segments_separated hend second
  have halike : Alike (segmentsFrom [] start second.toList) (segments second) :=
    segmentsFrom_alike rfl start 0 second.toList
  refine ⟨.plain .semicolon ";" mark.span, (segmentsFrom [] start second.toList).flatMap
    Segment.tokens, byteSize (first ++ separator ++ second).toList, rfl, ?_,
    tokenize_eq_ok_iff.mpr ⟨?_, ?_⟩⟩
  · rw [tokens, map_lexeme_flatMap_tokens, map_lexeme_flatMap_tokens, halike.lexemes_eq]
  · have hmarks : straysOf [line, mark, line'] = [] := by
      simp [straysOf, Stretch.stray?, hline, hmark, hline']
    rw [hsegments, straysOf_append, straysOf_append, hfirst, hmarks, halike.strays_eq, hsecond]
    rfl
  · have hmarks : [line, mark, line'].flatMap Segment.tokens =
        [.plain .semicolon ";" mark.span] := by
      simp [Segment.tokens, Stretch.tokens, hline, hmark, hline']
    rw [tokens, tokens, hsegments, List.flatMap_append, List.flatMap_append, hmarks]
    rfl

end Source
end Script
