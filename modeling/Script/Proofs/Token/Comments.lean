import Script.Proofs.Token.Gaps
import Script.Proofs.Token.Partition
import Script.Proofs.Token.Separation

namespace Script

inductive Surroundings where
  | code
  | lineComment
  | blockComment
  | string (quote : Char)

namespace Source

/-- The text with a space in place of each comment. A line comment does not take the end of its
line along, and a block comment ends with its first closing mark. -/
def uncomment : Surroundings → List Char → List Char
  | _, [] => []
  | .code, '/' :: '/' :: cs => ' ' :: uncomment .lineComment cs
  | .code, '/' :: '*' :: cs => ' ' :: uncomment .blockComment cs
  | .code, c :: cs => c :: uncomment (if c = '"' ∨ c = '\'' then .string c else .code) cs
  | .lineComment, c :: cs =>
    if c = '\n' then c :: uncomment .code cs else uncomment .lineComment cs
  | .blockComment, '*' :: '/' :: cs => uncomment .code cs
  | .blockComment, _ :: cs => uncomment .blockComment cs
  | .string quote, '\\' :: c :: cs => '\\' :: c :: uncomment (.string quote) cs
  | .string quote, c :: cs => c :: uncomment (if c = quote then .code else .string quote) cs

def uncommented (source : String) : String :=
  String.ofList (uncomment .code source.toList)

theorem uncomment_code_cons {c : Char} {cs : List Char}
    (h : c = '/' → ∀ d ∈ cs.head?, d ≠ '/' ∧ d ≠ '*') :
    uncomment .code (c :: cs) =
      c :: uncomment (if c = '"' ∨ c = '\'' then .string c else .code) cs := by
  rw [uncomment]
  · rintro more rfl rfl
    exact (h rfl _ rfl).1 rfl
  · rintro more rfl rfl
    exact (h rfl _ rfl).2 rfl

def IsPlain (c : Char) : Prop :=
  c ≠ '/' ∧ c ≠ '"' ∧ c ≠ '\''

instance (c : Char) : Decidable (IsPlain c) :=
  inferInstanceAs (Decidable (_ ∧ _))

theorem isPlain_singleton {c : Char} (h : IsPlain c) : ∀ d ∈ [c], IsPlain d :=
  List.forall_mem_singleton.mpr h

/-- Characters that start neither a string nor a comment stay. -/
theorem uncomment_code_append {run : List Char} (h : ∀ c ∈ run, IsPlain c) (rest : List Char) :
    uncomment .code (run ++ rest) = run ++ uncomment .code rest := by
  induction run with
  | nil => rfl
  | cons c run ih =>
    rw [List.forall_mem_cons] at h
    obtain ⟨⟨hslash, hdouble, hsingle⟩, hrun⟩ := h
    rw [List.cons_append, uncomment_code_cons (fun hc => absurd hc hslash),
      if_neg (not_or.mpr ⟨hdouble, hsingle⟩), ih hrun, List.cons_append]

theorem uncomment_lineComment_append {body rest : List Char} (hbody : ∀ c ∈ body, c ≠ '\n')
    (hrest : ∀ c ∈ rest.head?, c = '\n') :
    uncomment .lineComment (body ++ rest) = uncomment .code rest := by
  induction body with
  | nil =>
    cases rest with
    | nil => rfl
    | cons c rest =>
      obtain rfl := hrest c rfl
      exact (uncomment_code_cons (by simp)).symm
  | cons c body ih =>
    rw [List.forall_mem_cons] at hbody
    rw [List.cons_append, uncomment, if_neg hbody.1, ih hbody.2]

theorem uncomment_blockComment (cs : List Char) :
    uncomment .blockComment cs = uncomment .code (cs.drop (Stretch.blockBody cs).length) := by
  fun_induction Stretch.blockBody cs with
  | case1 => rfl
  | case2 rest => rfl
  | case3 c cs hmark ih =>
    rw [uncomment, ih]
    · rfl
    · exact fun more hc hmore => hmark more hc hmore

theorem uncomment_string_cons {quote c : Char} {cs : List Char} (h : c ≠ '\\') :
    uncomment (.string quote) (c :: cs) =
      c :: uncomment (if c = quote then .code else .string quote) cs := by
  rw [uncomment]
  exact fun _ _ hc _ => h hc

theorem uncomment_string_append {quote : Char} {inside : List Char}
    (h : Piece.IsInside quote inside) (rest : List Char) :
    uncomment (.string quote) (inside ++ rest) = inside ++ uncomment (.string quote) rest := by
  induction h with
  | nil => rfl
  | plain hquote hescape hrest ih =>
    rw [List.cons_append, uncomment_string_cons hescape, if_neg hquote, ih, List.cons_append]
  | escape hrest ih => rw [List.cons_append, List.cons_append, uncomment, ih]; rfl

def commentGap (s : Stretch) : Nat :=
  if s.isComment then 1 else 0

theorem filled_commentGap (s : Stretch) :
    s.filled commentGap = if s.isComment then [' '] else s.text := by
  cases hs : s.isComment <;> simp [Stretch.filled, commentGap, hs]

/-- The characters of a class are plain if it has no slash and no quotes. -/
theorem isPlain_of_class {p : Char → Bool} (h : p '/' = false ∧ p '"' = false ∧ p '\'' = false)
    {c : Char} (hc : p c = true) : IsPlain c := by
  obtain ⟨hslash, hdouble, hsingle⟩ := h
  refine ⟨?_, ?_, ?_⟩ <;>
  · rintro rfl
    simp_all

theorem isPlain_of_isNumeral {text : List Char} (h : Stretch.IsNumeral text) :
    ∀ c ∈ text, IsPlain c := by
  have hdigit : ∀ c : Char, c.isDigit = true → IsPlain c :=
    fun _ hc => isPlain_of_class (p := Char.isDigit) (by decide) hc
  cases h with
  | whole _ hdigits => exact fun c hc => hdigit c (hdigits c hc)
  | fraction _ hdigits hplaces =>
    intro c hc
    rcases List.mem_append.mp hc with hc | hc
    · exact hdigit c (hdigits c hc)
    · rcases List.mem_cons.mp hc with rfl | hc
      · decide
      · exact hdigit c (hplaces c hc)

theorem isPlain_of_mem_pairs : ∀ entry ∈ Stretch.pairs, IsPlain entry.1 ∧ IsPlain entry.2.1 := by
  decide

theorem isPlain_of_mem_singles : ∀ entry ∈ Stretch.singles, IsPlain entry.1 := by
  decide

variable {before : List Token} {s : Stretch} {rest : List Char}

/-- A sign stays, since it starts no comment. -/
theorem uncomment_code_sign {c : Char} (hc : c ∈ Stretch.updaters)
    (hslash : c = '/' → ∀ d ∈ rest.head?, d ≠ '/' ∧ d ≠ '*') :
    uncomment .code (c :: rest) = c :: uncomment .code rest := by
  obtain ⟨-, -, hdouble, hsingle, -⟩ := Stretch.updaters_plain c hc
  rw [uncomment_code_cons hslash, if_neg (not_or.mpr ⟨hdouble, hsingle⟩)]

theorem uncomment_code_quoted {quote : Char} {raw : List Char} (hquote : quote = '"' ∨ quote = '\'')
    (hraw : Piece.IsInside quote raw) :
    uncomment .code (quote :: raw ++ quote :: rest) =
      quote :: raw ++ quote :: uncomment .code rest := by
  have hbackslash : quote ≠ '\\' := by
    rcases hquote with rfl | rfl <;> decide
  have hslash : quote ≠ '/' := by
    rcases hquote with rfl | rfl <;> decide
  rw [List.cons_append, uncomment_code_cons (fun hc => absurd hc hslash), if_pos hquote,
    uncomment_string_append hraw, uncomment_string_cons hbackslash, if_pos rfl, List.cons_append]

theorem uncomment_code_openQuoted {quote : Char} {raw : List Char}
    (hquote : quote = '"' ∨ quote = '\'') (hraw : Piece.IsCutOff quote raw) :
    uncomment .code (quote :: raw) = quote :: raw := by
  have hslash : quote ≠ '/' := by
    rcases hquote with rfl | rfl <;> decide
  rw [uncomment_code_cons (fun hc => absurd hc hslash), if_pos hquote]
  rcases hraw with hinside | ⟨inside, hinside, rfl⟩
  · have hall := uncomment_string_append hinside []
    rw [List.append_nil, uncomment, List.append_nil] at hall
    rw [hall]
  · rw [uncomment_string_append hinside]
    rfl

/-- Of a stretch that is read, what stays is all of it or, for a comment, one space. -/
theorem uncomment_code_text (h : s.Reads before rest) :
    uncomment .code (s.text ++ rest) = s.filled commentGap ++ uncomment .code rest := by
  rw [filled_commentGap]
  cases h with
  | lineComment hbody hrest =>
    exact congrArg (' ' :: ·) (uncomment_lineComment_append hbody hrest)
  | @blockComment body _ hclosed hbody =>
    have hblock := uncomment_blockComment (body ++ rest)
    rw [hbody, List.drop_left] at hblock
    exact congrArg (' ' :: ·) hblock
  | @openBlock body hopen hbody =>
    have hblock := uncomment_blockComment body
    rw [hbody, List.drop_length] at hblock
    rw [List.append_nil]
    exact congrArg (' ' :: ·) hblock
  | @quoted quote raw _ hquote hraw =>
    have hinside := (Piece.isInside_of_rawBody (hraw [])).resolve_right (by simp)
    simpa [Stretch.text, Stretch.isComment] using uncomment_code_quoted hquote hinside
  | @openQuoted quote raw hquote hraw =>
    have hcut : Piece.IsCutOff quote raw := (Piece.isInside_of_rawBody hraw).imp_right And.right
    have hall := uncomment_code_openQuoted hquote hcut
    simpa [Stretch.text, Stretch.isComment, uncomment] using hall
  | @compound target operator doubled _ hoperator hdoubled htarget =>
    cases doubled with
    | true =>
      have hplain : IsPlain operator := by
        rcases hdoubled rfl with rfl | rfl <;> decide
      exact uncomment_code_append (List.forall_mem_cons.mpr ⟨hplain, isPlain_singleton hplain⟩) rest
    | false =>
      -- The slash of `/=` is followed by neither mark that would start a comment.
      have hequals := uncomment_code_append (isPlain_singleton (by decide : IsPlain '=')) rest
      have hslash : operator = '/' → ∀ d ∈ ('=' :: rest).head?, d ≠ '/' ∧ d ≠ '*' := by simp
      exact (uncomment_code_sign hoperator hslash).trans (congrArg (operator :: ·) hequals)
  | operator hc hslash => exact uncomment_code_sign hc hslash
  | blank hc =>
    exact uncomment_code_append (isPlain_singleton (isPlain_of_class (by decide) hc)) rest
  | number htext => exact uncomment_code_append (isPlain_of_isNumeral htext) rest
  | negative _ htext =>
    have hall := List.forall_mem_cons.mpr ⟨(by decide : IsPlain '-'), isPlain_of_isNumeral htext⟩
    exact uncomment_code_append hall rest
  | word _ htext =>
    exact uncomment_code_append (fun c hc => isPlain_of_class (by decide) (htext c hc)) rest
  | arrow =>
    have hall := List.forall_mem_cons.mpr
      ⟨(by decide : IsPlain '-'), isPlain_singleton (by decide : IsPlain '>')⟩
    exact uncomment_code_append hall rest
  | negation => exact uncomment_code_append (isPlain_singleton (by decide : IsPlain '-')) rest
  | single hc => exact uncomment_code_append (isPlain_singleton (isPlain_of_mem_singles _ hc)) rest
  | pair hc =>
    obtain ⟨hfirst, hsecond⟩ := isPlain_of_mem_pairs _ hc
    have hall := List.forall_mem_cons.mpr ⟨hfirst, isPlain_singleton hsecond⟩
    exact uncomment_code_append hall rest
  | alone hc => exact uncomment_code_append (isPlain_singleton (isPlain_of_mem_pairs _ hc).1) rest
  | unknown hmark =>
    exact uncomment_code_append (isPlain_singleton (isPlain_of_class (by decide) hmark)) rest

theorem Scans.uncomment_eq {start : Nat} {segments : List Segment}
    (h : Scans [] before start segments) :
    uncomment .code (textOf segments) = filled commentGap segments := by
  induction segments generalizing before start with
  | nil => rfl
  | cons segment segments ih =>
    obtain ⟨-, hreads, hrest⟩ := h
    rw [List.append_nil] at hreads
    rw [textOf_cons, uncomment_code_text hreads, ih hrest, filled_cons]

/-- What tokens say does not depend on their places. -/
theorem map_content_tokens (s : Stretch) (span span' : Span) :
    (s.tokens span).map Token.content = (s.tokens span').map Token.content := by
  cases s with
  | compound target operator doubled =>
    cases doubled <;> simp [Stretch.tokens, Token.content, Token.plain]
  | _ => rfl

/-- A space in place of each comment. Positions move, so tokens are seen without their places. -/
def commentFilling : Filling (Kind × String × String) where
  gap := commentGap
  isMute s h := by
    apply Stretch.isMute_of_isComment
    by_contra hs
    exact h (if_neg hs)
  view := Token.content
  tellsKind := Token.tellsKind_content
  meets _ _ := True
  meets_next _ _ _ _ := trivial
  map_view s _ _ _ := map_content_tokens s _ _

theorem straysOf_filter_commentGap (segments : List Segment) :
    straysOf (segments.filter fun segment => commentGap segment.stretch = 0) =
      straysOf segments := by
  have hstray : ∀ s : Stretch, commentGap s ≠ 0 → s.stray? = none := by
    intro s hgap
    cases s with
    | unknown => exact absurd rfl hgap
    | _ => rfl
  induction segments with
  | nil => rfl
  | cons segment segments ih =>
    rw [List.filter_cons, straysOf_cons]
    split
    case isTrue => rw [straysOf_cons, ih]
    case isFalse hgap => rw [ih, hstray _ (by simpa using hgap)]; rfl

/-- The comments that reading skips are those of the text, and with a space in place of each of them
the source has tokens that say the same and are written the same, or the same characters cannot be
read. -/
theorem tokenize_uncommented (source : String) :
    (uncommented source).toList = (segments source).flatMap (fun segment =>
      if segment.stretch.isComment then [' '] else segment.stretch.text) ∧
    ((∃ tokens tokens', tokenize source = .ok tokens ∧ tokenize (uncommented source) = .ok tokens' ∧
        tokens'.map Token.content = tokens.map Token.content) ∨
      ∃ errors errors', tokenize source = .error errors ∧
        tokenize (uncommented source) = .error errors' ∧
        errors'.map Unrecognized.character = errors.map Unrecognized.character) := by
  obtain ⟨hscans, htext⟩ := scans_segmentsFrom [] 0 source.toList
  have huncomment := hscans.uncomment_eq
  rw [htext] at huncomment
  have hmeets : commentFilling.meets 0 0 := trivial
  obtain ⟨segments', hscans', htext', hview, hstrays⟩ :=
    hscans.exists_filled commentFilling rfl hmeets
  -- Reading the new text gives back the segments that were filled.
  have hsegments : segments (uncommented source) = segments' := by
    rw [uncommented, huncomment]
    exact htext' ▸ hscans'.segments_eq
  have hstrays' : straysOf segments' = straysOf (segments source) :=
    hstrays.trans (straysOf_filter_commentGap _)
  constructor
  · rw [uncommented, String.toList_ofList, huncomment, filled]
    simp only [filled_commentGap]
    rfl
  · by_cases hnone : straysOf (segments source) = []
    · left
      have hread : straysOf (segments (uncommented source)) = [] := by
        rw [hsegments, hstrays', hnone]
      have hcontent : (tokens (uncommented source)).map Token.content =
          (tokens source).map Token.content := by
        rw [tokens, hsegments]
        exact hview
      obtain ⟨tokens', htokens', hsame⟩ := exists_tokenize_content _ hread hcontent
      exact ⟨_, tokens', tokenize_eq_ok_iff.mpr ⟨hnone, rfl⟩, htokens', hsame⟩
    · right
      refine ⟨_, _, tokenize_eq_error_iff.mpr ⟨hnone, rfl⟩,
        tokenize_eq_error_iff.mpr ⟨by rwa [hsegments, hstrays'], rfl⟩, ?_⟩
      rw [map_character_unrecognized?, map_character_unrecognized?, hsegments, hstrays']

end Source
end Script
