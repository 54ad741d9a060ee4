import Script.Proofs.Token.Spelling

namespace Script

def Token.joined (tokens : List Token) : String :=
  String.join (tokens.map Token.text)

theorem Token.toList_joined (tokens : List Token) :
    (joined tokens).toList = tokens.flatMap fun token => token.text.toList := by
  rw [joined, String.toList_join, List.flatMap_map]

/-- An update of a target, written out with the target once more. -/
def Token.expansion (target : List Token) (operator : Char) (doubled : Bool) : String :=
  " = " ++ joined target ++ " " ++ String.singleton operator ++ if doubled then " 1 " else " "

theorem Token.toList_expansion (target : List Token) (operator : Char) (doubled : Bool) :
    (expansion target operator doubled).toList = [' ', '=', ' '] ++ ((joined target).toList ++
      ([' ', operator, ' '] ++ if doubled then ['1', ' '] else [])) := by
  cases doubled <;> simp [expansion]

namespace Source

def endsOpen (source : String) : Bool :=
  (segments source).getLast?.any fun segment => segment.stretch.isOpen

section Replay

variable {before : List Lexeme} {rest : List Char} {token : Token}

theorem spells_identifier (hfits : token.lexeme.Fits) (hkind : token.kind = .identifier)
    (hrest : ∀ c ∈ rest.head?, Text.isAlphabetic c = false) :
    Spells before token.text.toList [token.lexeme] rest := by
  obtain ⟨kind, text, raw, span⟩ := token
  obtain rfl : kind = .identifier := hkind
  exact spells_name hfits hrest

theorem spells_mark {c : Char} {kind : Kind} (hkind : token.kind = kind)
    (htext : token.text = String.singleton c) (hc : (c, kind) ∈ Stretch.singles) :
    Spells before token.text.toList [token.lexeme] rest := by
  rw [Token.lexeme, hkind, htext, String.toList_singleton]
  exact spells_single hc

theorem spells_index (hfits : token.lexeme.Fits)
    (hkind : token.kind = .number ∨ token.kind = .identifier)
    (hbefore : closesOperand before = false) :
    Spells before token.text.toList [token.lexeme] (']' :: rest) := by
  rcases hkind with hkind | hkind
  · obtain ⟨kind, text, raw, span⟩ := token
    obtain rfl : kind = .number := hkind
    refine spells_number hfits (fun _ => hbefore) ?_
    intro c hc
    obtain rfl := Option.some.inj hc
    decide
  · refine spells_identifier hfits hkind ?_
    intro c hc
    obtain rfl := Option.some.inj hc
    decide

/-- A target is spelled by the texts of its tokens. -/
theorem spells_path {path : List Token} (hpath : Token.IsPath path)
    (hfits : ∀ token ∈ path, token.lexeme.Fits)
    (hrest : ∀ c ∈ rest.head?, Text.isAlphabetic c = false) :
    Spells before (path.flatMap fun token => token.text.toList) (path.map Token.lexeme) rest := by
  induction hpath generalizing rest with
  | @name name hname =>
    have h : Spells before _ _ rest := spells_identifier (hfits name (by simp)) hname hrest
    simpa using h
  | @member path dot name hpath hdot hname ih =>
    have hpoint : dot.text = String.singleton '.' :=
      (hfits dot (by simp)).spelling_eq (congrArg Kind.spelling? hdot)
    have hlink : Spells ((path.map Token.lexeme).reverse ++ before) _ _ rest :=
      (spells_mark hdot hpoint (by decide)).append
        (spells_identifier (hfits name (by simp)) hname hrest)
    have hmark : ∀ c ∈ (dot.text.toList ++ name.text.toList ++ rest).head?,
        Text.isAlphabetic c = false := by
      simp only [hpoint, String.toList_singleton, List.cons_append, List.head?_cons,
        Option.mem_some_iff, forall_eq']
      decide
    have hall := (ih (fun token hmem => hfits token (by simp [hmem])) hmark).append hlink
    simpa using hall
  | @index path opener index closer hpath hopener hindex hcloser ih =>
    have hleft : opener.text = String.singleton '[' :=
      (hfits opener (by simp)).spelling_eq (congrArg Kind.spelling? hopener)
    have hright : closer.text = String.singleton ']' :=
      (hfits closer (by simp)).spelling_eq (congrArg Kind.spelling? hcloser)
    have hinside : Spells (opener.lexeme :: ((path.map Token.lexeme).reverse ++ before))
        index.text.toList [index.lexeme] (closer.text.toList ++ rest) := by
      rw [hright]
      -- Behind the opening bracket a minus belongs to the number.
      refine spells_index (hfits index (by simp)) hindex ?_
      simp [closesOperand, Token.lexeme, hopener, Kind.endsOperand]
    have hlink : Spells ((path.map Token.lexeme).reverse ++ before) _ _ rest :=
      (spells_mark hopener hleft (by decide)).append
        (hinside.append (spells_mark hcloser hright (by decide)))
    have hmark : ∀ c ∈ (opener.text.toList ++ (index.text.toList ++ closer.text.toList) ++
        rest).head?, Text.isAlphabetic c = false := by
      simp only [hleft, String.toList_singleton, List.cons_append, List.head?_cons,
        Option.mem_some_iff, forall_eq']
      decide
    have hall := (ih (fun token hmem => hfits token (by simp [hmem])) hmark).append hlink
    simpa using hall

end Replay

end Source

/-- An update sign behind a stretch that ends a target, or that says nothing, leaves it alone. -/
theorem Stretch.Reads.before_updater {before : List Token} {s : Stretch} {c : Char}
    (h : s.Reads before []) (hopen : s.isOpen = false) (hstray : s.stray? = none)
    (hlast : ∀ lexeme ∈ s.lexemes.getLast?,
      lexeme.kind = .identifier ∨ lexeme.kind = .closeBracket)
    (hc : c ∈ Stretch.updaters) (rest : List Char) : s.Reads before (c :: rest) := by
  cases h with
  | blank hc => exact .blank hc
  | lineComment => simp [Stretch.isOpen] at hopen
  | blockComment hclosed hbody => exact .blockComment hclosed hbody
  | openBlock hnot hbody => simp [Stretch.isOpen, hnot] at hopen
  | openQuoted => simp [Stretch.isOpen] at hopen
  | word hne htext =>
    refine .word hne htext ?_
    intro d hd
    obtain rfl := Option.some.inj hd
    exact (Stretch.updaters_plain _ hc).2.2.2.2
  | single hmem => exact .single hmem
  | pair hmem => exact .pair hmem
  | arrow => exact .arrow
  | compound hoperator hdoubled htarget => exact .compound hoperator hdoubled htarget
  | quoted hquote hraw => exact .quoted hquote hraw
  | unknown => simp [Stretch.stray?] at hstray
  | number | negative | negation | operator =>
    simp [Stretch.lexemes, Stretch.tokens, Token.lexeme, Token.plain] at hlast
  | alone hmem =>
    have hkind : ∀ entry ∈ Stretch.pairs, ¬(entry.2.2.2 = Kind.identifier ∨
      entry.2.2.2 = Kind.closeBracket) := by decide
    exact absurd (hlast _ rfl) (hkind _ hmem)

namespace Source

theorem straysOf_of_tokenize {source : String} {tokens : List Token}
    (h : tokenize source = .ok tokens) : straysOf (segments source) = [] ∧
      tokens.dropLast = (segments source).flatMap Segment.tokens := by
  rw [← map_character_unrecognized?]
  rw [tokenize] at h
  split at h
  case h_1 hnone =>
    obtain rfl := Except.ok.inj h
    simp [hnone]
  case h_2 => simp at h

/-- What the last segment of a source says before an update. -/
theorem lexeme_of_getLast? {source : String} {last : Segment} {path : List Token}
    (hlast : last ∈ (segments source).getLast?)
    (hpath : Token.pathBefore? (behind [] (segments source)) = some path) :
    ∀ lexeme ∈ last.stretch.lexemes.getLast?,
      lexeme.kind = .identifier ∨ lexeme.kind = .closeBracket := by
  intro lexeme hmem
  obtain ⟨token, more, hbehind, hkind⟩ := Token.exists_last_of_pathBefore? hpath
  obtain ⟨first, hfirst⟩ := List.getLast?_eq_some_iff.mp hlast
  have hhead := congrArg (fun tokens => (tokens.map Token.lexeme).head?) hbehind
  rw [hfirst] at hhead
  simp only [map_lexeme_behind, lexemesOf, List.flatMap_append, List.flatMap_singleton,
    List.reverse_append, List.map_nil, List.append_nil, List.head?_append, List.head?_reverse,
    Option.mem_def.mp hmem, Option.some_or, List.map_cons, List.head?_cons] at hhead
  obtain rfl := Option.some.inj hhead
  exact hkind

/-- Reading goes on behind a source that ends with a target as if the target had just been read. -/
theorem segments_append {source more : String}
    (h : ∀ last ∈ (segments source).getLast?, ∀ before,
      last.stretch.Reads before [] → last.stretch.Reads before more.toList) :
    segments (source ++ more) = segments source ++
      segmentsFrom (behind [] (segments source)) (byteSize source.toList) more.toList := by
  obtain ⟨hscans, htext⟩ := scans_segmentsFrom [] 0 source.toList
  have heq := (hscans.extend h).segmentsFrom_eq
  rw [htext, Nat.zero_add] at heq
  rw [segments, String.toList_append, heq]
  rfl

theorem spells_compound {tokens path : List Token} {operator : Char} {doubled : Bool}
    {rest : List Char} (hoperator : operator ∈ Stretch.updaters)
    (hdoubled : doubled = true → operator = '+' ∨ operator = '-')
    (hpath : Token.pathBefore? tokens = some path) :
    Spells (tokens.map Token.lexeme) [operator, if doubled then operator else '=']
      (Stretch.compound path operator doubled).lexemes rest := by
  intro tokens' start hbefore
  obtain ⟨path', hpath', hsame⟩ := Token.pathBefore?_of_view Token.tellsKind_lexeme hbefore.symm
    hpath
  let stretch : Stretch := .compound path' operator doubled
  refine ⟨[⟨⟨start, start + byteSize stretch.text⟩, stretch⟩],
    ⟨rfl, .compound hoperator hdoubled hpath', trivial⟩, rfl, ?_, rfl⟩
  simp only [lexemesOf, List.flatMap_singleton, stretch, Stretch.lexemes_compound, hsame]

theorem closesOperand_path {path : List Token} (hpath : Token.IsPath path)
    (before : List Lexeme) : closesOperand ((path.map Token.lexeme).reverse ++ before) = true := by
  cases hpath with
  | name hname => simp [closesOperand, Token.lexeme, hname, Kind.endsOperand]
  | member _ _ hname => simp [closesOperand, Token.lexeme, hname, Kind.endsOperand]
  | index _ _ _ hcloser => simp [closesOperand, Token.lexeme, hcloser, Kind.endsOperand]

/-- The expansion of an update spells what the update says. -/
theorem spells_expansion {path : List Token} {operator : Char} {before : List Lexeme}
    {rest : List Char} (hoperator : operator ∈ Stretch.updaters) (hpath : Token.IsPath path)
    (hfits : ∀ token ∈ path, token.lexeme.Fits) (doubled : Bool) :
    Spells before (Token.expansion path operator doubled).toList
      (Stretch.compound path operator doubled).lexemes rest := by
  have hblank : Stretch.isBlank ' ' = true := by decide
  have hequals : ∀ before rest, Spells before [' ', '=', ' '] [⟨.equals, "="⟩] rest := by
    intro before rest
    exact (spells_blank hblank).append
      ((spells_alone (by decide : ('=', '=', Kind.equalsCompare, Kind.equals) ∈ Stretch.pairs)
        (by simp)).append (spells_blank hblank))
  have htarget : ∀ rest, Spells (⟨.equals, "="⟩ :: before) (Token.joined path).toList
      (path.map Token.lexeme) (' ' :: rest) := by
    intro rest
    rw [Token.toList_joined]
    refine spells_path hpath hfits ?_
    simp only [List.head?_cons, Option.mem_some_iff, forall_eq']
    decide
  have hsign : ∀ rest, Spells ((path.map Token.lexeme).reverse ++ ⟨.equals, "="⟩ :: before)
      [' ', operator, ' '] [⟨.operator, String.singleton operator⟩] rest := by
    intro rest
    refine (spells_blank hblank).append ((spells_operator hoperator ?_ ?_).append
      (spells_blank hblank))
    · -- The target closes an operand, so a minus behind it is an operator.
      intro _
      exact closesOperand_path hpath _
    · simpa using hblank
  have hone : ∀ before, Spells before (if doubled then ['1', ' '] else [])
      (if doubled then [⟨.number, "1"⟩] else []) rest := by
    intro before
    cases doubled with
    | false => exact Spells.nil
    | true =>
      have hnumber : IsNumber "1".toList := .inl (.whole (by decide) (by simp))
      exact (spells_number hnumber (by simp) (by simp)).append (spells_blank hblank)
  have hbehind := (hsign _).append (hone _)
  have hall := (hequals before _).append ((htarget _).append hbehind)
  rw [Stretch.lexemes_compound, Token.toList_expansion]
  simpa using hall

theorem endsOpen_eq_false {source : String} (h : endsOpen source = false) :
    ∀ last ∈ (segments source).getLast?, last.stretch.isOpen = false := by
  intro last hlast
  simpa [endsOpen, Option.mem_def.mp hlast] using h

theorem stray?_of_mem {segments : List Segment} (h : straysOf segments = []) :
    ∀ segment ∈ segments, segment.stretch.stray? = none := by
  simpa [straysOf] using h

section Target

variable {source : String} {tokens path : List Token} (htokens : tokenize source = .ok tokens)
  (hopen : endsOpen source = false) (hpath : Token.assignablePath? tokens.dropLast = some path)

include htokens hpath

theorem pathBefore?_behind : Token.pathBefore? (behind [] (segments source)) = some path := by
  rw [behind, List.append_nil, ← (straysOf_of_tokenize htokens).2]
  exact hpath

theorem fits_of_mem_path : ∀ token ∈ path, token.lexeme.Fits := by
  have hbehind := pathBefore?_behind htokens hpath
  have hscans := (scans_segmentsFrom [] 0 source.toList).1
  intro token hmem
  exact hscans.fits (by simp) token (Token.mem_of_pathBefore? hbehind token hmem)

include hopen

/-- A blank or an update sign behind a target leaves the source before it alone. -/
theorem segments_behind_target {more : String} {c : Char} {cs : List Char}
    (hmore : more.toList = c :: cs) (hc : Stretch.isBlank c = true ∨ c ∈ Stretch.updaters) :
    segments (source ++ more) = segments source ++
      segmentsFrom (behind [] (segments source)) (byteSize source.toList) more.toList := by
  have hbehind := pathBefore?_behind htokens hpath
  have hstrays := stray?_of_mem (straysOf_of_tokenize htokens).1
  apply segments_append
  intro last hlast before hreads
  have hclosed := endsOpen_eq_false hopen last hlast
  rw [hmore]
  rcases hc with hblank | hupdater
  · exact hreads.before_blank hclosed hblank cs
  · exact hreads.before_updater hclosed (hstrays last (List.mem_of_getLast? hlast))
      (lexeme_of_getLast? hlast hbehind) hupdater cs

/-- Two ways to go on behind a target that spell the same leave the rest to be read alike. -/
theorem lexemes_behind_target {xs ys rest : String} {c d : Char} {cs ds : List Char}
    {ls : List Lexeme}
    (hx : Spells ((behind [] (segments source)).map Token.lexeme) xs.toList ls rest.toList)
    (hy : Spells ((behind [] (segments source)).map Token.lexeme) ys.toList ls rest.toList)
    (hxs : xs.toList = c :: cs) (hc : Stretch.isBlank c = true ∨ c ∈ Stretch.updaters)
    (hys : ys.toList = d :: ds) (hd : Stretch.isBlank d = true ∨ d ∈ Stretch.updaters) :
    lexemes (source ++ (xs ++ rest)) = lexemes (source ++ (ys ++ rest)) := by
  have hxs' : (xs ++ rest).toList = c :: (cs ++ rest.toList) := by simp [hxs]
  have hys' : (ys ++ rest).toList = d :: (ds ++ rest.toList) := by simp [hys]
  apply lexemes_congr
  rw [segments_behind_target htokens hopen hpath hxs' hc,
    segments_behind_target htokens hopen hpath hys' hd, String.toList_append, String.toList_append]
  exact Alike.append ⟨rfl, rfl⟩ (hx.alike hy _ _)

/-- An update behind a target reads as its expansion. -/
theorem lexemes_expansion {operator : Char} {doubled : Bool}
    (hoperator : operator ∈ Stretch.updaters)
    (hdoubled : doubled = true → operator = '+' ∨ operator = '-') (rest : String) :
    lexemes (source ++ String.ofList [operator, if doubled then operator else '='] ++ rest) =
      lexemes (source ++ Token.expansion path operator doubled ++ rest) := by
  have hbehind := pathBefore?_behind htokens hpath
  have hupdate : Spells ((behind [] (segments source)).map Token.lexeme)
      (String.ofList [operator, if doubled then operator else '=']).toList
      (Stretch.compound path operator doubled).lexemes rest.toList := by
    rw [String.toList_ofList]
    exact spells_compound hoperator hdoubled hbehind
  have hexpansion : Spells ((behind [] (segments source)).map Token.lexeme)
      (Token.expansion path operator doubled).toList
      (Stretch.compound path operator doubled).lexemes rest.toList :=
    spells_expansion hoperator (Token.isPath_of_pathBefore? hbehind)
      (fits_of_mem_path htokens hpath) doubled
  rw [String.append_assoc, String.append_assoc]
  exact lexemes_behind_target htokens hopen hpath hupdate hexpansion String.toList_ofList
    (.inr hoperator) (Token.toList_expansion path operator doubled) (.inl rfl)

/-- An update is read as its expansion, whatever follows it. -/
theorem lexemes_update (rest : String) :
    (∀ operator ∈ ['+', '-', '*', '/'],
      lexemes (source ++ String.ofList [operator, '='] ++ rest) =
        lexemes (source ++ (" = " ++ Token.joined path ++ " " ++ String.singleton operator ++
          " ") ++ rest)) ∧
    ∀ operator ∈ ['+', '-'],
      lexemes (source ++ String.ofList [operator, operator] ++ rest) =
        lexemes (source ++ (" = " ++ Token.joined path ++ " " ++ String.singleton operator ++
          " 1 ") ++ rest) := by
  constructor
  · intro operator hoperator
    have hplain : false = true → operator = '+' ∨ operator = '-' := by simp
    exact lexemes_expansion htokens hopen hpath hoperator hplain rest
  · intro operator hoperator
    have hdoubled : true = true → operator = '+' ∨ operator = '-' := by simpa using hoperator
    have hupdater : operator ∈ Stretch.updaters :=
      (by decide : ['+', '-'] ⊆ Stretch.updaters) hoperator
    exact lexemes_expansion htokens hopen hpath hupdater hdoubled rest

end Target

/-- A target with a member and a negative index, in front of a sign and another update. -/
theorem lexemes_update_indexed : ∃ path : List Token,
    tokenize "a.b[-1]" = .ok (path ++ [Token.endOfFile 7]) ∧ endsOpen "a.b[-1]" = false ∧
    Token.assignablePath? (path ++ [Token.endOfFile 7]).dropLast = some path ∧
    lexemes ("a.b[-1]" ++ "+=" ++ "-c--;") = lexemes ("a.b[-1]" ++ " = a.b[-1] + " ++ "-c--;") := by
  let path : List Token := [.plain .identifier "a" ⟨0, 1⟩, .plain .dot "." ⟨1, 2⟩,
    .plain .identifier "b" ⟨2, 3⟩, .plain .openBracket "[" ⟨3, 4⟩, .plain .number "-1" ⟨4, 6⟩,
    .plain .closeBracket "]" ⟨6, 7⟩]
  have htokens : tokenize "a.b[-1]" = .ok (path ++ [Token.endOfFile 7]) := by decide +kernel
  have hopen : endsOpen "a.b[-1]" = false := by decide +kernel
  have hpath : Token.assignablePath? (path ++ [Token.endOfFile 7]).dropLast = some path := by
    decide +kernel
  exact ⟨path, htokens, hopen, hpath,
    (lexemes_update htokens hopen hpath "-c--;").1 '+' (by decide)⟩

end Source
end Script
