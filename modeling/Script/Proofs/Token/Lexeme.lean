import Script.Proofs.Token.View

namespace Script

/-- What a token says, wherever it stands. -/
structure Lexeme where
  kind : Kind
  text : String
  deriving DecidableEq, Repr

def Token.lexeme (token : Token) : Lexeme :=
  ⟨token.kind, token.text⟩

@[simp] theorem Token.lexeme_plain (kind : Kind) (text : String) (span : Span) :
    (Token.plain kind text span).lexeme = ⟨kind, text⟩ := rfl

namespace Stretch

def lexemes (stretch : Stretch) : List Lexeme :=
  (stretch.tokens (Span.point 0)).map Token.lexeme

theorem map_lexeme_tokens (stretch : Stretch) (span : Span) :
    (stretch.tokens span).map Token.lexeme = stretch.lexemes := by
  cases stretch with
  | compound target operator doubled => cases doubled <;> simp [lexemes, tokens]
  | _ => rfl

theorem lexemes_compound (target : List Token) (operator : Char) (doubled : Bool) :
    (compound target operator doubled).lexemes =
      ⟨.equals, "="⟩ :: (target.map Token.lexeme ++ ⟨.operator, String.singleton operator⟩ ::
        if doubled then [⟨.number, "1"⟩] else []) := by
  cases doubled <;> simp [lexemes, tokens]

def stray? : Stretch → Option Char
  | unknown c => some c
  | _ => none

theorem Resembles.stray?_eq {α : Type} {view : Token → α} {s s' : Stretch}
    (h : Resembles view s s') : s'.stray? = s.stray? := by
  cases h <;> rfl

end Stretch

namespace Source

def lexemesOf (segments : List Segment) : List Lexeme :=
  segments.flatMap fun segment => segment.stretch.lexemes

def straysOf (segments : List Segment) : List Char :=
  segments.filterMap fun segment => segment.stretch.stray?

theorem straysOf_append (xs ys : List Segment) :
    straysOf (xs ++ ys) = straysOf xs ++ straysOf ys :=
  List.filterMap_append

theorem straysOf_cons (segment : Segment) (segments : List Segment) :
    straysOf (segment :: segments) = segment.stretch.stray?.toList ++ straysOf segments := by
  cases hstray : segment.stretch.stray? <;> simp [straysOf, hstray]

def lexemes (source : String) : Except (List Char) (List Lexeme) :=
  match tokenize source with
  | .ok tokens => .ok (tokens.map Token.lexeme)
  | .error errors => .error (errors.map Unrecognized.character)

theorem map_lexeme_flatMap_tokens (segments : List Segment) :
    (segments.flatMap Segment.tokens).map Token.lexeme = lexemesOf segments := by
  rw [lexemesOf, List.map_flatMap]
  congr 1
  funext segment
  exact segment.stretch.map_lexeme_tokens segment.span

theorem map_character_unrecognized? (segments : List Segment) :
    (segments.filterMap Segment.unrecognized?).map Unrecognized.character = straysOf segments := by
  rw [straysOf, List.map_filterMap]
  congr 1
  funext segment
  cases hs : segment.stretch <;> simp [Segment.unrecognized?, Stretch.stray?, hs]

theorem lexemes_eq (source : String) : lexemes source =
    if straysOf (segments source) = [] then
      .ok (lexemesOf (segments source) ++ [⟨.endOfFile, "EndOfFile"⟩])
    else .error (straysOf (segments source)) := by
  rw [← map_character_unrecognized?, ← map_lexeme_flatMap_tokens, lexemes, tokenize]
  split
  case h_1 tokens heq =>
    split at heq
    case h_1 hnone =>
      obtain rfl := Except.ok.inj heq
      simp [hnone, Token.endOfFile]
    case h_2 => simp at heq
  case h_2 errors heq =>
    split at heq
    case h_1 => simp at heq
    case h_2 hsome =>
      obtain rfl := Except.error.inj heq
      rw [if_neg fun hnone => hsome (List.map_eq_nil_iff.mp hnone)]

structure Alike (xs ys : List Segment) : Prop where
  lexemes_eq : lexemesOf xs = lexemesOf ys
  strays_eq : straysOf xs = straysOf ys

theorem Alike.append {xs xs' ys ys' : List Segment} (hx : Alike xs xs') (hy : Alike ys ys') :
    Alike (xs ++ ys) (xs' ++ ys') := by
  constructor
  · simp only [lexemesOf, List.flatMap_append]
    exact congrArg₂ _ hx.lexemes_eq hy.lexemes_eq
  · simp only [straysOf, List.filterMap_append]
    exact congrArg₂ _ hx.strays_eq hy.strays_eq

theorem lexemes_congr {source source' : String} (h : Alike (segments source) (segments source')) :
    lexemes source = lexemes source' := by
  rw [lexemes_eq, lexemes_eq, h.lexemes_eq, h.strays_eq]

end Source

theorem Token.tellsKind_lexeme : TellsKind lexeme :=
  fun _ _ h => congrArg Lexeme.kind h

theorem Token.map_kind_eq {xs ys : List Token} (h : xs.map lexeme = ys.map lexeme) :
    xs.map kind = ys.map kind :=
  map_kind_of_view tellsKind_lexeme h

/-- Behind tokens that say the same, the same characters are read and say the same. -/
theorem Stretch.Reads.alike {before before' : List Token} {s : Stretch} {rest : List Char}
    (h : s.Reads before rest) (hbefore : before.map Token.lexeme = before'.map Token.lexeme) :
    ∃ s' : Stretch, s'.Reads before' rest ∧ s'.text = s.text ∧ s'.lexemes = s.lexemes ∧
      s'.stray? = s.stray? := by
  obtain ⟨s', hreads, hresembles⟩ := h.of_view Token.tellsKind_lexeme hbefore
  exact ⟨s', hreads, hresembles.text_eq, hresembles.map_tokens _, hresembles.stray?_eq⟩

namespace Source

theorem Scans.alike {before before' : List Token} {start : Nat} {segments : List Segment}
    (h : Scans [] before start segments)
    (hbefore : before.map Token.lexeme = before'.map Token.lexeme) (start' : Nat) :
    Alike segments (segmentsFrom before' start' (textOf segments)) := by
  induction segments generalizing before before' start start' with
  | nil =>
    rw [textOf_nil, segmentsFrom]
    exact ⟨rfl, rfl⟩
  | cons segment segments ih =>
    obtain ⟨-, hreads, hrest⟩ := h
    rw [List.append_nil] at hreads
    obtain ⟨s', hreads', htext, hlexemes, hstray⟩ := hreads.alike hbefore
    rw [textOf_cons, ← htext, segmentsFrom_of_reads hreads']
    have hhead : Alike [segment] [⟨⟨start', start' + byteSize s'.text⟩, s'⟩] := by
      constructor
      · simp [lexemesOf, hlexemes]
      · simp [straysOf, List.filterMap_cons, hstray]
    refine hhead.append (ih hrest ?_ _)
    rw [List.map_append, List.map_append, List.map_reverse, List.map_reverse, Segment.tokens,
      Stretch.map_lexeme_tokens, Stretch.map_lexeme_tokens, hlexemes, hbefore]

/-- Behind tokens that say the same, a text is read alike, from whatever place on. -/
theorem segmentsFrom_alike {before before' : List Token}
    (h : before.map Token.lexeme = before'.map Token.lexeme) (start start' : Nat)
    (cs : List Char) : Alike (segmentsFrom before start cs) (segmentsFrom before' start' cs) := by
  obtain ⟨hscans, htext⟩ := scans_segmentsFrom before start cs
  have halike := hscans.alike h start'
  rwa [htext] at halike

end Source

/-- The text of the tokens of a kind, where all of them have the same. -/
def Kind.spelling? : Kind → Option String
  | letWord => some "let"
  | constWord => some "const"
  | funcWord => some "func"
  | ifWord => some "if"
  | elseWord => some "else"
  | forWord => some "for"
  | equals => some "="
  | comma => some ","
  | dot => some "."
  | colon => some ":"
  | semicolon => some ";"
  | openParen => some "("
  | closeParen => some ")"
  | openBrace => some "\x7b"
  | closeBrace => some "\x7d"
  | openBracket => some "["
  | closeBracket => some "]"
  | greater => some ">"
  | greaterEquals => some ">="
  | lesser => some "<"
  | lesserEquals => some "<="
  | equalsCompare => some "=="
  | notEqualsCompare => some "!="
  | exclamation => some "!"
  | doubleAmpersand => some "&&"
  | ampersand => some "&"
  | bar => some "|"
  | arrow => some "->"
  | endOfFile => some "EndOfFile"
  | number | string | identifier | operator => none

structure IsName (text : String) : Prop where
  ne_nil : text.toList ≠ []
  letters : ∀ c ∈ text.toList, Text.isAlphabetic c = true
  not_keyword : Kind.keyword? text = none

instance (text : String) : Decidable (IsName text) :=
  decidable_of_iff (text.toList ≠ [] ∧ text.toList.all Text.isAlphabetic = true ∧
      Kind.keyword? text = none)
    ⟨fun h => ⟨h.1, List.all_eq_true.mp h.2.1, h.2.2⟩,
      fun h => ⟨h.ne_nil, List.all_eq_true.mpr h.letters, h.not_keyword⟩⟩

def IsNumber (text : List Char) : Prop :=
  Stretch.IsNumeral text ∨ ∃ digits, text = '-' :: digits ∧ Stretch.IsNumeral digits

def Lexeme.Fits (lexeme : Lexeme) : Prop :=
  match lexeme.kind with
  | .number => IsNumber lexeme.text.toList
  | .string => True
  | .identifier => IsName lexeme.text
  | .operator => lexeme.text ∈ ["+", "-", "*", "/", "%"]
  | kind => kind.spelling? = some lexeme.text

theorem Lexeme.Fits.spelling_eq {lexeme : Lexeme} {text : String} (h : lexeme.Fits)
    (hspelling : lexeme.kind.spelling? = some text) : lexeme.text = text := by
  obtain ⟨kind, text'⟩ := lexeme
  cases kind <;> simp_all [Fits, Kind.spelling?]

theorem Kind.keyword?_cases {word : String} {kind : Kind} (h : keyword? word = some kind) :
    Lexeme.Fits ⟨kind, word⟩ := by
  unfold keyword? at h
  split_ifs at h with h₁ h₂ h₃ h₄ h₅ h₆ <;>
  · obtain rfl := Option.some.inj h
    subst word
    rfl

/-- A word is a name or one of the keywords. -/
theorem Kind.keyword?_getD_ne (word : String) {kind : Kind}
    (h : kind ∉ [identifier, letWord, constWord, funcWord, ifWord, elseWord, forWord]) :
    (keyword? word).getD .identifier ≠ kind := by
  rintro rfl
  revert h
  unfold keyword?
  split_ifs <;> decide

namespace Stretch

theorem fits_of_mem_singles :
    ∀ entry ∈ singles, Lexeme.Fits ⟨entry.2, String.ofList [entry.1]⟩ := by
  intro entry hmem
  simp only [singles, List.mem_cons, List.not_mem_nil, or_false] at hmem
  rcases hmem with rfl | rfl | rfl | rfl | rfl | rfl | rfl | rfl | rfl | rfl | rfl | rfl <;>
    simp [Lexeme.Fits, Kind.spelling?]

theorem fits_of_mem_pairs : ∀ entry ∈ pairs,
    Lexeme.Fits ⟨entry.2.2.1, String.ofList [entry.1, entry.2.1]⟩ ∧
      Lexeme.Fits ⟨entry.2.2.2, String.ofList [entry.1]⟩ := by
  intro entry hmem
  simp only [pairs, List.mem_cons, List.not_mem_nil, or_false] at hmem
  rcases hmem with rfl | rfl | rfl | rfl | rfl <;> exact ⟨rfl, rfl⟩

theorem fits_of_mem_updaters {c : Char} (h : c ∈ updaters) :
    Lexeme.Fits ⟨.operator, String.singleton c⟩ := by
  simp only [updaters, List.mem_cons, List.not_mem_nil, or_false] at h
  rcases h with rfl | rfl | rfl | rfl <;> simp [Lexeme.Fits]

theorem Reads.fits {before : List Token} {s : Stretch} {rest : List Char} (h : Reads before s rest)
    (hbefore : ∀ token ∈ before, token.lexeme.Fits) : ∀ lexeme ∈ s.lexemes, lexeme.Fits := by
  intro lexeme hmem
  cases h with
  | number htext _ =>
    obtain rfl := List.mem_singleton.mp hmem
    exact .inl (by simpa using htext)
  | negative _ htext _ =>
    obtain rfl := List.mem_singleton.mp hmem
    exact .inr ⟨_, by simp, htext⟩
  | quoted | openQuoted =>
    obtain rfl := List.mem_singleton.mp hmem
    trivial
  | @word text _ hne htext _ =>
    obtain rfl := List.mem_singleton.mp hmem
    -- A keyword fits its own kind, any other word is a name.
    cases hword : Kind.keyword? (String.ofList text) with
    | none => exact ⟨by simpa using hne, by simpa using htext, hword⟩
    | some kind => exact Kind.keyword?_cases hword
  | arrow =>
    obtain rfl := List.mem_singleton.mp hmem
    rfl
  | @compound target operator doubled _ hoperator _ htarget =>
    have hone : Lexeme.Fits ⟨.number, "1"⟩ := .inl (.whole (by simp) (by simp))
    rw [lexemes_compound] at hmem
    simp only [List.mem_cons, List.mem_append, List.mem_map] at hmem
    rcases hmem with rfl | ⟨token, htoken, rfl⟩ | rfl | hlast
    · rfl
    · -- The target is written out again from the tokens before.
      exact hbefore token (Token.mem_of_pathBefore? htarget token htoken)
    · exact fits_of_mem_updaters hoperator
    · cases doubled with
      | true =>
        obtain rfl := List.mem_singleton.mp hlast
        exact hone
      | false => simp at hlast
  | negation =>
    have hzero : Lexeme.Fits ⟨.number, "0"⟩ := .inl (.whole (by simp) (by simp))
    have hminus : Lexeme.Fits ⟨.operator, "-"⟩ := by simp [Lexeme.Fits]
    rcases List.mem_cons.mp hmem with rfl | hmem
    · exact hzero
    · obtain rfl := List.mem_singleton.mp hmem
      exact hminus
  | operator hc =>
    obtain rfl := List.mem_singleton.mp hmem
    exact fits_of_mem_updaters hc
  | single hc =>
    obtain rfl := List.mem_singleton.mp hmem
    exact fits_of_mem_singles _ hc
  | pair hc =>
    obtain rfl := List.mem_singleton.mp hmem
    exact (fits_of_mem_pairs _ hc).1
  | alone hc _ =>
    obtain rfl := List.mem_singleton.mp hmem
    exact (fits_of_mem_pairs _ hc).2
  | _ => simp [lexemes, tokens] at hmem

theorem Reads.fits_tokens {before : List Token} {s : Stretch} {rest : List Char}
    (h : Reads before s rest) (hbefore : ∀ token ∈ before, token.lexeme.Fits) (span : Span) :
    ∀ token ∈ s.tokens span, token.lexeme.Fits := by
  intro token hmem
  refine h.fits hbefore token.lexeme ?_
  rw [← s.map_lexeme_tokens span]
  exact List.mem_map_of_mem hmem

end Stretch

/-- What each stretch keeps true of the tokens is true of all that are read. -/
theorem Source.Scans.all {P : Token → Prop}
    (hstep : ∀ {before : List Token} {s : Stretch} {rest : List Char}, s.Reads before rest →
      (∀ token ∈ before, P token) → ∀ span, ∀ token ∈ s.tokens span, P token)
    {rest : List Char} {before : List Token} {start : Nat} {segments : List Segment}
    (h : Scans rest before start segments) (hbefore : ∀ token ∈ before, P token) :
    ∀ token ∈ behind before segments, P token := by
  induction segments generalizing before start with
  | nil => exact hbefore
  | cons segment segments ih =>
    obtain ⟨-, hreads, hrest⟩ := h
    rw [behind_cons]
    refine ih hrest ?_
    intro token hmem
    rcases List.mem_append.mp hmem with hmem | hmem
    · exact hstep hreads hbefore segment.span token (List.mem_reverse.mp hmem)
    · exact hbefore token hmem

theorem Source.Scans.fits {rest : List Char} {before : List Token} {start : Nat}
    {segments : List Segment} (h : Scans rest before start segments)
    (hbefore : ∀ token ∈ before, token.lexeme.Fits) :
    ∀ token ∈ behind before segments, token.lexeme.Fits :=
  h.all Stretch.Reads.fits_tokens hbefore

end Script
