import Mathlib.Data.List.Forall2
import Script.Proofs.Token.Spelling

namespace Script

namespace Stretch

theorem decode_cons {quote c : Char} {cs : List Char} (h : c ≠ '\\') :
    decode quote (c :: cs) = c :: decode quote cs := by
  rw [decode]
  · exact fun hc _ => h hc
  · exact fun _ _ hc _ => h hc

/-- Between quotes a character can be written as it is, unless it would end the text or start an
escape, or as an escape that stands for it. -/
def Conveys (quote c : Char) (written : List Char) : Prop :=
  written = [c] ∧ c ≠ quote ∧ c ≠ '\\' ∨ ∃ d, written = ['\\', d] ∧ unescape quote d = [c]

section Write

variable {quote : Char} {cs : List Char}

/-- Characters that are each written in some way, perhaps the same one in different ways, are read
back. -/
theorem decode_flatten {written : List (List Char)} (h : List.Forall₂ (Conveys quote) cs written) :
    decode quote written.flatten = cs := by
  induction h with
  | nil => rfl
  | @cons c w cs written hc hrest ih =>
    rw [List.flatten_cons]
    rcases hc with ⟨rfl, -, hbackslash⟩ | ⟨d, rfl, hunescape⟩
    · rw [List.singleton_append, decode_cons hbackslash, ih]
    · rw [List.cons_append, List.singleton_append, decode, hunescape, ih]
      rfl

/-- The first quote behind them ends the text. -/
theorem rawBody_flatten (hquote : quote ≠ '\\') {written : List (List Char)}
    (h : List.Forall₂ (Conveys quote) cs written) (more : List Char) :
    rawBody quote (written.flatten ++ quote :: more) = (written.flatten, true) := by
  induction h with
  | nil => exact (rawBody_cons hquote).trans (if_pos rfl)
  | @cons c w cs written hc hrest ih =>
    rw [List.flatten_cons]
    rcases hc with ⟨rfl, hne, hbackslash⟩ | ⟨d, rfl, -⟩
    · rw [List.singleton_append, List.cons_append, rawBody_cons hbackslash, if_neg hne, ih]
    · simp only [List.cons_append, List.nil_append, rawBody, ih]

theorem forall₂_conveys {write : Char → List Char} (h : ∀ c ∈ cs, Conveys quote c (write c)) :
    List.Forall₂ (Conveys quote) cs (cs.map write) :=
  List.forall₂_map_right_iff.mpr (List.forall₂_same.mpr h)

end Write

def encode (quote : Char) (cs : List Char) : List Char :=
  cs.flatMap fun c => if c = quote ∨ c = '\\' then ['\\', c] else [c]

theorem conveys_encode (c : Char) :
    Conveys '"' c (if c = '"' ∨ c = '\\' then ['\\', c] else [c]) := by
  split
  case isTrue hc =>
    refine .inr ⟨c, rfl, ?_⟩
    rcases hc with rfl | rfl <;> decide
  case isFalse hc => exact .inl ⟨rfl, not_or.mp hc⟩

end Stretch

namespace Lexeme

def written (lexeme : Lexeme) : String :=
  if lexeme.kind = .string then
    String.ofList ('"' :: Stretch.encode '"' lexeme.text.toList ++ ['"'])
  else lexeme.text

/-- Does the lexeme mean itself behind what was said before? A numeral takes the minus sign before
it unless that sign has an operand on its left. -/
structure Stands (before : List Lexeme) (lexeme : Lexeme) : Prop where
  numeral : lexeme.kind = .number → lexeme.text.toList.head? = some '-' →
    Source.closesOperand before = false
  minus : lexeme = ⟨.operator, "-"⟩ → Source.closesOperand before = true

end Lexeme

namespace Source

variable {before : List Lexeme} {rest : List Char}

/-- A text between quotes, with each character written in some way that is read back. -/
theorem spells_quoted {text : String} {write : Char → List Char}
    (h : ∀ c ∈ text.toList, Stretch.Conveys '"' c (write c)) :
    Spells before ('"' :: text.toList.flatMap write ++ ['"']) [⟨.string, text⟩] rest := by
  have hwritten := Stretch.forall₂_conveys h
  have hreads : ∀ tokens : List Token, tokens.map Token.lexeme = before →
      (Stretch.quoted '"' (text.toList.flatMap write) true).Reads tokens rest := by
    intro _ _
    rw [List.flatMap_def]
    exact .quoted (.inl rfl) (Stretch.rawBody_flatten (by decide) hwritten)
  have hdecode : Stretch.decode '"' (text.toList.flatMap write) = text.toList := by
    rw [List.flatMap_def]
    exact Stretch.decode_flatten hwritten
  have hspells := spells_of_reads _ hreads rfl
  simpa [Stretch.text, Stretch.lexemes, Stretch.tokens, hdecode, Token.lexeme] using hspells

variable (hrest : ∀ c ∈ rest.head?, c = ' ')

include hrest

/-- The kinds that are written in one way only. -/
theorem spells_spelling {kind : Kind} {text : String} (hspelling : kind.spelling? = some text)
    (hend : kind ≠ .endOfFile) : Spells before text.toList [⟨kind, text⟩] rest := by
  have hblank : ∀ c ∈ rest.head?, Stretch.isBlank c = true := fun c hc => by rw [hrest c hc]; rfl
  have hword : Stretch.lexemes (.word text.toList) = [⟨kind, text⟩] →
      (∀ c ∈ text.toList, Text.isAlphabetic c = true) → text.toList ≠ [] →
      Spells before text.toList [⟨kind, text⟩] rest := by
    intro hlexemes hletters hne
    rw [← hlexemes]
    exact spells_apart (.word text.toList) (fun _ _ => .word hne hletters (by simp)) rfl rfl hblank
  have hsymbol : (∀ tokens, (Stretch.symbol kind text.toList).Reads tokens []) →
      Spells before text.toList [⟨kind, text⟩] rest := by
    intro hreads
    have h : Spells before _ _ rest :=
      spells_apart (.symbol kind text.toList) (fun tokens _ => hreads tokens) rfl rfl hblank
    simpa [Stretch.text, Stretch.lexemes, Stretch.tokens] using h
  have hpair : (∃ entry ∈ Stretch.pairs, kind = entry.2.2.1 ∧
      text.toList = [entry.1, entry.2.1]) → Spells before text.toList [⟨kind, text⟩] rest := by
    intro h
    obtain ⟨entry, hmem, hkind, htext⟩ := h
    refine hsymbol (fun tokens => ?_)
    rw [hkind, htext]
    exact .pair hmem
  have halone : (∃ entry ∈ Stretch.pairs, kind = entry.2.2.2 ∧ text.toList = [entry.1]) →
      Spells before text.toList [⟨kind, text⟩] rest := by
    intro h
    obtain ⟨entry, hmem, hkind, htext⟩ := h
    refine hsymbol (fun tokens => ?_)
    rw [hkind, htext]
    exact .alone hmem (by simp)
  -- Each kind is a word, a single symbol, a pair, or the first of a pair alone.
  cases kind with
  | letWord | constWord | funcWord | ifWord | elseWord | forWord =>
    obtain rfl := Option.some.inj hspelling
    exact hword (by decide) (List.all_eq_true.mp (by decide)) (by decide)
  | comma | dot | colon | semicolon | openParen | closeParen | openBrace | closeBrace | openBracket
  | closeBracket | bar =>
    obtain rfl := Option.some.inj hspelling
    exact hsymbol (fun _ => .single (by decide))
  | equalsCompare | notEqualsCompare | doubleAmpersand | lesserEquals | greaterEquals =>
    obtain rfl := Option.some.inj hspelling
    exact hpair (by decide)
  | equals | exclamation | ampersand | lesser | greater =>
    obtain rfl := Option.some.inj hspelling
    exact halone (by decide)
  | arrow =>
    obtain rfl := Option.some.inj hspelling
    exact hsymbol (fun _ => .arrow)
  | endOfFile => exact absurd rfl hend
  | number | string | identifier | operator => simp [Kind.spelling?] at hspelling

theorem spells_written {lexeme : Lexeme} (hfits : lexeme.Fits) (hend : lexeme.kind ≠ .endOfFile)
    (hstands : lexeme.Stands before) : Spells before lexeme.written.toList [lexeme] rest := by
  obtain ⟨kind, text⟩ := lexeme
  have hblank : ∀ c ∈ rest.head?, Stretch.isBlank c = true := fun c hc => by rw [hrest c hc]; rfl
  cases hspelling : kind.spelling? with
  | some text' =>
    obtain rfl : text = text' := hfits.spelling_eq hspelling
    have hstring : kind ≠ .string := by
      rintro rfl
      simp [Kind.spelling?] at hspelling
    rw [Lexeme.written, if_neg hstring]
    exact spells_spelling hrest hspelling hend
  | none =>
    cases kind with
    | number =>
      exact spells_number hfits (hstands.numeral rfl) (fun c hc => by rw [hrest c hc]; decide)
    | string =>
      rw [Lexeme.written, if_pos rfl, String.toList_ofList, Stretch.encode]
      exact spells_quoted fun c _ => Stretch.conveys_encode c
    | identifier => exact spells_name hfits (fun c hc => by rw [hrest c hc]; decide)
    | operator =>
      have hupdater : ∀ c ∈ Stretch.updaters, text = String.singleton c →
          Spells before text.toList [⟨.operator, text⟩] rest := by
        intro c hc htext
        rw [htext, String.toList_singleton]
        refine spells_operator hc ?_ hblank
        intro hminus
        exact hstands.minus (by rw [htext, hminus]; rfl)
      have hremainder : text = "%" → Spells before text.toList [⟨.operator, text⟩] rest := by
        rintro rfl
        exact spells_single (by decide : ('%', Kind.operator) ∈ Stretch.singles)
      simp only [Lexeme.Fits, List.mem_cons, List.not_mem_nil, or_false] at hfits
      rcases hfits with htext | htext | htext | htext | htext
      · exact hupdater '+' (by decide) htext
      · exact hupdater '-' (by decide) htext
      · exact hupdater '*' (by decide) htext
      · exact hupdater '/' (by decide) htext
      · exact hremainder htext
    | _ => simp [Kind.spelling?] at hspelling

end Source

namespace Lexeme

def Standing : List Lexeme → List Lexeme → Prop
  | _, [] => True
  | before, lexeme :: rest => lexeme.Stands before ∧ Standing (lexeme :: before) rest

theorem standing_append {before ls ms : List Lexeme} : Standing before (ls ++ ms) ↔
    Standing before ls ∧ Standing (ls.reverse ++ before) ms := by
  induction ls generalizing before with
  | nil => simp [Standing]
  | cons l ls ih => simp [Standing, ih, and_assoc]

def writeAll (lexemes : List Lexeme) : String :=
  " ".intercalate (lexemes.map written)

theorem toList_writeAll_cons (l l' : Lexeme) (ls : List Lexeme) :
    (writeAll (l :: l' :: ls)).toList =
      l.written.toList ++ ([' '] ++ (writeAll (l' :: ls)).toList) := by
  simp [writeAll, String.intercalate_cons_cons]

end Lexeme

namespace Source

theorem spells_writeAll {before ls : List Lexeme} (hfits : ∀ l ∈ ls, l.Fits)
    (hend : ∀ l ∈ ls, l.kind ≠ .endOfFile) (hstanding : Lexeme.Standing before ls) :
    Spells before (Lexeme.writeAll ls).toList ls [] := by
  induction ls generalizing before with
  | nil => exact Spells.nil
  | cons l ls ih =>
    have hl : ∀ rest : List Char, (∀ c ∈ rest.head?, c = ' ') →
        Spells before l.written.toList [l] rest := fun rest hrest =>
      spells_written hrest (hfits l (by simp)) (hend l (by simp)) hstanding.1
    have hls := ih (fun l hmem => hfits l (by simp [hmem])) (fun l hmem => hend l (by simp [hmem]))
      hstanding.2
    cases ls with
    | nil => simpa [Lexeme.writeAll] using hl [] (by simp)
    | cons l' ls =>
      rw [Lexeme.toList_writeAll_cons]
      have hblank : Stretch.isBlank ' ' = true := by decide
      exact (hl _ (by simp)).append ((spells_blank hblank).append hls)

/-- What is written out is read back. -/
theorem lexemes_writeAll {ls : List Lexeme} (hfits : ∀ l ∈ ls, l.Fits)
    (hend : ∀ l ∈ ls, l.kind ≠ .endOfFile) (hstanding : Lexeme.Standing [] ls) :
    lexemes (Lexeme.writeAll ls) = .ok (ls ++ [⟨.endOfFile, "EndOfFile"⟩]) := by
  have h := (spells_writeAll hfits hend hstanding).lexemes_eq
  rwa [String.ofList_toList] at h

end Source
end Script
