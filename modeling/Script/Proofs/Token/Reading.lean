import Mathlib.Data.List.TakeWhile
import Script.Token.Source

namespace Script.Stretch

theorem takeWhile_append_run {p : Char → Bool} {run rest : List Char} (hrun : ∀ c ∈ run, p c = true)
    (hrest : ∀ c ∈ rest.head?, p c = false) : (run ++ rest).takeWhile p = run := by
  rw [List.takeWhile_append_of_pos hrun]
  cases rest with
  | nil => simp
  | cons c rest => simp [hrest c rfl]

theorem dropWhile_append_run {p : Char → Bool} {run rest : List Char} (hrun : ∀ c ∈ run, p c = true)
    (hrest : ∀ c ∈ rest.head?, p c = false) : (run ++ rest).dropWhile p = rest := by
  rw [List.dropWhile_append_of_pos hrun]
  cases rest with
  | nil => simp
  | cons c rest => simp [hrest c rfl]

theorem head?_dropWhile {p : Char → Bool} {cs : List Char} :
    ∀ c ∈ (cs.dropWhile p).head?, p c = false := by
  intro c hc
  have h := List.head?_dropWhile_not p cs
  rw [Option.mem_def.mp hc] at h
  simpa using h

inductive IsNumeral : List Char → Prop
  | whole {digits : List Char} (hne : digits ≠ []) (hdigits : ∀ c ∈ digits, c.isDigit = true) :
      IsNumeral digits
  | fraction {digits places : List Char} (hne : digits ≠ [])
      (hdigits : ∀ c ∈ digits, c.isDigit = true) (hplaces : ∀ c ∈ places, c.isDigit = true) :
      IsNumeral (digits ++ '.' :: places)

/-- No digit goes on with the numeral, and no point unless it has one. -/
def NumeralEnds (text : List Char) (next : Option Char) : Prop :=
  ∀ c ∈ next, c.isDigit = false ∧ (c = '.' → '.' ∈ text)

theorem IsNumeral.head_isDigit {text : List Char} (h : IsNumeral text) :
    ∃ c cs, text = c :: cs ∧ c.isDigit = true := by
  cases h with
  | whole hne hdigits =>
    obtain ⟨c, cs, rfl⟩ := List.exists_cons_of_ne_nil hne
    exact ⟨c, cs, rfl, hdigits c List.mem_cons_self⟩
  | @fraction _ places hne hdigits _ =>
    obtain ⟨c, cs, rfl⟩ := List.exists_cons_of_ne_nil hne
    exact ⟨c, cs ++ '.' :: places, rfl, hdigits c List.mem_cons_self⟩

theorem point_not_mem_digits {digits : List Char} (h : ∀ c ∈ digits, c.isDigit = true) :
    '.' ∉ digits := by
  intro hmem
  exact absurd (h '.' hmem) (by decide)

theorem numeral_append {text rest : List Char} (h : IsNumeral text)
    (hend : NumeralEnds text rest.head?) : numeral (text ++ rest) = text := by
  cases h with
  | whole hne hdigits =>
    have hrest : ∀ c ∈ rest.head?, c.isDigit = false := fun c hc => (hend c hc).1
    simp only [numeral, takeWhile_append_run hdigits hrest, dropWhile_append_run hdigits hrest]
    split
    case h_1 more =>
      exact absurd ((hend '.' rfl).2 rfl) (point_not_mem_digits hdigits)
    case h_2 => rfl
  | @fraction digits places hne hdigits hplaces =>
    have hrest : ∀ c ∈ rest.head?, c.isDigit = false := fun c hc => (hend c hc).1
    have hpoint : ∀ c ∈ ('.' :: (places ++ rest)).head?, c.isDigit = false := by
      intro c hc
      simp only [List.head?_cons, Option.mem_some_iff] at hc
      subst hc
      decide
    simp only [numeral, List.append_assoc, List.cons_append, takeWhile_append_run hdigits hpoint,
      dropWhile_append_run hdigits hpoint, takeWhile_append_run hplaces hrest]

/-- A text that starts with a digit splits into its numeral and what the numeral leaves. -/
theorem exists_numeral {c : Char} (cs : List Char) (hc : c.isDigit = true) :
    ∃ rest, numeral (c :: cs) ++ rest = c :: cs ∧ IsNumeral (numeral (c :: cs)) ∧
      NumeralEnds (numeral (c :: cs)) rest.head? := by
  have hwhole : ∀ d ∈ (c :: cs).takeWhile Char.isDigit, d.isDigit = true :=
    fun d hd => List.mem_takeWhile_imp hd
  have hne : (c :: cs).takeWhile Char.isDigit ≠ [] := by simp [hc]
  have hsplit := List.takeWhile_append_dropWhile (p := Char.isDigit) (l := c :: cs)
  have hhead : ∀ d ∈ ((c :: cs).dropWhile Char.isDigit).head?, d.isDigit = false := head?_dropWhile
  unfold numeral
  simp only
  split
  case h_1 more heq =>
    refine ⟨more.dropWhile Char.isDigit, ?_, ?_, ?_⟩
    · rw [heq] at hsplit
      simpa using hsplit
    · exact .fraction hne hwhole fun d hd => List.mem_takeWhile_imp hd
    · exact fun d hd => ⟨head?_dropWhile d hd, fun _ => by simp⟩
  case h_2 hpoint =>
    refine ⟨(c :: cs).dropWhile Char.isDigit, hsplit, .whole hne hwhole, ?_⟩
    intro d hd
    refine ⟨hhead d hd, ?_⟩
    rintro rfl
    -- the rest would start with a point, which the first case of the split takes
    obtain ⟨more, hmore⟩ := List.head?_eq_some_iff.mp (Option.mem_def.mp hd)
    exact absurd hmore (hpoint more)

theorem head?_blockBody (cs : List Char) : (blockBody cs).head? = cs.head? := by
  fun_cases blockBody cs <;> rfl

/-- One step of a comment body, when the closing mark does not start here. -/
theorem blockBody_cons {c : Char} {cs : List Char} (h : c = '*' → cs.head? ≠ some '/') :
    blockBody (c :: cs) = c :: blockBody cs := by
  rw [blockBody]
  rintro more rfl rfl
  exact h rfl rfl

theorem exists_blockBody (cs : List Char) :
    (∃ rest, blockBody cs ++ rest = cs ∧ ['*', '/'] <:+ blockBody cs) ∨ blockBody cs = cs := by
  fun_induction blockBody cs with
  | case1 => exact .inr rfl
  | case2 rest => exact .inl ⟨rest, rfl, List.suffix_refl _⟩
  | case3 c cs _ ih =>
    rcases ih with ⟨rest, hrest, hclosed⟩ | hopen
    · exact .inl ⟨rest, by simp [hrest], hclosed.trans (List.suffix_cons _ _)⟩
    · exact .inr (by rw [hopen])

/-- A comment that has its closing mark ends there, whatever follows. -/
theorem blockBody_append_of_closed {cs : List Char} (h : ['*', '/'] <:+ blockBody cs)
    (more : List Char) : blockBody (blockBody cs ++ more) = blockBody cs := by
  fun_induction blockBody cs with
  | case1 => simp at h
  | case2 rest => rfl
  | case3 c cs hmark ih =>
    have hstep : c = '*' → cs.head? ≠ some '/' := by
      rintro rfl hcs
      obtain ⟨more, rfl⟩ := List.head?_eq_some_iff.mp hcs
      exact hmark more rfl rfl
    have hbody : ['*', '/'] <:+ blockBody cs := by
      rcases List.suffix_cons_iff.mp h with heq | hsuffix
      · obtain ⟨hc, hcs⟩ := List.cons.inj heq
        refine absurd ?_ (hstep hc.symm)
        rw [← head?_blockBody, ← hcs]
        rfl
      · exact hsuffix
    rw [List.cons_append, blockBody_cons, ih hbody]
    intro hc
    rw [List.head?_append, head?_blockBody]
    have hne : cs ≠ [] := by
      rintro rfl
      simp [blockBody] at hbody
    obtain ⟨d, ds, rfl⟩ := List.exists_cons_of_ne_nil hne
    simpa using hstep hc

theorem rawBody_cons {quote c : Char} {cs : List Char} (h : c ≠ '\\') :
    rawBody quote (c :: cs) =
      if c = quote then ([], true) else (c :: (rawBody quote cs).1, (rawBody quote cs).2) := by
  rw [rawBody]
  · exact fun hc _ => h hc
  · exact fun _ _ hc _ => h hc

/-- A string that has its closing quote ends there, whatever follows. -/
theorem rawBody_closed {quote : Char} {cs raw : List Char} (h : rawBody quote cs = (raw, true)) :
    (∃ rest, raw ++ quote :: rest = cs) ∧
      ∀ more, rawBody quote (raw ++ quote :: more) = (raw, true) := by
  fun_induction rawBody quote cs generalizing raw with
  | case1 => simp at h
  | case2 => simp at h
  | case3 c cs body closed heq ih =>
    obtain ⟨rfl, rfl⟩ := Prod.mk.inj h
    obtain ⟨⟨rest, hrest⟩, hmore⟩ := ih heq
    exact ⟨⟨rest, by simp [hrest]⟩, fun more => by simp [rawBody, hmore more]⟩
  | case4 cs hlast hescape =>
    obtain ⟨rfl, -⟩ := Prod.mk.inj h
    refine ⟨⟨cs, rfl⟩, fun more => ?_⟩
    have hquote : quote ≠ '\\' := by
      rintro rfl
      cases cs with
      | nil => exact hlast rfl rfl
      | cons d ds => exact hescape d ds rfl rfl
    simp [rawBody_cons hquote]
  | case5 c cs hlast hescape hne body closed heq ih =>
    obtain ⟨rfl, rfl⟩ := Prod.mk.inj h
    obtain ⟨⟨rest, hrest⟩, hmore⟩ := ih heq
    refine ⟨⟨rest, by simp [hrest]⟩, fun more => ?_⟩
    have hc : c ≠ '\\' := by
      rintro rfl
      cases cs with
      | nil => exact hlast rfl rfl
      | cons d ds => exact hescape d ds rfl rfl
    simp [rawBody_cons hc, hne, hmore more]

/-- A string without a closing quote runs to the end of the text. -/
theorem rawBody_open {quote : Char} {cs raw : List Char} (h : rawBody quote cs = (raw, false)) :
    raw = cs := by
  fun_induction rawBody quote cs generalizing raw with
  | case1 => simpa using h.symm
  | case2 => simpa using h.symm
  | case3 c cs body closed heq ih =>
    obtain ⟨rfl, rfl⟩ := Prod.mk.inj h
    rw [ih heq]
  | case4 cs => simp at h
  | case5 c cs _ _ hne body closed heq ih =>
    obtain ⟨rfl, rfl⟩ := Prod.mk.inj h
    rw [ih heq]

theorem isDigit_eq_false_of_isAlphabetic {c : Char} (h : Text.isAlphabetic c = true) :
    c.isDigit = false := by
  rw [← Bool.not_eq_true]
  intro hdigit
  have hrange := Char.isDigit_iff_toNat.mp hdigit
  have hascii : c.toNat < 0x80 := lt_of_le_of_lt hrange.2 (by decide)
  rw [Text.isAlphabetic_of_ascii hascii] at h
  have hnine : c.toNat ≤ 57 := hrange.2
  rcases Bool.or_eq_true_iff.mp h with hupper | hlower
  · have hletter : 65 ≤ c.toNat := UInt32.le_iff_toNat_le.mp (of_decide_eq_true hupper).1
    omega
  · have hletter : 97 ≤ c.toNat :=
      UInt32.le_iff_toNat_le.mp (of_decide_eq_true (Bool.and_eq_true_iff.mp hlower).1)
    omega

def updaters : List Char := ['+', '-', '*', '/']

def isMark (c : Char) : Bool :=
  !isBlank c && !c.isDigit && c ≠ '"' && c ≠ '\'' && !Text.isAlphabetic c && c ∉ updaters

/-- `Reads before s rest`: behind the tokens `before`, a text that goes on with the characters of
`s` and then with `rest` is read as the stretch `s`. Of `rest` only the first character matters. -/
inductive Reads (before : List Token) : Stretch → List Char → Prop
  | blank {c : Char} {rest : List Char} (hc : isBlank c = true) : Reads before (.blank c) rest
  | lineComment {body rest : List Char} (hbody : ∀ c ∈ body, c ≠ '\n')
      (hrest : ∀ c ∈ rest.head?, c = '\n') : Reads before (.lineComment body) rest
  | blockComment {body rest : List Char} (hclosed : ['*', '/'] <:+ body)
      (hbody : ∀ more, blockBody (body ++ more) = body) : Reads before (.blockComment body) rest
  | openBlock {body : List Char} (hopen : ¬['*', '/'] <:+ body) (hbody : blockBody body = body) :
      Reads before (.blockComment body) []
  | number {text rest : List Char} (htext : IsNumeral text)
      (hrest : NumeralEnds text rest.head?) : Reads before (.number text) rest
  | negative {text rest : List Char} (hbefore : followsOperand before = false)
      (htext : IsNumeral text) (hrest : NumeralEnds text rest.head?) :
      Reads before (.number ('-' :: text)) rest
  | quoted {quote : Char} {raw rest : List Char} (hquote : quote = '"' ∨ quote = '\'')
      (hraw : ∀ more, rawBody quote (raw ++ quote :: more) = (raw, true)) :
      Reads before (.quoted quote raw true) rest
  | openQuoted {quote : Char} {raw : List Char} (hquote : quote = '"' ∨ quote = '\'')
      (hraw : rawBody quote raw = (raw, false)) : Reads before (.quoted quote raw false) []
  | word {text rest : List Char} (hne : text ≠ [])
      (htext : ∀ c ∈ text, Text.isAlphabetic c = true)
      (hrest : ∀ c ∈ rest.head?, Text.isAlphabetic c = false) : Reads before (.word text) rest
  | arrow {rest : List Char} : Reads before (.symbol .arrow ['-', '>']) rest
  | compound {target : List Token} {operator : Char} {doubled : Bool} {rest : List Char}
      (hoperator : operator ∈ updaters)
      (hdoubled : doubled = true → operator = '+' ∨ operator = '-')
      (htarget : Token.pathBefore? before = some target) :
      Reads before (.compound target operator doubled) rest
  | negation {rest : List Char} (hbefore : followsOperand before = false)
      (hrest : ∀ c ∈ rest.head?, c.isDigit = false ∧ c ≠ '>' ∧ c ≠ '-') :
      Reads before .negation rest
  | operator {c : Char} {rest : List Char} (hc : c ∈ updaters)
      (hslash : c = '/' → ∀ d ∈ rest.head?, d ≠ '/' ∧ d ≠ '*')
      (hminus : c = '-' → rest.head? ≠ some '>' ∧
        (rest.head? = some '-' ∨ followsOperand before = true))
      (htarget : rest.head? = some '=' ∨ rest.head? = some c ∧ (c = '+' ∨ c = '-') →
        Token.pathBefore? before = none) : Reads before (.symbol .operator [c]) rest
  | single {c : Char} {kind : Kind} {rest : List Char} (hc : (c, kind) ∈ singles) :
      Reads before (.symbol kind [c]) rest
  | pair {c second : Char} {paired alone : Kind} {rest : List Char}
      (hc : (c, second, paired, alone) ∈ pairs) : Reads before (.symbol paired [c, second]) rest
  | alone {c second : Char} {paired alone : Kind} {rest : List Char}
      (hc : (c, second, paired, alone) ∈ pairs) (hrest : rest.head? ≠ some second) :
      Reads before (.symbol alone [c]) rest
  | unknown {c : Char} {rest : List Char} (hmark : isMark c = true)
      (hsingle : singles.lookup c = none) (hpair : pairs.lookup c = none) :
      Reads before (.unknown c) rest

theorem isMark_of_mem_singles : ∀ entry ∈ singles, isMark entry.1 = true := by
  decide

theorem isMark_of_mem_pairs : ∀ entry ∈ pairs, isMark entry.1 = true := by
  decide

theorem read_of_isMark {before : List Token} {c : Char} {cs : List Char} (h : isMark c = true) :
    read before c cs = punctuation c cs := by
  simp only [isMark, updaters, Bool.and_eq_true, Bool.not_eq_true', decide_eq_true_eq, ne_eq,
    List.mem_cons, List.not_mem_nil, or_false, not_or] at h
  obtain ⟨⟨⟨⟨⟨hblank, hdigit⟩, hdouble⟩, hsingle⟩, hletter⟩, hplus, hminus, hstar, hslash⟩ := h
  simp [read, hblank, hdigit, hdouble, hsingle, hletter, hplus, hminus, hstar, hslash]

/-- Without an operand before there is no target before. -/
theorem pathBefore?_of_followsOperand {before : List Token} (h : followsOperand before = false) :
    Token.pathBefore? before = none := by
  cases before with
  | nil => rfl
  | cons last before =>
    have hlast : last.kind ≠ .closeBracket ∧ last.kind ≠ .identifier := by
      constructor <;> intro hkind <;> simp [followsOperand, hkind, Kind.endsOperand] at h
    have hlength : Token.pathLength? (last :: before) = none := by
      unfold Token.pathLength?
      split <;> simp_all
    simp [Token.pathBefore?, hlength]

theorem mem_of_lookup {α : Type} {table : List (Char × α)} {c : Char} {a : α}
    (h : table.lookup c = some a) : (c, a) ∈ table := by
  obtain ⟨first, last, rfl, -⟩ := List.lookup_eq_some_iff.mp h
  simp

theorem read_of_mem_singles {before : List Token} {c : Char} {kind : Kind} {cs : List Char}
    (h : (c, kind) ∈ singles) : read before c cs = .symbol kind [c] := by
  have hlookup : ∀ entry ∈ singles, singles.lookup entry.1 = some entry.2 := by decide
  rw [read_of_isMark (isMark_of_mem_singles _ h)]
  simp [punctuation, hlookup _ h]

theorem read_of_mem_pairs {before : List Token} {c second : Char} {paired alone : Kind}
    {cs : List Char} (h : (c, second, paired, alone) ∈ pairs) : read before c cs =
      if cs.head? = some second then .symbol paired [c, second] else .symbol alone [c] := by
  have hlookup : ∀ entry ∈ pairs, singles.lookup entry.1 = none ∧
    pairs.lookup entry.1 = some entry.2 := by decide
  rw [read_of_isMark (isMark_of_mem_pairs _ h)]
  simp [punctuation, hlookup _ h]

theorem updaters_plain : ∀ c ∈ updaters, isBlank c = false ∧ c.isDigit = false ∧ c ≠ '"' ∧
    c ≠ '\'' ∧ Text.isAlphabetic c = false := by
  simp only [updaters, List.forall_mem_cons, List.not_mem_nil, false_implies, implies_true]
  decide

/-- What starts with an arithmetic operator, unless it is a comment or a signed number. -/
theorem read_of_mem_updaters {before : List Token} {c : Char} {cs : List Char} (hc : c ∈ updaters)
    (hslash : c = '/' → ∀ d ∈ cs.head?, d ≠ '/' ∧ d ≠ '*')
    (hminus : c = '-' → ∀ d ∈ cs.head?, d.isDigit = true → followsOperand before = true) :
    read before c cs = arithmetic before c cs := by
  obtain ⟨hblank, hdigit, hdouble, hsingle, hletter⟩ := updaters_plain c hc
  have hline : ¬(c = '/' ∧ cs.head? = some '/') := fun h => (hslash h.1 _ h.2).1 rfl
  have hblock : ¬(c = '/' ∧ cs.head? = some '*') := fun h => (hslash h.1 _ h.2).2 rfl
  have hsigned : ¬((c = '-' ∧ cs.head?.any Char.isDigit = true) ∧
      followsOperand before = false) := by
    rintro ⟨⟨hc, hany⟩, hbefore⟩
    obtain ⟨d, hd, hdigit⟩ := (Option.any_eq_true _ _).mp hany
    simp [hminus hc d hd hdigit] at hbefore
  have hany : c = '+' ∨ c = '-' ∨ c = '*' ∨ c = '/' := by simpa [updaters] using hc
  simp [read, hblank, hdigit, hdouble, hsingle, hletter, hline, hblock, hsigned, or_assoc, hany]

theorem reads_lineComment (before : List Token) (cs : List Char) :
    ∃ rest, '/' :: '/' :: (cs.takeWhile (· ≠ '\n')) ++ rest = '/' :: '/' :: cs ∧
      Reads before (.lineComment (cs.takeWhile (· ≠ '\n'))) rest := by
  refine ⟨cs.dropWhile (· ≠ '\n'), by simp, .lineComment ?_ ?_⟩
  · intro c hc
    simpa using List.mem_takeWhile_imp hc
  · intro c hc
    simpa using head?_dropWhile c hc

theorem reads_blockComment (before : List Token) (cs : List Char) :
    ∃ rest, '/' :: '*' :: (blockBody cs) ++ rest = '/' :: '*' :: cs ∧
      Reads before (.blockComment (blockBody cs)) rest := by
  rcases exists_blockBody cs with ⟨rest, hrest, hclosed⟩ | hall
  · exact ⟨rest, by simp [hrest], .blockComment hclosed (blockBody_append_of_closed hclosed)⟩
  · refine ⟨[], by simp [hall], ?_⟩
    by_cases hclosed : ['*', '/'] <:+ blockBody cs
    · exact .blockComment hclosed (blockBody_append_of_closed hclosed)
    · exact .openBlock hclosed (by rw [hall, hall])

theorem reads_quoted (before : List Token) {quote : Char} (cs : List Char)
    (hquote : quote = '"' ∨ quote = '\'') :
    ∃ rest, (Stretch.quoted quote (rawBody quote cs).1 (rawBody quote cs).2).text ++ rest =
        quote :: cs ∧
      Reads before (.quoted quote (rawBody quote cs).1 (rawBody quote cs).2) rest := by
  cases hbody : rawBody quote cs with
  | mk raw closed =>
    cases closed with
    | true =>
      obtain ⟨⟨rest, hrest⟩, hmore⟩ := rawBody_closed hbody
      exact ⟨rest, by simp [text, hrest], .quoted hquote hmore⟩
    | false =>
      obtain rfl := rawBody_open hbody
      exact ⟨[], by simp [text], .openQuoted hquote hbody⟩

theorem reads_arithmetic {before : List Token} {c : Char} {cs : List Char} (hc : c ∈ updaters)
    (hslash : c = '/' → ∀ d ∈ cs.head?, d ≠ '/' ∧ d ≠ '*')
    (hminus : c = '-' → ∀ d ∈ cs.head?, d.isDigit = true → followsOperand before = true) :
    ∃ rest, (arithmetic before c cs).text ++ rest = c :: cs ∧
      Reads before (arithmetic before c cs) rest := by
  unfold arithmetic
  split_ifs with harrow
  · simp only [Bool.and_eq_true, decide_eq_true_eq] at harrow
    obtain ⟨rfl, hhead⟩ := harrow
    obtain ⟨rest, rfl⟩ := List.head?_eq_some_iff.mp hhead
    exact ⟨rest, rfl, .arrow⟩
  have hnoarrow : c = '-' → cs.head? ≠ some '>' := by simpa using harrow
  -- Whether the sign stands twice decides the update, and for a minus the negation as well.
  generalize hdoubled : ((c = '+' || c = '-') && decide (cs.head? = some c)) = doubled
  have hdoubled' : (c = '+' ∨ c = '-') ∧ cs.head? = some c ↔ doubled = true := by
    rw [← hdoubled]
    simp
  simp only
  split
  case h_1 target htarget =>
    split_ifs at htarget with hupdate
    cases doubled with
    | true =>
      obtain ⟨hsign, hhead⟩ := hdoubled'.mpr rfl
      obtain ⟨rest, rfl⟩ := List.head?_eq_some_iff.mp hhead
      exact ⟨rest, rfl, .compound hc (fun _ => hsign) htarget⟩
    | false =>
      obtain ⟨rest, rfl⟩ := List.head?_eq_some_iff.mp (by simpa using hupdate)
      exact ⟨rest, rfl, .compound hc (by simp) htarget⟩
  case h_2 htarget =>
    have hnone : cs.head? = some '=' ∨ cs.head? = some c ∧ (c = '+' ∨ c = '-') →
        Token.pathBefore? before = none := by
      intro hupdate
      rw [And.comm, hdoubled', or_comm] at hupdate
      simpa [hupdate] using htarget
    split_ifs with hnegation
    · simp only [Bool.and_eq_true, decide_eq_true_eq, Bool.not_eq_true'] at hnegation
      obtain ⟨⟨rfl, rfl⟩, hbefore⟩ := hnegation
      refine ⟨cs, rfl, .negation hbefore ?_⟩
      intro d hd
      refine ⟨?_, ?_, ?_⟩
      · rw [← Bool.not_eq_true]
        intro hdigit
        simp [hminus rfl d hd hdigit] at hbefore
      · rintro rfl
        exact hnoarrow rfl hd
      · rintro rfl
        simpa using hdoubled'.mp ⟨.inr rfl, hd⟩
    · refine ⟨cs, rfl, .operator hc hslash ?_ hnone⟩
      rintro rfl
      refine ⟨hnoarrow rfl, ?_⟩
      cases doubled with
      | true => exact .inl (hdoubled'.mpr rfl).2
      | false => exact .inr (by simpa using hnegation)

theorem reads_punctuation {before : List Token} {c : Char} {cs : List Char} (hc : isMark c = true) :
    ∃ rest, (punctuation c cs).text ++ rest = c :: cs ∧ Reads before (punctuation c cs) rest := by
  unfold punctuation
  split
  case h_1 kind _ hsingle => exact ⟨cs, rfl, .single (mem_of_lookup hsingle)⟩
  case h_2 second paired alone _ hpair =>
    split_ifs with hhead
    · obtain ⟨rest, rfl⟩ := List.head?_eq_some_iff.mp hhead
      exact ⟨rest, rfl, .pair (mem_of_lookup hpair)⟩
    · exact ⟨cs, rfl, .alone (mem_of_lookup hpair) hhead⟩
  case h_3 hsingle hpair => exact ⟨cs, rfl, .unknown hc hsingle hpair⟩

/-- The stretch at a place follows the rules, and its characters stand there. -/
theorem reads_read (before : List Token) (c : Char) (cs : List Char) :
    ∃ rest, (read before c cs).text ++ rest = c :: cs ∧ Reads before (read before c cs) rest := by
  unfold read
  -- The conditions are those of `read`, in its order, so each case also knows what was ruled out.
  split_ifs with hblank hline hblock hdigit hsigned hquote hletter hupdater
  · exact ⟨cs, rfl, .blank hblank⟩
  · simp only [Bool.and_eq_true, decide_eq_true_eq] at hline
    obtain ⟨rfl, hhead⟩ := hline
    obtain ⟨more, rfl⟩ := List.head?_eq_some_iff.mp hhead
    exact reads_lineComment before more
  · simp only [Bool.and_eq_true, decide_eq_true_eq] at hblock
    obtain ⟨rfl, hhead⟩ := hblock
    obtain ⟨more, rfl⟩ := List.head?_eq_some_iff.mp hhead
    exact reads_blockComment before more
  · obtain ⟨rest, hrest, hnumeral, hend⟩ := exists_numeral cs hdigit
    exact ⟨rest, hrest, .number hnumeral hend⟩
  · simp only [Bool.and_eq_true, decide_eq_true_eq, Bool.not_eq_true'] at hsigned
    obtain ⟨⟨rfl, hany⟩, hbefore⟩ := hsigned
    obtain ⟨d, hhead, hd⟩ := (Option.any_eq_true _ _).mp hany
    obtain ⟨more, rfl⟩ := List.head?_eq_some_iff.mp hhead
    obtain ⟨rest, hrest, hnumeral, hend⟩ := exists_numeral more hd
    exact ⟨rest, by simp [text, hrest], .negative hbefore hnumeral hend⟩
  · exact reads_quoted before cs (by simpa using hquote)
  · refine ⟨cs.dropWhile Text.isAlphabetic, by simp [text], .word (by simp) ?_ head?_dropWhile⟩
    intro d hd
    rcases List.mem_cons.mp hd with rfl | hd
    · exact hletter
    · exact List.mem_takeWhile_imp hd
  · apply reads_arithmetic
    · simpa [updaters, or_assoc] using hupdater
    · rintro rfl d hd
      simp only [Option.mem_def.mp hd] at hline hblock
      constructor
      · rintro rfl
        simp at hline
      · rintro rfl
        simp at hblock
    · rintro rfl d hd hdigit
      simpa [Option.mem_def.mp hd, hdigit] using hsigned
  · apply reads_punctuation
    simp only [Bool.or_eq_true, decide_eq_true_eq, not_or] at hquote hupdater
    simp [isMark, updaters, hblank, hdigit, hquote, hletter, hupdater]

theorem read_number {before : List Token} {text rest : List Char} (htext : IsNumeral text)
    (hrest : NumeralEnds text rest.head?) :
    ∃ c cs, text ++ rest = c :: cs ∧ read before c cs = .number text := by
  obtain ⟨c, cs, rfl, hc⟩ := htext.head_isDigit
  refine ⟨c, cs ++ rest, rfl, ?_⟩
  have hne : ∀ d : Char, d.isDigit = false → c ≠ d := by
    rintro d hd rfl
    simp [hc] at hd
  have hnumeral := numeral_append htext hrest
  rw [List.cons_append] at hnumeral
  simp [read, isBlank, hne, hc, hnumeral]

theorem read_negative {before : List Token} {text rest : List Char}
    (hbefore : followsOperand before = false) (htext : IsNumeral text)
    (hrest : NumeralEnds text rest.head?) :
    read before '-' (text ++ rest) = .number ('-' :: text) := by
  have hnumeral := numeral_append htext hrest
  obtain ⟨c, cs, rfl, hc⟩ := htext.head_isDigit
  rw [List.cons_append] at hnumeral
  simp [read, isBlank, hc, hbefore, hnumeral]

theorem read_word {before : List Token} {text rest : List Char} (hne : text ≠ [])
    (htext : ∀ c ∈ text, Text.isAlphabetic c = true)
    (hrest : ∀ c ∈ rest.head?, Text.isAlphabetic c = false) :
    ∃ c cs, text ++ rest = c :: cs ∧ read before c cs = .word text := by
  obtain ⟨c, cs, rfl⟩ := List.exists_cons_of_ne_nil hne
  refine ⟨c, cs ++ rest, rfl, ?_⟩
  have hc := htext c List.mem_cons_self
  have hother : ∀ d : Char, Text.isAlphabetic d = false → c ≠ d := by
    rintro d hd rfl
    simp [hc] at hd
  have hblank : isBlank c = false := by
    simp [isBlank, hother ' ' (by decide), hother '\n' (by decide), hother '\t' (by decide),
      hother '\r' (by decide)]
  have hrun := takeWhile_append_run (fun d hd => htext d (List.mem_cons_of_mem _ hd)) hrest
  simp [read, hblank, isDigit_eq_false_of_isAlphabetic hc, hother '/' (by decide),
    hother '-' (by decide), hother '"' (by decide), hother '\'' (by decide), hc, hrun]

theorem read_compound {before target : List Token} {operator : Char} {doubled : Bool}
    {rest : List Char} (hoperator : operator ∈ updaters)
    (hdoubled : doubled = true → operator = '+' ∨ operator = '-')
    (htarget : Token.pathBefore? before = some target) :
    read before operator ((if doubled then operator else '=') :: rest) =
      .compound target operator doubled := by
  cases doubled with
  | true =>
    rcases hdoubled rfl with rfl | rfl <;>
    · rw [read_of_mem_updaters hoperator (by simp) (by simp)]
      simp [arithmetic, htarget]
  | false =>
    rw [read_of_mem_updaters hoperator (by simp) (by simp)]
    have hne : operator ≠ '=' := by
      rintro rfl
      simp [updaters] at hoperator
    simp [arithmetic, htarget, hne.symm]

theorem read_negation {before : List Token} {rest : List Char}
    (hbefore : followsOperand before = false)
    (hrest : ∀ c ∈ rest.head?, c.isDigit = false ∧ c ≠ '>' ∧ c ≠ '-') :
    read before '-' rest = .negation := by
  have hdigit : ∀ d ∈ rest.head?, d.isDigit = true → followsOperand before = true := by
    intro d hd hdigit
    simp [hrest d hd] at hdigit
  rw [read_of_mem_updaters (by decide) (by simp) (fun _ => hdigit)]
  have harrow : rest.head? ≠ some '>' := fun h => (hrest _ h).2.1 rfl
  have hdoubled : rest.head? ≠ some '-' := fun h => (hrest _ h).2.2 rfl
  simp [arithmetic, harrow, hdoubled, pathBefore?_of_followsOperand hbefore, hbefore]

theorem read_operator {before : List Token} {c : Char} {rest : List Char} (hc : c ∈ updaters)
    (hslash : c = '/' → ∀ d ∈ rest.head?, d ≠ '/' ∧ d ≠ '*')
    (hminus : c = '-' → rest.head? ≠ some '>' ∧
      (rest.head? = some '-' ∨ followsOperand before = true))
    (htarget : rest.head? = some '=' ∨ rest.head? = some c ∧ (c = '+' ∨ c = '-') →
      Token.pathBefore? before = none) : read before c rest = .symbol .operator [c] := by
  have hdigit : c = '-' → ∀ d ∈ rest.head?, d.isDigit = true → followsOperand before = true := by
    intro hc d hd hdigit
    refine (hminus hc).2.resolve_left fun h => ?_
    obtain rfl := Option.some.inj (hd.symm.trans h)
    simp at hdigit
  have harrow : ¬(c = '-' ∧ rest.head? = some '>') := fun h => (hminus h.1).1 h.2
  rw [read_of_mem_updaters hc hslash hdigit]
  have htarget' : (if ((c = '+' || c = '-') && rest.head? = some c) || rest.head? = some '='
      then Token.pathBefore? before else none) = none := by
    split_ifs with hupdate
    · exact htarget (by simpa [and_comm, or_comm] using hupdate)
    · rfl
  have hnegation : ¬((c = '-' ∧ ((c = '+' || c = '-') && rest.head? = some c) = false) ∧
      followsOperand before = false) := by
    rintro ⟨⟨rfl, hdoubled⟩, hbefore⟩
    -- Without an operand before, the minus is only an operator in front of another minus.
    simp [hbefore] at hminus
    simp [hminus] at hdoubled
  simp only [arithmetic, htarget', Bool.and_eq_true, decide_eq_true_eq, Bool.not_eq_true', harrow,
    hnegation, if_false]

/-- A stretch that follows the rules is the one that is read. -/
theorem Reads.read_eq {before : List Token} {s : Stretch} {rest : List Char}
    (h : Reads before s rest) : ∃ c cs, s.text ++ rest = c :: cs ∧ read before c cs = s := by
  -- One rule at a time: the tests of `read` that come before its branch fail.
  cases h with
  | blank hc => exact ⟨_, rest, rfl, by simp [read, hc]⟩
  | @lineComment body _ hbody hrest =>
    refine ⟨'/', '/' :: body ++ rest, rfl, ?_⟩
    have hrun : (body ++ rest).takeWhile (· ≠ '\n') = body :=
      takeWhile_append_run (by simpa using hbody) (by simpa using hrest)
    simp only [ne_eq, decide_not] at hrun
    simp [read, isBlank, hrun]
  | @blockComment body _ _ hbody =>
    exact ⟨'/', '*' :: body ++ rest, rfl, by simp [read, isBlank, hbody]⟩
  | @openBlock body _ hbody =>
    exact ⟨'/', '*' :: body, by simp [text], by simp [read, isBlank, hbody]⟩
  | number htext hrest => exact read_number htext hrest
  | @negative text _ hbefore htext hrest =>
    exact ⟨'-', text ++ rest, rfl, read_negative hbefore htext hrest⟩
  | @quoted quote raw _ hquote hraw =>
    refine ⟨quote, raw ++ quote :: rest, by simp [text], ?_⟩
    rcases hquote with rfl | rfl <;> simp [read, isBlank, hraw]
  | @openQuoted quote raw hquote hraw =>
    refine ⟨quote, raw, by simp [text], ?_⟩
    rcases hquote with rfl | rfl <;> simp [read, isBlank, hraw]
  | word hne htext hrest => exact read_word hne htext hrest
  | arrow =>
    refine ⟨'-', '>' :: rest, rfl, ?_⟩
    rw [read_of_mem_updaters (by decide) (by simp) (by simp)]
    simp [arithmetic]
  | compound hoperator hdoubled htarget =>
    exact ⟨_, _ :: rest, rfl, read_compound hoperator hdoubled htarget⟩
  | negation hbefore hrest => exact ⟨'-', rest, rfl, read_negation hbefore hrest⟩
  | operator hc hslash hminus htarget =>
    exact ⟨_, rest, rfl, read_operator hc hslash hminus htarget⟩
  | single hc => exact ⟨_, rest, rfl, read_of_mem_singles hc⟩
  | @pair c second _ _ _ hc =>
    exact ⟨c, second :: rest, rfl, by simp [read_of_mem_pairs hc]⟩
  | alone hc hrest => exact ⟨_, rest, rfl, by simp [read_of_mem_pairs hc, hrest]⟩
  | unknown hmark hsingle hpair =>
    refine ⟨_, rest, rfl, ?_⟩
    rw [read_of_isMark hmark]
    simp [punctuation, hsingle, hpair]

theorem Reads.text_ne_nil {before : List Token} {s : Stretch} {rest : List Char}
    (h : Reads before s rest) : s.text ≠ [] := by
  cases h with
  | number htext _ =>
    obtain ⟨c, cs, rfl, _⟩ := htext.head_isDigit
    simp [text]
  | word hne _ _ => exact hne
  | _ => simp [text]

/-- Reading looks at most one character ahead. -/
theorem Reads.congr_head {before : List Token} {s : Stretch} {rest rest' : List Char}
    (h : Reads before s rest) (hhead : rest.head? = rest'.head?) : Reads before s rest' := by
  cases h with
  | blank hc => exact .blank hc
  | lineComment hbody hrest => exact .lineComment hbody (hhead ▸ hrest)
  | blockComment hclosed hbody => exact .blockComment hclosed hbody
  | openBlock hopen hbody =>
    obtain rfl := List.head?_eq_none_iff.mp hhead.symm
    exact .openBlock hopen hbody
  | number htext hrest => exact .number htext (hhead ▸ hrest)
  | negative hbefore htext hrest => exact .negative hbefore htext (hhead ▸ hrest)
  | quoted hquote hraw => exact .quoted hquote hraw
  | openQuoted hquote hraw =>
    obtain rfl := List.head?_eq_none_iff.mp hhead.symm
    exact .openQuoted hquote hraw
  | word hne htext hrest => exact .word hne htext (hhead ▸ hrest)
  | arrow => exact .arrow
  | compound hoperator hdoubled htarget => exact .compound hoperator hdoubled htarget
  | negation hbefore hrest => exact .negation hbefore (hhead ▸ hrest)
  | operator hc hslash hminus htarget =>
    exact .operator hc (hhead ▸ hslash) (hhead ▸ hminus) (hhead ▸ htarget)
  | single hc => exact .single hc
  | pair hc => exact .pair hc
  | alone hc hrest => exact .alone hc (hhead ▸ hrest)
  | unknown hmark hsingle hpair => exact .unknown hmark hsingle hpair

/-- Does a stretch at the end of a text go on with whatever is put behind it? A line comment does
until the line ends, a block comment and a string until they are closed. -/
def isOpen : Stretch → Bool
  | lineComment _ => true
  | blockComment body => !(['*', '/'].isSuffixOf body)
  | quoted _ _ closed => !closed
  | _ => false

theorem blank_plain {c : Char} (h : isBlank c = true) : c.isDigit = false ∧
    Text.isAlphabetic c = false ∧ c ∉ ['.', '/', '*', '>', '-', '+', '=', '&'] := by
  simp only [isBlank, Bool.or_eq_true, decide_eq_true_eq] at h
  rcases h with ((rfl | rfl) | rfl) | rfl <;> decide

/-- A blank behind a stretch leaves it as it was at the end of the text, unless it is open. -/
theorem Reads.before_blank {before : List Token} {s : Stretch} {c : Char}
    (h : Reads before s []) (hopen : s.isOpen = false) (hc : isBlank c = true) (rest : List Char) :
    Reads before s (c :: rest) := by
  obtain ⟨hdigit, hletter, hsymbol⟩ := blank_plain hc
  simp only [List.mem_cons, List.not_mem_nil, or_false, not_or] at hsymbol
  obtain ⟨hpoint, hslash, hstar, hgreater, hminus, hplus, hequals, hampersand⟩ := hsymbol
  -- A blank goes on with nothing: it is no digit, no letter and no second half of a symbol.
  have hends : ∀ text, NumeralEnds text (some c) := by
    intro text d hd
    obtain rfl := Option.some.inj hd
    exact ⟨hdigit, fun hd => absurd hd hpoint⟩
  cases h with
  | blank hc => exact .blank hc
  | lineComment => simp [isOpen] at hopen
  | blockComment hclosed hbody => exact .blockComment hclosed hbody
  | openBlock hnot hbody => simp [isOpen, hnot] at hopen
  | number htext => exact .number htext (hends _)
  | negative hbefore htext => exact .negative hbefore htext (hends _)
  | quoted hquote hraw => exact .quoted hquote hraw
  | openQuoted => simp [isOpen] at hopen
  | word hne htext => exact .word hne htext (by simpa using hletter)
  | arrow => exact .arrow
  | compound hoperator hdoubled htarget => exact .compound hoperator hdoubled htarget
  | negation hbefore => exact .negation hbefore (by simp [hdigit, hgreater, hminus])
  | operator hop hslash' hminus' htarget =>
    refine .operator hop (by simp [hslash, hstar]) ?_ ?_
    · intro hop
      exact ⟨by simpa using hgreater, .inr (by simpa using hminus' hop)⟩
    · rintro (h | ⟨h, rfl | rfl⟩)
      · exact absurd (Option.some.inj h) hequals
      · exact absurd (Option.some.inj h) hplus
      · exact absurd (Option.some.inj h) hminus
  | single hmem => exact .single hmem
  | pair hmem => exact .pair hmem
  | alone hmem _ =>
    refine .alone hmem fun h => ?_
    obtain rfl := Option.some.inj h
    have hsecond : ∀ entry ∈ pairs, entry.2.1 = '=' ∨ entry.2.1 = '&' := by decide
    exact (hsecond _ hmem).elim hequals hampersand
  | unknown hmark hsingle hpair => exact .unknown hmark hsingle hpair

end Script.Stretch
