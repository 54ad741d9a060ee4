import Script.Proofs.Program.Sequence

namespace Script

namespace Source

theorem says_iff {source : String} {ls : List Lexeme} : Says source ls ↔
    straysOf (segments source) = [] ∧ lexemesOf (segments source) = ls := by
  rw [Says, lexemes_eq]
  split <;> simp_all

theorem says_of_tokenize {source : String} {tokens : List Token}
    (h : tokenize source = .ok tokens) : Says source (tokens.dropLast.map Token.lexeme) := by
  obtain ⟨hstrays, hdrop⟩ := straysOf_of_tokenize h
  rw [says_iff, hdrop, map_lexeme_flatMap_tokens]
  exact ⟨hstrays, rfl⟩

/-- What stands behind a source and a blank is read behind the tokens of the source. -/
theorem Says.append {source more : String} {ls ms : List Lexeme} (hsource : Says source ls)
    (hopen : endsOpen source = false) (hmore : Spells ls.reverse (' ' :: more.toList) ms []) :
    Says (source ++ " " ++ more) (ls ++ ms) := by
  obtain ⟨hstrays, hlexemes⟩ := says_iff.mp hsource
  have hchars : (" " ++ more).toList = ' ' :: more.toList := by simp
  have hlast : ∀ last ∈ (segments source).getLast?, ∀ before,
      last.stretch.Reads before [] → last.stretch.Reads before (" " ++ more).toList := by
    intro last hlast before hreads
    rw [hchars]
    exact hreads.before_blank (endsOpen_eq_false hopen last hlast) rfl _
  have hbefore : (behind [] (segments source)).map Token.lexeme = ls.reverse := by
    rw [map_lexeme_behind, hlexemes, List.map_nil, List.append_nil]
  obtain ⟨second, hscans, htext, hlexemes', hstrays'⟩ := hmore _ (byteSize source.toList) hbefore
  have hsecond := hscans.segmentsFrom_eq
  rw [List.append_nil, htext, segmentsFrom, List.append_nil] at hsecond
  rw [String.append_assoc, says_iff, segments_append hlast, hchars, hsecond]
  refine ⟨?_, ?_⟩
  · rw [straysOf_append, hstrays, hstrays', List.append_nil]
  · rw [← hlexemes, ← hlexemes', lexemesOf, List.flatMap_append]
    rfl

/-- Behind an operator a source is read as if it stood alone. -/
theorem Says.spells {source : String} {ls before : List Lexeme} {edge : Lexeme}
    (h : Says source ls) (hedge : edge.kind.severs = true) :
    Spells (edge :: before) source.toList ls [] := by
  intro tokens start hbefore
  obtain ⟨token, tokens, rfl, rfl, -⟩ := List.map_eq_cons_iff.mp hbefore
  obtain ⟨hscans, htext⟩ := scans_segmentsFrom (token :: tokens) start source.toList
  refine ⟨_, hscans, htext, ?_⟩
  rw [← List.nil_append (token :: tokens), segmentsFrom_edge hedge]
  have halike : Alike (segmentsFrom [] start source.toList) (segments source) :=
    segmentsFrom_alike rfl start 0 source.toList
  obtain ⟨hstrays, hlexemes⟩ := says_iff.mp h
  rw [halike.lexemes_eq, halike.strays_eq]
  exact ⟨hlexemes, hstrays⟩

end Source

namespace Source

variable {before : List Lexeme}

theorem spells_sign (operator : Operator) (rest : List Char)
    (hbefore : closesOperand before = true) :
    Spells before operator.symbol.toList [operator.sign] (' ' :: rest) := by
  have hwritable := operator.writable_sign
  have hstands := (Settles.sign operator before hbefore).1.1
  have hblank : ∀ c ∈ (' ' :: rest).head?, c = ' ' := fun c hc => (Option.some.inj hc).symm
  have hspells := spells_written hblank hwritable.1 hwritable.2 hstands
  have hwritten : operator.sign.written = operator.symbol := by
    cases operator <;> rfl
  rwa [hwritten] at hspells

/-- In front of a name, a minus sign with no operand before it subtracts from zero. -/
theorem spells_negation {id : String} (hid : IsName id) (hbefore : closesOperand before = false) :
    Spells before ('-' :: id.toList) [⟨.number, "0"⟩, Operator.subtract.sign, ⟨.identifier, id⟩]
      [] := by
  have hplain : ∀ c ∈ (id.toList ++ []).head?, c.isDigit = false ∧ c ≠ '>' ∧ c ≠ '-' := by
    intro c hc
    rw [List.append_nil] at hc
    have hletter := hid.letters c (List.mem_of_mem_head? hc)
    refine ⟨Stretch.isDigit_eq_false_of_isAlphabetic hletter, ?_, ?_⟩ <;>
    · rintro rfl
      exact absurd hletter (by decide)
  have hreads : ∀ tokens : List Token, tokens.map Token.lexeme = before →
      Stretch.negation.Reads tokens (id.toList ++ []) := by
    intro tokens htokens
    refine .negation ?_ hplain
    rw [followsOperand_eq, htokens, hbefore]
  exact (spells_of_reads .negation hreads rfl).append (spells_name hid (by simp))

/-- An operator between blanks, behind an operand and in front of what it joins. -/
theorem Says.join {source more : String} {ls ms : List Lexeme} {operator : Operator}
    (hsource : Says source ls) (hopen : endsOpen source = false)
    (hcloses : closesOperand ls.reverse = true)
    (hmore : Spells (operator.sign :: ls.reverse) more.toList ms []) :
    Says (source ++ " " ++ operator.symbol ++ " " ++ more) (ls ++ operator.sign :: ms) := by
  have hblank : Stretch.isBlank ' ' = true := rfl
  have hspells := (spells_blank hblank).append ((spells_sign operator _ hcloses).append
    ((spells_blank hblank).append hmore))
  have hall : Says (source ++ " " ++ (operator.symbol ++ (" " ++ more))) _ :=
    hsource.append hopen (by simpa using hspells)
  simpa [String.append_assoc] using hall

end Source

/-- What an operator makes of its left operand and of a minus sign in front of a name. A comparison
takes the whole difference from zero. Any other operator takes the zero only. -/
def Operator.joinNegated (operator : Operator) (left : Expr) (id : String) : Expr :=
  if operator.level = .comparison then
    .binary operator left (.binary .subtract (.number 0.0) (.name id))
  else .binary .subtract (.binary operator left (.number 0.0)) (.name id)

theorem Derives.joinNegated {ls : List Lexeme} {left : Expr} (operator : Operator) (id : String)
    (h : Derives .linked ls left) :
    Derives .assignment
      (ls ++ operator.sign :: [⟨.number, "0"⟩, Operator.subtract.sign, ⟨.identifier, id⟩])
      (operator.joinNegated left id) := by
  have hzero : Derives .primary [⟨.number, "0"⟩] (.number 0.0) := .number rfl rfl
  have hname : Derives .primary [⟨.identifier, id⟩] (.name id) := .name rfl
  have hleft : Derives operator.level ls left := h.loosen (by cases operator <;> decide)
  unfold Operator.joinNegated
  split
  case isTrue hlevel =>
    have hdifference : Derives .additive
        ([⟨.number, "0"⟩] ++ Operator.subtract.sign :: [⟨.identifier, id⟩]) _ :=
      .binary .subtract (hzero.loosen (by decide)) (hname.loosen (by decide))
    have hoperand : operator.operand = .additive := by cases operator <;> first | rfl | cases hlevel
    exact (Derives.binary operator hleft (hoperand ▸ hdifference)).toAssignment
  case isFalse hlevel =>
    have hproduct : Derives operator.level (ls ++ operator.sign :: [⟨.number, "0"⟩]) _ :=
      .binary operator hleft (hzero.loosen (by cases operator <;> decide))
    have hadditive : Level.additive.rank ≤ operator.level.rank := by
      cases operator <;> first | decide | exact absurd rfl hlevel
    have hall := Derives.binary .subtract (hproduct.loosen hadditive) (hname.loosen (by decide))
    rw [List.append_assoc] at hall
    exact hall.toAssignment

theorem Derives.closesOperand_reverse {ls : List Lexeme} {e : Expr} (h : Derives .linked ls e) :
    Source.closesOperand ls.reverse = true := by
  obtain ⟨b, hsettles, hb⟩ := h.settles
  have hlast := (hsettles [] rfl).2
  rwa [hb (by decide), List.append_nil] at hlast

namespace Program

/-- Behind an operand and an operator, a minus sign goes with a numeral. In front of a name it
subtracts from a zero that the operator takes first, unless that is a comparison. -/
theorem parse_negated {source : String} {ls : List Lexeme} {left : Expr}
    (hspelled : Source.Says source ls) (hderives : Derives .linked ls left)
    (hopen : Source.endsOpen source = false) (operator : Operator) :
    parse source = .ok [.expr left] ∧
      (∀ id, IsName id → parse (source ++ " " ++ operator.symbol ++ " -" ++ id) =
        .ok [.expr (operator.joinNegated left id)]) ∧
      ∀ digits value, Stretch.IsNumeral digits.toList → Number.read? ("-" ++ digits) = some value →
        parse (source ++ " " ++ operator.symbol ++ " -" ++ digits) =
          .ok [.expr (.binary operator left (.number value))] := by
  have hsign : Source.closesOperand (operator.sign :: ls.reverse) = false := by
    cases operator <;> rfl
  -- The minus sign stands behind a blank of its own.
  have hjoin : ∀ (text : String) (ms : List Lexeme),
      Source.Spells (operator.sign :: ls.reverse) ("-" ++ text).toList ms [] →
      Source.Says (source ++ " " ++ operator.symbol ++ " -" ++ text)
        (ls ++ operator.sign :: ms) := by
    intro text ms hspells
    have hmark : " " ++ ("-" ++ text) = " -" ++ text := by
      rw [← String.append_assoc]
      rfl
    have hjoined := hspelled.join hopen hderives.closesOperand_reverse hspells
    rwa [String.append_assoc, hmark, ← String.append_assoc] at hjoined
  refine ⟨parse_expression hspelled hderives.toAssignment, ?_, ?_⟩
  · intro id hid
    have hspells := Source.spells_negation hid hsign
    exact parse_expression (hjoin id _ (by simpa using hspells)) (hderives.joinNegated operator id)
  · intro digits value hdigits hvalue
    have hnumber : IsNumber ("-" ++ digits).toList := .inr ⟨digits.toList, by simp, hdigits⟩
    have hspells : Source.Spells _ _ _ [] :=
      Source.spells_number hnumber (fun _ => hsign) (by simp)
    have hleft : Derives operator.level ls left := hderives.loosen (by cases operator <;> decide)
    have hright : Derives .primary [⟨.number, "-" ++ digits⟩] (.number value) := .number rfl hvalue
    have hright := hright.loosen (by cases operator <;> decide : operator.operand.rank ≤ _)
    exact parse_expression (hjoin digits _ hspells)
      (Derives.binary operator hleft hright).toAssignment

/-- Behind a member of a sum in parentheses. -/
theorem parse_negated_member : ∃ (ls : List Lexeme) (left : Expr),
    Source.Says "(a + b).c" ls ∧ Derives .linked ls left ∧ Source.endsOpen "(a + b).c" = false ∧
    left = .member (.binary .add (.name "a") (.name "b")) (.name "c") false ∧
    parse ("(a + b).c" ++ " " ++ "/" ++ " -" ++ "x") =
      .ok [.expr (.binary .subtract (.binary .divide left (.number 0.0)) (.name "x"))] ∧
    parse ("(a + b).c" ++ " " ++ "/" ++ " -" ++ "5") =
      .ok [.expr (.binary .divide left (.number (-5)))] := by
  have hspelled : Source.Says "(a + b).c" [⟨.openParen, "("⟩, ⟨.identifier, "a"⟩,
      Operator.add.sign, ⟨.identifier, "b"⟩, ⟨.closeParen, ")"⟩, ⟨.dot, "."⟩,
      ⟨.identifier, "c"⟩] := by
    unfold Source.Says
    decide +kernel
  have hname : ∀ id, Derives .primary [⟨.identifier, id⟩] (.name id) := fun id => .name rfl
  have hsum : Derives .additive _ (.binary .add (.name "a") (.name "b")) :=
    .binary .add ((hname "a").loosen (by decide)) ((hname "b").loosen (by decide))
  have hparen : Derives .primary (⟨.openParen, "("⟩ :: _ ++ [⟨.closeParen, ")"⟩]) _ :=
    .paren rfl hsum.toAssignment rfl
  have hopen : Source.endsOpen "(a + b).c" = false := by decide +kernel
  have hderives := (hparen.loosen (by decide : Level.linked.rank ≤ _)).member "c"
  obtain ⟨-, hid, hdigits⟩ := parse_negated hspelled hderives hopen .divide
  exact ⟨_, _, hspelled, hderives, hopen, rfl, hid "x" (by decide),
    hdigits "5" _ (.whole (by simp) (by simp)) rfl⟩

/-- The minus sign is torn from its name, but not from a numeral. -/
theorem negated_factor_torn : parse "a" = .ok [.expr (.name "a")] ∧
    parse "a * -x" =
      .ok [.expr (.binary .subtract (.binary .multiply (.name "a") (.number 0.0)) (.name "x"))] ∧
    parse "a * -x" ≠
      .ok [.expr (.binary .multiply (.name "a") (.binary .subtract (.number 0.0) (.name "x")))] ∧
    parse "a * -5" = .ok [.expr (.binary .multiply (.name "a") (.number (-5)))] := by
  have hname : Source.tokenize "a" = .ok [.plain .identifier "a" ⟨0, 1⟩, .endOfFile 1] := by
    decide +kernel
  have hnegated : Source.tokenize "a * -x" = .ok [.plain .identifier "a" ⟨0, 1⟩,
      .plain .operator "*" ⟨2, 3⟩, .plain .number "0" ⟨4, 5⟩, .plain .operator "-" ⟨4, 5⟩,
      .plain .identifier "x" ⟨5, 6⟩, .endOfFile 6] := by decide +kernel
  have hnumeral : Source.tokenize "a * -5" = .ok [.plain .identifier "a" ⟨0, 1⟩,
      .plain .operator "*" ⟨2, 3⟩, .plain .number "-5" ⟨4, 6⟩, .endOfFile 6] := by decide +kernel
  have hparse := parse_eq_ok_iff.mpr ⟨_, hnegated, rfl⟩
  refine ⟨parse_eq_ok_iff.mpr ⟨_, hname, rfl⟩, hparse, ?_, parse_eq_ok_iff.mpr ⟨_, hnumeral, rfl⟩⟩
  rw [hparse]
  simp

end Program

def Expr.joined (first : Expr) (tail : List (Operator × Expr)) : Expr :=
  tail.foldl (fun left link => .binary link.1 left link.2) first

@[simp] theorem Expr.joined_cons (first right : Expr) (operator : Operator)
    (tail : List (Operator × Expr)) : first.joined ((operator, right) :: tail) =
      (Expr.binary operator first right).joined tail := rfl

theorem Expr.joined_append (first : Expr) (tail rest : List (Operator × Expr)) :
    first.joined (tail ++ rest) = (first.joined tail).joined rest :=
  List.foldl_append

/-- `DerivesTail tight loose ls tail`: behind an expression of the level `tight`, the lexemes go on
with these operators and operands, and the whole is an expression of the level `loose`. -/
inductive DerivesTail : Level → Level → List Lexeme → List (Operator × Expr) → Prop
  | nil {level : Level} : DerivesTail level level [] []
  | link {operator : Operator} {loose : Level} {ls ms : List Lexeme} {right : Expr}
      {tail : List (Operator × Expr)} (hright : Derives operator.operand ls right)
      (hrest : DerivesTail operator.level loose ms tail) :
      DerivesTail operator.level loose (operator.sign :: ls ++ ms) ((operator, right) :: tail)
  | loosen {level tight loose : Level} {ls : List Lexeme} {tail : List (Operator × Expr)}
      (hlevel : level.operand? = some tight) (h : DerivesTail level loose ls tail) :
      DerivesTail tight loose ls tail

namespace DerivesTail

variable {tight middle loose : Level} {ls ms : List Lexeme} {tail rest : List (Operator × Expr)}

/-- Any expression of the tighter level can stand before a tail. -/
theorem derives {first : Expr} (h : DerivesTail tight loose ms tail)
    (hfirst : Derives tight ls first) : Derives loose (ls ++ ms) (first.joined tail) := by
  induction h generalizing ls first with
  | nil => rwa [List.append_nil]
  | @link operator loose rs ms right tail hright hrest ih =>
    have hall := ih (Derives.binary operator hfirst hright)
    simpa using hall
  | loosen hlevel h ih =>
    have hloose := Derives.chain hlevel hfirst .nil
    rw [List.append_nil] at hloose
    exact ih hloose

theorem append (h : DerivesTail tight middle ls tail) (h' : DerivesTail middle loose ms rest) :
    DerivesTail tight loose (ls ++ ms) (tail ++ rest) := by
  induction h with
  | nil => exact h'
  | link hright hrest ih =>
    have hall := DerivesTail.link hright (ih h')
    simpa using hall
  | loosen hlevel h ih => exact .loosen hlevel (ih h')

end DerivesTail

/-- What the grammar links at the level of an operator is a tail. -/
theorem DerivesLinks.exists_tail {level : Level} {first e : Expr} {ls : List Lexeme} :
    DerivesLinks level first ls e → level.rank < Level.linked.rank →
      ∃ tail, DerivesTail level level ls tail ∧ e = first.joined tail
  | .nil, _ => ⟨[], .nil, rfl⟩
  | .binary hlevel hright hlinks, hrank => by
    obtain ⟨tail, htail, rfl⟩ := hlinks.exists_tail hrank
    obtain rfl := Option.some.inj ((Operator.operand?_level _).symm.trans hlevel)
    exact ⟨_, .link hright htail, rfl⟩
  | .member _ _ _, hrank => absurd hrank (lt_irrefl _)
  | .index _ _ _ _, hrank => absurd hrank (lt_irrefl _)
  | .call _ _ _ _, hrank => absurd hrank (lt_irrefl _)

namespace Derives

variable {level operand : Level} {ls : List Lexeme} {e : Expr}

theorem exists_chain (h : Derives level ls e) (hlevel : level.operand? = some operand) :
    ∃ us ms first, ls = us ++ ms ∧ Derives operand us first ∧ DerivesLinks level first ms e := by
  cases h with
  | chain hoperand hfirst hlinks =>
    obtain rfl := Option.some.inj (hoperand.symm.trans hlevel)
    exact ⟨_, _, _, rfl, hfirst, hlinks⟩
  | _ => cases hlevel

/-- An expression starts with an operand that the operator could take, and the rest is a tail. The
induction is on the number of levels between the expression and the operator. -/
theorem exists_operand (h : Derives level ls e) (operator : Operator)
    (hcomparison : Level.comparison.rank ≤ level.rank)
    (hlevel : level.rank ≤ operator.level.rank) :
    ∃ us ms first tail, ls = us ++ ms ∧ Derives operator.operand us first ∧
      DerivesTail operator.level level ms tail ∧ e = first.joined tail := by
  have hlinked : operator.level.rank < Level.linked.rank := by
    cases operator <;> decide
  induction hk : operator.level.rank - level.rank generalizing level ls e with
  | zero =>
    obtain rfl : level = operator.level := Level.rank_injective (by omega)
    obtain ⟨us, ms, first, rfl, hfirst, hlinks⟩ := h.exists_chain operator.operand?_level
    obtain ⟨tail, htail, rfl⟩ := hlinks.exists_tail hlinked
    exact ⟨us, ms, first, tail, rfl, hfirst, htail, rfl⟩
  | succ k ih =>
    obtain ⟨next, hnext⟩ : ∃ next, level.operand? = some next := by
      cases level with
      | assignment | object => exact absurd hcomparison (by decide)
      | primary => exact absurd (hlevel.trans_lt hlinked) (by decide)
      | _ => exact ⟨_, rfl⟩
    have hrank := Level.rank_operand hnext
    obtain ⟨vs, ms, e, rfl, hvs, hlinks⟩ := h.exists_chain hnext
    obtain ⟨rest, hrest, rfl⟩ := hlinks.exists_tail (by omega)
    obtain ⟨us, ms', first, tail, rfl, hfirst, htail, rfl⟩ :=
      ih hvs (by omega) (by omega) (by omega)
    exact ⟨us, ms' ++ ms, first, tail ++ rest, List.append_assoc _ _ _, hfirst,
      htail.append (.loosen hnext hrest), (first.joined_append tail rest).symm⟩

end Derives

namespace Number

theorem isSome_unsigned? {cs : List Char} (h : Stretch.IsNumeral cs) :
    (unsigned? cs).isSome = true := by
  have hnumeral : (numeral? cs).isSome = true := by
    cases h with
    | whole hne hdigits =>
      have hwhole : cs.takeWhile Char.isDigit = cs := List.takeWhile_eq_self_iff.mpr hdigits
      have hrest : cs.dropWhile Char.isDigit = [] := List.dropWhile_eq_nil_iff.mpr hdigits
      simp [numeral?, hwhole, hrest, hne, exponent?]
    | @fraction digits places hne hdigits hplaces =>
      have hpoint : ∀ c ∈ ('.' :: places).head?, c.isDigit = false := by
        simp only [List.head?_cons, Option.mem_some_iff, forall_eq']
        decide
      have hrest : places.dropWhile Char.isDigit = [] := List.dropWhile_eq_nil_iff.mpr hplaces
      simp [numeral?, Stretch.takeWhile_append_run hdigits hpoint,
        Stretch.dropWhile_append_run hdigits hpoint, hrest, hne, exponent?]
  simp only [unsigned?]
  split_ifs
  · rfl
  · rfl
  · exact hnumeral

/-- Every text of a number can be read. -/
theorem isSome_read? {text : String} (h : IsNumber text.toList) : (read? text).isSome = true := by
  unfold read?
  rcases h with h | ⟨digits, hdigits, h⟩
  · obtain ⟨c, cs, hcs, hdigit⟩ := h.head_isDigit
    have hunsigned := isSome_unsigned? h
    split
    case h_1 hminus =>
      obtain ⟨rfl, -⟩ := List.cons.inj (hcs.symm.trans hminus)
      exact absurd hdigit (by decide)
    case h_2 hplus =>
      obtain ⟨rfl, -⟩ := List.cons.inj (hcs.symm.trans hplus)
      exact absurd hdigit (by decide)
    case h_3 => exact hunsigned
  · rw [hdigits]
    simpa using isSome_unsigned? h

end Number

theorem Operator.exists_updater (operator : Operator)
    (h : operator ∈ [.add, .subtract, .multiply, .divide]) : ∃ c ∈ Stretch.updaters,
      operator.symbol = String.singleton c ∧ operator.sign = ⟨.operator, String.singleton c⟩ := by
  simp only [List.mem_cons, List.not_mem_nil, or_false] at h
  rcases h with rfl | rfl | rfl | rfl
  · exact ⟨'+', by decide, rfl, rfl⟩
  · exact ⟨'-', by decide, rfl, rfl⟩
  · exact ⟨'*', by decide, rfl, rfl⟩
  · exact ⟨'/', by decide, rfl, rfl⟩

/-- A target is an expression, and no operator is its last step. -/
theorem Token.IsPath.derives {path : List Token} (h : IsPath path)
    (hfits : ∀ token ∈ path, token.lexeme.Fits) :
    ∃ target, Derives .linked (path.map Token.lexeme) target ∧
      ∀ operator left right, target ≠ .binary operator left right := by
  induction h with
  | @name name hname =>
    have hderives : Derives .primary [name.lexeme] (.name name.text) := .name hname
    exact ⟨_, hderives.loosen (by decide), by simp⟩
  | @member path dot name hpath hdot hname ih =>
    obtain ⟨object, hobject, -⟩ := ih fun token hmem => hfits token (by simp [hmem])
    have hlinks : DerivesLinks .linked object [dot.lexeme, name.lexeme] _ :=
      .member hdot hname .nil
    rw [List.map_append]
    exact ⟨_, hobject.append rfl hlinks, by simp⟩
  | @index path opener index closer hpath hopener hindex hcloser ih =>
    obtain ⟨object, hobject, -⟩ := ih fun token hmem => hfits token (by simp [hmem])
    have hproperty : ∃ property, Derives .primary [index.lexeme] property := by
      rcases hindex with hindex | hindex
      · have hnumber : IsNumber index.text.toList := by
          have hfit := hfits index (by simp)
          simpa [Lexeme.Fits, Token.lexeme, hindex] using hfit
        obtain ⟨value, hvalue⟩ := Option.isSome_iff_exists.mp (Number.isSome_read? hnumber)
        exact ⟨_, .number hindex hvalue⟩
      · exact ⟨_, .name hindex⟩
    obtain ⟨property, hproperty⟩ := hproperty
    have hlinks : DerivesLinks .linked object
        (opener.lexeme :: [index.lexeme] ++ closer.lexeme :: []) _ :=
      .index hopener hproperty.toAssignment hcloser .nil
    rw [List.map_append]
    exact ⟨_, hobject.append rfl hlinks, by simp⟩

/-- An operator that is joined to an operand stays the last step before the tail. -/
theorem Expr.exists_joined_binary (operator : Operator) (left right : Expr)
    (tail : List (Operator × Expr)) : ∃ operator' left' right',
      (Expr.binary operator left right).joined tail = .binary operator' left' right' := by
  induction tail generalizing operator left right with
  | nil => exact ⟨operator, left, right, rfl⟩
  | cons link tail ih => exact ih link.1 _ link.2

/-- Only an empty tail leaves the grouping as it is. -/
theorem Expr.joined_binary_eq_iff {operator : Operator} {left first : Expr}
    {tail : List (Operator × Expr)}
    (hleft : ∀ operator left' right, left ≠ .binary operator left' right) :
    (Expr.binary operator left first).joined tail = .binary operator left (first.joined tail) ↔
      tail = [] := by
  constructor
  · intro h
    rcases List.eq_nil_or_concat tail with hnil | ⟨init, link, rfl⟩
    · exact hnil
    · obtain ⟨operator', left', right', hinit⟩ := exists_joined_binary operator left first init
      rw [List.concat_eq_append, joined_append, hinit] at h
      exact absurd (Expr.binary.inj h).2.1.symm (hleft operator' left' right')
  · rintro rfl
    rfl

namespace Source

/-- A blank, the sign of an update and another blank, behind a target and in front of a value. -/
theorem says_update {target value : String} {tokens : List Token} {ls : List Lexeme} {c : Char}
    (htokens : tokenize target = .ok tokens) (hopen : endsOpen target = false)
    (hpath : Token.assignablePath? tokens.dropLast = some tokens.dropLast)
    (hc : c ∈ Stretch.updaters) (hvalue : Says value ls) :
    Says (target ++ " " ++ (String.ofList [c, '='] ++ " " ++ value))
      (tokens.dropLast.map Token.lexeme ++ ⟨.equals, "="⟩ ::
        (tokens.dropLast.map Token.lexeme ++ ⟨.operator, String.singleton c⟩ :: ls)) := by
  have htarget := says_of_tokenize htokens
  have hbefore : (behind [] (segments target)).map Token.lexeme =
      (tokens.dropLast.map Token.lexeme).reverse := by
    rw [map_lexeme_behind, (says_iff.mp htarget).2, List.map_nil, List.append_nil]
  have hplain : false = true → c = '+' ∨ c = '-' := by simp
  have hcompound : Spells _ [c, '='] _ (' ' :: value.toList ++ []) :=
    spells_compound hc hplain (pathBefore?_behind htokens hpath)
  rw [hbefore, Stretch.lexemes_compound, if_neg Bool.false_ne_true] at hcompound
  generalize tokens.dropLast.map Token.lexeme = ps at hcompound htarget ⊢
  -- The operator is the last thing said before the value.
  have hlast : (⟨.equals, "="⟩ :: (ps ++ [⟨.operator, String.singleton c⟩])).reverse ++ ps.reverse =
      ⟨.operator, String.singleton c⟩ :: (ps.reverse ++ ⟨.equals, "="⟩ :: ps.reverse) := by simp
  have hblank : Stretch.isBlank ' ' = true := rfl
  have hrest :
      Spells (⟨.operator, String.singleton c⟩ :: (ps.reverse ++ ⟨.equals, "="⟩ :: ps.reverse))
        (' ' :: value.toList) ls [] :=
    (spells_blank hblank).append (hvalue.spells rfl)
  rw [← hlast] at hrest
  have hall := (spells_blank hblank).append (hcompound.append hrest)
  refine htarget.append hopen ?_
  simpa using hall

end Source

namespace Program

/-- The operator of an update takes the first operand that it could take in any other place. What
follows it is joined to the outcome. So the value is taken as a whole only if nothing follows. -/
theorem parse_update {target value : String} {tokens : List Token} {ls semicolons : List Lexeme}
    {e : Expr} {operator : Operator} (htokens : Source.tokenize target = .ok tokens)
    (hopen : Source.endsOpen target = false)
    (hpath : Token.assignablePath? tokens.dropLast = some tokens.dropLast)
    (hoperator : operator ∈ [.add, .subtract, .multiply, .divide])
    (hvalue : Source.Says value (ls ++ semicolons)) (hderives : Derives .comparison ls e)
    (hsemicolons : ∀ l ∈ semicolons, l.kind = .semicolon) :
    ∃ (assigned operand : Expr) (first rest : List Lexeme) (tail : List (Operator × Expr)),
      parse target = .ok [.expr assigned] ∧ parse value = .ok [.expr e] ∧
      ls = first ++ rest ∧ Derives operator.operand first operand ∧
      DerivesTail operator.level .comparison rest tail ∧ e = operand.joined tail ∧
      parse (target ++ " " ++ operator.symbol ++ "= " ++ value) =
        .ok [.expr (.assign assigned ((Expr.binary operator assigned operand).joined tail))] ∧
      (parse (target ++ " " ++ operator.symbol ++ "= " ++ value) =
        .ok [.expr (.assign assigned (.binary operator assigned e))] ↔ tail = []) := by
  obtain ⟨c, hc, hsymbol, hsign⟩ := operator.exists_updater hoperator
  have hbehind := Source.pathBefore?_behind htokens hpath
  obtain ⟨assigned, hassigned, hplain⟩ := (Token.isPath_of_pathBefore? hbehind).derives
    (Source.fits_of_mem_path htokens hpath)
  obtain ⟨first, rest, operand, tail, rfl, hfirst, htail, rfl⟩ :=
    hderives.exists_operand operator (by decide) (by cases operator <;> decide)
  -- An update is an assignment of the target joined to the first operand. The tail comes behind.
  have hupdate : parse (target ++ " " ++ operator.symbol ++ "= " ++ value) =
      .ok [.expr (.assign assigned ((Expr.binary operator assigned operand).joined tail))] := by
    have hspelled := Source.says_update htokens hopen hpath hc hvalue
    have hleft : Derives operator.level _ assigned :=
      hassigned.loosen (by cases operator <;> decide)
    have hright := htail.derives (Derives.binary operator hleft hfirst)
    have hequals : (⟨.equals, "="⟩ : Lexeme).kind = .equals := rfl
    have hassign := Derives.assign (hassigned.loosen (by decide)) hequals hright.toAssignment
    have htext : target ++ " " ++ (String.ofList [c, '='] ++ " " ++ value) =
        target ++ " " ++ operator.symbol ++ "= " ++ value := by
      rw [hsymbol]
      apply String.toList_injective
      simp
    rw [htext] at hspelled
    refine parse_of_derives ?_ hassign hsemicolons
    rw [hsign]
    simpa using hspelled
  refine ⟨assigned, operand, first, rest, tail, ?_, ?_, rfl, hfirst, htail, rfl, hupdate, ?_⟩
  · exact parse_expression (Source.says_of_tokenize htokens) hassigned.toAssignment
  · exact parse_of_derives hvalue hderives.toAssignment hsemicolons
  · rw [hupdate]
    simpa using Expr.joined_binary_eq_iff hplain

/-- A product behind a sum, with a semicolon at the end, for a target with a negative index. The
operator could take a product but not the sum. -/
theorem parse_update_indexed :
    let e : Expr := .binary .add (.binary .multiply (.name "b") (.name "c")) (.name "d")
    ∃ (assigned operand : Expr) (first rest : List Lexeme) (tail : List (Operator × Expr)),
      Source.Says "b * c + d;" (first ++ rest ++ [⟨.semicolon, ";"⟩]) ∧
      Derives .comparison (first ++ rest) e ∧
      parse "a[-1]" = .ok [.expr assigned] ∧ parse "b * c + d;" = .ok [.expr e] ∧
      Derives .multiplicative first operand ∧ DerivesTail .additive .comparison rest tail ∧
      e = operand.joined tail ∧
      parse ("a[-1]" ++ " " ++ "-" ++ "= " ++ "b * c + d;") =
        .ok [.expr (.assign assigned ((Expr.binary .subtract assigned operand).joined tail))] := by
  have htokens : Source.tokenize "a[-1]" = .ok [.plain .identifier "a" ⟨0, 1⟩,
      .plain .openBracket "[" ⟨1, 2⟩, .plain .number "-1" ⟨2, 4⟩, .plain .closeBracket "]" ⟨4, 5⟩,
      .endOfFile 5] := by decide +kernel
  have hvalue : Source.Says "b * c + d;" ([⟨.identifier, "b"⟩, Operator.multiply.sign,
      ⟨.identifier, "c"⟩, Operator.add.sign, ⟨.identifier, "d"⟩] ++ [⟨.semicolon, ";"⟩]) := by
    unfold Source.Says
    decide +kernel
  have hname : ∀ id, Derives .primary [⟨.identifier, id⟩] (.name id) := fun id => .name rfl
  have hproduct : Derives .multiplicative _ (.binary .multiply (.name "b") (.name "c")) :=
    .binary .multiply ((hname "b").loosen (by decide)) ((hname "c").loosen (by decide))
  have hsum := Derives.binary .add (hproduct.loosen (by decide)) ((hname "d").loosen (by decide))
  have hcomparison := hsum.loosen (by decide : Level.comparison.rank ≤ _)
  obtain ⟨assigned, operand, first, rest, tail, htarget, hparse, hsplit, hfirst, htail, he,
    hupdate, -⟩ := parse_update htokens (by decide +kernel) (by decide +kernel)
      (by decide : Operator.subtract ∈ _) hvalue hcomparison (by simp)
  refine ⟨assigned, operand, first, rest, tail, ?_, ?_, htarget, hparse, hfirst, htail, he, hupdate⟩
  · rw [← hsplit]
    exact hvalue
  · rw [← hsplit]
    exact hcomparison

/-- The product is taken with the first summand only. -/
theorem updated_sum_torn : parse "x" = .ok [.expr (.name "x")] ∧
    parse "1 + 2" = .ok [.expr (.binary .add (.number 1) (.number 2))] ∧
    parse "x *= 1 + 2" = .ok [.expr (.assign (.name "x")
      (.binary .add (.binary .multiply (.name "x") (.number 1)) (.number 2)))] ∧
    parse "x *= 1 + 2" ≠ .ok [.expr (.assign (.name "x")
      (.binary .multiply (.name "x") (.binary .add (.number 1) (.number 2))))] := by
  have htarget : Source.tokenize "x" = .ok [.plain .identifier "x" ⟨0, 1⟩, .endOfFile 1] := by
    decide +kernel
  have hvalue : Source.tokenize "1 + 2" = .ok [.plain .number "1" ⟨0, 1⟩,
      .plain .operator "+" ⟨2, 3⟩, .plain .number "2" ⟨4, 5⟩, .endOfFile 5] := by decide +kernel
  have hupdate : Source.tokenize "x *= 1 + 2" = .ok [.plain .identifier "x" ⟨0, 1⟩,
      .plain .equals "=" ⟨2, 4⟩, .plain .identifier "x" ⟨0, 1⟩, .plain .operator "*" ⟨2, 4⟩,
      .plain .number "1" ⟨5, 6⟩, .plain .operator "+" ⟨7, 8⟩, .plain .number "2" ⟨9, 10⟩,
      .endOfFile 10] := by decide +kernel
  have hparse := parse_eq_ok_iff.mpr ⟨_, hupdate, rfl⟩
  refine ⟨parse_eq_ok_iff.mpr ⟨_, htarget, rfl⟩, parse_eq_ok_iff.mpr ⟨_, hvalue, rfl⟩, hparse, ?_⟩
  rw [hparse]
  simp

end Program
end Script
