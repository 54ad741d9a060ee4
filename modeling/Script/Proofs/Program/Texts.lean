import Script.Proofs.Program.Grouping
import Script.Proofs.Program.Placement
import Script.Proofs.Program.Soundness

namespace Script

theorem Source.lexeme_fits_of_mem_marked {source : String} :
    ∀ token ∈ marked source, token.lexeme.Fits := by
  intro token hmem
  rcases List.mem_append.mp hmem with hmem | hmem
  · exact forall_mem_tokens Stretch.Reads.fits_tokens source token hmem
  · obtain rfl := List.mem_singleton.mp hmem
    rfl

/-- The text of a sign says which operator it is. -/
theorem Lexeme.Fits.exists_sign {lexeme : Lexeme} (h : lexeme.Fits)
    (hkind : lexeme.kind ∈ .operator :: Kind.comparisons) :
    ∃ operator : Operator, lexeme = operator.sign := by
  obtain ⟨kind, text⟩ := lexeme
  simp only [Kind.comparisons, List.mem_cons, List.not_mem_nil, or_false] at hkind
  rcases hkind with rfl | rfl | rfl | rfl | rfl | rfl | rfl
  case inl =>
    simp only [Lexeme.Fits, List.mem_cons, List.not_mem_nil, or_false] at h
    rcases h with rfl | rfl | rfl | rfl | rfl
    · exact ⟨.add, rfl⟩
    · exact ⟨.subtract, rfl⟩
    · exact ⟨.multiply, rfl⟩
    · exact ⟨.divide, rfl⟩
    · exact ⟨.remainder, rfl⟩
  all_goals obtain rfl := Option.some.inj h
  · exact ⟨.equal, rfl⟩
  · exact ⟨.notEqual, rfl⟩
  · exact ⟨.greater, rfl⟩
  · exact ⟨.greaterEqual, rfl⟩
  · exact ⟨.less, rfl⟩
  · exact ⟨.lessEqual, rfl⟩

theorem Lexeme.Fits.isName {lexeme : Lexeme} (h : lexeme.Fits) (hkind : lexeme.kind = .identifier) :
    IsName lexeme.text := by
  rwa [Lexeme.Fits, hkind] at h

theorem Token.showsKind_of_fits {token : Token} (h : token.lexeme.Fits) : token.ShowsKind := by
  intro hkind
  have hspelled : ∀ kind ∈ Kind.comparisons, kind.spelling?.isSome = true := by decide
  obtain ⟨text, htext⟩ := Option.isSome_iff_exists.mp (hspelled _ hkind)
  rw [htext, ← h.spelling_eq htext]
  rfl

mutual

theorem Derives.isPlain {level : Level} {ls : List Lexeme} {e : Expr} :
    Derives level ls e → (∀ l ∈ ls, l.Fits) → e.Plain
  | .value h, hls => h.isPlain hls
  | .assign htarget _ hvalue, hls => by
    simp only [List.forall_mem_append, List.forall_mem_cons] at hls
    exact .assign (htarget.isPlain hls.1) (hvalue.isPlain hls.2.2)
  | .operand h, hls => h.isPlain hls
  | .object _ h _, hls => by
    simp only [List.cons_append, List.forall_mem_append, List.forall_mem_cons] at hls
    exact .object (h.isPlain hls.2.1)
  | .chain _ hfirst hlinks, hls => by
    rw [List.forall_mem_append] at hls
    exact hlinks.isPlain hls.2 (hfirst.isPlain hls.1)
  | @Derives.number l value hl hvalue, hls => by
    have hfits : l.Fits := List.forall_mem_singleton.mp hls
    rw [Lexeme.Fits, hl] at hfits
    exact .number ⟨l.text, hfits, hvalue⟩
  | .string _, _ => .string
  | @Derives.name l hl, hls => .name ((List.forall_mem_singleton.mp hls).isName hl)
  | .paren _ h _, hls => by
    simp only [List.cons_append, List.forall_mem_append, List.forall_mem_cons] at hls
    exact h.isPlain hls.2.1
  | .array _ h _, hls => by
    simp only [List.cons_append, List.forall_mem_append, List.forall_mem_cons] at hls
    exact .array (h.isPlain hls.2.1)

theorem DerivesLinks.isPlain {level : Level} {first e : Expr} {ls : List Lexeme} :
    DerivesLinks level first ls e → (∀ l ∈ ls, l.Fits) → first.Plain → e.Plain
  | .nil, _, hfirst => hfirst
  | .binary _ hright hlinks, hls, hfirst => by
    simp only [List.cons_append, List.forall_mem_append, List.forall_mem_cons] at hls
    exact hlinks.isPlain hls.2.2 (.binary hfirst (hright.isPlain hls.2.1))
  | .member _ hname hlinks, hls, hfirst => by
    simp only [List.forall_mem_cons] at hls
    exact hlinks.isPlain hls.2.2 (.member hfirst (hls.2.1.isName hname))
  | .index _ h _ hlinks, hls, hfirst => by
    simp only [List.cons_append, List.forall_mem_append, List.forall_mem_cons] at hls
    exact hlinks.isPlain hls.2.2.2 (.index hfirst (h.isPlain hls.2.1))
  | .call _ h _ hlinks, hls, hfirst => by
    simp only [List.cons_append, List.forall_mem_append, List.forall_mem_cons] at hls
    exact hlinks.isPlain hls.2.2.2 (.call hfirst (h.isPlain hls.2.1))

theorem DerivesItems.isPlain {ls : List Lexeme} {es : List Expr} :
    DerivesItems ls es → (∀ l ∈ ls, l.Fits) → ∀ e ∈ es, e.Plain
  | .nil, _ => by simp
  | .last h, hls => List.forall_mem_singleton.mpr (h.isPlain hls)
  | .cons h _ hrest, hls => by
    simp only [List.forall_mem_append, List.forall_mem_cons] at hls
    exact List.forall_mem_cons.mpr ⟨h.isPlain hls.1, hrest.isPlain hls.2.2⟩

theorem DerivesProperties.isPlain {ls : List Lexeme} {properties : List Property} :
    DerivesProperties ls properties → (∀ l ∈ ls, l.Fits) → ∀ property ∈ properties, property.Plain
  | .nil, _ => by simp
  | .last h, hls => List.forall_mem_singleton.mpr (h.isPlain hls)
  | .cons h _ hrest, hls => by
    simp only [List.forall_mem_append, List.forall_mem_cons] at hls
    exact List.forall_mem_cons.mpr ⟨h.isPlain hls.1, hrest.isPlain hls.2.2⟩

theorem DerivesProperty.isPlain {ls : List Lexeme} {property : Property} :
    DerivesProperty ls property → (∀ l ∈ ls, l.Fits) → property.Plain
  | .copied hkey, hls => .copied ((List.forall_mem_singleton.mp hls).isName hkey)
  | .given hkey _ hvalue, hls => by
    simp only [List.forall_mem_cons] at hls
    exact .given (hls.1.isName hkey) (hvalue.isPlain hls.2.2)

end

theorem DerivesNames.isName {ls : List Lexeme} {names : List String} (h : DerivesNames ls names)
    (hls : ∀ l ∈ ls, l.Fits) : ∀ name ∈ names, IsName name := by
  induction h with
  | last hname =>
    rw [List.forall_mem_singleton] at hls ⊢
    exact hls.isName hname
  | cons hname _ _ ih =>
    simp only [List.forall_mem_cons] at hls
    exact List.forall_mem_cons.mpr ⟨hls.1.isName hname, ih hls.2.2⟩

theorem DerivesParameters.isName {ls : List Lexeme} {parameters : List String}
    (h : DerivesParameters ls parameters) (hls : ∀ l ∈ ls, l.Fits) :
    ∀ parameter ∈ parameters, IsName parameter := by
  cases h with
  | none => simp
  | names h => exact h.isName hls

mutual

theorem DerivesForm.isPlain {ls : List Lexeme} {stmt : Stmt} :
    DerivesForm ls stmt → (∀ l ∈ ls, l.Fits) → stmt.Plain
  | .bare _ hname, hls => by
    simp only [List.forall_mem_cons] at hls
    exact .bare (hls.2.1.isName hname)
  | .declare _ hname _ hvalue, hls => by
    simp only [List.forall_mem_cons] at hls
    exact .declare (hls.2.1.isName hname) (hvalue.isPlain hls.2.2.2)
  | .function _ hname _ hparameters _ _ hbody _, hls => by
    simp only [List.cons_append, List.append_assoc, List.forall_mem_append,
      List.forall_mem_cons] at hls
    obtain ⟨-, hid, -, hinside, -, -, hinner, -⟩ := hls
    exact .function (hid.isName hname) (hparameters.isName hinside) (hbody.isPlain hinner)
  | .expr h, hls => .expr (h.isPlain hls)

theorem DerivesStmt.isPlain {ls : List Lexeme} {stmt : Stmt} :
    DerivesStmt ls stmt → (∀ l ∈ ls, l.Fits) → stmt.Plain
  | .plain h, hls => h.isPlain hls
  | .ended h _, hls => h.isPlain (List.forall_mem_append.mp hls).1

theorem DerivesBody.isPlain {ls : List Lexeme} {stmts : List Stmt} :
    DerivesBody ls stmts → (∀ l ∈ ls, l.Fits) → ∀ stmt ∈ stmts, stmt.Plain
  | .nil, _ => by simp
  | .semicolon _ h, hls => h.isPlain (List.forall_mem_cons.mp hls).2
  | .cons h hrest, hls => by
    rw [List.forall_mem_append] at hls
    exact List.forall_mem_cons.mpr ⟨h.isPlain hls.1, hrest.isPlain hls.2⟩

end

namespace SyntaxError

def StartsOtherwise (text : String) : Prop :=
  ∃ c ∈ text.toList.head?, c ≠ 'I'

theorem StartsOtherwise.append {text : String} (h : StartsOtherwise text) (more : String) :
    StartsOtherwise (text ++ more) := by
  obtain ⟨c, hc, hne⟩ := h
  refine ⟨c, ?_, hne⟩
  rw [String.toList_append, List.head?_append, Option.mem_def.mp hc]
  rfl

theorem Cause.startsOtherwise_message {cause : Cause} (h : ∀ text, cause ≠ .badNumber text) :
    StartsOtherwise cause.message := by
  cases cause with
  | badNumber text => exact absurd rfl (h text)
  | reserved kind =>
    have hkind : StartsOtherwise kind.description := by
      cases kind <;> exact ⟨_, rfl, by decide⟩
    exact hkind.append _
  | expectedName role found =>
    have hrole : StartsOtherwise role.message := by
      cases role <;> exact ⟨'E', rfl, by decide⟩
    exact hrole
  | unrecognized c => exact .append (.append ⟨'U', rfl, by decide⟩ _) _
  | unexpected kind => exact .append ⟨'U', rfl, by decide⟩ _
  | uninitialized name => exact .append (.append ⟨'C', rfl, by decide⟩ _) _
  | expected kind found => exact .append (.append (.append ⟨'E', rfl, by decide⟩ _) _) _
  | expectedColon key => exact .append (.append ⟨'E', rfl, by decide⟩ _) _

/-- No error but one about a number calls anything invalid. -/
theorem Cause.exists_eq_badNumber {cause : Cause}
    (h : "Invalid number literal".toList <+: cause.message.toList) :
    ∃ text, cause = .badNumber text := by
  by_contra hcause
  rw [not_exists] at hcause
  obtain ⟨c, hc, hne⟩ := startsOtherwise_message hcause
  obtain ⟨rest, hrest⟩ := h
  rw [← hrest, List.head?_append] at hc
  exact hne (Option.some.inj hc).symm

theorem Among.cause_ne_badNumber {source : String} {error : SyntaxError}
    (h : error.Among (Source.marked source)) (text : String) : error.cause ≠ .badNumber text := by
  intro hcause
  obtain ⟨first, hfirst, -, -, -, hof⟩ := h
  rw [hcause] at hof
  obtain ⟨hkind, rfl, hread⟩ := hof
  have hfits : first.lexeme.Fits := Source.lexeme_fits_of_mem_marked first hfirst
  have hnumber : IsNumber first.text.toList := by
    rwa [Lexeme.Fits, show first.lexeme.kind = .number from hkind] at hfits
  have hsome := Number.isSome_read? hnumber
  rw [hread] at hsome
  cases hsome

end SyntaxError

namespace Program

theorem parse_cause_ne_badNumber {source : String} {errors : List SyntaxError}
    (h : parse source = .error errors) :
    ∀ error ∈ errors, ∀ text, error.cause ≠ .badNumber text := by
  intro error hmem text
  rw [parse] at h
  cases htokens : Source.tokenize source with
  | ok tokens =>
    obtain ⟨-, rfl⟩ := Source.tokenize_eq_ok_iff.mp htokens
    rw [htokens] at h
    exact ((ofTokens_errors_among h).2.1 error hmem).cause_ne_badNumber text
  | error strays =>
    rw [htokens] at h
    obtain rfl := Except.error.inj h
    obtain ⟨stray, -, rfl⟩ := List.mem_map.mp hmem
    simp [SyntaxError.ofUnrecognized]

theorem isPlain_of_parse {source : String} {program : Program} (h : parse source = .ok program) :
    ∀ stmt ∈ program, stmt.Plain := by
  obtain ⟨tokens, htokens, hprogram⟩ := parse_eq_ok_iff.mp h
  obtain ⟨-, rfl⟩ := Source.tokenize_eq_ok_iff.mp htokens
  have hfits : ∀ token ∈ Source.marked source, token.lexeme.Fits :=
    Source.lexeme_fits_of_mem_marked
  have hready := Cursor.ready_ofTokens fun token hmem => Token.showsKind_of_fits (hfits token hmem)
  have hderives := Parser.statements_sound hready (le_refl _) (ofTokens_eq_ok_iff.mp hprogram)
  refine hderives.isPlain fun l hl => ?_
  obtain ⟨token, htoken, rfl⟩ := List.mem_map.mp hl
  exact hfits token ((List.takeWhile_sublist _).subset htoken)

/-- The texts of tokens fit their kinds: names, keywords, numbers and signs are written as such, and
every sign is an operator that the parser knows. So no number is ever called invalid, and all names
of a program are names. -/
theorem parse_trusts_texts (source : String) :
    (∀ tokens, Source.tokenize source = .ok tokens → ∀ token ∈ tokens, token.lexeme.Fits ∧
      (token.kind ∈ .operator :: Kind.comparisons → ∃ operator,
        Operator.ofSymbol? token.text = some operator ∧
          operator.level.operator? token = some operator)) ∧
      (∀ errors, parse source = .error errors → ∀ error ∈ errors,
        ¬"Invalid number literal".toList <+: error.message.toList) ∧
      ∀ program, parse source = .ok program → ∀ stmt ∈ program, stmt.Plain := by
  refine ⟨fun tokens htokens token hmem => ?_, fun errors h error hmem hmessage => ?_,
    fun program h => isPlain_of_parse h⟩
  · obtain ⟨-, rfl⟩ := Source.tokenize_eq_ok_iff.mp htokens
    have hfits : token.lexeme.Fits := Source.lexeme_fits_of_mem_marked token hmem
    refine ⟨hfits, fun hkind => ?_⟩
    obtain ⟨operator, hsign⟩ := hfits.exists_sign hkind
    have htext : token.text = operator.symbol := congrArg Lexeme.text hsign
    exact ⟨operator, htext ▸ Operator.ofSymbol?_symbol operator, Level.operator?_sign hsign⟩
  · obtain ⟨text, hcause⟩ := SyntaxError.Cause.exists_eq_badNumber hmessage
    exact parse_cause_ne_badNumber h error hmem text hcause

end Program
end Script
