import Script.Proofs.Program.Printer

namespace Script

open Lexeme Source

/-- Where an operand comes before, or does not, as `a` says, the lexemes all mean themselves, and
they close an operand or not, as `b` says. -/
def Settles (a : Bool) (ls : List Lexeme) (b : Bool) : Prop :=
  ∀ before, closesOperand before = a →
    Standing before ls ∧ closesOperand (ls.reverse ++ before) = b

namespace Settles

variable {a b c : Bool} {ls ms : List Lexeme} {l : Lexeme} {kind : Kind}

theorem nil : Settles a [] a :=
  fun _ hbefore => ⟨trivial, hbefore⟩

theorem append (hls : Settles a ls b) (hms : Settles b ms c) : Settles a (ls ++ ms) c := by
  intro before hbefore
  obtain ⟨hstanding, hcloses⟩ := hls before hbefore
  obtain ⟨hstanding', hcloses'⟩ := hms _ hcloses
  refine ⟨standing_append.mpr ⟨hstanding, hstanding'⟩, ?_⟩
  rw [List.reverse_append, List.append_assoc]
  exact hcloses'

theorem mark (hl : l.kind = kind) (hkind : kind ≠ .number ∧ kind ≠ .operator) :
    Settles a [l] kind.endsOperand := by
  subst hl
  intro before hbefore
  refine ⟨⟨⟨?_, ?_⟩, trivial⟩, rfl⟩
  · intro hnumber
    exact absurd hnumber hkind.1
  · intro hminus
    exact absurd (congrArg Lexeme.kind hminus) hkind.2

theorem name (id : String) : Settles a [⟨.identifier, id⟩] true :=
  mark rfl (by simp)

theorem number (hl : l.kind = .number) : Settles false [l] true := by
  intro before hbefore
  refine ⟨⟨⟨fun _ _ => hbefore, ?_⟩, trivial⟩, ?_⟩
  · intro hminus
    rw [hminus] at hl
    cases hl
  · simp [closesOperand, hl, Kind.endsOperand]

theorem sign (operator : Operator) : Settles true [operator.sign] false := by
  intro before hbefore
  refine ⟨⟨⟨?_, fun _ => hbefore⟩, trivial⟩, ?_⟩
  · intro hnumber
    cases operator <;> cases hnumber
  · cases operator <;> rfl

end Settles

theorem Level.comparison_le_operand {level operand : Level} (h : level.operand? = some operand) :
    Level.comparison.rank ≤ operand.rank := by
  cases level <;> cases h <;> decide

mutual

/-- Operands come where none is before, and operators where one is. -/
theorem Derives.settles {level : Level} {ls : List Lexeme} {e : Expr} : Derives level ls e →
    ∃ b, Settles false ls b ∧ (Level.comparison.rank ≤ level.rank → b = true)
  | .value h => by
    obtain ⟨b, hls, -⟩ := h.settles
    exact ⟨b, hls, fun hrank => absurd hrank (by decide)⟩
  | .assign htarget hequals hvalue => by
    obtain ⟨b, hls, -⟩ := htarget.settles
    obtain ⟨b', hms, -⟩ := hvalue.settles
    exact ⟨b', hls.append ((Settles.mark hequals (by decide)).append hms),
      fun hrank => absurd hrank (by decide)⟩
  | .operand h => by
    obtain ⟨b, hls, -⟩ := h.settles
    exact ⟨b, hls, fun hrank => absurd hrank (by decide)⟩
  | .object hopener h hcloser => by
    obtain ⟨b, hls⟩ := h.settles
    exact ⟨_, ((Settles.mark hopener (by decide)).append hls).append
      (Settles.mark hcloser (by decide)), fun hrank => absurd hrank (by decide)⟩
  | .chain hlevel hfirst hlinks => by
    obtain ⟨b, hls, hb⟩ := hfirst.settles
    -- Only an object or an assignment can end without closing an operand.
    obtain rfl := hb (Level.comparison_le_operand hlevel)
    exact ⟨true, hls.append hlinks.settles, fun _ => rfl⟩
  | .number hl _ => ⟨true, .number hl, fun _ => rfl⟩
  | .string hl => ⟨true, .mark hl (by decide), fun _ => rfl⟩
  | .name hl => ⟨true, .mark hl (by decide), fun _ => rfl⟩
  | .paren hopener h hcloser => by
    obtain ⟨b, hls, -⟩ := h.settles
    exact ⟨true, ((Settles.mark hopener (by decide)).append hls).append
      (Settles.mark hcloser (by decide)), fun _ => rfl⟩
  | .array hopener h hcloser => by
    obtain ⟨b, hls⟩ := h.settles
    exact ⟨true, ((Settles.mark hopener (by decide)).append hls).append
      (Settles.mark hcloser (by decide)), fun _ => rfl⟩

theorem DerivesLinks.settles {level : Level} {ls : List Lexeme} {e e' : Expr} :
    DerivesLinks level e ls e' → Settles true ls true
  | .nil => .nil
  | .binary hlevel hright hlinks => by
    obtain ⟨b, hls, hb⟩ := hright.settles
    obtain rfl := hb (Level.comparison_le_operand hlevel)
    exact ((Settles.sign _).append hls).append hlinks.settles
  | .member hdot hname hlinks =>
    (Settles.mark hdot (by decide)).append ((Settles.mark hname (by decide)).append hlinks.settles)
  | .index hopener h hcloser hlinks => by
    obtain ⟨b, hls, -⟩ := h.settles
    exact ((Settles.mark hopener (by decide)).append hls).append
      ((Settles.mark hcloser (by decide)).append hlinks.settles)
  | .call hopener h hcloser hlinks => by
    obtain ⟨b, hls⟩ := h.settles
    exact ((Settles.mark hopener (by decide)).append hls).append
      ((Settles.mark hcloser (by decide)).append hlinks.settles)

theorem DerivesItems.settles {ls : List Lexeme} {es : List Expr} :
    DerivesItems ls es → ∃ b, Settles false ls b
  | .nil => ⟨false, .nil⟩
  | .last h => by
    obtain ⟨b, hls, -⟩ := h.settles
    exact ⟨b, hls⟩
  | .cons h hcomma hrest => by
    obtain ⟨b, hls, -⟩ := h.settles
    obtain ⟨b', hms⟩ := hrest.settles
    exact ⟨b', hls.append ((Settles.mark hcomma (by decide)).append hms)⟩

theorem DerivesProperties.settles {ls : List Lexeme} {properties : List Property} :
    DerivesProperties ls properties → ∃ b, Settles false ls b
  | .nil => ⟨false, .nil⟩
  | .last h => h.settles
  | .cons h hcomma hrest => by
    obtain ⟨b, hls⟩ := h.settles
    obtain ⟨b', hms⟩ := hrest.settles
    exact ⟨b', hls.append ((Settles.mark hcomma (by decide)).append hms)⟩

theorem DerivesProperty.settles {ls : List Lexeme} {property : Property} :
    DerivesProperty ls property → ∃ b, Settles false ls b
  | .copied hkey => ⟨true, .mark hkey (by decide)⟩
  | .given hkey hcolon hvalue => by
    obtain ⟨b, hls, -⟩ := hvalue.settles
    exact ⟨b, (Settles.mark hkey (by decide)).append
      ((Settles.mark hcolon (by decide)).append hls)⟩

end

def Lexeme.Writable (lexeme : Lexeme) : Prop :=
  lexeme.Fits ∧ lexeme.kind ≠ .endOfFile

theorem Kind.writable_mark {kind : Kind} (hspelling : kind.spelling?.isSome = true)
    (hend : kind ≠ .endOfFile) : kind.mark.Writable := by
  obtain ⟨text, htext⟩ := Option.isSome_iff_exists.mp hspelling
  refine ⟨?_, hend⟩
  rw [mark, htext]
  cases kind <;> simp_all [Lexeme.Fits, spelling?]

theorem IsName.writable {id : String} (h : IsName id) : Lexeme.Writable ⟨.identifier, id⟩ :=
  ⟨h, by simp⟩

theorem Operator.writable_sign (operator : Operator) : operator.sign.Writable := by
  cases operator <;> exact ⟨by simp [Lexeme.Fits, sign, kind, symbol, Kind.spelling?], by decide⟩

theorem Level.writable_enclose {place : Level} {e : Expr} {ls : List Lexeme}
    (h : ∀ l ∈ ls, l.Writable) : ∀ l ∈ place.enclose e ls, l.Writable := by
  rw [Level.enclose]
  split
  · rw [List.forall_mem_append, List.forall_mem_cons, List.forall_mem_singleton]
    exact ⟨⟨Kind.writable_mark rfl (by decide), h⟩, Kind.writable_mark rfl (by decide)⟩
  · exact h

theorem writable_separated {parts : List (List Lexeme)}
    (h : ∀ part ∈ parts, ∀ l ∈ part, l.Writable) : ∀ l ∈ separated parts, l.Writable := by
  induction parts with
  | nil => simp [separated]
  | cons part parts ih =>
    rw [List.forall_mem_cons] at h
    cases parts with
    | nil =>
      rw [separated_singleton]
      exact h.1
    | cons next parts =>
      rw [separated_cons_cons, List.forall_mem_append, List.forall_mem_cons]
      exact ⟨h.1, Kind.writable_mark rfl (by decide), ih h.2⟩

mutual

theorem Expr.writable_print {numeral : Float → String} (hnumeral : Number.Writes numeral)
    {e : Expr} : e.Plain → ∀ l ∈ e.print numeral, l.Writable
  | .number h => by
    rw [Expr.print, List.forall_mem_singleton]
    exact ⟨(hnumeral _ h).1, by simp⟩
  | .string => by
    rw [Expr.print, List.forall_mem_singleton]
    exact ⟨trivial, by simp⟩
  | .name h => by
    rw [Expr.print, List.forall_mem_singleton]
    exact h.writable
  | .binary hleft hright => by
    rw [Expr.print, List.forall_mem_append, List.forall_mem_cons]
    exact ⟨Level.writable_enclose (Expr.writable_print hnumeral hleft), Operator.writable_sign _,
      Level.writable_enclose (Expr.writable_print hnumeral hright)⟩
  | .assign htarget hvalue => by
    rw [Expr.print, List.forall_mem_append, List.forall_mem_cons]
    exact ⟨Level.writable_enclose (Expr.writable_print hnumeral htarget),
      Kind.writable_mark rfl (by decide), Expr.writable_print hnumeral hvalue⟩
  | .object h => by
    rw [Expr.print, printProperties_eq, List.forall_mem_append, List.forall_mem_cons,
      List.forall_mem_singleton]
    refine ⟨⟨Kind.writable_mark rfl (by decide), writable_separated ?_⟩,
      Kind.writable_mark rfl (by decide)⟩
    rw [List.forall_mem_map]
    exact fun p hp => Property.writable_print hnumeral (h p hp)
  | .array h => by
    rw [Expr.print, printEach_eq, List.forall_mem_append, List.forall_mem_cons,
      List.forall_mem_singleton]
    refine ⟨⟨Kind.writable_mark rfl (by decide), writable_separated ?_⟩,
      Kind.writable_mark rfl (by decide)⟩
    rw [List.forall_mem_map]
    exact fun e he => Expr.writable_print hnumeral (h e he)
  | .member hobject hid => by
    rw [Expr.print, List.forall_mem_append, List.forall_mem_cons, Expr.print,
      List.forall_mem_singleton]
    exact ⟨Level.writable_enclose (Expr.writable_print hnumeral hobject),
      Kind.writable_mark rfl (by decide), hid.writable⟩
  | .index hobject hproperty => by
    rw [Expr.print, List.forall_mem_append, List.forall_mem_append, List.forall_mem_cons,
      List.forall_mem_singleton]
    exact ⟨Level.writable_enclose (Expr.writable_print hnumeral hobject),
      ⟨Kind.writable_mark rfl (by decide), Expr.writable_print hnumeral hproperty⟩,
      Kind.writable_mark rfl (by decide)⟩
  | .call hcallee harguments => by
    rw [Expr.print, printEach_eq, List.forall_mem_append, List.forall_mem_append,
      List.forall_mem_cons, List.forall_mem_singleton]
    refine ⟨Level.writable_enclose (Expr.writable_print hnumeral hcallee),
      ⟨Kind.writable_mark rfl (by decide), writable_separated ?_⟩,
      Kind.writable_mark rfl (by decide)⟩
    rw [List.forall_mem_map]
    exact fun e he => Expr.writable_print hnumeral (harguments e he)

theorem Property.writable_print {numeral : Float → String} (hnumeral : Number.Writes numeral)
    {property : Property} : property.Plain → ∀ l ∈ property.print numeral, l.Writable
  | .copied hkey => by
    rw [Property.print, List.forall_mem_singleton]
    exact hkey.writable
  | .given hkey hvalue => by
    rw [Property.print, List.forall_mem_cons, List.forall_mem_cons]
    exact ⟨hkey.writable, Kind.writable_mark rfl (by decide),
      Expr.writable_print hnumeral hvalue⟩

end

section Body

variable {numeral : Float → String} {body : List Stmt}

theorem writable_printBody (h : ∀ stmt ∈ body, ∀ l ∈ stmt.print numeral, l.Writable) :
    ∀ l ∈ printBody numeral body, l.Writable := by
  induction body with
  | nil => simp [printBody]
  | cons stmt body ih =>
    rw [List.forall_mem_cons] at h
    rw [printBody, List.forall_mem_append, List.forall_mem_cons]
    exact ⟨h.1, Kind.writable_mark rfl (by decide), ih h.2⟩

theorem settles_printBody (h : ∀ stmt ∈ body, ∃ b, Settles false (stmt.print numeral) b) :
    Settles false (printBody numeral body) false := by
  induction body with
  | nil => exact .nil
  | cons stmt body ih =>
    rw [List.forall_mem_cons] at h
    obtain ⟨b, hstmt⟩ := h.1
    rw [printBody]
    exact hstmt.append ((Settles.mark rfl (by decide)).append (ih h.2))

end Body

theorem settles_separated {parts : List (List Lexeme)}
    (h : ∀ part ∈ parts, ∃ b, Settles false part b) : ∃ b, Settles false (separated parts) b := by
  induction parts with
  | nil => exact ⟨false, .nil⟩
  | cons part parts ih =>
    rw [List.forall_mem_cons] at h
    cases parts with
    | nil =>
      rw [separated_singleton]
      exact h.1
    | cons next parts =>
      obtain ⟨b, hpart⟩ := h.1
      obtain ⟨b', hrest⟩ := ih h.2
      rw [separated_cons_cons]
      exact ⟨b', hpart.append ((Settles.mark rfl (by decide)).append hrest)⟩

theorem Stmt.writable_print {numeral : Float → String} (hnumeral : Number.Writes numeral)
    {stmt : Stmt} : stmt.Plain → ∀ l ∈ stmt.print numeral, l.Writable
  | .bare hname => by
    rw [Stmt.print, List.forall_mem_cons, List.forall_mem_singleton]
    exact ⟨Kind.writable_mark rfl (by decide), hname.writable⟩
  | @Stmt.Plain.declare constant _ _ hname hvalue => by
    rw [Stmt.print, List.forall_mem_cons, List.forall_mem_cons, List.forall_mem_cons]
    refine ⟨?_, hname.writable, Kind.writable_mark rfl (by decide),
      Expr.writable_print hnumeral hvalue⟩
    cases constant <;> exact Kind.writable_mark rfl (by decide)
  | .function hname hparameters hbody => by
    rw [Stmt.print]
    simp only [List.forall_mem_append, List.forall_mem_cons]
    refine ⟨⟨Kind.writable_mark rfl (by decide), hname.writable, Kind.writable_mark rfl (by decide),
      writable_separated ?_⟩, ⟨Kind.writable_mark rfl (by decide),
      Kind.writable_mark rfl (by decide), writable_printBody fun stmt hstmt =>
        Stmt.writable_print hnumeral (hbody stmt hstmt)⟩, Kind.writable_mark rfl (by decide), ?_⟩
    · rw [List.forall_mem_map]
      intro parameter hmem
      rw [List.forall_mem_singleton]
      exact (hparameters parameter hmem).writable
    · simp
  | .expr h => Expr.writable_print hnumeral h

theorem Stmt.settles_print {numeral : Float → String} (hnumeral : Number.Writes numeral)
    {stmt : Stmt} : stmt.Plain → ∃ b, Settles false (stmt.print numeral) b
  | .bare _ => ⟨true, (Settles.mark rfl (by decide)).append (Settles.name _)⟩
  | @Stmt.Plain.declare constant _ _ _ hvalue => by
    have hword : Settles false [(if constant then Kind.constWord else .letWord).mark] false := by
      cases constant <;> exact Settles.mark rfl (by decide)
    have hequals : Settles true [Kind.equals.mark] false := Settles.mark rfl (by decide)
    obtain ⟨b, hvalue, -⟩ := (Expr.derives_print hnumeral hvalue).settles
    exact ⟨b, hword.append ((Settles.name _).append (hequals.append hvalue))⟩
  | @Stmt.Plain.function name parameters body _ _ hbody => by
    have hhead :
        Settles false [Kind.funcWord.mark, ⟨.identifier, name⟩, Kind.openParen.mark] false :=
      (Settles.mark rfl (by decide)).append ((Settles.name name).append
        (Settles.mark rfl (by decide)))
    have hmiddle : ∀ b, Settles b [Kind.closeParen.mark, Kind.openBrace.mark] false :=
      fun b => (Settles.mark rfl (by decide)).append (Settles.mark rfl (by decide))
    obtain ⟨b, hparameters⟩ := settles_separated (List.forall_mem_map.mpr fun parameter _ =>
      ⟨true, Settles.name parameter⟩ : ∀ part ∈ parameters.map fun parameter =>
        [(⟨.identifier, parameter⟩ : Lexeme)], ∃ b, Settles false part b)
    have hstmts := settles_printBody fun stmt hstmt =>
      Stmt.settles_print hnumeral (hbody stmt hstmt)
    have hlast : Settles false [Kind.closeBrace.mark] false := Settles.mark rfl (by decide)
    exact ⟨false, (hhead.append hparameters).append (((hmiddle b).append hstmts).append hlast)⟩
  | .expr h => by
    obtain ⟨b, hb, -⟩ := (Expr.derives_print hnumeral h).settles
    exact ⟨b, hb⟩

/-- No statement starts with a token that ends one. -/
theorem Stmt.head_print {numeral : Float → String} (hnumeral : Number.Writes numeral) {stmt : Stmt}
    (h : stmt.Plain) : ∃ l ms, stmt.print numeral = l :: ms ∧
      l.kind ∉ [.semicolon, .closeBrace, .endOfFile] := by
  cases h with
  | bare => exact ⟨_, _, rfl, by decide⟩
  | @declare constant =>
    refine ⟨_, _, rfl, ?_⟩
    cases constant <;> decide
  | function => exact ⟨_, _, rfl, by decide⟩
  | expr h =>
    obtain ⟨l, ms, hls, hl⟩ := (Expr.derives_print hnumeral h).startsWith
    refine ⟨l, ms, hls, ?_⟩
    rcases hl with hl | ⟨hl, -⟩
    · have hopeners : ∀ kind ∈ Kind.openers, kind ∉ [.semicolon, .closeBrace, .endOfFile] := by
        decide
      exact hopeners _ hl
    · rw [hl]
      decide

theorem Stmt.current_kind_print {numeral : Float → String} (hnumeral : Number.Writes numeral)
    {stmt : Stmt} {c c' : Cursor} (h : stmt.Plain) (hsteps : c.Steps (stmt.print numeral) c') :
    c.current.kind ≠ .semicolon ∧ c.current.kind ≠ .closeBrace ∧ c.current.kind ≠ .endOfFile := by
  obtain ⟨l, ms, hprint, hkind⟩ := stmt.head_print hnumeral h
  rw [hprint] at hsteps
  have hl : c.current.kind = l.kind := congrArg Lexeme.kind hsteps.2.1
  rw [← hl] at hkind
  simpa using hkind

namespace Parser

variable {numeral : Float → String} {n m : Nat} {c c' : Cursor}

def ReadsBack (numeral : Float → String) (n : Nat) (stmt : Stmt) : Prop :=
  ∀ ⦃c c' : Cursor⦄, c.Steps (stmt.print numeral) c' → c'.current.kind = .semicolon →
    (stmt.print numeral).length ≤ n → statement n c = .ok stmt c'.next

theorem block_nil {statement : Parser Stmt} (hcloser : c.current.kind = .closeBrace) :
    block statement n c = .ok [] c.next := by
  cases n with
  | zero => exact expect_bind hcloser _
  | succ n =>
    rw [block, atCloser_bind, decide_eq_true (.inl hcloser), if_pos rfl]
    exact expect_bind hcloser _

theorem block_printBody (hnumeral : Number.Writes numeral) {body : List Stmt}
    (hplain : ∀ stmt ∈ body, stmt.Plain) (hbody : ∀ stmt ∈ body, ReadsBack numeral n stmt)
    (hsteps : c.Steps (printBody numeral body) c') (hcloser : c'.current.kind = .closeBrace)
    (hm : (printBody numeral body).length ≤ m) (hn : m ≤ n) :
    block (statement n) m c = .ok body c'.next := by
  induction body generalizing m c with
  | nil =>
    obtain rfl := hsteps
    exact block_nil hcloser
  | cons stmt body ih =>
    rw [List.forall_mem_cons] at hplain hbody
    rw [printBody] at hsteps hm
    rw [List.length_append, List.length_cons] at hm
    obtain ⟨m, rfl⟩ : ∃ k, m = k + 1 := ⟨m - 1, by omega⟩
    obtain ⟨c₁, hstmt, _, hl, hrest⟩ := Cursor.steps_append.mp hsteps
    have hkind := stmt.current_kind_print hnumeral hplain.1 hstmt
    have hopen : ¬(c.current.kind = .closeBrace ∨ c.current.kind = .endOfFile) :=
      not_or.mpr hkind.2
    have hread := hbody.1 hstmt (congrArg Lexeme.kind hl) (by omega)
    have hrest := ih hplain.2 hbody.2 hrest (by omega : _ ≤ m) (by omega)
    rw [block, atCloser_bind, decide_eq_false hopen, if_neg (by simp), accept_bind,
      if_neg hkind.1, if_neg (by simp), bind_of_ok hread, bind_of_ok hrest]
    rfl

theorem expression_print (hnumeral : Number.Writes numeral) {e : Expr} (h : e.Plain)
    (hsteps : c.Steps (e.print numeral) c') (hn : (e.print numeral).length ≤ n)
    (hstops : Level.assignment.Stops c'.current) : expression n c = .ok e c' := by
  have hderives := (Expr.derives_print hnumeral h).toAssignment
  have hpos := hderives.length_pos
  rw [Level.expression_eq (by omega)]
  exact hderives.parses hsteps (by omega) hstops

theorem form_expr (h : Level.assignment.StartsWith c.current.kind) :
    form n c = (Stmt.expr <$> expression (n + 1)) c := by
  rw [form, peek_bind]
  rcases h with h | ⟨h, -⟩
  · simp only [Kind.openers, List.mem_cons, List.not_mem_nil, or_false] at h
    rcases h with h | h | h | h | h <;> rw [h]
  · rw [h]

theorem form_declaration (h : c.current.kind = .letWord ∨ c.current.kind = .constWord) :
    form n c = declaration n c := by
  rw [form, peek_bind]
  rcases h with h | h <;> rw [h]

theorem function_apply {statement : Parser Stmt} {names : List String} {body : List Stmt}
    {c₁ c₂ : Cursor} (hword : c.current.kind = .funcWord)
    (hname : c.next.current.kind = .identifier) (hopener : c.next.next.current.kind = .openParen)
    (hnames : names = [] ∧ c.next.next.next = c₁ ∨
      c.next.next.next.current.kind ≠ .closeParen ∧ parameters n c.next.next.next = .ok names c₁)
    (hcloser : c₁.current.kind = .closeParen) (hleft : c₁.next.current.kind = .openBrace)
    (hbody : block statement n c₁.next.next = .ok body c₂) :
    function statement n c = .ok (.function c.next.current.text names body) c₂ := by
  have hrest : (do
      let _ ← expect .closeParen
      let _ ← expect .openBrace
      return .function c.next.current.text names (← block statement n) : Parser Stmt) c₁ =
        .ok (.function c.next.current.text names body) c₂ := by
    rw [expect_bind hcloser, expect_bind hleft, bind_of_ok hbody]
    rfl
  rw [function, expect_bind hword, identifier_bind hname, expect_bind hopener, check_bind]
  rcases hnames with ⟨rfl, rfl⟩ | ⟨hopen, hnames⟩
  · rw [decide_eq_true hcloser, if_pos rfl, pure_bind]
    exact hrest
  · rw [decide_eq_false hopen, if_neg (by simp), bind_of_ok hnames]
    exact hrest

theorem readsBack_of_form {stmt : Stmt}
    (h : ∀ ⦃c c' : Cursor⦄, c.Steps (stmt.print numeral) c' → c'.current.kind = .semicolon →
      (stmt.print numeral).length ≤ n + 1 → form n c = .ok stmt c') :
    ReadsBack numeral (n + 1) stmt := by
  intro c c' hsteps hend hn
  rw [statement_succ, bind_of_ok (h hsteps hend hn), accept_bind, if_pos hend]
  rfl

theorem form_bare {name : String}
    (hsteps : c.Steps ((Stmt.declare false name none).print numeral) c')
    (hend : c'.current.kind = .semicolon) : form n c = .ok (.declare false name none) c' := by
  obtain ⟨_, hword, _, hname, rfl⟩ := hsteps
  have hlet : c.current.kind = .letWord := congrArg Lexeme.kind hword
  have hkind : c.next.current.kind = .identifier := congrArg Lexeme.kind hname
  have hequals : c.next.next.current.kind ≠ .equals := by rw [hend]; decide
  have hconst : c.current.kind ≠ .constWord := by rw [hlet]; decide
  rw [form_declaration (.inl hlet), declaration, advance_bind, identifier_bind hkind, accept_bind,
    if_neg hequals, decide_eq_false hconst]
  exact congrArg (fun text => EStateM.Result.ok (Stmt.declare false text none) _)
    (congrArg Lexeme.text hname)

theorem form_declare (hnumeral : Number.Writes numeral) {constant : Bool} {name : String}
    {value : Expr} (hvalue : value.Plain)
    (hsteps : c.Steps ((Stmt.declare constant name (some value)).print numeral) c')
    (hend : c'.current.kind = .semicolon)
    (hn : ((Stmt.declare constant name (some value)).print numeral).length ≤ n + 1) :
    form n c = .ok (.declare constant name (some value)) c' := by
  rw [Stmt.print] at hsteps hn
  simp only [List.length_cons] at hn
  obtain ⟨_, hword, _, hname, _, hsign, hsteps⟩ := hsteps
  have hkeyword : c.current.kind = if constant then .constWord else .letWord :=
    congrArg Lexeme.kind hword
  have hconstant : decide (c.current.kind = .constWord) = constant := by
    rw [hkeyword]
    cases constant <;> rfl
  have hkind : c.next.current.kind = .identifier := congrArg Lexeme.kind hname
  have htext : c.next.current.text = name := congrArg Lexeme.text hname
  have hequals : c.next.next.current.kind = .equals := congrArg Lexeme.kind hsign
  have hvalue := expression_print hnumeral hvalue hsteps (by omega : _ ≤ n)
    (Level.stops_of_kind (by rw [hend]; decide))
  rw [form_declaration (by rw [hkeyword]; cases constant <;> decide), declaration, advance_bind,
    identifier_bind hkind, accept_bind, if_pos hequals, if_pos rfl, bind_of_ok hvalue, hconstant,
    htext]
  rfl

theorem form_function (hnumeral : Number.Writes numeral) {name : String} {names : List String}
    {body : List Stmt} (hplain : ∀ stmt ∈ body, stmt.Plain)
    (hbody : ∀ stmt ∈ body, ∀ n, ReadsBack numeral (n + 1) stmt)
    (hsteps : c.Steps ((Stmt.function name names body).print numeral) c')
    (hn : ((Stmt.function name names body).print numeral).length ≤ n + 1) :
    form n c = .ok (.function name names body) c' := by
  rw [Stmt.print] at hsteps hn
  simp only [List.length_append, List.length_cons, List.length_nil] at hn
  obtain ⟨n, rfl⟩ : ∃ k, n = k + 1 := ⟨n - 1, by omega⟩
  obtain ⟨c₁, ⟨_, hword, _, hname, _, hopener, hnames⟩, hrest⟩ := Cursor.steps_append.mp hsteps
  obtain ⟨c₂, ⟨_, hcloser, _, hleft, hblock⟩, _, hright, rfl⟩ := Cursor.steps_append.mp hrest
  have hword : c.current.kind = .funcWord := congrArg Lexeme.kind hword
  have hcloser : c₁.current.kind = .closeParen := congrArg Lexeme.kind hcloser
  have hblock := block_printBody hnumeral hplain (fun stmt hstmt => hbody stmt hstmt n)
    hblock (congrArg Lexeme.kind hright) (by omega : _ ≤ n + 1) (le_refl _)
  -- Without parameters the parser sees the closing parenthesis at once.
  have hparameters : names = [] ∧ c.next.next.next = c₁ ∨
      c.next.next.next.current.kind ≠ .closeParen ∧
        parameters (n + 1) c.next.next.next = .ok names c₁ := by
    cases names with
    | nil => exact .inl ⟨rfl, hnames⟩
    | cons id names =>
      have hderives := derivesNames_separated id names
      refine .inr ⟨?_, hderives.parses hnames (by rw [hcloser]; decide) (by omega)⟩
      rw [hderives.current_kind hnames]
      decide
  rw [form, peek_bind, hword]
  rw [← show c.next.current.text = name from congrArg Lexeme.text hname]
  exact function_apply hword (congrArg Lexeme.kind hname) (congrArg Lexeme.kind hopener)
    hparameters hcloser (congrArg Lexeme.kind hleft) hblock

theorem form_expression (hnumeral : Number.Writes numeral) {e : Expr} (h : e.Plain)
    (hsteps : c.Steps (e.print numeral) c') (hend : c'.current.kind = .semicolon)
    (hn : (e.print numeral).length ≤ n + 1) : form n c = .ok (.expr e) c' := by
  have hstart := (Expr.derives_print hnumeral h).toAssignment.startsWith_current hsteps
  rw [form_expr hstart]
  exact map_eq_ok.mpr ⟨_, expression_print hnumeral h hsteps hn
    (Level.stops_of_kind (by rw [hend]; decide)), rfl⟩

/-- The recursion goes into the bodies of functions, one case for each form of statement. -/
theorem readsBack_print (hnumeral : Number.Writes numeral) {stmt : Stmt} :
    stmt.Plain → ∀ n, ReadsBack numeral (n + 1) stmt
  | .bare _, _ => readsBack_of_form fun _ _ hsteps hend _ => form_bare hsteps hend
  | .declare _ hvalue, _ =>
    readsBack_of_form fun _ _ hsteps hend hn => form_declare hnumeral hvalue hsteps hend hn
  | .function _ _ hbody, _ => readsBack_of_form fun _ _ hsteps _ hn =>
    form_function hnumeral hbody (fun stmt hstmt => readsBack_print hnumeral (hbody stmt hstmt))
      hsteps hn
  | .expr h, _ =>
    readsBack_of_form fun _ _ hsteps hend hn => form_expression hnumeral h hsteps hend hn

theorem statements_ok {stmt : Stmt} (hend : c.current.kind ≠ .endOfFile)
    (hsemicolon : c.current.kind ≠ .semicolon) (h : statement (n + 1) c = .ok stmt c') :
    statements (n + 1) c = (stmt :: (statements n c').1, (statements n c').2) := by
  rw [statements, h]
  split
  case h_1 hkind => exact absurd hkind hend
  case h_2 hkind => exact absurd hkind hsemicolon
  case h_3 => rfl

theorem statements_printBody (hnumeral : Number.Writes numeral) {program : List Stmt}
    (hplain : ∀ stmt ∈ program, stmt.Plain) (hsteps : c.Steps (printBody numeral program) c')
    (hend : c'.current.kind = .endOfFile) (hn : (printBody numeral program).length ≤ n) :
    statements n c = (program, []) := by
  induction program generalizing n c with
  | nil =>
    obtain rfl := hsteps
    cases n with
    | zero => rfl
    | succ n => rw [statements, hend]
  | cons stmt program ih =>
    rw [List.forall_mem_cons] at hplain
    rw [printBody] at hsteps hn
    rw [List.length_append, List.length_cons] at hn
    obtain ⟨n, rfl⟩ : ∃ k, n = k + 1 := ⟨n - 1, by omega⟩
    obtain ⟨c₁, hstmt, _, hl, hrest⟩ := Cursor.steps_append.mp hsteps
    have hkind := stmt.current_kind_print hnumeral hplain.1 hstmt
    have hread := readsBack_print hnumeral hplain.1 n hstmt (congrArg Lexeme.kind hl) (by omega)
    rw [statements_ok hkind.2.2 hkind.1 hread, ih hplain.2 hrest (by omega)]

end Parser

namespace Program

theorem exists_tokens {source : String} {ls : List Lexeme}
    (h : Source.lexemes source = .ok (ls ++ [⟨.endOfFile, "EndOfFile"⟩])) :
    ∃ tokens last, tokenize source = .ok (tokens ++ [last]) ∧ tokens.map Token.lexeme = ls ∧
      last.kind = .endOfFile := by
  rw [Source.lexemes] at h
  split at h
  case h_1 all htokens =>
    obtain ⟨tokens, rest, rfl, hls, hrest⟩ := List.map_eq_append_iff.mp (Except.ok.inj h)
    obtain ⟨last, rfl, hlast⟩ := List.map_eq_singleton_iff.mp hrest
    exact ⟨tokens, last, htokens, hls, congrArg Lexeme.kind hlast⟩
  case h_2 => simp at h

/-- Reading undoes printing. -/
theorem parse_print {numeral : Float → String} (hnumeral : Number.Writes numeral)
    {program : Program} (hplain : ∀ stmt ∈ program, stmt.Plain) :
    parse (program.print numeral) = .ok program := by
  have hwritable := writable_printBody fun stmt hstmt =>
    Stmt.writable_print hnumeral (hplain stmt hstmt)
  have hsettles := settles_printBody fun stmt hstmt =>
    Stmt.settles_print hnumeral (hplain stmt hstmt)
  have hlexemes := lexemes_writeAll (fun l hl => (hwritable l hl).1)
    (fun l hl => (hwritable l hl).2) (hsettles [] rfl).1
  obtain ⟨tokens, last, htokens, hls, hlast⟩ := exists_tokens hlexemes
  -- No printed token is an end mark, so the cursor starts in front of all of them.
  have hkinds : ∀ token ∈ tokens, token.kind ≠ .endOfFile := by
    intro token hmem
    exact (hwritable token.lexeme (hls ▸ List.mem_map_of_mem hmem)).2
  have hahead : (Cursor.ofTokens (tokens ++ [last])).ahead = tokens := by
    rw [Cursor.ofTokens, List.takeWhile_append_of_pos (by simpa using hkinds)]
    simp [hlast]
  have hsteps := Cursor.steps_ahead (Cursor.ofTokens (tokens ++ [last]))
  have hlength := congrArg List.length hls
  rw [List.length_map] at hlength
  rw [hahead, hls] at hsteps
  have hstatements := Parser.statements_printBody hnumeral hplain hsteps
    (Cursor.stop_kind_ofTokens (tokens ++ [last])) (le_of_eq hlength.symm)
  have hprogram : ofTokens (tokens ++ [last]) = .ok program := by
    simp only [ofTokens, hahead, hstatements]
  rw [parse, print, htokens]
  exact hprogram

/-- Differences on the right of a difference, a negative number, quotes and a member of an
assignment. -/
theorem parse_print_nested : ∃ (numeral : Float → String) (value : Float) (program : Program),
    Number.Writes numeral ∧ program = [
      .function "f" ["a", "b"] [.expr (.call (.name "a") [.binary .subtract (.name "b")
        (.binary .subtract (.name "a") (.number value))])],
      .declare true "c" (some (.object [.copied "a", .given "d" (.member (.member
        (.assign (.name "a") (.string "\"\\")) (.name "e") false) (.number value) true)]))] ∧
    parse (program.print numeral) = .ok program := by
  have hname : ∀ id ∈ ["a", "b", "c", "d", "e", "f"], IsName id := by decide
  obtain ⟨numeral, hnumeral⟩ := Number.exists_writes
  have hliteral : Number.IsLiteral "-1.5" ((Number.read? "-1.5").getD 0) := by
    refine ⟨.inr ⟨['1', '.', '5'], rfl, ?_⟩, rfl⟩
    have hnumeral : Stretch.IsNumeral (['1'] ++ '.' :: ['5']) :=
      .fraction (by simp) (by simp) (by simp)
    exact hnumeral
  have hvalue : Expr.Plain (.number ((Number.read? "-1.5").getD 0)) := .number ⟨_, hliteral⟩
  refine ⟨numeral, (Number.read? "-1.5").getD 0, _, hnumeral, rfl, parse_print hnumeral ?_⟩
  rw [List.forall_mem_cons, List.forall_mem_singleton]
  constructor
  · refine .function (hname _ (by decide)) ?_ ?_
    · intro parameter hmem
      have hsubset : ["a", "b"] ⊆ ["a", "b", "c", "d", "e", "f"] := by decide
      exact hname parameter (hsubset hmem)
    · rw [List.forall_mem_singleton]
      refine .expr (.call (.name (hname _ (by decide))) ?_)
      rw [List.forall_mem_singleton]
      exact .binary (.name (hname _ (by decide))) (.binary (.name (hname _ (by decide))) hvalue)
  · refine .declare (hname _ (by decide)) (.object ?_)
    rw [List.forall_mem_cons, List.forall_mem_singleton]
    exact ⟨.copied (hname _ (by decide)), .given (hname _ (by decide)) (.index (.member
      (.assign (.name (hname _ (by decide))) .string) (hname _ (by decide))) hvalue)⟩

end Program

end Script
