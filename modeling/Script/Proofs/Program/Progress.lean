import Script.Proofs.Program.RoundTrip
import Script.Proofs.Program.Twins
import Script.Proofs.Program.Walk

namespace Script

namespace Parser

variable {c : Cursor}

theorem expression_zero (hnext : c.next = c) (hend : c.current.kind = .endOfFile) :
    expression 0 c = expression 1 c := by
  have hbrace : c.current.kind ≠ .openBrace := by rw [hend]; decide
  have hprimary : primary (expression 0) 0 c =
      .error ⟨.unexpected c.current.kind, c.current.span⟩ c := by
    rw [primary, advance_bind, hend, hnext]
    rfl
  have hcomparison : comparison (expression 0) 0 c =
      .error ⟨.unexpected c.current.kind, c.current.span⟩ c :=
    bind_of_error (bind_of_error (bind_of_error (bind_of_error hprimary)))
  have hobject := (accept_neg (p := do return .object (← properties (expression 0) 0)) hbrace).trans
    hcomparison
  exact (bind_of_error hobject).symm

theorem length_resume_le (tokens : List Token) : (resume tokens).length ≤ tokens.length := by
  induction tokens with
  | nil => exact Nat.le_refl 0
  | cons token rest ih =>
    rw [resume, List.length_cons]
    split
    case h_1 => exact Nat.le_succ _
    case h_5 => exact Nat.le_succ_of_le ih
    all_goals exact Nat.le_refl _

end Parser

namespace Walk

variable {α β : Type} {tokens : List Token} {head : Head} {c : Cursor}

/-- The walk ends as the parser does: with the same value or error, and where the parser ends. After
a success there are at least `k` tokens fewer than `l` ahead, after a failure no more than `l`. -/
inductive Follows (tokens : List Token) (l k : Nat) :
    Option (Except SyntaxError α × Head) → EStateM.Result SyntaxError Cursor α → Prop
  | ok {a : α} {head : Head} {c : Cursor} (hstands : Stands tokens head c)
      (hk : c.ahead.length + k ≤ l) : Follows tokens l k (some (.ok a, head)) (.ok a c)
  | error {e : SyntaxError} {head : Head} {c : Cursor} (hstands : Stands tokens head c)
      (hl : c.ahead.length ≤ l) : Follows tokens l k (some (.error e, head)) (.error e c)

/-- The walk does what the parser does wherever fewer than `n` tokens are ahead. If both succeed,
they have read at least `k` of them. -/
def Mimics (tokens : List Token) (n k : Nat) (w : Walk α) (p : Parser α) : Prop :=
  ∀ head c, Stands tokens head c → c.ahead.length < n →
    Follows tokens c.ahead.length k (w (vector tokens) head) (p c)

variable {n k : Nat}

theorem Follows.mono {l l' k' : Nat} {r : Option (Except SyntaxError α × Head)}
    {r' : EStateM.Result SyntaxError Cursor α} (h : Follows tokens l k r r') (hl : l ≤ l')
    (hk : l + k' ≤ l' + k) : Follows tokens l' k' r r' := by
  cases h with
  | ok hstands hk' => exact .ok hstands (by omega)
  | error hstands hl' => exact .error hstands (hl'.trans hl)

namespace Mimics

variable {w w' : Walk α} {p p' q : Parser α}

theorem mono (h : Mimics tokens n k w p) {n' k' : Nat} (hn : n' ≤ n) (hk : k' ≤ k) :
    Mimics tokens n' k' w p :=
  fun head c hstands hlt =>
    (h head c hstands (Nat.lt_of_lt_of_le hlt hn)).mono (Nat.le_refl _) (by omega)

theorem zero (h : Mimics tokens n k w p) : Mimics tokens n 0 w p :=
  h.mono (Nat.le_refl n) (Nat.zero_le k)

/-- There are never fewer than no tokens ahead. -/
theorem of_none : Mimics tokens 0 k w p :=
  fun _ c _ hlt => absurd hlt (Nat.not_lt_zero c.ahead.length)

/-- With no token ahead, a parser may be replaced by one that does the same at the end. -/
theorem of_end (h : Mimics tokens 1 k w q)
    (heq : ∀ c : Cursor, c.next = c → c.current.kind = .endOfFile → p c = q c) :
    Mimics tokens 1 k w p := by
  intro head c hstands hlt
  have hnil : c.ahead = [] := List.length_eq_zero_iff.mp (Nat.lt_one_iff.mp hlt)
  have hend := hstands.kind_of_ahead_eq_nil hnil
  rw [heq c (hstands.next_eq hend) hend]
  exact h head c hstands hlt

protected theorem pure (a : α) : Mimics tokens n 0 (pure a) (pure a) :=
  fun _ _ hstands _ => .ok hstands (Nat.le_refl _)

theorem fail (cause : SyntaxError.Cause) (span : Span) :
    Mimics tokens n k (throw ⟨cause, span⟩ : Walk α) (Parser.fail cause span) :=
  fun _ _ hstands _ => .error hstands (Nat.le_refl _)

theorem seq {f : α → Walk β} {g : α → Parser β} {l : Nat} (hwp : Mimics tokens n k w p)
    (hfg : ∀ a, Mimics tokens (n - k) l (f a) (g a)) :
    Mimics tokens n (k + l) (w >>= f) (p >>= g) := by
  intro head c hstands hlt
  have hfirst := hwp head c hstands hlt
  generalize hr : w (vector tokens) head = r at hfirst
  generalize hr' : p c = r' at hfirst
  cases hfirst with
  | ok hstands' hk =>
    rw [bind_of_ok hr, Parser.bind_of_ok hr']
    exact (hfg _ _ _ hstands' (by omega)).mono (by omega) (by omega)
  | error hstands' hl =>
    rw [bind_of_error hr, Parser.bind_of_error hr']
    exact .error hstands' hl

/-- The first part makes the progress. -/
protected theorem bind {f : α → Walk β} {g : α → Parser β} (hwp : Mimics tokens n k w p)
    (hfg : ∀ a, Mimics tokens (n - k) 0 (f a) (g a)) :
    Mimics tokens n k (w >>= f) (p >>= g) :=
  hwp.seq hfg

/-- The first part only looks ahead. -/
theorem before {f : α → Walk β} {g : α → Parser β} (hwp : Mimics tokens n 0 w p)
    (hfg : ∀ a, Mimics tokens n k (f a) (g a)) : Mimics tokens n k (w >>= f) (p >>= g) :=
  Nat.zero_add k ▸ hwp.seq hfg

protected theorem map {f : α → β} (h : Mimics tokens n k w p) :
    Mimics tokens n k (f <$> w) (f <$> p) := by
  rw [map_eq_pure_bind, map_eq_pure_bind]
  exact h.bind fun a => .pure _

theorem ite (hthen : Mimics tokens n k w p) (helse : Mimics tokens n k w' p') (b : Bool) :
    Mimics tokens n k (if b = true then w else w') (if b = true then p else p') := by
  cases b with
  | true => exact hthen
  | false => exact helse

end Mimics

theorem mimics_current : Mimics tokens n 0 (liftM current) Parser.peek := by
  intro head c hstands _
  rw [liftM_of_some hstands.current_eq]
  exact .ok hstands.look (Nat.le_refl _)

theorem mimics_check (kind : Kind) : Mimics tokens n 0 (check kind) (Parser.check kind) :=
  mimics_current.bind fun _ => .pure _

theorem mimics_failHere (cause : Token → SyntaxError.Cause) :
    Mimics tokens n k (failHere cause : Walk α)
      (Parser.peek >>= fun token => Parser.fail (cause token) token.span) := by
  intro head c hstands _
  rw [failHere, bind_of_ok (liftM_of_some hstands.current_eq)]
  exact .error hstands.look (Nat.le_refl _)

theorem mimics_atCloser (closer : Kind) :
    Mimics tokens n 0 (atCloser closer) (Parser.atCloser closer) :=
  (mimics_check closer).bind fun _ => (mimics_check .endOfFile).bind fun _ => .pure _

/-- A step over a token is progress, unless there is only the end mark. -/
theorem Mimics.advance_bind {f : Token → Walk α} {g : Token → Parser α}
    (hend : ∀ token : Token, token.kind = .endOfFile → Mimics tokens 1 1 (f token) (g token))
    (hstep : ∀ token : Token, token.kind ≠ .endOfFile → Mimics tokens n 0 (f token) (g token)) :
    Mimics tokens (n + 1) 1 (liftM advance >>= f) (Parser.advance >>= g) := by
  intro head c hstands hlt
  rw [Parser.advance_bind]
  by_cases hkind : c.current.kind = .endOfFile
  · rw [bind_of_ok (liftM_of_some (hstands.advance_of_eq hkind)), hstands.next_eq hkind]
    refine hend _ hkind _ _ hstands.look ?_
    rw [hstands.ahead_eq_nil hkind]
    exact Nat.one_pos
  · rw [bind_of_ok (liftM_of_some (hstands.advance_of_ne hkind))]
    have hlength := hstands.length_next hkind
    exact (hstep _ hkind _ _ (hstands.step hkind) (by omega)).mono (by omega) (by omega)

section Branches

variable {kind : Kind} {w w' : Walk α} {p p' : Parser α}

theorem Stands.accept_of_eq (h : Stands tokens head c) (hkind : kind ≠ .endOfFile)
    (heq : c.current.kind = kind) :
    accept kind (vector tokens) head = some (.ok true, head.look.step) := by
  rw [accept, bind_of_ok (h.check_eq kind), decide_eq_true heq, if_pos rfl,
    bind_of_ok (liftM_of_some (h.look.advance_of_ne (heq ▸ hkind)))]
  rfl

theorem Stands.accept_of_ne (h : Stands tokens head c) (hne : c.current.kind ≠ kind) :
    accept kind (vector tokens) head = some (.ok false, head.look) := by
  rw [accept, bind_of_ok (h.check_eq kind), decide_eq_false hne]
  rfl

theorem Stands.accept_bind {f : Bool → Walk α} {g : Bool → Parser α} (h : Stands tokens head c)
    (hkind : kind ≠ .endOfFile)
    (htrue : c.next.ahead.length < c.ahead.length → Stands tokens head.look.step c.next →
      Follows tokens c.next.ahead.length k (f true (vector tokens) head.look.step) (g true c.next))
    (hfalse : Follows tokens c.ahead.length k (f false (vector tokens) head.look) (g false c)) :
    Follows tokens c.ahead.length k ((accept kind >>= f) (vector tokens) head)
      ((Parser.accept kind >>= g) c) := by
  rw [Parser.accept_bind]
  by_cases heq : c.current.kind = kind
  · have hne : c.current.kind ≠ .endOfFile := heq ▸ hkind
    have hlt := h.length_next hne
    rw [bind_of_ok (h.accept_of_eq hkind heq), if_pos heq]
    exact (htrue hlt (h.look.step hne)).mono hlt.le (by omega)
  · rw [bind_of_ok (h.accept_of_ne heq), if_neg heq]
    exact hfalse

theorem Mimics.accept_bind {f : Bool → Walk α} {g : Bool → Parser α} (hkind : kind ≠ .endOfFile)
    (htrue : Mimics tokens (n - 1) k (f true) (g true))
    (hfalse : Mimics tokens n k (f false) (g false)) :
    Mimics tokens n k (accept kind >>= f) (Parser.accept kind >>= g) :=
  fun _ _ hstands hlt => hstands.accept_bind hkind
    (fun hlt' hnext => htrue _ _ hnext (by omega)) (hfalse _ _ hstands.look hlt)

theorem Mimics.ite_accept (hkind : kind ≠ .endOfFile) (hthen : Mimics tokens (n - 1) k w p)
    (helse : Mimics tokens n k w' p') :
    Mimics tokens n k (accept kind >>= fun b => if b = true then w else w')
      (Parser.accept kind >>= fun b => if b = true then p else p') :=
  .accept_bind hkind hthen helse

theorem Mimics.ite_check (hthen : Mimics tokens n k w p) (helse : Mimics tokens n k w' p') :
    Mimics tokens n k (check kind >>= fun b => if b = true then w else w')
      (Parser.check kind >>= fun b => if b = true then p else p') :=
  (mimics_check kind).before fun b => .ite hthen helse b

theorem Mimics.ite_atCloser (hthen : Mimics tokens n k w p) (helse : Mimics tokens n k w' p') :
    Mimics tokens n k (atCloser kind >>= fun b => if b = true then w else w')
      (Parser.atCloser kind >>= fun b => if b = true then p else p') :=
  (mimics_atCloser kind).before fun b => .ite hthen helse b

/-- A token that has to be of one kind is read or fails the walk. -/
theorem mimics_take (hkind : kind ≠ .endOfFile) (cause : Token → SyntaxError.Cause) :
    Mimics tokens n 1
      (check kind >>= fun b => if b = true then liftM advance else failHere cause)
      (Parser.check kind >>= fun b => if b = true then Parser.advance else
        Parser.peek >>= fun token => Parser.fail (cause token) token.span) := by
  intro head c hstands hlt
  rw [bind_of_ok (hstands.check_eq kind), Parser.check_bind]
  by_cases heq : c.current.kind = kind
  · have hne : c.current.kind ≠ .endOfFile := heq ▸ hkind
    have hlength := hstands.length_next hne
    rw [decide_eq_true heq, if_pos rfl, if_pos rfl,
      liftM_of_some (hstands.look.advance_of_ne hne)]
    exact .ok (hstands.look.step hne) (by omega)
  · rw [decide_eq_false heq, if_neg Bool.false_ne_true, if_neg Bool.false_ne_true]
    exact mimics_failHere cause _ _ hstands.look hlt

theorem mimics_expect (hkind : kind ≠ .endOfFile) :
    Mimics tokens n 1 (expect kind) (Parser.expect kind) :=
  mimics_take hkind fun found => .expected kind found.kind

theorem mimics_identifier (role : NameRole) :
    Mimics tokens n 1 (identifier role) (Parser.identifier role) :=
  mimics_take (by decide) fun found => .expectedName role found.kind

/-- A name that was read stands in front of the head. -/
theorem Mimics.identifier_bind {role : NameRole} {f : Token → Walk α} {g : Token → Parser α}
    (h : ∀ name head c, (vector tokens)[head.position - 1]? = some name → head.position ≠ 0 →
      Stands tokens head c → c.ahead.length < n - 1 →
        Follows tokens c.ahead.length 0 (f name (vector tokens) head) (g name c)) :
    Mimics tokens n 1 (identifier role >>= f) (Parser.identifier role >>= g) := by
  intro head c hstands hlt
  by_cases hname : c.current.kind = .identifier
  · have hne : c.current.kind ≠ .endOfFile := by rw [hname]; decide
    have hread : identifier role (vector tokens) head = some (.ok c.current, head.look.step) := by
      rw [identifier, bind_of_ok (hstands.check_eq _), decide_eq_true hname, if_pos rfl,
        liftM_of_some (hstands.look.advance_of_ne hne)]
    have hlength := hstands.length_next hne
    rw [bind_of_ok hread, Parser.identifier_bind hname]
    have hrest := h c.current head.look.step c.next hstands.getElem? (Nat.succ_ne_zero _)
      (hstands.look.step hne) (by omega)
    exact hrest.mono (by omega) (by omega)
  · have hfail := mimics_identifier role head c hstands hlt
    generalize hr : identifier role (vector tokens) head = r at hfail
    rw [Parser.identifier_of_ne hname] at hfail
    cases hfail with
    | error hstands' hl =>
      rw [bind_of_error hr, Parser.bind_of_error (Parser.identifier_of_ne hname)]
      exact .error hstands' hl

theorem previousSpan_eq {vector : Array Token} {token : Token}
    (h : vector[head.position - 1]? = some token) (hpos : head.position ≠ 0) :
    previousSpan vector head = some (token.span, head) := by
  show (if head.position = 0 then _ else _ : Stride Span) vector head = _
  rw [if_neg hpos, h]
  rfl

/-- A list ends with its closing token. -/
theorem mimics_close (hkind : kind ≠ .endOfFile) (a : α) :
    Mimics tokens n 1 (expect kind >>= fun _ => pure a)
      (Parser.expect kind >>= fun _ => pure a) :=
  (mimics_expect hkind).bind fun _ => .pure a

end Branches

/-- The loops. Neither the depth of the walk nor the bound of the parser is used up before the
tokens are. At the end mark the last round of the parser does the same as one more. -/
theorem Mimics.of_rounds {σ : Type} {w : Nat → σ → Walk α} {p : Nat → σ → Parser α} {d i : Nat}
    (hend : ∀ s (c : Cursor), c.next = c → c.current.kind = .endOfFile → p 0 s c = p 1 s c)
    (hround : ∀ m d i, m < n → m ≤ d → m ≤ i + 1 → (∀ s, Mimics tokens m k (w d s) (p i s)) →
      ∀ s, Mimics tokens (m + 1) k (w (d + 1) s) (p (i + 1) s))
    (hd : n ≤ d) (hi : n ≤ i + 1) (s : σ) : Mimics tokens n k (w d s) (p i s) := by
  have hupto : ∀ m ≤ n, ∀ d i, m ≤ d → m ≤ i + 1 → ∀ s, Mimics tokens m k (w d s) (p i s) := by
    intro m hm
    -- The induction is on the tokens ahead; the depth and the bound only have to keep up with it.
    induction m with
    | zero => exact fun d i _ _ s => .of_none
    | succ m ih =>
      intro d i hd hi s
      obtain ⟨d, rfl⟩ : ∃ e, d = e + 1 := ⟨d - 1, by omega⟩
      cases i with
      | zero =>
        obtain rfl : m = 0 := by omega
        have hfirst := hround 0 d 0 hm (Nat.zero_le d) (Nat.zero_le 1) (fun s => .of_none) s
        exact hfirst.of_end (hend s)
      | succ i =>
        exact hround m d i hm (by omega) (by omega) (ih (by omega) d i (by omega) (by omega)) s
  exact hupto n (Nat.le_refl n) d i hd hi s

section Expressions

variable {nested : Walk Expr} {nested' : Parser Expr} {d i : Nat}
  (hnested : Mimics tokens n 1 nested nested') (hd : n ≤ d) (hi : n ≤ i + 1)

include hnested hd hi

theorem mimics_items {closer : Kind} (hcloser : closer ≠ .endOfFile) :
    Mimics tokens n 1 (items nested closer d) (Parser.items nested' closer i) := by
  refine .of_rounds (w := fun d _ => items nested closer d)
    (p := fun i _ => Parser.items nested' closer i) ?_ ?_ hd hi ()
  · intro _ c _ hend
    rw [Parser.items, Parser.items, Parser.atCloser_pos (.inr hend)]
  · intro m d i hm _ _ ih _
    rw [items, Parser.items]
    refine .ite_atCloser (mimics_close hcloser []) ((hnested.mono hm (Nat.le_refl 1)).bind ?_)
    intro item
    refine .ite_accept (by decide) (.bind ?_ fun rest => .pure _) (mimics_close hcloser [item]).zero
    exact (ih ()).mono (Nat.sub_le m 1) (Nat.zero_le 1)

theorem mimics_properties :
    Mimics tokens n 1 (properties nested d) (Parser.properties nested' i) := by
  refine .of_rounds (w := fun d _ => properties nested d)
    (p := fun i _ => Parser.properties nested' i) ?_ ?_ hd hi ()
  · intro _ c _ hend
    rw [Parser.properties, Parser.properties, Parser.atCloser_pos (.inr hend)]
  · intro m d i hm _ _ ih _
    have hrest : ∀ property, ∀ m' ≤ m, Mimics tokens m' 0
        (properties nested d >>= fun rest => pure (property :: rest))
        (Parser.properties nested' i >>= fun rest => pure (property :: rest)) := by
      intro property m' hm'
      exact ((ih ()).mono hm' (Nat.zero_le 1)).bind fun rest => .pure _
    rw [properties, Parser.properties]
    refine .ite_atCloser (mimics_close (by decide) []) ((mimics_identifier _).bind fun key => ?_)
    refine .ite_accept (by decide) (hrest _ _ (Nat.sub_le m 1)) ?_
    refine .ite_check (hrest _ _ (Nat.le_refl m)) (.ite_accept (by decide) ?_ ?_)
    · refine (hnested.mono (by omega) (Nat.zero_le 1)).bind fun value => ?_
      refine (mimics_check _).bind fun b => .ite ?_ (hrest _ _ (by omega)) _
      exact ((mimics_expect (by decide)).bind fun _ => hrest _ _ (by omega)).zero
    · exact mimics_failHere _

theorem mimics_links (e : Expr) :
    Mimics tokens n 0 (links nested d e) (Parser.links nested' i e) := by
  refine .of_rounds ?_ ?_ hd hi e
  · intro e c _ hend
    have hstops : Level.linked.Stops c.current := Cursor.AtEdge.stops (.inr hend)
    rw [Parser.links_stop hstops, Parser.links_stop hstops]
  · intro m d i hm hmd hmi ih e
    have hrest : ∀ e, ∀ m' ≤ m, Mimics tokens m' 0 (links nested d e) (Parser.links nested' i e) :=
      fun e m' hm' => (ih e).mono hm' (Nat.le_refl 0)
    rw [links, Parser.links]
    refine .ite_accept (by decide) ?_ (.ite_accept (by decide) ?_ (.ite_accept (by decide) ?_
      (.pure e)))
    · exact ((mimics_identifier _).bind fun name => hrest _ _ (Nat.sub_le m 1)).zero
    · refine ((hnested.mono (by omega) (Nat.zero_le 1)).bind fun property => ?_)
      exact ((mimics_expect (by decide)).bind fun _ => hrest _ _ (Nat.sub_le m 1)).zero
    · have harguments : Mimics tokens m 1 (items nested .closeParen d)
          (Parser.items nested' .closeParen i) :=
        mimics_items (hnested.mono (by omega) (Nat.le_refl 1)) hmd hmi (by decide)
      exact harguments.zero.bind fun arguments => hrest _ _ (Nat.le_refl m)

theorem mimics_primary :
    Mimics tokens (n + 1) 1 (primary nested d) (Parser.primary nested' i) := by
  rw [primary, Parser.primary]
  refine .advance_bind (fun token hend => ?_) fun token _ => ?_
  · rw [hend]
    exact .fail _ _
  · cases hkind : token.kind with
    | identifier => exact .pure _
    | number =>
      cases Number.read? token.text with
      | some value => exact .pure _
      | none => exact .fail _ _
    | string => exact .pure _
    | openParen =>
      refine hnested.zero.bind fun inner => (mimics_close (by decide) inner).zero
    | openBracket => exact (mimics_items hnested hd hi (by decide)).zero.map
    | _ => exact .fail _ _

theorem mimics_linked : Mimics tokens (n + 1) 1 (linked nested d) (Parser.linked nested' i) := by
  rw [linked, Parser.linked]
  exact (mimics_primary hnested hd hi).bind fun e => mimics_links hnested hd hi e

end Expressions

section Levels

variable {level : Level} {d i : Nat}

theorem operator?_of_end (hend : c.current.kind = .endOfFile) :
    level.operator? c.current = none := by
  cases hsome : level.operator? c.current with
  | none => rfl
  | some operator =>
    have hjoins := (Level.operator?_joins hsome).1
    rw [Cursor.AtEdge.joins?_eq_none (.inr hend)] at hjoins
    cases hjoins

theorem mimics_chain {w : Walk Expr} {p : Parser Expr} (hoperand : Mimics tokens n 1 w p)
    (hd : n ≤ d) (hi : n ≤ i + 1) (e : Expr) :
    Mimics tokens n 0 (chain level w d e) (Parser.chain level.operator? p i e) := by
  refine .of_rounds ?_ ?_ hd hi e
  · intro e c _ hend
    have hstop : level.operator? c.current = none := operator?_of_end hend
    rw [Parser.chain_stop hstop, Parser.chain_stop hstop]
  · intro m d i hm _ _ ih e
    rw [chain, Parser.chain]
    refine mimics_current.before fun token => ?_
    cases level.operator? token with
    | none => exact .pure e
    | some operator =>
      -- At an end mark there is no operator, but then the operand fails in any case.
      refine (Mimics.advance_bind (fun _ _ => ?_) fun _ _ => ?_).zero
      · exact (hoperand.mono (by omega) (Nat.le_refl 1)).bind fun right => .of_none
      · exact (hoperand.mono (by omega) (Nat.zero_le 1)).bind fun right => ih _

theorem mimics_joined {w : Walk Expr} {p : Parser Expr} (hoperand : Mimics tokens (n + 1) 1 w p)
    (hd : n ≤ d) (hi : n ≤ i + 1) :
    Mimics tokens (n + 1) 1 (joined level w d) (p >>= Parser.chain level.operator? p i) := by
  rw [joined]
  refine hoperand.bind fun e => ?_
  exact mimics_chain (hoperand.mono (Nat.le_succ n) (Nat.le_refl 1)) hd hi e

theorem mimics_object {nested : Walk Expr} {nested' : Parser Expr}
    (hnested : Mimics tokens n 1 nested nested') (hd : n ≤ d) (hi : n ≤ i + 1) :
    Mimics tokens (n + 1) 1 (object nested d) (Parser.object nested' i) := by
  have hlinked := mimics_linked hnested hd hi
  have hcomparison : Mimics tokens (n + 1) 1 (comparison nested d) (Parser.comparison nested' i) :=
    mimics_joined (mimics_joined (mimics_joined hlinked hd hi) hd hi) hd hi
  rw [object, Parser.object]
  refine .ite_accept (by decide) ?_ hcomparison
  exact (mimics_properties hnested hd hi).bind fun properties => .pure _

theorem mimics_expression (hd : n ≤ d) (hi : n ≤ i + 1) :
    Mimics tokens n 1 (expression d) (Parser.expression i) := by
  refine .of_rounds (w := fun d _ => expression d) (p := fun i _ => Parser.expression i)
    ?_ ?_ hd hi ()
  · exact fun _ c hnext hend => Parser.expression_zero hnext hend
  · intro m d i _ hmd hmi ih _
    rw [expression, Parser.expression]
    refine (mimics_object (ih ()) hmd hmi).bind fun left => .ite_accept (by decide) ?_ (.pure left)
    exact ((ih ()).mono (Nat.sub_le m 1) (Nat.zero_le 1)).bind fun value => .pure _

end Levels

section Statements

variable {d i : Nat} (hd : n ≤ d) (hi : n ≤ i + 1)

include hd hi

theorem mimics_parameters : Mimics tokens n 1 (parameters d) (Parser.parameters i) := by
  refine .of_rounds (w := fun d _ => parameters d) (p := fun i _ => Parser.parameters i)
    ?_ ?_ hd hi ()
  · intro _ c _ hend
    have hname : c.current.kind ≠ .identifier := by rw [hend]; decide
    rw [Parser.parameters, Parser.parameters, Parser.bind_of_error (Parser.identifier_of_ne hname),
      Parser.bind_of_error (Parser.identifier_of_ne hname)]
  · intro m d i _ _ _ ih _
    rw [parameters, Parser.parameters]
    refine (mimics_identifier _).bind fun name => .ite_accept (by decide) ?_ (.pure _)
    exact ((ih ()).mono (Nat.sub_le m 1) (Nat.zero_le 1)).bind fun rest => .pure _

theorem mimics_declaration :
    Mimics tokens (n + 1) 1 (declaration d) (Parser.declaration i) := by
  rw [declaration, Parser.declaration]
  refine .advance_bind (fun keyword _ => ?_) fun keyword _ => ?_
  · exact (mimics_identifier _).bind fun name => .of_none
  · refine (Mimics.identifier_bind fun name head c hname hpos hstands hlt => ?_).zero
    have hvalue : Mimics tokens n 1 (expression d) (Parser.expression i) :=
      mimics_expression hd hi
    refine hstands.accept_bind (by decide) (fun hlt' hnext => ?_) ?_
    · exact (hvalue.zero.bind fun value => .pure _) _ _ hnext (by omega)
    · -- The walk takes the end of the span from the vector, the parser from the name it has read.
      rw [if_neg Bool.false_ne_true, if_neg Bool.false_ne_true]
      cases decide (keyword.kind = .constWord) with
      | true =>
        have hspan : previousSpan (vector tokens) head.look = some (name.span, head.look) :=
          previousSpan_eq hname hpos
        rw [if_pos rfl, if_pos rfl, bind_of_ok (liftM_of_some hspan)]
        exact .error hstands.look (Nat.le_refl _)
      | false => exact .ok hstands.look (Nat.le_refl _)

theorem mimics_block {w : Walk Stmt} {p : Parser Stmt} (hstmt : Mimics tokens n 1 w p) :
    Mimics tokens n 1 (block w d) (Parser.block p i) := by
  refine .of_rounds (w := fun d _ => block w d) (p := fun i _ => Parser.block p i) ?_ ?_ hd hi ()
  · intro _ c _ hend
    rw [Parser.block, Parser.block, Parser.atCloser_pos (.inr hend)]
  · intro m d i hm _ _ ih _
    rw [block, Parser.block]
    refine .ite_atCloser (mimics_close (by decide) []) (.ite_accept (by decide) (ih ()) ?_)
    exact (hstmt.mono hm (Nat.le_refl 1)).bind fun first => (ih ()).zero.bind fun rest => .pure _

theorem mimics_function {w : Walk Stmt} {p : Parser Stmt} (hstmt : Mimics tokens n 1 w p) :
    Mimics tokens (n + 1) 1 (function w d) (Parser.function p i) := by
  rw [function, Parser.function]
  refine (mimics_expect (by decide)).bind fun _ => ?_
  refine (mimics_identifier _).zero.bind fun name => ?_
  refine (mimics_expect (by decide)).zero.bind fun _ => ?_
  have hbody : ∀ names, Mimics tokens n 0
      (do
        let _ ← expect .closeParen
        let _ ← expect .openBrace
        return Stmt.function name.text names (← block w d))
      (do
        let _ ← Parser.expect .closeParen
        let _ ← Parser.expect .openBrace
        return Stmt.function name.text names (← Parser.block p i)) := by
    intro names
    refine (mimics_expect (by decide)).zero.bind fun _ => ?_
    refine (mimics_expect (by decide)).zero.bind fun _ => ?_
    exact (mimics_block hd hi hstmt).zero.bind fun body => .pure _
  exact .ite_check ((Mimics.pure []).bind hbody) ((mimics_parameters hd hi).zero.bind hbody)

theorem mimics_form {w : Walk Stmt} (hstmt : Mimics tokens n 1 w (Parser.statement i)) :
    Mimics tokens (n + 1) 1 (form w d) (Parser.form i) := by
  rw [form, Parser.form]
  refine mimics_current.before fun token => ?_
  cases token.kind with
  | letWord => exact mimics_declaration hd hi
  | constWord => exact mimics_declaration hd hi
  | funcWord => exact mimics_function hd hi hstmt
  | ifWord => exact .fail _ _
  | elseWord => exact .fail _ _
  | forWord => exact .fail _ _
  | _ => exact (mimics_expression (Nat.succ_le_succ hd) (Nat.succ_le_succ hi)).map

theorem mimics_statement : Mimics tokens n 1 (statement d) (Parser.statement i) := by
  refine .of_rounds (w := fun d _ => statement d) (p := fun i _ => Parser.statement i)
    ?_ ?_ hd hi ()
  · intro _ c hnext hend
    have hfail : Parser.expression 1 c = .error ⟨.unexpected c.current.kind, c.current.span⟩ c :=
      (Parser.expression_zero hnext hend).symm
    have hform : Parser.form 0 c = .error ⟨.unexpected c.current.kind, c.current.span⟩ c := by
      rw [Parser.form, Parser.peek_bind]
      simp only [hend]
      rw [map_eq_pure_bind, Parser.bind_of_error hfail, hend]
    rw [Parser.statement_of_error hform]
    rfl
  · intro m d i _ hmd hmi ih _
    rw [statement, Parser.statement_succ]
    refine (mimics_form hmd hmi (ih ())).bind fun stmt => ?_
    exact .accept_bind (by decide) (.pure _) (.pure _)

end Statements

section Programs

variable {d i : Nat}

/-- Reading goes on at the place where the parser resumes. -/
theorem Stands.seek_eq (h : Stands tokens head c) (hd : c.ahead.length < d) : ∃ head',
    seek d (vector tokens) head = some ((), head') ∧
      Stands tokens head' { c with ahead := Parser.resume c.ahead } := by
  generalize hahead : c.ahead = ahead at hd
  induction ahead generalizing head c d with
  | nil =>
    have hend := h.kind_of_ahead_eq_nil hahead
    obtain ⟨d, rfl⟩ : ∃ e, d = e + 1 := ⟨d - 1, by omega⟩
    refine ⟨head.look, ?_, ?_⟩
    · rw [seek, bind_of_some h.current_eq, hend]
      rfl
    · rw [Parser.resume, ← hahead]
      exact h.look
  | cons token rest ih =>
    obtain ⟨d, rfl⟩ : ∃ e, d = e + 1 := ⟨d - 1, by omega⟩
    have hcurrent : token = c.current := by rw [Cursor.current, hahead]; rfl
    have hnext : c.next = { c with ahead := rest } := by rw [Cursor.next, hahead]; rfl
    -- Tokens are left, so the current one is no end mark.
    have hne : c.current.kind ≠ .endOfFile := by
      intro hend
      have hnil := h.ahead_eq_nil hend
      rw [hahead] at hnil
      cases hnil
    have hstep := h.look.step hne
    rw [seek, bind_of_some h.current_eq, Parser.resume, hcurrent]
    cases hkind : c.current.kind with
    | endOfFile => exact absurd hkind hne
    | semicolon =>
      refine ⟨_, bind_of_some (h.look.advance_of_ne hne), ?_⟩
      rw [← hnext]
      exact hstep
    | letWord | constWord | funcWord =>
      refine ⟨_, rfl, ?_⟩
      rw [← hcurrent, ← hahead]
      exact h.look
    | _ =>
      obtain ⟨head', hseek, hstands⟩ := ih hstep (congrArg Cursor.ahead hnext)
        (Nat.lt_of_succ_lt_succ hd)
      exact ⟨head', (bind_of_some (h.look.advance_of_ne hne)).trans hseek, hstands⟩

theorem Stands.round_eq (h : Stands tokens head c) (hne : c.current.kind ≠ .endOfFile)
    (hd : c.ahead.length < d) (hi : c.ahead.length ≤ i + 1) : ∃ outcome head' c',
      round d (vector tokens) head = some (outcome, head') ∧ Stands tokens head' c' ∧
        c'.ahead.length < c.ahead.length ∧
        Parser.statements (i + 1) c = record outcome (Parser.statements i c') := by
  by_cases hsemicolon : c.current.kind = .semicolon
  · refine ⟨none, head.look.step, c.next, ?_, h.look.step hne, h.length_next hne,
      Parser.statements_semicolon hsemicolon⟩
    rw [round, bind_of_some h.current_eq, if_pos hsemicolon,
      bind_of_some (h.look.advance_of_ne hne)]
    rfl
  · have hread := mimics_statement hd (Nat.succ_le_succ hi) _ _ h.look (Nat.lt_succ_self _)
    generalize hr : statement d (vector tokens) head.look = r at hread
    generalize hr' : Parser.statement (i + 1) c = r' at hread
    cases hread with
    | @ok stmt head' c' hstands hlt =>
      refine ⟨some (.ok stmt), head', c', ?_, hstands, hlt,
        Parser.statements_ok hne hsemicolon hr'⟩
      rw [round, bind_of_some h.current_eq, if_neg hsemicolon]
      exact bind_of_some hr
    | @error e head₁ c₁ hstands hle =>
      -- A statement may fail where it starts. The step that follows is the progress then.
      obtain ⟨head₂, hadvance, hstands₂⟩ := hstands.advance_eq
      have hnext : c₁.next.ahead.length < d := by
        rw [Cursor.next, List.length_tail]
        omega
      obtain ⟨head₃, hseek, hstands₃⟩ := hstands₂.seek_eq hnext
      refine ⟨some (.error e), head₃, _, ?_, hstands₃, ?_, ?_⟩
      · rw [round, bind_of_some h.current_eq, if_neg hsemicolon]
        refine (bind_of_some hr).trans ((bind_of_some hadvance).trans ?_)
        exact bind_of_some hseek
      · have hpos := h.ahead_pos hne
        have hresume := Parser.length_resume_le c₁.ahead.tail
        rw [List.length_tail] at hresume
        show (Parser.resume c₁.ahead.tail).length < _
        omega
      · exact Parser.statements_of_error ⟨hsemicolon, hne⟩ hr'

theorem Stands.rounds_eq (h : Stands tokens head c) (hd : c.ahead.length < d)
    (hi : c.ahead.length ≤ i) : ∃ head' c',
      rounds d (vector tokens) head = some (Parser.statements i c, head') ∧
        Stands tokens head' c' ∧ c'.current.kind = .endOfFile := by
  induction i generalizing head c d with
  | zero =>
    have hend := h.kind_of_ahead_eq_nil (List.length_eq_zero_iff.mp (Nat.le_zero.mp hi))
    obtain ⟨d, rfl⟩ : ∃ e, d = e + 1 := ⟨d - 1, by omega⟩
    refine ⟨head.look, c, ?_, h.look, hend⟩
    rw [rounds, bind_of_some h.current_eq, if_pos hend]
    rfl
  | succ i ih =>
    obtain ⟨d, rfl⟩ : ∃ e, d = e + 1 := ⟨d - 1, by omega⟩
    by_cases hend : c.current.kind = .endOfFile
    · refine ⟨head.look, c, ?_, h.look, hend⟩
      rw [rounds, bind_of_some h.current_eq, if_pos hend, Parser.statements_endOfFile hend]
      rfl
    · obtain ⟨outcome, head₁, c₁, hround, hstands₁, hlt, hstatements⟩ := h.look.round_eq hend hd hi
      have hd₁ : c₁.ahead.length < d := by omega
      obtain ⟨head₂, c₂, hrounds, hstands₂⟩ := ih hstands₁ hd₁ (by omega)
      refine ⟨head₂, c₂, ?_, hstands₂⟩
      rw [rounds, bind_of_some h.current_eq, if_neg hend, bind_of_some hround, bind_of_some hrounds,
        hstatements]
      rfl

theorem stopAt_eq (tokens : List Token) :
    stopAt tokens = (Cursor.ofTokens tokens).ahead.length := by
  obtain ⟨rest, hrest⟩ := toList_vector tokens
  have hvector : vector tokens =
      ((Cursor.ofTokens tokens).ahead ++ (Cursor.ofTokens tokens).stop :: rest).toArray := by
    rw [← hrest, Array.toArray_toList]
  rw [stopAt, hvector, List.findIdx_toArray]
  exact Cursor.findIdx_of_stop (fun _ hmem => Cursor.kind_ne_of_mem_ahead hmem)
    (Cursor.stop_kind_ofTokens tokens)

/-- A round that is made makes progress. -/
theorem round_progress (hd : stopAt tokens < d) (hwithin : head.Within (stopAt tokens))
    (hne : head.position ≠ stopAt tokens) : ∃ outcome head',
      round d (vector tokens) head = some (outcome, head') ∧
        head.position < head'.position ∧ head'.Within (stopAt tokens) := by
  rw [stopAt_eq] at hd hwithin hne ⊢
  obtain ⟨c, hstands⟩ : ∃ c, Stands tokens head c := ⟨⟨_, _⟩, hwithin, rfl, rfl⟩
  have hlength := hstands.length_ahead
  have hlt : c.ahead.length < d := by omega
  have hkind : c.current.kind ≠ .endOfFile := by
    intro hend
    rw [hstands.ahead_eq_nil hend] at hlength
    exact hne hlength
  obtain ⟨outcome, head', c', hround, hstands', hless, -⟩ :=
    hstands.round_eq hkind hlt (Nat.le_succ _)
  have hlength' := hstands'.length_ahead
  exact ⟨outcome, head', hround, by omega, hstands'.within⟩

theorem program_eq (hd : stopAt tokens < d) : ∃ head,
    program d tokens = some (Program.ofTokens tokens, head) ∧
      head.position = stopAt tokens ∧ head.Within (stopAt tokens) := by
  rw [stopAt_eq] at hd ⊢
  obtain ⟨head, c, hrounds, hstands, hend⟩ := (Stands.start tokens).rounds_eq hd (Nat.le_refl _)
  have hlength := hstands.length_ahead
  rw [hstands.ahead_eq_nil hend] at hlength
  refine ⟨head, ?_, hlength, hstands.within⟩
  show Option.bind (rounds d (vector tokens) ⟨0, []⟩) _ = _
  rw [hrounds, Program.ofTokens]
  generalize Parser.statements _ (Cursor.ofTokens tokens) = results
  obtain ⟨stmts, errors⟩ := results
  cases errors <;> rfl

theorem stopAt_lt_size (tokens : List Token) : stopAt tokens < (vector tokens).size := by
  obtain ⟨rest, hrest⟩ := toList_vector tokens
  rw [stopAt_eq, ← Array.length_toList, hrest, List.length_append, List.length_cons]
  omega

/-- Every walk ends, at the first end mark of the vector, and gives what the parser gives. It never
was behind that mark, and each of its rounds makes progress. What stands behind the mark has no part
in the program. -/
theorem program_ends (tokens : List Token) :
    stopAt tokens < (vector tokens).size ∧
    (∀ depth > stopAt tokens, ∃ head,
      program depth tokens = some (Program.ofTokens tokens, head) ∧
        head.position = stopAt tokens ∧ head.Within (stopAt tokens)) ∧
    (∀ depth > stopAt tokens, ∀ head : Head, head.Within (stopAt tokens) →
      head.position ≠ stopAt tokens → ∃ outcome head',
        round depth (vector tokens) head = some (outcome, head') ∧
          head.position < head'.position ∧ head'.Within (stopAt tokens)) ∧
    Program.ofTokens (tokens.take (tokens.findIdx (fun token => token.kind = .endOfFile) + 1)) =
      Program.ofTokens tokens := by
  refine ⟨stopAt_lt_size tokens, fun depth hd => program_eq hd,
    fun depth hd head => round_progress hd, ?_⟩
  rw [Program.ofTokens, Program.ofTokens, Cursor.ofTokens_take]

end Programs

end Walk
end Script
