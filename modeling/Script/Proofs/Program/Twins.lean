import Script.Proofs.Program.Completeness

namespace Script

def Kind.Inner (kind : Kind) : Prop :=
  kind ≠ .semicolon ∧ kind ≠ .endOfFile

instance : DecidablePred Kind.Inner := fun kind =>
  inferInstanceAs (Decidable (kind ≠ .semicolon ∧ kind ≠ .endOfFile))

theorem Token.map_lexeme_drop {v w : List Token} (h : v.map lexeme = w.map lexeme) (m : Nat) :
    (v.drop m).map lexeme = (w.drop m).map lexeme := by
  rw [List.map_drop, List.map_drop, h]

namespace Cursor

variable {c e : Cursor} {token : Token} {tokens : List Token}

def prepend (c : Cursor) (tokens : List Token) : Cursor :=
  { c with ahead := tokens ++ c.ahead }

@[simp] theorem prepend_nil : c.prepend [] = c := rfl

@[simp] theorem current_prepend_cons : (c.prepend (token :: tokens)).current = token := rfl

@[simp] theorem next_prepend_cons : (c.prepend (token :: tokens)).next = c.prepend tokens := rfl

def passed (c : Cursor) : Cursor :=
  if c.current.kind = .semicolon then c.next else c

theorem passed_of_eq (h : c.current.kind = .semicolon) : c.passed = c.next :=
  if_pos h

theorem passed_of_ne (h : c.current.kind ≠ .semicolon) : c.passed = c :=
  if_neg h

def AtEdge (c : Cursor) : Prop :=
  c.current.kind = .semicolon ∨ c.current.kind = .endOfFile

theorem AtEdge.kind_ne (h : e.AtEdge) {kind : Kind} (hkind : kind.Inner) :
    e.current.kind ≠ kind := by
  intro heq
  rcases h with h | h
  · exact hkind.1 (heq.symm.trans h)
  · exact hkind.2 (heq.symm.trans h)

theorem AtEdge.joins?_eq_none (h : e.AtEdge) : e.current.joins? = none := by
  rcases h with h | h <;> rw [Token.joins?, h]

theorem AtEdge.stops (h : e.AtEdge) {level : Level} : level.Stops e.current := by
  intro joined hjoined
  rw [h.joins?_eq_none] at hjoined
  cases hjoined

/-- Where a parser may fail on the tokens before an edge. It is behind the edge only if it wanted an
expression there. -/
def Halts (e : Cursor) (tokens : List Token) (error : SyntaxError) (c : Cursor) : Prop :=
  (∃ m, c = e.prepend (tokens.drop m)) ∨
    c = e.next ∧ error.cause = .unexpected e.current.kind

theorem Halts.of_drop {error : SyntaxError} {m : Nat} (h : e.Halts (tokens.drop m) error c) :
    e.Halts tokens error c := by
  rcases h with ⟨i, rfl⟩ | h
  · exact .inl ⟨m + i, by rw [List.drop_drop]⟩
  · exact .inr h

end Cursor

namespace Parser

variable {α β : Type} {e f : Cursor} {v w : List Token} {n k : Nat}

/-- The same end of two runs over tokens before an edge, with at least `k` tokens read if it is a
success. -/
inductive Twin (e f : Cursor) (v w : List Token) (k : Nat) :
    EStateM.Result SyntaxError Cursor α → EStateM.Result SyntaxError Cursor α → Prop
  | ok {a : α} {m : Nat} (hk : k ≤ m) (hm : m ≤ v.length) :
      Twin e f v w k (.ok a (e.prepend (v.drop m))) (.ok a (f.prepend (w.drop m)))
  | error {error error' : SyntaxError} {c d : Cursor} (hc : e.Halts v error c)
      (hd : f.Halts w error' d) : Twin e f v w k (.error error c) (.error error' d)

/-- The parsers end alike on every two lists of at most `n` tokens that read alike, one before `e`
and one before `f`. -/
def Twins (e f : Cursor) (n k : Nat) (p q : Parser α) : Prop :=
  ∀ v w : List Token, v.map Token.lexeme = w.map Token.lexeme → v.length ≤ n →
    Twin e f v w k (p (e.prepend v)) (q (f.prepend w))

def Stuck (e : Cursor) (p : Parser α) : Prop :=
  ∃ error c, p e = .error error c ∧ e.Halts [] error c

section Results

variable {r r' : EStateM.Result SyntaxError Cursor α}

theorem Twin.mono {l : Nat} (h : Twin e f v w k r r') (hl : l ≤ k) : Twin e f v w l r r' := by
  cases h with
  | ok hk hm => exact .ok (hl.trans hk) hm
  | error hc hd => exact .error hc hd

theorem Twin.of_drop {l m : Nat} (h : Twin e f (v.drop m) (w.drop m) k r r') (hm : m ≤ v.length)
    (hl : l ≤ m + k) : Twin e f v w l r r' := by
  cases h with
  | @ok a i hk hi =>
    rw [List.length_drop] at hi
    rw [List.drop_drop, List.drop_drop]
    exact .ok (by omega) (by omega)
  | error hc hd => exact .error hc.of_drop hd.of_drop

theorem Twin.cons {l : Nat} {t u : Token} (h : Twin e f v w k r r') (hl : l ≤ k + 1) :
    Twin e f (t :: v) (u :: w) l r r' :=
  of_drop (m := 1) h (Nat.succ_pos _) (by omega)

end Results

theorem Stuck.bind {p : Parser α} (h : Stuck e p) (g : α → Parser β) : Stuck e (p >>= g) := by
  obtain ⟨error, c, hp, hc⟩ := h
  exact ⟨error, c, bind_of_error hp, hc⟩

theorem Twin.of_stuck {p q : Parser α} (hp : Stuck e p) (hq : Stuck f q) :
    Twin e f [] [] k (p (e.prepend [])) (q (f.prepend [])) := by
  obtain ⟨error, c, hp, hc⟩ := hp
  obtain ⟨error', d, hq, hd⟩ := hq
  rw [Cursor.prepend_nil, Cursor.prepend_nil, hp, hq]
  exact .error hc hd

namespace Twins

variable {p q : Parser α}

/-- With no token before the edge there is one run of each parser, else there is a first token. -/
theorem of_cases (hnil : Twin e f [] [] k (p (e.prepend [])) (q (f.prepend [])))
    (hcons : ∀ t u v w, t.lexeme = u.lexeme → v.map Token.lexeme = w.map Token.lexeme →
      (t :: v).length ≤ n →
        Twin e f (t :: v) (u :: w) k (p (e.prepend (t :: v))) (q (f.prepend (u :: w)))) :
    Twins e f n k p q := by
  intro v w hvw hn
  cases v with
  | nil =>
    obtain rfl := List.map_eq_nil_iff.mp hvw.symm
    exact hnil
  | cons t v =>
    obtain ⟨u, w, rfl, htu, hvw⟩ := List.map_eq_cons_iff.mp hvw.symm
    exact hcons t u v w htu.symm hvw.symm hn

theorem of_stuck (hp : Stuck e p) (hq : Stuck f q) : Twins e f 0 k p q := by
  refine of_cases (.of_stuck hp hq) fun t u v w _ _ hn => ?_
  simp at hn

theorem stuck (h : Twins e f n 1 p q) : Stuck e p ∧ Stuck f q := by
  have hnil := h [] [] rfl (Nat.zero_le n)
  generalize hr : p (e.prepend []) = r at hnil
  generalize hr' : q (f.prepend []) = r' at hnil
  cases hnil with
  | ok hk hm => exact absurd (hk.trans hm) (by simp)
  | error hc hd => exact ⟨⟨_, _, hr, hc⟩, ⟨_, _, hr', hd⟩⟩

theorem mono (h : Twins e f n k p q) {m l : Nat} (hm : m ≤ n) (hl : l ≤ k) :
    Twins e f m l p q :=
  fun v w hvw hv => (h v w hvw (hv.trans hm)).mono hl

theorem zero (h : Twins e f n k p q) : Twins e f n 0 p q :=
  h.mono (Nat.le_refl n) (Nat.zero_le k)

protected theorem pure (a : α) : Twins e f n 0 (pure a) (pure a) :=
  fun v _ _ _ => .ok (m := 0) (Nat.zero_le 0) (Nat.zero_le v.length)

/-- Parsers that fail and leave the cursor where it is. -/
theorem of_fail (hp : ∀ c, ∃ error, p c = .error error c)
    (hq : ∀ c, ∃ error, q c = .error error c) : Twins e f n k p q := by
  intro v w _ _
  obtain ⟨error, hp⟩ := hp (e.prepend v)
  obtain ⟨error', hq⟩ := hq (f.prepend w)
  rw [hp, hq]
  exact .error (.inl ⟨0, rfl⟩) (.inl ⟨0, rfl⟩)

protected theorem bind {g h : α → Parser β} (hpq : Twins e f n k p q)
    (hgh : ∀ a, Twins e f (n - k) 0 (g a) (h a)) : Twins e f n k (p >>= g) (q >>= h) := by
  intro v w hvw hn
  have hfirst := hpq v w hvw hn
  simp only [Bind.bind, EStateM.bind]
  generalize p (e.prepend v) = r at hfirst
  generalize q (f.prepend w) = r' at hfirst
  cases hfirst with
  | @ok a m hk hm =>
    have hrest : Twin e f (v.drop m) (w.drop m) 0 (g a (e.prepend (v.drop m)))
        (h a (f.prepend (w.drop m))) := by
      apply hgh a _ _ (Token.map_lexeme_drop hvw m)
      rw [List.length_drop]
      omega
    exact hrest.of_drop hm hk
  | error hc hd => exact .error hc hd

protected theorem map {g : α → β} (hpq : Twins e f n k p q) :
    Twins e f n k (g <$> p) (g <$> q) := by
  rw [map_eq_pure_bind, map_eq_pure_bind]
  exact hpq.bind fun a => .pure _

end Twins

theorem expect_of_ne {c : Cursor} {kind : Kind} (h : c.current.kind ≠ kind) :
    expect kind c = .error ⟨.expected kind c.current.kind, c.current.span⟩ c := by
  rw [expect, check_bind, decide_eq_false h]
  rfl

theorem identifier_of_ne {c : Cursor} {role : NameRole} (h : c.current.kind ≠ .identifier) :
    identifier role c = .error ⟨.expectedName role c.current.kind, c.current.span⟩ c := by
  rw [identifier, check_bind, decide_eq_false h]
  rfl

section Branches

variable {c : Cursor} {kind : Kind} {p q : Parser β}

theorem accept_pos (h : c.current.kind = kind) :
    (accept kind >>= fun b => if b = true then p else q) c = p c.next := by
  rw [accept_bind, if_pos h, if_pos rfl]

theorem accept_neg (h : c.current.kind ≠ kind) :
    (accept kind >>= fun b => if b = true then p else q) c = q c := by
  rw [accept_bind, if_neg h, if_neg Bool.false_ne_true]

theorem check_pos (h : c.current.kind = kind) :
    (check kind >>= fun b => if b = true then p else q) c = p c := by
  rw [check_bind, decide_eq_true h, if_pos rfl]

theorem check_neg (h : c.current.kind ≠ kind) :
    (check kind >>= fun b => if b = true then p else q) c = q c := by
  rw [check_bind, decide_eq_false h, if_neg Bool.false_ne_true]

theorem atCloser_pos (h : c.current.kind = kind ∨ c.current.kind = .endOfFile) :
    (atCloser kind >>= fun b => if b = true then p else q) c = p c := by
  rw [atCloser_bind, decide_eq_true h, if_pos rfl]

theorem atCloser_neg (h : ¬(c.current.kind = kind ∨ c.current.kind = .endOfFile)) :
    (atCloser kind >>= fun b => if b = true then p else q) c = q c := by
  rw [atCloser_bind, decide_eq_false h, if_neg Bool.false_ne_true]

end Branches

theorem ite_not_eq_true (p q : Parser β) (b : Bool) :
    (if (!b) = true then p else q) = if b = true then q else p := by
  cases b <;> rfl

theorem stuck_expect (he : e.AtEdge) {kind : Kind} (hkind : kind.Inner) :
    Stuck e (expect kind) :=
  ⟨_, _, expect_of_ne (he.kind_ne hkind), .inl ⟨0, rfl⟩⟩

theorem stuck_identifier (he : e.AtEdge) {role : NameRole} : Stuck e (identifier role) :=
  ⟨_, _, identifier_of_ne (he.kind_ne (by decide)), .inl ⟨0, rfl⟩⟩

theorem stuck_atCloser {kind : Kind} {p q : Parser β} (hp : Stuck e p) (hq : Stuck e q) :
    Stuck e (atCloser kind >>= fun b => if b = true then p else q) := by
  by_cases h : e.current.kind = kind ∨ e.current.kind = .endOfFile
  · obtain ⟨error, c, hp, hc⟩ := hp
    exact ⟨error, c, (atCloser_pos h).trans hp, hc⟩
  · obtain ⟨error, c, hq, hc⟩ := hq
    exact ⟨error, c, (atCloser_neg h).trans hq, hc⟩

namespace Twins

variable {kind : Kind}

variable (he : e.AtEdge) (hf : f.AtEdge)

include he hf

theorem expect_bind {g h : Token → Parser β} (hkind : kind.Inner)
    (hgh : ∀ t u, Twins e f (n - 1) 0 (g t) (h u)) :
    Twins e f n 1 (expect kind >>= g) (expect kind >>= h) := by
  refine of_cases (.of_stuck ((stuck_expect he hkind).bind g) ((stuck_expect hf hkind).bind h)) ?_
  intro t u v w htu hvw hn
  have hkinds : t.kind = u.kind := congrArg Lexeme.kind htu
  by_cases ht : t.kind = kind
  · rw [Parser.expect_bind (c := e.prepend (t :: v)) ht,
      Parser.expect_bind (c := f.prepend (u :: w)) (hkinds ▸ ht)]
    exact (hgh t u v w hvw (Nat.le_sub_one_of_lt hn)).cons (Nat.le_refl 1)
  · have hu : u.kind ≠ kind := hkinds ▸ ht
    rw [bind_of_error (expect_of_ne (c := e.prepend (t :: v)) ht),
      bind_of_error (expect_of_ne (c := f.prepend (u :: w)) hu)]
    exact .error (.inl ⟨0, rfl⟩) (.inl ⟨0, rfl⟩)

theorem identifier_bind {role : NameRole} {g h : Token → Parser β}
    (hgh : ∀ t u, t.lexeme = u.lexeme → Twins e f (n - 1) 0 (g t) (h u)) :
    Twins e f n 1 (identifier role >>= g) (identifier role >>= h) := by
  refine of_cases (.of_stuck ((stuck_identifier he).bind g) ((stuck_identifier hf).bind h)) ?_
  intro t u v w htu hvw hn
  have hkinds : t.kind = u.kind := congrArg Lexeme.kind htu
  by_cases ht : t.kind = .identifier
  · rw [Parser.identifier_bind (c := e.prepend (t :: v)) ht,
      Parser.identifier_bind (c := f.prepend (u :: w)) (hkinds ▸ ht)]
    exact (hgh t u htu v w hvw (Nat.le_sub_one_of_lt hn)).cons (Nat.le_refl 1)
  · have hu : u.kind ≠ .identifier := hkinds ▸ ht
    simp only [Bind.bind, EStateM.bind, identifier_of_ne (c := e.prepend (t :: v)) ht,
      identifier_of_ne (c := f.prepend (u :: w)) hu]
    exact .error (.inl ⟨0, rfl⟩) (.inl ⟨0, rfl⟩)

theorem ite_accept {p p' q q' : Parser β} (hkind : kind.Inner) (hthen : Twins e f (n - 1) k p q)
    (helse : Twins e f n k p' q') :
    Twins e f n k (accept kind >>= fun b => if b = true then p else p')
      (accept kind >>= fun b => if b = true then q else q') := by
  refine of_cases ?_ ?_
  · rw [Cursor.prepend_nil, Cursor.prepend_nil, accept_neg (he.kind_ne hkind),
      accept_neg (hf.kind_ne hkind)]
    exact helse [] [] rfl (Nat.zero_le n)
  · intro t u v w htu hvw hn
    have hkinds : t.kind = u.kind := congrArg Lexeme.kind htu
    by_cases ht : t.kind = kind
    · rw [accept_pos (c := e.prepend (t :: v)) ht,
        accept_pos (c := f.prepend (u :: w)) (hkinds ▸ ht)]
      exact (hthen v w hvw (Nat.le_sub_one_of_lt hn)).cons (Nat.le_succ k)
    · rw [accept_neg (c := e.prepend (t :: v)) ht,
        accept_neg (c := f.prepend (u :: w)) (hkinds ▸ ht)]
      exact helse (t :: v) (u :: w) (by rw [List.map_cons, List.map_cons, htu, hvw]) hn

theorem ite_check {p p' q q' : Parser β} (hkind : kind.Inner) (hthen : Twins e f n k p q)
    (helse : Twins e f n k p' q') :
    Twins e f n k (check kind >>= fun b => if b = true then p else p')
      (check kind >>= fun b => if b = true then q else q') := by
  refine of_cases ?_ ?_
  · rw [Cursor.prepend_nil, Cursor.prepend_nil, check_neg (he.kind_ne hkind),
      check_neg (hf.kind_ne hkind)]
    exact helse [] [] rfl (Nat.zero_le n)
  · intro t u v w htu hvw hn
    have hkinds : t.kind = u.kind := congrArg Lexeme.kind htu
    have htokens : (t :: v).map Token.lexeme = (u :: w).map Token.lexeme := by
      rw [List.map_cons, List.map_cons, htu, hvw]
    by_cases ht : t.kind = kind
    · rw [check_pos (c := e.prepend (t :: v)) ht,
        check_pos (c := f.prepend (u :: w)) (hkinds ▸ ht)]
      exact hthen (t :: v) (u :: w) htokens hn
    · rw [check_neg (c := e.prepend (t :: v)) ht,
        check_neg (c := f.prepend (u :: w)) (hkinds ▸ ht)]
      exact helse (t :: v) (u :: w) htokens hn

end Twins

namespace Twins

/-- An end mark closes everything, so the two edges may part the runs. Both fail there. -/
theorem ite_atCloser {kind : Kind} {p p' q q' : Parser β} (hthen : Twins e f n 1 p q)
    (helse : Twins e f n 1 p' q') :
    Twins e f n 1 (atCloser kind >>= fun b => if b = true then p else p')
      (atCloser kind >>= fun b => if b = true then q else q') := by
  refine of_cases (.of_stuck (stuck_atCloser hthen.stuck.1 helse.stuck.1)
    (stuck_atCloser hthen.stuck.2 helse.stuck.2)) ?_
  intro t u v w htu hvw hn
  have hkinds : t.kind = u.kind := congrArg Lexeme.kind htu
  have htokens : (t :: v).map Token.lexeme = (u :: w).map Token.lexeme := by
    rw [List.map_cons, List.map_cons, htu, hvw]
  by_cases ht : t.kind = kind ∨ t.kind = .endOfFile
  · rw [atCloser_pos (c := e.prepend (t :: v)) ht,
      atCloser_pos (c := f.prepend (u :: w)) (hkinds ▸ ht)]
    exact hthen (t :: v) (u :: w) htokens hn
  · rw [atCloser_neg (c := e.prepend (t :: v)) ht,
      atCloser_neg (c := f.prepend (u :: w)) (hkinds ▸ ht)]
    exact helse (t :: v) (u :: w) htokens hn

end Twins

section Expressions

variable {nested nested' : Parser Expr} {i j : Nat}

theorem stuck_primary (he : e.AtEdge) : Stuck e (primary nested i) := by
  refine ⟨⟨.unexpected e.current.kind, e.current.span⟩, e.next, ?_, .inr ⟨rfl, rfl⟩⟩
  rw [primary, advance_bind]
  rcases he with h | h <;> simp only [h] <;> rfl

theorem stuck_comparison (he : e.AtEdge) : Stuck e (comparison nested i) :=
  (((stuck_primary he).bind _).bind _).bind _ |>.bind _

theorem stuck_object (he : e.AtEdge) : Stuck e (object nested i) := by
  have hcomparison : Stuck e (comparison nested i) := stuck_comparison he
  obtain ⟨error, c, h, hc⟩ := hcomparison
  have hbrace : e.current.kind ≠ .openBrace := he.kind_ne (by decide)
  exact ⟨error, c, (accept_neg hbrace).trans h, hc⟩

theorem stuck_expression (he : e.AtEdge) : Stuck e (expression i) := by
  cases i with
  | zero => exact ⟨_, _, rfl, .inl ⟨0, rfl⟩⟩
  | succ i => exact (stuck_object he).bind _

theorem stuck_items (he : e.AtEdge) (hnested : Stuck e nested) {closer : Kind}
    (hcloser : closer.Inner) : Stuck e (items nested closer i) := by
  have hexpect := (stuck_expect he hcloser).bind fun _ => (pure [] : Parser (List Expr))
  cases i with
  | zero => exact hexpect
  | succ i => exact stuck_atCloser hexpect (hnested.bind _)

theorem stuck_properties (he : e.AtEdge) : Stuck e (properties nested i) := by
  have hcloser : Kind.Inner .closeBrace := by decide
  have hexpect := (stuck_expect he hcloser).bind fun _ => (pure [] : Parser (List Property))
  cases i with
  | zero => exact hexpect
  | succ i => exact stuck_atCloser hexpect ((stuck_identifier he).bind _)

structure Tokenwise (operator? : Token → Option Operator) : Prop where
  congr : ∀ {t u : Token}, t.lexeme = u.lexeme → operator? t = operator? u
  edge : ∀ {e : Cursor}, e.AtEdge → operator? e.current = none

theorem tokenwise_arithmetic? (symbols : List String) : Tokenwise (arithmetic? symbols) where
  congr {t u} h := by
    have hkind : t.kind = u.kind := congrArg Lexeme.kind h
    have htext : t.text = u.text := congrArg Lexeme.text h
    rw [arithmetic?, arithmetic?, hkind, htext]
  edge {e} h := by
    rw [arithmetic?, if_neg]
    exact fun hsign => h.kind_ne (by decide) hsign.1

theorem tokenwise_comparison? : Tokenwise comparison? where
  congr {t u} h := by
    have hkind : t.kind = u.kind := congrArg Lexeme.kind h
    have htext : t.text = u.text := congrArg Lexeme.text h
    rw [comparison?, comparison?, hkind, htext]
  edge {e} h := by
    rcases h with h | h <;> rw [comparison?, h]

variable (he : e.AtEdge) (hf : f.AtEdge)

include he hf

theorem items_twins {closer : Kind} (hcloser : closer.Inner)
    (hnested : Twins e f n 1 nested nested') (hi : n ≤ i) (hj : n ≤ j) :
    Twins e f n 1 (items nested closer i) (items nested' closer j) := by
  induction n generalizing i j with
  | zero =>
    exact .of_stuck (stuck_items he hnested.stuck.1 hcloser)
      (stuck_items hf hnested.stuck.2 hcloser)
  | succ n ih =>
    obtain ⟨i, rfl⟩ := Nat.exists_eq_add_one_of_ne_zero (Nat.ne_zero_of_lt hi)
    obtain ⟨j, rfl⟩ := Nat.exists_eq_add_one_of_ne_zero (Nat.ne_zero_of_lt hj)
    have hrest := ih (hnested.mono (Nat.le_succ n) (Nat.le_refl 1)) (Nat.le_of_succ_le_succ hi)
      (Nat.le_of_succ_le_succ hj)
    rw [items, items]
    refine .ite_atCloser ?_ ?_
    · exact .expect_bind he hf hcloser fun _ _ => .pure _
    · refine hnested.bind fun item => .ite_accept he hf (by decide) ?_ ?_
      · exact (hrest.mono (by omega) (Nat.zero_le 1)).bind fun rest => .pure _
      · exact (Twins.expect_bind he hf hcloser fun _ _ => .pure _).zero

theorem properties_twins (hnested : Twins e f n 1 nested nested') (hi : n ≤ i) (hj : n ≤ j) :
    Twins e f n 1 (properties nested i) (properties nested' j) := by
  induction n generalizing i j with
  | zero => exact .of_stuck (stuck_properties he) (stuck_properties hf)
  | succ n ih =>
    obtain ⟨i, rfl⟩ := Nat.exists_eq_add_one_of_ne_zero (Nat.ne_zero_of_lt hi)
    obtain ⟨j, rfl⟩ := Nat.exists_eq_add_one_of_ne_zero (Nat.ne_zero_of_lt hj)
    have hrest := ih (hnested.mono (Nat.le_succ n) (Nat.le_refl 1)) (Nat.le_of_succ_le_succ hi)
      (Nat.le_of_succ_le_succ hj)
    rw [properties, properties]
    refine .ite_atCloser ?_ ?_
    · exact .expect_bind he hf (by decide) fun _ _ => .pure _
    · refine .identifier_bind he hf fun t u htu => ?_
      have htext : t.text = u.text := congrArg Lexeme.text htu
      simp only [htext]
      refine .ite_accept he hf (by decide) ?_ (.ite_check he hf (by decide) ?_
        (.ite_accept he hf (by decide) ?_ ?_))
      · exact (hrest.mono (by omega) (Nat.zero_le 1)).bind fun rest => .pure _
      · exact (hrest.mono (by omega) (Nat.zero_le 1)).bind fun rest => .pure _
      · refine ((hnested.mono (by omega) (Nat.le_refl 1)).bind fun value => ?_).zero
        simp only [ite_not_eq_true]
        refine .ite_check he hf (by decide) ?_ (Twins.expect_bind he hf (by decide) ?_).zero
        · exact (hrest.mono (by omega) (Nat.zero_le 1)).bind fun rest => .pure _
        · exact fun _ _ => (hrest.mono (by omega) (Nat.zero_le 1)).bind fun rest => .pure _
      · exact .of_fail (fun c => ⟨_, rfl⟩) fun c => ⟨_, rfl⟩

theorem links_twins (hnested : Twins e f n 1 nested nested') (hi : n ≤ i) (hj : n ≤ j)
    (expr : Expr) : Twins e f n 0 (links nested i expr) (links nested' j expr) := by
  induction n generalizing i j expr with
  | zero =>
    refine .of_cases ?_ fun t u v w _ _ hn => absurd hn (Nat.not_succ_le_zero _)
    rw [Cursor.prepend_nil, Cursor.prepend_nil, links_stop he.stops, links_stop hf.stops]
    exact .ok (m := 0) (Nat.le_refl 0) (Nat.le_refl 0)
  | succ n ih =>
    obtain ⟨i, rfl⟩ := Nat.exists_eq_add_one_of_ne_zero (Nat.ne_zero_of_lt hi)
    obtain ⟨j, rfl⟩ := Nat.exists_eq_add_one_of_ne_zero (Nat.ne_zero_of_lt hj)
    have hnested := hnested.mono (Nat.le_succ n) (Nat.le_refl 1)
    have hi := Nat.le_of_succ_le_succ hi
    have hj := Nat.le_of_succ_le_succ hj
    have hrest := fun expr => (ih hnested hi hj expr).mono (Nat.sub_le n 1) (Nat.le_refl 0)
    rw [links, links]
    -- The three kinds of link are tried in turn, and an edge starts none of them.
    refine .ite_accept he hf (by decide) ?_ (.ite_accept he hf (by decide) ?_
      (.ite_accept he hf (by decide) ?_ (.pure expr)))
    · refine (Twins.identifier_bind he hf fun t u htu => ?_).zero
      have htext : t.text = u.text := congrArg Lexeme.text htu
      rw [htext]
      exact hrest _
    · refine (hnested.bind fun property => ?_).zero
      refine (Twins.expect_bind he hf (by decide) fun _ _ => ?_).zero
      exact (hrest _).mono (Nat.sub_le _ 1) (Nat.le_refl 0)
    · refine ((items_twins he hf (by decide) hnested hi hj).bind fun arguments => ?_).zero
      exact hrest _

theorem primary_twins (hnested : Twins e f n 1 nested nested') (hi : n ≤ i) (hj : n ≤ j) :
    Twins e f (n + 1) 1 (primary nested i) (primary nested' j) := by
  refine .of_cases (.of_stuck (stuck_primary he) (stuck_primary hf)) ?_
  intro t u v w htu hvw hn
  have hkind : t.kind = u.kind := congrArg Lexeme.kind htu
  have htext : t.text = u.text := congrArg Lexeme.text htu
  rw [primary, primary, advance_bind, advance_bind]
  simp only [Cursor.current_prepend_cons, Cursor.next_prepend_cons, ← hkind, ← htext]
  have hfail : ∀ cause cause' span span', Twins e f n 0 (fail cause span : Parser Expr)
      (fail cause' span') := fun _ _ _ _ => .of_fail (fun c => ⟨_, rfl⟩) fun c => ⟨_, rfl⟩
  have hn := Nat.le_of_succ_le_succ hn
  -- What comes behind the first token is one of these, by its kind.
  cases t.kind with
  | identifier => exact (Twins.pure _ v w hvw hn).cons (Nat.le_refl 1)
  | number =>
    cases Number.read? t.text with
    | some value => exact (Twins.pure _ v w hvw hn).cons (Nat.le_refl 1)
    | none => exact (hfail _ _ _ _ v w hvw hn).cons (Nat.le_refl 1)
  | string => exact (Twins.pure _ v w hvw hn).cons (Nat.le_refl 1)
  | openParen =>
    have hcloser : Kind.Inner .closeParen := by decide
    have hinner := hnested.bind fun inner =>
      (Twins.expect_bind he hf hcloser fun _ _ => .pure inner).zero
    exact (hinner v w hvw hn).cons (Nat.le_succ 1)
  | openBracket =>
    have hcloser : Kind.Inner .closeBracket := by decide
    have hitems := (items_twins he hf hcloser hnested hi hj).bind fun items =>
      .pure (Expr.array items)
    exact (hitems v w hvw hn).cons (Nat.le_succ 1)
  | _ => exact (hfail _ _ _ _ v w hvw hn).cons (Nat.le_refl 1)

theorem chain_twins {operator? : Token → Option Operator} (hoperator : Tokenwise operator?)
    {operand operand' : Parser Expr} (hoperand : Twins e f n 1 operand operand') (hi : n ≤ i)
    (hj : n ≤ j) (left : Expr) :
    Twins e f n 0 (chain operator? operand i left) (chain operator? operand' j left) := by
  -- No operator stands at an edge.
  have hstop : ∀ i j left, Twin e f [] [] 0 (chain operator? operand i left (e.prepend []))
      (chain operator? operand' j left (f.prepend [])) := by
    intro i j left
    rw [Cursor.prepend_nil, Cursor.prepend_nil, chain_stop (hoperator.edge he),
      chain_stop (hoperator.edge hf)]
    exact .ok (m := 0) (Nat.le_refl 0) (Nat.le_refl 0)
  induction n generalizing i j left with
  | zero =>
    exact .of_cases (hstop i j left) fun t u v w _ _ hn => absurd hn (Nat.not_succ_le_zero _)
  | succ n ih =>
    obtain ⟨i, rfl⟩ := Nat.exists_eq_add_one_of_ne_zero (Nat.ne_zero_of_lt hi)
    obtain ⟨j, rfl⟩ := Nat.exists_eq_add_one_of_ne_zero (Nat.ne_zero_of_lt hj)
    have hoperand := hoperand.mono (Nat.le_succ n) (Nat.le_refl 1)
    refine .of_cases (hstop _ _ left) ?_
    intro t u v w htu hvw hn
    rw [chain, chain, peek_bind, peek_bind, Cursor.current_prepend_cons,
      Cursor.current_prepend_cons, hoperator.congr htu]
    cases operator? u with
    | none => exact .ok (m := 0) (Nat.le_refl 0) (Nat.zero_le _)
    | some operator =>
      simp only [advance_bind, Cursor.next_prepend_cons]
      have hrest := hoperand.bind fun right =>
        (ih hoperand (Nat.le_of_succ_le_succ hi) (Nat.le_of_succ_le_succ hj)
          (.binary operator left right)).mono (Nat.sub_le n 1) (Nat.le_refl 0)
      exact (hrest v w hvw (Nat.le_of_succ_le_succ hn)).cons (Nat.zero_le 2)

theorem chained_twins {operator? : Token → Option Operator} (hoperator : Tokenwise operator?)
    {operand operand' : Parser Expr} (hoperand : Twins e f (n + 1) 1 operand operand') (hi : n ≤ i)
    (hj : n ≤ j) : Twins e f (n + 1) 1 (operand >>= chain operator? operand i)
      (operand' >>= chain operator? operand' j) :=
  hoperand.bind (chain_twins he hf hoperator (hoperand.mono (Nat.le_succ n) (Nat.le_refl 1)) hi hj)

theorem comparison_twins (hnested : Twins e f n 1 nested nested') (hi : n ≤ i) (hj : n ≤ j) :
    Twins e f (n + 1) 1 (comparison nested i) (comparison nested' j) := by
  have hlinked : Twins e f (n + 1) 1 (linked nested i) (linked nested' j) :=
    (primary_twins he hf hnested hi hj).bind (links_twins he hf hnested hi hj)
  have hmultiplicative := chained_twins he hf (tokenwise_arithmetic? ["*", "/", "%"]) hlinked hi hj
  have hadditive := chained_twins he hf (tokenwise_arithmetic? ["+", "-"]) hmultiplicative hi hj
  exact chained_twins he hf tokenwise_comparison? hadditive hi hj

theorem object_twins (hnested : Twins e f n 1 nested nested') (hi : n ≤ i) (hj : n ≤ j) :
    Twins e f (n + 1) 1 (object nested i) (object nested' j) := by
  refine .ite_accept he hf (by decide) ?_ (comparison_twins he hf hnested hi hj)
  exact (properties_twins he hf hnested hi hj).bind fun properties => .pure _

/-- Any bounds on the tokens ahead are as good as any other, as long as they hold. -/
theorem expression_twins (hi : n ≤ i) (hj : n ≤ j) :
    Twins e f n 1 (expression i) (expression j) := by
  induction n generalizing i j with
  | zero => exact .of_stuck (stuck_expression he) (stuck_expression hf)
  | succ n ih =>
    obtain ⟨i, rfl⟩ := Nat.exists_eq_add_one_of_ne_zero (Nat.ne_zero_of_lt hi)
    obtain ⟨j, rfl⟩ := Nat.exists_eq_add_one_of_ne_zero (Nat.ne_zero_of_lt hj)
    have hi := Nat.le_of_succ_le_succ hi
    have hj := Nat.le_of_succ_le_succ hj
    have hnested := ih hi hj
    refine (object_twins he hf hnested hi hj).bind fun left => ?_
    refine .ite_accept he hf (by decide) ?_ (.pure left)
    exact ((hnested.mono (Nat.sub_le n 1) (Nat.le_refl 1)).bind fun value => .pure _).zero

end Expressions

section Ends

variable {i : Nat} {c c' : Cursor}

/-- A semicolon ends a statement that was read up to it. -/
theorem statement_of_ok {stmt : Stmt} (h : form i c = .ok stmt c') :
    statement (i + 1) c = .ok stmt c'.passed := by
  rw [statement_succ, bind_of_ok h, accept_bind, Cursor.passed]
  by_cases hend : c'.current.kind = .semicolon
  · rw [if_pos hend, if_pos hend, pure_apply]
  · rw [if_neg hend, if_neg hend, pure_apply]

theorem statement_of_error {error : SyntaxError} (h : form i c = .error error c') :
    statement (i + 1) c = .error error c' := by
  rw [statement_succ, bind_of_error h]

theorem statements_endOfFile (h : c.current.kind = .endOfFile) : statements i c = ([], []) := by
  cases i with
  | zero => rfl
  | succ i => rw [statements, h]

theorem statements_semicolon (h : c.current.kind = .semicolon) :
    statements (i + 1) c = statements i c.next := by
  rw [statements, h]

theorem statements_of_error {error : SyntaxError} (hc : c.current.kind.Inner)
    (h : statement (i + 1) c = .error error c') : statements (i + 1) c =
      ((statements i { c' with ahead := resume c'.ahead.tail }).1,
        error :: (statements i { c' with ahead := resume c'.ahead.tail }).2) := by
  rw [statements, h]
  split
  case h_1 hkind => exact absurd hkind hc.2
  case h_2 hkind => exact absurd hkind hc.1
  case h_3 => rfl

theorem statements_error {error : SyntaxError} (hc : c.current.kind.Inner)
    (h : statement (i + 1) c = .error error c') : (statements (i + 1) c).2 =
      error :: (statements i { c' with ahead := resume c'.ahead.tail }).2 :=
  congrArg Prod.snd (statements_of_error hc h)

end Ends

section Statements

variable {i j : Nat} {t u : Token} (he : e.AtEdge) (hf : f.AtEdge) (htu : t.lexeme = u.lexeme)
  (hvw : v.map Token.lexeme = w.map Token.lexeme) (hi : v.length ≤ i) (hj : v.length ≤ j)

include he hf htu hvw hi hj

theorem declaration_twin : Twin e f (t :: v) (u :: w) 1 (declaration i (e.prepend (t :: v)))
    (declaration j (f.prepend (u :: w))) := by
  have hkind : t.kind = u.kind := congrArg Lexeme.kind htu
  have hconstant : decide ((f.prepend (u :: w)).current.kind = .constWord) =
      decide ((e.prepend (t :: v)).current.kind = .constWord) :=
    decide_eq_decide.mpr (by simp [hkind])
  simp only [declaration, advance_bind, hconstant]
  generalize decide ((e.prepend (t :: v)).current.kind = .constWord) = constant
  simp only [Cursor.current_prepend_cons, Cursor.next_prepend_cons]
  refine Twin.cons (k := 1) (Twins.identifier_bind he hf ?_ v w hvw (Nat.le_refl _))
    (Nat.le_succ 1)
  intro name name' hname
  have htext : name.text = name'.text := congrArg Lexeme.text hname
  rw [htext]
  refine .ite_accept he hf (by decide) ?_ ?_
  · exact ((expression_twins he hf (by omega) (by omega)).bind fun value => .pure _).zero
  · cases constant with
    | true => exact .of_fail (fun c => ⟨_, rfl⟩) fun c => ⟨_, rfl⟩
    | false => exact .pure _

theorem form_twin (hword : t.kind ≠ .funcWord) : Twin e f (t :: v) (u :: w) 1
    (form i (e.prepend (t :: v))) (form j (f.prepend (u :: w))) := by
  have hkind : t.kind = u.kind := congrArg Lexeme.kind htu
  have hdeclaration := declaration_twin he hf htu hvw hi hj
  have hfail : ∀ cause cause' span span', Twin e f (t :: v) (u :: w) 1
      ((fail cause span : Parser Stmt) (e.prepend (t :: v)))
      (fail cause' span' (f.prepend (u :: w))) :=
    fun _ _ _ _ => .error (.inl ⟨0, rfl⟩) (.inl ⟨0, rfl⟩)
  have hexpr : Twin e f (t :: v) (u :: w) 1
      ((Stmt.expr <$> expression (i + 1)) (e.prepend (t :: v)))
      ((Stmt.expr <$> expression (j + 1)) (f.prepend (u :: w))) :=
    (expression_twins he hf (Nat.succ_le_succ hi) (Nat.succ_le_succ hj)).map (t :: v) (u :: w)
      (by rw [List.map_cons, List.map_cons, htu, hvw]) (Nat.le_refl _)
  rw [form, form, peek_bind, peek_bind]
  simp only [Cursor.current_prepend_cons, ← hkind]
  cases hk : t.kind with
  | letWord => exact hdeclaration
  | constWord => exact hdeclaration
  | funcWord => exact absurd hk hword
  | ifWord => exact hfail _ _ _ _
  | elseWord => exact hfail _ _ _ _
  | forWord => exact hfail _ _ _ _
  | _ => exact hexpr

end Statements
end Parser
end Script
