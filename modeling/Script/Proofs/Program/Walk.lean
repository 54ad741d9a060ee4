import Script.Proofs.Program.Completeness

namespace Script

/-- Where a walk stands, and every position it has looked at or come to. -/
structure Head where
  position : Nat
  visited : List Nat

def Head.Within (head : Head) (limit : Nat) : Prop :=
  ∀ p ∈ head.position :: head.visited, p ≤ limit

abbrev Stride := ReaderT (Array Token) (StateT Head Option)

/-- A part of a walk. When it fails, the head stays where the failure was seen. -/
abbrev Walk := ExceptT SyntaxError Stride

namespace Walk

def breakOff {α : Type} : Walk α :=
  ExceptT.mk fun _ _ => none

/-- The token at the position. Behind the last token it is the last one still. -/
def current : Stride Token := do
  let tokens ← read
  let head ← get
  set (Head.mk head.position (head.position :: head.visited))
  liftM tokens[min head.position (tokens.size - 1)]?

def advance : Stride Token := do
  let token ← current
  if token.kind ≠ .endOfFile then
    modify fun head => ⟨head.position + 1, (head.position + 1) :: head.visited⟩
  return token

def failHere {α : Type} (cause : Token → SyntaxError.Cause) : Walk α := do
  let token ← current
  throw ⟨cause token, token.span⟩

def check (kind : Kind) : Walk Bool := do
  return (← current).kind = kind

def accept (kind : Kind) : Walk Bool := do
  if ← check kind then
    let _ ← advance
    return true
  else return false

def expect (kind : Kind) : Walk Token := do
  if ← check kind then advance
  else failHere fun found => .expected kind found.kind

def identifier (role : NameRole) : Walk Token := do
  if ← check .identifier then advance
  else failHere fun found => .expectedName role found.kind

def atCloser (closer : Kind) : Walk Bool := do
  return (← check closer) || (← check .endOfFile)

def previousSpan : Stride Span := do
  let tokens ← read
  let head ← get
  if head.position = 0 then return (← current).span
  else
    match tokens[head.position - 1]? with
    | some token => return token.span
    | none => return (← current).span

def chain (level : Level) (operand : Walk Expr) : Nat → Expr → Walk Expr
  | 0, _ => breakOff
  | depth + 1, left => do
    match level.operator? (← current) with
    | none => return left
    | some operator =>
      let _ ← advance
      let right ← operand
      chain level operand depth (.binary operator left right)

def items (nested : Walk Expr) (closer : Kind) : Nat → Walk (List Expr)
  | 0 => breakOff
  | depth + 1 => do
    if ← atCloser closer then
      let _ ← expect closer
      return []
    else
      let item ← nested
      if ← accept .comma then
        return item :: (← items nested closer depth)
      else
        let _ ← expect closer
        return [item]

def properties (nested : Walk Expr) : Nat → Walk (List Property)
  | 0 => breakOff
  | depth + 1 => do
    if ← atCloser .closeBrace then
      let _ ← expect .closeBrace
      return []
    else
      let key := (← identifier .propertyName).text
      if ← accept .comma then
        return .copied key :: (← properties nested depth)
      else if ← check .closeBrace then
        return .copied key :: (← properties nested depth)
      else if ← accept .colon then
        let value ← nested
        if !(← check .closeBrace) then
          let _ ← expect .comma
        return .given key value :: (← properties nested depth)
      else
        failHere fun _ => .expectedColon key

def primary (nested : Walk Expr) (depth : Nat) : Walk Expr := do
  let token ← advance
  match token.kind with
  | .identifier => return .name token.text
  | .number =>
    match Number.read? token.text with
    | some value => return .number value
    | none => throw ⟨.badNumber token.text, token.span⟩
  | .string => return .string token.text
  | .openParen =>
    let inner ← nested
    let _ ← expect .closeParen
    return inner
  | .openBracket => return .array (← items nested .closeBracket depth)
  | kind => throw ⟨.unexpected kind, token.span⟩

def links (nested : Walk Expr) : Nat → Expr → Walk Expr
  | 0, _ => breakOff
  | depth + 1, expr => do
    if ← accept .dot then
      let property ← identifier .memberName
      links nested depth (.member expr (.name property.text) false)
    else if ← accept .openBracket then
      let property ← nested
      let _ ← expect .closeBracket
      links nested depth (.member expr property true)
    else if ← accept .openParen then
      let arguments ← items nested .closeParen depth
      links nested depth (.call expr arguments)
    else return expr

def linked (nested : Walk Expr) (depth : Nat) : Walk Expr := do
  links nested depth (← primary nested depth)

def joined (level : Level) (operand : Walk Expr) (depth : Nat) : Walk Expr := do
  chain level operand depth (← operand)

def comparison (nested : Walk Expr) (depth : Nat) : Walk Expr :=
  let multiplicative := joined .multiplicative (linked nested depth) depth
  let additive := joined .additive multiplicative depth
  joined .comparison additive depth

def object (nested : Walk Expr) (depth : Nat) : Walk Expr := do
  if ← accept .openBrace then return .object (← properties nested depth)
  else comparison nested depth

def expression : Nat → Walk Expr
  | 0 => breakOff
  | depth + 1 => do
    let left ← object (expression depth) depth
    if ← accept .equals then return .assign left (← expression depth)
    else return left

def parameters : Nat → Walk (List String)
  | 0 => breakOff
  | depth + 1 => do
    let parameter := (← identifier .parameterName).text
    if ← accept .comma then return parameter :: (← parameters depth)
    else return [parameter]

def declaration (depth : Nat) : Walk Stmt := do
  let keyword ← advance
  let constant : Bool := keyword.kind = .constWord
  let name ← identifier .variableName
  if ← accept .equals then
    return .declare constant name.text (some (← expression depth))
  else if constant then
    throw ⟨.uninitialized name.text, keyword.span.cover (← previousSpan)⟩
  else return .declare constant name.text none

def block (statement : Walk Stmt) : Nat → Walk (List Stmt)
  | 0 => breakOff
  | depth + 1 => do
    if ← atCloser .closeBrace then
      let _ ← expect .closeBrace
      return []
    else if ← accept .semicolon then block statement depth
    else
      let first ← statement
      return first :: (← block statement depth)

def function (statement : Walk Stmt) (depth : Nat) : Walk Stmt := do
  let _ ← expect .funcWord
  let name ← identifier .functionName
  let _ ← expect .openParen
  let names ← if ← check .closeParen then pure [] else parameters depth
  let _ ← expect .closeParen
  let _ ← expect .openBrace
  return .function name.text names (← block statement depth)

def form (statement : Walk Stmt) (depth : Nat) : Walk Stmt := do
  let token ← current
  match token.kind with
  | .letWord | .constWord => declaration depth
  | .funcWord => function statement depth
  | .ifWord | .elseWord | .forWord => throw ⟨.reserved token.kind, token.span⟩
  | _ => .expr <$> expression (depth + 1)

def statement : Nat → Walk Stmt
  | 0 => breakOff
  | depth + 1 => do
    let stmt ← form (statement depth) depth
    let _ ← accept .semicolon
    return stmt

def seek : Nat → Stride Unit
  | 0 => fun _ _ => none
  | depth + 1 => do
    match (← current).kind with
    | .endOfFile => return ()
    | .semicolon =>
      let _ ← advance
    | .letWord | .constWord | .funcWord => return ()
    | _ =>
      let _ ← advance
      seek depth

/-- One round of the outermost loop, in front of a token that is no end mark. It skips a semicolon,
or it reads a statement or reports an error. -/
def round (depth : Nat) : Stride (Option (Except SyntaxError Stmt)) := do
  if (← current).kind = .semicolon then
    let _ ← advance
    return none
  else
    match ← ExceptT.run (statement depth) with
    | .ok stmt => return some (.ok stmt)
    | .error error =>
      let _ ← advance
      seek depth
      return some (.error error)

def record : Option (Except SyntaxError Stmt) → List Stmt × List SyntaxError →
    List Stmt × List SyntaxError
  | none, later => later
  | some (.ok stmt), later => (stmt :: later.1, later.2)
  | some (.error error), later => (later.1, error :: later.2)

def rounds : Nat → Stride (List Stmt × List SyntaxError)
  | 0 => fun _ _ => none
  | depth + 1 => do
    if (← current).kind = .endOfFile then return ([], [])
    else
      let outcome ← round (depth + 1)
      return record outcome (← rounds depth)

/-- A list whose last token is no end mark gets one. -/
def vector (tokens : List Token) : Array Token :=
  if tokens.getLast?.any fun token => token.kind = .endOfFile then tokens.toArray
  else tokens.toArray.push
    (Token.endOfFile ((tokens.getLast?.map fun token => token.span.stop).getD 0))

def stopAt (tokens : List Token) : Nat :=
  (vector tokens).findIdx fun token => token.kind = .endOfFile

def program (depth : Nat) (tokens : List Token) :
    Option (Except (List SyntaxError) Program × Head) := do
  let (results, head) ← rounds depth (vector tokens) ⟨0, []⟩
  return (if results.2.isEmpty then .ok results.1 else .error results.2, head)

end Walk

namespace Head

def look (head : Head) : Head :=
  ⟨head.position, head.position :: head.visited⟩

def step (head : Head) : Head :=
  ⟨head.position + 1, (head.position + 1) :: head.position :: head.visited⟩

end Head

namespace Cursor

variable {tokens rest : List Token} {stop : Token}

theorem findIdx_of_stop (h : ∀ token ∈ tokens, token.kind ≠ .endOfFile)
    (hstop : stop.kind = .endOfFile) :
    (tokens ++ stop :: rest).findIdx (fun token => token.kind = .endOfFile) = tokens.length := by
  rw [List.findIdx_append, List.findIdx_eq_length_of_false (by simpa using h),
    if_neg (Nat.lt_irrefl _), List.findIdx_cons, decide_eq_true hstop, cond_true, Nat.zero_add]

/-- A list that is cut behind its first end mark is read as the whole. -/
theorem ofTokens_take (tokens : List Token) :
    ofTokens (tokens.take (tokens.findIdx (fun token => token.kind = .endOfFile) + 1)) =
      ofTokens tokens := by
  rcases forall_or_split tokens with h | ⟨before, stop, rest, rfl, hbefore, hstop⟩
  · rw [List.findIdx_eq_length_of_false (by simpa using h), List.take_of_length_le (Nat.le_succ _)]
  · rw [findIdx_of_stop hbefore hstop, List.take_length_add_append, List.take_succ_cons,
      List.take_zero, ofTokens_of_stop hbefore hstop, ofTokens_of_stop hbefore hstop]

end Cursor

namespace Walk

/-- The cursor sees the tokens of the vector up to the first end mark. -/
theorem toList_vector (tokens : List Token) : ∃ rest, (vector tokens).toList =
    (Cursor.ofTokens tokens).ahead ++ (Cursor.ofTokens tokens).stop :: rest := by
  rcases Cursor.forall_or_split tokens with h | ⟨before, stop, rest, rfl, hbefore, hstop⟩
  · have hlast : ¬(tokens.getLast?.any fun token => token.kind = .endOfFile) = true := by
      rw [Option.any_eq_true_iff_get]
      rintro ⟨hsome, hend⟩
      exact h _ (List.mem_of_getLast? (Option.some_get hsome).symm) (by simpa using hend)
    rw [Cursor.ofTokens_of_forall h, vector, if_neg hlast]
    exact ⟨[], by simp⟩
  · have hmore : ∃ more, (vector (before ++ stop :: rest)).toList =
        before ++ stop :: rest ++ more := by
      rw [vector]
      split
      · exact ⟨[], by simp⟩
      · exact ⟨_, Array.toList_push⟩
    obtain ⟨more, hmore⟩ := hmore
    rw [Cursor.ofTokens_of_stop hbefore hstop]
    exact ⟨rest ++ more, by simpa using hmore⟩

variable {α β : Type} {tokens : List Token} {head : Head} {c : Cursor}

/-- The head stands where the cursor does, and it was never behind the first end mark. -/
structure Stands (tokens : List Token) (head : Head) (c : Cursor) : Prop where
  within : head.Within (Cursor.ofTokens tokens).ahead.length
  ahead : c.ahead = (Cursor.ofTokens tokens).ahead.drop head.position
  stop : c.stop = (Cursor.ofTokens tokens).stop

namespace Stands

theorem start (tokens : List Token) : Stands tokens ⟨0, []⟩ (Cursor.ofTokens tokens) :=
  ⟨by simp [Head.Within], rfl, rfl⟩

theorem position (h : Stands tokens head c) :
    head.position ≤ (Cursor.ofTokens tokens).ahead.length :=
  h.within _ List.mem_cons_self

theorem look (h : Stands tokens head c) : Stands tokens head.look c :=
  ⟨List.forall_mem_cons.mpr ⟨h.position, h.within⟩, h.ahead, h.stop⟩

theorem length_ahead (h : Stands tokens head c) :
    head.position + c.ahead.length = (Cursor.ofTokens tokens).ahead.length := by
  rw [h.ahead, List.length_drop]
  exact Nat.add_sub_cancel' h.position

theorem kind_of_ahead_eq_nil (h : Stands tokens head c) (hnil : c.ahead = []) :
    c.current.kind = .endOfFile := by
  rw [Cursor.current, hnil, h.stop]
  exact Cursor.stop_kind_ofTokens tokens

theorem ahead_eq_nil (h : Stands tokens head c) (hend : c.current.kind = .endOfFile) :
    c.ahead = [] := by
  cases hahead : c.ahead with
  | nil => rfl
  | cons token rest =>
    have hmem : token ∈ (Cursor.ofTokens tokens).ahead := by
      apply List.mem_of_mem_drop (i := head.position)
      rw [← h.ahead, hahead]
      exact List.mem_cons_self
    rw [Cursor.current, hahead] at hend
    exact absurd hend (Cursor.kind_ne_of_mem_ahead hmem)

theorem ahead_pos (h : Stands tokens head c) (hne : c.current.kind ≠ .endOfFile) :
    0 < c.ahead.length :=
  List.length_pos_iff.mpr fun hnil => hne (h.kind_of_ahead_eq_nil hnil)

theorem length_next (h : Stands tokens head c) (hne : c.current.kind ≠ .endOfFile) :
    c.next.ahead.length < c.ahead.length := by
  have hpos := h.ahead_pos hne
  rw [Cursor.next, List.length_tail]
  omega

theorem next_eq (h : Stands tokens head c) (hend : c.current.kind = .endOfFile) : c.next = c := by
  rw [Cursor.next, h.ahead_eq_nil hend, List.tail_nil, ← h.ahead_eq_nil hend]

theorem step (h : Stands tokens head c) (hne : c.current.kind ≠ .endOfFile) :
    Stands tokens head.step c.next := by
  have hlength := h.length_ahead
  have hpos := h.ahead_pos hne
  have hposition : head.step.position ≤ (Cursor.ofTokens tokens).ahead.length := by
    show head.position + 1 ≤ _
    omega
  refine ⟨?_, ?_, h.stop⟩
  · exact List.forall_mem_cons.mpr ⟨hposition, List.forall_mem_cons.mpr ⟨hposition, h.within⟩⟩
  · rw [Cursor.next, h.ahead, List.tail_drop]
    rfl

theorem getElem? (h : Stands tokens head c) :
    (vector tokens)[head.position]? = some c.current := by
  obtain ⟨rest, hrest⟩ := toList_vector tokens
  have hdrop : (vector tokens).toList.drop head.position = c.ahead ++ c.stop :: rest := by
    rw [hrest, List.drop_append_of_le_length h.position, h.ahead, h.stop]
  rw [← Array.getElem?_toList, ← List.head?_drop, hdrop, Cursor.current]
  cases c.ahead <;> rfl

end Stands

section Runs

variable {vector : Array Token} {head' : Head} {a : α}

theorem bind_of_ok {w : Walk α} {f : α → Walk β} (h : w vector head = some (.ok a, head')) :
    (w >>= f) vector head = f a vector head' := by
  show Option.bind (w vector head) _ = _
  rw [h]
  rfl

theorem bind_of_error {w : Walk α} {f : α → Walk β} {e : SyntaxError}
    (h : w vector head = some (.error e, head')) :
    (w >>= f) vector head = some (.error e, head') := by
  show Option.bind (w vector head) _ = _
  rw [h]
  rfl

theorem bind_of_some {w : Stride α} {f : α → Stride β} (h : w vector head = some (a, head')) :
    (w >>= f) vector head = f a vector head' := by
  show Option.bind (w vector head) _ = _
  rw [h]
  rfl

theorem liftM_of_some {w : Stride α} (h : w vector head = some (a, head')) :
    (liftM w : Walk α) vector head = some (.ok a, head') := by
  show Option.bind (w vector head) _ = _
  rw [h]
  rfl

end Runs

namespace Stands

theorem current_eq (h : Stands tokens head c) :
    current (vector tokens) head = some (c.current, head.look) := by
  have hget := h.getElem?
  have hsize : head.position < (vector tokens).size := by
    by_contra hle
    rw [Array.getElem?_eq_none (by omega)] at hget
    cases hget
  have hmin : min head.position ((vector tokens).size - 1) = head.position := by omega
  show Option.bind ((vector tokens)[min head.position ((vector tokens).size - 1)]?) _ = _
  rw [hmin, hget]
  rfl

theorem advance_of_ne (h : Stands tokens head c) (hne : c.current.kind ≠ .endOfFile) :
    advance (vector tokens) head = some (c.current, head.step) := by
  rw [advance, bind_of_some h.current_eq, if_pos hne]
  rfl

theorem advance_of_eq (h : Stands tokens head c) (hend : c.current.kind = .endOfFile) :
    advance (vector tokens) head = some (c.current, head.look) := by
  rw [advance, bind_of_some h.current_eq, if_neg (not_not_intro hend)]
  rfl

theorem advance_eq (h : Stands tokens head c) : ∃ head',
    advance (vector tokens) head = some (c.current, head') ∧ Stands tokens head' c.next := by
  by_cases hend : c.current.kind = .endOfFile
  · exact ⟨_, h.advance_of_eq hend, (h.next_eq hend).symm ▸ h.look⟩
  · exact ⟨_, h.advance_of_ne hend, h.step hend⟩

theorem check_eq (h : Stands tokens head c) (kind : Kind) :
    check kind (vector tokens) head = some (.ok (decide (c.current.kind = kind)), head.look) := by
  rw [check, bind_of_ok (liftM_of_some h.current_eq)]
  rfl

end Stands

end Walk
end Script
