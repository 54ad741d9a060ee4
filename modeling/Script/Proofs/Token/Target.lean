import Script.Proofs.Token.Path

namespace Script.Token

/-- The path ends the tokens, and no dot stands right before it. -/
def Targets (tokens path : List Token) : Prop :=
  IsPath path ∧ ∃ before, tokens = before ++ path ∧
    ∀ last, before.getLast? = some last → last.kind ≠ .dot

def reachBefore? : List Token → Option Nat
  | [] => some 0
  | link :: before => if link.kind = .dot then (pathLength? before).map (· + 1) else some 0

theorem pathLength?_name {name : Token} (hname : name.kind = .identifier) (before : List Token) :
    pathLength? (name :: before) = (reachBefore? before).map (· + 1) := by
  cases before with
  | nil => simp [pathLength?, reachBefore?, hname]
  | cons link before =>
    by_cases hdot : link.kind = .dot
    · simp [pathLength?, reachBefore?, hname, hdot, Function.comp_def]
    · simp [pathLength?, reachBefore?, hname, hdot]

theorem pathLength?_index {opener index closer : Token} (hopener : opener.kind = .openBracket)
    (hindex : index.kind = .number ∨ index.kind = .identifier)
    (hcloser : closer.kind = .closeBracket) (before : List Token) :
    pathLength? (closer :: index :: opener :: before) = (pathLength? before).map (· + 3) := by
  simp [pathLength?, hcloser, hopener, hindex]

theorem pathLength?_eq_none {last : Token} {before : List Token} (hname : last.kind ≠ .identifier)
    (hindex : last.kind = .closeBracket → before.length < 2) :
    pathLength? (last :: before) = none := by
  rw [pathLength?]
  · rintro index bracket more hlast rfl
    have hshort := hindex hlast
    simp only [List.length_cons] at hshort
    omega
  · intro link more hlast
    exact absurd hlast hname
  · intro hlast
    exact absurd hlast hname

/-- Each link of a path is one step back, so that the whole path is passed, and what is in front of
its name decides. -/
theorem pathLength?_reverse_append {path : List Token} (hpath : IsPath path)
    (before : List Token) :
    pathLength? (path.reverse ++ before) = (reachBefore? before).map (· + path.length) := by
  induction hpath with
  | name hname => exact pathLength?_name hname before
  | @member path dot name hpath hdot hname ih =>
    have hsplit : (path ++ [dot, name]).reverse ++ before =
        name :: dot :: (path.reverse ++ before) := by simp
    rw [hsplit, pathLength?_name hname, reachBefore?, if_pos hdot, ih]
    simp [Function.comp_def, Nat.add_assoc]
  | @index path opener index closer hpath hopener hindex hcloser ih =>
    have hsplit : (path ++ [opener, index, closer]).reverse ++ before =
        closer :: index :: opener :: (path.reverse ++ before) := by simp
    rw [hsplit, pathLength?_index hopener hindex hcloser, ih]
    simp [Function.comp_def, Nat.add_assoc]

/-- In front of a target that was found there is no dot. -/
theorem head?_drop_of_pathLength? {before : List Token} {n : Nat} (h : pathLength? before = some n)
    {link : Token} (hlink : (before.drop n).head? = some link) : link.kind ≠ .dot := by
  fun_induction pathLength? before generalizing n with
  | case1 => simp at h
  | case2 last index bracket before hlast hindex ih =>
    obtain ⟨m, hm, rfl⟩ := Option.map_eq_some_iff.mp h
    exact ih hm hlink
  | case3 => simp at h
  | case4 last dot before hlast hdot ih =>
    obtain ⟨m, hm, rfl⟩ := Option.map_eq_some_iff.mp h
    exact ih hm hlink
  | case5 last other before hlast hother =>
    obtain rfl := Option.some.inj h
    obtain rfl := Option.some.inj hlink
    exact hother
  | case6 last hlast =>
    obtain rfl := Option.some.inj h
    simp at hlink
  | case7 => simp at h

theorem assignablePath?_of_targets {tokens path : List Token} (h : Targets tokens path) :
    assignablePath? tokens = some path := by
  obtain ⟨hpath, before, rfl, hdot⟩ := h
  have hnone : reachBefore? before.reverse = some 0 := by
    rw [← List.head?_reverse] at hdot
    cases hbefore : before.reverse with
    | nil => rfl
    | cons link more =>
      rw [hbefore] at hdot
      exact if_neg (hdot link rfl)
  have hlength : pathLength? (before ++ path).reverse = some path.length := by
    rw [List.reverse_append, pathLength?_reverse_append hpath, hnone]
    simp
  rw [assignablePath?, pathBefore?, hlength]
  simp

theorem targets_of_assignablePath? {tokens path : List Token}
    (h : assignablePath? tokens = some path) : Targets tokens path := by
  obtain ⟨n, hn, rfl⟩ := Option.map_eq_some_iff.mp h
  refine ⟨isPath_of_pathLength? hn, (tokens.reverse.drop n).reverse, ?_, ?_⟩
  · rw [← List.reverse_append, List.take_append_drop, List.reverse_reverse]
  · intro last hlast
    rw [List.getLast?_reverse] at hlast
    exact head?_drop_of_pathLength? hn hlast

/-- A path at the end of the tokens is a part of the target, if there is one. -/
theorem length_le_of_targets {tokens path other : List Token} (h : Targets tokens path)
    (hother : IsPath other) (hsuffix : other <:+ tokens) : other.length ≤ path.length := by
  obtain ⟨before, rfl⟩ := hsuffix
  have hfound := assignablePath?_of_targets h
  obtain ⟨n, hn, rfl⟩ := Option.map_eq_some_iff.mp hfound
  have hpassed := hn
  rw [List.reverse_append, pathLength?_reverse_append hother] at hpassed
  obtain ⟨more, -, rfl⟩ := Option.map_eq_some_iff.mp hpassed
  rw [List.length_reverse, List.length_take, List.length_reverse, List.length_append]
  omega

/-- The same search by positions, with a cursor behind the tokens that are left. It goes back with
each link, and it sees a token only at a position inside the row. -/
def pathStart? {size : Nat} (kindAt : Fin size → Kind) (cursor : Nat) (hcursor : cursor ≤ size) :
    Option (Fin size) :=
  if hlast : 1 ≤ cursor then
    let last := kindAt ⟨cursor - 1, by omega⟩
    if last = .closeBracket then
      if hlink : 3 ≤ cursor then
        let index := kindAt ⟨cursor - 2, by omega⟩
        if (index = .number ∨ index = .identifier) ∧
            kindAt ⟨cursor - 3, by omega⟩ = .openBracket then
          pathStart? kindAt (cursor - 3) (by omega)
        else none
      else none
    else if last = .identifier then
      if hlink : 2 ≤ cursor then
        if kindAt ⟨cursor - 2, by omega⟩ = .dot then pathStart? kindAt (cursor - 2) (by omega)
        else some ⟨cursor - 1, by omega⟩
      else some ⟨cursor - 1, by omega⟩
    else none
  else none
termination_by cursor
decreasing_by all_goals exact Nat.sub_lt hlast (by decide)

theorem reverse_take {tokens : List Token} {cursor : Nat} (hcursor : cursor ≤ tokens.length)
    (hlast : 1 ≤ cursor) :
    (tokens.take cursor).reverse =
      tokens.get ⟨cursor - 1, by omega⟩ :: (tokens.take (cursor - 1)).reverse := by
  obtain ⟨before, rfl⟩ : ∃ before, cursor = before + 1 := ⟨cursor - 1, by omega⟩
  rw [List.take_add_one]
  simp [Nat.lt_of_succ_le hcursor]

theorem reverse_take_two {tokens : List Token} {cursor : Nat} (hcursor : cursor ≤ tokens.length)
    (htwo : 2 ≤ cursor) :
    (tokens.take cursor).reverse =
      tokens.get ⟨cursor - 1, by omega⟩ :: tokens.get ⟨cursor - 2, by omega⟩ ::
        (tokens.take (cursor - 2)).reverse := by
  rw [reverse_take hcursor (by omega), reverse_take (by omega) (by omega : 1 ≤ cursor - 1)]
  simp only [Nat.sub_sub, Nat.reduceAdd]

theorem reverse_take_three {tokens : List Token} {cursor : Nat} (hcursor : cursor ≤ tokens.length)
    (hthree : 3 ≤ cursor) :
    (tokens.take cursor).reverse =
      tokens.get ⟨cursor - 1, by omega⟩ :: tokens.get ⟨cursor - 2, by omega⟩ ::
        tokens.get ⟨cursor - 3, by omega⟩ :: (tokens.take (cursor - 3)).reverse := by
  rw [reverse_take_two hcursor (by omega), reverse_take (by omega) (by omega : 1 ≤ cursor - 2)]
  simp only [Nat.sub_sub, Nat.reduceAdd]

/-- A position that the cursor finds is as far back as the target is long. -/
theorem pathStart?_eq (tokens : List Token) (cursor : Nat) (hcursor : cursor ≤ tokens.length) :
    (pathStart? (fun i => (tokens.get i).kind) cursor hcursor).map Fin.val =
      (pathLength? (tokens.take cursor).reverse).map (cursor - ·) := by
  fun_induction pathStart? (fun i => (tokens.get i).kind) cursor hcursor with
  | case1 cursor hcursor hpos last hlast hlink index hindex ih =>
    -- An index in brackets is three tokens.
    rw [reverse_take_three hcursor hlink, pathLength?_index hindex.2 hindex.1 hlast, ih,
      Option.map_map]
    simp [Function.comp_def, Nat.sub_sub, Nat.add_comm]
  | case2 cursor hcursor hpos last hlast hlink index hindex =>
    unfold last at hlast
    rw [reverse_take_three hcursor hlink]
    simp only [pathLength?, hlast]
    rw [if_neg hindex]
    rfl
  | case3 cursor hcursor hpos last hlast hlink =>
    -- There are too few tokens in front of the bracket.
    have hshort : (tokens.take (cursor - 1)).reverse.length < 2 := by
      rw [List.length_reverse, List.length_take]
      omega
    have hname : last ≠ .identifier := by
      rw [hlast]
      decide
    rw [reverse_take hcursor hpos, pathLength?_eq_none hname fun _ => hshort]
    rfl
  | case4 cursor hcursor hpos last hbracket hlast hlink hdot ih =>
    -- A name behind a dot is a link, any other name starts the path.
    rw [reverse_take_two hcursor hlink, pathLength?_name hlast, reachBefore?, if_pos hdot, ih,
      Option.map_map, Option.map_map]
    simp [Function.comp_def, Nat.sub_sub, Nat.add_comm 2]
  | case5 cursor hcursor hpos last hbracket hlast hlink hdot =>
    rw [reverse_take_two hcursor hlink, pathLength?_name hlast, reachBefore?, if_neg hdot]
    rfl
  | case6 cursor hcursor hpos last hbracket hlast hlink =>
    obtain rfl : cursor = 1 := by omega
    rw [reverse_take hcursor hpos, pathLength?_name hlast]
    rfl
  | case7 cursor hcursor hpos last hbracket hname =>
    rw [reverse_take hcursor hpos, pathLength?_eq_none hname fun hlast => (hbracket hlast).elim]
    rfl
  | case8 cursor hcursor hpos =>
    obtain rfl : cursor = 0 := by omega
    rfl

theorem assignablePath?_eq_drop (tokens : List Token) :
    assignablePath? tokens =
      (pathStart? (fun i => (tokens.get i).kind) tokens.length (Nat.le_refl _)).map fun start =>
        tokens.drop start.val := by
  have hstart := pathStart?_eq tokens tokens.length (Nat.le_refl _)
  rw [List.take_length] at hstart
  have hdrop := congrArg (Option.map fun n => tokens.drop n) hstart
  rw [Option.map_map, Option.map_map] at hdrop
  have hback : (fun n => (tokens.reverse.take n).reverse) =
      fun n => tokens.drop (tokens.length - n) := by
    funext n
    rw [List.reverse_take, List.reverse_reverse, List.length_reverse]
  rw [assignablePath?, pathBefore?, hback]
  exact hdrop.symm

/-- The target that is found is the one that there is: a path at the end with no dot before it.
There is at most one, it is the longest path at the end, and nothing is found if there is none. The
search is one that goes back from position to position without leaving the tokens. -/
theorem assignablePath?_exact (tokens : List Token) :
    (∀ path, assignablePath? tokens = some path ↔ Targets tokens path) ∧
    (∀ path other, Targets tokens path → Targets tokens other → other = path) ∧
    (∀ path, Targets tokens path →
      ∀ other, IsPath other → other <:+ tokens → other.length ≤ path.length) ∧
    (assignablePath? tokens = none ↔ ∀ path, ¬Targets tokens path) ∧
    assignablePath? tokens =
      (pathStart? (fun i => (tokens.get i).kind) tokens.length (Nat.le_refl _)).map fun start =>
        tokens.drop start.val := by
  have hiff : ∀ path, assignablePath? tokens = some path ↔ Targets tokens path :=
    fun path => ⟨targets_of_assignablePath?, assignablePath?_of_targets⟩
  refine ⟨hiff, ?_, ?_, ?_, assignablePath?_eq_drop tokens⟩
  · intro path other hpath hother
    have hfound := (hiff path).mpr hpath
    rw [(hiff other).mpr hother] at hfound
    exact Option.some.inj hfound
  · intro path hpath other hother hsuffix
    exact length_le_of_targets hpath hother hsuffix
  · rw [Option.eq_none_iff_forall_ne_some]
    exact forall_congr' fun path => not_congr (hiff path)

end Script.Token
