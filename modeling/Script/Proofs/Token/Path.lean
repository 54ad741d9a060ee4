import Mathlib.Data.List.TakeWhile
import Script.Token.Path

namespace Script.Token

/-- An assignment target: a name followed by links `.name`, `[number]` or `[name]`. -/
inductive IsPath : List Token → Prop
  | name {name : Token} (hname : name.kind = .identifier) : IsPath [name]
  | member {path : List Token} {dot name : Token} (hpath : IsPath path) (hdot : dot.kind = .dot)
      (hname : name.kind = .identifier) : IsPath (path ++ [dot, name])
  | index {path : List Token} {opener index closer : Token} (hpath : IsPath path)
      (hopener : opener.kind = .openBracket)
      (hindex : index.kind = .number ∨ index.kind = .identifier)
      (hcloser : closer.kind = .closeBracket) : IsPath (path ++ [opener, index, closer])

theorem IsPath.kind_mem {path : List Token} (h : IsPath path) : ∀ token ∈ path,
    token.kind ∈ [.identifier, .dot, .openBracket, .number, .closeBracket] := by
  induction h with
  | name hname => simp [hname]
  | member hpath hdot hname ih => simp_all [or_imp]
  | index hpath hopener hindex hcloser ih =>
    rcases hindex with hindex | hindex <;> simp_all [or_imp]

theorem isPath_of_pathLength? {before : List Token} {n : Nat} (h : pathLength? before = some n) :
    IsPath (before.take n).reverse := by
  fun_induction pathLength? before generalizing n with
  | case1 => simp at h
  | case2 last index bracket before hlast hlink ih =>
    obtain ⟨m, hm, rfl⟩ := Option.map_eq_some_iff.mp h
    have hpath := IsPath.index (ih hm) hlink.2 hlink.1 hlast
    simpa using hpath
  | case3 => simp at h
  | case4 last link before hlast hlink ih =>
    obtain ⟨m, hm, rfl⟩ := Option.map_eq_some_iff.mp h
    have hpath := IsPath.member (ih hm) hlink hlast
    simpa using hpath
  | case5 last link before hlast hlink =>
    obtain rfl := Option.some.inj h
    exact .name hlast
  | case6 last hlast =>
    obtain rfl := Option.some.inj h
    exact .name hlast
  | case7 => simp at h

theorem isPath_of_pathBefore? {before path : List Token} (h : pathBefore? before = some path) :
    IsPath path := by
  obtain ⟨n, hn, rfl⟩ := Option.map_eq_some_iff.mp h
  exact isPath_of_pathLength? hn

theorem mem_of_pathBefore? {before path : List Token} (h : pathBefore? before = some path) :
    ∀ token ∈ path, token ∈ before := by
  obtain ⟨n, -, rfl⟩ := Option.map_eq_some_iff.mp h
  intro token hmem
  exact List.mem_of_mem_take (List.mem_reverse.mp hmem)

/-- The last token of a target ends an operand. -/
theorem exists_last_of_pathBefore? {before path : List Token}
    (h : pathBefore? before = some path) :
    ∃ last more, before = last :: more ∧ (last.kind = .identifier ∨ last.kind = .closeBracket) := by
  obtain ⟨n, hn, rfl⟩ := Option.map_eq_some_iff.mp h
  fun_cases pathLength? before with
  | case1 => simp [pathLength?] at hn
  | case2 last index bracket before hlast => exact ⟨last, _, rfl, .inr hlast⟩
  | case3 last index bracket before hlast => exact ⟨last, _, rfl, .inr hlast⟩
  | case4 last link before hlast => exact ⟨last, _, rfl, .inl hlast⟩
  | case5 last link before hlast => exact ⟨last, _, rfl, .inl hlast⟩
  | case6 last hlast => exact ⟨last, _, rfl, .inl hlast⟩
  | case7 last before hbracket hlink hlone =>
    rw [pathLength?] at hn <;> simp_all

theorem pathLength?_map {f : Token → Token} (hf : ∀ token, (f token).kind = token.kind)
    (before : List Token) : pathLength? (before.map f) = pathLength? before := by
  fun_induction pathLength? before with
  | case1 => rfl
  | case2 last index bracket before hlast hlink ih => simp [pathLength?, hf, hlast, hlink, ih]
  | case3 last index bracket before hlast hlink => simp [pathLength?, hf, hlast, hlink]
  | case4 last link before hlast hlink ih => simp [pathLength?, hf, hlast, hlink, ih]
  | case5 last link before hlast hlink => simp [pathLength?, hf, hlast, hlink]
  | case6 last hlast => simp [pathLength?, hf, hlast]
  | case7 last before hbracket hlink hlone =>
    rw [List.map_cons, pathLength?]
    · intro index bracket more hlast hmap
      rw [hf] at hlast
      match before, hmap with
      | index :: bracket :: more, _ => exact hbracket index bracket more hlast rfl
    · intro link more hlast hmap
      rw [hf] at hlast
      match before, hmap with
      | link :: more, _ => exact hlink link more hlast rfl
    · intro hlast hmap
      rw [hf] at hlast
      exact hlone hlast (List.map_eq_nil_iff.mp hmap)

/-- Only the kinds of the tokens decide where a target starts. -/
theorem pathLength?_congr {before before' : List Token}
    (h : before.map Token.kind = before'.map Token.kind) :
    pathLength? before = pathLength? before' := by
  let bare : Kind → Token := fun kind => plain kind "" (Span.point 0)
  have hbare : ∀ token : Token, (bare token.kind).kind = token.kind := fun _ => rfl
  have hmap := congrArg (List.map bare) h
  rw [List.map_map, List.map_map] at hmap
  rw [← pathLength?_map hbare before, ← pathLength?_map hbare before']
  exact congrArg pathLength? hmap

end Script.Token
