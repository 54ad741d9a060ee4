import Script.Proofs.Token.Path
import Script.Proofs.Token.Scan

namespace Script

namespace Token

def content (token : Token) : Kind × String × String :=
  (token.kind, token.text, token.raw)

@[simp] theorem content_endOfFile (position : Nat) :
    (endOfFile position).content = (.endOfFile, "EndOfFile", "EndOfFile") := rfl

def TellsKind {α : Type} (view : Token → α) : Prop :=
  ∀ first second, view first = view second → first.kind = second.kind

theorem tellsKind_content : TellsKind content :=
  fun _ _ h => congrArg Prod.fst h

theorem tellsKind_id : TellsKind id :=
  fun _ _ h => congrArg kind h

section View

variable {α : Type} {view : Token → α} (hview : TellsKind view) {before before' : List Token}
  (h : before.map view = before'.map view)

include hview h

theorem map_kind_of_view : before.map kind = before'.map kind := by
  induction before generalizing before' with
  | nil =>
    obtain rfl : before' = [] := by simpa using h.symm
    rfl
  | cons last before ih =>
    cases before' with
    | nil => simp at h
    | cons last' before' =>
      rw [List.map_cons, List.map_cons] at h
      obtain ⟨hlast, hbefore⟩ := List.cons.inj h
      rw [List.map_cons, List.map_cons, hview _ _ hlast, ih hbefore]

theorem pathBefore?_of_view {target : List Token} (htarget : pathBefore? before = some target) :
    ∃ target', pathBefore? before' = some target' ∧ target'.map view = target.map view := by
  obtain ⟨n, hn, rfl⟩ := Option.map_eq_some_iff.mp htarget
  refine ⟨(before'.take n).reverse, ?_, ?_⟩
  · rw [pathBefore?, ← pathLength?_congr (map_kind_of_view hview h), hn]
    rfl
  · rw [List.map_reverse, List.map_reverse, List.map_take, List.map_take, h]

theorem pathBefore?_none_of_view (hnone : pathBefore? before = none) :
    pathBefore? before' = none := by
  rw [pathBefore?, Option.map_eq_none_iff] at hnone ⊢
  rw [← pathLength?_congr (map_kind_of_view hview h), hnone]

end View

end Token

namespace Stretch

/-- The same stretch, but for what the view does not show of a target. -/
inductive Resembles {α : Type} (view : Token → α) : Stretch → Stretch → Prop
  | refl (s : Stretch) : Resembles view s s
  | compound {target target' : List Token} (operator : Char) (doubled : Bool)
      (htarget : target'.map view = target.map view) :
      Resembles view (.compound target operator doubled) (.compound target' operator doubled)

namespace Resembles

variable {α : Type} {view : Token → α} {s s' : Stretch} (h : Resembles view s s')

include h

theorem text_eq : s'.text = s.text := by
  cases h <;> rfl

theorem map_tokens (span : Span) : (s'.tokens span).map view = (s.tokens span).map view := by
  cases h with
  | refl => rfl
  | compound operator doubled htarget => simp [tokens, htarget]

end Resembles

theorem followsOperand_eq_any (before : List Token) :
    followsOperand before = (before.map Token.kind).head?.any Kind.endsOperand := by
  cases before <;> rfl

variable {α : Type} {view : Token → α} (hview : Token.TellsKind view)

include hview

/-- Behind tokens that look the same, the same characters are read and look the same. -/
theorem Reads.of_view {before before' : List Token} {s : Stretch} {rest : List Char}
    (h : Reads before s rest) (hbefore : before.map view = before'.map view) :
    ∃ s', Reads before' s' rest ∧ Resembles view s s' := by
  have hoperand : followsOperand before = followsOperand before' := by
    rw [followsOperand_eq_any, followsOperand_eq_any, Token.map_kind_of_view hview hbefore]
  cases h with
  | blank hc => exact ⟨_, .blank hc, .refl _⟩
  | lineComment hbody hrest => exact ⟨_, .lineComment hbody hrest, .refl _⟩
  | blockComment hclosed hbody => exact ⟨_, .blockComment hclosed hbody, .refl _⟩
  | openBlock hopen hbody => exact ⟨_, .openBlock hopen hbody, .refl _⟩
  | number htext hrest => exact ⟨_, .number htext hrest, .refl _⟩
  | negative hnot htext hrest => exact ⟨_, .negative (hoperand ▸ hnot) htext hrest, .refl _⟩
  | quoted hquote hraw => exact ⟨_, .quoted hquote hraw, .refl _⟩
  | openQuoted hquote hraw => exact ⟨_, .openQuoted hquote hraw, .refl _⟩
  | word hne htext hrest => exact ⟨_, .word hne htext hrest, .refl _⟩
  | arrow => exact ⟨_, .arrow, .refl _⟩
  | compound hoperator hdoubled htarget =>
    obtain ⟨target', htarget', hsame⟩ := Token.pathBefore?_of_view hview hbefore htarget
    exact ⟨_, .compound hoperator hdoubled htarget', .compound _ _ hsame⟩
  | negation hnot hrest => exact ⟨_, .negation (hoperand ▸ hnot) hrest, .refl _⟩
  | operator hc hslash hminus htarget =>
    exact ⟨_, .operator hc hslash (hoperand ▸ hminus)
      (fun hupdate => Token.pathBefore?_none_of_view hview hbefore (htarget hupdate)), .refl _⟩
  | single hc => exact ⟨_, .single hc, .refl _⟩
  | pair hc => exact ⟨_, .pair hc, .refl _⟩
  | alone hc hrest => exact ⟨_, .alone hc hrest, .refl _⟩
  | unknown hmark hsingle hpair => exact ⟨_, .unknown hmark hsingle hpair, .refl _⟩

end Stretch
end Script
