import Script.Proofs.Token.Expansion
import Script.Proofs.Token.Partition

namespace Script

namespace Token

/-- Each of the tokens has the property behind those before it, which are given last one first. -/
def Along (P : List Token → Token → Prop) : List Token → List Token → Prop
  | _, [] => True
  | before, token :: tokens => P before token ∧ Along P (token :: before) tokens

instance Along.decidable {P : List Token → Token → Prop}
    [∀ before token, Decidable (P before token)] :
    ∀ before tokens, Decidable (Along P before tokens)
  | _, [] => .isTrue trivial
  | before, token :: tokens =>
    have := Along.decidable (P := P) (token :: before) tokens
    inferInstanceAs (Decidable (P before token ∧ Along P (token :: before) tokens))

section Along

variable {P : List Token → Token → Prop} {before : List Token}

theorem along_append {xs ys : List Token} :
    Along P before (xs ++ ys) ↔ Along P before xs ∧ Along P (xs.reverse ++ before) ys := by
  induction xs generalizing before with
  | nil => simp [Along]
  | cons x xs ih => simp [Along, ih, and_assoc]

theorem along_iff {tokens : List Token} : Along P before tokens ↔
    ∀ first token rest, tokens = first ++ token :: rest → P (first.reverse ++ before) token := by
  constructor
  · rintro h first token rest rfl
    exact (along_append.mp h).2.1
  · intro h
    induction tokens generalizing before with
    | nil => trivial
    | cons token tokens ih =>
      refine ⟨h [] token tokens rfl, ih fun first other rest hsplit => ?_⟩
      have hother := h (token :: first) other rest (by rw [hsplit]; rfl)
      simpa using hother

end Along

/-- Two minus signs stand in the source, and the span is that of the first one. -/
def IsDoubled (source : String) (span : Span) : Prop :=
  ∃ first rest, source.toList = first ++ '-' :: '-' :: rest ∧
    span = ⟨Source.byteSize first, Source.byteSize first + 1⟩

structure Signed (source : String) (before : List Token) (token : Token) : Prop where
  numeral : token.kind = .number → token.text.toList.head? = some '-' →
    Stretch.followsOperand before = false
  minus : token.kind = .operator → token.text = "-" → Stretch.followsOperand before = false →
    IsDoubled source token.span

variable {source : String} {before : List Token}

theorem signed_of_kind {token : Token} (hnumber : token.kind ≠ .number)
    (hoperator : token.kind ≠ .operator) : Signed source before token :=
  ⟨fun hkind => absurd hkind hnumber, fun hkind => absurd hkind hoperator⟩

theorem signed_of_numeral {text : String} (h : Stretch.IsNumeral text.toList) (span : Span) :
    Signed source before (.plain .number text span) := by
  refine ⟨fun _ hhead => ?_, fun hkind => by simp [plain] at hkind⟩
  obtain ⟨c, cs, hcs, hc⟩ := h.head_isDigit
  have hminus : c = '-' := by simpa [plain, hcs] using hhead
  simp [hminus] at hc

theorem signed_of_operator {token : Token} (hkind : token.kind ≠ .number)
    (hminus : token.text = "-" → Stretch.followsOperand before = false →
      IsDoubled source token.span) : Signed source before token :=
  ⟨fun hnumber => absurd hnumber hkind, fun _ => hminus⟩

/-- In a target only an index can have a sign, and a bracket stands before it. -/
theorem IsPath.signed {path : List Token} (h : IsPath path) (before : List Token) :
    Along (Signed source) before path := by
  induction h with
  | name hname => exact ⟨signed_of_kind (by simp [hname]) (by simp [hname]), trivial⟩
  | member hpath hdot hname ih =>
    exact along_append.mpr ⟨ih, signed_of_kind (by simp [hdot]) (by simp [hdot]),
      signed_of_kind (by simp [hname]) (by simp [hname]), trivial⟩
  | @index path opener index closer hpath hopener hindex hcloser ih =>
    have hsign : Signed source (opener :: (path.reverse ++ before)) index := by
      refine ⟨fun _ _ => by simp [Stretch.followsOperand, hopener, Kind.endsOperand], ?_⟩
      intro hkind
      rcases hindex with hindex | hindex <;> simp [hkind] at hindex
    exact along_append.mpr ⟨ih, signed_of_kind (by simp [hopener]) (by simp [hopener]), hsign,
      signed_of_kind (by simp [hcloser]) (by simp [hcloser]), trivial⟩

theorem IsPath.followsOperand {path : List Token} (h : IsPath path) (before : List Token) :
    Stretch.followsOperand (path.reverse ++ before) = true := by
  rw [Source.followsOperand_eq, List.map_append, List.map_reverse]
  exact Source.closesOperand_path h _

end Token

namespace Stretch

theorem signless_of_mem_singles : ∀ entry ∈ singles,
    entry.2 ≠ .number ∧ (entry.2 = .operator → entry.1 = '%') := by
  decide

theorem signless_of_mem_pairs : ∀ entry ∈ pairs,
    (entry.2.2.1 ≠ .number ∧ entry.2.2.1 ≠ .operator) ∧
      entry.2.2.2 ≠ .number ∧ entry.2.2.2 ≠ .operator := by
  decide

open Token in
theorem Reads.signed {source : String} {before : List Token} {s : Stretch}
    {passed rest : List Char} (h : s.Reads before rest)
    (hsource : source.toList = passed ++ (s.text ++ rest)) :
    Along (Signed source) before
      (s.tokens ⟨Source.byteSize passed, Source.byteSize passed + Source.byteSize s.text⟩) := by
  cases h with
  | blank | lineComment | blockComment | openBlock | unknown => trivial
  | number htext => exact ⟨signed_of_numeral (by simpa using htext) _, trivial⟩
  | negative hbefore => exact ⟨⟨fun _ _ => hbefore, fun hkind => by simp [plain] at hkind⟩, trivial⟩
  | quoted | openQuoted => exact ⟨signed_of_kind (by simp) (by simp), trivial⟩
  | word =>
    exact ⟨signed_of_kind (Kind.keyword?_getD_ne _ (by decide))
      (Kind.keyword?_getD_ne _ (by decide)), trivial⟩
  | arrow => exact ⟨signed_of_kind (by simp [plain]) (by simp [plain]), trivial⟩
  | @compound target operator doubled _ _ _ htarget =>
    have hpath := isPath_of_pathBefore? htarget
    refine ⟨signed_of_kind (by simp [plain]) (by simp [plain]),
      along_append.mpr ⟨hpath.signed _,
        signed_of_operator (by simp [plain]) fun _ hbefore => ?_, ?_⟩⟩
    · -- The target stands right before its operator.
      rw [hpath.followsOperand] at hbefore
      cases hbefore
    · cases doubled with
      | true => exact ⟨signed_of_numeral (.whole (by simp) (by simp)) _, trivial⟩
      | false => trivial
  | negation =>
    refine ⟨signed_of_numeral (.whole (by simp) (by simp)) _,
      signed_of_operator (by simp [plain]) fun _ hbefore => ?_, trivial⟩
    simp [followsOperand, plain, Kind.endsOperand] at hbefore
  | @operator c _ _ _ hminus =>
    refine ⟨signed_of_operator (by simp [plain]) fun htext hbefore => ?_, trivial⟩
    have hc : c = '-' := by simpa [plain] using congrArg String.toList htext
    subst hc
    obtain ⟨-, hnext | hoperand⟩ := hminus rfl
    · -- In front of another minus sign no operand is asked for.
      obtain ⟨more, rfl⟩ := List.head?_eq_some_iff.mp hnext
      exact ⟨passed, more, hsource, rfl⟩
    · rw [hbefore] at hoperand
      cases hoperand
  | @single c kind _ hc =>
    obtain ⟨hnumber, hoperator⟩ := signless_of_mem_singles _ hc
    refine ⟨⟨fun hkind => absurd hkind hnumber, fun hkind htext => ?_⟩, trivial⟩
    obtain rfl := hoperator hkind
    simpa [plain] using congrArg String.toList htext
  | pair hc =>
    obtain ⟨hnumber, hoperator⟩ := (signless_of_mem_pairs _ hc).1
    exact ⟨signed_of_kind hnumber hoperator, trivial⟩
  | alone hc =>
    obtain ⟨hnumber, hoperator⟩ := (signless_of_mem_pairs _ hc).2
    exact ⟨signed_of_kind hnumber hoperator, trivial⟩

end Stretch

namespace Source

/-- Once a segment has been read, its text is part of what has been passed. -/
theorem Scans.uncons {before : List Token} {passed : List Char} {segment : Segment}
    {segments : List Segment} (h : Scans [] before (byteSize passed) (segment :: segments)) :
    segment.span = ⟨byteSize passed, byteSize passed + byteSize segment.stretch.text⟩ ∧
      segment.stretch.Reads before (textOf segments) ∧
      Scans [] (segment.tokens.reverse ++ before) (byteSize (passed ++ segment.stretch.text))
        segments := by
  obtain ⟨hspan, hreads, hrest⟩ := h
  rw [List.append_nil] at hreads
  rw [hspan] at hrest
  rw [byteSize_append]
  exact ⟨hspan, hreads, hrest⟩

/-- The signs of all tokens, from one stretch to the next. -/
theorem Scans.signed {source : String} {before : List Token} {passed : List Char}
    {segments : List Segment} (h : Scans [] before (byteSize passed) segments)
    (hsource : source.toList = passed ++ textOf segments) :
    Token.Along (Token.Signed source) before (segments.flatMap Segment.tokens) := by
  induction segments generalizing before passed with
  | nil => trivial
  | cons segment segments ih =>
    obtain ⟨hspan, hreads, hrest⟩ := h.uncons
    rw [textOf_cons] at hsource
    rw [List.flatMap_cons]
    refine Token.along_append.mpr ⟨?_, ih hrest ?_⟩
    · rw [Segment.tokens, hspan]
      exact hreads.signed hsource
    · rw [hsource, List.append_assoc]

end Source
end Script
