import Script.Proofs.Token.Partition
import Script.Proofs.Token.Separation

namespace Script

def Kind.divides : Kind → Bool
  | .semicolon | .letWord | .constWord | .funcWord | .endOfFile => true
  | _ => false

/-- Of two tokens in a row, with others between them or not, the first one stands before the other
if one of them divides. -/
def Token.InOrder (first second : Token) : Prop :=
  first.kind.divides = true ∨ second.kind.divides = true → first.span.start < second.span.start

structure Span.Fits (span : Span) (source : String) : Prop where
  start_le_stop : span.start ≤ span.stop
  stop_le : span.stop ≤ source.utf8ByteSize
  start_isValid : String.Pos.Raw.IsValid source ⟨span.start⟩
  stop_isValid : String.Pos.Raw.IsValid source ⟨span.stop⟩

namespace Span

theorem Fits.cover {s t : Span} {source : String} (hs : s.Fits source) (ht : t.Fits source) :
    (s.cover t).Fits source where
  start_le_stop :=
    (Nat.min_le_left _ _).trans (hs.start_le_stop.trans (Nat.le_max_left _ _))
  stop_le := Nat.max_le.mpr ⟨hs.stop_le, ht.stop_le⟩
  start_isValid := by
    unfold Span.cover
    rcases Nat.le_total s.start t.start with h | h
    · rw [Nat.min_eq_left h]
      exact hs.start_isValid
    · rw [Nat.min_eq_right h]
      exact ht.start_isValid
  stop_isValid := by
    unfold Span.cover
    rcases Nat.le_total s.stop t.stop with h | h
    · rw [Nat.max_eq_right h]
      exact ht.stop_isValid
    · rw [Nat.max_eq_left h]
      exact hs.stop_isValid

@[simp] theorem cover_self (s : Span) : s.cover s = s := by
  simp [Span.cover]

end Span

namespace Token

theorem IsPath.not_divides {path : List Token} (h : IsPath path) :
    ∀ token ∈ path, token.kind.divides = false := by
  induction h with
  | name hname => simp [hname, Kind.divides]
  | member hpath hdot hname ih =>
    intro token hmem
    rcases List.mem_append.mp hmem with hmem | hmem
    · exact ih token hmem
    · simp only [List.mem_cons, List.not_mem_nil, or_false] at hmem
      rcases hmem with rfl | rfl
      · simp [hdot, Kind.divides]
      · simp [hname, Kind.divides]
  | index hpath hopener hindex hcloser ih =>
    intro token hmem
    rcases List.mem_append.mp hmem with hmem | hmem
    · exact ih token hmem
    · simp only [List.mem_cons, List.not_mem_nil, or_false] at hmem
      rcases hmem with rfl | rfl | rfl
      · simp [hopener, Kind.divides]
      · rcases hindex with hindex | hindex <;> simp [hindex, Kind.divides]
      · simp [hcloser, Kind.divides]

/-- All that divides stands before the tokens of a target. -/
theorem start_lt_of_pathBefore? {before target : List Token}
    (horder : before.reverse.Pairwise InOrder) (htarget : pathBefore? before = some target)
    {divider : Token} (hmem : divider ∈ before) (hdivides : divider.kind.divides = true) :
    ∀ token ∈ target, divider.span.start < token.span.start := by
  intro token htoken
  have hpath := isPath_of_pathBefore? htarget
  obtain ⟨n, -, rfl⟩ := Option.map_eq_some_iff.mp htarget
  -- The target is the end of the tokens, and what divides is not in it.
  have hsplit : before.reverse = (before.drop n).reverse ++ (before.take n).reverse := by
    rw [← List.reverse_append, List.take_append_drop]
  have hnot : divider ∉ before.take n := by
    intro hin
    have hfalse := hpath.not_divides divider (List.mem_reverse.mpr hin)
    rw [hdivides] at hfalse
    cases hfalse
  have hdrop : divider ∈ before.drop n := by
    rw [← List.take_append_drop n before] at hmem
    exact (List.mem_append.mp hmem).resolve_left hnot
  rw [hsplit, List.pairwise_append] at horder
  exact horder.2.2 divider (List.mem_reverse.mpr hdrop) token htoken (.inl hdivides)

end Token

namespace Stretch

variable {before : List Token} {s : Stretch} {rest : List Char} (h : s.Reads before rest)
  (span : Span)

include h

/-- A stretch stands for tokens at its own place. If it updates a target, it also stands for the
tokens of the target. A token that divides is all that its stretch stands for. -/
theorem Reads.mem_tokens : ∀ token ∈ s.tokens span,
    token.span = span ∧ (token.kind.divides = true → s.tokens span = [token]) ∨
      ∃ target, Token.pathBefore? before = some target ∧ token ∈ target := by
  intro token hmem
  have hplain : ∀ kind text, kind.divides = false → token = .plain kind text span →
      token.span = span ∧ (token.kind.divides = true → s.tokens span = [token]) := by
    rintro kind text hkind rfl
    exact ⟨rfl, fun hdivides => absurd (hkind.symm.trans hdivides) Bool.false_ne_true⟩
  cases h with
  | @compound target operator doubled _ hoperator hdoubled htarget =>
    simp only [tokens, List.cons_append, List.mem_cons, List.mem_append] at hmem
    rcases hmem with htoken | hmem | htoken | hmem
    · exact .inl (hplain _ _ rfl htoken)
    · exact .inr ⟨target, htarget, hmem⟩
    · exact .inl (hplain _ _ rfl htoken)
    · cases doubled with
      | true => exact .inl (hplain _ _ rfl (List.mem_singleton.mp hmem))
      | false => simp at hmem
  | negation =>
    simp only [tokens, List.mem_cons, List.not_mem_nil, or_false] at hmem
    rcases hmem with htoken | htoken <;> exact .inl (hplain _ _ rfl htoken)
  | blank | lineComment | blockComment | openBlock | unknown => simp [tokens] at hmem
  | _ =>
    obtain rfl := List.mem_singleton.mp hmem
    exact .inl ⟨rfl, fun _ => rfl⟩

theorem Reads.pairwise_inOrder : (s.tokens span).Pairwise Token.InOrder := by
  by_cases hall : ∀ token ∈ s.tokens span, token.kind.divides = false
  · apply List.pairwise_of_forall_mem_list
    intro first hfirst second hsecond hor
    rw [hall first hfirst, hall second hsecond] at hor
    simp at hor
  · -- The token that divides stands alone.
    simp only [not_forall, Bool.not_eq_false] at hall
    obtain ⟨token, hmem, hdivides⟩ := hall
    rcases h.mem_tokens span token hmem with ⟨-, halone⟩ | ⟨target, htarget, hin⟩
    · rw [halone hdivides]
      exact List.pairwise_singleton _ _
    · have hnot := (Token.isPath_of_pathBefore? htarget).not_divides token hin
      rw [hdivides] at hnot
      cases hnot

end Stretch

theorem Segment.span_of_unrecognized? {segment : Segment} {error : Unrecognized}
    (h : segment.unrecognized? = some error) : error.span = segment.span := by
  rw [unrecognized?] at h
  split at h
  case h_1 => rw [← Option.some.inj h]
  case h_2 => cases h

namespace Source

theorem byteSize_pos {cs : List Char} (h : cs ≠ []) : 0 < byteSize cs := by
  obtain ⟨c, cs, rfl⟩ := List.exists_cons_of_ne_nil h
  have hpos := c.utf8Size_pos
  simp only [byteSize, List.foldr_cons]
  omega

theorem fits_of_split {source : String} {first text rest : List Char}
    (h : source.toList = first ++ text ++ rest) :
    (⟨byteSize first, byteSize first + byteSize text⟩ : Span).Fits source := by
  have hsource : source = String.ofList first ++ String.ofList text ++ String.ofList rest := by
    rw [← String.ofList_append, ← String.ofList_append, ← h, String.ofList_toList]
  have hsize : source.utf8ByteSize = byteSize first + byteSize text + byteSize rest := by
    rw [hsource, String.utf8ByteSize_append, String.utf8ByteSize_append, utf8ByteSize_ofList,
      utf8ByteSize_ofList, utf8ByteSize_ofList]
  refine ⟨Nat.le_add_right _ _, by simp only [hsize]; omega, ?_, ?_⟩
  · refine String.Pos.Raw.isValid_iff_exists_append.mpr ⟨String.ofList first,
      String.ofList text ++ String.ofList rest, by rw [hsource, String.append_assoc], ?_⟩
    rw [String.rawEndPos, utf8ByteSize_ofList]
  · refine String.Pos.Raw.isValid_iff_exists_append.mpr ⟨String.ofList first ++ String.ofList text,
      String.ofList rest, hsource, ?_⟩
    rw [String.rawEndPos, String.utf8ByteSize_append, utf8ByteSize_ofList, utf8ByteSize_ofList]

theorem fits_of_mem_segments {source : String} {segment : Segment}
    (hmem : segment ∈ segments source) : segment.span.Fits source := by
  obtain ⟨hscans, htext⟩ := scans_segmentsFrom [] 0 source.toList
  obtain ⟨first, more, hsplit⟩ := List.append_of_mem hmem
  rw [show segmentsFrom [] 0 source.toList = _ from hsplit] at hscans htext
  rw [(hscans.at_segment).1, Nat.zero_add]
  have hsource : source.toList = textOf first ++ segment.stretch.text ++ textOf more := by
    rw [← htext, textOf_append, textOf_cons, List.append_assoc]
  exact fits_of_split hsource

/-- Each token of a text has the place of a segment, or of a token before the text. -/
theorem Scans.span_of_mem_behind {rest : List Char} {before : List Token} {start : Nat}
    {segments : List Segment} (h : Scans rest before start segments) :
    ∀ token ∈ behind before segments,
      token ∈ before ∨ ∃ segment ∈ segments, token.span = segment.span := by
  induction segments generalizing before start with
  | nil => exact fun token hmem => .inl hmem
  | cons segment segments ih =>
    obtain ⟨-, hreads, hrest⟩ := h
    intro token hmem
    rw [behind_cons] at hmem
    rcases ih hrest token hmem with hmem | ⟨segment', hmem', hspan⟩
    · rcases List.mem_append.mp hmem with hmem | hmem
      · rcases hreads.mem_tokens segment.span token (List.mem_reverse.mp hmem) with
          ⟨hspan, -⟩ | ⟨target, htarget, hin⟩
        · exact .inr ⟨segment, List.mem_cons_self, hspan⟩
        · exact .inl (Token.mem_of_pathBefore? htarget token hin)
      · exact .inl hmem
    · exact .inr ⟨segment', List.mem_cons_of_mem _ hmem', hspan⟩

/-- What is known of the tokens before byte `start`, last one first. -/
structure Ordered (before : List Token) (start : Nat) : Prop where
  start_lt : ∀ token ∈ before, token.span.start < start
  inOrder : before.reverse.Pairwise Token.InOrder

/-- One more stretch keeps the order. -/
theorem Ordered.read {before : List Token} {start : Nat} {s : Stretch} {rest : List Char}
    (horder : Ordered before start) (h : s.Reads before rest) :
    Ordered ((s.tokens ⟨start, start + byteSize s.text⟩).reverse ++ before)
      (start + byteSize s.text) := by
  have hpos := byteSize_pos h.text_ne_nil
  have hmem := h.mem_tokens ⟨start, start + byteSize s.text⟩
  constructor
  · intro token htoken
    rcases List.mem_append.mp htoken with htoken | htoken
    · rcases hmem token (List.mem_reverse.mp htoken) with ⟨hspan, -⟩ | ⟨target, htarget, hin⟩
      · rw [hspan]
        exact Nat.lt_add_of_pos_right hpos
      · have hlt := horder.start_lt token (Token.mem_of_pathBefore? htarget token hin)
        omega
    · have hlt := horder.start_lt token htoken
      omega
  · rw [List.reverse_append, List.reverse_reverse, List.pairwise_append]
    refine ⟨horder.inOrder, h.pairwise_inOrder _, ?_⟩
    intro first hfirst second hsecond hor
    rw [List.mem_reverse] at hfirst
    rcases hmem second hsecond with ⟨hspan, -⟩ | ⟨target, htarget, hin⟩
    · rw [hspan]
      exact horder.start_lt first hfirst
    · -- A repeated token does not divide, so it is the earlier one that does.
      have hnot := (Token.isPath_of_pathBefore? htarget).not_divides second hin
      rw [hnot] at hor
      have hdivides := hor.resolve_right Bool.false_ne_true
      exact Token.start_lt_of_pathBefore? horder.inOrder htarget hfirst hdivides second hin

theorem Scans.ordered {rest : List Char} {before : List Token} {start : Nat}
    {segments : List Segment} (h : Scans rest before start segments)
    (horder : Ordered before start) :
    Ordered (behind before segments) (start + byteSize (textOf segments)) := by
  induction segments generalizing before start with
  | nil => simpa [byteSize] using horder
  | cons segment segments ih =>
    obtain ⟨span, stretch⟩ := segment
    obtain ⟨hspan, hreads, hrest⟩ := h
    simp only at hspan hreads
    subst hspan
    have hnext := ih hrest (horder.read hreads)
    rwa [behind_cons, textOf_cons, byteSize_append, ← Nat.add_assoc]

def marked (source : String) : List Token :=
  tokens source ++ [Token.endOfFile (byteSize source.toList)]

theorem pairwise_marked (source : String) : (marked source).Pairwise Token.InOrder := by
  obtain ⟨hscans, htext⟩ := scans_segmentsFrom [] 0 source.toList
  have horder := hscans.ordered ⟨by simp, by simp⟩
  rw [htext, Nat.zero_add] at horder
  have htokens : (behind [] (segmentsFrom [] 0 source.toList)).reverse = tokens source := by
    rw [behind, List.append_nil, List.reverse_reverse]
    rfl
  unfold marked
  rw [List.pairwise_append]
  refine ⟨htokens ▸ horder.inOrder, List.pairwise_singleton _ _, ?_⟩
  intro first hfirst last hlast _
  obtain rfl := List.mem_singleton.mp hlast
  rw [← htokens, List.mem_reverse] at hfirst
  exact horder.start_lt first hfirst

theorem fits_of_mem_marked {source : String} :
    ∀ token ∈ marked source, token.span.Fits source := by
  intro token hmem
  rcases List.mem_append.mp hmem with hmem | hmem
  · have hbehind : token ∈ behind [] (segments source) := by
      rwa [behind, List.append_nil, List.mem_reverse]
    have hscans := (scans_segmentsFrom [] 0 source.toList).1
    rcases hscans.span_of_mem_behind token hbehind with hnil | ⟨segment, hsegment, hspan⟩
    · cases hnil
    · rw [hspan]
      exact fits_of_mem_segments hsegment
  · obtain rfl := List.mem_singleton.mp hmem
    have hsource : source.toList = source.toList ++ [] ++ [] := by simp
    exact fits_of_split hsource

/-- Segments stand one behind the other, and none is empty. -/
theorem Scans.pairwise_apart {rest : List Char} {before : List Token} {start : Nat}
    {segments : List Segment} (h : Scans rest before start segments) :
    segments.Pairwise (fun first second => first.span.stop ≤ second.span.start) ∧
      ∀ segment ∈ segments,
        start ≤ segment.span.start ∧ segment.span.start < segment.span.stop := by
  induction segments generalizing before start with
  | nil => simp
  | cons segment segments ih =>
    obtain ⟨hspan, hreads, hrest⟩ := h
    obtain ⟨hpairwise, hbehind⟩ := ih hrest
    have hpos := byteSize_pos hreads.text_ne_nil
    have hfirst : ∀ second ∈ segments, segment.span.stop ≤ second.span.start :=
      fun second hsecond => (hbehind second hsecond).1
    refine ⟨List.pairwise_cons.mpr ⟨hfirst, hpairwise⟩, ?_⟩
    intro second hsecond
    rcases List.mem_cons.mp hsecond with rfl | hsecond
    · rw [hspan]
      simp only
      omega
    · have hle := hbehind second hsecond
      rw [hspan] at hle
      simp only at hle
      omega

/-- Characters that cannot be read are reported where they stand, one behind the other. -/
theorem tokenize_errors_placed {source : String} {errors : List Unrecognized}
    (h : tokenize source = .error errors) : errors ≠ [] ∧
      (∀ error ∈ errors, error.span.Fits source) ∧
      errors.Pairwise fun first second => first.span.start < second.span.start := by
  obtain ⟨hstrays, rfl⟩ := tokenize_eq_error_iff.mp h
  refine ⟨?_, ?_, ?_⟩
  · intro hnone
    rw [← map_character_unrecognized?, hnone] at hstrays
    exact hstrays rfl
  · intro error hmem
    obtain ⟨segment, hsegment, hsome⟩ := List.mem_filterMap.mp hmem
    rw [Segment.span_of_unrecognized? hsome]
    exact fits_of_mem_segments hsegment
  · obtain ⟨hapart, hsize⟩ := (scans_segmentsFrom [] 0 source.toList).1.pairwise_apart
    refine List.pairwise_filterMap.mpr (hapart.imp_of_mem ?_)
    intro first second hfirst _ hle error herror error' herror'
    rw [Segment.span_of_unrecognized? herror, Segment.span_of_unrecognized? herror']
    exact lt_of_lt_of_le (hsize first hfirst).2 hle

end Source
end Script
