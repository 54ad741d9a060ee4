import Script.Proofs.Token.Gaps
import Script.Proofs.Token.Order

namespace Script

namespace Stretch

def isQuoted : Stretch → Bool
  | quoted _ _ _ => true
  | _ => false

def signs : List Char :=
  ['(', ')', '\x7b', '\x7d', '[', ']', ',', '.', ':', ';', '|', '=', '!', '&', '<', '>', '+', '-',
    '*', '/', '%']

/-- Whatever is a sign has an entry in one of the tables, or is an arithmetic operator. -/
theorem signs_known : signs.all (fun c => decide (c ∈ updaters) || (singles.lookup c).isSome ||
    (pairs.lookup c).isSome) = true := by
  decide

theorem not_mem_signs {c : Char} (hmark : isMark c = true) (hsingle : singles.lookup c = none)
    (hpair : pairs.lookup c = none) : c ∉ signs := by
  intro hc
  have hknown := List.all_eq_true.mp signs_known c hc
  have hupdater : c ∉ updaters := by
    simp only [isMark, Bool.and_eq_true, decide_eq_true_eq] at hmark
    exact hmark.2
  simp [hsingle, hpair, hupdater] at hknown

end Stretch

theorem Segment.unrecognized?_eq_some_iff {segment : Segment} {error : Unrecognized} :
    segment.unrecognized? = some error ↔
      segment.stretch = .unknown error.character ∧ error.span = segment.span := by
  obtain ⟨span, s⟩ := segment
  obtain ⟨c, place⟩ := error
  cases s with
  | unknown d => simp [unrecognized?, eq_comm]
  | _ => simp [unrecognized?]

namespace Source

/-- A text that starts at byte `start`, with spaces in place of the characters at some places, as
many as each of them has bytes. -/
def blanked (places : List Span) (start : Nat) : List Char → List Char
  | [] => []
  | c :: cs =>
    (if places.contains ⟨start, start + c.utf8Size⟩ then List.replicate c.utf8Size ' ' else [c]) ++
      blanked places (start + c.utf8Size) cs

theorem blanked_append (places : List Span) (start : Nat) (xs ys : List Char) :
    blanked places start (xs ++ ys) =
      blanked places start xs ++ blanked places (start + byteSize xs) ys := by
  induction xs generalizing start with
  | nil => rfl
  | cons c xs ih =>
    rw [List.cons_append, blanked, ih, blanked, List.append_assoc, byteSize_cons, Nat.add_assoc]

/-- A text without any of the places stays as it is. -/
theorem blanked_eq_self {places : List Span} {start : Nat} {cs : List Char}
    (h : ∀ place ∈ places, place.start < start ∨ start + byteSize cs ≤ place.start) :
    blanked places start cs = cs := by
  induction cs generalizing start with
  | nil => rfl
  | cons c cs ih =>
    have hpos := c.utf8Size_pos
    rw [byteSize_cons] at h
    have hnot : places.contains ⟨start, start + c.utf8Size⟩ = false := by
      rw [← Bool.not_eq_true, List.contains_iff_mem]
      intro hmem
      have hplace := h _ hmem
      simp only at hplace
      omega
    rw [blanked, hnot, ih]
    · rfl
    · intro place hmem
      have hplace := h place hmem
      omega

def strayGap : Stretch → Nat
  | .unknown c => c.utf8Size
  | _ => 0

theorem byteSize_filled_strayGap (s : Stretch) :
    byteSize (s.filled strayGap) = byteSize s.text := by
  cases s with
  | unknown c =>
    have hgap : strayGap (.unknown c) ≠ 0 := Nat.pos_iff_ne_zero.mp c.utf8Size_pos
    rw [Stretch.filled_of_ne_zero hgap, byteSize_spaces]
    rfl
  | _ => rfl

theorem byteSize_filled_segments (segments : List Segment) :
    byteSize (filled strayGap segments) = byteSize (textOf segments) := by
  induction segments with
  | nil => rfl
  | cons segment segments ih =>
    rw [filled_cons, textOf_cons, byteSize_append, byteSize_append, byteSize_filled_strayGap, ih]

/-- Spaces in place of the characters that cannot be read. All else keeps its place. -/
def strayFilling : Filling Token where
  gap := strayGap
  isMute s h := by
    cases s with
    | unknown c => rfl
    | _ => exact absurd rfl h
  view := id
  tellsKind := Token.tellsKind_id
  meets start start' := start' = start
  meets_next s _ _ h := by rw [h, byteSize_filled_strayGap]
  map_view _ _ _ h := by rw [h]

theorem straysOf_filter_strayGap (segments : List Segment) :
    straysOf (segments.filter fun segment => strayGap segment.stretch = 0) = [] := by
  rw [straysOf, List.filterMap_eq_nil_iff]
  intro segment hmem
  have hgap : strayGap segment.stretch = 0 := by simpa using (List.mem_filter.mp hmem).2
  cases hs : segment.stretch with
  | unknown c =>
    rw [hs] at hgap
    exact absurd hgap (Nat.pos_iff_ne_zero.mp c.utf8Size_pos)
  | _ => rfl

/-- A stretch whose place is given if it is a stray, and that has none of the places otherwise. -/
theorem blanked_text {places : List Span} {start : Nat} {s : Stretch}
    (hstray : ∀ c, s = .unknown c → ⟨start, start + byteSize s.text⟩ ∈ places)
    (hother : (∀ c, s ≠ .unknown c) →
      ∀ place ∈ places, place.start < start ∨ start + byteSize s.text ≤ place.start) :
    blanked places start s.text = s.filled strayGap := by
  cases s with
  | unknown c =>
    have hgap : strayGap (.unknown c) ≠ 0 := Nat.pos_iff_ne_zero.mp c.utf8Size_pos
    have hplace : places.contains ⟨start, start + c.utf8Size⟩ = true :=
      List.contains_iff_mem.mpr (hstray c rfl)
    rw [Stretch.filled_of_ne_zero hgap, Stretch.text, blanked, hplace, blanked, List.append_nil]
    rfl
  | _ => exact blanked_eq_self (hother (by simp))

/-- Where the places are those of the strays, it is the strays that are replaced. -/
theorem Scans.blanked_eq {places : List Span} {before : List Token} {start : Nat}
    {segments : List Segment} (h : Scans [] before start segments)
    (hall : ∀ segment ∈ segments, ∀ c, segment.stretch = .unknown c → segment.span ∈ places)
    (honly : ∀ place ∈ places, place.start < start ∨
      ∃ segment ∈ segments, ∃ c, segment.stretch = .unknown c ∧ place = segment.span) :
    blanked places start (textOf segments) = filled strayGap segments := by
  induction segments generalizing before start with
  | nil => rfl
  | cons segment segments ih =>
    obtain ⟨hspan, hreads, hrest⟩ := h
    obtain ⟨hall, hall'⟩ := List.forall_mem_cons.mp hall
    have hpos := byteSize_pos hreads.text_ne_nil
    have hbehind := hrest.pairwise_apart.2
    have htext : blanked places start segment.stretch.text = segment.stretch.filled strayGap := by
      apply blanked_text
      · intro c hc
        rw [← hspan]
        exact hall c hc
      · intro hnot place hplace
        rcases honly place hplace with hlt | ⟨other, hother, c, hc, rfl⟩
        · exact .inl hlt
        · rcases List.mem_cons.mp hother with rfl | hother
          · exact absurd hc (hnot c)
          · -- All later segments start where this one stops or behind it.
            have hle := (hbehind other hother).1
            rw [hspan] at hle
            exact .inr hle
    have hnext : ∀ place ∈ places, place.start < segment.span.stop ∨
        ∃ other ∈ segments, ∃ c, other.stretch = .unknown c ∧ place = other.span := by
      intro place hplace
      rcases honly place hplace with hlt | ⟨other, hother, c, hc, rfl⟩
      · left
        rw [hspan]
        simp only
        omega
      · rcases List.mem_cons.mp hother with rfl | hother
        · left
          rw [hspan]
          simp only
          omega
        · exact .inr ⟨other, hother, c, hc, rfl⟩
    have hrest' := ih hrest hall' hnext
    rw [hspan] at hrest'
    rw [textOf_cons, blanked_append, htext, hrest', filled_cons]

section Reported

variable {source : String} {errors : List Unrecognized} (h : tokenize source = .error errors)

include h

theorem mem_errors_iff {error : Unrecognized} : error ∈ errors ↔
    ∃ segment ∈ segments source,
      segment.stretch = .unknown error.character ∧ error.span = segment.span := by
  obtain ⟨-, rfl⟩ := tokenize_eq_error_iff.mp h
  simp only [List.mem_filterMap, Segment.unrecognized?_eq_some_iff]

/-- The places that are reported are those of the strays. -/
theorem blanked_errors : blanked (errors.map Unrecognized.span) 0 source.toList =
    filled strayGap (segments source) := by
  obtain ⟨hscans, htext⟩ := scans_segmentsFrom [] 0 source.toList
  have hall : ∀ segment ∈ segments source, ∀ c, segment.stretch = .unknown c →
      segment.span ∈ errors.map Unrecognized.span := by
    intro segment hmem c hc
    exact List.mem_map.mpr ⟨⟨c, segment.span⟩, (mem_errors_iff h).mpr ⟨segment, hmem, hc, rfl⟩, rfl⟩
  have honly : ∀ place ∈ errors.map Unrecognized.span, place.start < 0 ∨
      ∃ segment ∈ segments source, ∃ c, segment.stretch = .unknown c ∧ place = segment.span := by
    intro place hplace
    obtain ⟨error, herror, rfl⟩ := List.mem_map.mp hplace
    obtain ⟨segment, hmem, hc, hspan⟩ := (mem_errors_iff h).mp herror
    exact .inr ⟨segment, hmem, error.character, hc, hspan⟩
  have hblanked := hscans.blanked_eq hall honly
  rwa [htext] at hblanked

/-- With spaces for what is reported there is nothing left to report, and no token has moved. -/
theorem tokenize_blanked :
    tokenize (String.ofList (blanked (errors.map Unrecognized.span) 0 source.toList)) =
      .ok (marked source) := by
  obtain ⟨hscans, htext⟩ := scans_segmentsFrom [] 0 source.toList
  have hmeets : strayFilling.meets 0 0 := rfl
  obtain ⟨segments', hscans', htext', htokens, hstrays⟩ :=
    hscans.exists_filled strayFilling rfl hmeets
  have hblanked : blanked (errors.map Unrecognized.span) 0 source.toList = textOf segments' :=
    (blanked_errors h).trans htext'.symm
  have hsize : byteSize (textOf segments') = byteSize source.toList := by
    rw [htext']
    exact (byteSize_filled_segments _).trans (congrArg byteSize htext)
  have htokens' : segments'.flatMap Segment.tokens = tokens source := by
    have hmap : (segments'.flatMap Segment.tokens).map id = (tokens source).map id := htokens
    rwa [List.map_id, List.map_id] at hmap
  rw [hblanked]
  refine tokenize_eq_ok_iff.mpr ⟨?_, ?_⟩
  · rw [hscans'.segments_eq, hstrays]
    exact straysOf_filter_strayGap _
  · rw [tokens, hscans'.segments_eq, htokens', String.toList_ofList, hsize]
    rfl

/-- A character that is reported stands where it is reported, and nothing can start with it. -/
theorem reported_stands {error : Unrecognized} (herror : error ∈ errors) :
    (∃ first rest, source.toList = first ++ error.character :: rest ∧
      error.span = ⟨byteSize first, byteSize first + error.character.utf8Size⟩) ∧
    Piece.IsStray error.character ∧ error.character ∉ Stretch.signs := by
  obtain ⟨segment, hmem, hc, hplace⟩ := (mem_errors_iff h).mp herror
  obtain ⟨hscans, htext⟩ := scans_segmentsFrom [] 0 source.toList
  obtain ⟨first, more, hsplit⟩ := List.append_of_mem hmem
  rw [show segmentsFrom [] 0 source.toList = _ from hsplit] at hscans htext
  obtain ⟨hspan, hreads⟩ := hscans.at_segment
  rw [hc] at hreads hspan
  constructor
  · refine ⟨textOf first, textOf more, ?_, ?_⟩
    · rw [← htext, textOf_append, textOf_cons, hc]
      rfl
    · rw [hplace, hspan, Nat.zero_add]
      rfl
  · cases hreads with
    | unknown hmark hsingle hpair =>
      exact ⟨Piece.isStray_of_lookup hmark hsingle hpair,
        Stretch.not_mem_signs hmark hsingle hpair⟩

/-- A character that is reported is no part of any other segment. -/
theorem reported_apart {error : Unrecognized} (herror : error ∈ errors) {segment : Segment}
    (hmem : segment ∈ segments source) (hknown : segment.stretch.stray? = none) :
    error.span.stop ≤ segment.span.start ∨ segment.span.stop ≤ error.span.start := by
  obtain ⟨stray, hstray, hc, hplace⟩ := (mem_errors_iff h).mp herror
  have hapart := (scans_segmentsFrom [] 0 source.toList).1.pairwise_apart.1
  obtain ⟨first, more, hsplit⟩ := List.append_of_mem hstray
  rw [show segmentsFrom [] 0 source.toList = _ from hsplit] at hapart
  obtain ⟨-, hmore, hfirst⟩ := List.pairwise_append.mp hapart
  rw [hsplit] at hmem
  rw [hplace]
  rcases List.mem_append.mp hmem with hmem | hmem
  · exact .inr (hfirst segment hmem stray List.mem_cons_self)
  · rcases List.mem_cons.mp hmem with rfl | hmem
    · simp [hc, Stretch.stray?] at hknown
    · exact .inl ((List.pairwise_cons.mp hmore).1 segment hmem)

/-- Every character that cannot be read is found in one pass: with spaces in their place, as many as
they have bytes, the source can be read, and its tokens are those around them. Each of them stands
where it is reported, outside strings and comments, and it is no character of the language. -/
theorem tokenize_finds_strays :
    tokenize (String.ofList (blanked (errors.map Unrecognized.span) 0 source.toList)) =
      .ok (tokens source ++ [Token.endOfFile source.utf8ByteSize]) ∧
    ∀ error ∈ errors,
      (∃ first rest, source.toList = first ++ error.character :: rest ∧
        error.span = ⟨byteSize first, byteSize first + error.character.utf8Size⟩) ∧
      (∀ segment ∈ segments source,
        segment.stretch.isComment = true ∨ segment.stretch.isQuoted = true →
        error.span.stop ≤ segment.span.start ∨ segment.span.stop ≤ error.span.start) ∧
      error.character ∉ [' ', '\n', '\t', '\r'] ∧ Text.isAlphabetic error.character = false ∧
      error.character.isDigit = false ∧ error.character ∉ ['"', '\''] ∧
      error.character ∉ Stretch.signs := by
  refine ⟨?_, ?_⟩
  · rw [← byteSize_toList]
    exact tokenize_blanked h
  · intro error herror
    obtain ⟨hplace, hstray, hsign⟩ := reported_stands h herror
    refine ⟨hplace, ?_, hstray.not_blank, hstray.not_letter, hstray.not_digit, hstray.not_quote,
      hsign⟩
    intro segment hmem hkind
    refine reported_apart h herror hmem ?_
    cases hs : segment.stretch with
    | unknown c => simp [hs, Stretch.isComment, Stretch.isQuoted] at hkind
    | _ => rfl

end Reported

/-- Strays behind a minus sign and between a string and a comment that hold the same characters. -/
theorem tokenize_finds_strays_mixed :
    tokenize "a-#1 '#' € /*€" = .error [⟨'#', ⟨2, 3⟩⟩, ⟨'€', ⟨9, 12⟩⟩] ∧
    tokenize "a- 1 '#'     /*€" = .ok [.plain .identifier "a" ⟨0, 1⟩, .plain .operator "-" ⟨1, 2⟩,
      .plain .number "1" ⟨3, 4⟩, .plain .string "#" ⟨5, 8⟩, Token.endOfFile 18] := by
  have herror : tokenize "a-#1 '#' € /*€" = .error [⟨'#', ⟨2, 3⟩⟩, ⟨'€', ⟨9, 12⟩⟩] := by
    decide +kernel
  have hblanked : String.ofList (blanked [⟨2, 3⟩, ⟨9, 12⟩] 0 "a-#1 '#' € /*€".toList) =
      "a- 1 '#'     /*€" := by
    decide +kernel
  have htokens : tokens "a-#1 '#' € /*€" = [.plain .identifier "a" ⟨0, 1⟩,
      .plain .operator "-" ⟨1, 2⟩, .plain .number "1" ⟨3, 4⟩, .plain .string "#" ⟨5, 8⟩] := by
    decide +kernel
  have hall := (tokenize_finds_strays herror).1
  simp only [List.map_cons, List.map_nil, hblanked, htokens] at hall
  exact ⟨herror, hall⟩

end Source
end Script
