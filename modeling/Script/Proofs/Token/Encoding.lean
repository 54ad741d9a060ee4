import Script.Proofs.Token.Partition
import Script.Proofs.Token.Separation
import Script.Proofs.Token.Writing

namespace Script

namespace Stretch

def escapes : List (Char × Char) :=
  [('\n', 'n'), ('\t', 't'), ('\r', 'r')]

/-- `Encodes quote c written`: one of the ways to write a character between quotes. -/
inductive Encodes (quote : Char) : Char → List Char → Prop
  | backslash : Encodes quote '\\' ['\\', '\\']
  | quote : Encodes quote quote ['\\', quote]
  | escape {c letter : Char} (h : (c, letter) ∈ escapes) : Encodes quote c ['\\', letter]
  | plain {c : Char} (hquote : c ≠ quote) (hbackslash : c ≠ '\\') : Encodes quote c [c]

def IsEncoding (quote : Char) (text raw : List Char) : Prop :=
  ∃ written, List.Forall₂ (Encodes quote) text written ∧ raw = written.flatten

section Quote

variable {quote : Char} (hquote : quote = '"' ∨ quote = '\'')

include hquote

theorem Encodes.conveys {c : Char} {written : List Char} (h : Encodes quote c written) :
    Conveys quote c written := by
  have hunescape : ∀ entry ∈ escapes, unescape quote entry.2 = [entry.1] := by
    rcases hquote with rfl | rfl <;> decide
  cases h with
  | backslash =>
    refine .inr ⟨'\\', rfl, ?_⟩
    rcases hquote with rfl | rfl <;> decide
  | quote =>
    refine .inr ⟨quote, rfl, ?_⟩
    rcases hquote with rfl | rfl <;> decide
  | @escape c letter hmem => exact .inr ⟨letter, rfl, hunescape _ hmem⟩
  | plain hne hbackslash => exact .inl ⟨rfl, hne, hbackslash⟩

/-- An encoded text is read back, and the quote behind it is the one that closes it. -/
theorem IsEncoding.decode_eq {text raw : List Char} (h : IsEncoding quote text raw) :
    decode quote raw = text ∧ ∀ more, rawBody quote (raw ++ quote :: more) = (raw, true) := by
  obtain ⟨written, hwritten, rfl⟩ := h
  have hconveys : List.Forall₂ (Conveys quote) text written :=
    hwritten.imp fun _ _ hc => hc.conveys hquote
  have hne : quote ≠ '\\' := by
    rcases hquote with rfl | rfl <;> decide
  exact ⟨decode_flatten hconveys, rawBody_flatten hne hconveys⟩

end Quote

theorem exists_encodes (quote c : Char) : ∃ written, Encodes quote c written := by
  by_cases hbackslash : c = '\\'
  · subst hbackslash
    exact ⟨_, .backslash⟩
  · by_cases hquote : c = quote
    · subst hquote
      exact ⟨_, .quote⟩
    · exact ⟨_, .plain hquote hbackslash⟩

/-- There is no text that cannot be written. -/
theorem exists_isEncoding (quote : Char) (text : List Char) : ∃ raw, IsEncoding quote text raw := by
  induction text with
  | nil => exact ⟨[], [], .nil, rfl⟩
  | cons c text ih =>
    obtain ⟨_, written, hwritten, rfl⟩ := ih
    obtain ⟨first, hfirst⟩ := exists_encodes quote c
    exact ⟨_, first :: written, .cons hfirst hwritten, rfl⟩

end Stretch

namespace Source

/-- A source that is one stretch. -/
theorem segments_of_reads {source : String} {stretch : Stretch} (h : stretch.Reads [] [])
    (hsource : source.toList = stretch.text) :
    segments source = [⟨⟨0, source.utf8ByteSize⟩, stretch⟩] := by
  have hsegments := segmentsFrom_of_reads h 0
  rw [List.append_nil, ← hsource, segmentsFrom, Nat.zero_add, byteSize_toList] at hsegments
  exact hsegments

/-- A literal is one string with the text that was encoded, however it was encoded and with either
quote. So each text is that of some literal. -/
theorem tokenize_literal {quote : Char} (hquote : quote ∈ ['"', '\'']) :
    (∀ text raw : String, Stretch.IsEncoding quote text.toList raw.toList →
      let source := String.singleton quote ++ raw ++ String.singleton quote
      tokenize source = .ok [⟨.string, text, raw, ⟨0, source.utf8ByteSize⟩⟩,
        ⟨.endOfFile, "EndOfFile", "EndOfFile", ⟨source.utf8ByteSize, source.utf8ByteSize⟩⟩]) ∧
    ∀ text : String, ∃ raw : String, Stretch.IsEncoding quote text.toList raw.toList := by
  have hquote' : quote = '"' ∨ quote = '\'' := by simpa using hquote
  constructor
  · intro text raw hencoding source
    obtain ⟨hdecode, hraw⟩ := hencoding.decode_eq hquote'
    have hsource : source.toList = (Stretch.quoted quote raw.toList true).text := by
      simp [source, Stretch.text]
    have hsegments := segments_of_reads (.quoted hquote' hraw) hsource
    refine tokenize_eq_ok_iff.mpr ⟨?_, ?_⟩
    · rw [hsegments]
      rfl
    · rw [tokens, hsegments, byteSize_toList]
      simp [Segment.tokens, Stretch.tokens, hdecode, Token.endOfFile, Token.plain, Span.point]
  · intro text
    obtain ⟨raw, hraw⟩ := Stretch.exists_isEncoding quote text.toList
    exact ⟨String.ofList raw, by rwa [String.toList_ofList]⟩

/-- Backslashes in a row before the quote, the other quote, and a line end written in both ways. -/
theorem tokenize_literal_mixed : '\'' ∈ ['"', '\''] ∧
    Stretch.IsEncoding '\'' "\\'\"é\n\n\\".toList "\\\\\\'\"é\n\\n\\\\".toList ∧
    tokenize "'\\\\\\'\"é\n\\n\\\\'" = .ok
      [⟨.string, "\\'\"é\n\n\\", "\\\\\\'\"é\n\\n\\\\", ⟨0, 14⟩⟩,
        ⟨.endOfFile, "EndOfFile", "EndOfFile", ⟨14, 14⟩⟩] := by
  have hencoding :
      Stretch.IsEncoding '\'' "\\'\"é\n\n\\".toList "\\\\\\'\"é\n\\n\\\\".toList := by
    refine ⟨[['\\', '\\'], ['\\', '\''], ['"'], ['é'], ['\n'], ['\\', 'n'], ['\\', '\\']],
      ?_, by decide +kernel⟩
    exact .cons .backslash (.cons .quote (.cons (.plain (by decide) (by decide))
      (.cons (.plain (by decide) (by decide)) (.cons (.plain (by decide) (by decide))
        (.cons (.escape (by decide)) (.cons .backslash .nil))))))
  have hsize : "'\\\\\\'\"é\n\\n\\\\'".utf8ByteSize = 14 := by decide +kernel
  have hsource : String.singleton '\'' ++ "\\\\\\'\"é\n\\n\\\\" ++ String.singleton '\'' =
      "'\\\\\\'\"é\n\\n\\\\'" := by decide +kernel
  have hliteral := (tokenize_literal (by decide : '\'' ∈ ['"', '\''])).1 _ _ hencoding
  simp only [hsource, hsize] at hliteral
  exact ⟨by decide, hencoding, hliteral⟩

end Source
end Script
