import Script.Text.Quoted
import Script.Token.Stretch

namespace Script

structure Segment where
  span : Span
  stretch : Stretch

namespace Segment

def tokens (segment : Segment) : List Token :=
  segment.stretch.tokens segment.span

end Segment

structure Unrecognized where
  character : Char
  span : Span
  deriving DecidableEq, Repr

namespace Unrecognized

def message (error : Unrecognized) : String :=
  "Unrecognized character " ++ Text.quotedChar error.character ++ " found in source"

end Unrecognized

namespace Segment

def unrecognized? (segment : Segment) : Option Unrecognized :=
  match segment.stretch with
  | .unknown c => some ⟨c, segment.span⟩
  | _ => none

end Segment

namespace Source

def byteSize (cs : List Char) : Nat :=
  cs.foldr (fun c n => c.utf8Size + n) 0

/-- The segments of a text that starts at byte `start`, behind the tokens `before`, last one
first. -/
def segmentsFrom (before : List Token) (start : Nat) : List Char → List Segment
  | [] => []
  | c :: cs =>
    let stretch := Stretch.read before c cs
    let span : Span := ⟨start, start + byteSize stretch.text⟩
    ⟨span, stretch⟩ ::
      segmentsFrom ((stretch.tokens span).reverse ++ before) span.stop
        (cs.drop (stretch.text.length - 1))
  termination_by cs => cs.length
  decreasing_by
    simp only [List.length_drop, List.length_cons]
    omega

def segments (source : String) : List Segment :=
  segmentsFrom [] 0 source.toList

def tokenize (source : String) : Except (List Unrecognized) (List Token) :=
  let segments := segments source
  match segments.filterMap Segment.unrecognized? with
  | [] => .ok (segments.flatMap Segment.tokens ++ [Token.endOfFile (byteSize source.toList)])
  | errors => .error errors

end Source
end Script
