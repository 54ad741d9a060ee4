import Script.Text.Ranges

namespace Script.Text

/-- Code points that have the Unicode property White_Space. -/
def whiteSpaceRanges : Ranges :=
  [(0x0009, 0x000D), (0x0020, 0x0020), (0x0085, 0x0085), (0x00A0, 0x00A0), (0x1680, 0x1680),
    (0x2000, 0x200A), (0x2028, 0x2029), (0x202F, 0x202F), (0x205F, 0x205F), (0x3000, 0x3000)]

def isWhiteSpace (c : Char) : Bool :=
  whiteSpaceRanges.contains c

def isBlankText (text : String) : Bool :=
  text.toList.all isWhiteSpace

end Script.Text
