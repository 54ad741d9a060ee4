import Script.Text.Conjunct
import Script.Text.GraphemeExtend
import Script.Text.Pictograph
import Script.Text.SpacingMark

namespace Script.Text

/-- What a character is to its neighbours when a text is cut into clusters. -/
inductive ClusterClass where
  | carriageReturn
  | lineFeed
  | control
  | extend
  | joiner
  | spacingMark
  | prepend
  | regional
  | leadingLetter
  | vowel
  | trailingLetter
  | openSyllable
  | closedSyllable
  | consonant
  | pictograph
  | other
  deriving DecidableEq, Repr

namespace ClusterClass

def controlRanges : Ranges :=
  [(0x0000, 0x001F), (0x007F, 0x009F), (0x00AD, 0x00AD), (0x061C, 0x061C), (0x180E, 0x180E),
    (0x200B, 0x200B), (0x200E, 0x200F), (0x2028, 0x202E), (0x2060, 0x206F), (0xFEFF, 0xFEFF),
    (0xFFF0, 0xFFFB), (0x13430, 0x1343F), (0x1BCA0, 0x1BCA3), (0x1D173, 0x1D17A),
    (0xE0000, 0xE001F), (0xE0080, 0xE00FF), (0xE01F0, 0xE0FFF)]

def prependRanges : Ranges :=
  [(0x0600, 0x0605), (0x06DD, 0x06DD), (0x070F, 0x070F), (0x0890, 0x0891), (0x08E2, 0x08E2),
    (0x0D4E, 0x0D4E), (0x110BD, 0x110BD), (0x110CD, 0x110CD), (0x111C2, 0x111C3),
    (0x113D1, 0x113D1), (0x1193F, 0x1193F), (0x11941, 0x11941), (0x11A84, 0x11A89),
    (0x11D46, 0x11D46), (0x11F02, 0x11F02)]

def leadingLetterRanges : Ranges :=
  [(0x1100, 0x115F), (0xA960, 0xA97C)]

def vowelRanges : Ranges :=
  [(0x1160, 0x11A7), (0xD7B0, 0xD7C6), (0x16D63, 0x16D63), (0x16D67, 0x16D6A)]

def trailingLetterRanges : Ranges :=
  [(0x11A8, 0x11FF), (0xD7CB, 0xD7FB)]

def syllableRanges : Ranges :=
  [(0xAC00, 0xD7A3)]

def regionalRanges : Ranges :=
  [(0x1F1E6, 0x1F1FF)]

def modifierRanges : Ranges :=
  [(0x1F3FB, 0x1F3FF)]

/-- The class of a character. The two ends of a line are controls with a rule of their own; other
classes do not overlap. Of the syllables every twenty-eighth has no trailing letter. -/
def ofChar (c : Char) : ClusterClass :=
  if c = '\r' then carriageReturn
  else if c = '\n' then lineFeed
  else if controlRanges.contains c then control
  else if c.toNat < 0x80 then other
  else if c = '\u200D' then joiner
  else if isGraphemeExtend c || modifierRanges.contains c then extend
  else if isSpacingMark c then spacingMark
  else if prependRanges.contains c then prepend
  else if regionalRanges.contains c then regional
  else if leadingLetterRanges.contains c then leadingLetter
  else if vowelRanges.contains c then vowel
  else if trailingLetterRanges.contains c then trailingLetter
  else if syllableRanges.contains c then
    if (c.toNat - 0xAC00) % 28 = 0 then openSyllable else closedSyllable
  else if isConsonant c then consonant
  else if isPictograph c then pictograph
  else other

end ClusterClass
end Script.Text
