import Script.Text.GraphemeExtend
import Script.Text.Printable

namespace Script.Text

/-- The two sound marks of half width belong to the character before them, yet they are letters. -/
def isSoundMark (c : Char) : Bool :=
  c = '\uFF9E' || c = '\uFF9F'

def isVisible (c : Char) : Bool :=
  isPrintable c && (!isGraphemeExtend c || isSoundMark c)

/-- A character as it stands between quotes. Controls with a short name take it, the quote itself
and the backslash have a backslash before them, and what has no visible form of its own is written
by code point. -/
def escape (quote c : Char) : List Char :=
  if c = '\x00' then ['\\', '0']
  else if c = '\t' then ['\\', 't']
  else if c = '\r' then ['\\', 'r']
  else if c = '\n' then ['\\', 'n']
  else if c = quote ∨ c = '\\' then ['\\', c]
  else if isVisible c then [c]
  else ['\\', 'u', '\x7b'] ++ Nat.toDigits 16 c.toNat ++ ['\x7d']

theorem escape_plain {quote c : Char} (hq : c ≠ quote) (hb : c ≠ '\\')
    (hv : isVisible c = true) : escape quote c = [c] := by
  have hp : isPrintable c = true := by simp_all [isVisible]
  have h0 : c ≠ '\x00' := by rintro rfl; simp [isPrintable] at hp
  have ht : c ≠ '\t' := by rintro rfl; simp [isPrintable] at hp
  have hr : c ≠ '\r' := by rintro rfl; simp [isPrintable] at hp
  have hn : c ≠ '\n' := by rintro rfl; simp [isPrintable] at hp
  simp [escape, h0, ht, hr, hn, hq, hb, hv]

def quotedWith (quote : Char) (cs : List Char) : String :=
  String.ofList (quote :: cs.flatMap (escape quote) ++ [quote])

def quoted (text : String) : String :=
  quotedWith '"' text.toList

def quotedChar (c : Char) : String :=
  quotedWith '\'' [c]

end Script.Text
