import Wwan.Text.Width
import Wwan.Text.Emoji

/-!
# Ligatures

In some scripts a letter joins with what stands before it and both take the room of one, or of
none.  As a text is measured from its end, a `Ligature` is the letter that has been seen, and
`Ligature.before` takes the character in front of it.
-/

namespace Wwan.Text

/-- The boundaries of the ranges of characters without a column that keep Arabic letters apart. -/
def unjoiningBoundaries : List Nat := [
  0x605, 0x606, 0x890, 0x892, 0x8e2, 0x8e3, 0x9be, 0x9bf, 0x9d7, 0x9d8, 0xb3e, 0xb3f, 0xb57, 0xb58,
  0xbbe, 0xbbf, 0xbd7, 0xbd8, 0xcc0, 0xcc1, 0xcc2, 0xcc3, 0xcc7, 0xcc9, 0xcca, 0xccc, 0xcd5, 0xcd7,
  0xd3e, 0xd3f, 0xd4e, 0xd4f, 0xd57, 0xd58, 0xdcf, 0xdd0, 0xddf, 0xde0, 0x1160, 0x1200, 0x1715,
  0x1716, 0x1734, 0x1735, 0x180e, 0x180f, 0x1b35, 0x1b36, 0x1b3b, 0x1b3c, 0x1b3d, 0x1b3e, 0x1b43,
  0x1b45, 0x1baa, 0x1bab, 0x1bf2, 0x1bf4, 0x200c, 0x200e, 0x2065, 0x206a, 0x302e, 0x3030, 0x3164,
  0x3165, 0xa8fa, 0xa8fb, 0xa953, 0xa954, 0xa9c0, 0xa9c1, 0xd7b0, 0xd7c7, 0xd7cb, 0xd7fc, 0xff9e,
  0xffa1, 0xfff0, 0xfff9, 0x111c0, 0x111c1, 0x111c2, 0x111c4, 0x11235, 0x11236, 0x1133e, 0x1133f,
  0x1134d, 0x1134e, 0x11357, 0x11358, 0x113b8, 0x113b9, 0x113c2, 0x113c3, 0x113c5, 0x113c6, 0x113c7,
  0x113ca, 0x113cf, 0x113d0, 0x113d1, 0x113d2, 0x114b0, 0x114b1, 0x114bd, 0x114be, 0x115af, 0x115b0,
  0x116b6, 0x116b7, 0x11930, 0x11931, 0x1193d, 0x1193e, 0x1193f, 0x11940, 0x11941, 0x11942, 0x11a84,
  0x11a8a, 0x11d46, 0x11d47, 0x11f02, 0x11f03, 0x11f41, 0x11f42, 0x16ff0, 0x16ff2, 0x1d165, 0x1d167,
  0x1d16d, 0x1d173, 0xe0000, 0xe0001, 0xe0002, 0xe0020, 0xe0080, 0xe0100, 0xe01f0, 0xe1000]

/-- Whether Arabic letters join across a character. -/
def isTransparent (c : Char) : Bool :=
  isZeroWidth c && !inRanges unjoiningBoundaries c.toNat

/-- Whether a character is a mark that is never shown, across which letters join. -/
def isInvisibleMark (c : Char) : Bool :=
  inRanges [0x34f, 0x350, 0x17b4, 0x17b6, 0x180b, 0x180e, 0x180f, 0x1810, 0xfe00, 0xfe10, 0xe0100,
    0xe01f0] c.toNat

/-- Whether a character is a form of the Arabic letter lam. -/
def isLam (c : Char) : Bool :=
  inRanges [0x644, 0x645, 0x6b5, 0x6b9, 0x76a, 0x76b, 0x8a6, 0x8a7, 0x8c7, 0x8c8] c.toNat

/-- Whether a character is a form of the Arabic letter alef. -/
def isAlef (c : Char) : Bool :=
  inRanges [0x622, 0x624, 0x625, 0x626, 0x627, 0x628, 0x671, 0x674, 0x675, 0x676, 0x773, 0x775,
    0x870, 0x883] c.toNat

/-- Whether a character is a Khmer letter that is written below the one before it after a coeng. -/
def isCoengLetter (c : Char) : Bool :=
  inRanges [0x1780, 0x1783, 0x1784, 0x1788, 0x1789, 0x178d, 0x178e, 0x1794, 0x1795, 0x1799, 0x179b,
    0x179e, 0x17a0, 0x17a1, 0x17a2, 0x17a3, 0x17a7, 0x17a8, 0x17ab, 0x17ad, 0x17af, 0x17b0] c.toNat

/-- Whether a character is a Tifinagh consonant. -/
def isTifinaghConsonant (c : Char) : Bool :=
  inRanges [0x2d31, 0x2d66, 0x2d6f, 0x2d70] c.toNat

/-- A letter that may join with the text before it.  Where it does so only across a zero width
joiner, `joined` tells whether there is one in front of it. -/
inductive Ligature
  /-- An Arabic alef, after a lam. -/
  | alef
  /-- A Hebrew lamed, after an alef. -/
  | lamed (joined : Bool)
  /-- A Buginese ya, after an a with the vowel sign i. -/
  | ya (joined : Bool)
  /-- A Buginese vowel sign i, and a joined ya behind it. -/
  | vowelYa
  /-- A Tifinagh consonant, after another one. -/
  | consonant (joined : Bool)
  /-- A Tifinagh consonant joiner, and a consonant behind it. -/
  | joinedConsonant
  /-- A Lisu tone letter mya na or mya jeu, after another tone letter. -/
  | tone
  /-- An Old Turkic i, after an op. -/
  | orkhonI (joined : Bool)
  /-- A Khmer letter, after a coeng. -/
  | coengLetter
  deriving DecidableEq

namespace Ligature

/-- The ligature that a character may end. -/
def ofChar? (c : Char) : Option Ligature :=
  if isAlef c then some .alef
  else if c.toNat = 0x5dc then some (.lamed false)
  else if c.toNat = 0x1a10 then some (.ya false)
  else if isTifinaghConsonant c then some (.consonant false)
  else if isWithin 0xa4fc 0xa4fd c then some .tone
  else if c.toNat = 0x10c03 then some (.orkhonI false)
  else if isCoengLetter c then some .coengLetter
  else none

/-- A letter with a zero width joiner in front of it. -/
def join : Ligature → Ligature
  | .lamed _ => .lamed true
  | .ya _ => .ya true
  | .consonant _ => .consonant true
  | .orkhonI _ => .orkhonI true
  | l => l

/-- What a letter in front of a ligature adds to the columns and leaves of the ligature, if the two
join. -/
def beforeLetter (l : Ligature) (c : Char) : Option (Int × Option Ligature) :=
  match l with
  | .alef => if isLam c then some (0, none) else none
  | .lamed true => if c.toNat = 0x5d0 then some (0, none) else none
  | .ya true => if c.toNat = 0x1a17 then some (0, some .vowelYa) else none
  | .vowelYa => if c.toNat = 0x1a15 then some (0, none) else none
  | .consonant joined =>
    if c.toNat = 0x2d7f then some (1, some .joinedConsonant)
    else if joined && isTifinaghConsonant c then some (0, none)
    else none
  | .joinedConsonant => if isTifinaghConsonant c then some (-1, none) else none
  | .tone => if isWithin 0xa4f8 0xa4fb c then some (0, none) else none
  | .orkhonI true => if c.toNat = 0x10c32 then some (0, none) else none
  | .coengLetter => if c.toNat = 0x17d2 then some (-1, none) else none
  | _ => none

/-- What a character in front of a ligature adds to the columns and leaves of the ligature, if the
ligature goes on.  Its letters join across invisible marks and joiners; a lam and an alef join
across every mark that Arabic letters join across. -/
def before (l : Ligature) (c : Char) : Option (Int × Option Ligature) :=
  if l = .alef then
    if isLam c then some (0, none)
    else if isTransparent c then some (0, some .alef)
    else none
  else if isJoiner c then some (0, some l.join)
  else if isInvisibleMark c then some (0, some l)
  else l.beforeLetter c

end Ligature

/-- A Kirat Rai vowel sign, which is part of one vowel with the signs before it. -/
inductive SplitVowel
  /-- The sign e, the second part of ai, o and au. -/
  | e
  /-- The two signs of ai, the last part of au. -/
  | ai
  deriving DecidableEq

namespace SplitVowel

/-- The vowel that a character may end. -/
def ofChar? (c : Char) : Option SplitVowel :=
  if c.toNat = 0x16d67 then some .e
  else if c.toNat = 0x16d68 then some .ai
  else none

/-- What a sign in front of a vowel adds to the columns and leaves of the vowel, if it is part of
it.  The sign ai is e twice, so in front of an e it pairs up with it and leaves an e. -/
def before (v : SplitVowel) (c : Char) : Option (Int × Option SplitVowel) :=
  if c.toNat = 0x16d63 then some (0, none)
  else if v = .ai then none
  else if c.toNat = 0x16d67 then some (0, some .ai)
  else if c.toNat = 0x16d68 then some (1, some .e)
  else if c.toNat = 0x16d69 then some (0, none)
  else none

end SplitVowel

end Wwan.Text
