import Wwan.Text.Ligature

/-!
# Display width of a text

The number of columns that a line of text takes on a terminal.  It is the sum of the widths of its
characters, except where neighbours change it: emoji sequences take two columns, a variation
selector chooses between narrow text and a wide emoji, and some letters join.  Since it is always
the later character that decides, the sum is taken from the end of the text.
-/

namespace Wwan.Text

/-- A choice between two forms of the character in front. -/
inductive Selector
  /-- The full width form of a quotation mark. -/
  | wide
  /-- The presentation as text. -/
  | text
  /-- The presentation as an emoji. -/
  | emoji
  deriving DecidableEq

/-- The selector that a character is. -/
def Selector.ofChar? (c : Char) : Option Selector :=
  if c.toNat = 0xfe01 then some .wide
  else if c.toNat = 0xfe0e then some .text
  else if c.toNat = 0xfe0f then some .emoji
  else none

/-- Whether a character is a quotation mark with a full width form. -/
def hasWideForm (c : Char) : Bool :=
  inRanges [0x2018, 0x201a, 0x201c, 0x201e] c.toNat

/-- What the character in front of a text may become part of. -/
inductive Lead
  /-- Nothing: the character stands alone. -/
  | nothing
  /-- A ligature. -/
  | ligature (l : Ligature)
  /-- A vowel of several signs. -/
  | vowel (v : SplitVowel)
  /-- An emoji sequence. -/
  | emoji (tail : EmojiTail)
  deriving DecidableEq

/-- What the character in front of `c` may become part of. -/
def Lead.ofChar (c : Char) : Lead :=
  if let some l := Ligature.ofChar? c then .ligature l
  else if let some v := SplitVowel.ofChar? c then .vowel v
  else if let some tail := EmojiTail.ofChar? c then .emoji tail
  else .nothing

/-- What the text behind a place does to the character in front of it: what this character may
become part of, and the selector, if one comes first. -/
structure Following where
  lead : Lead
  selector : Option Selector
  deriving DecidableEq

namespace Following

/-- Behind the end of a text, and before a character that changes nothing in front of it. -/
def plain : Following :=
  ⟨.nothing, none⟩

/-- The same without the selector, for a character that it does not apply to.  Only ligatures form
across a selector. -/
def unselected (f : Following) : Following :=
  match f.lead, f.selector with
  | .ligature l, _ => ⟨.ligature l, none⟩
  | _, some _ => plain
  | _, none => f

/-- The same with a selector in front.  Ligatures form across it, and one that asks for an emoji
still joins what is in front of it with an emoji behind. -/
def select (f : Following) (s : Selector) : Following :=
  match f.lead with
  | .ligature l => ⟨.ligature l, some s⟩
  | .emoji tail =>
    if s = .emoji ∧ f.selector = none ∧ tail.joinsSelected then ⟨.emoji tail, some s⟩
    else ⟨.nothing, some s⟩
  | _ => ⟨.nothing, some s⟩

/-- Whether the character in front of a selector joins an emoji behind. -/
def isJoined (f : Following) : Bool :=
  match f.lead with
  | .emoji tail => tail.joinsSelected
  | _ => false

/-- A character that continues what is behind it, without a selector between the two. -/
def extend? (f : Following) (c : Char) : Option (Int × Following) :=
  match f.lead with
  | .nothing => none
  | .ligature l => (l.before c).map fun r => (r.1, ⟨r.2.elim .nothing .ligature, none⟩)
  | .vowel v => (v.before c).map fun r => (r.1, ⟨r.2.elim .nothing .vowel, none⟩)
  | .emoji tail => (tail.before c).map fun r => (r.1, ⟨.emoji r.2, none⟩)

/-- A character that does not become part of anything behind it. -/
def ofChar (c : Char) : Int × Following :=
  (charColumns c, ⟨Lead.ofChar c, none⟩)

/-- What a character in front adds to the columns, and what it then does, together with the text
behind it, to the next character in front.  An ASCII or control character takes one column unless a
selector asks for an emoji. -/
def before (f : Following) (c : Char) : Int × Following :=
  if f.selector = some .emoji ∧ hasEmojiPresentation c then
    (if f.isJoined then 0 else 2, ⟨.emoji .whole, none⟩)
  else if c.toNat ≤ 0xa0 then (1, plain)
  else if let some s := Selector.ofChar? c then (0, f.select s)
  else if f.selector = some .text ∧ hasNarrowPresentation c then (1, plain)
  else if f.selector = some .wide ∧ hasWideForm c then (2, plain)
  else (f.unselected.extend? c).getD (ofChar c)

end Following

/-- The columns of the characters of a line, and what they do to a character in front of them. -/
def measureChars (cs : List Char) : Int × Following :=
  cs.foldr
    (fun c behind =>
      let step := behind.2.before c
      (step.1 + behind.1, step.2))
    (0, .plain)

/-- The number of columns of a line of text. -/
def columns (s : String) : Nat :=
  (measureChars s.toList).1.toNat

end Wwan.Text
