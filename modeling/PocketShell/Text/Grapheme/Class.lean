import PocketShell.Text.Grapheme.Mark
import PocketShell.Text.Ranges

/-!
# Classes of characters in clusters

What a reader sees as one character may be several: a letter with its accents, a syllable of Hangul,
a flag. Where such a cluster may end depends on the classes of the characters on both sides, which
are the values of the Unicode property `Grapheme_Cluster_Break`, here of version 17.0.

* `Class` — the classes;
* `classOf` — the class of a character.
-/

namespace PocketShell.Text.Grapheme

/-- **Classes.** -/
inductive Class where
  | carriageReturn
  | lineFeed
  /-- Other characters that control the text and are not seen. -/
  | control
  /-- Marks without a width. -/
  | extend
  | joiner
  /-- Marks with a width. -/
  | spacing
  /-- Marks that belong to the character behind them. -/
  | prepend
  /-- Letters that stand for a region; two of them are a flag. -/
  | regional
  /-- Consonants at the head of a syllable of Hangul. -/
  | leading
  /-- Vowels of a syllable of Hangul. -/
  | vowel
  /-- Consonants at the end of a syllable of Hangul. -/
  | trailing
  /-- Syllables of Hangul that end in a vowel. -/
  | openSyllable
  /-- Syllables of Hangul that end in a consonant. -/
  | closedSyllable
  | other
  deriving DecidableEq, Repr

/-- **Control characters.** First and last code point of each range of the value `Control`. -/
def controlRanges : List (Nat × Nat) :=
  [(0x0, 0x9), (0xB, 0xC), (0xE, 0x1F), (0x7F, 0x9F), (0xAD, 0xAD), (0x61C, 0x61C),
    (0x180E, 0x180E), (0x200B, 0x200B), (0x200E, 0x200F), (0x2028, 0x202E), (0x2060, 0x206F),
    (0xFEFF, 0xFEFF), (0xFFF0, 0xFFFB), (0x13430, 0x1343F), (0x1BCA0, 0x1BCA3), (0x1D173, 0x1D17A),
    (0xE0000, 0xE001F), (0xE0080, 0xE00FF), (0xE01F0, 0xE0FFF)]

/-- **Marks before a character.** First and last code point of each range of the value `Prepend`. -/
def prependRanges : List (Nat × Nat) :=
  [(0x600, 0x605), (0x6DD, 0x6DD), (0x70F, 0x70F), (0x890, 0x891), (0x8E2, 0x8E2), (0xD4E, 0xD4E),
    (0x110BD, 0x110BD), (0x110CD, 0x110CD), (0x111C2, 0x111C3), (0x113D1, 0x113D1),
    (0x1193F, 0x1193F), (0x11941, 0x11941), (0x11A84, 0x11A89), (0x11D46, 0x11D46),
    (0x11F02, 0x11F02)]

def regionalRanges : List (Nat × Nat) :=
  [(0x1F1E6, 0x1F1FF)]

def leadingRanges : List (Nat × Nat) :=
  [(0x1100, 0x115F), (0xA960, 0xA97C)]

/-- The vowels of a syllable. Some vowels of another script behave like them. -/
def vowelRanges : List (Nat × Nat) :=
  [(0x1160, 0x11A7), (0xD7B0, 0xD7C6), (0x16D63, 0x16D63), (0x16D67, 0x16D6A)]

def trailingRanges : List (Nat × Nat) :=
  [(0x11A8, 0x11FF), (0xD7CB, 0xD7FB)]

def syllableRanges : List (Nat × Nat) :=
  [(0xAC00, 0xD7A3)]

/-- The class of a whole syllable. The syllables are ordered by their last consonant within each
twenty-eight, with the one that has none in front. -/
def syllableClass (c : Char) : Class :=
  if (c.toNat - 0xAC00) % 28 = 0 then .openSyllable else .closedSyllable

/-- **The class of a character.** -/
def classOf (c : Char) : Class :=
  if 0x20 ≤ c.toNat ∧ c.toNat < 0x7F then .other
  else if c = '\r' then .carriageReturn
  else if c = '\n' then .lineFeed
  else if c = '\u200d' then .joiner
  else if inRanges controlRanges c then .control
  else if inRanges extendRanges c then .extend
  else if inRanges spacingRanges c then .spacing
  else if inRanges prependRanges c then .prepend
  else if inRanges regionalRanges c then .regional
  else if inRanges leadingRanges c then .leading
  else if inRanges vowelRanges c then .vowel
  else if inRanges trailingRanges c then .trailing
  else if inRanges syllableRanges c then syllableClass c
  else .other

namespace Class

/-- Does the class stand alone, so that a cluster ends before it and behind it? -/
def isAlone : Class → Bool
  | .carriageReturn | .lineFeed | .control => true
  | _ => false

/-- Does the class belong to whatever is before it? -/
def isMark : Class → Bool
  | .extend | .joiner | .spacing => true
  | _ => false

/-- May the second class go on with a syllable of Hangul that the first is part of? -/
def isSyllable : Class → Class → Bool
  | .leading, .leading | .leading, .vowel | .leading, .openSyllable | .leading, .closedSyllable
  | .openSyllable, .vowel | .openSyllable, .trailing | .vowel, .vowel | .vowel, .trailing
  | .closedSyllable, .trailing | .trailing, .trailing => true
  | _, _ => false

end Class

end PocketShell.Text.Grapheme
