import PocketShell.Text.Ranges

/-!
# Blank characters

The shell separates words by **blank** characters: the characters that have the Unicode property
`White_Space`. They are listed as ranges of code points, so the class is a table and not a rule:

* `blankRanges` — the ten ranges of the property;
* `isBlank` — membership in one of them;
* `trimBlanks`, `trim` — a text without the blanks at its two ends.

Everything that speaks of "whitespace" in this library means `isBlank`; the narrower class of
`Char.isWhitespace` is contained in it.
-/

namespace PocketShell.Text

/-- **The blank ranges.** First and last code point of each range of characters that have the
property `White_Space`. -/
def blankRanges : List (Nat × Nat) :=
  [(0x9, 0xD), (0x20, 0x20), (0x85, 0x85), (0xA0, 0xA0), (0x1680, 0x1680), (0x2000, 0x200A),
    (0x2028, 0x2029), (0x202F, 0x202F), (0x205F, 0x205F), (0x3000, 0x3000)]

/-- **Blank characters.** A character is blank when its code point lies in one of the
`blankRanges`. -/
def isBlank (c : Char) : Bool :=
  inRanges blankRanges c

/-- The characters of a text without the blanks at its two ends. -/
def trimBlanks (cs : List Char) : List Char :=
  ((cs.dropWhile isBlank).reverse.dropWhile isBlank).reverse

/-- **Trimming.** A text without the blanks at its two ends. -/
def trim (text : String) : String :=
  String.ofList (trimBlanks text.toList)

@[simp] theorem toList_trim (text : String) : (trim text).toList = trimBlanks text.toList := by
  simp [trim]

/-- The blank characters contain those that `Char.isWhitespace` knows. -/
theorem isBlank_of_isWhitespace {c : Char} (h : c.isWhitespace = true) : isBlank c = true := by
  simp only [Char.isWhitespace, Bool.or_eq_true, decide_eq_true_eq] at h
  rcases h with ((rfl | rfl) | rfl) | rfl <;> decide

end PocketShell.Text
