/-!
# Bytes as text

Bytes that are the UTF-8 form of a text are read as that text. In any other bytes, each longest
stretch that begins a character without completing one, and each byte that begins none, is read as
one replacement character.

* `Utf8.follow` — the ranges of the bytes that may follow a first byte;
* `Utf8.Decoder` — a character that is being read, with the ranges of the bytes still to come;
* `readUtf8` — the text of some bytes.
-/

namespace PocketShell.Text

namespace Utf8

/-- What stands for bytes that are no character. -/
def replacement : Char := '\ufffd'

/-- The bits of the character that a first byte carries, and the ranges of the bytes that must
follow it. The first of these ranges is narrower where a wider one would spell a character in more
bytes than needed, a surrogate, or a code point beyond the last. -/
def follow (byte : Nat) : Option (Nat × List (Nat × Nat)) :=
  let any := (0x80, 0xBF)
  if byte < 0x80 then some (byte, [])
  else if byte < 0xC2 then none
  else if byte < 0xE0 then some (byte - 0xC0, [any])
  else if byte = 0xE0 then some (0, [(0xA0, 0xBF), any])
  else if byte = 0xED then some (0xD, [(0x80, 0x9F), any])
  else if byte < 0xF0 then some (byte - 0xE0, [any, any])
  else if byte = 0xF0 then some (0, [(0x90, 0xBF), any, any])
  else if byte < 0xF4 then some (byte - 0xF0, [any, any, any])
  else if byte = 0xF4 then some (4, [(0x80, 0x8F), any, any])
  else none

/-- **Decoders.** Bytes that are being read as text. -/
structure Decoder where
  /-- The characters read so far, in reverse. -/
  chars : List Char
  /-- The bits of the character that is being read. -/
  value : Nat
  /-- The ranges of the bytes that are still to come for it; none between two characters. -/
  awaiting : List (Nat × Nat)

namespace Decoder

/-- The effect of a byte between two characters. -/
def start (chars : List Char) (byte : Nat) : Decoder :=
  match follow byte with
  | none => ⟨replacement :: chars, 0, []⟩
  | some (value, []) => ⟨Char.ofNat value :: chars, 0, []⟩
  | some (value, awaiting) => ⟨chars, value, awaiting⟩

/-- **One step.** A byte either continues the character that is being read, or ends it unfinished
and begins another. -/
def step (decoder : Decoder) (byte : UInt8) : Decoder :=
  match decoder.awaiting with
  | [] => start decoder.chars byte.toNat
  | (low, high) :: awaiting =>
    if low ≤ byte.toNat ∧ byte.toNat ≤ high then
      let value := decoder.value * 64 + byte.toNat % 64
      if awaiting.isEmpty then ⟨Char.ofNat value :: decoder.chars, 0, []⟩
      else ⟨decoder.chars, value, awaiting⟩
    -- the byte that breaks the stretch off may begin a character itself
    else start (replacement :: decoder.chars) byte.toNat

/-- The characters read, an unfinished one included. -/
def finish (decoder : Decoder) : List Char :=
  (if decoder.awaiting.isEmpty then decoder.chars else replacement :: decoder.chars).reverse

end Decoder

end Utf8

/-- **Bytes as text.** The text whose UTF-8 form the bytes are, or else the text that has a
replacement character for everything that is no character. -/
def readUtf8 (bytes : ByteArray) : String :=
  match String.fromUTF8? bytes with
  | some text => text
  | none => String.ofList (bytes.toList.foldl Utf8.Decoder.step ⟨[], 0, []⟩).finish

end PocketShell.Text
