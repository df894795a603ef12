import PocketShell.Error
import PocketShell.Text.Base64
import PocketShell.Text.Utf8

/-!
# Contents of files

A `Blob` is what a file holds: bytes with a declared media type. A `data:` address spells a blob in
one line of text, `data:TYPE,PAYLOAD` with the bytes of the payload as they stand, or
`data:TYPE;base64,PAYLOAD` with a payload in Base64. An empty type means plain text.

* `Blob.plain`, `Blob.text` — the blob of a text, and the text of a blob;
* `DataUrl.parse` — the blob that an address spells.
-/

namespace PocketShell

/-- **Contents of a file.** -/
structure Blob where
  mediaType : String
  data : ByteArray

namespace Blob

instance : DecidableEq Blob := fun a b =>
  decidable_of_iff (a.mediaType = b.mediaType ∧ a.data.data = b.data.data) <| by
    cases a
    cases b
    rw [Blob.mk.injEq, ByteArray.ext_iff]

def plainType : String := "text/plain"

/-- The contents of a plain text file. -/
def plain (text : String) : Blob :=
  ⟨plainType, text.toUTF8⟩

/-- The contents as text, with a replacement character for everything that is none. -/
def text (blob : Blob) : String :=
  Text.readUtf8 blob.data

def size (blob : Blob) : Nat :=
  blob.data.size

end Blob

namespace DataUrl

/-- What every address begins with. -/
def scheme : List Char := ['d', 'a', 't', 'a', ':']

/-- What marks a payload as Base64. -/
def base64Mark : List Char := [';', 'b', 'a', 's', 'e', '6', '4']

/-- The declared media type, or plain text if it is empty. -/
def mediaType (declared : List Char) : String :=
  if declared.isEmpty then Blob.plainType else String.ofList declared

/-- The blob of an address, given what stands before and behind its first comma. -/
def ofParts (header payload : List Char) : Except Error Blob :=
  if base64Mark.isSuffixOf header then
    let declared := header.take (header.length - base64Mark.length)
    match Text.Base64.decode? payload with
    | some bytes => .ok ⟨mediaType declared, ⟨bytes.toArray⟩⟩
    | none => .error (.badPayload (String.ofList declared))
  else .ok ⟨mediaType header, (String.ofList payload).toUTF8⟩

/-- **Reading an address.** The blob that it spells. -/
def parse (url : String) : Except Error Blob :=
  if scheme.isPrefixOf url.toList then
    let rest := url.toList.drop scheme.length
    match rest.dropWhile (· ≠ ',') with
    | [] => .error (.noPayload url)
    | _ :: payload => ofParts (rest.takeWhile (· ≠ ',')) payload
  else .error (.noScheme url)

end DataUrl

end PocketShell
