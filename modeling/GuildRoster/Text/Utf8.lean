/-!
# Bytes and text

Text in bytes: its UTF-8 form, and the text of bytes that are such a form.
-/

set_option autoImplicit false

namespace GuildRoster.Text

def byteLength : List Char → Nat
  | [] => 0
  | character :: rest => character.utf8Size + byteLength rest

def decode? (bytes : List UInt8) : Option String := String.fromUTF8? ⟨bytes.toArray⟩

def encode (text : String) : List UInt8 := text.toUTF8.toList

end GuildRoster.Text
