import NoteDigest.Text.Basic

/-! # UTF-8 — texts as bytes and bytes as texts

    Decoding is strict: overlong forms, surrogates, code points above U+10FFFF and
    cut-off sequences are refused, and a byte order mark is kept as a character.
    `ofUtf8?_toUtf8` says that what was encoded decodes to itself. -/

namespace NoteDigest.Text

/-- The UTF-8 bytes of a text. -/
def toUtf8 (text : Text) : ByteArray :=
  (String.ofList text).toUTF8

/-- The text that some bytes encode, if they are valid UTF-8. -/
def ofUtf8? (bytes : ByteArray) : Option Text :=
  bytes.utf8Decode?.map Array.toList

theorem ofUtf8?_toUtf8 (text : Text) : ofUtf8? (toUtf8 text) = some text := by
  simp [ofUtf8?, toUtf8]

end NoteDigest.Text
