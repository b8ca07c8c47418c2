/-!
# Texts as bytes

The UTF-8 encoding of a text, and the text of bytes that are such an encoding.
-/

namespace AtomicCommit.Text

/-- The UTF-8 encoding of a text. -/
def utf8 (text : String) : List UInt8 := text.toUTF8.data.toList

/-- The text whose encoding the bytes are, if they are one. -/
def ofUtf8? (bytes : List UInt8) : Option String := String.fromUTF8? ⟨bytes.toArray⟩

/-- A text is read back from its encoding. -/
theorem ofUtf8?_utf8 (text : String) : ofUtf8? (utf8 text) = some text := by
  obtain ⟨⟨bytes⟩, valid⟩ := text
  simp [ofUtf8?, utf8, String.fromUTF8?, String.toUTF8, valid, String.fromUTF8]

end AtomicCommit.Text
