import StepRunner.Bytes

namespace StepRunner.Utf8

def encode (text : String) : Bytes := text.toByteArray.data.toList

/-- Refuses bytes that are not well-formed UTF-8. -/
def decode? (bytes : Bytes) : Option String := String.fromUTF8? ⟨bytes.toArray⟩

theorem decode?_encode (text : String) : decode? (encode text) = some text := by
  have h : (⟨(encode text).toArray⟩ : ByteArray) = text.toByteArray := by simp [encode]
  simp only [decode?, h, String.fromUTF8?, text.isValidUTF8, dite_true]
  rfl

/-- A text has no other spelling. -/
theorem encode_of_decode? {bytes : Bytes} {text : String} (h : decode? bytes = some text) :
    encode text = bytes := by
  rw [decode?, String.fromUTF8?] at h
  split at h
  · cases h
    rfl
  · cases h

end StepRunner.Utf8
