/-! # Bytes as text

Bytes are read as text in three ways: strictly, where any malformed sequence
refuses the whole; leniently, where each longest malformed piece becomes one
replacement character; and byte by byte, where each byte is the code point of
its own number.
-/

namespace Manuscript.Text

/-- Read every byte as the code point of its own number. -/
def ofLatin1 (bytes : ByteArray) : String :=
  String.ofList (bytes.toList.map fun b => Char.ofNat b.toNat)

/-- How many continuation bytes a lead byte announces and the range of the first of them. -/
def leadByte (b : Nat) : Option (Nat × Nat × Nat) :=
  if 0xc2 ≤ b && b ≤ 0xdf then some (1, 0x80, 0xbf)
  else if b == 0xe0 then some (2, 0xa0, 0xbf)
  else if b == 0xed then some (2, 0x80, 0x9f)
  else if 0xe1 ≤ b && b ≤ 0xef then some (2, 0x80, 0xbf)
  else if b == 0xf0 then some (3, 0x90, 0xbf)
  else if 0xf1 ≤ b && b ≤ 0xf3 then some (3, 0x80, 0xbf)
  else if b == 0xf4 then some (3, 0x80, 0x8f)
  else none

/-- The state of lenient reading: between characters, or inside one with the bits so far, the
number of continuation bytes to come and the range of the next of them. -/
inductive Partial where
  | none
  | inside (bits : Nat) (missing : Nat) (low high : Nat)

/-- Start a character at a byte. -/
def startChar (b : Nat) : List Char × Partial :=
  if b < 0x80 then ([Char.ofNat b], .none)
  else
    match leadByte b with
    | some (missing, low, high) =>
      ([], .inside (b % Nat.pow 2 (6 - missing)) missing low high)
    | none => (['\ufffd'], .none)

/-- Read bytes leniently from a state. -/
def lossyFrom : Partial → List UInt8 → List Char
  | .none, [] => []
  | .inside .., [] => ['\ufffd']
  | state, byte :: rest =>
    let b := byte.toNat
    match state with
    | .none =>
      let (out, next) := startChar b
      out ++ lossyFrom next rest
    | .inside bits missing low high =>
      if low ≤ b && b ≤ high then
        let bits := bits * 64 + b % 64
        if missing ≤ 1 then Char.ofNat bits :: lossyFrom .none rest
        else lossyFrom (.inside bits (missing - 1) 0x80 0xbf) rest
      else
        let (out, next) := startChar b
        '\ufffd' :: out ++ lossyFrom next rest

/-- Read bytes, writing a replacement character for each malformed piece. -/
def ofUtf8Lossy (bytes : ByteArray) : String :=
  String.ofList (lossyFrom .none bytes.toList)

/-- Read bytes strictly, or else byte by byte. The flag says whether strict reading worked. -/
def decode (bytes : ByteArray) : String × Bool :=
  match String.fromUTF8? bytes with
  | some s => (s, true)
  | none => (ofLatin1 bytes, false)

/-- What a text is encoded to is read as that text. -/
theorem fromUTF8?_toUTF8 (s : String) : String.fromUTF8? s.toUTF8 = some s := by
  have hvalid : s.toUTF8.IsValidUTF8 := s.isValidUTF8
  rw [String.fromUTF8?, dif_pos hvalid]
  rfl

theorem decode_toUTF8 (s : String) : decode s.toUTF8 = (s, true) := by
  rw [decode, fromUTF8?_toUTF8]

end Manuscript.Text
