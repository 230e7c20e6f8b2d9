import SqlBatch.Text.Basic
/-!
# UTF-8

Texts as bytes and bytes as texts.  Decoding stops at the first byte that rules UTF-8 out, or where
the bytes end within a character, and says which of the two it met and where.
-/

namespace SqlBatch.Utf8

/-! ## Encoding -/

def encodeChar (c : Char) : List UInt8 :=
  let n := c.toNat
  if n < 0x80 then [UInt8.ofNat n]
  else if n < 0x800 then [UInt8.ofNat (0xC0 + n / 64), UInt8.ofNat (0x80 + n % 64)]
  else if n < 0x10000 then
    [UInt8.ofNat (0xE0 + n / 4096), UInt8.ofNat (0x80 + n / 64 % 64), UInt8.ofNat (0x80 + n % 64)]
  else
    [UInt8.ofNat (0xF0 + n / 262144), UInt8.ofNat (0x80 + n / 4096 % 64),
      UInt8.ofNat (0x80 + n / 64 % 64), UInt8.ofNat (0x80 + n % 64)]

def encode (text : Text) : List UInt8 := text.flatMap encodeChar

def size (text : Text) : Nat := (encode text).length

/-! ## Decoding -/

/-- Why bytes are not UTF-8.  Both name the index of the first byte that belongs to no character. -/
inductive Fault where
  /-- The `length` bytes from there start no character. -/
  | invalid (length index : Nat)
  /-- The bytes end within the character that starts there. -/
  | truncated (index : Nat)
  deriving DecidableEq, Repr

def Fault.message : Fault → Text
  | .invalid length index =>
    "invalid utf-8 sequence of ".toList ++ Nat.toDigits 10 length ++ " bytes from index ".toList ++
      Nat.toDigits 10 index
  | .truncated index =>
    "incomplete utf-8 byte sequence from index ".toList ++ Nat.toDigits 10 index

/-- The bytes that may come second after a first byte of two to four. -/
def secondRange? (first : Nat) : Option (Nat × Nat) :=
  if first < 0xC2 then none
  else if first < 0xE0 then some (0x80, 0xBF)
  else if first = 0xE0 then some (0xA0, 0xBF)
  else if first = 0xED then some (0x80, 0x9F)
  else if first < 0xF0 then some (0x80, 0xBF)
  else if first = 0xF0 then some (0x90, 0xBF)
  else if first < 0xF4 then some (0x80, 0xBF)
  else if first = 0xF4 then some (0x80, 0x8F)
  else none

def within (range : Nat × Nat) (byte : UInt8) : Bool :=
  range.1 ≤ byte.toNat && byte.toNat ≤ range.2

def isTail (byte : UInt8) : Bool := within (0x80, 0xBF) byte

def tailBits (byte : UInt8) : Nat := byte.toNat - 0x80

/-- Decodes bytes that start at `index`, `done` being what was decoded before, last character
first. -/
def decodeFrom (index : Nat) (done : Text) : List UInt8 → Except Fault Text
  | [] => .ok done.reverse
  | a :: rest =>
    if a.toNat < 0x80 then decodeFrom (index + 1) (Char.ofNat a.toNat :: done) rest
    else match secondRange? a.toNat with
    | none => .error (.invalid 1 index)
    | some range =>
      match rest with
      | [] => .error (.truncated index)
      | b :: rest =>
        if !within range b then .error (.invalid 1 index)
        else if a.toNat < 0xE0 then
          decodeFrom (index + 2) (Char.ofNat ((a.toNat - 0xC0) * 64 + tailBits b) :: done) rest
        else match rest with
        | [] => .error (.truncated index)
        | c :: rest =>
          if !isTail c then .error (.invalid 2 index)
          else if a.toNat < 0xF0 then
            decodeFrom (index + 3)
              (Char.ofNat ((a.toNat - 0xE0) * 4096 + tailBits b * 64 + tailBits c) :: done) rest
          else match rest with
          | [] => .error (.truncated index)
          | d :: rest =>
            if !isTail d then .error (.invalid 3 index)
            else
              decodeFrom (index + 4)
                (Char.ofNat ((a.toNat - 0xF0) * 262144 + tailBits b * 4096 + tailBits c * 64 +
                  tailBits d) :: done) rest

def decode (bytes : List UInt8) : Except Fault Text := decodeFrom 0 [] bytes

end SqlBatch.Utf8
