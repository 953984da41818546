/-!
# UTF-8

Decoding follows the well-formed byte sequences of the Unicode standard: the first byte fixes the
length and the range of the second byte, later bytes are continuation bytes. An error tells how many
bytes were good and how long the bad sequence is, or that the bytes end within a sequence that was
good so far.
-/

namespace TypeDictionary.Text.Utf8

structure Error where
  validBytes : Nat
  invalidLength : Option Nat
deriving DecidableEq, Repr

def Error.message (error : Error) : String :=
  match error.invalidLength with
  | some length =>
    s!"invalid utf-8 sequence of {length} bytes from index {error.validBytes}"
  | none => s!"incomplete utf-8 byte sequence from index {error.validBytes}"

/-- The range of the second byte after a first byte of a longer sequence, and the number of
continuation bytes after that. -/
def secondByte? (first : Nat) : Option (Nat × Nat × Nat) :=
  if first < 0xC2 then none
  else if first < 0xE0 then some (0x80, 0xBF, 0)
  else if first = 0xE0 then some (0xA0, 0xBF, 1)
  else if first = 0xED then some (0x80, 0x9F, 1)
  else if first < 0xF0 then some (0x80, 0xBF, 1)
  else if first = 0xF0 then some (0x90, 0xBF, 2)
  else if first < 0xF4 then some (0x80, 0xBF, 2)
  else if first = 0xF4 then some (0x80, 0x8F, 2)
  else none

/-- The bits that a first byte contributes to the code point. -/
def leadBits (first : Nat) : Nat :=
  if first < 0xE0 then first - 0xC0 else if first < 0xF0 then first - 0xE0 else first - 0xF0

def isContinuation (byte : UInt8) : Bool := 0x80 ≤ byte.toNat ∧ byte.toNat ≤ 0xBF

/-- A code point with the bits of one more continuation byte. -/
def shiftIn (code : Nat) (byte : UInt8) : Nat := code * 64 + (byte.toNat - 0x80)

/-- Decodes bytes after `index` good ones; `decoded` holds the characters so far, last first. -/
def decodeFrom (index : Nat) (decoded : List Char) : List UInt8 → Except Error (List Char)
  | [] => .ok decoded.reverse
  | first :: rest =>
    if first.toNat < 0x80 then decodeFrom (index + 1) (Char.ofNat first.toNat :: decoded) rest
    else match secondByte? first.toNat with
      | none => .error ⟨index, some 1⟩
      | some (low, high, more) =>
        match rest with
        | [] => .error ⟨index, none⟩
        | second :: rest =>
          if second.toNat < low ∨ high < second.toNat then .error ⟨index, some 1⟩
          else
            let code := shiftIn (leadBits first.toNat) second
            if more = 0 then decodeFrom (index + 2) (Char.ofNat code :: decoded) rest
            else match rest with
              | [] => .error ⟨index, none⟩
              | third :: rest =>
                if !isContinuation third then .error ⟨index, some 2⟩
                else
                  let code := shiftIn code third
                  if more = 1 then decodeFrom (index + 3) (Char.ofNat code :: decoded) rest
                  else match rest with
                    | [] => .error ⟨index, none⟩
                    | fourth :: rest =>
                      if !isContinuation fourth then .error ⟨index, some 3⟩
                      else
                        decodeFrom (index + 4) (Char.ofNat (shiftIn code fourth) :: decoded) rest

def decode (bytes : List UInt8) : Except Error (List Char) := decodeFrom 0 [] bytes

end TypeDictionary.Text.Utf8
