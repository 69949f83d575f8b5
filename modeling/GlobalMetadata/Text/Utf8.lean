/-!
# UTF-8

Names and literals are stored as UTF-8. `decode` reads a whole byte list and says, when the bytes
are not well-formed, where the first ill-formed sequence starts and how many of its bytes are known
to be wrong, or that the bytes end inside a character that has been well-formed so far.

A character takes one to four bytes. The first byte fixes the number of bytes; the range of the
second depends on the first (it excludes overlong forms, surrogates and code points above 10FFFF);
the remaining ones lie between 80 and BF.
-/

namespace GlobalMetadata.Utf8

/-- What is wrong with a byte list that is not UTF-8. -/
inductive Fault
  /-- The `length` bytes from `start` on begin no character. -/
  | invalid (length start : Nat)
  /-- The bytes end within the character that starts at `start`. -/
  | incomplete (start : Nat)
  deriving DecidableEq, Repr

/-- The wording of a fault. -/
def Fault.message : Fault → String
  | .invalid length start => s!"invalid utf-8 sequence of {length} bytes from index {start}"
  | .incomplete start => s!"incomplete utf-8 byte sequence from index {start}"

/-- The number of bytes that a first byte announces, 0 for a byte that starts no character. -/
def announced (b : UInt8) : Nat :=
  if b < 0x80 then 1
  else if 0xC2 ≤ b ∧ b ≤ 0xDF then 2
  else if 0xE0 ≤ b ∧ b ≤ 0xEF then 3
  else if 0xF0 ≤ b ∧ b ≤ 0xF4 then 4
  else 0

/-- A byte that continues a character. -/
def isTail (b : UInt8) : Bool :=
  0x80 ≤ b && b ≤ 0xBF

/-- The bytes that may follow the first byte `b` of a character. -/
def mayFollow (b c : UInt8) : Bool :=
  if b = 0xE0 then 0xA0 ≤ c && c ≤ 0xBF
  else if b = 0xED then 0x80 ≤ c && c ≤ 0x9F
  else if b = 0xF0 then 0x90 ≤ c && c ≤ 0xBF
  else if b = 0xF4 then 0x80 ≤ c && c ≤ 0x8F
  else isTail c

/-- The six payload bits of a continuation byte. -/
def payload (b : UInt8) : Nat :=
  b.toNat % 64

/-- Decodes the bytes that stand at position `i` of a text. -/
def decodeFrom (i : Nat) : List UInt8 → Except Fault (List Char)
  | [] => .ok []
  | a :: rest =>
    match announced a with
    | 1 => (Char.ofNat a.toNat :: ·) <$> decodeFrom (i + 1) rest
    | 2 =>
      match rest with
      | [] => .error (.incomplete i)
      | b :: rest =>
        if mayFollow a b then
          (Char.ofNat (a.toNat % 32 * 64 + payload b) :: ·) <$> decodeFrom (i + 2) rest
        else .error (.invalid 1 i)
    | 3 =>
      match rest with
      | [] => .error (.incomplete i)
      | [b] => .error (if mayFollow a b then .incomplete i else .invalid 1 i)
      | b :: c :: rest =>
        if !mayFollow a b then .error (.invalid 1 i)
        else if !isTail c then .error (.invalid 2 i)
        else
          (Char.ofNat (a.toNat % 16 * 4096 + payload b * 64 + payload c) :: ·) <$>
            decodeFrom (i + 3) rest
    | 4 =>
      match rest with
      | [] => .error (.incomplete i)
      | [b] => .error (if mayFollow a b then .incomplete i else .invalid 1 i)
      | [b, c] =>
        .error (if !mayFollow a b then .invalid 1 i
          else if !isTail c then .invalid 2 i else .incomplete i)
      | b :: c :: d :: rest =>
        if !mayFollow a b then .error (.invalid 1 i)
        else if !isTail c then .error (.invalid 2 i)
        else if !isTail d then .error (.invalid 3 i)
        else
          (Char.ofNat (a.toNat % 8 * 262144 + payload b * 4096 + payload c * 64 + payload d) :: ·)
            <$> decodeFrom (i + 4) rest
    | _ => .error (.invalid 1 i)

/-- **Decoding.** The text that the bytes spell, or the first fault in them. -/
def decode (bytes : List UInt8) : Except Fault String :=
  String.ofList <$> decodeFrom 0 bytes

/-- The text that the bytes spell, if they are UTF-8. -/
def decode? (bytes : List UInt8) : Option String :=
  (decode bytes).toOption

end GlobalMetadata.Utf8
