/-!
Values inside brackets are written with percent escapes for everything that could be taken for
syntax. `encode` writes them; reading goes by `unescape?`, to bytes, and `decodeUtf8?`, to text.
-/
namespace AggregateQuery.Text.Percent

def hexValue? (c : Char) : Option Nat :=
  if '0' ≤ c ∧ c ≤ '9' then some (c.toNat - '0'.toNat)
  else if 'A' ≤ c ∧ c ≤ 'F' then some (c.toNat - 'A'.toNat + 10)
  else if 'a' ≤ c ∧ c ≤ 'f' then some (c.toNat - 'a'.toNat + 10)
  else none

def hexDigit (n : Nat) : Char :=
  if n < 10 then Char.ofNat ('0'.toNat + n) else Char.ofNat ('A'.toNat + (n - 10))

def escapeByte (b : UInt8) : List Char := ['%', hexDigit (b.toNat / 16), hexDigit (b.toNat % 16)]

/-- The characters written as themselves: the visible characters of ASCII, less those that
delimit clauses and values. -/
def isPlain (c : Char) : Bool :=
  0x20 < c.toNat && c.toNat < 0x7F &&
    c != '%' && c != ',' && c != ';' && c != '[' && c != ']' && c != '"'

def encodeChar (c : Char) : List Char :=
  if isPlain c then [c] else (String.utf8EncodeChar c).flatMap escapeByte

def encode (value : List Char) : List Char := value.flatMap encodeChar

/-- The bytes of a written value: an escape stands for its byte, another character for its UTF-8
bytes. A `%` that starts no escape has no reading. -/
def unescape? : List Char → Option (List UInt8)
  | [] => some []
  | '%' :: high :: low :: rest => do
    let h ← hexValue? high
    let l ← hexValue? low
    return UInt8.ofNat (16 * h + l) :: (← unescape? rest)
  | c :: rest =>
    if c = '%' then none else (unescape? rest).map (String.utf8EncodeChar c ++ ·)

def decodeUtf8? (bytes : List UInt8) : Option (List Char) :=
  bytes.toByteArray.utf8Decode?.map Array.toList

end AggregateQuery.Text.Percent
