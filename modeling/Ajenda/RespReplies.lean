import Ajenda.WireText

/-!
# Replies in RESP form

The replies of Redis as bytes, and `_read_response`, which reads one from a connection. What is
left of the connection is the state; at its end nothing more can be read.
-/
namespace Ajenda.Resp
open WireText (Bytes DecimalDigits encode decode readInt)

def crlf : Bytes := [13, 10]

/-- The bytes of a line, without a line break. -/
structure Line where
  bytes : Bytes
  unbroken : ∀ b ∈ bytes, b ≠ 10 ∧ b ≠ 13

inductive Reply
  | simple (line : Line)
  | error (line : Line)
  | integer (z : Int64)
  | bulk (data : Bytes)
  | nullBulk
  | nullArray
  | array (items : List Reply)

/-- The decimal text of a number as a line. -/
def decimal (z : ℤ) : Line := ⟨encode (toString z), WireText.decimal_bytes z⟩

/-- A line behind the byte that says what it is. -/
def tagged (tag : UInt8) (line : Line) : Bytes := tag :: (line.bytes ++ crlf)

mutual

/-- A reply in RESP form. -/
def Reply.encode : Reply → Bytes
  | .simple line => tagged 43 line
  | .error line => tagged 45 line
  | .integer z => tagged 58 (decimal z.toInt)
  | .bulk data => tagged 36 (decimal data.length) ++ (data ++ crlf)
  | .nullBulk => tagged 36 (decimal (-1))
  | .nullArray => tagged 42 (decimal (-1))
  | .array items => tagged 42 (decimal items.length) ++ encodeAll items

def encodeAll : List Reply → Bytes
  | [] => []
  | r :: rs => r.encode ++ encodeAll rs

end

/-- What reading a reply returns. -/
inductive Value
  | str (text : String)
  | int (z : ℤ)
  | none
  | list (values : List Value)

inductive RespError
  | redisProtocol (message : String)
  | unicodeDecode
  | value
  | recursion
  deriving DecidableEq

abbrev Reader (α : Type) := EStateM RespError Bytes α

section Connection

/-- `file_obj.read(count)`. -/
def readBytes (count : ℕ) : Reader Bytes := fun bytes => .ok (bytes.take count) (bytes.drop count)

/-- `file_obj.readline()`: up to the next newline, or what is left. -/
def readLineBytes : Reader Bytes := fun bytes =>
  match bytes.dropWhile (· ≠ 10) with
  | [] => .ok bytes []
  | newline :: rest => .ok (bytes.takeWhile (· ≠ 10) ++ [newline]) rest

def decodeOrRaise (bytes : Bytes) : Reader String :=
  match decode bytes with
  | some text => pure text
  | none => throw .unicodeDecode

/-- `_read_line`. The calls that may still be nested are counted by `frames`. -/
def readLine : ℕ → Reader String
  | 0 => throw .recursion
  | _ + 1 => do
    let line ← readLineBytes
    if crlf.isSuffixOf line then decodeOrRaise line.dropLast.dropLast
    else throw (.redisProtocol "malformed Redis line response")

def intOrRaise (D : DecimalDigits) (text : String) : Reader ℤ :=
  match readInt D text with
  | some z => pure z
  | none => throw .value

/-- `file_obj.read(length)` of a length that was read. -/
def readBody (length : ℤ) : Reader Bytes :=
  if length < 0 then throw .value
  else readBytes length.toNat

/-- `[read() for _ in range(length)]`. -/
def readItems (read : Reader Value) : ℕ → Reader (List Value)
  | 0 => pure []
  | n + 1 => do
    let value ← read
    let values ← readItems read n
    return value :: values

/-- The text of a byte in `repr`. -/
def reprByte (b : UInt8) : String :=
  let hex (n : ℕ) : Char := Nat.digitChar n
  if b = 39 then "b\"'\""
  else if b = 92 then "b'\\\\'"
  else if b = 9 then "b'\\t'"
  else if b = 10 then "b'\\n'"
  else if b = 13 then "b'\\r'"
  else if 32 ≤ b ∧ b < 127 then "b'" ++ String.singleton (Char.ofNat b.toNat) ++ "'"
  else "b'\\x" ++ String.ofList [hex (b.toNat / 16), hex (b.toNat % 16)] ++ "'"

/-- `_read_response` after the byte that says what the reply is; `read` reads an item. -/
def readTagged (D : DecimalDigits) (read : Reader Value) (frames : ℕ) (tag : UInt8) :
    Reader Value := do
  if tag = 43 then
    return .str (← readLine frames)
  else if tag = 45 then
    throw (.redisProtocol (← readLine frames))
  else if tag = 58 then
    return .int (← intOrRaise D (← readLine frames))
  else if tag = 36 then
    let length ← intOrRaise D (← readLine frames)
    if length = -1 then return .none
    else
      let data ← readBody length
      let _ ← readBytes 2
      return .str (← decodeOrRaise data)
  else if tag = 42 then
    let length ← intOrRaise D (← readLine frames)
    if length = -1 then return .none
    else return .list (← readItems read length.toNat)
  else throw (.redisProtocol ("unsupported Redis response prefix: " ++ reprByte tag))

/-- `_read_response`. -/
def readResponse (D : DecimalDigits) : ℕ → Reader Value
  | 0 => throw .recursion
  | frames + 1 => do
    match ← readBytes 1 with
    | [] => throw (.redisProtocol "empty response from Redis")
    | tag :: _ => readTagged D (readResponse D frames) frames tag

end Connection

end Ajenda.Resp
