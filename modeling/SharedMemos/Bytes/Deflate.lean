/-!
# Compressed bytes

The zlib format: a header of two bytes, then blocks of bits, in which code words stand for bytes and
for copies of bytes before them. `Deflate.expand?` gives the bytes that the blocks stand for, as far
as they go; a checksum after the blocks is not looked at.
-/

namespace SharedMemos.Bytes.Deflate

/-- Why reading stops. -/
inductive Stop where
  /-- The bits come to an end. -/
  | short
  /-- The bits go wrong. -/
  | corrupt
deriving Repr, DecidableEq

/-- How far reading is. -/
structure Progress where
  /-- The number of bits that have been read. -/
  place : Nat := 0
  /-- The bytes that the bits so far stand for. -/
  output : ByteArray := .empty

/-- A reader of the bits of bytes. The bytes that it has put out stay where it stops. -/
abbrev Reader (α : Type) := ReaderT ByteArray (ExceptT Stop (StateM Progress)) α

/-! ### Bits -/

/-- The next bit. Those of a byte come from the lowest on. -/
def bit : Reader Nat := do
  let input ← read
  let place := (← get).place
  match input[place / 8]? with
  | some byte =>
    modify fun p => { p with place := place + 1 }
    return (byte.toNat >>> (place % 8)) % 2
  | none => throw .short

/-- The number of the next bits, lowest first. -/
def bits : (count : Nat) → Reader Nat
  | 0 => return 0
  | count + 1 => do
    let low ← bit
    let high ← bits count
    return low + 2 * high

/-- Passes over the bits that are left of a byte. -/
def align : Reader Unit :=
  modify fun p => { p with place := (p.place + 7) / 8 * 8 }

/-! ### Bytes -/

/-- Puts a byte out. -/
def emit (byte : UInt8) : Reader Unit :=
  modify fun p => { p with output := p.output.push byte }

/-- Bytes followed by a copy of those at a distance before their end, byte after byte, so that the
copy may run into itself. -/
def copied (distance : Nat) : (length : Nat) → ByteArray → ByteArray
  | 0, bytes => bytes
  | length + 1, bytes =>
    match bytes[bytes.size - distance]? with
    | some byte => copied distance length (bytes.push byte)
    | none => bytes

/-- Puts bytes out again. -/
def repeatBytes (length distance : Nat) : Reader Unit := do
  if (← get).output.size < distance then throw .corrupt
  modify fun p => { p with output := copied distance length p.output }

/-! ### Code words -/

/-- A prefix code: for each length of code words, from one bit on, the symbols of that length, in
the order of their code words. Code words of one length follow each other, after the extensions of
all shorter ones. -/
abbrev PrefixCode := List (Array Nat)

namespace PrefixCode

/-- The code in which the code words of the symbols from zero on have the given lengths. A symbol
with length zero has none. -/
def ofLengths (lengths : List Nat) : PrefixCode :=
  (List.range 15).map fun n =>
    ((lengths.zipIdx.filter (·.1 == n + 1)).map (·.2)).toArray

/-- Does every long enough sequence of bits start with one code word? -/
def isComplete (code : PrefixCode) : Bool :=
  code.foldl (fun (free : Int) symbols => 2 * free - symbols.size) 1 == 0

/-- The number of symbols. -/
def size (code : PrefixCode) : Nat :=
  code.foldl (fun n symbols => n + symbols.size) 0

/-- Has the code no more than one code word, of one bit? -/
def isTrivial (code : PrefixCode) : Bool :=
  code.size == 0 || code.size == 1 && (code.head?.any (·.size == 1))

/-- The symbol of the next code word. Of the bits so far only their distance from the first
extension that is no code word matters. -/
def symbol : PrefixCode → (offset : Nat) → Reader Nat
  | [], _ => throw .corrupt
  | symbols :: longer, offset => do
    let offset := 2 * offset + (← bit)
    match symbols[offset]? with
    | some s => return s
    | none => symbol longer (offset - symbols.size)

end PrefixCode

/-- The length that a symbol above 256 stands for. -/
def length (symbol : Nat) : Reader Nat :=
  let n := symbol - 257
  if n < 8 then return n + 3
  else if n < 28 then do
    let extra := n / 4 - 1
    return ((4 + n % 4) <<< extra) + 3 + (← bits extra)
  else if n = 28 then return 258
  else throw .corrupt

/-- The distance that a symbol stands for. -/
def distance (symbol : Nat) : Reader Nat :=
  if symbol < 2 then return symbol + 1
  else if symbol < 30 then do
    let extra := symbol / 2 - 1
    return ((2 + symbol % 2) <<< extra) + 1 + (← bits extra)
  else throw .corrupt

/-! ### Blocks -/

/-- Reads code words up to the one that ends a block. Every code word takes up a bit, so that
`budget` need not be more than their number. -/
def codeWords (literals distances : PrefixCode) : (budget : Nat) → Reader Unit
  | 0 => throw .short
  | budget + 1 => do
    let s ← literals.symbol 0
    if s < 256 then
      emit s.toUInt8
      codeWords literals distances budget
    else if s = 256 then return
    else
      let n ← length s
      let d ← distances.symbol 0
      let d ← distance d
      repeatBytes n d
      codeWords literals distances budget

/-- The code for bytes and lengths in a block that does not say one. -/
def plainLiterals : PrefixCode :=
  .ofLengths (List.replicate 144 8 ++ List.replicate 112 9 ++ List.replicate 24 7
    ++ List.replicate 8 8)

/-- The code for distances in a block that does not say one. -/
def plainDistances : PrefixCode :=
  .ofLengths (List.replicate 32 5)

/-- The order in which the lengths of code words for lengths are written. -/
def lengthOrder : List Nat :=
  [16, 17, 18, 0, 8, 7, 9, 6, 10, 5, 11, 4, 12, 3, 13, 2, 14, 1, 15]

/-- Reads lengths of code words until there are `count`; those in `acc`, newest first, come before.
Every code word stands for a length at least, so that `count` is budget enough. -/
def lengths (code : PrefixCode) (count : Nat) : (budget : Nat) → (acc : List Nat) →
    Reader (List Nat)
  | 0, acc => if acc.length = count then return acc.reverse else throw .corrupt
  | budget + 1, acc => do
    if count ≤ acc.length then lengths code count 0 acc
    else
      let s ← code.symbol 0
      if s < 16 then lengths code count budget (s :: acc)
      else if s = 16 then
        match acc with
        | [] => throw .corrupt
        | last :: _ =>
          let n ← bits 2
          lengths code count budget (List.replicate (3 + n) last ++ acc)
      else
        let n ← if s = 17 then (3 + ·) <$> bits 3 else (11 + ·) <$> bits 7
        lengths code count budget (List.replicate n 0 ++ acc)

/-- Numbers of three bits. -/
def triples : (count : Nat) → Reader (List Nat)
  | 0 => return []
  | count + 1 => do
    let n ← bits 3
    let more ← triples count
    return n :: more

/-- Reads the two codes that a block says. -/
def codes : Reader (PrefixCode × PrefixCode) := do
  let literals := 257 + (← bits 5)
  let distances := 1 + (← bits 5)
  let orders := 4 + (← bits 4)
  if 286 < literals || 30 < distances then throw .corrupt
  let given := lengthOrder.zip (← triples orders)
  let code := PrefixCode.ofLengths ((List.range 19).map fun n => (given.lookup n).getD 0)
  if !code.isComplete then throw .corrupt
  let all ← lengths code (literals + distances) (literals + distances) []
  let literalCode := PrefixCode.ofLengths (all.take literals)
  let distanceCode := PrefixCode.ofLengths (all.drop literals)
  if !literalCode.isComplete || all[256]? == some 0 then throw .corrupt
  if !distanceCode.isComplete && !distanceCode.isTrivial then throw .corrupt
  return (literalCode, distanceCode)

/-- Reads bytes that are written as they are. -/
def verbatim : (count : Nat) → Reader Unit
  | 0 => return
  | count + 1 => do
    emit (← bits 8).toUInt8
    verbatim count

/-- Reads a block whose bytes are written as they are. -/
def stored : Reader Unit := do
  align
  let count ← bits 16
  let check ← bits 16
  if count + check ≠ 0xffff then throw .corrupt
  verbatim count

/-- Reads blocks up to the last one. Every block takes up a bit, so that `budget` need not be more
than their number. -/
def blocks (bitCount : Nat) : (budget : Nat) → Reader Unit
  | 0 => throw .short
  | budget + 1 => do
    let last ← bit
    match ← bits 2 with
    | 0 => stored
    | 1 => codeWords plainLiterals plainDistances bitCount
    | 2 =>
      let (literals, distances) ← codes
      codeWords literals distances bitCount
    | _ => throw .corrupt
    if last = 0 then blocks bitCount budget

/-- Reads the header: the method, the size of the window, and a check; no preset bytes. -/
def header : Reader Unit := do
  let method ← bits 8
  let flags ← bits 8
  if method % 16 ≠ 8 || 0x70 < method / 16 * 16 || flags / 32 % 2 = 1
      || (256 * method + flags) % 31 ≠ 0 then
    throw .corrupt

/-- The bytes that compressed bytes stand for, as far as these go; none where they go wrong. -/
def expand? (input : ByteArray) : Option ByteArray :=
  let bitCount := 8 * input.size
  let read : Reader Unit := do
    header
    blocks bitCount bitCount
  match ((read.run input).run).run {} with
  | (.error .corrupt, _) => none
  | (_, progress) => some progress.output

end SharedMemos.Bytes.Deflate
