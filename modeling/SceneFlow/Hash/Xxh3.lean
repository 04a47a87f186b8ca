/-!
# The XXH3 hash of 128 bits

A hash of byte strings with a seed. Short inputs are mixed with the secret directly, by a scheme
that depends on the length; inputs beyond 240 bytes run in stripes of 64 bytes through eight
accumulators, with a secret that is derived from the seed.
-/

namespace SceneFlow.Xxh3

/-- A number of 128 bits in two halves. -/
structure Wide where
  /-- The lower half. -/
  low : UInt64
  /-- The upper half. -/
  high : UInt64
deriving DecidableEq, Repr

/-- The bytes that inputs are mixed with. -/
def secret : ByteArray :=
  ⟨#[0xb8, 0xfe, 0x6c, 0x39, 0x23, 0xa4, 0x4b, 0xbe, 0x7c, 0x01, 0x81, 0x2c,
    0xf7, 0x21, 0xad, 0x1c, 0xde, 0xd4, 0x6d, 0xe9, 0x83, 0x90, 0x97, 0xdb,
    0x72, 0x40, 0xa4, 0xa4, 0xb7, 0xb3, 0x67, 0x1f, 0xcb, 0x79, 0xe6, 0x4e,
    0xcc, 0xc0, 0xe5, 0x78, 0x82, 0x5a, 0xd0, 0x7d, 0xcc, 0xff, 0x72, 0x21,
    0xb8, 0x08, 0x46, 0x74, 0xf7, 0x43, 0x24, 0x8e, 0xe0, 0x35, 0x90, 0xe6,
    0x81, 0x3a, 0x26, 0x4c, 0x3c, 0x28, 0x52, 0xbb, 0x91, 0xc3, 0x00, 0xcb,
    0x88, 0xd0, 0x65, 0x8b, 0x1b, 0x53, 0x2e, 0xa3, 0x71, 0x64, 0x48, 0x97,
    0xa2, 0x0d, 0xf9, 0x4e, 0x38, 0x19, 0xef, 0x46, 0xa9, 0xde, 0xac, 0xd8,
    0xa8, 0xfa, 0x76, 0x3f, 0xe3, 0x9c, 0x34, 0x3f, 0xf9, 0xdc, 0xbb, 0xc7,
    0xc7, 0x0b, 0x4f, 0x1d, 0x8a, 0x51, 0xe0, 0x4b, 0xcd, 0xb4, 0x59, 0x31,
    0xc8, 0x9f, 0x7e, 0xc9, 0xd9, 0x78, 0x73, 0x64, 0xea, 0xc5, 0xac, 0x83,
    0x34, 0xd3, 0xeb, 0xc3, 0xc5, 0x81, 0xa0, 0xff, 0xfa, 0x13, 0x63, 0xeb,
    0x17, 0x0d, 0xdd, 0x51, 0xb7, 0xf0, 0xda, 0x49, 0xd3, 0x16, 0x55, 0x26,
    0x29, 0xd4, 0x68, 0x9e, 0x2b, 0x16, 0xbe, 0x58, 0x7d, 0x47, 0xa1, 0xfc,
    0x8f, 0xf8, 0xb8, 0xd1, 0x7a, 0xd0, 0x31, 0xce, 0x45, 0xcb, 0x3a, 0x8f,
    0x95, 0x16, 0x04, 0x28, 0xaf, 0xd7, 0xfb, 0xca, 0xbb, 0x4b, 0x40, 0x7e]⟩

/-! ### Constants -/

/-- The first prime of 32 bits. -/
def prime32A : UInt64 := 0x9E3779B1
/-- The second prime of 32 bits. -/
def prime32B : UInt64 := 0x85EBCA77
/-- The third prime of 32 bits. -/
def prime32C : UInt64 := 0xC2B2AE3D
/-- The first prime of 64 bits. -/
def prime64A : UInt64 := 0x9E3779B185EBCA87
/-- The second prime of 64 bits. -/
def prime64B : UInt64 := 0xC2B2AE3D27D4EB4F
/-- The third prime of 64 bits. -/
def prime64C : UInt64 := 0x165667B19E3779F9
/-- The fourth prime of 64 bits. -/
def prime64D : UInt64 := 0x85EBCA77C2B2AE63
/-- The fifth prime of 64 bits. -/
def prime64E : UInt64 := 0x27D4EB2F165667C5
/-- The multiplier of the last mixing step. -/
def mixA : UInt64 := 0x165667919E3779F9
/-- The multiplier of the mixing step for inputs of four to eight bytes. -/
def mixB : UInt64 := 0x9FB21C651E98DF25

/-! ### Words -/

/-- The byte at a place, zero behind the end. -/
def byteAt (bytes : ByteArray) (i : Nat) : UInt64 :=
  if h : i < bytes.size then bytes[i].toUInt64 else 0

/-- The word of 32 bits at a place, the lowest byte first. -/
def word32 (bytes : ByteArray) (i : Nat) : UInt64 :=
  byteAt bytes i ||| byteAt bytes (i + 1) <<< 8 ||| byteAt bytes (i + 2) <<< 16
    ||| byteAt bytes (i + 3) <<< 24

/-- The word of 64 bits at a place, the lowest byte first. -/
def word64 (bytes : ByteArray) (i : Nat) : UInt64 :=
  word32 bytes i ||| word32 bytes (i + 4) <<< 32

/-- A word of 32 bits with its bytes in the opposite order. -/
def swap32 (x : UInt64) : UInt64 :=
  let byte := fun (n : UInt64) => x >>> n &&& (0xFF : UInt64)
  byte 0 <<< 24 ||| byte 8 <<< 16 ||| byte 16 <<< 8 ||| byte 24

/-- A word with its bytes in the opposite order. -/
def swap64 (x : UInt64) : UInt64 :=
  swap32 (x &&& 0xFFFFFFFF) <<< 32 ||| swap32 (x >>> 32)

/-- A word of 32 bits turned left. -/
def rotate32 (x : UInt64) (n : UInt64) : UInt64 :=
  (x <<< n ||| x >>> (32 - n)) &&& 0xFFFFFFFF

/-- The full product of two words. -/
def product (a b : UInt64) : Wide :=
  let p := a.toNat * b.toNat
  ⟨UInt64.ofNat p, UInt64.ofNat (p / UInt64.size)⟩

/-- The halves of the full product, folded into one word. -/
def foldedProduct (a b : UInt64) : UInt64 :=
  let p := product a b
  p.low ^^^ p.high

/-- The last mixing step. -/
def avalanche (h : UInt64) : UInt64 :=
  let h := h ^^^ h >>> 37
  let h := h * mixA
  h ^^^ h >>> 32

/-- The last mixing step for the shortest inputs. -/
def shortAvalanche (h : UInt64) : UInt64 :=
  let h := (h ^^^ h >>> 33) * prime64B
  let h := (h ^^^ h >>> 29) * prime64C
  h ^^^ h >>> 32

/-! ### Up to 16 bytes -/

/-- The hash of no bytes. -/
def hashEmpty (seed : UInt64) : Wide where
  low := shortAvalanche (seed ^^^ word64 secret 64 ^^^ word64 secret 72)
  high := shortAvalanche (seed ^^^ word64 secret 80 ^^^ word64 secret 88)

/-- The hash of one to three bytes. -/
def hash3 (seed : UInt64) (input : ByteArray) : Wide :=
  let size := input.size
  let low := byteAt input 0 <<< 16 ||| byteAt input (size / 2) <<< 24 ||| byteAt input (size - 1)
    ||| size.toUInt64 <<< 8
  let high := rotate32 (swap32 low) 13
  { low := shortAvalanche (low ^^^ ((word32 secret 0 ^^^ word32 secret 4) + seed))
    high := shortAvalanche (high ^^^ ((word32 secret 8 ^^^ word32 secret 12) - seed)) }

/-- The hash of four to eight bytes. -/
def hash8 (seed : UInt64) (input : ByteArray) : Wide :=
  let size := input.size
  let seed := seed ^^^ swap32 (seed &&& 0xFFFFFFFF) <<< 32
  let word := word32 input 0 + word32 input (size - 4) <<< 32
  let p := product (word ^^^ ((word64 secret 16 ^^^ word64 secret 24) + seed))
    (prime64A + size.toUInt64 <<< 2)
  let high := p.high + p.low <<< 1
  let low := p.low ^^^ high >>> 3
  let low := (low ^^^ low >>> 35) * mixB
  { low := low ^^^ low >>> 28, high := avalanche high }

/-- The hash of nine to sixteen bytes. -/
def hash16 (seed : UInt64) (input : ByteArray) : Wide :=
  let size := input.size
  let flipLow := (word64 secret 32 ^^^ word64 secret 40) - seed
  let flipHigh := (word64 secret 48 ^^^ word64 secret 56) + seed
  let first := word64 input 0
  let last := word64 input (size - 8)
  let p := product (first ^^^ last ^^^ flipLow) prime64A
  let low := p.low + (size - 1).toUInt64 <<< 54
  let last := last ^^^ flipHigh
  let high := p.high + last + (last &&& 0xFFFFFFFF) * (prime32B - 1)
  let low := low ^^^ swap64 high
  let q := product low prime64B
  { low := avalanche q.low, high := avalanche (q.high + high * prime64B) }

/-! ### Up to 240 bytes -/

/-- Sixteen bytes of input with sixteen bytes of the secret. -/
def mix16 (seed : UInt64) (input : ByteArray) (i key : Nat) : UInt64 :=
  foldedProduct (word64 input i ^^^ (word64 secret key + seed))
    (word64 input (i + 8) ^^^ (word64 secret (key + 8) - seed))

/-- Mix two runs of sixteen bytes into the two halves. -/
def mix32 (seed : UInt64) (input : ByteArray) (i j key : Nat) (acc : Wide) : Wide where
  low := (acc.low + mix16 seed input i key) ^^^ (word64 input j + word64 input (j + 8))
  high := (acc.high + mix16 seed input j (key + 16)) ^^^ (word64 input i + word64 input (i + 8))

/-- The hash that the two halves end in. -/
def finish (seed : UInt64) (size : Nat) (acc : Wide) : Wide where
  low := avalanche (acc.low + acc.high)
  high := 0 - avalanche
    (acc.low * prime64A + acc.high * prime64D + (size.toUInt64 - seed) * prime64B)

/-- The hash of 17 to 128 bytes: pairs of runs from the middle outwards. -/
def hash128 (seed : UInt64) (input : ByteArray) : Wide :=
  let size := input.size
  let pairs := (size - 1) / 32 + 1
  let step := fun (acc : Wide) (k : Nat) =>
    mix32 seed input (16 * k) (size - 16 * (k + 1)) (32 * k) acc
  finish seed size ((List.range pairs).reverse.foldl step ⟨size.toUInt64 * prime64A, 0⟩)

/-- The hash of 129 to 240 bytes. -/
def hash240 (seed : UInt64) (input : ByteArray) : Wide :=
  let size := input.size
  let round := fun (shift : Nat) (acc : Wide) (k : Nat) =>
    mix32 seed input (32 * k) (32 * k + 16) (32 * k - shift) acc
  let acc := (List.range 4).foldl (round 0) ⟨size.toUInt64 * prime64A, 0⟩
  let acc := ⟨avalanche acc.low, avalanche acc.high⟩
  let acc := (List.range' 4 (size / 32 - 4)).foldl (round 125) acc
  finish seed size (mix32 (0 - seed) input (size - 16) (size - 32) 103 acc)

/-! ### Beyond 240 bytes -/

/-- The bytes of a word, the lowest first. -/
def wordBytes (x : UInt64) : List UInt8 :=
  (List.range 8).map fun i => (x >>> (8 * i).toUInt64).toUInt8

/-- The secret for a seed. -/
def derivedSecret (seed : UInt64) : ByteArray :=
  ⟨((List.range 12).flatMap fun i =>
    wordBytes (word64 secret (16 * i) + seed)
      ++ wordBytes (word64 secret (16 * i + 8) - seed)).toArray⟩

/-- The accumulators at the start. -/
def start : List UInt64 :=
  [prime32C, prime64A, prime64B, prime64C, prime64D, prime32B, prime64E, prime32A]

/-- Take a stripe of 64 bytes into the accumulators, which work in pairs. -/
def accumulate (key input : ByteArray) (k i : Nat) (acc : List UInt64) : List UInt64 :=
  let data := (List.range 8).map fun lane => word64 input (i + 8 * lane)
  let crossed := (List.range 8).map fun lane =>
    data.getD (if lane % 2 = 0 then lane + 1 else lane - 1) 0
  let products := data.zipIdx.map fun (word, lane) =>
    let keyed := word ^^^ word64 key (k + 8 * lane)
    (keyed &&& (0xFFFFFFFF : UInt64)) * (keyed >>> 32)
  List.zipWith (· + ·) acc (List.zipWith (· + ·) crossed products)

/-- Mix the accumulators at the end of a block. -/
def scramble (key : ByteArray) (acc : List UInt64) : List UInt64 :=
  acc.zipIdx.map fun (a, lane) => (a ^^^ a >>> 47 ^^^ word64 key (128 + 8 * lane)) * prime32A

/-- Take up to sixteen stripes into the accumulators. -/
def stripes (key input : ByteArray) (i count : Nat) (acc : List UInt64) : List UInt64 :=
  (List.range count).foldl (fun acc n => accumulate key input (8 * n) (i + 64 * n) acc) acc

/-- Fold the accumulators into one word. -/
def merge (key : ByteArray) (k : Nat) (acc : List UInt64) (initial : UInt64) : UInt64 :=
  let lane := fun i => acc.getD i 0
  avalanche <| (List.range 4).foldl (fun sum i =>
    sum + foldedProduct (lane (2 * i) ^^^ word64 key (k + 16 * i))
      (lane (2 * i + 1) ^^^ word64 key (k + 16 * i + 8))) initial

/-- The hash of more than 240 bytes. -/
def hashLong (seed : UInt64) (input : ByteArray) : Wide :=
  let size := input.size
  let key := derivedSecret seed
  let blocks := (size - 1) / 1024
  let acc := (List.range blocks).foldl
    (fun acc n => scramble key (stripes key input (1024 * n) 16 acc)) start
  let acc := stripes key input (1024 * blocks) ((size - 1 - 1024 * blocks) / 64) acc
  let acc := accumulate key input 121 (size - 64) acc
  { low := merge key 11 acc (size.toUInt64 * prime64A)
    high := merge key 117 acc (~~~(size.toUInt64 * prime64B)) }

/-- The hash of a byte string. -/
def hash (seed : UInt64) (input : ByteArray) : Wide :=
  let size := input.size
  if size = 0 then hashEmpty seed
  else if size ≤ 3 then hash3 seed input
  else if size ≤ 8 then hash8 seed input
  else if size ≤ 16 then hash16 seed input
  else if size ≤ 128 then hash128 seed input
  else if size ≤ 240 then hash240 seed input
  else hashLong seed input

end SceneFlow.Xxh3
