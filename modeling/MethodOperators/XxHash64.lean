/-!
# The 64-bit xxHash

The hash function XXH64 on a list of bytes. The bytes are cut into little-endian words of eight.
As long as four words are left they are absorbed into four accumulators side by side. What
remains, at most three words and seven bytes, is mixed into the digest one piece at a time.
-/

namespace MethodOperators.XxHash64

def prime₁ : UInt64 := 0x9E3779B185EBCA87
def prime₂ : UInt64 := 0xC2B2AE3D27D4EB4F
def prime₃ : UInt64 := 0x165667B19E3779F9
def prime₄ : UInt64 := 0x85EBCA77C2B2AE63
def prime₅ : UInt64 := 0x27D4EB2F165667C5

/-- Rotates a word to the left by `n` bits, for `0 < n < 64`. -/
def rotateLeft (x : UInt64) (n : UInt64) : UInt64 := (x <<< n) ||| (x >>> (64 - n))

/-- The number whose base-256 digits are the given bytes, the least significant first. -/
def littleEndian : List UInt8 → UInt64
  | [] => 0
  | b :: bs => b.toUInt64 ||| (littleEndian bs <<< 8)

/-- Cuts bytes into words of eight and a tail of fewer than eight bytes. -/
def words : List UInt8 → List UInt64 × List UInt8
  | b₀ :: b₁ :: b₂ :: b₃ :: b₄ :: b₅ :: b₆ :: b₇ :: rest =>
    let (ws, tail) := words rest
    (littleEndian [b₀, b₁, b₂, b₃, b₄, b₅, b₆, b₇] :: ws, tail)
  | tail => ([], tail)

/-- Takes one word into an accumulator. -/
def round (acc word : UInt64) : UInt64 := rotateLeft (acc + word * prime₂) 31 * prime₁

/-- The four accumulators of the parallel part. -/
structure Lanes where
  a : UInt64
  b : UInt64
  c : UInt64
  d : UInt64

namespace Lanes

/-- The accumulators before any word has been taken. -/
def start (seed : UInt64) : Lanes :=
  ⟨seed + prime₁ + prime₂, seed + prime₂, seed, seed - prime₁⟩

/-- Folds one accumulator into the digest. -/
def mergeOne (h lane : UInt64) : UInt64 := (h ^^^ round 0 lane) * prime₁ + prime₄

/-- The digest made from all four accumulators. -/
def merge (l : Lanes) : UInt64 :=
  let h := rotateLeft l.a 1 + rotateLeft l.b 7 + rotateLeft l.c 12 + rotateLeft l.d 18
  mergeOne (mergeOne (mergeOne (mergeOne h l.a) l.b) l.c) l.d

end Lanes

/-- Takes words four at a time, and leaves the last three or fewer. -/
def absorb (l : Lanes) : List UInt64 → Lanes × List UInt64
  | w₁ :: w₂ :: w₃ :: w₄ :: rest =>
    absorb ⟨round l.a w₁, round l.b w₂, round l.c w₃, round l.d w₄⟩ rest
  | rest => (l, rest)

/-- Mixes one left-over word into the digest. -/
def mixWord (h word : UInt64) : UInt64 := rotateLeft (h ^^^ round 0 word) 27 * prime₁ + prime₄

/-- Mixes four left-over bytes, read as a number, into the digest. -/
def mixHalf (h half : UInt64) : UInt64 := rotateLeft (h ^^^ (half * prime₁)) 23 * prime₂ + prime₃

/-- Mixes one left-over byte into the digest. -/
def mixByte (h : UInt64) (b : UInt8) : UInt64 :=
  rotateLeft (h ^^^ (b.toUInt64 * prime₅)) 11 * prime₁

/-- Mixes a tail of fewer than eight bytes: four together if there are four, then one by one. -/
def mixTail (h : UInt64) : List UInt8 → UInt64
  | b₀ :: b₁ :: b₂ :: b₃ :: rest => rest.foldl mixByte (mixHalf h (littleEndian [b₀, b₁, b₂, b₃]))
  | rest => rest.foldl mixByte h

/-- Spreads every bit of the digest over the whole word. -/
def avalanche (h : UInt64) : UInt64 :=
  let h := (h ^^^ (h >>> 33)) * prime₂
  let h := (h ^^^ (h >>> 29)) * prime₃
  h ^^^ (h >>> 32)

/-- The hash of a list of bytes under a seed. -/
def digest (seed : UInt64) (bytes : List UInt8) : UInt64 :=
  let (ws, tail) := words bytes
  let (lanes, ws') := absorb (Lanes.start seed) ws
  let h := if 4 ≤ ws.length then lanes.merge else seed + prime₅
  let h := h + UInt64.ofNat bytes.length
  avalanche (mixTail (ws'.foldl mixWord h) tail)

end MethodOperators.XxHash64
