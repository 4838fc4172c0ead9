import ObjectStore.Bytes.Basic

/-!
# The MD5 digest

A message is padded to whole blocks of sixteen words: one bit, zeros, and the length in bits as 64
bits with the low byte first. Each block runs 64 steps on a state of four words. The steps come in
four rounds of sixteen; a row of a round names the word of the block that the step reads, the
rotation, and the constant, and each round has its own mixing function.

The digest of a message always has sixteen bytes (`length_md5`).
-/

namespace ObjectStore

namespace Md5

/-- The four words that the steps work on. -/
structure State where
  a : UInt32
  b : UInt32
  c : UInt32
  d : UInt32
  deriving DecidableEq, Repr

/-- The state before the first block. -/
def State.start : State := ⟨0x67452301, 0xefcdab89, 0x98badcfe, 0x10325476⟩

/-- The bits of `x` moved `n` places up, the ones that fall out coming back at the bottom. -/
def rotate (x n : UInt32) : UInt32 := (x <<< n) ||| (x >>> (32 - n))

/-- A step: word of the block, rotation, constant. -/
abbrev Step := Nat × UInt32 × UInt32

/-- The steps of the first round. -/
def firstRound : List Step :=
  [(0, 7, 0xd76aa478), (1, 12, 0xe8c7b756), (2, 17, 0x242070db), (3, 22, 0xc1bdceee),
   (4, 7, 0xf57c0faf), (5, 12, 0x4787c62a), (6, 17, 0xa8304613), (7, 22, 0xfd469501),
   (8, 7, 0x698098d8), (9, 12, 0x8b44f7af), (10, 17, 0xffff5bb1), (11, 22, 0x895cd7be),
   (12, 7, 0x6b901122), (13, 12, 0xfd987193), (14, 17, 0xa679438e), (15, 22, 0x49b40821)]

/-- The steps of the second round. -/
def secondRound : List Step :=
  [(1, 5, 0xf61e2562), (6, 9, 0xc040b340), (11, 14, 0x265e5a51), (0, 20, 0xe9b6c7aa),
   (5, 5, 0xd62f105d), (10, 9, 0x02441453), (15, 14, 0xd8a1e681), (4, 20, 0xe7d3fbc8),
   (9, 5, 0x21e1cde6), (14, 9, 0xc33707d6), (3, 14, 0xf4d50d87), (8, 20, 0x455a14ed),
   (13, 5, 0xa9e3e905), (2, 9, 0xfcefa3f8), (7, 14, 0x676f02d9), (12, 20, 0x8d2a4c8a)]

/-- The steps of the third round. -/
def thirdRound : List Step :=
  [(5, 4, 0xfffa3942), (8, 11, 0x8771f681), (11, 16, 0x6d9d6122), (14, 23, 0xfde5380c),
   (1, 4, 0xa4beea44), (4, 11, 0x4bdecfa9), (7, 16, 0xf6bb4b60), (10, 23, 0xbebfbc70),
   (13, 4, 0x289b7ec6), (0, 11, 0xeaa127fa), (3, 16, 0xd4ef3085), (6, 23, 0x04881d05),
   (9, 4, 0xd9d4d039), (12, 11, 0xe6db99e5), (15, 16, 0x1fa27cf8), (2, 23, 0xc4ac5665)]

/-- The steps of the fourth round. -/
def fourthRound : List Step :=
  [(0, 6, 0xf4292244), (7, 10, 0x432aff97), (14, 15, 0xab9423a7), (5, 21, 0xfc93a039),
   (12, 6, 0x655b59c3), (3, 10, 0x8f0ccc92), (10, 15, 0xffeff47d), (1, 21, 0x85845dd1),
   (8, 6, 0x6fa87e4f), (15, 10, 0xfe2ce6e0), (6, 15, 0xa3014314), (13, 21, 0x4e0811a1),
   (4, 6, 0xf7537e82), (11, 10, 0xbd3af235), (2, 15, 0x2ad7d2bb), (9, 21, 0xeb86d391)]

/-- One step with the mixing function `mix`. -/
def step (mix : UInt32 → UInt32 → UInt32 → UInt32) (block : List UInt32) (s : State) (p : Step) :
    State :=
  let word := block.getD p.1 0
  ⟨s.d, s.b + rotate (s.a + mix s.b s.c s.d + p.2.2 + word) p.2.1, s.b, s.c⟩

/-- All steps on one block, added to the state before it. -/
def compress (s : State) (block : List UInt32) : State :=
  let t := firstRound.foldl (step (fun x y z => (x &&& y) ||| (~~~x &&& z)) block) s
  let t := secondRound.foldl (step (fun x y z => (x &&& z) ||| (y &&& ~~~z)) block) t
  let t := thirdRound.foldl (step (fun x y z => x ^^^ y ^^^ z) block) t
  let t := fourthRound.foldl (step (fun x y z => y ^^^ (x ||| ~~~z)) block) t
  ⟨s.a + t.a, s.b + t.b, s.c + t.c, s.d + t.d⟩

/-- The four bytes of a word, the low one first. -/
def wordBytes (w : UInt32) : Bytes :=
  [w.toUInt8, (w >>> 8).toUInt8, (w >>> 16).toUInt8, (w >>> 24).toUInt8]

/-- Four bytes at a time as a word, the low byte first. -/
def words : Bytes → List UInt32
  | b₀ :: b₁ :: b₂ :: b₃ :: rest =>
    (b₀.toUInt32 ||| b₁.toUInt32 <<< 8 ||| b₂.toUInt32 <<< 16 ||| b₃.toUInt32 <<< 24) :: words rest
  | _ => []

/-- The message with its padding: a one bit, zeros up to eight bytes short of a whole block, and the
length in bits. -/
def pad (message : Bytes) : Bytes :=
  let n := message.length
  let zeros := (119 - n % 64) % 64
  let bits := UInt64.ofNat (8 * n)
  message ++ (0x80 : UInt8) :: List.replicate zeros 0 ++ wordBytes bits.toUInt32 ++
    wordBytes (bits >>> 32).toUInt32

/-- Runs whole blocks of 64 bytes, `count` of them. -/
def run : (count : Nat) → State → Bytes → State
  | 0, s, _ => s
  | count + 1, s, bytes => run count (compress s (words (bytes.take 64))) (bytes.drop 64)

end Md5

/-- The MD5 digest of a message. -/
def md5 (message : Bytes) : Bytes :=
  let padded := Md5.pad message
  let s := Md5.run (padded.length / 64) .start padded
  Md5.wordBytes s.a ++ Md5.wordBytes s.b ++ Md5.wordBytes s.c ++ Md5.wordBytes s.d

@[simp] theorem length_md5 (message : Bytes) : (md5 message).length = 16 := rfl

end ObjectStore
