import Mathlib.Algebra.Group.Nat.Defs
import Mathlib.Data.List.Basic

/-!
# SHA-256 and HMAC — over lists of bytes

The compression function keeps eight words.  A message is filled up to whole blocks with a one bit,
zeros and its length in bits, and the blocks are compressed one after the other.

Only the lengths of the two results are proved here.
-/

namespace Lib
namespace Sha256

structure Words where
  a : UInt32
  b : UInt32
  c : UInt32
  d : UInt32
  e : UInt32
  f : UInt32
  g : UInt32
  h : UInt32
deriving DecidableEq, Repr

def initial : Words :=
  ⟨0x6a09e667, 0xbb67ae85, 0x3c6ef372, 0xa54ff53a, 0x510e527f, 0x9b05688c, 0x1f83d9ab, 0x5be0cd19⟩

def constants : List UInt32 :=
  [0x428a2f98, 0x71374491, 0xb5c0fbcf, 0xe9b5dba5, 0x3956c25b, 0x59f111f1, 0x923f82a4, 0xab1c5ed5,
    0xd807aa98, 0x12835b01, 0x243185be, 0x550c7dc3, 0x72be5d74, 0x80deb1fe, 0x9bdc06a7, 0xc19bf174,
    0xe49b69c1, 0xefbe4786, 0x0fc19dc6, 0x240ca1cc, 0x2de92c6f, 0x4a7484aa, 0x5cb0a9dc, 0x76f988da,
    0x983e5152, 0xa831c66d, 0xb00327c8, 0xbf597fc7, 0xc6e00bf3, 0xd5a79147, 0x06ca6351, 0x14292967,
    0x27b70a85, 0x2e1b2138, 0x4d2c6dfc, 0x53380d13, 0x650a7354, 0x766a0abb, 0x81c2c92e, 0x92722c85,
    0xa2bfe8a1, 0xa81a664b, 0xc24b8b70, 0xc76c51a3, 0xd192e819, 0xd6990624, 0xf40e3585, 0x106aa070,
    0x19a4c116, 0x1e376c08, 0x2748774c, 0x34b0bcb5, 0x391c0cb3, 0x4ed8aa4a, 0x5b9cca4f, 0x682e6ff3,
    0x748f82ee, 0x78a5636f, 0x84c87814, 0x8cc70208, 0x90befffa, 0xa4506ceb, 0xbef9a3f7, 0xc67178f2]

def rotate (x n : UInt32) : UInt32 := x >>> n ||| x <<< (32 - n)

/-- Adds `n` words to a schedule that is kept with its newest word first. -/
def extend : Nat → List UInt32 → List UInt32
  | 0, words => words
  | n + 1, words =>
    let x := words.getD 1 0
    let y := words.getD 14 0
    let next := (rotate x 17 ^^^ rotate x 19 ^^^ x >>> 10) + words.getD 6 0 +
      (rotate y 7 ^^^ rotate y 18 ^^^ y >>> 3) + words.getD 15 0
    extend n (next :: words)

def round (s : Words) (key : UInt32 × UInt32) : Words :=
  let choice := (s.e &&& s.f) ^^^ (~~~s.e &&& s.g)
  let majority := (s.a &&& s.b) ^^^ (s.a &&& s.c) ^^^ (s.b &&& s.c)
  let t := s.h + (rotate s.e 6 ^^^ rotate s.e 11 ^^^ rotate s.e 25) + choice + key.1 + key.2
  let u := (rotate s.a 2 ^^^ rotate s.a 13 ^^^ rotate s.a 22) + majority
  ⟨t + u, s.a, s.b, s.c, s.d + t, s.e, s.f, s.g⟩

def toWord : List UInt8 → UInt32 :=
  List.foldl (fun word byte => word <<< 8 ||| byte.toUInt32) 0

/-- Big-endian words of the bytes, four bytes each. -/
def toWords : List UInt8 → List UInt32
  | a :: b :: c :: d :: rest => toWord [a, b, c, d] :: toWords rest
  | _ => []

def compress (s : Words) (block : List UInt8) : Words :=
  let schedule := (extend 48 (toWords block).reverse).reverse
  let t := (constants.zip schedule).foldl round s
  ⟨s.a + t.a, s.b + t.b, s.c + t.c, s.d + t.d, s.e + t.e, s.f + t.f, s.g + t.g, s.h + t.h⟩

def bigEndian (width n : Nat) : List UInt8 :=
  (List.range width).map fun i => UInt8.ofNat (n / 256 ^ (width - 1 - i))

def padding (length : Nat) : List UInt8 :=
  0x80 :: List.replicate ((119 - length % 64) % 64) 0 ++ bigEndian 8 (length * 8)

/-- Compresses the first `n` blocks of the bytes. -/
def blocks : Nat → Words → List UInt8 → Words
  | 0, s, _ => s
  | n + 1, s, bytes => blocks n (compress s (bytes.take 64)) (bytes.drop 64)

def ofWord (word : UInt32) : List UInt8 :=
  [(word >>> 24).toUInt8, (word >>> 16).toUInt8, (word >>> 8).toUInt8, word.toUInt8]

def digest (s : Words) : List UInt8 :=
  [s.a, s.b, s.c, s.d, s.e, s.f, s.g, s.h].flatMap ofWord

theorem length_digest (s : Words) : (digest s).length = 32 := rfl

def sha256 (message : List UInt8) : List UInt8 :=
  let padded := message ++ padding message.length
  digest (blocks (padded.length / 64) initial padded)

theorem length_sha256 (message : List UInt8) : (sha256 message).length = 32 := length_digest _

def hmac (key message : List UInt8) : List UInt8 :=
  let key := if 64 < key.length then sha256 key else key
  let block := key ++ List.replicate (64 - key.length) 0
  sha256 (block.map (· ^^^ 0x5c) ++ sha256 (block.map (· ^^^ 0x36) ++ message))

theorem length_hmac (key message : List UInt8) : (hmac key message).length = 32 :=
  length_sha256 _

end Sha256
end Lib
