/-!
# SHA-256

The digest of `crypto/sha256` and its lower-case hexadecimal form.
-/

namespace CodeGo.Lib.Sha256

def roundConstants : List UInt32 := [
  0x428a2f98, 0x71374491, 0xb5c0fbcf, 0xe9b5dba5, 0x3956c25b, 0x59f111f1, 0x923f82a4, 0xab1c5ed5,
  0xd807aa98, 0x12835b01, 0x243185be, 0x550c7dc3, 0x72be5d74, 0x80deb1fe, 0x9bdc06a7, 0xc19bf174,
  0xe49b69c1, 0xefbe4786, 0x0fc19dc6, 0x240ca1cc, 0x2de92c6f, 0x4a7484aa, 0x5cb0a9dc, 0x76f988da,
  0x983e5152, 0xa831c66d, 0xb00327c8, 0xbf597fc7, 0xc6e00bf3, 0xd5a79147, 0x06ca6351, 0x14292967,
  0x27b70a85, 0x2e1b2138, 0x4d2c6dfc, 0x53380d13, 0x650a7354, 0x766a0abb, 0x81c2c92e, 0x92722c85,
  0xa2bfe8a1, 0xa81a664b, 0xc24b8b70, 0xc76c51a3, 0xd192e819, 0xd6990624, 0xf40e3585, 0x106aa070,
  0x19a4c116, 0x1e376c08, 0x2748774c, 0x34b0bcb5, 0x391c0cb3, 0x4ed8aa4a, 0x5b9cca4f, 0x682e6ff3,
  0x748f82ee, 0x78a5636f, 0x84c87814, 0x8cc70208, 0x90befffa, 0xa4506ceb, 0xbef9a3f7, 0xc67178f2]

/-- The eight working variables. -/
structure Hash where
  a : UInt32
  b : UInt32
  c : UInt32
  d : UInt32
  e : UInt32
  f : UInt32
  g : UInt32
  h : UInt32

def Hash.initial : Hash :=
  ⟨0x6a09e667, 0xbb67ae85, 0x3c6ef372, 0xa54ff53a, 0x510e527f, 0x9b05688c, 0x1f83d9ab, 0x5be0cd19⟩

def Hash.add (x y : Hash) : Hash :=
  ⟨x.a + y.a, x.b + y.b, x.c + y.c, x.d + y.d, x.e + y.e, x.f + y.f, x.g + y.g, x.h + y.h⟩

def rotr (x n : UInt32) : UInt32 := (x >>> n) ||| (x <<< (32 - n))

def Hash.round (s : Hash) (k w : UInt32) : Hash :=
  let s1 := rotr s.e 6 ^^^ rotr s.e 11 ^^^ rotr s.e 25
  let ch := (s.e &&& s.f) ^^^ (~~~s.e &&& s.g)
  let temp1 := s.h + s1 + ch + k + w
  let s0 := rotr s.a 2 ^^^ rotr s.a 13 ^^^ rotr s.a 22
  let maj := (s.a &&& s.b) ^^^ (s.a &&& s.c) ^^^ (s.b &&& s.c)
  ⟨temp1 + (s0 + maj), s.a, s.b, s.c, s.d + temp1, s.e, s.f, s.g⟩

/-- The next word of the schedule from the sixteen before it, the latest first. -/
def nextWord (latest : List UInt32) : UInt32 :=
  let w (i : Nat) := latest.getD (i - 1) 0
  let s0 := rotr (w 15) 7 ^^^ rotr (w 15) 18 ^^^ (w 15 >>> 3)
  let s1 := rotr (w 2) 17 ^^^ rotr (w 2) 19 ^^^ (w 2 >>> 10)
  w 16 + s0 + w 7 + s1

/-- `n` more words in front of the latest ones. -/
def extend : Nat → List UInt32 → List UInt32
  | 0, latest => latest
  | n + 1, latest => extend n (nextWord latest :: latest)

def Hash.compress (s : Hash) (block : List UInt32) : Hash :=
  let schedule := (extend 48 block.reverse).reverse
  s.add ((roundConstants.zip schedule).foldl (fun s (k, w) => s.round k w) s)

/-- Big-endian words of four bytes. -/
def words : List UInt8 → List UInt32
  | a :: b :: c :: d :: rest =>
    (a.toUInt32 <<< 24 ||| b.toUInt32 <<< 16 ||| c.toUInt32 <<< 8 ||| d.toUInt32) :: words rest
  | _ => []

/-- The message with the bit 1, zeros and its length in bits. -/
def pad (message : List UInt8) : List UInt8 :=
  let bits := 8 * message.length
  let length : List UInt8 := (List.range 8).map fun i => UInt8.ofNat (bits >>> (8 * (7 - i)))
  message ++ [0x80] ++ List.replicate ((119 - message.length % 64) % 64) 0 ++ length

def blocks : Nat → List UInt32 → Hash → Hash
  | 0, _, s => s
  | n + 1, ws, s => blocks n (ws.drop 16) (s.compress (ws.take 16))

def sum256 (message : List UInt8) : List UInt8 :=
  let ws := words (pad message)
  let s := blocks (ws.length / 16) ws .initial
  let bytes (w : UInt32) : List UInt8 :=
    [(w >>> 24).toUInt8, (w >>> 16).toUInt8, (w >>> 8).toUInt8, w.toUInt8]
  [s.a, s.b, s.c, s.d, s.e, s.f, s.g, s.h].flatMap bytes

def encodeToString (bytes : List UInt8) : String :=
  String.ofList <| bytes.flatMap fun b =>
    [Nat.digitChar (b.toNat / 16), Nat.digitChar (b.toNat % 16)]

example : encodeToString (sum256 "abc".toUTF8.data.toList) =
    "ba7816bf8f01cfea414140de5dae2223b00361a396177a9cb410ff61f20015ad" := by decide +kernel

end CodeGo.Lib.Sha256
