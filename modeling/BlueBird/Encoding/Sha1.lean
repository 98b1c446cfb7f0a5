import BlueBird.Bytes
import BlueBird.Stream.BigEndian

namespace BlueBird

namespace Sha1

def rotl (value bits : UInt32) : UInt32 := (value <<< bits) ||| (value >>> (32 - bits))

/-- The buffer of `bb_sha1`: up to 56 modulo 64, and the length in bits. -/
def padded (message : Bytes) : Bytes :=
  message ++ [0x80] ++ List.replicate ((119 - message.length % 64) % 64) 0 ++ BigEndian.encode (message.length * 8 % 2^64) 8

def word (bytes : Bytes) : UInt32 := UInt32.ofNat (BigEndian.decode bytes)

def words : Nat → Bytes → List UInt32
  | 0, _ => []
  | n + 1, chunk => word (chunk.take 4) :: words n (chunk.drop 4)

/-- `w`, with its last word first. -/
def schedule (chunk : Bytes) : Nat → List UInt32
  | 0 => (words 16 chunk).reverse
  | n + 1 =>
    let w := schedule chunk n
    rotl (w.getD 2 0 ^^^ w.getD 7 0 ^^^ w.getD 13 0 ^^^ w.getD 15 0) 1 :: w

structure State where
  a : UInt32
  b : UInt32
  c : UInt32
  d : UInt32
  e : UInt32

def initial : State := ⟨0x67452301, 0xEFCDAB89, 0x98BADCFE, 0x10325476, 0xC3D2E1F0⟩

def mix (i : Nat) (s : State) : UInt32 × UInt32 :=
  if i < 20 then ((s.b &&& s.c) ||| (~~~s.b &&& s.d), 0x5A827999)
  else if i < 40 then (s.b ^^^ s.c ^^^ s.d, 0x6ED9EBA1)
  else if i < 60 then ((s.b &&& s.c) ||| (s.b &&& s.d) ||| (s.c &&& s.d), 0x8F1BBCDC)
  else (s.b ^^^ s.c ^^^ s.d, 0xCA62C1D6)

def round (s : State) (w : UInt32 × Nat) : State :=
  ⟨rotl s.a 5 + (mix w.2 s).1 + s.e + (mix w.2 s).2 + w.1, s.a, rotl s.b 30, s.c, s.d⟩

def addChunk (h : State) (chunk : Bytes) : State :=
  let s := (schedule chunk 64).reverse.zipIdx.foldl round h
  ⟨h.a + s.a, h.b + s.b, h.c + s.c, h.d + s.d, h.e + s.e⟩

def chunks : Nat → Bytes → List Bytes
  | 0, _ => []
  | n + 1, bytes => bytes.take 64 :: chunks n (bytes.drop 64)

def digestOf (h : State) : Bytes := [h.a, h.b, h.c, h.d, h.e].flatMap fun w => BigEndian.encode w.toNat 4

end Sha1

/-- `bb_sha1` -/
def sha1 (data : Bytes) : Bytes :=
  Sha1.digestOf ((Sha1.chunks ((Sha1.padded data).length / 64) (Sha1.padded data)).foldl Sha1.addChunk Sha1.initial)

end BlueBird
