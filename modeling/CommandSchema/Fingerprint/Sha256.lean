import CommandSchema.Text.Quoted

/-!
# SHA-256

The digest of a list of bytes: the message is padded to whole blocks of sixteen words, each block is
spread over sixty-four words, and these are mixed one after the other into a state of eight words.
-/

namespace CommandSchema.Sha256

/-- A word turned right by some bits. -/
def rotate (x : UInt32) (n : UInt32) : UInt32 :=
  (x >>> n) ||| (x <<< (32 - n))

/-- The words before the first block. -/
def initial : Vector UInt32 8 :=
  #v[0x6a09e667, 0xbb67ae85, 0x3c6ef372, 0xa54ff53a, 0x510e527f, 0x9b05688c, 0x1f83d9ab, 0x5be0cd19]

/-- One constant for each of the sixty-four rounds. -/
def constants : List UInt32 := [
  0x428a2f98, 0x71374491, 0xb5c0fbcf, 0xe9b5dba5, 0x3956c25b, 0x59f111f1, 0x923f82a4, 0xab1c5ed5,
  0xd807aa98, 0x12835b01, 0x243185be, 0x550c7dc3, 0x72be5d74, 0x80deb1fe, 0x9bdc06a7, 0xc19bf174,
  0xe49b69c1, 0xefbe4786, 0x0fc19dc6, 0x240ca1cc, 0x2de92c6f, 0x4a7484aa, 0x5cb0a9dc, 0x76f988da,
  0x983e5152, 0xa831c66d, 0xb00327c8, 0xbf597fc7, 0xc6e00bf3, 0xd5a79147, 0x06ca6351, 0x14292967,
  0x27b70a85, 0x2e1b2138, 0x4d2c6dfc, 0x53380d13, 0x650a7354, 0x766a0abb, 0x81c2c92e, 0x92722c85,
  0xa2bfe8a1, 0xa81a664b, 0xc24b8b70, 0xc76c51a3, 0xd192e819, 0xd6990624, 0xf40e3585, 0x106aa070,
  0x19a4c116, 0x1e376c08, 0x2748774c, 0x34b0bcb5, 0x391c0cb3, 0x4ed8aa4a, 0x5b9cca4f, 0x682e6ff3,
  0x748f82ee, 0x78a5636f, 0x84c87814, 0x8cc70208, 0x90befffa, 0xa4506ceb, 0xbef9a3f7, 0xc67178f2]

/-- A number as eight bytes, the most significant first. -/
def bytes8 (n : Nat) : List UInt8 :=
  [56, 48, 40, 32, 24, 16, 8, 0].map fun shift => UInt8.ofNat (n >>> shift)

/-- The message, a closing bit, zeros up to a whole block, and the message's length in bits. -/
def pad (message : List UInt8) : List UInt8 :=
  let zeros := (119 - message.length % 64) % 64
  message ++ 0x80 :: List.replicate zeros 0 ++ bytes8 (8 * message.length)

/-- Bytes as words, the most significant byte first. -/
def words : List UInt8 → List UInt32
  | a :: b :: c :: d :: rest =>
    (a.toUInt32 <<< 24 ||| b.toUInt32 <<< 16 ||| c.toUInt32 <<< 8 ||| d.toUInt32) :: words rest
  | _ => []

/-- Adds `n` words to a schedule that is kept with its latest word first. -/
def extend : Nat → List UInt32 → List UInt32
  | 0, latest => latest
  | n + 1, latest =>
    let x := latest.getD 14 0
    let y := latest.getD 1 0
    let spread := rotate x 7 ^^^ rotate x 18 ^^^ (x >>> 3)
    let fold := rotate y 17 ^^^ rotate y 19 ^^^ (y >>> 10)
    extend n ((latest.getD 15 0 + spread + latest.getD 6 0 + fold) :: latest)

/-- The sixty-four words of a block of sixteen. -/
def schedule (block : List UInt32) : List UInt32 :=
  (extend 48 block.reverse).reverse

/-- Mixes one word, with the constant of its round, into the state. -/
def mix (v : Vector UInt32 8) (constant word : UInt32) : Vector UInt32 8 :=
  let high := rotate v[4] 6 ^^^ rotate v[4] 11 ^^^ rotate v[4] 25
  let choice := (v[4] &&& v[5]) ^^^ (~~~v[4] &&& v[6])
  let low := rotate v[0] 2 ^^^ rotate v[0] 13 ^^^ rotate v[0] 22
  let majority := (v[0] &&& v[1]) ^^^ (v[0] &&& v[2]) ^^^ (v[1] &&& v[2])
  let t := v[7] + high + choice + constant + word
  #v[t + low + majority, v[0], v[1], v[2], v[3] + t, v[4], v[5], v[6]]

/-- The state after one more block. -/
def compress (v : Vector UInt32 8) (block : List UInt32) : Vector UInt32 8 :=
  let mixed := (constants.zip (schedule block)).foldl (fun u (c, w) => mix u c w) v
  Vector.zipWith (· + ·) v mixed

/-- The state after a number of blocks. -/
def compressAll : Nat → Vector UInt32 8 → List UInt32 → Vector UInt32 8
  | 0, v, _ => v
  | n + 1, v, ws => compressAll n (compress v (ws.take 16)) (ws.drop 16)

/-- The digest of a message. -/
def digest (message : List UInt8) : Vector UInt32 8 :=
  let ws := words (pad message)
  compressAll (ws.length / 16) initial ws

/-- A word as eight digits in base sixteen. -/
def hexWord (w : UInt32) : List Char :=
  (Text.hex w.toNat).leftpad 8 '0'

/-- The digest of a message as sixty-four digits in base sixteen. -/
def hexDigest (message : List UInt8) : String :=
  String.ofList ((digest message).toList.flatMap hexWord)

end CommandSchema.Sha256
