import TlsTransport.Digest.Basic

/-! # AES in chained blocks

Decryption with keys of 16, 24 or 32 bytes.

* `Aes.decryptChain?`: a text of whole blocks, each combined with the one before it.
-/

namespace TlsTransport.Aes

/-! ## Bytes as polynomials -/

/-- A byte times the polynomial `x`. -/
def twice (b : UInt8) : UInt8 := (b <<< 1) ^^^ (if 0x80 ≤ b then 0x1b else 0)

/-- The product of two bytes, bit by bit of the second. -/
def times (a b : UInt8) : UInt8 :=
  ((List.range 8).foldl (fun (acc : UInt8 × UInt8) i =>
    (if (b >>> UInt8.ofNat i) &&& 1 = 1 then acc.1 ^^^ acc.2 else acc.1, twice acc.2)) (0, a)).1

/-- The inverse of a byte: its power of 254. Zero has itself. -/
def inverse (b : UInt8) : UInt8 :=
  (List.range 253).foldl (fun acc _ => times acc b) b

/-- A byte turned to the left. -/
def turn (b : UInt8) (n : Nat) : UInt8 :=
  (b <<< UInt8.ofNat n) ||| (b >>> UInt8.ofNat (8 - n))

/-- What a byte is substituted by. -/
def substitute (b : UInt8) : UInt8 :=
  let i := inverse b
  i ^^^ turn i 1 ^^^ turn i 2 ^^^ turn i 3 ^^^ turn i 4 ^^^ 0x63

/-- All substitutions. -/
def substitutions : Array UInt8 := (Array.range 256).map fun n => substitute (UInt8.ofNat n)

/-- All substitutions the other way. -/
def originals : Array UInt8 :=
  (Array.range 256).foldl
    (fun t n => t.setIfInBounds (substitutions.getD n 0).toNat (UInt8.ofNat n))
    (Array.replicate 256 0)

/-- A byte, substituted. -/
def sub (b : UInt8) : UInt8 := substitutions.getD b.toNat 0

/-- A byte, substituted the other way. -/
def unsub (b : UInt8) : UInt8 := originals.getD b.toNat 0

/-! ## Round keys -/

/-- The words of the key schedule behind the ones there are, newest first. -/
def expand (keyWords : Nat) (constant : UInt8) (at_ : Nat) (words : List Bytes) :
    Nat → List Bytes
  | 0 => words
  | n + 1 =>
    let last := words.headD []
    let before := words.getD (keyWords - 1) []
    let (mixed, constant) :=
      if at_ % keyWords = 0 then
        (Bytes.xor ((last.drop 1 ++ last.take 1).map sub) [constant, 0, 0, 0], twice constant)
      else if 6 < keyWords ∧ at_ % keyWords = 4 then (last.map sub, constant)
      else (last, constant)
    expand keyWords constant (at_ + 1) (Bytes.xor before mixed :: words) n

/-- The round keys of a key, last one first. -/
def roundKeys (key : Bytes) : List Bytes :=
  let count := key.length / 4
  let start := (Digest.pieces 4 key).reverse
  let words := (expand count 1 count start (4 * (count + 7) - count)).reverse
  ((Digest.pieces 16 words.flatten)).reverse

/-! ## Blocks -/

/-- The bytes of a block behind a shift of its rows to the right. -/
def unshift (block : Bytes) : Bytes :=
  let a := block.toArray
  (List.range 16).map fun i => a.getD ((i + 16 - 4 * (i % 4)) % 16) 0

/-- A column, mixed the other way. -/
def unmixColumn : Bytes → Bytes
  | [a, b, c, d] =>
    [times a 14 ^^^ times b 11 ^^^ times c 13 ^^^ times d 9,
     times a 9 ^^^ times b 14 ^^^ times c 11 ^^^ times d 13,
     times a 13 ^^^ times b 9 ^^^ times c 14 ^^^ times d 11,
     times a 11 ^^^ times b 13 ^^^ times c 9 ^^^ times d 14]
  | column => column

/-- The rounds of a block behind the first key. -/
def rounds (block : Bytes) : List Bytes → Bytes
  | [] => block
  | [key] => Bytes.xor ((unshift block).map unsub) key
  | key :: rest =>
    let block := Bytes.xor ((unshift block).map unsub) key
    rounds ((Digest.pieces 4 block).flatMap unmixColumn) rest

/-- A block, decrypted with the round keys. -/
def decryptBlock (keys : List Bytes) (block : Bytes) : Bytes :=
  match keys with
  | [] => block
  | key :: rest => rounds (Bytes.xor block key) rest

/-- Decrypts blocks, each combined with the one before. -/
def decryptBlocks (keys : List Bytes) (before : Bytes) : List Bytes → Bytes
  | [] => []
  | block :: rest => Bytes.xor (decryptBlock keys block) before ++ decryptBlocks keys block rest

/-- A text without its padding, whose bytes all hold its length. -/
def unpad? (text : Bytes) : Option Bytes := do
  let last ← text.getLast?
  let n := last.toNat
  if 1 ≤ n ∧ n ≤ 16 ∧ n ≤ text.length ∧ (text.drop (text.length - n)).all (· == last) then
    some (text.take (text.length - n))
  else none

/-- Decrypts a padded text of whole blocks. -/
def decryptChain? (key start text : Bytes) : Option Bytes :=
  if text.isEmpty ∨ text.length % 16 ≠ 0 ∨ start.length ≠ 16 then none
  else unpad? (decryptBlocks (roundKeys key) start (Digest.pieces 16 text))

end TlsTransport.Aes
