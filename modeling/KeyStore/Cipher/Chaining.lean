import KeyStore.Cipher.Aes

/-!
# Cipher block chaining

AES-128 over byte strings of whole blocks, in both directions. Before it is encrypted, each block is
combined with the encrypted block before it, the first one with an initialization vector. Nothing is
padded and nothing is stripped: a result has the length of its input.
-/

namespace KeyStore.Chaining

open Aes

inductive Fault where
  /-- The key or the initialization vector is not one block long; both lengths are given. -/
  | keyOrVectorLength (key vector : Nat)
  | textLength (length : Nat)
deriving DecidableEq, Repr

def takeBlocks? : (count : Nat) → Bytes → Option (List Block)
  | 0, _ => some []
  | count + 1, bytes => do
      let block ← Block.ofBytes? (bytes.take blockLength)
      let rest ← takeBlocks? count (bytes.drop blockLength)
      return block :: rest

def blocks? (bytes : Bytes) : Option (List Block) :=
  if bytes.length % blockLength = 0 then
    takeBlocks? (bytes.length / blockLength) bytes
  else
    none

def blockBytes (blocks : List Block) : Bytes :=
  blocks.flatMap Block.bytes

/-- Decrypts a chain of blocks that follows the encrypted block `previous`. -/
def decryptBlocks (keys : RoundKeys) : (previous : Block) → List Block → List Block
  | _, [] => []
  | previous, block :: rest =>
      (decryptBlock keys block).xor previous :: decryptBlocks keys block rest

/-- Encrypts a chain of blocks that follows the encrypted block `previous`. -/
def encryptBlocks (keys : RoundKeys) : (previous : Block) → List Block → List Block
  | _, [] => []
  | previous, block :: rest =>
      let encrypted := encryptBlock keys (block.xor previous)
      encrypted :: encryptBlocks keys encrypted rest

/-- Runs a chain over a text once the lengths of key, vector and text have been checked, in this
order. -/
def run (chain : RoundKeys → Block → List Block → List Block) (key vector text : Bytes) :
    Except Fault Bytes :=
  match Block.ofBytes? key, Block.ofBytes? vector with
  | some keyBlock, some vectorBlock =>
      match blocks? text with
      | some blocks => .ok (blockBytes (chain (.ofKey keyBlock) vectorBlock blocks))
      | none => .error (.textLength text.length)
  | _, _ => .error (.keyOrVectorLength key.length vector.length)

def decrypt (key vector ciphertext : Bytes) : Except Fault Bytes :=
  run decryptBlocks key vector ciphertext

def encrypt (key vector plaintext : Bytes) : Except Fault Bytes :=
  run encryptBlocks key vector plaintext

end KeyStore.Chaining
