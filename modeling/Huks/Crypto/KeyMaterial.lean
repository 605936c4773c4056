import Huks.Common.Types
import Huks.Lib.Access

namespace Huks

-- `HKS_KEY_BYTES`
def hksKeyBytes (keySize : UInt32) : UInt32 := (keySize + 7) / 8

-- A word of the header of a key material. All headers start with `keyAlg` and `keySize`.
def readWord (key : Bytes) (i : Nat) : Except (Stop HksErrorCode) UInt32 := do
  return le32 (← readAt key (4 * i) 4)

-- `struct KeyMaterialRsa` and its like: a header of words, and the parts whose sizes are in it.
inductive KeyFormat
  | rsa | ecc | dsa | dh | curve25519
  deriving DecidableEq, Repr

namespace KeyFormat

def ofAlg (alg : UInt32) : Option KeyFormat :=
  if alg = HksKeyAlg.rsa then some rsa
  else if alg = HksKeyAlg.ecc ∨ alg = HksKeyAlg.sm2 then some ecc
  else if alg = HksKeyAlg.dsa then some dsa
  else if alg = HksKeyAlg.dh then some dh
  else if alg = HksKeyAlg.ed25519 ∨ alg = HksKeyAlg.x25519 then some curve25519
  else none

-- `sizeof` of the header
def headerSize : KeyFormat → Nat
  | dsa => 28
  | _   => 20

-- The words that hold the sizes of the parts, in the order in which these lie behind the header:
-- `n`, `e` and `d`; `x`, `y` and `z`; `x`, `y`, `p`, `q` and `g`; the public and the private key.
def sizeWords : KeyFormat → List Nat
  | rsa | ecc       => [2, 3, 4]
  | dsa             => [2, 3, 4, 5, 6]
  | dh | curve25519 => [2, 3]

end KeyFormat

end Huks
