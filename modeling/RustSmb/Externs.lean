import RustSmb.Lib.Bytes

/-!
# Functions of outside libraries

The cryptographic primitives and the Unicode case mappings come from outside libraries.  They are
arbitrary functions here.

## Main definitions

* `Externs` — the functions.
* `kdf16` — the key derivation built on them.

Source: `rustsmb-auth/src/kdf.rs`, `rustsmb-auth/src/ntlm/crypto.rs`,
`rustsmb-protocol/src/crypto/signing.rs`.
-/

namespace RustSmb

/-- The functions that the server takes from outside libraries. -/
class Externs where
  /-- HMAC-MD5 of a message under a key. -/
  hmacMd5 : Bytes → Bytes → Bytes
  /-- HMAC-SHA256 of a message under a key. -/
  hmacSha256 : Bytes → Bytes → Bytes
  /-- SHA-512. -/
  sha512 : Bytes → Bytes
  /-- AES-128-CMAC of a message under a 16-byte key. -/
  aesCmac : Bytes → Bytes → Bytes
  /-- `str::to_lowercase`. -/
  toLowercase : String → String
  /-- `str::to_uppercase`. -/
  toUppercase : String → String

variable [Externs]

/-- The bytes of a text of ASCII characters. -/
def ascii (s : String) : Bytes := s.toList.map fun c => UInt8.ofNat c.toNat

/-- `sp800_108_kdf` for 16 bytes, which one block covers.  The counter and the length in bits are
big-endian. -/
def kdf16 (key label context : Bytes) : Bytes :=
  (Externs.hmacSha256 key ([0, 0, 0, 1] ++ label ++ [0] ++ context ++ [0, 0, 0, 128])).take 16

/-- The signing key of a session for SMB 3.0 and 3.0.2. -/
def deriveSmb3 (sessionKey : Bytes) : Bytes :=
  kdf16 sessionKey (ascii "SMB2AESCMAC" ++ [0]) (ascii "SmbSign" ++ [0])

/-- The signing key of a session for SMB 3.1.1, bound to the negotiation. -/
def deriveSmb311 (sessionKey preauthHash : Bytes) : Bytes :=
  kdf16 sessionKey (ascii "SMBSigningKey" ++ [0]) preauthHash

namespace Sample

/-- Primitives that return something fixed, and the case mappings of ASCII. -/
abbrev externs : Externs where
  hmacMd5 _ _ := Bytes.zeros 16
  hmacSha256 _ _ := Bytes.zeros 32
  sha512 _ := Bytes.zeros 64
  aesCmac _ _ := Bytes.zeros 16
  toLowercase s := String.ofList (s.toList.map Char.toLower)
  toUppercase s := String.ofList (s.toList.map Char.toUpper)

attribute [scoped instance] externs

end Sample

end RustSmb
