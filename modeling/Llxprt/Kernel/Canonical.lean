import Llxprt.Rust.Integers

/-!
# Canonical byte encoding and scoped digests

Every digest of the context kernel is an FNV-1a digest over canonical bytes.
A sink is append-only, so the encoder of a record is the byte string it
appends and records compose by concatenation.
-/

namespace Llxprt.Kernel

/-- Canonical bytes. -/
abbrev Bytes := List UInt8

/-- A 64-bit digest over canonical bytes. -/
abbrev Digest := UInt64

/-- FNV-1a 64-bit offset basis. -/
def fnvOffset : UInt64 := 0xcbf29ce484222325

/-- FNV-1a 64-bit prime. -/
def fnvPrime : UInt64 := 0x00000100000001b3

/-- The FNV-1a digest of `bytes`. -/
def digest (bytes : Bytes) : Digest :=
  bytes.foldl (fun hash byte => (hash ^^^ byte.toUInt64) * fnvPrime) fnvOffset

/-- The UTF-8 bytes of a string. -/
def utf8 (text : String) : Bytes :=
  text.toUTF8.data.toList

/-- `u64::to_le_bytes`. -/
def leBytes (value : UInt64) : Bytes :=
  [value.toUInt8, (value >>> 8).toUInt8, (value >>> 16).toUInt8, (value >>> 24).toUInt8,
    (value >>> 32).toUInt8, (value >>> 40).toUInt8, (value >>> 48).toUInt8,
    (value >>> 56).toUInt8]

theorem ofLittleEndian_leBytes (value : UInt64) :
    Rust.ofLittleEndian (leBytes value) = value.toNat := by
  have bound := value.toNat_lt
  simp only [Rust.ofLittleEndian, leBytes, List.foldr_cons, List.foldr_nil, UInt64.toNat_toUInt8,
    UInt64.toNat_shiftRight, Nat.shiftRight_eq_div_pow]
  simp
  omega

theorem length_leBytes (value : UInt64) : (leBytes value).length = 8 :=
  rfl

theorem eq_leBytes {bytes : Bytes} {value : UInt64} (eight : bytes.length = 8)
    (same : Rust.ofLittleEndian bytes = value.toNat) : bytes = leBytes value :=
  Rust.ofLittleEndian_injective (eight.trans (length_leBytes value).symm)
    (same.trans (ofLittleEndian_leBytes value).symm)

namespace Sink

/-- An unsigned integer in little-endian order. -/
def int (value : UInt64) : Bytes :=
  leBytes value

/-- A counter, kept in the model as a natural number. -/
def count (value : Nat) : Bytes :=
  int (UInt64.ofNat value)

/-- The byte that separates a header from a body. -/
def byteOrderMark : Bytes :=
  [0xff]

/-- A length-prefixed byte string. -/
def blob (value : Bytes) : Bytes :=
  count value.length ++ value

/-- A length-prefixed tag naming the record or variant that follows. -/
def tag (value : String) : Bytes :=
  blob (utf8 value)

end Sink

/-- Scope of a digest.  Values of different scopes are never compared. -/
inductive HashScope where
  | eventChain
  | state
  | storeBuild

namespace HashScope

def salt : HashScope → Bytes
  | eventChain => utf8 "hash-scope:event-chain"
  | state => utf8 "hash-scope:state"
  | storeBuild => utf8 "hash-scope:store-build"

/-- Digest of `bytes` inside a scope. -/
def digest (scope : HashScope) (bytes : Bytes) : Digest :=
  Kernel.digest (scope.salt ++ bytes)

/-- Chain `previous` into a fresh digest over `bytes` inside a scope. -/
def chain (scope : HashScope) (previous : Digest) (bytes : Bytes) : Digest :=
  Kernel.digest (scope.salt ++ leBytes previous ++ bytes)

end HashScope

end Llxprt.Kernel
