/-!
# Checksums

The cyclic redundancy check of 32 bits with the reflected polynomial `edb88320`, as archives and
network frames use it: the register starts with all bits set and is inverted at the end.
-/

namespace AtomicCommit.Checksum

/-- The reflected polynomial. -/
def polynomial : BitVec 32 := 0xedb88320#32

/-- Shifts one bit out of the register. -/
def shift (register : BitVec 32) : BitVec 32 :=
  if register.getLsbD 0 then (register >>> 1) ^^^ polynomial else register >>> 1

/-- Shifts `n` bits out of the register. -/
def shifts : Nat → BitVec 32 → BitVec 32
  | 0, register => register
  | n + 1, register => shifts n (shift register)

/-- The register after one more byte. -/
def feed (register : BitVec 32) (byte : UInt8) : BitVec 32 :=
  shifts 8 (register ^^^ byte.toBitVec.setWidth 32)

/-- The checksum of bytes. -/
def ofBytes (bytes : List UInt8) : BitVec 32 := ~~~(bytes.foldl feed (BitVec.allOnes 32))

example : ofBytes [0x31, 0x32, 0x33, 0x34, 0x35, 0x36, 0x37, 0x38, 0x39] = 0xcbf43926#32 := by
  decide +kernel

end AtomicCommit.Checksum
