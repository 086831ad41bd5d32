import AddressPool.Bytes

/-! The 32-bit cyclic redundancy check, least significant bit first: a register of ones
absorbs the bytes in order and is inverted at the end. -/
namespace AddressPool.Checksum

def generator : UInt32 := 0xEDB88320

@[inline] def shift (register : UInt32) : UInt32 :=
  if register &&& 1 = 1 then (register >>> 1) ^^^ generator else register >>> 1

def absorb (register : UInt32) (byte : UInt8) : UInt32 :=
  shift (shift (shift (shift (shift (shift (shift (shift
    (register ^^^ byte.toUInt32))))))))

def register (bytes : Bytes) : UInt32 := bytes.foldl absorb 0xFFFFFFFF

def crc32 (bytes : Bytes) : UInt32 := register bytes ^^^ 0xFFFFFFFF

theorem registerAppend (front rest : Bytes) :
    register (front ++ rest) = rest.foldl absorb (register front) := by
  simp [register]

end AddressPool.Checksum
