import Mathlib.Data.List.Basic

/-!
# CRC-16/CCITT and CRC-32

The byte-at-a-time loop of `third_party/crc/crc16.c`. The seed is the running value, so a
checksum of a concatenation is computed piece by piece. The loop of `third_party/crc/crc32.c` has a
table for four bits.
-/
namespace BmCore

/-- One iteration of the loop of `crc16_ccitt`. -/
def crc16Step (seed : UInt16) (src : UInt8) : UInt16 :=
  let e : UInt8 := seed.toUInt8 ^^^ src
  let f : UInt8 := e ^^^ (e <<< 4)
  (seed >>> 8) ^^^ (f.toUInt16 <<< 8) ^^^ (f.toUInt16 <<< 3) ^^^ (f.toUInt16 >>> 4)

/-- `crc16_ccitt(seed, src, len)`. -/
def crc16Ccitt (seed : UInt16) (src : List UInt8) : UInt16 := src.foldl crc16Step seed

@[simp] theorem crc16Ccitt_nil (seed : UInt16) : crc16Ccitt seed [] = seed := rfl

/-- Feeding two buffers one after the other is feeding their concatenation. -/
theorem crc16Ccitt_append (seed : UInt16) (xs ys : List UInt8) :
    crc16Ccitt seed (xs ++ ys) = crc16Ccitt (crc16Ccitt seed xs) ys :=
  List.foldl_append

/-- The check value of the CRC catalogue for `"123456789"` with seed 0. -/
example : crc16Ccitt 0 [0x31, 0x32, 0x33, 0x34, 0x35, 0x36, 0x37, 0x38, 0x39] = 0x2189 := by
  decide +kernel

/-- The table of the polynomial 0xEDB88320. -/
def crc32Table : List UInt32 :=
  [0x00000000, 0x1db71064, 0x3b6e20c8, 0x26d930ac, 0x76dc4190, 0x6b6b51f4, 0x4db26158, 0x5005713c,
    0xedb88320, 0xf00f9344, 0xd6d6a3e8, 0xcb61b38c, 0x9b64c2b0, 0x86d3d2d4, 0xa00ae278, 0xbdbdf21c]

/-- One iteration of the loop of `crc32_ieee_update`. -/
def crc32Step (crc : UInt32) (byte : UInt8) : UInt32 :=
  let crc := (crc >>> 4) ^^^ crc32Table.getD ((crc ^^^ byte.toUInt32) &&& 0x0F).toNat 0
  (crc >>> 4) ^^^ crc32Table.getD ((crc ^^^ (byte.toUInt32 >>> 4)) &&& 0x0F).toNat 0

/-- `crc32_ieee` -/
def crc32Ieee (data : List UInt8) : UInt32 := ~~~ data.foldl crc32Step (~~~ 0)

end BmCore
