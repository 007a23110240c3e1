import BmCore.Library.Bytes

/-!
# DFU frames

The packed structures of `dfu_message_structs.h` and the frames of `messages.h`, as they lie in
a received buffer on a little-endian host. Every DFU frame starts with its type and the two node
ids; what follows depends on the type. The readers below are the pointer casts of the source:
they do not look at the length of the buffer, so past its end they see `beyond`.
-/
namespace BmCore.Dfu
open Library

/-- `BmDfuErr` is an enum that also holds whatever error byte a peer puts in a frame. -/
structure BmDfuErr where
  code : UInt8
  deriving DecidableEq, Repr

namespace BmDfuErr
def none : BmDfuErr := ⟨0⟩
def tooLarge : BmDfuErr := ⟨1⟩
def sameVer : BmDfuErr := ⟨2⟩
def mismatchLen : BmDfuErr := ⟨3⟩
def badCrc : BmDfuErr := ⟨4⟩
def imgChunkAccess : BmDfuErr := ⟨5⟩
def timeout : BmDfuErr := ⟨6⟩
def bmFrame : BmDfuErr := ⟨7⟩
def aborted : BmDfuErr := ⟨8⟩
def wrongVer : BmDfuErr := ⟨9⟩
def inProgress : BmDfuErr := ⟨10⟩
def chunkSize : BmDfuErr := ⟨11⟩
def confirmationAbort : BmDfuErr := ⟨13⟩
/-- This error and every larger code is fatal. -/
def flashAccess : BmDfuErr := ⟨14⟩
end BmDfuErr

/-- `BmDfuImgInfo`: what a Start frame says about the image. -/
structure BmDfuImgInfo where
  imageSize : UInt32
  chunkSize : UInt16
  crc16 : UInt16
  majorVer : UInt8
  minorVer : UInt8
  filterKey : UInt32
  gitSHA : UInt32
  deriving DecidableEq, Repr

/-- `BM_DFU_IMG_INFO_FORCE_UPDATE` -/
def bmDfuImgInfoForceUpdate : UInt32 := 0x4CEDc0fe

/-- `DFU_IMG_START_OFFSET_BYTES`, the size of the packed `BmDfuImgInfo`. -/
def dfuImgStartOffsetBytes : Nat := 18

def bmDfuMaxChunkSize : Nat := 1024
def bmDfuMaxChunkRetries : Nat := 5
def bmDfuMaxAckRetries : Nat := 2
def bmImgPageLength : Nat := 2048

/-! ## Frame types -/

def bcmpDFUStartMessage : UInt8 := 0xD0
def bcmpDFUPayloadReqMessage : UInt8 := 0xD1
def bcmpDFUPayloadMessage : UInt8 := 0xD2
def bcmpDFUEndMessage : UInt8 := 0xD3
def bcmpDFUAckMessage : UInt8 := 0xD4
def bcmpDFUAbortMessage : UInt8 := 0xD5
def bcmpDFUHeartbeatMessage : UInt8 := 0xD6
def bcmpDFURebootReqMessage : UInt8 := 0xD7
def bcmpDFURebootMessage : UInt8 := 0xD8
def bcmpDFUBootCompleteMessage : UInt8 := 0xD9

/-! ## Readers -/

def u16At (beyond : Nat → UInt8) (b : List UInt8) (off : Nat) : UInt16 :=
  UInt16.ofNat (leNat (window beyond b off 2))
def u32At (beyond : Nat → UInt8) (b : List UInt8) (off : Nat) : UInt32 :=
  UInt32.ofNat (leNat (window beyond b off 4))
def u64At (beyond : Nat → UInt8) (b : List UInt8) (off : Nat) : UInt64 :=
  UInt64.ofNat (leNat (window beyond b off 8))

/-- `frame->header.frame_type` -/
def frameType (beyond : Nat → UInt8) (b : List UInt8) : UInt8 := byteAt beyond b 0
/-- `addresses.src_node_id` -/
def srcNodeId (beyond : Nat → UInt8) (b : List UInt8) : UInt64 := u64At beyond b 1
/-- `addresses.dst_node_id` -/
def dstNodeId (beyond : Nat → UInt8) (b : List UInt8) : UInt64 := u64At beyond b 9

/-- `BmDfuEventImgInfo.img_info` -/
def imgInfo (beyond : Nat → UInt8) (b : List UInt8) : BmDfuImgInfo where
  imageSize := u32At beyond b 17
  chunkSize := u16At beyond b 21
  crc16 := u16At beyond b 23
  majorVer := byteAt beyond b 25
  minorVer := byteAt beyond b 26
  filterKey := u32At beyond b 27
  gitSHA := u32At beyond b 31

/-- `BmDfuEventChunkRequest.seq_num` -/
def seqNum (beyond : Nat → UInt8) (b : List UInt8) : Nat := (u16At beyond b 17).toNat
/-- `BmDfuEventImageChunk.payload_length` -/
def payloadLength (beyond : Nat → UInt8) (b : List UInt8) : Nat := (u16At beyond b 17).toNat
/-- The first `len` bytes at `BmDfuEventImageChunk.payload_buf` -/
def payloadBuf (beyond : Nat → UInt8) (b : List UInt8) (len : Nat) : List UInt8 :=
  window beyond b 19 len
/-- `BmDfuEventResult.success` -/
def resultSuccess (beyond : Nat → UInt8) (b : List UInt8) : UInt8 := byteAt beyond b 17
/-- `BmDfuEventResult.err_code` -/
def resultErrCode (beyond : Nat → UInt8) (b : List UInt8) : BmDfuErr := ⟨byteAt beyond b 18⟩

/-! ## Writers -/

/-- Frame type and addresses, common to all DFU frames. -/
def frameHeader (type : UInt8) (src dst : UInt64) : List UInt8 :=
  type :: (leBytes 8 src.toNat ++ leBytes 8 dst.toNat)

/-- The packed `BmDfuImgInfo`. -/
def BmDfuImgInfo.bytes (i : BmDfuImgInfo) : List UInt8 :=
  leBytes 4 i.imageSize.toNat ++ leBytes 2 i.chunkSize.toNat ++ leBytes 2 i.crc16.toNat ++
    [i.majorVer, i.minorVer] ++ leBytes 4 i.filterKey.toNat ++ leBytes 4 i.gitSHA.toNat

/-- `BcmpDfuStart` -/
def startFrame (src dst : UInt64) (info : BmDfuImgInfo) : List UInt8 :=
  frameHeader bcmpDFUStartMessage src dst ++ info.bytes
/-- `BcmpDfuPayloadReq` -/
def payloadReqFrame (src dst : UInt64) (seq : Nat) : List UInt8 :=
  frameHeader bcmpDFUPayloadReqMessage src dst ++ leBytes 2 seq
/-- `BcmpDfuPayload` followed by its payload -/
def payloadFrame (src dst : UInt64) (len : Nat) (payload : List UInt8) : List UInt8 :=
  frameHeader bcmpDFUPayloadMessage src dst ++ leBytes 2 len ++ payload
/-- `BcmpDfuEnd`, `BcmpDfuAck` and `BcmpDfuAbort` -/
def resultFrame (type : UInt8) (src dst : UInt64) (success : UInt8) (err : BmDfuErr) :
    List UInt8 :=
  frameHeader type src dst ++ [success, err.code]

@[simp] theorem frameHeader_length (type : UInt8) (src dst : UInt64) :
    (frameHeader type src dst).length = 17 := by simp [frameHeader]

@[simp] theorem BmDfuImgInfo.bytes_length (i : BmDfuImgInfo) :
    i.bytes.length = dfuImgStartOffsetBytes := by simp [BmDfuImgInfo.bytes, dfuImgStartOffsetBytes]

end BmCore.Dfu
