import MeshDesk.Lib.Maps

/-! Chunks of an application stream and the configuration shared by chunkers and
reassemblers. Byte slices are lists of bytes, Go's `int` is `Int64` where its
arithmetic matters, and a point in time is a number of nanoseconds. -/
namespace MeshDesk.Proxy

abbrev Bytes := List UInt8

/-- A Go string is a byte sequence, not necessarily UTF-8. -/
abbrev GoString := Bytes

instance : LawfulBEq GoString := List.instLawfulBEq

abbrev Time := ℤ

abbrev Duration := ℤ

/-- `t.Sub(u)`: the difference, saturated to the range of a 64-bit duration. -/
def Time.sub (t u : Time) : Duration := max (-2 ^ 63) (min (2 ^ 63 - 1) (t - u))

def second : Duration := 1000000000

/-- A chunk type is any byte; the protocol names four of them. -/
structure ChunkType where
  byte : UInt8
  deriving DecidableEq, Repr

namespace ChunkType

def data : ChunkType := ⟨0x01⟩
def streamEnd : ChunkType := ⟨0x02⟩
def padding : ChunkType := ⟨0x03⟩
def streamStart : ChunkType := ⟨0x04⟩

end ChunkType

structure Chunk where
  streamID : UInt32
  sequence : UInt32
  total : UInt32
  type : ChunkType
  payload : Bytes
  paddingLen : UInt16
  deriving DecidableEq, Repr

/-- The reassembler treats every type other than padding and stream end as data. -/
def Chunk.isData (c : Chunk) : Prop := c.type ≠ .padding ∧ c.type ≠ .streamEnd

instance (c : Chunk) : Decidable c.isData := inferInstanceAs (Decidable (_ ∧ _))

structure ChunkerConfig where
  maxChunkSize : Int64
  minChunkSize : Int64
  paddingMin : Int64
  paddingMax : Int64
  disablePadding : Bool
  debugFixedSizes : Bool
  maxReassemblyChunks : ℤ
  maxReassemblyBytes : ℤ
  streamReassemblyTimeout : Duration
  deriving DecidableEq, Repr

def defaultMaxReassemblyChunks : ℤ := 2048

def defaultMaxReassemblyBytes : ℤ := 32 * 1024 * 1024

def defaultStreamReassemblyTimeout : Duration := 30 * second

def defaultChunkerConfig : ChunkerConfig where
  maxChunkSize := 16 * 1024
  minChunkSize := 16 * 1024
  paddingMin := 1024
  paddingMax := 4 * 1024
  disablePadding := false
  debugFixedSizes := false
  maxReassemblyChunks := defaultMaxReassemblyChunks
  maxReassemblyBytes := defaultMaxReassemblyBytes
  streamReassemblyTimeout := defaultStreamReassemblyTimeout

end MeshDesk.Proxy
