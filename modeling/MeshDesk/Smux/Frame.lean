import MeshDesk.Proxy.Chunk

/-! Frames of a multiplexed session and the configuration of its two ends. -/
namespace MeshDesk.Smux
open Proxy (Bytes Duration)

/-- A frame type is any byte; the protocol names six of them. -/
structure FrameType where
  byte : UInt8
  deriving DecidableEq, Repr

namespace FrameType

def data : FrameType := ⟨0x00⟩
def syn : FrameType := ⟨0x01⟩
def fin : FrameType := ⟨0x02⟩
def rst : FrameType := ⟨0x03⟩
def ping : FrameType := ⟨0x04⟩
def goAway : FrameType := ⟨0x05⟩

end FrameType

def flagSyn : UInt16 := 0x0001
def flagFin : UInt16 := 0x0002
def flagRst : UInt16 := 0x0004
def flagAck : UInt16 := 0x0008

def protocolVersion : UInt8 := 1

def maxStreamID : UInt32 := 0x7FFFFFFF

/-- The length field of a frame is the length of its payload. -/
structure Frame where
  version : UInt8
  type : FrameType
  flags : UInt16
  streamID : UInt32
  payload : Bytes
  deriving DecidableEq, Repr

variable (streamID code : UInt32)

def codePayload : Bytes :=
  [(code >>> 24).toUInt8, (code >>> 16).toUInt8, (code >>> 8).toUInt8, code.toUInt8]

def newDataFrame (payload : Bytes) : Frame :=
  ⟨protocolVersion, .data, 0, streamID, payload⟩

def newSynFrame (ack : Bool) : Frame :=
  ⟨protocolVersion, .syn, if ack then flagSyn ||| flagAck else flagSyn, streamID, []⟩

def newFinFrame : Frame := ⟨protocolVersion, .fin, flagFin, streamID, []⟩

def newRstFrame : Frame :=
  ⟨protocolVersion, .rst, flagRst, streamID, codePayload code⟩

def newPingFrame (opaqueCode : UInt32) : Frame := ⟨protocolVersion, .ping, 0, 0, codePayload opaqueCode⟩

def newGoAwayFrame : Frame := ⟨protocolVersion, .goAway, 0, 0, codePayload code⟩

def goAwayNormal : UInt32 := 0

def goAwayProtocolError : UInt32 := 1
def rstRefused : UInt32 := 1

/-- The capacity of `writeCh`, the queue in which the frames wait for the writer. -/
def writeChSize : ℕ := 256

structure Config where
  maxStreams : ℤ
  writeBufferSize : ℤ
  acceptBacklog : ℤ
  pingInterval : Duration
  pingTimeout : Duration
  deriving DecidableEq, Repr

/-- The defaults that `validateConfig` fills in, as far as these fields go. -/
def validateConfig (cfg : Config) : Config :=
  { cfg with acceptBacklog := if cfg.acceptBacklog < 1 then 64 else cfg.acceptBacklog }

end MeshDesk.Smux
