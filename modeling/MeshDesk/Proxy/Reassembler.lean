import MeshDesk.Proxy.Chunk
import Mathlib.Data.Finset.Basic
import Mathlib.Data.List.Sort

/-! The exit-side streaming reassembler. A stream's state is reached through the
`streams` map, so each operation takes it out, works on it together with the global
byte counter, and writes it back. -/
namespace MeshDesk.Proxy
open Lib

inductive ReassemblyError where
  | chunksExceeded
  | bytesExceeded
  deriving DecidableEq, Repr

def ReassemblyError.text : ReassemblyError → String
  | .chunksExceeded => "proxy: reassembly chunk limit exceeded"
  | .bytesExceeded => "proxy: reassembly byte limit exceeded"

structure ExitStreamState where
  chunks : Map UInt32 Bytes
  nextExpected : UInt32
  total : UInt32
  totalSet : Bool
  completed : Bool
  bytes : ℤ
  accumulated : Bytes
  firstChunkAt : Time

structure ExitReassembler where
  cfg : ChunkerConfig
  streams : Map UInt32 ExitStreamState
  totalBytes : ℤ
  completedStreams : Finset UInt32

def newExitReassembler (cfg : ChunkerConfig) : ExitReassembler := ⟨cfg, ∅, 0, ∅⟩

def newExitStreamState (now : Time) : ExitStreamState := ⟨∅, 0, 0, false, false, 0, [], now⟩

/-- The guard `if r.totalBytes < 0 { r.totalBytes = 0 }`. The functions that contain it
take it as the argument `clamp`, so that a run can be compared with the same run
without the guard. -/
def clampNonneg (n : ℤ) : ℤ := if n < 0 then 0 else n

namespace ExitStreamState

variable (st : ExitStreamState)

def store (seq : UInt32) (payload : Bytes) : ExitStreamState :=
  { st with chunks := st.chunks.insert seq payload, bytes := st.bytes + payload.length }

/-- The total is taken from the first data chunk that carries one. -/
def noteTotal (total : UInt32) : ExitStreamState :=
  if 0 < total ∧ st.totalSet = false then { st with total := total, totalSet := true } else st

def takeNext (payload : Bytes) : ExitStreamState :=
  { st with
    bytes := st.bytes - payload.length
    chunks := st.chunks.erase st.nextExpected
    nextExpected := st.nextExpected + 1 }

/-- Every iteration removes a buffered chunk, so the number of them is enough fuel. -/
def deliverLoop : ℕ → ℤ → ExitStreamState → Bytes → Bytes × ℤ × ExitStreamState
  | 0, totalBytes, st, result => (result, totalBytes, st)
  | fuel + 1, totalBytes, st, result =>
    match st.chunks.lookup st.nextExpected with
    | none => (result, totalBytes, st)
    | some payload =>
      deliverLoop fuel (totalBytes - payload.length) (st.takeNext payload) (result ++ payload)

def deliverContiguous (totalBytes : ℤ) (st : ExitStreamState) : Bytes × ℤ × ExitStreamState :=
  deliverLoop st.chunks.size totalBytes st []

def sortedSeqs : List UInt32 := st.chunks.keys.insertionSort (· ≤ ·)

def flushRemaining (clamp : ℤ → ℤ) (totalBytes : ℤ) (st : ExitStreamState) :
    Bytes × ℤ × ExitStreamState :=
  if st.chunks.size = 0 then ([], totalBytes, st)
  else (st.sortedSeqs.flatMap (fun seq => (st.chunks.lookup seq).getD []),
    clamp (totalBytes - st.bytes), { st with bytes := 0, chunks := ∅ })

end ExitStreamState

structure ProcessResult where
  delivered : Bytes
  done : Bool
  err : Option ReassemblyError
  totalBytes : ℤ
  st : ExitStreamState

structure AddResult where
  data : Bytes
  done : Bool
  err : Option ReassemblyError
  deriving DecidableEq, Repr

namespace ExitReassembler

variable (clamp : ℤ → ℤ) (r : ExitReassembler) (streamID : UInt32) (totalBytes : ℤ) (st : ExitStreamState)
    (now : Time) (chunk : Chunk)

def checkBounds (payload : Bytes) : Option ReassemblyError :=
  if 0 < r.cfg.maxReassemblyChunks ∧ r.cfg.maxReassemblyChunks ≤ st.chunks.size then
    some .chunksExceeded
  else if 0 < r.cfg.maxReassemblyBytes ∧
      r.cfg.maxReassemblyBytes < r.totalBytes + payload.length then
    some .bytesExceeded
  else none

/-- The tail of the stream-end branch: complete the stream and flush what is buffered. -/
def endStream : ProcessResult :=
  let (delivered, totalBytes, st) := { st with completed := true }.flushRemaining clamp totalBytes
  ⟨delivered, true, none, totalBytes, st⟩

/-- The data branch once the chunk has passed the range, duplicate and bounds checks. -/
def storeData : ProcessResult :=
  let st := (st.store chunk.sequence chunk.payload).noteTotal chunk.total
  let (delivered, totalBytes, st) := st.deliverContiguous (totalBytes + chunk.payload.length)
  if st.totalSet ∧ st.total ≤ st.nextExpected then
    ⟨delivered, true, none, totalBytes, { st with completed := true }⟩
  else ⟨delivered, false, none, totalBytes, st⟩

def processChunk : ProcessResult :=
  if st.completed then ⟨[], false, none, r.totalBytes, st⟩
  else if chunk.type = .padding then ⟨[], false, none, r.totalBytes, st⟩
  else if chunk.type = .streamEnd then
    if chunk.payload ≠ [] ∧ st.chunks.lookup chunk.sequence = none ∧
        ¬ chunk.sequence < st.nextExpected then
      match r.checkBounds st chunk.payload with
      | some e => ⟨[], false, some e, r.totalBytes, st⟩
      | none => endStream clamp (r.totalBytes + chunk.payload.length)
          (st.store chunk.sequence chunk.payload)
    else endStream clamp r.totalBytes st
  else if 0 < chunk.total ∧ chunk.total ≤ chunk.sequence then ⟨[], false, none, r.totalBytes, st⟩
  else if st.totalSet ∧ st.total ≤ chunk.sequence then ⟨[], false, none, r.totalBytes, st⟩
  else if (st.chunks.lookup chunk.sequence).isSome then ⟨[], false, none, r.totalBytes, st⟩
  else
    -- No test for a sequence already delivered here, unlike in the stream-end branch.
    match r.checkBounds st chunk.payload with
    | some e => ⟨[], false, some e, r.totalBytes, st⟩
    | none => storeData r.totalBytes st chunk

def getOrCreateStream : ExitReassembler × ExitStreamState :=
  match r.streams.lookup streamID with
  | some st => (r, st)
  | none =>
    ({ r with streams := r.streams.insert streamID (newExitStreamState now) },
      newExitStreamState now)

def cleanupStream : ExitReassembler :=
  match r.streams.lookup streamID with
  | some st =>
    { r with totalBytes := clamp (r.totalBytes - st.bytes), streams := r.streams.erase streamID }
  | none => r

def writeBack : ExitReassembler :=
  { r with totalBytes := totalBytes, streams := r.streams.insert streamID st }

def complete : ExitReassembler :=
  { r with completedStreams := insert streamID r.completedStreams }.cleanupStream clamp streamID

def addWith : AddResult × ExitReassembler :=
  if chunk.streamID ∈ r.completedStreams then (⟨[], false, none⟩, r)
  else
    let (r, st) := r.getOrCreateStream chunk.streamID now
    if st.completed then (⟨[], false, none⟩, r)
    else
      let p := r.processChunk clamp st chunk
      match p.err with
      | some e => (⟨[], false, some e⟩, r.writeBack chunk.streamID p.totalBytes p.st)
      | none =>
        let st := { p.st with accumulated := p.st.accumulated ++ p.delivered }
        let r := r.writeBack chunk.streamID p.totalBytes st
        if p.done then (⟨st.accumulated, true, none⟩, r.complete clamp chunk.streamID)
        else (⟨[], false, none⟩, r)

def addStreamingWith : AddResult × ExitReassembler :=
  if chunk.streamID ∈ r.completedStreams then (⟨[], false, none⟩, r)
  else
    let (r, st) := r.getOrCreateStream chunk.streamID now
    if st.completed then (⟨[], false, none⟩, r)
    else
      let p := r.processChunk clamp st chunk
      let r := r.writeBack chunk.streamID p.totalBytes p.st
      match p.err with
      | some e => (⟨[], false, some e⟩, r)
      | none =>
        if p.done then (⟨p.delivered, true, none⟩, r.complete clamp chunk.streamID)
        else (⟨p.delivered, false, none⟩, r)

def add : ExitReassembler → Time → Chunk → AddResult × ExitReassembler := addWith clampNonneg

def addStreaming : ExitReassembler → Time → Chunk → AddResult × ExitReassembler :=
  addStreamingWith clampNonneg

def nextExpected (r : ExitReassembler) (streamID : UInt32) : Option UInt32 :=
  (r.streams.lookup streamID).map (·.nextExpected)

def isCompleted : Bool :=
  match r.streams.lookup streamID with
  | some st => st.completed
  | none => false

def purgeStream : ExitReassembler → UInt32 → ExitReassembler :=
  cleanupStream clamp

def expired : Prop :=
  st.completed = false ∧ r.cfg.streamReassemblyTimeout < Time.sub now st.firstChunkAt

instance (r : ExitReassembler) (st : ExitStreamState) (now : Time) : Decidable (r.expired st now) :=
  inferInstanceAs (Decidable (_ ∧ _))

def expireStream : Bool × ExitReassembler :=
  if r.cfg.streamReassemblyTimeout ≤ 0 then (false, r)
  else
    match r.streams.lookup streamID with
    | none => (false, r)
    | some st => if r.expired st now then (true, r.cleanupStream clamp streamID) else (false, r)

/-- The expired streams are collected before any of them is purged. -/
def expireStreams : List UInt32 × ExitReassembler :=
  if r.cfg.streamReassemblyTimeout ≤ 0 then ([], r)
  else
    let ids := (r.streams.entries.filter (fun e => r.expired e.2 now)).map (·.1)
    (ids, ids.foldl (cleanupStream clamp) r)

end ExitReassembler
end MeshDesk.Proxy
