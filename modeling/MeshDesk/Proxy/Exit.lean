import MeshDesk.Proxy.Protocol
import MeshDesk.Proxy.ReassemblerCalls

/-! The exit node: wire chunks are decoded, checked against the reassembly window of their circuit
and handed to its reassembler; what becomes contiguous is written to the target. -/
namespace MeshDesk.Proxy
open Lib

structure CircuitConfig where
  idleTimeout : Duration
  nackTimeout : Duration
  orphanTimeout : Duration
  maxReassemblyWindow : Int64
  streamReassemblyTimeout : Duration
  maxNACKRetries : ℤ
  deriving DecidableEq, Repr

def defaultCircuitConfig : CircuitConfig :=
  { idleTimeout := 300 * second
    nackTimeout := 5 * second
    orphanTimeout := 30 * second
    maxReassemblyWindow := 256
    streamReassemblyTimeout := 60 * second
    maxNACKRetries := 3 }

/-- Settings that are not positive are replaced where they are read. -/
def orDefault (value fallback : ℤ) : ℤ := if value ≤ 0 then fallback else value

namespace CircuitConfig

variable (cfg : CircuitConfig)

def maxWindow : Int64 :=
  if cfg.maxReassemblyWindow ≤ 0 then 256 else cfg.maxReassemblyWindow

def effectiveNACKTimeout : Duration := orDefault cfg.nackTimeout (5 * second)

def maxRetries : ℤ := orDefault cfg.maxNACKRetries 3

def effectiveOrphanTimeout : Duration := orDefault cfg.orphanTimeout (30 * second)

def streamTimeout : Duration := orDefault cfg.streamReassemblyTimeout (60 * second)

/-- The sum is a 32-bit one, as in the source. -/
def BeyondWindow (ackBase seq : UInt32) : Prop :=
  ackBase + cfg.maxWindow.toUInt64.toUInt32 ≤ seq

instance (cfg : CircuitConfig) (ackBase seq : UInt32) : Decidable (cfg.BeyondWindow ackBase seq) :=
  inferInstanceAs (Decidable (_ ≤ _))

end CircuitConfig

structure NACKMsg where
  circuitID : Bytes
  streamID : UInt32
  missingSeqs : List UInt32
  deriving DecidableEq, Repr

inductive ExitError where
  | circuitClosed
  | circuitNotFound
  | decode (e : ProtocolError)
  | notActive (circuitID : GoString) (state : CircuitState)
  | window (seq base : UInt32) (max : Int64)
  | reassemble (e : ReassemblyError)
  | write
  | nackRetriesExhausted
  deriving DecidableEq, Repr

def ExitError.text (render : GoString → String) : ExitError → String
  | .circuitClosed => "circuit is closed"
  | .circuitNotFound => "circuit not found"
  | .decode e => "decode chunk: " ++ e.text
  | .notActive circuitID state => "circuit " ++ render circuitID ++ s!" is not active (state={state.code})"
  | .window seq base max => s!"chunk sequence {seq} beyond reassembly window (base={base}, max={max})"
  | .reassemble e => "reassemble chunk: " ++ e.text
  | .write => "write to target"
  | .nackRetriesExhausted => "NACK retries exhausted, circuit should be torn down"

/-- How the target takes a write: completely, or with an error after some bytes. -/
inductive WriteOutcome where
  | ok
  | failed (n : ℕ)
  deriving DecidableEq, Repr

/-- A circuit on the exit. `streamTimers` holds the time of each stream's first chunk, and a
`lastNACKSent` of `none` is the zero time. -/
structure ExitCircuit where
  circuitIDBytes : Bytes
  e2eKey : Bytes
  targetClosed : Bool
  reassembler : ExitReassembler
  paths : Finset PathIndex
  ackBase : UInt32
  gapDetected : Bool
  gapFirstSeen : Time
  gapSeqs : Map UInt32 Bool
  nackRetryCount : Map UInt32 ℕ
  streamTimers : Map UInt32 Time
  lastActivity : Time
  state : CircuitState
  lastNACKSent : Option Time

/-- What a call returns, what the reassembler delivered in it, and what reached the target. -/
structure HandleResult where
  nack : Option NACKMsg
  err : Option ExitError
  delivered : Bytes
  written : Bytes
  deriving DecidableEq, Repr

def newExitCircuit (circuitID e2eKey : Bytes) (cfg : ChunkerConfig) (now : Time) : ExitCircuit :=
  { circuitIDBytes := circuitID
    e2eKey := e2eKey
    targetClosed := false
    reassembler := newExitReassembler cfg
    paths := ∅
    ackBase := 0
    gapDetected := false
    gapFirstSeen := 0
    gapSeqs := ∅
    nackRetryCount := ∅
    streamTimers := ∅
    lastActivity := now
    state := .active
    lastNACKSent := none }

def seqRange (a b : UInt32) : List UInt32 :=
  (List.range (b.toNat - a.toNat)).map (fun i => a + UInt32.ofNat i)

namespace ExitCircuit

variable (cfg : CircuitConfig) (c : ExitCircuit) (now : Time) (chunk : Chunk) (done : Bool)

def touch (path : PathIndex) (streamID : UInt32) : ExitCircuit :=
  { c with
    paths := insert path c.paths
    lastActivity := now
    streamTimers := if (c.streamTimers.lookup streamID).isSome then c.streamTimers
      else c.streamTimers.insert streamID now }

def markGap (c : ExitCircuit) (seq : UInt32) : ExitCircuit :=
  if (c.gapSeqs.lookup seq).getD false then c
  else
    { c with
      gapSeqs := c.gapSeqs.insert seq true
      gapDetected := true
      gapFirstSeen := if c.gapDetected then c.gapFirstSeen else now }

def markGaps (seq : UInt32) : ExitCircuit :=
  (seqRange c.ackBase seq).foldl (markGap now) c

/-- The new window base: never below the old one while the stream is in progress, but simply behind
the chunk that completes its stream. -/
def nextAckBase : UInt32 :=
  match c.reassembler.nextExpected chunk.streamID with
  | some nextExp => if c.ackBase < nextExp then nextExp else c.ackBase
  | none => if done then chunk.sequence + 1 else c.ackBase

def advance : ExitCircuit :=
  { c with
    ackBase := c.nextAckBase chunk done
    streamTimers := if done then c.streamTimers.erase chunk.streamID else c.streamTimers }

def clearGaps : ExitCircuit :=
  let gapSeqs := (c.gapSeqs.keys.filter (fun seq => decide (seq < c.ackBase))).foldl
    (fun m seq => m.erase seq) c.gapSeqs
  { c with gapSeqs := gapSeqs, gapDetected := c.gapDetected && decide (gapSeqs.size ≠ 0) }

def missing : List UInt32 :=
  (c.gapSeqs.keys.filter
    (fun seq => decide (((c.nackRetryCount.lookup seq).getD 0 : ℤ) < cfg.maxRetries))).insertionSort (· ≤ ·)

def maybeGenerateNACK (streamID : UInt32) : Except ExitError (Option NACKMsg) × ExitCircuit :=
  if c.gapDetected = false ∨ c.gapSeqs.size = 0 then (.ok none, c)
  else if Time.sub now c.gapFirstSeen < cfg.effectiveNACKTimeout then (.ok none, c)
  else if c.lastNACKSent.any (fun t => decide (Time.sub now t < cfg.effectiveNACKTimeout)) then (.ok none, c)
  else if c.missing cfg = [] then (.error .nackRetriesExhausted, c)
  else
    (.ok (some ⟨c.circuitIDBytes, streamID, c.missing cfg⟩),
      { c with
        nackRetryCount := (c.missing cfg).foldl
          (fun m seq => m.insert seq ((m.lookup seq).getD 0 + 1)) c.nackRetryCount
        lastNACKSent := some now })

def finish (delivered : Bytes) : HandleResult × ExitCircuit :=
  match ((c.advance chunk done).clearGaps).maybeGenerateNACK cfg now chunk.streamID with
  | (.error e, c) => (⟨none, some e, delivered, delivered⟩, c)
  | (.ok nack, c) => (⟨nack, none, delivered, delivered⟩, c)

def accept (write : WriteOutcome) (chunk : Chunk) : HandleResult × ExitCircuit :=
  let (res, reassembler) := c.reassembler.addStreaming now chunk
  let c := { c with reassembler := reassembler }
  match res.err with
  | some e => (⟨none, some (.reassemble e), [], []⟩, c)
  | none =>
    if res.data = [] then c.finish cfg now chunk res.done []
    else
      match write with
      | .failed n => (⟨none, some .write, res.data, res.data.take n⟩, c)
      | .ok => c.finish cfg now chunk res.done res.data

def handleChunk (path : PathIndex) (write : WriteOutcome) (chunk : Chunk) : HandleResult × ExitCircuit :=
  if c.state ≠ .active then (⟨none, some (.notActive c.circuitIDBytes c.state), [], []⟩, c)
  else
    let c := c.touch now path chunk.streamID
    if cfg.BeyondWindow c.ackBase chunk.sequence then
      (⟨none, some (.window chunk.sequence c.ackBase cfg.maxWindow), [], []⟩, c)
    else (c.markGaps now chunk.sequence).accept cfg now write chunk

/-- Purge a stream whose timer has run out; the timer goes in any case. -/
def expireTimer (c : ExitCircuit) (timer : Sigma fun _ : UInt32 => Time) : ExitCircuit :=
  if cfg.streamTimeout < Time.sub now timer.2 then
    { c with
      reassembler := if c.reassembler.isCompleted timer.1 then c.reassembler
        else c.reassembler.purgeStream clampNonneg timer.1
      streamTimers := c.streamTimers.erase timer.1 }
  else c

/-- One circuit's turn in `CleanupOrphans`: `none` when it is removed. -/
def cleanup : Option ExitCircuit :=
  if cfg.effectiveOrphanTimeout < Time.sub now c.lastActivity then none
  else some (c.streamTimers.entries.foldl (expireTimer cfg now) c)

end ExitCircuit

structure ExitConfig where
  circuitCfg : CircuitConfig
  chunkerCfg : ChunkerConfig

/-- Circuits are keyed by their raw ID; the source uses its hexadecimal form. -/
structure ExitNode where
  cfg : ExitConfig
  circuits : Map Bytes ExitCircuit
  closed : Bool

def newExitNode (cfg : ExitConfig) : ExitNode :=
  { cfg :=
      { circuitCfg := if cfg.circuitCfg.idleTimeout ≤ 0 then defaultCircuitConfig else cfg.circuitCfg
        chunkerCfg := if cfg.chunkerCfg.maxChunkSize = 0 then defaultChunkerConfig else cfg.chunkerCfg }
    circuits := ∅
    closed := false }

namespace ExitNode

def handleWireChunk (A : Aead) (e : ExitNode) (now : Time) (circuitID : Bytes) (wc : WireChunk)
    (path : PathIndex) (write : WriteOutcome) : HandleResult × ExitNode :=
  if e.closed then (⟨none, some .circuitClosed, [], []⟩, e)
  else
    match e.circuits.lookup circuitID with
    | none => (⟨none, some .circuitNotFound, [], []⟩, e)
    | some c =>
      match decodeChunk A wc c.e2eKey c.circuitIDBytes with
      | .error err => (⟨none, some (.decode err), [], []⟩, e)
      | .ok chunk =>
        let (res, c) := c.handleChunk e.cfg.circuitCfg now path write chunk
        (res, { e with circuits := e.circuits.insert circuitID c })

def cleanupOrphans (e : ExitNode) (now : Time) : ℕ × ExitNode :=
  let circuits := e.circuits.filterMapVals (fun c => c.cleanup e.cfg.circuitCfg now)
  (e.circuits.size - circuits.size, { e with circuits := circuits })

end ExitNode
end MeshDesk.Proxy
