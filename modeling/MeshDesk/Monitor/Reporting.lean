import MeshDesk.Lib.Interleaving
import MeshDesk.Proxy.Chunk

/-! Reporters push samples to collectors; collectors drop what they have seen, store the rest and forward it. The
critical sections of all calls are interleaved, and a message on its way is a section that has yet to run. -/
namespace MeshDesk.Monitor
open Lib
open Proxy (GoString Time Duration second)

/-- A sample is known by its source and its number among all samples the source ever took. What it measures plays
no part here. Times count from Go's zero time. -/
structure Metrics where
  serial : ℕ
  timestamp : Time
  deriving DecidableEq

structure MetricEnvelope where
  sourceID : GoString
  sequence : UInt64
  forwarded : Bool := false
  metrics : Metrics
  deriving DecidableEq

def MetricEnvelope.sample (env : MetricEnvelope) : GoString × ℕ := (env.sourceID, env.metrics.serial)

/-! ### Stores -/

def highResSlots : ℕ := 12 * 60

/-- A store by its history: the samples appended so far, with the node each was appended for. -/
abbrev Store := List (GoString × Metrics)

namespace Store

variable (s : Store) (nodeID : GoString)

def append (m : Metrics) : Store := s ++ [(nodeID, m)]

/-- The ring of a node holds its last samples; one without a time is not accepted. -/
def highRes : List Metrics :=
  let accepted := (s.filter (fun e => e.1 = nodeID ∧ e.2.timestamp ≠ 0)).map Prod.snd
  accepted.drop (accepted.length - highResSlots)

def range (since : Time) : List Metrics :=
  (s.highRes nodeID).filter (fun m => since = 0 ∨ since ≤ m.timestamp)

end Store

/-! ### Reporters -/

inductive LoopStage
  | idle
  | stored (m : Metrics)
  | checked (m : Metrics)
  | numbered (env : MetricEnvelope)
  | pushing (env : MetricEnvelope) (left : List GoString) (pushed : Bool)

/-- `collected` counts the samples over all restarts, `epoch` the restarts. -/
structure Reporter where
  collectors : List GoString := []
  sequence : UInt64 := 0
  store : Store := []
  bufferedCount : ℤ := 0
  loop : LoopStage := .idle
  collected : ℕ := 0
  epoch : ℕ := 0

def maxBufferAge : Duration := 24 * 60 * 60 * second

/-! ### Collectors -/

/-- `arrived` keeps the envelopes that reached the collector while it ran, from sources it accepts. -/
structure Aggregator where
  running : Bool := true
  forwards : Bool := true
  store : Store := []
  dedup : Map GoString UInt64 := ∅
  arrived : List MetricEnvelope := []

namespace Aggregator

/-- The sequence number is at most the last one seen from the source. -/
def isDuplicate (a : Aggregator) (env : MetricEnvelope) : Bool :=
  match a.dedup.lookup env.sourceID with
  | none => false
  | some lastSeq => decide (env.sequence ≤ lastSeq)

/-- The critical section on `dedup`: whether the envelope is to be stored. -/
def checkDedup (a : Aggregator) (env : MetricEnvelope) : Bool × Aggregator :=
  let a := { a with arrived := a.arrived ++ [env] }
  if a.isDuplicate env then (false, a)
  else (true, { a with dedup := a.dedup.insert env.sourceID env.sequence })

end Aggregator

/-! ### Sections -/

inductive Task
  | tick (r : GoString)
  | setCollectors (r : GoString) (collectors : List GoString)
  | restart (r : GoString)
  | flushBuffer (r : GoString)
  | flushRange (r : GoString) (epoch : ℕ) (collectors : List GoString)
  | flushNext (r : GoString) (epoch : ℕ) (collectors : List GoString) (samples : List Metrics)
  | flushPush (r : GoString) (epoch : ℕ) (collectors : List GoString) (samples : List Metrics) (env : MetricEnvelope)
    (left : List GoString)
  | setRunning (c : GoString) (running : Bool)
  | deliver (c : GoString) (env : MetricEnvelope)
  | store (c : GoString) (env : MetricEnvelope)
  | forward (c : GoString) (env : MetricEnvelope)
  | send (c : GoString) (env : MetricEnvelope) (left : List GoString)

/-- What a section meets: the time of the sample it takes (`none` if the system cannot be read), the peers it is
told of, whether its push goes through, and the clock. -/
structure Weather where
  sampled : Option Time := none
  peers : List GoString := []
  ok : Bool := true
  now : Time := 0

structure State where
  reporters : GoString → Reporter
  collectors : GoString → Aggregator

namespace State

def setReporter (s : State) (r : GoString) (rep : Reporter) : State :=
  { s with reporters := Function.update s.reporters r rep }

def setCollector (s : State) (c : GoString) (a : Aggregator) : State :=
  { s with collectors := Function.update s.collectors c a }

end State

/-- The next section of `collectAndPush` of the reporter `r`: sample and store, look for collectors, read the
sequence number, list the collectors (all known peers if there are none), push to one after the other. -/
def Reporter.tick (rep : Reporter) (r : GoString) (w : Weather) : Reporter × List Task :=
  match rep.loop with
  | .idle =>
    match w.sampled with
    | none => (rep, [])
    | some time =>
      let m : Metrics := ⟨rep.collected, time⟩
      ({ rep with
        collected := rep.collected + 1
        sequence := rep.sequence + 1
        store := rep.store.append r m
        loop := .stored m }, [])
  | .stored m => ({ rep with loop := if rep.collectors = [] then .idle else .checked m }, [])
  | .checked m => ({ rep with loop := .numbered { sourceID := r, sequence := rep.sequence, metrics := m } }, [])
  | .numbered env =>
    let targets := if rep.collectors = [] then w.peers.filter (· ≠ r) else rep.collectors
    ({ rep with loop := .pushing env targets false }, [])
  | .pushing env (c :: left) pushed =>
    ({ rep with loop := .pushing env left (pushed || w.ok) }, if w.ok then [.deliver c env] else [])
  | .pushing _ [] pushed =>
    ({ rep with loop := .idle, bufferedCount := if pushed then rep.bufferedCount else rep.bufferedCount + 1 }, [])

/-- A new process: the sequence numbers start again and the local store is empty. -/
def Reporter.restarted (rep : Reporter) : Reporter where
  collectors := rep.collectors
  collected := rep.collected
  epoch := rep.epoch + 1

variable (authorized : GoString → GoString → Bool)

/-- `handlePush` up to the end of its critical section. `authorized` is the capability check. -/
def handlePush (s : State) (c : GoString) (env : MetricEnvelope) : State × List Task :=
  let a := s.collectors c
  if !a.running ∨ env.sourceID = [] ∨ !authorized c env.sourceID then (s, [])
  else
    match a.checkDedup env with
    | (false, a) => (s.setCollector c a, [])
    | (true, a) => (s.setCollector c a, [.store c env])

/-- One section. The flush of an earlier process of the reporter is gone with it. -/
def exec (s : State) (w : Weather) : Task → State × List Task
  | .tick r =>
    let (rep, tasks) := (s.reporters r).tick r w
    (s.setReporter r rep, tasks)
  | .setCollectors r collectors => (s.setReporter r { s.reporters r with collectors := collectors }, [])
  | .restart r => (s.setReporter r (s.reporters r).restarted, [])
  | .flushBuffer r =>
    let rep := s.reporters r
    (s, if rep.collectors = [] then [] else [.flushRange r rep.epoch rep.collectors])
  | .flushRange r epoch collectors =>
    let rep := s.reporters r
    if rep.epoch ≠ epoch then (s, [])
    else (s, [.flushNext r epoch collectors (rep.store.range r (w.now - maxBufferAge))])
  | .flushNext r epoch collectors samples =>
    let rep := s.reporters r
    match samples with
    | [] => (s, [])
    | m :: samples =>
      if rep.epoch ≠ epoch then (s, [])
      else
        let seq := rep.sequence + 1
        (s.setReporter r { rep with sequence := seq },
          [.flushPush r epoch collectors samples { sourceID := r, sequence := seq, metrics := m } collectors])
  | .flushPush r epoch collectors samples env left =>
    if (s.reporters r).epoch ≠ epoch then (s, [])
    else
      match left with
      | [] => (s, [.flushNext r epoch collectors samples])
      | c :: left =>
        (s, if w.ok then [.deliver c env, .flushNext r epoch collectors samples]
          else [.flushPush r epoch collectors samples env left])
  | .setRunning c running => (s.setCollector c { s.collectors c with running := running }, [])
  | .deliver c env => handlePush authorized s c env
  | .store c env =>
    let a := s.collectors c
    (s.setCollector c { a with store := a.store.append env.sourceID env.metrics }, [.forward c env])
  | .forward c env =>
    if env.forwarded ∨ !(s.collectors c).forwards then (s, [])
    else (s, [.send c { env with forwarded := true } w.peers])
  | .send c env left =>
    match left with
    | [] => (s, [])
    | p :: left =>
      if p = c ∨ !w.ok then (s, [.send c env left]) else (s, [.deliver p env, .send c env left])

/-- What may be called at any time; the other sections follow from calls. -/
inductive Call
  | tick (r : GoString)
  | setCollectors (r : GoString) (collectors : List GoString)
  | restart (r : GoString)
  | flushBuffer (r : GoString)
  | setRunning (c : GoString) (running : Bool)

def Call.task : Call → Task
  | tick r => .tick r
  | setCollectors r collectors => .setCollectors r collectors
  | restart r => .restart r
  | flushBuffer r => .flushBuffer r
  | setRunning c running => .setRunning c running

def reporting : Sections State Weather Call Task where
  start := Call.task
  exec := exec authorized

/-- New reporters and collectors, with the collectors each reporter is configured with. -/
def init (collectors : GoString → List GoString) : Pool State Task where
  state := ⟨fun r => { collectors := collectors r }, fun _ => {}⟩
  ready := []

end MeshDesk.Monitor
