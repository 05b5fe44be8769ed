import MeshDesk.Monitor.Reporting

/-! The copy of an envelope shares its sample with the original and with the local store. What is stripped from one
is gone from all. -/
namespace MeshDesk.Monitor
open Proxy (GoString)

/-- `PeerLatency` of the shared sample; `none` is the nil map. -/
abbrev PeerLatency := Option (List (GoString × ℤ))

structure Message where
  env : MetricEnvelope
  peerLatency : PeerLatency
  deriving DecidableEq

/-- The empty map is omitted. -/
def marshal (env : MetricEnvelope) (latency : PeerLatency) : Message := ⟨env, latency.filter (· ≠ [])⟩

/-- The collector with the lowest round trip so far and that round trip, negative while none is known. -/
def nearer (rtts : GoString → Option ℤ) (best : GoString × ℤ) (c : GoString) : GoString × ℤ :=
  match rtts c with
  | none => best
  | some rtt => if best.2 < 0 ∨ rtt < best.2 then (c, rtt) else best

def bestCollector (rtts : Option (GoString → Option ℤ)) (collectors : List GoString) : GoString :=
  match rtts with
  | none => collectors.headD []
  | some rtts => (collectors.foldl (nearer rtts) (collectors.headD [], -1)).1

/-- The messages pushed, and the latencies the sample is left with. -/
def pushLoop (env : MetricEnvelope) (data : Message) (best : GoString) :
    List GoString → PeerLatency → List (GoString × Message) × PeerLatency
  | [], latency => ([], latency)
  | c :: cs, latency =>
    if c ≠ best ∧ latency ≠ none then
      let (pushed, latency) := pushLoop env data best cs none
      ((c, marshal env none) :: pushed, latency)
    else
      let (pushed, latency) := pushLoop env data best cs latency
      ((c, data) :: pushed, latency)

structure Pushed where
  ok : Bool := false
  messages : List (GoString × Message) := []
  stored : PeerLatency

/-- The collectors pushed to: all peers but the node itself if none are configured. -/
def pushTargets (collectors peers : List GoString) (localPeerID : GoString) : List GoString :=
  if collectors = [] then peers.filter (· ≠ localPeerID) else collectors

def pushToCollectors (env : MetricEnvelope) (latency : PeerLatency) (collectors peers : List GoString)
    (localPeerID : GoString) (rtts : Option (GoString → Option ℤ)) (tryPush : GoString → Message → Bool) : Pushed :=
  let targets := pushTargets collectors peers localPeerID
  if targets = [] then { stored := latency }
  else
    let (messages, stored) := pushLoop env (marshal env latency) (bestCollector rtts targets) targets latency
    { ok := messages.any fun m => tryPush m.1 m.2, messages, stored }

section
variable {env : MetricEnvelope} {data : Message} {best : GoString} {cs : List GoString} {latency : PeerLatency}

theorem pushLoop_of_best (h : ∀ c ∈ cs, c = best) :
    pushLoop env data best cs latency = (cs.map (·, data), latency) := by
  induction cs with
  | nil => rfl
  | cons c cs ih =>
    rw [List.forall_mem_cons] at h
    simp [pushLoop, h.1, ih h.2]

theorem pushLoop_stored : (pushLoop env data best cs latency).2 = if ∀ c ∈ cs, c = best then latency else none := by
  induction cs generalizing latency with
  | nil => simp [pushLoop]
  | cons c cs ih =>
    by_cases hc : c = best
    · simp [pushLoop, hc, ih]
    · cases latency <;> simp [pushLoop, hc, ih]

end

/-- The latencies go to the selected collector only and stay in the store. -/
def Disciplined (latency : PeerLatency) (best : GoString) (p : Pushed) : Prop :=
  (∀ m ∈ p.messages, m.2.peerLatency = if m.1 = best then latency else none) ∧ p.stored = latency

/-- Only as long as nobody but the selected collector is pushed to. -/
theorem pushToCollectors_disciplined_iff (env : MetricEnvelope) (latencies : List (GoString × ℤ)) (hne : latencies ≠ [])
    (collectors peers : List GoString) (localPeerID : GoString) (rtts : Option (GoString → Option ℤ))
    (tryPush : GoString → Message → Bool) :
    let targets := pushTargets collectors peers localPeerID
    Disciplined (some latencies) (bestCollector rtts targets)
        (pushToCollectors env (some latencies) collectors peers localPeerID rtts tryPush) ↔
      ∀ c ∈ targets, c = bestCollector rtts targets := by
  intro targets
  unfold pushToCollectors Disciplined
  by_cases hnil : pushTargets collectors peers localPeerID = []
  · simp [targets, hnil]
  simp only [if_neg hnil]
  constructor
  · rintro ⟨-, hstored⟩
    by_contra hn
    rw [pushLoop_stored, if_neg hn] at hstored
    exact absurd hstored (by simp)
  · intro h
    rw [pushLoop_of_best h]
    refine ⟨List.forall_mem_map.mpr fun c hc => ?_, rfl⟩
    rw [if_pos (h c hc)]
    simp [marshal, hne]

theorem pushToCollectors_disciplined_single :
    Disciplined (some [([1], 5)]) [1]
      (pushToCollectors ⟨[9], 1, false, ⟨0, 1⟩⟩ (some [([1], 5)]) [[1]] [] [9] none fun _ _ => true) :=
  (pushToCollectors_disciplined_iff ⟨[9], 1, false, ⟨0, 1⟩⟩ [([1], 5)] (by simp) [[1]] [] [9] none fun _ _ => true).mpr
    (by decide)

/-- Of three collectors the second gets a stripped message; the third gets the latencies, which the store has lost. -/
theorem pushToCollectors_leaks :
    let p := pushToCollectors ⟨[9], 1, false, ⟨0, 1⟩⟩ (some [([1], 5)]) [[1], [2], [3]] [] [9]
      (some fun c => if c = [1] then some 5 else none) fun _ _ => true
    p.messages.map (fun m => (m.1, m.2.peerLatency)) = [([1], some [([1], 5)]), ([2], none), ([3], some [([1], 5)])] ∧
      p.stored = none := by
  decide

end MeshDesk.Monitor
