import MeshDesk.Proxy.Dispatcher

/-! The relay node. It opens the forwarding header with its own key and passes the chunk on
unchanged; the jitter delays a chunk without changing it. -/
namespace MeshDesk.Proxy
open Lib List

/-- Per-circuit state. `AddCircuit` refuses keys of another size. -/
structure CircuitEntry where
  relayKey : Bytes
  nextHop : GoString
  nextRelayKey : Option Bytes
  key_length : relayKey.length = keySize

structure Relay where
  maxCircuits : ℤ
  circuits : Map GoString CircuitEntry

inductive RelayError where
  | relayKeySize (got : ℕ)
  | nextRelayKeySize (got : ℕ)
  | capacity (circuits : ℕ) (max : ℤ)
  | registered (circuitID : GoString)
  | notFound (circuitID : GoString)
  | headerSize (got : ℕ)
  | header (e : ProtocolError)
  deriving DecidableEq, Repr

def RelayError.text (render : GoString → String) : RelayError → String
  | .relayKeySize got => s!"relay key must be 32 bytes, got {got}"
  | .nextRelayKeySize got => s!"next relay key must be 32 bytes or nil, got {got}"
  | .capacity circuits max => s!"relay at capacity: {circuits} circuits (max {max})"
  | .registered circuitID => "circuit " ++ render circuitID ++ " already registered"
  | .notFound circuitID => "circuit " ++ render circuitID ++ " not found on relay"
  | .headerSize got => s!"header must be 64 bytes, got {got}"
  | .header e => "decrypt forwarding header: " ++ e.text

def newRelay (maxCircuits : ℤ) : Relay := ⟨if maxCircuits ≤ 0 then 1024 else maxCircuits, ∅⟩

namespace Relay

def addCircuit (r : Relay) (circuitID : GoString) (relayKey : Bytes) (nextRelayKey : Option Bytes) :
    Except RelayError Relay :=
  if hk : relayKey.length = keySize then
    match nextRelayKey.filter (fun key => decide (key.length ≠ keySize)) with
    | some key => .error (.nextRelayKeySize key.length)
    | none =>
      if r.maxCircuits ≤ r.circuits.size then .error (.capacity r.circuits.size r.maxCircuits)
      else if (r.circuits.lookup circuitID).isSome then .error (.registered circuitID)
      else .ok { r with circuits := r.circuits.insert circuitID ⟨relayKey, [], nextRelayKey, hk⟩ }
  else .error (.relayKeySize relayKey.length)

def removeCircuit (r : Relay) (circuitID : GoString) : Relay :=
  { r with circuits := r.circuits.erase circuitID }

def forwardChunk (C : HeaderCipher) (r : Relay) (circuitID : GoString) (wc : WireChunk) :
    Except RelayError (GoString × WireChunk) × Relay :=
  match r.circuits.lookup circuitID with
  | none => (.error (.notFound circuitID), r)
  | some entry =>
    if wc.header.length ≠ forwardingHeaderSize then (.error (.headerSize wc.header.length), r)
    else
      match decodeForwardingHeader C wc.header entry.relayKey with
      | .error e => (.error (.header e), r)
      | .ok header =>
        (.ok (header.nextHop, wc),
          { r with circuits := r.circuits.insert circuitID { entry with nextHop := header.nextHop } })

/-- The relay decodes the header with `key` for this circuit. -/
def Holds (circuitID : GoString) (r : Relay) (key : Bytes) : Prop :=
  (r.circuits.lookup circuitID).map (·.relayKey) = some key

theorem addCircuit_holds {r r' : Relay} {circuitID : GoString} {relayKey : Bytes} {nextRelayKey : Option Bytes}
    (h : r.addCircuit circuitID relayKey nextRelayKey = .ok r') : r'.Holds circuitID relayKey := by
  unfold addCircuit at h
  by_cases hk : relayKey.length = keySize
  · rw [dif_pos hk] at h
    split at h
    · cases h
    · split_ifs at h
      obtain rfl := Except.ok.inj h
      simp [Holds]
  · rw [dif_neg hk] at h
    cases h

theorem forwardChunk_of_holds {C : HeaderCipher} {r : Relay} {circuitID : GoString} {key : Bytes}
    {wc : WireChunk} (h : r.Holds circuitID key) (hlen : wc.header.length = forwardingHeaderSize) :
    (r.forwardChunk C circuitID wc).1 =
      match decodeForwardingHeader C wc.header key with
      | .error e => .error (.header e)
      | .ok header => .ok (header.nextHop, wc) := by
  obtain ⟨entry, hentry, rfl⟩ := Option.map_eq_some_iff.mp h
  unfold forwardChunk
  rw [hentry]
  dsimp only
  rw [if_neg (not_not.mpr hlen)]
  cases decodeForwardingHeader C wc.header entry.relayKey <;> rfl

end Relay

/-- Pass a chunk through a row of relays, each given what the one before it forwards; returns the
next hops they decode. -/
def forwardAlong (C : HeaderCipher) (circuitID : GoString) :
    List Relay → WireChunk → Except RelayError (List GoString × WireChunk)
  | [], wc => .ok ([], wc)
  | r :: rs, wc => do
    let (nextHop, wc) ← (r.forwardChunk C circuitID wc).1
    let (hops, wc) ← forwardAlong C circuitID rs wc
    return (nextHop :: hops, wc)

/-- Among `keys`, a header opens only under the key it was encrypted with. -/
def IdealOn (C : HeaderCipher) (keys : List Bytes) : Prop :=
  ∀ key ∈ keys, ∀ key' ∈ keys, key' ≠ key → ∀ (h : ForwardingHeader) (src : RandSource) (hdr : Bytes),
    (h.encode C key src).1 = .ok hdr → ∃ e, decodeForwardingHeader C hdr key' = .error e

/-- A row of relays decodes the wanted hops exactly if each of them has the key of the header and
every wanted hop is the one in the header. -/
theorem forwardAlong_eq_ok_iff {C : HeaderCipher} {circuitID : GoString} {wc : WireChunk} {key : Bytes}
    {hop : GoString} (hlen : wc.header.length = forwardingHeaderSize)
    (hdec : decodeForwardingHeader C wc.header key = .ok ⟨hop⟩) {nodes : List Relay} {keys : List Bytes}
    (hheld : Forall₂ (Relay.Holds circuitID) nodes keys)
    (hother : ∀ key' ∈ keys, key' ≠ key → ∃ e, decodeForwardingHeader C wc.header key' = .error e)
    {hops : List GoString} (hhops : hops.length = keys.length) :
    (∃ wc', forwardAlong C circuitID nodes wc = .ok (hops, wc')) ↔
      (∀ key' ∈ keys, key' = key) ∧ ∀ hop' ∈ hops, hop' = hop := by
  induction hheld generalizing hops with
  | nil =>
    obtain rfl : hops = [] := length_eq_zero_iff.mp hhops
    simp [forwardAlong]
  | @cons r key' nodes keys hr hheld ih =>
    obtain _ | ⟨hop', hops⟩ := hops
    · cases hhops
    have hstep := Relay.forwardChunk_of_holds (C := C) hr hlen
    by_cases hkey : key' = key
    · subst hkey
      rw [hdec] at hstep
      have ih := ih (forall_mem_cons.mp hother).2 (Nat.succ.inj hhops)
      have hrow : forwardAlong C circuitID (r :: nodes) wc =
          (forwardAlong C circuitID nodes wc).bind (fun x => .ok (hop :: x.1, x.2)) := by
        rw [forwardAlong, hstep]
        rfl
      rw [hrow]
      simp only [mem_cons, forall_eq_or_imp, true_and]
      constructor
      · rintro ⟨wc', h⟩
        obtain ⟨⟨hops', wc''⟩, hrec, hret⟩ := bind_eq_ok.mp h
        obtain ⟨⟨rfl, rfl⟩, rfl⟩ : (hop = hop' ∧ hops' = hops) ∧ wc'' = wc' := by
          simpa using hret
        obtain ⟨hk, hh⟩ := ih.mp ⟨wc'', hrec⟩
        exact ⟨hk, rfl, hh⟩
      · rintro ⟨hk, rfl, hh⟩
        obtain ⟨wc', hrec⟩ := ih.mpr ⟨hk, hh⟩
        exact ⟨wc', bind_eq_ok.mpr ⟨_, hrec, rfl⟩⟩
    · obtain ⟨e, he⟩ := hother key' mem_cons_self hkey
      rw [he] at hstep
      rw [forwardAlong, hstep]
      constructor
      · rintro ⟨wc', h⟩
        cases h
      · rintro ⟨hk, -⟩
        exact absurd (hk key' mem_cons_self) hkey

/-- Every header a run sends is encrypted once, with the first relay's key, and names the first relay
itself. So the relays of the path decode the rest of the route only if there is nothing to tell
apart: one key on all relays, and one address for all hops. -/
theorem forwardAlong_sent_iff (env : RunEnv) (d : Dispatcher) (rand : RandSource) (reads : List ReadOutcome)
    (p : PathIndex) (wc : WireChunk) (hsent : (p, wc) ∈ ((d.start rand).run env reads).1.sent)
    (r : GoString) (rs : List GoString) (hrelays : (d.cfg.path p).relays = r :: rs)
    (key : Bytes) (keys : List Bytes) (hkeys : (d.cfg.path p).relayKeys = key :: keys)
    (hlen : keys.length = rs.length) (nodes : List Relay) (circuitID : GoString)
    (hheld : List.Forall₂ (Relay.Holds circuitID) nodes (key :: keys)) (hideal : IdealOn env.cipher (key :: keys)) :
    (∃ wc', forwardAlong env.cipher circuitID nodes wc = .ok (rs ++ [d.cfg.exitAddr], wc')) ↔
      (∀ key' ∈ keys, key' = key) ∧ ∀ hop ∈ rs ++ [d.cfg.exitAddr], hop = r := by
  obtain ⟨⟨cs, hext⟩, -⟩ := RunState.run_spec env reads (d.start rand)
  obtain ⟨c, -, nextHop, relayKey, src, hhop, henc⟩ := hext.exists_sentAs hsent not_mem_nil
  obtain ⟨rfl, rfl⟩ : r = nextHop ∧ key = relayKey := by
    simpa [SessionConfig.firstHop, Dispatcher.start, hrelays, hkeys] using hhop
  obtain ⟨-, -, -, hsize, ⟨src', hh⟩, -⟩ := encodeChunk_ok henc
  obtain ⟨-, -, -, hdec⟩ := ForwardingHeader.encode_ok hh
  have hother : ∀ key' ∈ key :: keys, key' ≠ key → ∃ e, decodeForwardingHeader env.cipher wc.header key' = .error e :=
    fun key' hk hne => hideal key mem_cons_self key' hk hne _ src' _ hh
  rw [forwardAlong_eq_ok_iff hsize hdec hheld hother (by simp [hlen])]
  simp

/-- A session whose first path has one relay, at address 1, and whose second path is direct. -/
def oneRelay (exitAddr : GoString) : Dispatcher :=
  { cfg :=
      { path1 := ⟨[[1]], [List.replicate 32 0]⟩
        path2 := ⟨[], []⟩
        e2eKey := List.replicate 32 0
        circuitID := List.replicate 16 0
        exitAddr := exitAddr
        key_length := List.length_replicate
        id_length := List.length_replicate
        disjoint := rfl }
    chunker := ChunkerStrategy.fixed16k.new { defaultChunkerConfig with disablePadding := true } (fun _ _ => 0)
      ⟨fun _ => none, 0⟩
    streamID := 0
    nextSeq := 0
    callCount := 0
    stats := fun _ => ⟨0, 0⟩ }

def onPath1 : RunEnv := ⟨default, default, fun _ => .path1, fun _ => true⟩

def oneByte : List ReadOutcome := [.read [7] (some .eof) (by decide)]

def oneRelayWire (exitAddr : GoString) : WireChunk :=
  match (((oneRelay exitAddr).start .zeros).run onPath1 oneByte).1.sent with
  | [] => ⟨[], [], []⟩
  | out :: _ => out.2

def relayWithKey : Relay :=
  ⟨1024, (∅ : Map GoString CircuitEntry).insert (List.replicate 16 0)
    ⟨List.replicate 32 0, [], none, List.length_replicate⟩⟩

theorem forwardAlong_sent_iff_one_relay :
    (∃ wc', forwardAlong default (List.replicate 16 0) [relayWithKey] (oneRelayWire [1]) = .ok ([[1]], wc')) ↔
      (∀ key' ∈ ([] : List Bytes), key' = List.replicate 32 0) ∧ ∀ hop ∈ ([[1]] : List GoString), hop = [1] :=
  forwardAlong_sent_iff onPath1 (oneRelay [1]) .zeros oneByte .path1 (oneRelayWire [1]) (by decide)
    [1] [] rfl (replicate 32 0) [] rfl rfl [relayWithKey] (replicate 16 0) (.cons rfl .nil)
    (by simp [IdealOn])

/-- With the exit at address 9, the only relay decodes its own address and not the exit's. -/
theorem forwardAlong_own_address :
    (.path1, oneRelayWire [9]) ∈ (((oneRelay [9]).start .zeros).run onPath1 oneByte).1.sent ∧
      relayWithKey.Holds (List.replicate 16 0) (List.replicate 32 0) ∧
      forwardAlong default (List.replicate 16 0) [relayWithKey] (oneRelayWire [9]) =
        .ok ([[1]], oneRelayWire [9]) ∧
      ¬ ∃ wc', forwardAlong default (List.replicate 16 0) [relayWithKey] (oneRelayWire [9]) = .ok ([[9]], wc') := by
  have hfwd : forwardAlong default (replicate 16 0) [relayWithKey] (oneRelayWire [9]) =
      .ok ([[1]], oneRelayWire [9]) := by decide
  refine ⟨by decide, rfl, hfwd, ?_⟩
  rintro ⟨wc', h⟩
  rw [hfwd] at h
  simp at h

end MeshDesk.Proxy
