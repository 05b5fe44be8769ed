import MeshDesk.Proxy.Exit
import MeshDesk.Proxy.Relay
import MeshDesk.Proxy.WireParsers

/-! The relay's forwarding loop over a connection. While it waits for a chunk it sets short read
deadlines, so that it can look at the context in between; after an expired deadline the chunk is read
from its first field again. -/
namespace MeshDesk.Proxy
open Lib WireChunk
open List

/-- What the loop meets outside the connection, by the number of looks, polls and writes so far. -/
structure StreamEnv where
  /-- Whether the inbound reader supports `SetReadDeadline`. -/
  deadlines : Bool
  cancelled : ℕ → Bool
  deadlineFails : ℕ → Bool
  write : ℕ → WriteOutcome

structure StreamState where
  conn : Conn UInt8
  relay : Relay
  checks : ℕ
  polls : ℕ
  writes : List Bytes

inductive PollError where
  | cancelled
  | read (e : StreamReadError)
  /-- The model's fuel is used up. -/
  | running
  deriving DecidableEq, Repr

inductive ForwardError where
  | cancelled
  | notRegistered (circuitID : GoString)
  | read (e : StreamReadError)
  | forward (e : RelayError)
  | serialize (e : WireError)
  | write
  | running
  deriving DecidableEq, Repr

/-- The texts around those of the calls that failed; `ctxErr` is the context's own. -/
def ForwardError.text (render : GoString → String) (ctxErr writeErr : String) : ForwardError → String
  | .cancelled => ctxErr
  | .notRegistered circuitID => "circuit " ++ render circuitID ++ " not registered"
  | .read e => "read wire chunk: " ++ e.text
  | .forward e => "forward chunk: " ++ e.text render
  | .serialize e => "write forwarded chunk: " ++ e.text
  | .write => "write forwarded chunk: " ++ writeErr
  | .running => ""

namespace StreamState

def checked (st : StreamState) : StreamState := { st with checks := st.checks + 1 }

def readWireChunk (st : StreamState) : Except StreamReadError WireChunk × StreamState :=
  ((readWireChunkFrom st.conn).1, { st with conn := (readWireChunkFrom st.conn).2 })

end StreamState

/-- Every expired deadline uses up an item of the connection, so more fuel than it has items is enough. -/
def readWireChunkCtx (env : StreamEnv) : ℕ → StreamState → Except PollError WireChunk × StreamState
  | 0, st => (.error .running, st)
  | fuel + 1, st =>
    if env.cancelled st.checks then (.error .cancelled, st.checked)
    else
      let r := { st.checked with polls := st.polls + 1 }.readWireChunk
      if env.deadlineFails st.polls then (r.1.mapError .read, r.2)
      else
        match r.1 with
        | .ok wc => (.ok wc, r.2)
        | .error (.timeout _) => readWireChunkCtx env fuel r.2
        | .error (.failed e) => (.error (.read (.failed e)), r.2)

def StreamReadError.wrapsEOF : StreamReadError → Bool
  | .failed e => e.wrapsEOF
  | .timeout _ => false

/-- What the loop returns when no chunk came: the end of the stream is no error. -/
def stopOn (env : StreamEnv) (st : StreamState) : PollError → Except ForwardError Unit × StreamState
  | .running => (.error .running, st)
  | .cancelled => (.error .cancelled, st)
  | .read e =>
    if e.wrapsEOF then (.ok (), st)
    else if env.cancelled st.checks then (.error .cancelled, st.checked)
    else if env.cancelled st.checked.checks then (.error .cancelled, st.checked.checked)
    else (.error (.read e), st.checked.checked)

def nextChunk (env : StreamEnv) (st : StreamState) : Except PollError WireChunk × StreamState :=
  if env.deadlines then readWireChunkCtx env (st.conn.length + 1) st
  else (st.readWireChunk.1.mapError .read, st.readWireChunk.2)

/-- Every chunk takes bytes off the connection, so more fuel than it has bytes is enough. -/
def forwardLoop (C : HeaderCipher) (env : StreamEnv) (circuitID : GoString) :
    ℕ → StreamState → Except ForwardError Unit × StreamState
  | 0, st => (.error .running, st)
  | fuel + 1, st =>
    if env.cancelled st.checks then (.error .cancelled, st.checked)
    else
      match nextChunk env st.checked with
      | (.error e, st) => stopOn env st e
      | (.ok wc, st) =>
        match st.relay.forwardChunk C circuitID wc with
        | (.error e, relay) => (.error (.forward e), { st with relay := relay })
        | (.ok (_, forwarded), relay) =>
          match serializeWireChunk forwarded with
          | .error e => (.error (.serialize e), { st with relay := relay })
          | .ok data =>
            match env.write st.writes.length with
            | .failed n => (.error .write, { st with relay := relay, writes := st.writes ++ [data.take n] })
            | .ok => forwardLoop C env circuitID fuel { st with relay := relay, writes := st.writes ++ [data] }

def forwardStream (C : HeaderCipher) (env : StreamEnv) (r : Relay) (circuitID : GoString) (inbound : Conn UInt8) :
    Except ForwardError Unit × StreamState :=
  let st : StreamState := ⟨inbound, r, 0, 0, []⟩
  if (r.circuits.lookup circuitID).isNone then (.error (.notRegistered circuitID), st)
  else forwardLoop C env circuitID (inbound.bytes.length + 1) st

/-- Deadlines expire only while the relay waits for the first byte of a chunk. -/
def ExpiresBetweenChunks (conn : Conn UInt8) : Prop := conn.Aligned WholeChunks

variable {s key : Bytes} {env : StreamEnv} {st : StreamState} {fuel : ℕ} {C : HeaderCipher} {circuitID : GoString}
  {e : WireError}

theorem readWireChunk_append {rest t : Bytes} {wc : WireChunk} (h : readWireChunk s = .ok (wc, rest)) :
    readWireChunk (s ++ t) = .ok (wc, rest ++ t) := by
  obtain ⟨hs, rfl⟩ := readWireChunk_sound h
  rw [append_assoc, readWireChunk_layout hs]

inductive ReadFrom (conn : Conn UInt8) : Except StreamReadError WireChunk × Conn UInt8 → Prop
  | chunk (wc : WireChunk) (rest : Bytes) (conn' : Conn UInt8) (h : readWireChunk conn.bytes = .ok (wc, rest))
      (hb : conn'.bytes = rest) (ha : ExpiresBetweenChunks conn') (hl : conn.later = none → conn'.later = none) :
      ReadFrom conn (.ok wc, conn')
  | expired (f : WireField) (conn' : Conn UInt8) (hl : conn.later = some conn') (hb : conn'.bytes = conn.bytes)
      (ha : ExpiresBetweenChunks conn') : ReadFrom conn (.error (.timeout f), conn')
  | failed (e : WireError) (conn' : Conn UInt8) (h : readWireChunk conn.bytes = .error e) :
      ReadFrom conn (.error (.failed e), conn')

theorem readWireChunkFrom_readFrom {conn : Conn UInt8} (ha : ExpiresBetweenChunks conn) :
    ReadFrom conn (readWireChunkFrom conn) := by
  cases ha with
  | last hl =>
    have hb := Conn.bytes_of_later_none hl
    cases hr : readWireChunk conn.lead with
    | error e =>
      have hfail := readWireChunkFrom_agrees.failed hr (fun _ => hl)
      cases hf : readWireChunkFrom conn with
      | mk res conn' =>
        rw [hf] at hfail
        obtain rfl := hfail
        exact .failed e conn' (by rw [hb, hr])
    | ok p =>
      obtain ⟨wc, rest⟩ := p
      obtain ⟨conn', hf, hlead, hlater⟩ := readWireChunkFrom_agrees.ok hr
      have hl' := hlater.trans hl
      rw [hf]
      exact .chunk wc rest conn' (by rw [hb, hr]) (by rw [Conn.bytes_of_later_none hl', hlead]) (.last hl') fun _ => hl'
  | @next _ d hl hp hd =>
    have hb := Conn.bytes_of_later_some hl
    rcases hp.read with hnil | ⟨wc, rest, hr, hrest⟩
    · -- Nothing of the next chunk has come: the expiry is reported and nothing is lost.
      have hr : readWireChunk conn.lead = .error (.readHeaderLength .eof) := by rw [hnil]; rfl
      obtain ⟨f, hf⟩ := readWireChunkFrom_agrees.expired hr rfl hl
      rw [hf]
      exact .expired f d hl (by rw [hb, hnil, nil_append]) hd
    · obtain ⟨conn', hf, hlead, hlater⟩ := readWireChunkFrom_agrees.ok hr
      have hl' := hlater.trans hl
      rw [hf]
      refine .chunk wc (rest ++ d.bytes) conn' (by rw [hb, readWireChunk_append hr]) ?_ ?_ ?_
      · rw [Conn.bytes_of_later_some hl', hlead]
      · exact .next hl' (hlead ▸ hrest) hd
      · intro hn
        rw [hl] at hn
        cases hn

inductive Polled (env : StreamEnv) (st : StreamState) : Except PollError WireChunk × StreamState → Prop
  | chunk (wc : WireChunk) (rest : Bytes) (st' : StreamState) (h : readWireChunk st.conn.bytes = .ok (wc, rest))
      (hb : st'.conn.bytes = rest) (ha : ExpiresBetweenChunks st'.conn)
      (hl : st.conn.later = none → st'.conn.later = none) (hr : st'.relay = st.relay)
      (hw : st'.writes = st.writes) : Polled env st (.ok wc, st')
  | failed (e : WireError) (st' : StreamState) (h : readWireChunk st.conn.bytes = .error e)
      (hw : st'.writes = st.writes) : Polled env st (.error (.read (.failed e)), st')
  | expired (f : WireField) (st' : StreamState) (hl : st.conn.later ≠ none)
      (h : env.deadlines = true → ∃ k, env.deadlineFails k = true) :
      Polled env st (.error (.read (.timeout f)), st')
  | cancelled (st' : StreamState) (k : ℕ) (h : env.cancelled k = true) : Polled env st (.error .cancelled, st')

theorem Polled.of_later {st' : StreamState} {out : Except PollError WireChunk × StreamState}
    (h : Polled env st' out) (hl : st.conn.later = some st'.conn) (hb : st'.conn.bytes = st.conn.bytes)
    (hr : st'.relay = st.relay) (hw : st'.writes = st.writes) : Polled env st out := by
  have hne : st.conn.later ≠ none := by simp [hl]
  cases h with
  | chunk wc rest st'' h hb' ha hl' hr' hw' =>
    exact .chunk wc rest st'' (hb ▸ h) hb' ha (fun hn => absurd hn hne) (hr'.trans hr) (hw'.trans hw)
  | failed e st'' h hw' => exact .failed e st'' (hb ▸ h) (hw'.trans hw)
  | expired f st'' _ h => exact .expired f st'' hne h
  | cancelled st'' k h => exact .cancelled st'' k h

theorem readWireChunkCtx_polled (hfuel : st.conn.length < fuel)
    (ha : ExpiresBetweenChunks st.conn) : Polled env st (readWireChunkCtx env fuel st) := by
  induction fuel generalizing st with
  | zero => omega
  | succ fuel ih =>
    have hread := readWireChunkFrom_readFrom ha
    unfold readWireChunkCtx
    by_cases hc : env.cancelled st.checks = true
    · rw [if_pos hc]
      exact .cancelled _ _ hc
    dsimp only [StreamState.readWireChunk, StreamState.checked]
    generalize readWireChunkFrom st.conn = r at hread
    cases hread with
    | chunk wc rest conn' h hb ha' hl =>
      split_ifs <;> exact .chunk wc rest _ h hb ha' hl rfl rfl
    | failed e conn' h =>
      split_ifs <;> exact .failed e _ h rfl
    | expired f conn' hl hb ha' =>
      split_ifs with hset
      · exact .expired f _ (by simp [hl]) (fun _ => ⟨_, hset⟩)
      · have hlt := Conn.length_later_lt hl
        exact (ih (by simp only; omega) ha').of_later hl hb rfl rfl

theorem nextChunk_polled (ha : ExpiresBetweenChunks st.conn) : Polled env st (nextChunk env st) := by
  unfold nextChunk
  split_ifs with hd
  · exact readWireChunkCtx_polled (Nat.lt_succ_self _) ha
  · have hread := readWireChunkFrom_readFrom ha
    dsimp only [StreamState.readWireChunk]
    generalize readWireChunkFrom st.conn = r at hread
    cases hread with
    | chunk wc rest conn' h hb ha' hl => exact .chunk wc rest _ h hb ha' hl rfl rfl
    | failed e conn' h => exact .failed e _ h rfl
    | expired f conn' hl hb ha' => exact .expired f _ (by simp [hl]) (fun h => absurd h hd)

theorem Relay.Holds.forwardChunk {r : Relay}
    (h : r.Holds circuitID key) (wc : WireChunk) : (r.forwardChunk C circuitID wc).2.Holds circuitID key := by
  obtain ⟨entry, hentry, rfl⟩ := Option.map_eq_some_iff.mp h
  unfold Relay.forwardChunk
  rw [hentry]
  dsimp only
  split_ifs
  · exact h
  · cases decodeForwardingHeader C wc.header entry.relayKey with
    | error e => exact h
    | ok header => simp [Relay.Holds]

theorem forwardChunk_ok {r : Relay} {wc : WireChunk}
    {header : ForwardingHeader} (h : r.Holds circuitID key) (hs : wc.Sendable)
    (hd : decodeForwardingHeader C wc.header key = .ok header) :
    ∃ r', r.forwardChunk C circuitID wc = (.ok (header.nextHop, wc), r') ∧ r'.Holds circuitID key := by
  have hfst := Relay.forwardChunk_of_holds (C := C) h hs.header
  rw [hd] at hfst
  exact ⟨_, Prod.ext hfst rfl, h.forwardChunk wc⟩

theorem forwardLoop_transparent
    (hctx : ∀ k, env.cancelled k = false) (hset : ∀ k, env.deadlineFails k = false) (hwrite : ∀ k, env.write k = .ok)
    {cs : List WireChunk} (hsend : ∀ wc ∈ cs, wc.Sendable)
    (hdec : ∀ wc ∈ cs, ∃ header, decodeForwardingHeader C wc.header key = .ok header)
    (hbytes : st.conn.bytes = cs.flatMap layout) (hfuel : st.conn.bytes.length < fuel)
    (ha : ExpiresBetweenChunks st.conn) (hpoll : env.deadlines = true ∨ st.conn.later = none)
    (hheld : st.relay.Holds circuitID key) :
    ∃ st', forwardLoop C env circuitID fuel st = (.ok (), st') ∧
      st'.writes = st.writes ++ cs.map layout := by
  induction fuel generalizing st cs with
  | zero => omega
  | succ fuel ih =>
    have hnext : Polled env st.checked (nextChunk env st.checked) := nextChunk_polled ha
    unfold forwardLoop
    rw [if_neg (by simp [hctx])]
    generalize nextChunk env st.checked = r at hnext
    cases hnext with
    | cancelled st' k h =>
      rw [hctx] at h
      cases h
    | expired f st' hl h =>
      rcases hpoll with hd | hn
      · obtain ⟨k, hk⟩ := h hd
        rw [hset] at hk
        cases hk
      · exact absurd hn hl
    | failed e st' h hw =>
      cases cs with
      | nil =>
        have hnil : readWireChunk [] = .error e := by simpa [StreamState.checked, hbytes] using h
        obtain rfl := Except.error.inj (readWireChunk_nil.symm.trans hnil)
        exact ⟨st', rfl, by simpa [StreamState.checked] using hw⟩
      | cons wc cs =>
        have hok : readWireChunk st.conn.bytes = .ok (wc, cs.flatMap layout) := by
          rw [hbytes]
          exact readWireChunk_layout (hsend wc mem_cons_self) _
        cases hok.symm.trans h
    | chunk wc rest st' h hb ha' hl hr hw =>
      cases cs with
      | nil =>
        have hnil : readWireChunk [] = .ok (wc, rest) := by simpa [StreamState.checked, hbytes] using h
        cases readWireChunk_nil.symm.trans hnil
      | cons wc' cs =>
        obtain ⟨hwc, hcs⟩ := forall_mem_cons.mp hsend
        obtain ⟨⟨header, hheader⟩, hdecs⟩ := forall_mem_cons.mp hdec
        have hok : readWireChunk st.conn.bytes = .ok (wc', cs.flatMap layout) := by
          rw [hbytes]
          exact readWireChunk_layout hwc _
        obtain ⟨rfl, rfl⟩ := Prod.mk.inj (Except.ok.inj (hok.symm.trans h))
        obtain ⟨relay', hfwd, hheld'⟩ := forwardChunk_ok (r := st'.relay) (by rw [hr]; exact hheld) hwc hheader
        have hshort : st'.conn.bytes.length < fuel := by
          have hpos : 0 < wc'.layout.length := length_pos_iff.mpr wc'.layout_ne_nil
          rw [hbytes, flatMap_cons, length_append] at hfuel
          rw [hb]
          omega
        have hbytes' : ({ st' with relay := relay', writes := st'.writes ++ [wc'.layout] } : StreamState).conn.bytes =
            cs.flatMap layout := hb
        obtain ⟨st'', hrun, hwrites⟩ := ih hcs hdecs hbytes' hshort ha' (hpoll.imp_right hl) hheld'
        refine ⟨st'', ?_, ?_⟩
        · dsimp only
          rw [hfwd]
          dsimp only
          rw [hwc.serialize]
          rw [hwrite]
          exact hrun
        · rw [hwrites, hw]
          simp [StreamState.checked]

/-- Serialized chunks are forwarded unchanged and in order if every deadline that expires does so
between two of them. -/
theorem forwardStream_transparent (C : HeaderCipher) (env : StreamEnv) (r : Relay) (circuitID : GoString)
    (key : Bytes) (cs : List WireChunk) (frames : List Bytes) (inbound : Conn UInt8)
    (hframes : List.Forall₂ (fun wc bs => serializeWireChunk wc = .ok bs) cs frames)
    (hbytes : inbound.bytes = frames.flatten) (hexpire : ExpiresBetweenChunks inbound)
    (hpoll : env.deadlines = true ∨ inbound.later = none) (hset : ∀ k, env.deadlineFails k = false)
    (hctx : ∀ k, env.cancelled k = false) (hwrite : ∀ k, env.write k = .ok) (hheld : r.Holds circuitID key)
    (hdec : ∀ wc ∈ cs, ∃ header, decodeForwardingHeader C wc.header key = .ok header) :
    (forwardStream C env r circuitID inbound).1 = .ok () ∧
      (forwardStream C env r circuitID inbound).2.writes = frames := by
  obtain ⟨hsend, rfl⟩ := flatten_eq_layouts hframes
  have hreg : ¬ (r.circuits.lookup circuitID).isNone = true := by
    obtain ⟨entry, hentry, -⟩ := Option.map_eq_some_iff.mp hheld
    simp [hentry]
  have hbytes' : (⟨inbound, r, 0, 0, []⟩ : StreamState).conn.bytes = cs.flatMap layout := hbytes
  obtain ⟨st, hrun, hwrites⟩ := forwardLoop_transparent hctx hset hwrite hsend hdec hbytes' (Nat.lt_succ_self _) hexpire
    hpoll hheld
  unfold forwardStream
  rw [if_neg hreg, hrun]
  exact ⟨rfl, hwrites⟩

def calmEnv : StreamEnv := ⟨true, fun _ => false, fun _ => false, fun _ => .ok⟩

def zeroKey : Bytes := List.replicate 32 0

def oneCircuitRelay : Relay :=
  ⟨1024, (∅ : Map GoString CircuitEntry).insert [1] ⟨zeroKey, [], none, by decide⟩⟩

theorem forwardStream_transparent_between :
    (forwardStream default calmEnv oneCircuitRelay [1]
      [.data (oneByteChunk.layout.take 3), .data (oneByteChunk.layout.drop 3), .timeout,
        .data oneByteChunk.layout]).2.writes = [oneByteChunk.layout, oneByteChunk.layout] := by
  have hser : serializeWireChunk oneByteChunk = .ok oneByteChunk.layout := by decide
  have hsend : oneByteChunk.Sendable := (serializeWireChunk_ok hser).1
  refine (forwardStream_transparent default calmEnv oneCircuitRelay [1] zeroKey [oneByteChunk, oneByteChunk] _ _
    (.cons hser (.cons hser .nil)) ?_ ?_ (.inl rfl) (fun _ => rfl) (fun _ => rfl) (fun _ => rfl) rfl ?_).2
  · rfl
  · exact .next rfl ⟨[oneByteChunk], by simpa using hsend, rfl⟩ (.last rfl)
  · intro wc hwc
    obtain rfl : wc = oneByteChunk := by simpa using hwc
    exact ⟨⟨[]⟩, by decide⟩

/-- A deadline that expires behind the first two bytes of a chunk: they are lost, and what follows is not read
as the rest of that chunk. -/
theorem forwardStream_loses_bytes :
    serializeWireChunk oneByteChunk = .ok oneByteChunk.layout ∧
      decodeForwardingHeader default oneByteChunk.header zeroKey = .ok ⟨[]⟩ ∧
      oneCircuitRelay.Holds [1] zeroKey ∧
      (forwardStream default calmEnv oneCircuitRelay [1]
        [.data (oneByteChunk.layout.take 2), .timeout, .data (oneByteChunk.layout.drop 2)]).1 =
          .error (.read (.failed (.headerLength 0))) ∧
      (forwardStream default calmEnv oneCircuitRelay [1]
        [.data (oneByteChunk.layout.take 2), .timeout, .data (oneByteChunk.layout.drop 2)]).2.writes = [] := by
  exact ⟨by decide, by decide, rfl, by decide⟩

theorem stopOn_ok {e : StreamReadError} (h : (stopOn env st (.read e)).1 = .ok ()) : e.wrapsEOF = true := by
  by_contra hne
  simp only [stopOn, if_neg hne] at h
  split_ifs at h

theorem forwardLoop_clean (ha : ExpiresBetweenChunks st.conn) (h : (forwardLoop C env circuitID fuel st).1 = .ok ()) :
    ∃ (cs : List WireChunk) (t : Bytes) (e : WireError), (∀ wc ∈ cs, wc.Sendable) ∧
      st.conn.bytes = cs.flatMap layout ++ t ∧ readWireChunk t = .error e ∧ e.wrapsEOF = true := by
  induction fuel generalizing st with
  | zero => cases h
  | succ fuel ih =>
    have hnext : Polled env st.checked (nextChunk env st.checked) := nextChunk_polled ha
    unfold forwardLoop at h
    split_ifs at h with hc
    generalize nextChunk env st.checked = r at hnext h
    cases hnext with
    | cancelled st' k _ => cases h
    | expired f st' hl _ => cases stopOn_ok h
    | failed e st' hr hw => exact ⟨[], st.conn.bytes, e, by simp, rfl, hr, stopOn_ok h⟩
    | chunk wc rest st' hr hb ha' hl _ hw =>
      obtain ⟨hwc, hbytes⟩ := readWireChunk_sound hr
      -- The loop can only have gone on behind this chunk.
      obtain ⟨st₁, hconn, h₁⟩ : ∃ st₁ : StreamState, st₁.conn = st'.conn ∧
          (forwardLoop C env circuitID fuel st₁).1 = .ok () := by
        dsimp only at h
        split at h
        · cases h
        · split at h
          · cases h
          · split at h
            · cases h
            · refine ⟨_, ?_, h⟩
              rfl
      obtain ⟨cs, t, e, hcs, hrest, ht, he⟩ := ih (by rw [hconn]; exact ha') h₁
      rw [hconn, hb] at hrest
      refine ⟨wc :: cs, t, e, forall_mem_cons.mpr ⟨hwc, hcs⟩, ?_, ht, he⟩
      rw [flatMap_cons, append_assoc, ← hrest]
      exact hbytes

/-- Whole chunks and then some, but not all, fields of another one. -/
def EndsBetweenFields (s : Bytes) : Prop :=
  ∃ (cs : List WireChunk) (t : Bytes), (∀ wc ∈ cs, wc.Sendable) ∧ s = cs.flatMap WireChunk.layout ++ t ∧
    CutBetweenFields t

theorem wholeChunks_of_wrapsEOF {t : Bytes} {cs : List WireChunk} (hcut : ¬ EndsBetweenFields s)
    (hcs : ∀ wc ∈ cs, wc.Sendable) (hs : s = cs.flatMap layout ++ t) (ht : readWireChunk t = .error e)
    (he : e.wrapsEOF = true) : s = cs.flatMap layout := by
  rcases nil_or_cut_of_wrapsEOF ht he with rfl | hbetween
  · rw [hs, append_nil]
  · exact absurd ⟨cs, t, hcs, hs, hbetween⟩ hcut

theorem not_wholeChunks_of_error (hne : s ≠ []) (h : readWireChunk s = .error e) : ¬ WholeChunks s := by
  intro hw
  rcases hw.read with hnil | ⟨wc, rest, hr, -⟩
  · exact hne hnil
  · cases h.symm.trans hr

theorem not_endsBetweenFields_of_error (h : readWireChunk s = .error e)
    (he : e.wrapsEOF = false) : ¬ EndsBetweenFields s := by
  rintro ⟨cs, t, hcs, rfl, hcut⟩
  cases cs with
  | nil =>
    obtain ⟨e', h', he'⟩ := hcut.wrapsEOF
    obtain rfl := Except.error.inj (h.symm.trans h')
    rw [he] at he'
    cases he'
  | cons wc cs =>
    rw [flatMap_cons, append_assoc, readWireChunk_layout (hcs wc mem_cons_self)] at h
    cases h

end MeshDesk.Proxy
