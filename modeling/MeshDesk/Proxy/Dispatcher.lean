import MeshDesk.Proxy.Chunker
import MeshDesk.Proxy.Protocol

/-! The entry-side dispatcher of one session. A run is driven by the outcomes of the reads from the
client connection, of the path assignment and of the sends; it leaves a log of what was sent. -/
namespace MeshDesk.Proxy
open Lib List

structure Path where
  relays : List GoString
  relayKeys : List Bytes
  deriving DecidableEq, Repr

def hasOverlap (a b : Path) : Bool := b.relays.any (fun r => a.relays.contains r)

/-- The fields `NewDispatcher` and `Run` read. An empty strategy name is `none`. -/
structure DispatcherConfig where
  chunkerStrategy : Option ChunkerStrategy
  chunkerCfg : ChunkerConfig
  path1 : Option Path
  path2 : Option Path
  e2eKey : Bytes
  circuitID : Bytes
  exitAddr : GoString
  debugFixedChunks : Bool

inductive DispatcherError where
  | e2eKey
  | circuitID
  | paths
  | overlap
  | paddingSeed
  deriving DecidableEq, Repr

def DispatcherError.text : DispatcherError → String
  | .e2eKey => "E2E key must be 32 bytes"
  | .circuitID => "circuit ID must be 16 bytes"
  | .paths => "two paths are required"
  | .overlap =>
    "path overlap detected: Path1 and Path2 share relay nodes (PROXY_DESIGN.md §1.5 hard requirement)"
  | .paddingSeed => "generate padding seed"

/-- The part of the configuration that a dispatcher keeps, with what was checked of it. -/
structure SessionConfig where
  path1 : Path
  path2 : Path
  e2eKey : Bytes
  circuitID : Bytes
  exitAddr : GoString
  key_length : e2eKey.length = keySize
  id_length : circuitID.length = circuitIDSize
  disjoint : hasOverlap path1 path2 = false

structure PathStats where
  chunks : ℕ
  bytes : ℕ
  deriving DecidableEq, Repr

structure Dispatcher where
  cfg : SessionConfig
  chunker : Chunker
  streamID : UInt32
  nextSeq : UInt32
  callCount : ℕ
  stats : PathIndex → PathStats

def DispatcherConfig.strategy (cfg : DispatcherConfig) : ChunkerStrategy :=
  if cfg.debugFixedChunks then .fixed16k else cfg.chunkerStrategy.getD .bounded4k64k

/-- `src` is what the padding seed expands to, or `none` when no seed could be generated. -/
def newDispatcher (cfg : DispatcherConfig) (quantile : Int64 → UInt64 → Int64) (src : Option PadSource) :
    Except DispatcherError Dispatcher :=
  if hk : cfg.e2eKey.length = keySize then
    if hc : cfg.circuitID.length = circuitIDSize then
      match cfg.path1, cfg.path2 with
      | some path1, some path2 =>
        if ho : hasOverlap path1 path2 = false then
          match src with
          | some src =>
            let chunkerCfg :=
              if cfg.chunkerCfg.maxChunkSize = 0 then defaultChunkerConfig else cfg.chunkerCfg
            .ok
              { cfg := ⟨path1, path2, cfg.e2eKey, cfg.circuitID, cfg.exitAddr, hk, hc, ho⟩
                chunker := cfg.strategy.new chunkerCfg quantile src
                streamID := 0
                nextSeq := 0
                callCount := 0
                stats := fun _ => ⟨0, 0⟩ }
          | none => .error .paddingSeed
        else .error .overlap
      | _, _ => .error .paths
    else .error .circuitID
  else .error .e2eKey

theorem newDispatcher_fresh {cfg : DispatcherConfig} {quantile : Int64 → UInt64 → Int64} {src : Option PadSource}
    {d : Dispatcher} (h : newDispatcher cfg quantile src = .ok d) : d.nextSeq = 0 ∧ d.streamID = 0 := by
  unfold newDispatcher at h
  split at h
  · split at h
    · split at h
      · split at h
        · split at h
          · obtain rfl := Except.ok.inj h
            exact ⟨rfl, rfl⟩
          · cases h
        · cases h
      · cases h
    · cases h
  · cases h

namespace SessionConfig

def path (cfg : SessionConfig) : PathIndex → Path
  | .path1 => cfg.path1
  | .path2 => cfg.path2

/-- Next hop and key of the forwarding header: the first relay, or the exit on a direct path. A path
with relays and no key makes the source panic. -/
def firstHop (cfg : SessionConfig) (p : PathIndex) : Option (GoString × Bytes) :=
  match (cfg.path p).relays with
  | [] => some (cfg.exitAddr, cfg.e2eKey)
  | r :: _ => (cfg.path p).relayKeys.head?.map (fun key => (r, key))

end SessionConfig

def Dispatcher.recordSent (d : Dispatcher) (p : PathIndex) (n : ℕ) : Dispatcher :=
  { d with stats := Function.update d.stats p ⟨(d.stats p).chunks + 1, (d.stats p).bytes + n⟩ }

/-- What a run does not compute itself: the ciphers, the path chosen for the chunk assigned as
number `n`, and whether call number `n` of the send callback succeeds. -/
structure RunEnv where
  cipher : HeaderCipher
  aead : Aead
  assign : ℕ → PathIndex
  sendOk : ℕ → Bool

structure RunState where
  disp : Dispatcher
  rand : RandSource
  sendCalls : ℕ
  sent : List (PathIndex × WireChunk)

def readBufferSize : ℕ := 32 * 1024

inductive ConnError where
  | eof
  | other
  deriving DecidableEq, Repr

/-- One iteration of the read loop: the context is done, or a read returns data, an error or both. -/
inductive ReadOutcome where
  | cancelled
  | read (data : Bytes) (err : Option ConnError) (h : data.length ≤ readBufferSize)

/-- How a run ends. `done` is the nil error after EOF. -/
inductive RunEnd where
  | done
  | cancelled
  | encode (e : ProtocolError)
  | send
  | read
  | panicked
  deriving DecidableEq, Repr

namespace RunState

variable (env : RunEnv) (st : RunState)

def send (p : PathIndex) (wc : WireChunk) : Bool × RunState :=
  (env.sendOk st.sendCalls,
    { st with
      sendCalls := st.sendCalls + 1
      sent := if env.sendOk st.sendCalls then st.sent ++ [(p, wc)] else st.sent })

def number (d : Dispatcher) (chunk : Chunk) : Chunk :=
  { chunk with streamID := d.streamID, sequence := d.nextSeq, total := 0 }

def dispatchChunk (chunk : Chunk) : RunState × Option RunEnd :=
  let d := st.disp
  let chunk := number d chunk
  let p := env.assign d.callCount
  let st := { st with disp := { d with nextSeq := d.nextSeq + 1, callCount := d.callCount + 1 } }
  match d.cfg.firstHop p with
  | none => (st, some .panicked)
  | some (nextHop, relayKey) =>
    let (res, rand) := encodeChunk env.cipher env.aead chunk d.cfg.e2eKey relayKey nextHop d.cfg.circuitID st.rand
    let st := { st with rand := rand }
    match res with
    | .error e => (st, some (.encode e))
    | .ok wc =>
      let (ok, st) := st.send env p wc
      if ok then ({ st with disp := st.disp.recordSent p chunk.payload.length }, none)
      else (st, some .send)

def dispatchAll (env : RunEnv) : RunState → List Chunk → RunState × Option RunEnd
  | st, [] => (st, none)
  | st, chunk :: chunks =>
    match dispatchChunk env st chunk with
    | (st, some e) => (st, some e)
    | (st, none) => dispatchAll env st chunks

def endChunk (d : Dispatcher) : Chunk := ⟨d.streamID, d.nextSeq, 0, .streamEnd, [], 0⟩

/-- The loop of `sendStreamEnd`. An encoding error skips the path; a send error is ignored. -/
def sendEnds (env : RunEnv) (marker : Chunk) : RunState → List PathIndex → RunState × RunEnd
  | st, [] => (st, .done)
  | st, p :: ps =>
    match st.disp.cfg.firstHop p with
    | none => (st, .panicked)
    | some (nextHop, relayKey) =>
      let (res, rand) := encodeChunk env.cipher env.aead marker st.disp.cfg.e2eKey relayKey nextHop
        st.disp.cfg.circuitID st.rand
      let st := { st with rand := rand }
      match res with
      | .error _ => sendEnds env marker st ps
      | .ok wc => sendEnds env marker (st.send env p wc).2 ps

def sendStreamEnd : RunState × RunEnd :=
  sendEnds env (endChunk st.disp) { st with disp := { st.disp with nextSeq := st.disp.nextSeq + 1 } }
    [.path1, .path2]

def dispatchData (data : Bytes) : RunState × Option RunEnd :=
  if data = [] then (st, none)
  else
    let (chunks, chunker) := st.disp.chunker.split data
    dispatchAll env { st with disp := { st.disp with chunker := chunker } } chunks

/-- The read loop. `none` means that the run waits for another read. -/
def run (env : RunEnv) : RunState → List ReadOutcome → RunState × Option RunEnd
  | st, [] => (st, none)
  | st, .cancelled :: _ => (st, some .cancelled)
  | st, .read data err _ :: reads =>
    match st.dispatchData env data with
    | (st, some e) => (st, some e)
    | (st, none) =>
      match err with
      | some .eof => ((st.sendStreamEnd env).1, some (st.sendStreamEnd env).2)
      | some .other => (st, some .read)
      | none => run env st reads

end RunState

def Dispatcher.start (d : Dispatcher) (rand : RandSource) : RunState := ⟨d, rand, 0, []⟩

def bytesRead : List ReadOutcome → Bytes
  | [] => []
  | .cancelled :: _ => []
  | .read data none _ :: reads => data ++ bytesRead reads
  | .read data (some _) _ :: _ => data

/-- The wire chunk is an encoding of `chunk` for the first hop of the path it was sent on. -/
def SentAs (env : RunEnv) (cfg : SessionConfig) (chunk : Chunk) (out : PathIndex × WireChunk) : Prop :=
  ∃ nextHop relayKey src, cfg.firstHop out.1 = some (nextHop, relayKey) ∧
    (encodeChunk env.cipher env.aead chunk cfg.e2eKey relayKey nextHop cfg.circuitID src).1 = .ok out.2

/-- Between two states of a run, the encodings of `cs` were sent, in that order. -/
structure Extends (env : RunEnv) (cs : List Chunk) (st st' : RunState) : Prop where
  cfg : st'.disp.cfg = st.disp.cfg
  stream : st'.disp.streamID = st.disp.streamID
  sent : ∃ out, st'.sent = st.sent ++ out ∧ List.Forall₂ (SentAs env st.disp.cfg) cs out

namespace Extends
variable {env : RunEnv} {st st' st'' : RunState} {cs cs' : List Chunk}

theorem of_sent_eq (hcfg : st'.disp.cfg = st.disp.cfg) (hs : st'.disp.streamID = st.disp.streamID)
    (hsent : st'.sent = st.sent) : Extends env [] st st' :=
  ⟨hcfg, hs, [], by rw [hsent, append_nil], .nil⟩

theorem trans (h : Extends env cs st st') (h' : Extends env cs' st' st'') : Extends env (cs ++ cs') st st'' := by
  obtain ⟨out, hout, hcs⟩ := h.sent
  obtain ⟨out', hout', hcs'⟩ := h'.sent
  rw [h.cfg] at hcs'
  refine ⟨h'.cfg.trans h.cfg, h'.stream.trans h.stream, out ++ out', ?_, rel_append hcs hcs'⟩
  rw [hout', hout, append_assoc]

theorem exists_sentAs (h : Extends env cs st st') {out : PathIndex × WireChunk} (hout : out ∈ st'.sent)
    (hnew : out ∉ st.sent) : ∃ c ∈ cs, SentAs env st.disp.cfg c out := by
  obtain ⟨outs, heq, hcs⟩ := h.sent
  rw [heq] at hout
  obtain ⟨i, hi⟩ := get_of_mem ((mem_append.mp hout).resolve_left hnew)
  have hlt : i < cs.length := by
    rw [hcs.length_eq]
    exact i.isLt
  have hget := hcs.get hlt i.isLt
  rw [hi] at hget
  exact ⟨_, get_mem _ _, hget⟩

theorem send_ok {p : PathIndex} {wc : WireChunk} {c : Chunk} (hok : env.sendOk st.sendCalls = true)
    (h : SentAs env st.disp.cfg c (p, wc)) : Extends env [c] st (st.send env p wc).2 :=
  ⟨rfl, rfl, [(p, wc)], by simp [RunState.send, hok], .cons h .nil⟩

theorem send_failed (p : PathIndex) (wc : WireChunk) (hok : env.sendOk st.sendCalls = false) :
    Extends env [] st (st.send env p wc).2 :=
  of_sent_eq rfl rfl (by simp [RunState.send, hok])

end Extends

namespace RunState

def numberAll (s q : UInt32) : List Chunk → List Chunk
  | [] => []
  | c :: cs => { c with streamID := s, sequence := q, total := 0 } :: numberAll s (q + 1) cs

variable (env : RunEnv)

/-- Chunks of which `Sent` holds went out and were numbered, or an error ends the run. -/
def Dispatched (Sent : List Chunk → Prop) (st : RunState) (out : RunState × Option RunEnd) : Prop :=
  (out.2 = none ∧ ∃ cs, Sent cs ∧ Extends env cs st out.1 ∧
      out.1.disp.nextSeq = st.disp.nextSeq + UInt32.ofNat cs.length) ∨
    (out.2 ≠ none ∧ out.2 ≠ some .done ∧ ∃ cs, Extends env cs st out.1)

theorem dispatchChunk_spec (st : RunState) (chunk : Chunk) :
    Dispatched env (· = [number st.disp chunk]) st (dispatchChunk env st chunk) := by
  unfold dispatchChunk
  dsimp only
  cases hhop : st.disp.cfg.firstHop (env.assign st.disp.callCount) with
  | none => exact .inr ⟨by simp, by simp, _, .of_sent_eq rfl rfl rfl⟩
  | some hop =>
    obtain ⟨nextHop, relayKey⟩ := hop
    dsimp only
    cases henc : (encodeChunk env.cipher env.aead (number st.disp chunk) st.disp.cfg.e2eKey relayKey nextHop
        st.disp.cfg.circuitID st.rand).1 with
    | error e => exact .inr ⟨by simp, by simp, _, .of_sent_eq rfl rfl rfl⟩
    | ok wc =>
      have hsent : SentAs env st.disp.cfg (number st.disp chunk) (env.assign st.disp.callCount, wc) :=
        ⟨nextHop, relayKey, st.rand, hhop, henc⟩
      cases hok : env.sendOk st.sendCalls with
      | true =>
        refine .inl ⟨by simp [send, hok], _, rfl, ⟨?_, ?_, [_], ?_, .cons hsent .nil⟩, ?_⟩
        all_goals simp [send, hok, Dispatcher.recordSent]
      | false =>
        refine .inr ⟨by simp [send, hok], by simp [send, hok], _, .of_sent_eq ?_ ?_ ?_⟩
        all_goals simp [send, hok]

theorem dispatchAll_spec (chunks : List Chunk) (st : RunState) :
    Dispatched env (· = numberAll st.disp.streamID st.disp.nextSeq chunks) st (dispatchAll env st chunks) := by
  induction chunks generalizing st with
  | nil => exact .inl ⟨rfl, _, rfl, .of_sent_eq rfl rfl rfl, by simp [dispatchAll, numberAll]⟩
  | cons chunk chunks ih =>
    rw [dispatchAll]
    obtain ⟨hnone, _, rfl, hext, hseq⟩ | ⟨hsome, hdone, hext⟩ := dispatchChunk_spec env st chunk
    · set res := dispatchChunk env st chunk
      obtain ⟨st', e⟩ := res
      subst hnone
      obtain ⟨hnone', _, rfl, hext', hseq'⟩ | ⟨hsome', hdone', cs, hext'⟩ := ih st'
      · refine .inl ⟨hnone', _, ?_, hext.trans hext', ?_⟩
        · rw [hext.stream, hseq]
          rfl
        · rw [hseq', hseq, length_append, UInt32.ofNat_add, UInt32.add_assoc]
      · exact .inr ⟨hsome', hdone', _, hext.trans hext'⟩
    · set res := dispatchChunk env st chunk
      obtain ⟨st', e⟩ := res
      cases e with
      | none => exact absurd rfl hsome
      | some e => exact .inr ⟨hsome, hdone, hext⟩

theorem sendEnds_spec (marker : Chunk) (ps : List PathIndex) (st : RunState) :
    ∃ ends, Extends env ends st (sendEnds env marker st ps).1 ∧ ∀ c ∈ ends, c = marker := by
  induction ps generalizing st with
  | nil => exact ⟨[], .of_sent_eq rfl rfl rfl, by simp⟩
  | cons p ps ih =>
    rw [sendEnds]
    cases hhop : st.disp.cfg.firstHop p with
    | none => exact ⟨[], .of_sent_eq rfl rfl rfl, by simp⟩
    | some hop =>
      obtain ⟨nextHop, relayKey⟩ := hop
      dsimp only
      cases henc : encodeChunk env.cipher env.aead marker st.disp.cfg.e2eKey relayKey nextHop
          st.disp.cfg.circuitID st.rand with
      | mk res rand =>
        have hrand : Extends env [] st { st with rand := rand } := .of_sent_eq rfl rfl rfl
        cases res with
        | error e =>
          obtain ⟨ends, hext, hends⟩ := ih { st with rand := rand }
          exact ⟨ends, hrand.trans hext, hends⟩
        | ok wc =>
          obtain ⟨ends, hext, hends⟩ := ih ({ st with rand := rand }.send env p wc).2
          have hsent : SentAs env st.disp.cfg marker (p, wc) :=
            ⟨nextHop, relayKey, st.rand, hhop, by rw [henc]⟩
          cases hok : env.sendOk st.sendCalls with
          | true =>
            have hone : Extends env [marker] { st with rand := rand } _ := Extends.send_ok hok hsent
            exact ⟨marker :: ends, hrand.trans (hone.trans hext), by simpa using hends⟩
          | false =>
            have hnone : Extends env [] { st with rand := rand } _ := Extends.send_failed p wc hok
            exact ⟨ends, hrand.trans (hnone.trans hext), hends⟩

end RunState

/-- Data chunks as a session sends them: numbered from `q`, without a total, and carrying `data`. -/
structure Streamed (s q : UInt32) (data : Bytes) (cs : List Chunk) : Prop where
  numbered : Numbered s q cs
  total : ∀ c ∈ cs, c.total = 0
  size : ∀ c ∈ cs, c.payload.length ≤ readBufferSize
  payload : cs.flatMap (·.payload) = data

namespace Streamed
variable {s q : UInt32} {data data' : Bytes} {cs cs' : List Chunk}

theorem nil (s q : UInt32) : Streamed s q [] [] := ⟨trivial, by simp, by simp, rfl⟩

theorem append (h : Streamed s q data cs) (h' : Streamed s (q + UInt32.ofNat cs.length) data' cs') :
    Streamed s q (data ++ data') (cs ++ cs') := by
  refine ⟨Numbered.append h.numbered h'.numbered, ?_, ?_, ?_⟩
  · exact forall_mem_append.mpr ⟨h.total, h'.total⟩
  · exact forall_mem_append.mpr ⟨h.size, h'.size⟩
  · rw [flatMap_append, h.payload, h'.payload]

theorem of_numberAll {t u : UInt32} (hn : Numbered t u cs) (hsize : data.length ≤ readBufferSize)
    (hdata : cs.flatMap (·.payload) = data) :
    Streamed s q data (RunState.numberAll s q cs) := by
  induction cs generalizing q u data with
  | nil => exact hdata ▸ .nil s q
  | cons c cs ih =>
    subst hdata
    rw [flatMap_cons, length_append] at hsize
    have ih := ih hn.2 (by omega) rfl (q := q + 1)
    refine ⟨⟨⟨rfl, rfl, hn.1.2.2⟩, ih.numbered⟩, ?_, ?_, ?_⟩
    · rintro d (_ | ⟨_, hd⟩)
      · rfl
      · exact ih.total d hd
    · rintro d (_ | ⟨_, hd⟩)
      · change c.payload.length ≤ readBufferSize
        omega
      · exact ih.size d hd
    · rw [RunState.numberAll, flatMap_cons, flatMap_cons, ih.payload]

end Streamed

namespace RunState
variable (env : RunEnv)

theorem dispatchData_spec (st : RunState) {data : Bytes} (hsize : data.length ≤ readBufferSize) :
    Dispatched env (Streamed st.disp.streamID st.disp.nextSeq data) st (dispatchData env st data) := by
  unfold dispatchData
  split_ifs with hnil
  · subst hnil
    exact .inl ⟨rfl, [], .nil _ _, .of_sent_eq rfl rfl rfl, by simp⟩
  · obtain ⟨hnum, hcat⟩ := st.disp.chunker.split_spec data
    set st₀ : RunState := { st with disp := { st.disp with chunker := (st.disp.chunker.split data).2 } } with hst₀
    have hext₀ : Extends env [] st st₀ := .of_sent_eq rfl rfl rfl
    obtain ⟨hnone, _, rfl, hext, hseq⟩ | ⟨hsome, hdone, cs, hext⟩ :=
      dispatchAll_spec env (st.disp.chunker.split data).1 st₀
    · exact .inl ⟨hnone, _, .of_numberAll hnum hsize hcat, hext₀.trans hext, hseq⟩
    · exact .inr ⟨hsome, hdone, cs, hext₀.trans hext⟩

/-- The end marker that follows `n` data chunks numbered from `q`. -/
def endMarker (s q : UInt32) (n : ℕ) : Chunk := ⟨s, q + UInt32.ofNat n, 0, .streamEnd, [], 0⟩

/-- Everything a run sends is an encoding for the first hop of its path. A run that reaches EOF has
sent the bytes read as consecutive data chunks, followed by end markers. -/
theorem run_spec (reads : List ReadOutcome) (st : RunState) :
    (∃ cs, Extends env cs st (run env st reads).1) ∧
      ((run env st reads).2 = some .done →
        ∃ cs ends, Extends env (cs ++ ends) st (run env st reads).1 ∧
          Streamed st.disp.streamID st.disp.nextSeq (bytesRead reads) cs ∧
          ∀ c ∈ ends, c = endMarker st.disp.streamID st.disp.nextSeq cs.length) := by
  induction reads generalizing st with
  | nil => exact ⟨⟨[], .of_sent_eq rfl rfl rfl⟩, by simp [run]⟩
  | cons outcome reads ih =>
    cases outcome with
    | cancelled => exact ⟨⟨[], .of_sent_eq rfl rfl rfl⟩, by simp [run]⟩
    | read data err hsize =>
      rw [run]
      obtain ⟨hnone, cs, hstr, hext, hseq⟩ | ⟨hsome, hdone, cs, hext⟩ := dispatchData_spec env st hsize
      · generalize dispatchData env st data = res at hnone hext hseq
        obtain ⟨st', e⟩ := res
        subst hnone
        rcases err with _ | _ | _
        · obtain ⟨⟨cs', hext'⟩, hrun⟩ := ih st'
          refine ⟨⟨_, hext.trans hext'⟩, fun hd => ?_⟩
          obtain ⟨cs', ends, hext', hstr', hends⟩ := hrun hd
          rw [hext.stream, hseq] at hstr' hends
          refine ⟨cs ++ cs', ends, ?_, hstr.append hstr', ?_⟩
          · rw [append_assoc]
            exact hext.trans hext'
          · intro c hc
            rw [hends c hc, length_append, endMarker, endMarker, UInt32.ofNat_add, UInt32.add_assoc]
        · obtain ⟨ends, hext', hends⟩ := sendEnds_spec env (endChunk st'.disp) [.path1, .path2]
            { st' with disp := { st'.disp with nextSeq := st'.disp.nextSeq + 1 } }
          have hsend : Extends env (cs ++ ends) st (sendStreamEnd env st').1 :=
            hext.trans ⟨hext'.cfg, hext'.stream, hext'.sent⟩
          refine ⟨⟨_, hsend⟩, fun _ => ⟨cs, ends, hsend, hstr, fun c hc => ?_⟩⟩
          rw [hends c hc, endChunk, hext.stream, hseq]
          rfl
        · exact ⟨⟨cs, hext⟩, by simp⟩
      · generalize dispatchData env st data = res at hsome hdone hext
        obtain ⟨st', e⟩ := res
        cases e with
        | none => exact absurd rfl hsome
        | some e => exact ⟨⟨cs, hext⟩, fun h => absurd h hdone⟩

end RunState
end MeshDesk.Proxy
