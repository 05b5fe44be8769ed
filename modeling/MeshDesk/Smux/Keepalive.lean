import MeshDesk.Smux.Frame

/-! The keepalive of a session as a timed system of its two ends. A frame waits for room in the
sender's write queue, passes through it onto the connection and is dispatched by the other end. -/
namespace MeshDesk.Smux
open Proxy (Time Duration)
open List

inductive Side where
  | client
  | server
  deriving DecidableEq, Repr

def Side.other : Side → Side
  | .client => .server
  | .server => .client

inductive KeepaliveAbort where
  | writeBlocked
  | timeout
  deriving DecidableEq, Repr

def KeepaliveAbort.text : KeepaliveAbort → String
  | .writeBlocked => "smux: keepalive write blocked"
  | .timeout => "smux: keepalive timeout"

inductive KeepaliveState where
  | off
  | starting
  | waiting
  | sending (since : Time)
  | checking
  deriving DecidableEq, Repr

/-- A frame on its way, with the time its sender offered it. -/
structure Offered where
  since : Time
  frame : Frame
  fromKeepalive : Bool
  deriving DecidableEq, Repr

/-- One end of a session. `blocked` are the senders that wait for room in `writeCh`, `conn` is what
the writer has put on the connection and the other end has not dispatched yet. -/
structure Endpoint where
  cfg : Config
  closed : Bool
  aborted : Option KeepaliveAbort
  lastActivity : Time
  keepalive : KeepaliveState
  blocked : List Offered
  writeCh : List Offered
  conn : List Offered
  deriving DecidableEq, Repr

/-- `Client` starts the keepalive loop if an interval is configured; `Server` never does. -/
def newEndpoint (cfg : Config) : Side → Endpoint
  | .client =>
    ⟨validateConfig cfg, false, none, 0, if 0 < cfg.pingInterval then .starting else .off, [], [], []⟩
  | .server => ⟨validateConfig cfg, false, none, 0, .off, [], [], []⟩

namespace Endpoint

variable (e : Endpoint) (now : Time)

def keepaliveTimeout : Duration :=
  if e.cfg.pingTimeout ≤ 0 then 3 * e.cfg.pingInterval else e.cfg.pingTimeout

def underWay : List Offered := e.conn ++ e.writeCh ++ e.blocked

/-- `writeCh <- f`: senders that find the channel full wait in line. -/
def offer (o : Offered) : Endpoint :=
  if e.blocked = [] ∧ e.writeCh.length < writeChSize then { e with writeCh := e.writeCh ++ [o] }
  else { e with blocked := e.blocked ++ [o] }

/-- A sender selects on `doneCh` too, so a closed session takes no frames. -/
def send (f : Frame) : Endpoint :=
  if e.closed then e else e.offer ⟨now, f, false⟩

/-- `Close` and `abort`: the frames that were not written are lost. -/
def close : Endpoint := { e with closed := true, blocked := [], writeCh := [] }

def abortKeepalive (why : KeepaliveAbort) : Endpoint :=
  if e.closed then { e with keepalive := .off } else { e.close with aborted := some why, keepalive := .off }

def beginKeepalive : Endpoint :=
  if e.keepalive = .starting then { e with lastActivity := now, keepalive := .waiting } else e

/-- The ticker fires: the loop offers a ping and, once it is in the channel, checks liveness. -/
def tick : Endpoint :=
  if e.keepalive = .waiting ∧ e.closed = false then
    let ping : Offered := ⟨now, newPingFrame 0, true⟩
    if e.blocked = [] ∧ e.writeCh.length < writeChSize then { e.offer ping with keepalive := .checking }
    else { e.offer ping with keepalive := .sending now }
  else e

def writeTimeout : Endpoint :=
  match e.keepalive with
  | .sending since => if since + e.keepaliveTimeout ≤ now then e.abortKeepalive .writeBlocked else e
  | _ => e

def checkLiveness : Endpoint :=
  if e.keepalive = .checking then
    if e.keepaliveTimeout < Time.sub now e.lastActivity then e.abortKeepalive .timeout
    else { e with keepalive := .waiting }
  else e

/-- The writer puts the first frame of the channel on the connection, and the first sender in line
gets its place. -/
def transmit : Endpoint :=
  match e.writeCh, e.blocked with
  | [], _ => e
  | o :: rest, [] => { e with conn := e.conn ++ [o], writeCh := rest }
  | o :: rest, b :: waiting =>
    { e with
      conn := e.conn ++ [o]
      writeCh := rest ++ [b]
      blocked := waiting
      keepalive := if b.fromKeepalive then .checking else e.keepalive }

/-- The reader takes a frame: any frame counts as activity, and a GO_AWAY closes the session. The
other frames touch streams only, and a ping is not answered. -/
def dispatch (f : Frame) : Endpoint :=
  let e := { e with lastActivity := now }
  if f.streamID = 0 ∧ f.type = .goAway then e.close else e

end Endpoint

/-- What happens at one end. `send` stands for everything that writes a frame: the handshake,
streams, answers to frames. -/
inductive LinkEvent where
  | send (f : Frame)
  | beginKeepalive
  | tick
  | writeTimeout
  | checkLiveness
  | transmit
  | dispatch
  | close
  deriving DecidableEq, Repr

structure Link where
  ends : Side → Endpoint

def newLink (cfg : Config) : Link := ⟨newEndpoint cfg⟩

structure TimedEvent where
  now : Time
  side : Side
  event : LinkEvent
  deriving DecidableEq, Repr

namespace Link

def set (l : Link) (s : Side) (e : Endpoint) : Link := ⟨Function.update l.ends s e⟩

/-- The reader at `s` takes the oldest frame on the connection from the other end. -/
def dispatch (l : Link) (s : Side) (now : Time) : Link :=
  match (l.ends s.other).conn with
  | [] => l
  | o :: rest =>
    if (l.ends s).closed then l
    else (l.set s.other { l.ends s.other with conn := rest }).set s ((l.ends s).dispatch now o.frame)

def step (l : Link) (ev : TimedEvent) : Link :=
  match ev.event with
  | .send f => l.set ev.side ((l.ends ev.side).send ev.now f)
  | .beginKeepalive => l.set ev.side ((l.ends ev.side).beginKeepalive ev.now)
  | .tick => l.set ev.side ((l.ends ev.side).tick ev.now)
  | .writeTimeout => l.set ev.side ((l.ends ev.side).writeTimeout ev.now)
  | .checkLiveness => l.set ev.side ((l.ends ev.side).checkLiveness ev.now)
  | .transmit => l.set ev.side (l.ends ev.side).transmit
  | .dispatch => l.dispatch ev.side ev.now
  | .close => l.set ev.side (l.ends ev.side).close

def run (l : Link) (evs : List TimedEvent) : Link := evs.foldl step l

/-- Each frame written by one end is dispatched by the other within `d`: whenever something happens,
the frames under way were offered at most `d` ago. -/
def Prompt (d : Duration) : Link → List TimedEvent → Prop
  | _, [] => True
  | l, ev :: evs =>
    (∀ o ∈ (l.ends .client).underWay ++ (l.ends .server).underWay, ev.now ≤ o.since + d) ∧
      Prompt d (l.step ev) evs

def Timed (start : Time) : List TimedEvent → Prop
  | [] => True
  | ev :: evs => start ≤ ev.now ∧ Timed ev.now evs

/-- As long as the client's session is open, so is the server's, and the server never lets more than
`d` pass without writing a frame. `since` is the time of its last frame. -/
def ServerSpeaks (d : Duration) : Link → Time → List TimedEvent → Prop
  | _, _, [] => True
  | l, since, ev :: evs =>
    ((l.ends .client).closed = false → (l.ends .server).closed = false ∧ ev.now ≤ since + d) ∧
      ServerSpeaks d (l.step ev)
        (match ev.side, ev.event with
          | .server, .send _ => ev.now
          | _, _ => since) evs

instance (d : Duration) : (l : Link) → (evs : List TimedEvent) → Decidable (Prompt d l evs)
  | _, [] => isTrue trivial
  | l, ev :: evs =>
    have := instDecidablePrompt d (l.step ev) evs
    inferInstanceAs (Decidable (_ ∧ _))

instance : (start : Time) → (evs : List TimedEvent) → Decidable (Timed start evs)
  | _, [] => isTrue trivial
  | _, ev :: evs =>
    have := instDecidableTimed ev.now evs
    inferInstanceAs (Decidable (_ ∧ _))

instance (d : Duration) : (l : Link) → (since : Time) → (evs : List TimedEvent) →
    Decidable (ServerSpeaks d l since evs)
  | _, _, [] => isTrue trivial
  | l, since, ev :: evs =>
    have := instDecidableServerSpeaks d (l.step ev) (match ev.side, ev.event with
      | .server, .send _ => ev.now
      | _, _ => since) evs
    inferInstanceAs (Decidable ((_ → _) ∧ _))

end Link

namespace Endpoint
variable {e : Endpoint} {now : Time} {f : Frame} {o : Offered}

theorem underWay_offer (e : Endpoint) (o : Offered) : (e.offer o).underWay = e.underWay ++ [o] := by
  unfold offer underWay
  split_ifs with h
  · simp [h.1]
  · simp

theorem underWay_send (h : e.closed = false) : (e.send now f).underWay = e.underWay ++ [⟨now, f, false⟩] := by
  rw [send, if_neg (by simp [h]), underWay_offer]

section
variable (e now f)

theorem underWay_transmit : e.transmit.underWay = e.underWay := by
  unfold transmit
  split
  · rfl
  all_goals next hw hb => simp [underWay, hw, hb]

theorem offer_frame (o : Offered) :
    (e.offer o).cfg = e.cfg ∧ (e.offer o).closed = e.closed ∧ (e.offer o).aborted = e.aborted ∧
      (e.offer o).lastActivity = e.lastActivity ∧ (e.offer o).keepalive = e.keepalive := by
  unfold offer
  split_ifs <;> exact ⟨rfl, rfl, rfl, rfl, rfl⟩

theorem send_frame :
    (e.send now f).cfg = e.cfg ∧ (e.send now f).closed = e.closed ∧ (e.send now f).aborted = e.aborted ∧
      (e.send now f).lastActivity = e.lastActivity ∧ (e.send now f).keepalive = e.keepalive := by
  unfold send
  split_ifs
  · exact ⟨rfl, rfl, rfl, rfl, rfl⟩
  · exact e.offer_frame _

theorem transmit_frame :
    e.transmit.cfg = e.cfg ∧ e.transmit.closed = e.closed ∧ e.transmit.aborted = e.aborted ∧
      e.transmit.lastActivity = e.lastActivity := by
  unfold transmit
  split <;> exact ⟨rfl, rfl, rfl, rfl⟩

theorem dispatch_frame :
    (e.dispatch now f).cfg = e.cfg ∧ (e.dispatch now f).aborted = e.aborted ∧
      (e.dispatch now f).lastActivity = now ∧ (e.dispatch now f).keepalive = e.keepalive := by
  unfold dispatch
  split_ifs <;> exact ⟨rfl, rfl, rfl, rfl⟩

theorem dispatch_underWay :
    (e.dispatch now f).closed = false → (e.dispatch now f).underWay = e.underWay ∧
      (e.dispatch now f).blocked = e.blocked ∧ e.closed = false := by
  unfold dispatch
  split_ifs
  · nofun
  · exact fun h => ⟨rfl, rfl, h⟩

theorem underWay_close : ∀ o ∈ e.close.underWay, o ∈ e.underWay := by
  intro o ho
  simp only [Endpoint.close, underWay, append_nil] at ho
  exact mem_append_left _ (mem_append_left _ ho)

theorem dispatch_sublist : ∀ o ∈ (e.dispatch now f).underWay, o ∈ e.underWay := by
  unfold dispatch
  split_ifs
  · exact e.underWay_close
  · exact fun o ho => ho

end

def inLine : KeepaliveState → List Offered
  | .sending t => [⟨t, newPingFrame 0, true⟩]
  | _ => []

/-- What keeps the client's loop from aborting: it stands in line exactly while it is sending, and
since it runs there was activity at `u` or later. -/
structure Pinging (cfg : Config) (u : Time) (e : Endpoint) : Prop where
  cfg_eq : e.cfg = validateConfig cfg
  aborted : e.aborted = none
  line : e.closed = false → e.blocked.filter (·.fromKeepalive) = inLine e.keepalive
  active : e.closed = false → e.keepalive ≠ .starting → e.keepalive ≠ .off → u ≤ e.lastActivity

variable {cfg : Config} {u : Time}

section
variable (h : Pinging cfg u e)
include h

theorem Pinging.of_closed {e' : Endpoint} (hcfg : e'.cfg = e.cfg)
    (hab : e'.aborted = e.aborted) (hc : e'.closed = true) : Pinging cfg u e' :=
  ⟨hcfg.trans h.cfg_eq, hab.trans h.aborted, fun hopen => (nomatch hc.symm.trans hopen),
    fun hopen => (nomatch hc.symm.trans hopen)⟩

theorem Pinging.send (now : Time) (f : Frame) : Pinging cfg u (e.send now f) := by
  obtain ⟨hcfg, hclosed, hab, hact, hka⟩ := e.send_frame now f
  refine ⟨hcfg.trans h.cfg_eq, hab.trans h.aborted, fun hopen => ?_, fun hopen => ?_⟩
  · rw [hclosed] at hopen
    rw [hka, ← h.line hopen, Endpoint.send, if_neg (by simp [hopen]), offer]
    split_ifs
    · rfl
    · simp
  · rw [hclosed] at hopen
    rw [hka, hact]
    exact h.active hopen

theorem Pinging.beginKeepalive (hu : u ≤ now) : Pinging cfg u (e.beginKeepalive now) := by
  unfold Endpoint.beginKeepalive
  split_ifs with hs
  · refine ⟨h.cfg_eq, h.aborted, fun hopen => ?_, fun _ _ _ => hu⟩
    have hline := h.line hopen
    rw [hs] at hline
    exact hline
  · exact h

theorem Pinging.tick (now : Time) : Pinging cfg u (e.tick now) := by
  unfold Endpoint.tick
  by_cases hw : e.keepalive = .waiting ∧ e.closed = false
  swap
  · rw [if_neg hw]
    exact h
  obtain ⟨hcfg, -, hab, hact, -⟩ := e.offer_frame ⟨now, newPingFrame 0, true⟩
  have hline := h.line hw.2
  rw [hw.1] at hline
  have hactive := (h.active hw.2 (by simp [hw.1]) (by simp [hw.1])).trans hact.ge
  split_ifs with hroom <;>
    refine ⟨hcfg.trans h.cfg_eq, hab.trans h.aborted, fun _ => ?_, fun _ _ _ => hactive⟩ <;> dsimp only
  · rw [offer, if_pos hroom]
    exact hline
  · rw [offer, if_neg hroom, filter_append, hline]
    rfl

theorem keepaliveTimeout_eq (hpos : 0 < cfg.pingTimeout) :
    e.keepaliveTimeout = cfg.pingTimeout := by
  rw [keepaliveTimeout, h.cfg_eq]
  exact if_neg (not_le.mpr hpos)

theorem Pinging.of_abort (why : KeepaliveAbort) (hc : e.closed = true) :
    Pinging cfg u (e.abortKeepalive why) := by
  rw [abortKeepalive, if_pos hc]
  exact h.of_closed rfl rfl hc

theorem Pinging.writeTimeout (hpos : 0 < cfg.pingTimeout)
    (hlt : cfg.pingInterval < cfg.pingTimeout) (hprompt : ∀ o ∈ e.underWay, now ≤ o.since + cfg.pingInterval) :
    Pinging cfg u (e.writeTimeout now) := by
  unfold Endpoint.writeTimeout
  split
  · next since hs =>
    split_ifs with hdue
    · cases hc : e.closed with
      | true => exact h.of_abort _ hc
      | false =>
        have hmem : (⟨since, newPingFrame 0, true⟩ : Offered) ∈ e.blocked.filter (·.fromKeepalive) := by
          rw [h.line hc, hs]
          exact mem_cons_self
        have hnow : now ≤ since + cfg.pingInterval :=
          hprompt _ (mem_append_right _ (mem_filter.mp hmem).1)
        rw [keepaliveTimeout_eq h hpos] at hdue
        linarith
    · exact h
  · exact h

end

theorem sub_le_of_le {t v : Time} {d : Duration} (hd : 0 ≤ d) (h : t ≤ v + d) : Time.sub t v ≤ d := by
  refine max_le ?_ (le_trans (min_le_right _ _) ?_)
  · exact le_trans (by norm_num) hd
  · linarith

section
variable (h : Pinging cfg u e)
include h

theorem Pinging.checkLiveness (hpos : 0 < cfg.pingTimeout)
    (hnow : e.closed = false → now ≤ u + cfg.pingTimeout) : Pinging cfg u (e.checkLiveness now) := by
  unfold Endpoint.checkLiveness
  split_ifs with hk hdead
  · cases hc : e.closed with
    | true => exact h.of_abort _ hc
    | false =>
      have hu : u ≤ e.lastActivity := h.active hc (by simp [hk]) (by simp [hk])
      have hle : now ≤ e.lastActivity + cfg.pingTimeout := by linarith [hnow hc]
      rw [keepaliveTimeout_eq h hpos] at hdead
      exact absurd (sub_le_of_le hpos.le hle) (not_le.mpr hdead)
  · refine ⟨h.cfg_eq, h.aborted, fun hopen => ?_, fun hopen _ _ => h.active hopen (by simp [hk]) (by simp [hk])⟩
    have hline := h.line hopen
    rw [hk] at hline
    exact hline
  · exact h

theorem Pinging.sending (hopen : e.closed = false) {waiting : List Offered}
    (hb : e.blocked = o :: waiting) (hk : o.fromKeepalive = true) :
    waiting.filter (·.fromKeepalive) = [] ∧ ∃ t, e.keepalive = .sending t := by
  have hline := h.line hopen
  rw [hb, filter_cons, if_pos hk] at hline
  cases hs : e.keepalive with
  | sending t =>
    rw [hs] at hline
    exact ⟨(cons.inj hline).2, t, rfl⟩
  | off | starting | waiting | checking =>
    rw [hs] at hline
    cases hline

theorem Pinging.transmit : Pinging cfg u e.transmit := by
  unfold Endpoint.transmit
  split
  · exact h
  · exact ⟨h.cfg_eq, h.aborted, h.line, h.active⟩
  · next hw hb =>
    refine ⟨h.cfg_eq, h.aborted, fun hopen => ?_, fun hopen => ?_⟩
    · split_ifs with hk
      · exact (h.sending hopen hb hk).1
      · have hline := h.line hopen
        rw [hb, filter_cons, if_neg hk] at hline
        exact hline
    · split_ifs with hk
      · intro _ _
        obtain ⟨-, t, hs⟩ := h.sending hopen hb hk
        exact h.active hopen (by simp [hs]) (by simp [hs])
      · exact h.active hopen

theorem Pinging.dispatch {v : Time} (hv : v ≤ now) (f : Frame) :
    Pinging cfg v (e.dispatch now f) := by
  obtain ⟨hcfg, hab, hact, hka⟩ := e.dispatch_frame now f
  refine ⟨hcfg.trans h.cfg_eq, hab.trans h.aborted, fun hopen => ?_, fun _ _ _ => ?_⟩
  · obtain ⟨-, hblocked, hc⟩ := e.dispatch_underWay now f hopen
    rw [hka, hblocked]
    exact h.line hc
  · rw [hact]
    exact hv

theorem Pinging.close : Pinging cfg u e.close := h.of_closed rfl rfl rfl

end

theorem writeTimeout_open (e : Endpoint) : (e.writeTimeout now).closed = false → e.closed = false := by
  unfold writeTimeout abortKeepalive
  split
  · split_ifs with hdue hc
    · exact id
    · exact fun _ => by simpa using hc
    · exact id
  · exact id

theorem checkLiveness_open (e : Endpoint) : (e.checkLiveness now).closed = false → e.closed = false := by
  unfold checkLiveness abortKeepalive
  split_ifs with hk hdead hc
  · exact id
  · exact fun _ => by simpa using hc
  · exact id
  · exact id

structure Silent (e : Endpoint) : Prop where
  aborted : e.aborted = none
  off : e.keepalive = .off
  line : ∀ o ∈ e.blocked, o.fromKeepalive = false

theorem Silent.send (h : Silent e) (now : Time) (f : Frame) : Silent (e.send now f) := by
  unfold Endpoint.send offer
  split_ifs
  · exact h
  · exact ⟨h.aborted, h.off, h.line⟩
  · exact ⟨h.aborted, h.off, forall_mem_append.mpr ⟨h.line, forall_mem_singleton.mpr rfl⟩⟩

theorem Silent.transmit (h : Silent e) : Silent e.transmit := by
  unfold Endpoint.transmit
  split
  · exact h
  · exact ⟨h.aborted, h.off, h.line⟩
  · next b waiting hw hb =>
    have hline := h.line
    rw [hb] at hline
    obtain ⟨hfirst, hrest⟩ := forall_mem_cons.mp hline
    refine ⟨h.aborted, ?_, hrest⟩
    rw [hfirst]
    exact h.off

theorem Silent.close (h : Silent e) : Silent e.close := ⟨h.aborted, h.off, nofun⟩

theorem Silent.dispatch (h : Silent e) (now : Time) (f : Frame) : Silent (e.dispatch now f) := by
  unfold Endpoint.dispatch
  split_ifs
  · exact ⟨h.aborted, h.off, nofun⟩
  · exact ⟨h.aborted, h.off, h.line⟩

theorem Silent.loop (h : Silent e) (now : Time) :
    e.beginKeepalive now = e ∧ e.tick now = e ∧ e.writeTimeout now = e ∧ e.checkLiveness now = e := by
  refine ⟨if_neg (by simp [h.off]), if_neg (by simp [h.off]), ?_, if_neg (by simp [h.off])⟩
  simp only [Endpoint.writeTimeout, h.off]

end Endpoint

/-- From a frame at `u` over frames at `times` to the last one at `since`, no gap exceeds `d`. -/
def Spaced (d : Duration) (since : Time) : Time → List Time → Prop
  | u, [] => since ≤ u
  | u, t :: times => t ≤ u + d ∧ Spaced d since t times

theorem Spaced.append {d : Duration} {since u t : Time} {times : List Time} (h : Spaced d since u times)
    (ht : t ≤ since + d) : Spaced d t u (times ++ [t]) := by
  induction times generalizing u with
  | nil =>
    have hle : since ≤ u := h
    exact ⟨by linarith, le_refl t⟩
  | cons v times ih => exact ⟨h.1, ih h.2⟩

/-- If nothing older than `i` is under way, the last frame that arrived is at most `d + i` old. -/
theorem Spaced.le {d i : Duration} {since u now : Time} {times : List Time} (h : Spaced d since u times)
    (hi : 0 ≤ i) (hnow : now ≤ since + d) (hprompt : ∀ t ∈ times, now ≤ t + i) : now ≤ u + (d + i) := by
  cases times with
  | nil =>
    have hle : since ≤ u := h
    linarith
  | cons t times =>
    have hfirst := hprompt t mem_cons_self
    have hgap := h.1
    linarith

namespace Link
open Endpoint

/-- The invariant of the composed system. `u` is the time of the last frame of the server that the
client has dispatched, `since` that of the last one the server has written. -/
structure Watched (cfg : Config) (d : Duration) (u since now : Time) (l : Link) : Prop where
  client : Pinging cfg u (l.ends .client)
  server : Silent (l.ends .server)
  past : u ≤ now
  offered : ∀ o ∈ (l.ends .server).underWay, o.since ≤ now
  spaced : (l.ends .client).closed = false → (l.ends .server).closed = false →
    Spaced d since u ((l.ends .server).underWay.map (·.since))

variable {cfg : Config} {d : Duration} {u since now : Time} {l : Link}

@[simp] theorem set_ends_self (l : Link) (s : Side) (e : Endpoint) : (l.set s e).ends s = e :=
  Function.update_self ..

@[simp] theorem set_server_client (l : Link) (e : Endpoint) :
    (l.set .server e).ends .client = l.ends .client := rfl

section
variable (h : Watched cfg d u since now l)
include h

theorem Watched.set_client {e : Endpoint} (he : Pinging cfg u e)
    (hopen : e.closed = false → (l.ends .client).closed = false) : Watched cfg d u since now (l.set .client e) := by
  refine ⟨by rwa [set_ends_self], h.server, h.past, h.offered, fun hc hs => ?_⟩
  exact h.spaced (hopen hc) hs

theorem Watched.set_server {e : Endpoint} (he : Silent e)
    (hsub : ∀ o ∈ e.underWay, o ∈ (l.ends .server).underWay)
    (hopen : e.closed = false → (l.ends .server).closed = false ∧ e.underWay = (l.ends .server).underWay) :
    Watched cfg d u since now (l.set .server e) := by
  refine ⟨h.client, by rwa [set_ends_self], h.past, ?_, fun hc hs => ?_⟩
  · rw [set_ends_self]
    exact fun o ho => h.offered o (hsub o ho)
  · rw [set_ends_self] at hs ⊢
    obtain ⟨hs', heq⟩ := hopen hs
    rw [heq]
    exact h.spaced hc hs'

theorem Watched.later {now' : Time} (hle : now ≤ now') :
    Watched cfg d u since now' l :=
  ⟨h.client, h.server, h.past.trans hle, fun o ho => (h.offered o ho).trans hle, h.spaced⟩

theorem Watched.serverSends (f : Frame)
    (hspeaks : (l.ends .client).closed = false → (l.ends .server).closed = false ∧ now ≤ since + d) :
    Watched cfg d u now now (l.set .server ((l.ends .server).send now f)) := by
  refine ⟨h.client, ?_, h.past, ?_, fun hc _ => ?_⟩
  · rw [set_ends_self]
    exact h.server.send now f
  · rw [set_ends_self]
    cases hc : (l.ends .server).closed with
    | true =>
      rw [Endpoint.send, if_pos hc]
      exact h.offered
    | false =>
      rw [underWay_send hc]
      exact forall_mem_append.mpr ⟨h.offered, forall_mem_singleton.mpr le_rfl⟩
  · rw [set_server_client] at hc
    obtain ⟨hs, hnow⟩ := hspeaks hc
    rw [set_ends_self, underWay_send hs, map_append]
    exact (h.spaced hc hs).append hnow

theorem Watched.clientDispatches :
    ∃ v, Watched cfg d v since now (l.dispatch .client now) := by
  unfold Link.dispatch
  cases hconn : (l.ends Side.client.other).conn with
  | nil => exact ⟨u, h⟩
  | cons o rest =>
    split_ifs with hclosed
    · exact ⟨u, h⟩
    · have hserver : (l.ends .server).underWay =
          o :: ({ l.ends .server with conn := rest } : Endpoint).underWay := by
        have hconn' : (l.ends .server).conn = o :: rest := hconn
        simp [underWay, hconn']
      have hv : o.since ≤ now := h.offered o (hserver ▸ mem_cons_self)
      refine ⟨o.since, ?_, ⟨h.server.aborted, h.server.off, h.server.line⟩, hv, fun x hx => ?_, fun _ hs => ?_⟩
      · rw [set_ends_self]
        exact h.client.dispatch hv o.frame
      · exact h.offered x (hserver ▸ mem_cons_of_mem _ hx)
      · have hspaced := h.spaced (by simpa using hclosed) hs
        rw [hserver] at hspaced
        exact hspaced.2

theorem Watched.serverDispatches :
    Watched cfg d u since now (l.dispatch .server now) := by
  unfold Link.dispatch
  cases hconn : (l.ends Side.server.other).conn with
  | nil => exact h
  | cons o rest =>
    split_ifs
    · exact h
    · have hclient : Pinging cfg u { l.ends .client with conn := rest } :=
        ⟨h.client.cfg_eq, h.client.aborted, h.client.line, h.client.active⟩
      have hpop : Watched cfg d u since now (l.set .client { l.ends .client with conn := rest }) :=
        h.set_client hclient id
      refine hpop.set_server (h.server.dispatch now o.frame)
        ((l.ends .server).dispatch_sublist now o.frame) (fun hs => ?_)
      obtain ⟨hway, -, hopen⟩ := (l.ends .server).dispatch_underWay now o.frame hs
      exact ⟨hopen, hway⟩

theorem Watched.serverStep (event : LinkEvent)
    (hspeaks : (l.ends .client).closed = false → (l.ends .server).closed = false ∧ now ≤ since + d) :
    Watched cfg d u (match event with
      | .send _ => now
      | _ => since) now (l.step ⟨now, .server, event⟩) := by
  cases event with
  | send f => exact h.serverSends f hspeaks
  | beginKeepalive | tick | writeTimeout | checkLiveness =>
    simp only [Link.step, h.server.loop now, set, Function.update_eq_self]
    exact h
  | transmit =>
    obtain ⟨-, hclosed, -⟩ := (l.ends .server).transmit_frame
    refine h.set_server h.server.transmit ?_ (fun hs => ⟨hclosed ▸ hs, underWay_transmit _⟩)
    rw [underWay_transmit]
    exact fun o ho => ho
  | dispatch => exact h.serverDispatches
  | close => exact h.set_server h.server.close (underWay_close _) nofun

theorem Watched.clientStep (event : LinkEvent) (hpos : 0 < cfg.pingTimeout)
    (hlt : cfg.pingInterval < cfg.pingTimeout)
    (hprompt : ∀ o ∈ (l.ends .client).underWay, now ≤ o.since + cfg.pingInterval)
    (hnow : (l.ends .client).closed = false → now ≤ u + cfg.pingTimeout) :
    ∃ v, Watched cfg d v since now (l.step ⟨now, .client, event⟩) := by
  cases event with
  | send f =>
    obtain ⟨-, hclosed, -⟩ := (l.ends .client).send_frame now f
    exact ⟨u, h.set_client (h.client.send now f) (fun hc => hclosed ▸ hc)⟩
  | beginKeepalive =>
    refine ⟨u, h.set_client (h.client.beginKeepalive h.past) ?_⟩
    unfold Endpoint.beginKeepalive
    split_ifs <;> exact id
  | tick =>
    refine ⟨u, h.set_client (h.client.tick now) ?_⟩
    unfold Endpoint.tick
    split_ifs with hw
    · exact fun _ => hw.2
    · exact fun _ => hw.2
    · exact id
  | writeTimeout =>
    refine ⟨u, h.set_client (h.client.writeTimeout hpos hlt hprompt) ?_⟩
    exact (l.ends .client).writeTimeout_open
  | checkLiveness =>
    refine ⟨u, h.set_client (h.client.checkLiveness hpos hnow) ?_⟩
    exact (l.ends .client).checkLiveness_open
  | transmit =>
    obtain ⟨-, hclosed, -⟩ := (l.ends .client).transmit_frame
    exact ⟨u, h.set_client h.client.transmit (fun hc => hclosed ▸ hc)⟩
  | dispatch => exact h.clientDispatches
  | close => exact ⟨u, h.set_client h.client.close nofun⟩

end

theorem Watched.step (h : Watched cfg (cfg.pingTimeout - cfg.pingInterval) u since now l)
    (hpos : 0 < cfg.pingInterval) (htwice : 2 * cfg.pingInterval ≤ cfg.pingTimeout) {ev : TimedEvent}
    (hlater : now ≤ ev.now) (hprompt : ∀ o ∈ (l.ends .client).underWay ++ (l.ends .server).underWay,
      ev.now ≤ o.since + cfg.pingInterval) (hspeaks : (l.ends .client).closed = false →
      (l.ends .server).closed = false ∧ ev.now ≤ since + (cfg.pingTimeout - cfg.pingInterval)) :
    ∃ v, Watched cfg (cfg.pingTimeout - cfg.pingInterval) v
      (match ev.side, ev.event with
        | .server, .send _ => ev.now
        | _, _ => since) ev.now (l.step ev) := by
  obtain ⟨t, side, event⟩ := ev
  have ht := h.later hlater
  obtain ⟨hclient, hserver⟩ := forall_mem_append.mp hprompt
  cases side with
  | server =>
    refine ⟨u, ?_⟩
    have hstep := ht.serverStep event hspeaks
    cases event <;> exact hstep
  | client =>
    refine ht.clientStep event (by linarith) (by linarith) hclient (fun hopen => ?_)
    obtain ⟨hs, hnow⟩ := hspeaks hopen
    have hle := (ht.spaced hopen hs).le hpos.le hnow (forall_mem_map.mpr hserver)
    linarith

theorem Watched.run {evs : List TimedEvent}
    (h : Watched cfg (cfg.pingTimeout - cfg.pingInterval) u since now l) (hpos : 0 < cfg.pingInterval)
    (htwice : 2 * cfg.pingInterval ≤ cfg.pingTimeout) (htimed : Timed now evs)
    (hprompt : Prompt cfg.pingInterval l evs)
    (hspeaks : ServerSpeaks (cfg.pingTimeout - cfg.pingInterval) l since evs) (s : Side) :
    ((l.run evs).ends s).aborted = none := by
  induction evs generalizing l u since now with
  | nil =>
    cases s with
    | client => exact h.client.aborted
    | server => exact h.server.aborted
  | cons ev evs ih =>
    obtain ⟨v, hv⟩ := h.step hpos htwice htimed.1 hprompt.1 hspeaks.1
    exact ih hv htimed.2 hprompt.2 hspeaks.2

theorem watched_new (cfg : Config) (d : Duration) (start : Time) : Watched cfg d start start start (newLink cfg) where
  client := by
    refine ⟨rfl, rfl, fun _ => ?_, fun _ hs ho => ?_⟩
    · simp only [newLink, newEndpoint]
      split_ifs <;> rfl
    · simp only [newLink, newEndpoint] at hs ho
      split_ifs at hs ho <;> contradiction
  server := ⟨rfl, rfl, nofun⟩
  past := le_refl start
  offered := nofun
  spaced := fun _ _ => le_refl start

/-- Neither end's keepalive aborts a session with prompt dispatch as long as the server writes a frame
at least every `PingTimeout - PingInterval`: the server runs no keepalive of its own and does not
answer pings, so nothing else tells the client that it is alive. -/
theorem run_keepalive_not_aborted (cfg : Config) (hpos : 0 < cfg.pingInterval)
    (htwice : 2 * cfg.pingInterval ≤ cfg.pingTimeout) (start : Time) (evs : List TimedEvent)
    (htimed : Timed start evs) (hprompt : Prompt cfg.pingInterval (newLink cfg) evs)
    (hspeaks : ServerSpeaks (cfg.pingTimeout - cfg.pingInterval) (newLink cfg) start evs) (s : Side) :
    (((newLink cfg).run evs).ends s).aborted = none :=
  (watched_new cfg _ start).run hpos htwice htimed hprompt hspeaks s

/-- The configuration of mesh sessions: a ping every 30 seconds, death after 90. -/
def smuxCfg : Config := ⟨256, 262144, 64, 30 * Proxy.second, 90 * Proxy.second⟩

/-- The handshake on stream 0 at time 0, while the client's loop starts. -/
def handshakeEvents : List TimedEvent :=
  [⟨0, .client, .beginKeepalive⟩, ⟨0, .client, .send (newSynFrame 0 false)⟩, ⟨0, .client, .transmit⟩,
    ⟨0, .server, .dispatch⟩, ⟨0, .server, .send (newSynFrame 0 true)⟩, ⟨0, .server, .transmit⟩,
    ⟨0, .client, .dispatch⟩]

def pingRound (t : Time) : List TimedEvent :=
  [⟨t, .client, .tick⟩, ⟨t, .client, .transmit⟩, ⟨t, .server, .dispatch⟩, ⟨t, .client, .checkLiveness⟩]

def serverData (t : Time) : List TimedEvent :=
  [⟨t, .server, .send (newDataFrame 1 [7])⟩, ⟨t, .server, .transmit⟩, ⟨t, .client, .dispatch⟩]

def chattyRun : List TimedEvent :=
  handshakeEvents ++ pingRound (30 * Proxy.second) ++ serverData (60 * Proxy.second) ++
    pingRound (60 * Proxy.second) ++ pingRound (90 * Proxy.second) ++ serverData (120 * Proxy.second) ++
    pingRound (120 * Proxy.second)

theorem run_chatty_not_aborted : (((newLink smuxCfg).run chattyRun).ends .client).aborted = none :=
  run_keepalive_not_aborted smuxCfg (by decide) (by decide) 0 chattyRun (by decide)
    (by decide) (by decide) .client

/-- After the handshake nobody has anything to say. -/
def idleRun : List TimedEvent :=
  handshakeEvents ++ pingRound (30 * Proxy.second) ++ pingRound (60 * Proxy.second) ++
    pingRound (90 * Proxy.second) ++ pingRound (120 * Proxy.second)

/-- Every frame is dispatched at once, and the client still aborts the idle session at the first tick
after 90 seconds. -/
theorem run_idle_aborted :
    0 < smuxCfg.pingInterval ∧ 2 * smuxCfg.pingInterval ≤ smuxCfg.pingTimeout ∧ Timed 0 idleRun ∧
      Prompt smuxCfg.pingInterval (newLink smuxCfg) idleRun ∧
      (((newLink smuxCfg).run idleRun).ends .client).aborted = some .timeout := by
  decide

end Link
end MeshDesk.Smux
