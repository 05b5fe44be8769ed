import MeshDesk.Mesh.RelayDialer

/-! Relays that ask further relays: what the target of a relayed dial is told, and how long the chain of
relays gets. -/
namespace MeshDesk.Mesh
open MeshNode
open List

namespace RelayHandler

/-- A stream on the session to the target, the dial sent on it, and the target's response. -/
def dialTarget (trail : List String) (closed : Bool) (req : MeshRelayRequest) (w : RelayWorld) :
    Except (Option String) Delivered × RelayWorld :=
  let (m, w) := w.next
  if closed = true ∨ m.fault ∈ [some .openStream, some .portFrame, some .send] then
    (.error (some relayRejectNoSessionToTarget), w)
  else
    let d : Delivered := ⟨trail, ⟨req.tunnelID, req.initiatorKey, req.port⟩⟩
    let w := { w with log := { w.log with dials := w.log.dials ++ [d] } }
    if m.fault ≠ none then (.error (some relayRejectTargetRejected), w) else (.ok d, w)

def multiHopRelay (handle : RelayHandling) (trail : List String) (localKey : String) (req : MeshRelayRequest)
    (w : RelayWorld) : Except (Option String) Delivered × RelayWorld :=
  let path := req.path ++ [localKey]
  if path.length > maxHops then (.error (some "max_relay_hops_exceeded"), w)
  else
    match MeshNode.tryRelayFallback handle trail localKey req.targetKey req.port (some path) w with
    | (.error _, w) => (.error (some relayRejectNoSessionToTarget), w)
    | (.ok d, w) => if w.next.1.evicted then (.error none, w.next.2) else (.ok d, w.next.2)

/-- A relay's handling of a request, with a bound on the number of relays that follow. -/
def handleRequest : ℕ → RelayHandling
  | 0, _, _, _, w => (.error none, { w with log := { w.log with stuck := true } })
  | fuel + 1, trail, localKey, req, w =>
    let (m, w) := w.next
    match m.refusal with
    | some reason => (.error (some reason), w)
    | none =>
      let found := (w.nodes localKey).getSession req.targetKey
      let (_, w) := w.next
      let found := found.or ((w.nodes localKey).clientSessions.lookup req.targetKey)
      let w := { w with log := { w.log with asked := w.log.asked ++ [⟨localKey, req.path, found.isSome⟩] } }
      match found with
      | none => multiHopRelay (handleRequest fuel) trail localKey req w
      | some closed => dialTarget trail closed req w

end RelayHandler

/-! ### What a dial keeps of the log -/

/-- `I` holds of the log afterwards, and the dial of an established tunnel is in it. -/
def LogKept {ε : Type} (I : RelayLog → Prop) (r : Except ε Delivered × RelayWorld) : Prop :=
  I r.2.log ∧ ∀ d, r.1 = .ok d → d ∈ r.2.log.dials

def LogKeptSome (I : RelayLog → Prop) (r : Option Delivered × RelayWorld) : Prop :=
  I r.2.log ∧ ∀ d, r.1 = some d → d ∈ r.2.log.dials

section
variable {ε : Type} {I : RelayLog → Prop} {w : RelayWorld}

theorem LogKept.fail (h : I w.log) (e : ε) : LogKept I (Except.error e, w) := ⟨h, nofun⟩

theorem LogKept.of_eq {r r' : Except ε Delivered × RelayWorld} (heq : r = r') (h : LogKept I r) : LogKept I r' :=
  heq ▸ h

theorem LogKeptSome.fail (h : I w.log) : LogKeptSome I (none, w) := ⟨h, nofun⟩

theorem LogKept.some {d : Delivered} (h : LogKept I ((.ok d : Except ε Delivered), w)) : LogKeptSome I (some d, w) :=
  ⟨h.1, fun d' hd => h.2 d' (congrArg Except.ok (Option.some.inj hd))⟩

end

section Dialling
variable {handle : RelayHandling} {trail : List String} {localKey targetKey : String} {port : UInt16}
  {path : Option (List String)} {I : RelayLog → Prop} {w : RelayWorld}

def Asks (handle : RelayHandling) (trail : List String) (localKey targetKey : String) (port : UInt16)
    (path : Option (List String)) (I : RelayLog → Prop) : Prop :=
  ∀ relayKey, relayKey ≠ localKey → relayKey ∉ path.getD [] → ∀ tunnelID w, I w.log →
    LogKept I (handle (trail ++ [relayKey]) relayKey ⟨tunnelID, targetKey, localKey, port, path.getD []⟩ w)

variable (hh : Asks handle trail localKey targetKey port path I)
include hh

theorem dialViaRelay_keeps (h : I w.log) {relayKey : String} (hself : relayKey ≠ localKey) (hpath : relayKey ∉ path.getD []) :
    LogKept I (RelayDialer.dialViaRelay handle trail localKey targetKey port path relayKey w) := by
  unfold RelayDialer.dialViaRelay
  have hw : I w.next.2.log := h
  dsimp only
  split
  · exact .fail hw _
  · split_ifs
    any_goals exact .fail hw _
    have hkept := hh relayKey hself hpath w.next.1.tunnelID w.next.2 hw
    split
    · rename_i w' heq
      exact .fail (heq ▸ hkept).1 _
    · rename_i w' heq
      exact .fail (heq ▸ hkept).1 _
    · rename_i d w' heq
      rw [heq] at hkept
      split_ifs
      any_goals exact .fail hkept.1 _
      refine ⟨hkept.1, fun d' hd => ?_⟩
      cases hd
      exact hkept.2 d rfl

theorem tryCandidates_keeps (candidates : List String) (lastErr : Option RelayError) (skipped : ℕ) (h : I w.log) :
    LogKept I (tryCandidates handle trail localKey targetKey port path candidates lastErr skipped w) := by
  induction candidates generalizing lastErr skipped w with
  | nil => exact .fail h _
  | cons relayKey rest ih =>
    unfold tryCandidates
    split_ifs with hself hpath
    · exact ih _ _ h
    · exact ih _ _ h
    · dsimp only
      split_ifs
      · exact ih _ _ h
      · split
        · rename_i d w' heq
          have hkept := LogKept.of_eq heq (dialViaRelay_keeps hh (w := w.next.2.updateNode localKey _) h hself hpath)
          exact ⟨hkept.1, hkept.2⟩
        · rename_i e w' heq
          exact ih _ _ (LogKept.of_eq heq (dialViaRelay_keeps hh (w := w.next.2.updateNode localKey _) h hself hpath)).1

theorem meshDialViaRelay_keeps (candidates : List String) (h : I w.log) :
    LogKept I (dialViaRelay handle trail localKey targetKey port path candidates w) := by
  unfold dialViaRelay
  split_ifs
  · exact .fail h _
  · exact tryCandidates_keeps hh _ _ _ h

theorem tryQueriedPath_keeps (h : I w.log) :
    LogKeptSome I (tryQueriedPath handle trail localKey targetKey port path w) := by
  unfold tryQueriedPath
  dsimp only
  split_ifs
  · exact .fail h
  · split
    · rename_i d w' heq
      exact (LogKept.of_eq heq (meshDialViaRelay_keeps hh _ h)).some
    · rename_i e w' heq
      exact .fail (LogKept.of_eq heq (meshDialViaRelay_keeps hh _ h)).1

theorem tryLastSuccess_keeps (h : I w.log) :
    LogKeptSome I (tryLastSuccess handle trail localKey targetKey port path w) := by
  unfold tryLastSuccess
  dsimp only
  split
  · exact .fail h
  · split_ifs
    · split
      · rename_i d w' heq
        exact (LogKept.of_eq heq (meshDialViaRelay_keeps hh _ h)).some
      · rename_i e w' heq
        exact .fail (LogKept.of_eq heq (meshDialViaRelay_keeps hh _ h)).1
    · exact .fail h

theorem tryRelayCandidates_keeps (h : I w.log) :
    LogKept I (tryRelayCandidates handle trail localKey targetKey port path w) := by
  unfold tryRelayCandidates
  dsimp only
  split_ifs
  · exact .fail h _
  · exact .fail h _
  · exact meshDialViaRelay_keeps hh _ h

theorem tryRelayFallback_keeps (h : I w.log) :
    LogKept I (tryRelayFallback handle trail localKey targetKey port path w) := by
  have hfirst : LogKeptSome I (if path = none then
      tryQueriedPath handle trail localKey targetKey port path w else (none, w)) := by
    split_ifs
    · exact tryQueriedPath_keeps hh h
    · exact .fail h
  unfold tryRelayFallback
  generalize (if path = none then tryQueriedPath handle trail localKey targetKey port path w
    else (none, w)) = first at hfirst
  obtain ⟨queried, w⟩ := first
  cases queried with
  | some d => exact ⟨hfirst.1, fun d' hd => hfirst.2 d' (congrArg some (Except.ok.inj hd))⟩
  | none =>
    have hlast := tryLastSuccess_keeps hh hfirst.1
    dsimp only
    split
    · rename_i d w' heq
      rw [heq] at hlast
      exact ⟨hlast.1, fun d' hd => hlast.2 d' (congrArg some (Except.ok.inj hd))⟩
    · rename_i w' heq
      rw [heq] at hlast
      exact tryRelayCandidates_keeps hh hlast.1

end Dialling

/-! ### Chains of relays -/

def RelayLog.Passed (log : RelayLog) (path : List String) : Prop := ∀ r ∈ path, ∃ q ∈ log.asked, q.relay = r

/-- A dial started by `a`: its relays are distinct and have been asked, at most three, the last of which has
found a session to the target and names the node before it. -/
structure Delivered.Sound (a : String) (port : UInt16) (log : RelayLog) (d : Delivered) : Prop where
  chain : ∃ path relay, d.trail = a :: (path ++ [relay]) ∧ (path ++ [relay]).Nodup ∧ path.length ≤ maxHops ∧
    (a :: path).getLast? = some d.dial.initiatorKey ∧ log.Passed path ∧
    ∃ q ∈ log.asked, q.relay = relay ∧ q.path = path ∧ q.hasSession = true
  port : d.dial.port = port

/-- No bound was hit, and every dial so far is sound. -/
structure RelayLog.Sound (a : String) (port : UInt16) (log : RelayLog) : Prop where
  stuck : log.stuck = false
  dials : ∀ d ∈ log.dials, d.Sound a port log

section Chains
variable {a localKey targetKey tunnelID sender : String} {port : UInt16} {path : List String} {log : RelayLog}
  {w : RelayWorld}

theorem RelayLog.Passed.ask (h : log.Passed path) (q : Asked) :
    RelayLog.Passed { log with asked := log.asked ++ [q] } path := by
  intro r hr
  obtain ⟨q', hq', heq⟩ := h r hr
  exact ⟨q', mem_append_left _ hq', heq⟩

theorem RelayLog.Sound.ask (h : log.Sound a port) (q : Asked) :
    RelayLog.Sound a port { log with asked := log.asked ++ [q] } := by
  refine ⟨h.stuck, fun d hd => ?_⟩
  obtain ⟨⟨path, relay, htrail, hnodup, hlen, hkey, hpassed, q', hq', hlast⟩, hport⟩ := h.dials d hd
  exact ⟨⟨path, relay, htrail, hnodup, hlen, hkey, hpassed.ask q, q', mem_append_left _ hq', hlast⟩, hport⟩

theorem RelayLog.Sound.deliver (h : log.Sound a port) {d : Delivered} (hd : d.Sound a port log) :
    RelayLog.Sound a port { log with dials := log.dials ++ [d] } := by
  refine ⟨h.stuck, forall_mem_append.mpr ⟨fun d' hd' => ?_, forall_mem_singleton.mpr ⟨hd.chain, hd.port⟩⟩⟩
  exact ⟨(h.dials d' hd').chain, (h.dials d' hd').port⟩

theorem dialTarget_keeps {I : RelayLog → Prop} {trail : List String} {closed : Bool} {req : MeshRelayRequest}
    (h : I w.log)
    (hd : I { w.log with dials := w.log.dials ++ [⟨trail, ⟨req.tunnelID, req.initiatorKey, req.port⟩⟩] }) :
    LogKept I (RelayHandler.dialTarget trail closed req w) := by
  unfold RelayHandler.dialTarget
  dsimp only
  split_ifs
  · exact .fail h _
  · exact .fail hd _
  · refine ⟨hd, fun d hok => ?_⟩
    cases hok
    exact mem_append_right _ (mem_singleton_self _)

theorem multiHopRelay_keeps {handle : RelayHandling}
    (hh : (path ++ [localKey]).length ≤ maxHops → Asks handle (a :: (path ++ [localKey])) localKey targetKey port
      (some (path ++ [localKey])) (fun log => log.Sound a port ∧ log.Passed (path ++ [localKey])))
    (h : w.log.Sound a port ∧ w.log.Passed (path ++ [localKey])) :
    LogKept (fun log => log.Sound a port ∧ log.Passed path)
      (RelayHandler.multiHopRelay handle (a :: (path ++ [localKey])) localKey
        ⟨tunnelID, targetKey, sender, port, path⟩ w) := by
  have hshorten (log : RelayLog) (hlog : log.Sound a port ∧ log.Passed (path ++ [localKey])) :
      log.Sound a port ∧ log.Passed path :=
    ⟨hlog.1, (forall_mem_append.mp hlog.2).1⟩
  unfold RelayHandler.multiHopRelay
  dsimp only
  split_ifs with hhops
  · exact .fail (hshorten _ h) _
  · have hkept := tryRelayFallback_keeps (hh (not_lt.mp hhops)) h
    split
    · rename_i e w' heq
      rw [heq] at hkept
      exact .fail (hshorten _ hkept.1) _
    · rename_i d w' heq
      rw [heq] at hkept
      split_ifs
      · exact .fail (hshorten _ hkept.1) _
      · exact ⟨hshorten _ hkept.1, fun d' hd => hkept.2 d' (congrArg Except.ok (Except.ok.inj hd))⟩

/-- A relay that was asked along a path of distinct relays keeps the log sound, whatever relays it asks
itself: by induction on the bound, since each of them is asked along a longer path. -/
theorem handleRequest_keeps (fuel : ℕ) (hfuel : maxHops + 1 ≤ fuel + path.length) (hlen : path.length ≤ maxHops)
    (hnodup : (path ++ [localKey]).Nodup) (hsender : (a :: path).getLast? = some sender)
    (h : w.log.Sound a port ∧ w.log.Passed path) :
    LogKept (fun log => log.Sound a port ∧ log.Passed path)
      (RelayHandler.handleRequest fuel (a :: (path ++ [localKey])) localKey
        ⟨tunnelID, targetKey, sender, port, path⟩ w) := by
  induction fuel generalizing path localKey tunnelID sender w with
  | zero => omega
  | succ fuel ih =>
    unfold RelayHandler.handleRequest
    dsimp only
    split
    · exact .fail h _
    · generalize ((w.next.2.nodes localKey).getSession targetKey).or
        ((w.next.2.next.2.nodes localKey).clientSessions.lookup targetKey) = found
      have hasked (b : Bool) : RelayLog.Sound a port { w.log with asked := w.log.asked ++ [⟨localKey, path, b⟩] } ∧
          RelayLog.Passed { w.log with asked := w.log.asked ++ [⟨localKey, path, b⟩] } path :=
        ⟨h.1.ask _, h.2.ask _⟩
      cases found with
      | some closed =>
        refine dialTarget_keeps (hasked true) ⟨(hasked true).1.deliver ⟨?_, rfl⟩, (hasked true).2⟩
        exact ⟨path, localKey, rfl, hnodup, hlen, hsender, (hasked true).2, ⟨localKey, path, true⟩,
          mem_append_right _ (mem_singleton_self _), rfl, rfl, rfl⟩
      | none =>
        refine multiHopRelay_keeps (fun hlen' relayKey _ hnew tunnelID w hw => ?_) ⟨(hasked false).1,
          forall_mem_append.mpr ⟨(hasked false).2, forall_mem_singleton.mpr ?_⟩⟩
        · refine ih ?_ hlen' ?_ ?_ hw
          · rw [length_append, length_singleton]
            omega
          · rw [nodup_append]
            refine ⟨hnodup, nodup_singleton _, fun r hr r' hr' heq => ?_⟩
            obtain rfl := mem_singleton.mp hr'
            exact hnew (heq ▸ hr)
          · rw [← cons_append, getLast?_append]
            rfl
        · exact ⟨_, mem_append_right _ (mem_singleton_self _), rfl⟩

variable (nodes : String → RelayNode) (env : ℕ → Moment)

def relayedDial (fuel : ℕ) (a targetKey : String) (port : UInt16) : Except RelayError Delivered × RelayWorld :=
  MeshNode.tryRelayFallback (RelayHandler.handleRequest fuel) [a] a targetKey port none ⟨nodes, env, 0, {}⟩

theorem relayedDial_keeps {fuel : ℕ} (hfuel : maxHops + 1 ≤ fuel) (a targetKey : String) (port : UInt16) :
    LogKept (RelayLog.Sound a port) (relayedDial nodes env fuel a targetKey port) := by
  refine tryRelayFallback_keeps ?_ ⟨rfl, fun d hd => absurd hd not_mem_nil⟩
  intro relayKey _ _ tunnelID w hw
  have hkept : LogKept (fun log => log.Sound a port ∧ log.Passed [])
      (RelayHandler.handleRequest fuel [a, relayKey] relayKey ⟨tunnelID, targetKey, a, port, []⟩ w) :=
    handleRequest_keeps fuel hfuel (Nat.zero_le _) (nodup_singleton _) rfl
      ⟨hw, fun r hr => absurd hr not_mem_nil⟩
  exact ⟨hkept.1.1, hkept.2⟩

/-- Every dial that reaches the target asks for the right port, and it names the node that started it exactly
if this node is the one that asked the last relay. -/
theorem relayed_identity {fuel : ℕ} (hfuel : maxHops + 1 ≤ fuel)
    (a targetKey : String) (port : UInt16) {d : Delivered}
    (hd : d ∈ (relayedDial nodes env fuel a targetKey port).2.log.dials) :
    d.dial.port = port ∧ (d.dial.initiatorKey = a ↔ d.trail.dropLast.getLast? = some a) := by
  obtain ⟨⟨path, relay, htrail, _, _, hkey, _⟩, hport⟩ :=
    (relayedDial_keeps nodes env hfuel a targetKey port).1.dials d hd
  have hbefore : d.trail.dropLast = a :: path := by
    rw [htrail, ← cons_append, dropLast_concat]
  refine ⟨hport, ?_⟩
  rw [hbefore, hkey, Option.some.injEq]

def linked (links : List (String × String)) (key : String) : RelayNode where
  sessions := links.foldl (fun m e =>
    if e.1 = key then m.insert e.2 false else if e.2 = key then m.insert e.1 false else m) ∅

def calm (order : List String) : ℕ → Moment := fun _ => { now := 1, sessionOrder := order }

theorem relayed_identity_oneRelay :
    let dial : MeshRelayDial := ⟨"", "a", 80⟩
    (relayedDial (linked [("a", "r"), ("r", "t")]) (calm ["a", "r"]) 3 "a" "t" 80).2.log.dials = [⟨["a", "r"], dial⟩] ∧
      dial.port = 80 ∧ (dial.initiatorKey = "a" ↔ ["a", "r"].dropLast.getLast? = some "a") := by
  intro dial
  have hdials : (relayedDial (linked [("a", "r"), ("r", "t")]) (calm ["a", "r"]) 3 "a" "t" 80).2.log.dials =
      [⟨["a", "r"], dial⟩] := by decide
  exact ⟨hdials, relayed_identity _ _ le_rfl "a" "t" 80 (hdials ▸ mem_singleton_self _)⟩

/-- With two relays the target is told the key of the first one. -/
theorem second_relay_names_first :
    (relayedDial (linked [("a", "r1"), ("r1", "r2"), ("r2", "t")]) (calm ["r2", "r1", "a"]) 3 "a" "t" 80).1.toOption =
      some ⟨["a", "r1", "r2"], ⟨"", "r1", 80⟩⟩ := by
  decide

/-- Every relayed dial ends, and its relays are distinct and at most three. If neither the node that started it nor
the target is asked to relay, and a relay asked along two others has no session to the target, then the chain has at
most two relays and no node twice. -/
theorem relay_chain_bounded {fuel : ℕ} (hfuel : maxHops + 1 ≤ fuel)
    {a targetKey : String} (hne : a ≠ targetKey) (port : UInt16) :
    let r := relayedDial nodes env fuel a targetKey port
    r.2.log.stuck = false ∧ ∀ d, r.1 = .ok d → ∃ relays, d.trail = a :: relays ∧
      (relays.Nodup ∧ relays.length ≤ maxHops + 1) ∧
      ((∀ q ∈ r.2.log.asked, q.relay ≠ a ∧ q.relay ≠ targetKey ∧ (q.path.length = maxHops → q.hasSession = false)) →
        (a :: relays ++ [targetKey]).Nodup ∧ relays.length ≤ maxHops) := by
  intro r
  obtain ⟨hsound, hdials⟩ := relayedDial_keeps nodes env hfuel a targetKey port
  refine ⟨hsound.stuck, fun d hok => ?_⟩
  obtain ⟨path, relay, htrail, hnodup, hlen, _, hpassed, q, hq, hrelay, hpath, hsession⟩ :=
    (hsound.dials d (hdials d hok)).chain
  refine ⟨path ++ [relay], htrail, ⟨hnodup, ?_⟩, fun hcalm => ⟨?_, ?_⟩⟩
  · rw [length_append, length_singleton]
    omega
  · have hother : ∀ x ∈ path ++ [relay], x ≠ a ∧ x ≠ targetKey := by
      refine forall_mem_append.mpr ⟨fun x hx => ?_, forall_mem_singleton.mpr ?_⟩
      · obtain ⟨q', hq', rfl⟩ := hpassed x hx
        exact ⟨(hcalm q' hq').1, (hcalm q' hq').2.1⟩
      · exact hrelay ▸ ⟨(hcalm q hq).1, (hcalm q hq).2.1⟩
    rw [cons_append, nodup_cons, nodup_append, mem_append, mem_singleton]
    refine ⟨?_, hnodup, nodup_singleton _, fun x hx y hy heq => ?_⟩
    · rintro (ha | ha)
      · exact (hother a ha).1 rfl
      · exact hne ha
    · obtain rfl := mem_singleton.mp hy
      exact (hother x hx).2 heq
  · have hshort : path.length ≠ maxHops := by
      intro hlast
      have hnone := (hcalm q hq).2.2 (hpath ▸ hlast)
      rw [hsession] at hnone
      cases hnone
    rw [length_append, length_singleton]
    omega

theorem relay_chain_bounded_twoRelays :
    let r := relayedDial (linked [("a", "r1"), ("r1", "r2"), ("r2", "t")]) (calm ["r2", "r1", "a"]) 3 "a" "t" 80
    r.2.log.stuck = false ∧ ∃ d relays, r.1 = .ok d ∧ d.trail = "a" :: relays ∧ relays.length = 2 ∧
      ("a" :: relays ++ ["t"]).Nodup := by
  intro r
  have hok : r.1 = .ok ⟨["a", "r1", "r2"], ⟨"", "r1", 80⟩⟩ := by decide
  obtain ⟨hstuck, hall⟩ := relay_chain_bounded (linked [("a", "r1"), ("r1", "r2"), ("r2", "t")])
    (calm ["r2", "r1", "a"]) (le_refl 3) (show "a" ≠ "t" by decide) 80
  obtain ⟨relays, htrail, _, hcalm⟩ := hall _ hok
  refine ⟨hstuck, _, relays, hok, htrail, ?_, (hcalm (by decide)).1⟩
  cases htrail
  rfl

/-- A relay may pass the request back to the node that started the dial, which then asks another relay; and
a third relay delivers the dial if it has a session to the target. -/
theorem relay_chain_loops :
    (relayedDial (linked [("a", "r1"), ("a", "r2"), ("r2", "t")]) (calm ["r1", "r2", "a"]) 3 "a" "t" 80).1.toOption.map
        (·.trail) = some ["a", "r1", "a", "r2"] ∧
      (relayedDial (linked [("a", "r1"), ("r1", "r2"), ("r2", "r3"), ("r3", "t")]) (calm ["r3", "r2", "r1", "a"]) 3
        "a" "t" 80).1.toOption.map (·.trail) = some ["a", "r1", "r2", "r3"] := by
  decide

end Chains
end MeshDesk.Mesh
