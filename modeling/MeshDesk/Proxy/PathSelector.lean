import MeshDesk.Lib.Unspecified
import MeshDesk.Lib.Workers
import MeshDesk.Proxy.Dispatcher
import MeshDesk.Proxy.RelayHealth

/-! Path selection by probing. Candidates are told apart by their node identifiers, paths are made of the
mesh addresses in the probe results, and a probe result may come from the cache. -/
namespace MeshDesk.Proxy
open Lib List

structure CandidateRelay where
  nodeID : GoString
  meshAddr : GoString
  advertisedRTT : Duration
  deriving DecidableEq, Repr

def safeShortKey (key : GoString) : GoString := key.take 8

inductive ProbeError where
  | dial (text : String)
  | relay (shortKey : GoString) (text : String)
  deriving DecidableEq, Repr

structure PathProbeResult where
  nodeID : GoString
  meshAddr : GoString
  rtt : Duration
  hopCount : ℤ
  error : Option ProbeError
  deriving DecidableEq, Repr

structure ProbeCacheEntry where
  result : PathProbeResult
  expires : Time
  deriving DecidableEq, Repr

def defaultProbeCacheTTL : Duration := 30 * second

structure PathSelectorConfig where
  probeConcurrency : ℤ
  minCandidates : ℤ
  maxCandidates : ℤ
  dialFunc : Bool
  deriving DecidableEq, Repr

structure PathSelector where
  cfg : PathSelectorConfig
  probeCache : Map GoString ProbeCacheEntry
  healthTracker : RelayHealthTracker
  concurrency_pos : 0 < cfg.probeConcurrency

variable (cfg : PathSelectorConfig)

def newPathSelector : PathSelector where
  cfg :=
    { cfg with
      probeConcurrency := if cfg.probeConcurrency ≤ 0 then 8 else cfg.probeConcurrency
      minCandidates := if cfg.minCandidates ≤ 0 then 2 else cfg.minCandidates
      maxCandidates := if cfg.maxCandidates ≤ 0 then 10 else cfg.maxCandidates }
  probeCache := ∅
  healthTracker := newRelayHealthTracker
  concurrency_pos := by
    dsimp only
    split_ifs with h
    · decide
    · exact not_le.mp h

/-- How a selection fails, with the numbers its message names. -/
inductive SelectError where
  | fewCandidates (count need : ℤ)
  | fewHealthy (count need unhealthy : ℤ)
  | fewResponded (count : ℤ)
  | needTwo (count : ℤ)
  | noPair (count : ℤ)
  | noneRemaining
  | noneHealthy
  | allFailed
  deriving DecidableEq, Repr

def SelectError.text : SelectError → String
  | .fewCandidates count need => s!"insufficient relay candidates: {count} (need {need})"
  | .fewHealthy count need unhealthy =>
    s!"insufficient healthy relay candidates: {count} (need {need}, {unhealthy} unhealthy)"
  | .fewResponded count => s!"only {count} relays responded to probe (need 2)"
  | .needTwo count => s!"need at least 2 candidates, got {count}"
  | .noPair count => s!"no disjoint path pair found among {count} candidates"
  | .noneRemaining => "no relay candidates remaining after excluding failed relays"
  | .noneHealthy => "no healthy relay candidates remaining"
  | .allFailed => "all replacement candidates failed probe"

/-- What the goroutines of `probeCandidates` meet: who runs next, the clock at the two sections of each one
and the outcome of its dial. -/
structure Probing where
  pick : ℕ → ℕ
  checkedAt : ℕ → Time
  storedAt : ℕ → Time
  dial : ℕ → Duration × Option String

/-- What a selection meets: the clock when a candidate is filtered and when a result is recorded, the
probes, the orders that sorting leaves open and the random relay keys. -/
structure Meeting where
  filteredAt : ℕ → Time
  recordedAt : ℕ → Time
  probing : Probing
  byRTT : Arrangement CandidateRelay
  byScore : Arrangement PathProbeResult
  keys : ℕ → Bytes

def computePathScore (rtt : Duration) (hopCount capacity : ℤ) : ℚ :=
  let capPenalty : ℚ :=
    if capacity ≤ 0 then 10
    else if capacity < 256 then (256 - capacity) / 10
    else 0
  rtt.tdiv 1000000 + hopCount * 50 + capPenalty

def buildPath (r : PathProbeResult) (relayKey : Bytes) : Path := ⟨[r.meshAddr], [relayKey]⟩

/-- The order of `filterCandidates`: no estimate comes after any estimate. -/
def advertisedLess (a b : CandidateRelay) : Bool :=
  if a.advertisedRTT = 0 ∧ 0 < b.advertisedRTT then false
  else if 0 < a.advertisedRTT ∧ b.advertisedRTT = 0 then true
  else a.advertisedRTT < b.advertisedRTT

def filterCandidates (order : Arrangement CandidateRelay) (candidates : List CandidateRelay) : List CandidateRelay :=
  if candidates.any (fun c => 0 < c.advertisedRTT) then order.sort advertisedLess candidates else candidates

def probeRelay (c : CandidateRelay) (outcome : Duration × Option String) : Duration × Option ProbeError :=
  if cfg.dialFunc then (outcome.1, outcome.2.map .dial)
  else
    match outcome.2 with
    | some text => (0, some (.relay (safeShortKey c.nodeID) text))
    | none => (outcome.1, none)

/-- A goroutine of `probeCandidates`: its first section looks into the cache, its second one stores what
the probe returned. -/
def prober (env : Probing) : Crew (Map GoString ProbeCacheEntry) CandidateRelay PathProbeResult PathProbeResult where
  start cache i c :=
    let probed := probeRelay cfg c (env.dial i)
    let fresh : PathProbeResult := ⟨c.nodeID, c.meshAddr, probed.1, 1, probed.2⟩
    match cache.lookup c.nodeID with
    | some cached => if env.checkedAt i < cached.expires then .inr cached.result else .inl fresh
    | none => .inl fresh
  finish cache i result := (cache.insert result.nodeID ⟨result, env.storedAt i + defaultProbeCacheTTL⟩, result)

def recordResults (h : RelayHealthTracker) (recordedAt : ℕ → Time) (probed : List PathProbeResult) :
    RelayHealthTracker :=
  probed.zipIdx.foldl (fun h p =>
    match p.1.error with
    | some _ => h.recordFailure p.1.nodeID (recordedAt p.2)
    | none => h.recordSuccess p.1.nodeID) h

/-- The order of `SelectPaths`: failed probes last, the others by their round trip time and health. -/
def scoreLess (h : RelayHealthTracker) (a b : PathProbeResult) : Bool :=
  match a.error, b.error with
  | some _, none => false
  | none, some _ => true
  | some _, some _ => false
  | none, none => a.rtt * h.healthPenalty a.nodeID < b.rtt * h.healthPenalty b.nodeID

def pairs {α : Type*} : List α → List (α × α)
  | [] => []
  | a :: l => l.map (a, ·) ++ pairs l

structure Best (α : Type*) where
  score : ℚ
  found : Option α
  built : ℕ

/-- A new best is taken if there was none or its score is lower. -/
def Best.offer {α : Type*} (b : Best α) (score : ℚ) (make : ℕ → α) : Best α :=
  if b.score < 0 ∨ score < b.score then ⟨score, some (make b.built), b.built + 1⟩ else b

namespace PathSelector
variable (ps : PathSelector)

/-- Whether a candidate passes the health filter: it is not unhealthy or may be tried again. -/
def passes (now : Time) (c : CandidateRelay) : Bool :=
  !ps.healthTracker.isUnhealthy c.nodeID || ps.healthTracker.canRetry c.nodeID now

def healthyCandidates (filteredAt : ℕ → Time) (candidates : List CandidateRelay) : List CandidateRelay :=
  (candidates.zipIdx.filter (fun c => ps.passes (filteredAt c.2) c.1)).map (·.1)

def probeCandidates (env : Probing) (candidates : List CandidateRelay) : PathSelector × List PathProbeResult :=
  let r := (prober ps.cfg env).runAll ps.cfg.probeConcurrency.toNat env.pick ps.probeCache candidates
  ({ ps with probeCache := r.1 }, r.2)

variable (env : Meeting) (candidates : List CandidateRelay)

/-- What both selections do with the candidates that pass: take those with the best estimates, probe them
and record the results. -/
def probeBest : PathSelector × List PathProbeResult :=
  let filtered := (filterCandidates env.byRTT candidates).take ps.cfg.maxCandidates.toNat
  let r := ps.probeCandidates env.probing filtered
  ({ r.1 with healthTracker := recordResults r.1.healthTracker env.recordedAt r.2 }, r.2)

def pathScore (r : PathProbeResult) : ℚ :=
  computePathScore r.rtt r.hopCount 0 * ps.healthTracker.healthPenalty r.nodeID

def selectDisjointPaths (keys : ℕ → Bytes) (candidates : List PathProbeResult) : Except SelectError (Path × Path) :=
  if candidates.length < 2 then .error (.needTwo candidates.length)
  else
    let best := (pairs (candidates.take 5)).foldl (fun (b : Best (Path × Path)) c =>
      if c.1.nodeID = c.2.nodeID then b
      else b.offer (ps.pathScore c.1 + ps.pathScore c.2)
        (fun n => (buildPath c.1 (keys (2 * n)), buildPath c.2 (keys (2 * n + 1))))) ⟨-1, none, 0⟩
    match best.found with
    | none => .error (.noPair candidates.length)
    | some paths => .ok paths

def selectPaths : Except SelectError (Path × Path) × PathSelector :=
  if candidates.length < ps.cfg.minCandidates then
    (.error (.fewCandidates candidates.length ps.cfg.minCandidates), ps)
  else
    let healthy := ps.healthyCandidates env.filteredAt candidates
    if healthy.length < ps.cfg.minCandidates then
      (.error (.fewHealthy healthy.length ps.cfg.minCandidates (candidates.length - healthy.length)), ps)
    else
      let (ps, probed) := ps.probeBest env healthy
      let valid := (env.byScore.sort (scoreLess ps.healthTracker) probed).filter (fun p => p.error.isNone)
      if valid.length < 2 then (.error (.fewResponded valid.length), ps)
      else (ps.selectDisjointPaths env.keys valid, ps)

def selectReplacementPath (failedRelayIDs : List GoString) : Except SelectError Path × PathSelector :=
  let remaining := candidates.filter (fun c => !(failedRelayIDs.contains c.nodeID || failedRelayIDs.contains c.meshAddr))
  if remaining.length < 1 then (.error .noneRemaining, ps)
  else
    let healthy := ps.healthyCandidates env.filteredAt remaining
    if healthy.length = 0 then (.error .noneHealthy, ps)
    else
      let (ps, probed) := ps.probeBest env healthy
      let best := (probed.filter (fun p => p.error.isNone)).foldl (fun (b : Best PathProbeResult) p =>
        b.offer (ps.pathScore p) (fun _ => p)) ⟨-1, none, 0⟩
      match best.found with
      | none => (.error .allFailed, ps)
      | some r => (.ok (buildPath r (env.keys 0)), ps)

def invalidateProbeCache (nodeID : GoString) : PathSelector :=
  { ps with probeCache := ps.probeCache.erase nodeID }

def clearProbeCache : PathSelector := { ps with probeCache := ∅ }

def markRelayUnhealthy (nodeID : GoString) (now : ℕ → Time) : PathSelector :=
  let h := ps.healthTracker.recordFailure nodeID (now 0)
  let h := h.recordFailure nodeID (now 1)
  let h := h.recordFailure nodeID (now 2)
  invalidateProbeCache { ps with healthTracker := h } nodeID

end PathSelector

inductive SelectorCall where
  | selectPaths (env : Meeting) (candidates : List CandidateRelay)
  | selectReplacementPath (env : Meeting) (candidates : List CandidateRelay) (failedRelayIDs : List GoString)
  | invalidateProbeCache (nodeID : GoString)
  | clearProbeCache
  | markRelayUnhealthy (nodeID : GoString) (now : ℕ → Time)
  | healthTracker (call : HealthCall)

namespace SelectorCall

def candidates : SelectorCall → List CandidateRelay
  | .selectPaths _ candidates => candidates
  | .selectReplacementPath _ candidates _ => candidates
  | _ => []

end SelectorCall

def PathSelector.exec (ps : PathSelector) : SelectorCall → PathSelector
  | .selectPaths env candidates => (ps.selectPaths env candidates).2
  | .selectReplacementPath env candidates failedRelayIDs =>
    (ps.selectReplacementPath env candidates failedRelayIDs).2
  | .invalidateProbeCache nodeID => ps.invalidateProbeCache nodeID
  | .clearProbeCache => ps.clearProbeCache
  | .markRelayUnhealthy nodeID now => ps.markRelayUnhealthy nodeID now
  | .healthTracker call => { ps with healthTracker := ps.healthTracker.exec call }

def selectorRun (cfg : PathSelectorConfig) (calls : List SelectorCall) : PathSelector :=
  calls.foldl PathSelector.exec (newPathSelector cfg)

section Seen
variable {seen : List CandidateRelay} {ps : PathSelector}

def PathProbeResult.From (r : PathProbeResult) (seen : List CandidateRelay) : Prop :=
  ∃ c ∈ seen, c.nodeID = r.nodeID ∧ c.meshAddr = r.meshAddr

/-- The cache has, under a node identifier, results for candidates that were seen with it. -/
def CacheOf (seen : List CandidateRelay) (cache : Map GoString ProbeCacheEntry) : Prop :=
  ∀ k entry, cache.lookup k = some entry → entry.result.nodeID = k ∧ entry.result.From seen

theorem CacheOf.empty : CacheOf seen ∅ := fun _ _ h => by
  rw [AList.lookup_empty] at h
  cases h

theorem CacheOf.erase {cache : Map GoString ProbeCacheEntry} (h : CacheOf seen cache) (nodeID : GoString) :
    CacheOf seen (cache.erase nodeID) := by
  intro k entry hk
  obtain rfl | hne := eq_or_ne k nodeID
  · rw [AList.lookup_erase] at hk
    cases hk
  · rw [AList.lookup_erase_ne hne] at hk
    exact h k entry hk

theorem CacheOf.insert {cache : Map GoString ProbeCacheEntry} (h : CacheOf seen cache) {result : PathProbeResult}
    (hresult : result.From seen) (expires : Time) : CacheOf seen (cache.insert result.nodeID ⟨result, expires⟩) := by
  intro k entry hk
  obtain ⟨rfl, rfl⟩ | ⟨-, hold⟩ := Map.lookup_of_insert hk
  · exact ⟨rfl, hresult⟩
  · exact h k entry hold

theorem prober_keeps (cfg : PathSelectorConfig) (env : Probing) :
    (prober cfg env).Keeps (CacheOf seen) (· ∈ seen) (fun c r => r.nodeID = c.nodeID ∧ r.From seen)
      (fun c r => r.nodeID = c.nodeID ∧ r.From seen) where
  start cache i c hcache hc := by
    have hfresh : ∀ rtt error, PathProbeResult.From ⟨c.nodeID, c.meshAddr, rtt, 1, error⟩ seen :=
      fun _ _ => ⟨c, hc, rfl, rfl⟩
    dsimp only [prober]
    cases hk : cache.lookup c.nodeID with
    | none => exact ⟨rfl, hfresh _ _⟩
    | some cached =>
      dsimp only
      split_ifs
      · exact hcache _ _ hk
      · exact ⟨rfl, hfresh _ _⟩
  finish cache i c r hcache hr := ⟨hcache.insert hr.2 _, hr⟩

variable {candidates : List CandidateRelay}

theorem mem_healthyCandidates {filteredAt : ℕ → Time} {c : CandidateRelay}
    (h : c ∈ ps.healthyCandidates filteredAt candidates) : c ∈ candidates := by
  obtain ⟨x, hx, rfl⟩ := mem_map.mp h
  exact mem_zipIdx' (mem_filter.mp hx).1 |>.2 ▸ getElem_mem _

theorem mem_filterCandidates {order : Arrangement CandidateRelay}
    {c : CandidateRelay} (h : c ∈ filterCandidates order candidates) : c ∈ candidates := by
  unfold filterCandidates at h
  split_ifs at h
  · exact (order.sort_perm _ _).mem_iff.mp h
  · exact h

theorem PathSelector.probeBest_spec (env : Meeting) (hcache : CacheOf seen ps.probeCache)
    (hseen : candidates ⊆ seen) :
    CacheOf seen (ps.probeBest env candidates).1.probeCache ∧
      ∀ r ∈ (ps.probeBest env candidates).2, r.From seen ∧ ∃ c ∈ candidates, c.nodeID = r.nodeID := by
  have hsub : ∀ c ∈ (filterCandidates env.byRTT candidates).take ps.cfg.maxCandidates.toNat, c ∈ candidates :=
    fun c hc => mem_filterCandidates (mem_of_mem_take hc)
  have hlimit : 0 < ps.cfg.probeConcurrency.toNat := by
    have := ps.concurrency_pos
    omega
  obtain ⟨hcache', hresults⟩ := (prober_keeps ps.cfg env.probing).runAll hlimit env.probing.pick hcache
    fun c hc => hseen (hsub c hc)
  refine ⟨hcache', fun r hr => ?_⟩
  obtain ⟨c, hc, hid, hfrom⟩ := exists_of_mem_forall₂ hresults hr
  exact ⟨hfrom, c, hsub c hc, hid.symm⟩

end Seen

/-! ### What is selected -/

theorem mem_pairs {α : Type*} {l : List α} {c : α × α} (h : c ∈ pairs l) : c.1 ∈ l ∧ c.2 ∈ l := by
  induction l with
  | nil => cases h
  | cons a l ih =>
    obtain h | h := mem_append.mp h
    · obtain ⟨b, hb, rfl⟩ := mem_map.mp h
      exact ⟨mem_cons_self, mem_cons_of_mem a hb⟩
    · exact ⟨mem_cons_of_mem a (ih h).1, mem_cons_of_mem a (ih h).2⟩

theorem Best.offer_found {α : Type*} {b : Best α} {P : α → Prop} (h : ∀ x, b.found = some x → P x) {score : ℚ}
    {make : ℕ → α} (hmake : ∀ n, P (make n)) : ∀ x, (b.offer score make).found = some x → P x := by
  intro x hx
  unfold Best.offer at hx
  split_ifs at hx
  · obtain rfl := Option.some.inj hx
    exact hmake _
  · exact h x hx

namespace PathSelector
variable {ps : PathSelector} {env : Meeting}

/-- The paths go over the relays of two results about different nodes. -/
def Joins (results : List PathProbeResult) (paths : Path × Path) : Prop :=
  ∃ r₁ ∈ results, ∃ r₂ ∈ results, r₁.nodeID ≠ r₂.nodeID ∧ paths.1.relays = [r₁.meshAddr] ∧
    paths.2.relays = [r₂.meshAddr]

theorem selectDisjointPaths_joins {keys : ℕ → Bytes} {results : List PathProbeResult} {paths : Path × Path}
    (h : ps.selectDisjointPaths keys results = .ok paths) : Joins results paths := by
  unfold selectDisjointPaths at h
  split_ifs at h
  dsimp only at h
  split at h
  · cases h
  · next paths' hfound =>
    obtain rfl := Except.ok.inj h
    refine foldlRecOn (motive := fun (b : Best (Path × Path)) => ∀ paths, b.found = some paths → Joins results paths)
      (pairs (results.take 5)) _ (fun _ h => by cases h) (fun b hb c hc => ?_) paths' hfound
    obtain ⟨h₁, h₂⟩ := mem_pairs hc
    split_ifs with hid
    · exact hb
    · exact Best.offer_found hb fun n =>
        ⟨c.1, mem_of_mem_take h₁, c.2, mem_of_mem_take h₂, hid, rfl, rfl⟩

section Selection
variable {seen candidates : List CandidateRelay} (hcache : CacheOf seen ps.probeCache) (hseen : candidates ⊆ seen)
include hcache hseen

theorem selectPaths_spec (env : Meeting) :
    CacheOf seen (ps.selectPaths env candidates).2.probeCache ∧
      ∀ paths, (ps.selectPaths env candidates).1 = .ok paths →
        ∃ results, (∀ r ∈ results, r.From seen) ∧ Joins results paths := by
  unfold selectPaths
  split_ifs with hfew
  · exact ⟨hcache, nofun⟩
  dsimp only
  split_ifs with hhealthy
  · exact ⟨hcache, nofun⟩
  · exact ⟨(probeBest_spec env hcache fun c hc => hseen (mem_healthyCandidates hc)).1, nofun⟩
  · obtain ⟨hcache', hresults⟩ := probeBest_spec env hcache fun c hc => hseen (mem_healthyCandidates hc)
    refine ⟨hcache', fun paths h => ⟨_, fun r hr => ?_, selectDisjointPaths_joins h⟩⟩
    exact (hresults r ((env.byScore.sort_perm _ _).mem_iff.mp (mem_filter.mp hr).1)).1

/-- The cache after the selection of a replacement, and the result its path is made of: it is about a
candidate that was not excluded. -/
theorem selectReplacementPath_spec (env : Meeting) (failedRelayIDs : List GoString) :
    CacheOf seen (ps.selectReplacementPath env candidates failedRelayIDs).2.probeCache ∧
      ∀ path, (ps.selectReplacementPath env candidates failedRelayIDs).1 = .ok path →
        ∃ r : PathProbeResult, r.From seen ∧ path.relays = [r.meshAddr] ∧
          ∃ c ∈ candidates, c.nodeID = r.nodeID ∧ c.meshAddr ∉ failedRelayIDs := by
  unfold selectReplacementPath
  dsimp only
  split_ifs with hnone hhealthy
  · exact ⟨hcache, nofun⟩
  · exact ⟨hcache, nofun⟩
  · have hsub : ∀ c, c ∈ ps.healthyCandidates env.filteredAt (candidates.filter fun c =>
        !(failedRelayIDs.contains c.nodeID || failedRelayIDs.contains c.meshAddr)) →
        c ∈ candidates ∧ c.meshAddr ∉ failedRelayIDs := by
      intro c hc
      obtain ⟨hmem, hkept⟩ := mem_filter.mp (mem_healthyCandidates hc)
      simp only [Bool.not_eq_true', Bool.or_eq_false_iff, contains_eq_mem, decide_eq_false_iff_not] at hkept
      exact ⟨hmem, hkept.2⟩
    obtain ⟨hcache', hresults⟩ := probeBest_spec env hcache fun c hc => hseen (hsub c hc).1
    split
    · exact ⟨hcache', nofun⟩
    · next r hfound =>
      have hr : r.From seen ∧ ∃ c ∈ candidates, c.nodeID = r.nodeID ∧ c.meshAddr ∉ failedRelayIDs := by
        refine foldlRecOn (motive := fun (b : Best PathProbeResult) => ∀ r, b.found = some r →
          r.From seen ∧ ∃ c ∈ candidates, c.nodeID = r.nodeID ∧ c.meshAddr ∉ failedRelayIDs)
          (filter _ _) _ (fun _ h => by cases h) (fun b hb p hp => Best.offer_found hb fun _ => ?_) r hfound
        obtain ⟨hfrom, c, hc, hid⟩ := hresults p (mem_filter.mp hp).1
        exact ⟨hfrom, c, (hsub c hc).1, hid, (hsub c hc).2⟩
      refine ⟨hcache', fun path h => ?_⟩
      obtain rfl := Except.ok.inj h
      exact ⟨r, hr.1, rfl, hr.2⟩

end Selection

theorem exec_cacheOf {seen : List CandidateRelay} (hcache : CacheOf seen ps.probeCache) (call : SelectorCall)
    (hseen : call.candidates ⊆ seen) : CacheOf seen (ps.exec call).probeCache := by
  cases call with
  | selectPaths env candidates => exact (selectPaths_spec hcache hseen env).1
  | selectReplacementPath env candidates failedRelayIDs =>
    exact (selectReplacementPath_spec hcache hseen env failedRelayIDs).1
  | invalidateProbeCache nodeID => exact hcache.erase nodeID
  | clearProbeCache => exact .empty
  | markRelayUnhealthy nodeID now => exact hcache.erase nodeID
  | healthTracker call => exact hcache

end PathSelector

theorem selectorRun_cacheOf (cfg : PathSelectorConfig) {calls : List SelectorCall} {seen : List CandidateRelay}
    (hseen : ∀ call ∈ calls, call.candidates ⊆ seen) : CacheOf seen (selectorRun cfg calls).probeCache :=
  foldlRecOn (motive := fun ps : PathSelector => CacheOf seen ps.probeCache) calls _ .empty
    fun _ hps call hcall => PathSelector.exec_cacheOf hps call (hseen call hcall)

/-- Candidates have the same address exactly if they are the same node. -/
def OneAddressEach (seen : List CandidateRelay) : Prop :=
  ∀ c ∈ seen, ∀ c' ∈ seen, c.nodeID = c'.nodeID ↔ c.meshAddr = c'.meshAddr

instance (seen : List CandidateRelay) : Decidable (OneAddressEach seen) :=
  inferInstanceAs (Decidable (∀ c ∈ seen, ∀ c' ∈ seen, _))

/-- After any calls: where every node is only ever listed with one address of its own, selected paths have no
common relay and a replacement avoids the failed ones. -/
theorem selection_disjoint (cfg : PathSelectorConfig) (calls : List SelectorCall) (candidates : List CandidateRelay)
    (env : Meeting) (failedRelayIDs : List GoString)
    (haddr : OneAddressEach (calls.flatMap SelectorCall.candidates ++ candidates)) :
    (∀ paths, ((selectorRun cfg calls).selectPaths env candidates).1 = .ok paths →
        hasOverlap paths.1 paths.2 = false) ∧
      ∀ path, ((selectorRun cfg calls).selectReplacementPath env candidates failedRelayIDs).1 = .ok path →
        ∀ relay ∈ path.relays, relay ∉ failedRelayIDs := by
  have hcalls : ∀ call ∈ calls, call.candidates ⊆ calls.flatMap SelectorCall.candidates ++ candidates :=
    fun call hcall c hc => mem_append_left candidates (mem_flatMap.mpr ⟨call, hcall, hc⟩)
  have hcache := selectorRun_cacheOf cfg hcalls
  have hseen := subset_append_right (calls.flatMap SelectorCall.candidates) candidates
  refine ⟨fun paths hok => ?_, fun path hok relay hrelay => ?_⟩
  · obtain ⟨results, hfrom, r₁, hr₁, r₂, hr₂, hid, hpath₁, hpath₂⟩ :=
      (PathSelector.selectPaths_spec hcache hseen env).2 paths hok
    obtain ⟨c₁, hc₁, hid₁, haddr₁⟩ := hfrom r₁ hr₁
    obtain ⟨c₂, hc₂, hid₂, haddr₂⟩ := hfrom r₂ hr₂
    have hne : r₂.meshAddr ≠ r₁.meshAddr := by
      rw [← haddr₁, ← haddr₂]
      exact fun heq => hid (hid₁ ▸ hid₂ ▸ ((haddr c₂ hc₂ c₁ hc₁).mpr heq).symm)
    unfold hasOverlap
    rw [hpath₁, hpath₂]
    simpa using hne
  · obtain ⟨r, ⟨c', hc', hid', haddr'⟩, hpath, c, hc, hid, hkept⟩ :=
      (PathSelector.selectReplacementPath_spec hcache hseen env failedRelayIDs).2 path hok
    rw [hpath, mem_singleton] at hrelay
    rw [hrelay, ← haddr', (haddr c' hc' c (hseen hc)).mp (hid'.trans hid.symm)]
    exact hkept

/-- Probes that all succeed within a millisecond, one goroutine after the other. -/
def Meeting.steady : Meeting where
  filteredAt _ := 0
  recordedAt _ := 0
  probing := ⟨fun _ => 0, fun _ => 0, fun _ => 0, fun _ => (1000000, none)⟩
  byRTT := .listed
  byScore := .listed
  keys _ := []

theorem selection_disjoint_two :
    let ps := selectorRun ⟨0, 0, 0, true⟩ []
    let paths := (⟨[[1]], [[]]⟩, ⟨[[2]], [[]]⟩)
    (ps.selectPaths .steady [⟨[7], [1], 0⟩, ⟨[8], [2], 0⟩]).1 = .ok paths ∧ hasOverlap paths.1 paths.2 = false := by
  have hok : ((selectorRun ⟨0, 0, 0, true⟩ []).selectPaths .steady [⟨[7], [1], 0⟩, ⟨[8], [2], 0⟩]).1 =
      .ok (⟨[[1]], [[]]⟩, ⟨[[2]], [[]]⟩) := by with_unfolding_all decide
  exact ⟨hok, (selection_disjoint ⟨0, 0, 0, true⟩ [] [⟨[7], [1], 0⟩, ⟨[8], [2], 0⟩] .steady [] (by decide)).1 _ hok⟩

/-- Two nodes with one address make two paths over one relay, and a node that has moved is replaced by itself
at its old, failed address as long as the cache has it. -/
theorem selection_overlaps :
    (∃ paths, ((selectorRun ⟨0, 0, 0, true⟩ []).selectPaths .steady [⟨[7], [1], 0⟩, ⟨[8], [1], 0⟩]).1 = .ok paths ∧
        hasOverlap paths.1 paths.2 = true) ∧
      ((selectorRun ⟨0, 0, 0, true⟩ [.selectPaths .steady [⟨[7], [1], 0⟩, ⟨[8], [2], 0⟩]]).selectReplacementPath .steady
        [⟨[7], [3], 0⟩] [[1]]).1 = .ok ⟨[[1]], [[]]⟩ :=
  ⟨⟨(⟨[[1]], [[]]⟩, ⟨[[1]], [[]]⟩), by with_unfolding_all decide, by decide⟩, by with_unfolding_all decide⟩

end MeshDesk.Proxy
