import MeshDesk.Join.Server
import MeshDesk.KeyExchange.Agreement

/-! How many bundles a set of tokens buys. A bundle costs a cached challenge, a challenge an unused nonce, and the
nonces with a right tag come from the issued tokens: the nonce followed by the fingerprint, cut where the rest is a
fingerprint the server accepts. -/
namespace MeshDesk.Join
open Lib List
open Proxy (Bytes GoString)

/-! ### What a request does -/

inductive Served (E : JoinEnv) (c : JoinCall) (s s' : JoinServer) : JoinResponse → Prop
  | refused (err : JoinError) (hreplay : s'.replay = s.replay) (hcache : s'.challengeCache = s.challengeCache) :
    Served E c s s' (.refused err)
  | replayed (err : JoinError) (hreplay : s'.replay = s.replay.cleanup c.clock.marked)
    (hcache : s'.challengeCache = s.challengeCache) : Served E c s s' (.refused err)
  | marked {req : JoinRequest} {t : Token} {response : JoinResponse} (hbody : c.body = .ok req)
    (htag : Tagged E.codec (E.hmac s.cfg.secret) req.token t) (hlive : c.clock.parsed < t.expiresAt)
    (hours : t.serverFP = [] ∨ t.serverFP = s.cfg.serverIdentity.publicKey)
    (hmark : s.replay.checkAndMark c.clock.marked t.nonce t.expiresAt = (true, s'.replay))
    (hcache : s'.challengeCache.size ≤ s.challengeCache.size + 1) (hresponse : response.isBundle = false) :
    Served E c s s' response
  | redeemed {response : JoinResponse} (hreplay : s'.replay = s.replay)
    (hcache : s'.challengeCache.size + 1 = s.challengeCache.size) : Served E c s s' response

theorem Served.of_limited {E : JoinEnv} {c : JoinCall} {s₀ s s' : JoinServer} {response : JoinResponse}
    (h : Served E c s s' response) (hcfg : s.cfg = s₀.cfg) (hreplay : s.replay = s₀.replay)
    (hcache : s.challengeCache = s₀.challengeCache) : Served E c s₀ s' response := by
  obtain ⟨cfg, replay, rateLimit, challengeCache⟩ := s
  subst hcfg hreplay hcache
  cases h with
  | refused err hr hc => exact .refused err hr hc
  | replayed err hr hc => exact .replayed err hr hc
  | marked hbody htag hlive hours hmark hc hresponse => exact .marked hbody htag hlive hours hmark hc hresponse
  | redeemed hr hc => exact .redeemed hr hc

namespace JoinServer
variable {E : JoinEnv}

variable (s : JoinServer)

theorem allowRequest_frame (now : Proxy.Time) (ip : GoString) :
    let out := (s.allowRequest now ip).2
    out.cfg = s.cfg ∧ out.replay = s.replay ∧ out.challengeCache = s.challengeCache := by
  unfold allowRequest
  dsimp only
  generalize (if 1000 < s.rateLimit.size then _ else s.rateLimit) = rateLimit
  cases rateLimit.lookup ip with
  | none => exact ⟨rfl, rfl, rfl⟩
  | some bucket =>
    dsimp only
    split_ifs <;> exact ⟨rfl, rfl, rfl⟩

theorem handleChallengeStep_frame (req : JoinRequest) (now : Proxy.Time) (random : Option Bytes) :
    let out := s.handleChallengeStep req now random
    out.2.cfg = s.cfg ∧ out.2.replay = s.replay ∧ out.2.challengeCache.size ≤ s.challengeCache.size + 1 ∧
      out.1.isBundle = false := by
  cases random with
  | none => exact ⟨rfl, rfl, Nat.le_succ _, rfl⟩
  | some challenge =>
    refine ⟨rfl, rfl, ?_, rfl⟩
    refine (Map.size_filterMapVals_le _ _).trans ?_
    exact Nat.succ_le_succ (Map.size_erase_le _ _)

theorem served_response (req : JoinRequest) (c : JoinCall) :
    let out := s.handleChallengeResponseStep E req c
    out.2.cfg = s.cfg ∧ Served E c s out.2 out.1 := by
  unfold handleChallengeResponseStep
  cases hentry : s.challengeCache.lookup req.challenge with
  | none => exact ⟨rfl, .refused _ rfl rfl⟩
  | some entry =>
    dsimp only
    have hsize := Map.size_erase hentry
    split_ifs <;> exact ⟨rfl, .redeemed rfl hsize⟩

theorem served_request {req : JoinRequest} {c : JoinCall} (hbody : c.body = .ok req) :
    let out := s.handleRequest E req c
    out.2.cfg = s.cfg ∧ Served E c s out.2 out.1 := by
  unfold handleRequest
  cases hparse : parseToken E.codec (E.hmac s.cfg.secret) c.clock.parsed req.token with
  | error err => exact ⟨rfl, .refused _ rfl rfl⟩
  | ok t =>
    obtain ⟨htag, hlive⟩ := parseToken_eq_ok hparse
    dsimp only
    split_ifs with hfp hstep
    · exact ⟨rfl, .refused _ rfl rfl⟩
    · have hours : t.serverFP = [] ∨ t.serverFP = s.cfg.serverIdentity.publicKey := by
        rwa [not_and_or, not_not, not_not] at hfp
      rcases hmark : s.replay.checkAndMark c.clock.marked t.nonce t.expiresAt with ⟨new, replay⟩
      cases new with
      | false => exact ⟨rfl, .replayed _ (ReplayCache.checkAndMark_false hmark) rfl⟩
      | true =>
        obtain ⟨hcfg, hreplay, hcache, hresponse⟩ :=
          handleChallengeStep_frame { s with replay := replay } req c.clock.issued c.random
        refine ⟨hcfg, .marked hbody htag hlive hours ?_ hcache hresponse⟩
        rw [hmark, hreplay]
    · exact served_response s req c

theorem served (E : JoinEnv) (s : JoinServer) (c : JoinCall) :
    (s.handleJoin E c).2.cfg = s.cfg ∧ Served E c s (s.handleJoin E c).2 (s.handleJoin E c).1 := by
  unfold handleJoin
  split_ifs
  · exact ⟨rfl, .refused _ rfl rfl⟩
  obtain ⟨hcfg, hreplay, hcache⟩ := s.allowRequest_frame c.clock.limited c.clientIP
  rcases hlimit : s.allowRequest c.clock.limited c.clientIP with ⟨allowed, s'⟩
  rw [hlimit] at hcfg hreplay hcache
  cases allowed with
  | false => exact ⟨hcfg, .refused _ hreplay hcache⟩
  | true =>
    cases hbody : c.body with
    | error err => exact ⟨hcfg, .refused _ hreplay hcache⟩
    | ok req =>
      obtain ⟨hcfg', h⟩ := served_request s' hbody
      exact ⟨hcfg'.trans hcfg, h.of_limited hcfg hreplay hcache⟩

end JoinServer

section Nonces
variable {mac : Bytes → Bytes} {issued : List Token} {key : GoString} {i j t u : Token}

/-- A token the server lets through, whose tag was made for an issued token. -/
def Passes (issued : List Token) (key : GoString) (t : Token) : Prop :=
  (t.serverFP = [] ∨ t.serverFP = key) ∧ ∃ i ∈ issued, signingMaterial i = signingMaterial t

theorem origin_nonce (hi : IsIssued mac i) (hours : t.serverFP = [] ∨ t.serverFP = key)
    (hsame : signingMaterial i = signingMaterial t) : i.nonce = (t.nonce ++ key).take 24 := by
  have htext := (signingMaterial_inj hsame).2
  have hlen := hi.nonce_length
  rcases hours with hfp | hfp
  · rw [hfp, append_nil] at htext
    rw [← htext, append_assoc, take_left' hlen]
  · rw [← hfp, ← htext, take_left' hlen]

theorem Passes.expiresAt_eq (hissued : ∀ i ∈ issued, IsIssued mac i) (hnodup : (issued.map Token.nonce).Nodup)
    (ht : Passes issued key t) (hu : Passes issued key u) (hnonce : t.nonce = u.nonce) :
    t.expiresAt = u.expiresAt := by
  obtain ⟨htours, i, hi, hit⟩ := ht
  obtain ⟨huours, j, hj, hju⟩ := hu
  have hij : i.nonce = j.nonce := by
    rw [origin_nonce (hissued i hi) htours hit, origin_nonce (hissued j hj) huours hju, hnonce]
  have horigin : i = j := inj_on_of_nodup_map hnodup hi hj hij
  rw [← (signingMaterial_inj hit).1, ← (signingMaterial_inj hju).1, horigin]

/-- The nonces that pass: all of the signed text, or what stands before the server's key at its end. -/
def candidates (issued : List Token) (key : GoString) : List GoString :=
  issued.map (fun i => i.nonce ++ i.serverFP) ++
    (issued.filter (fun i => i.serverFP ≠ [])).map
      (fun i => (i.nonce ++ i.serverFP).take ((i.nonce ++ i.serverFP).length - key.length))

theorem Passes.mem_candidates (hissued : ∀ i ∈ issued, IsIssued mac i) (hkey : key.length = 64)
    (h : Passes issued key t) : t.nonce ∈ candidates issued key := by
  obtain ⟨hours, i, hi, hit⟩ := h
  have htext := (signingMaterial_inj hit).2
  rw [candidates, mem_append, mem_map, mem_map]
  rcases hours with hfp | hfp
  · left
    exact ⟨i, hi, by rw [htext, hfp, append_nil]⟩
  · right
    have hlen := congrArg length htext
    have hnonce := (hissued i hi).nonce_length
    rw [hfp, length_append, length_append, hkey] at hlen
    -- without a fingerprint the signed text is shorter than the key
    have hne : i.serverFP ≠ [] := by
      intro hnil
      rw [hnil, length_nil] at hlen
      omega
    refine ⟨i, mem_filter.mpr ⟨hi, decide_eq_true hne⟩, ?_⟩
    rw [htext, hfp, length_append, Nat.add_sub_cancel, take_left']
    rfl

theorem candidates_length (issued : List Token) (key : GoString) :
    (candidates issued key).length = issued.length + issued.countP (fun i => i.serverFP ≠ []) := by
  rw [candidates, length_append, length_map, length_map, countP_eq_length_filter]

end Nonces

/-! ### Counting -/

/-- No request carries a tag for bytes that were never signed. -/
def Unforged (E : JoinEnv) (cfg : ServerConfig) (issued : List Token) (calls : List JoinCall) : Prop :=
  ∀ c ∈ calls, ∀ req t, c.body = .ok req → Tagged E.codec (E.hmac cfg.secret) req.token t →
    ∃ i ∈ issued, signingMaterial i = signingMaterial t

/-- Expiries in nanoseconds fit in 64 bits, the clock does not run backwards from one replay check to the next, and
between the validation of a token and its replay check it does not pass the expiry. -/
structure Clocked (issued : List Token) (calls : List JoinCall) : Prop where
  fits : ∀ i ∈ issued, -2 ^ 63 ≤ i.expiresAt.toInt * 10 ^ 9 ∧ i.expiresAt.toInt * 10 ^ 9 < 2 ^ 63
  sorted : calls.Pairwise (fun c d => c.clock.marked ≤ d.clock.marked)
  prompt : ∀ c ∈ calls, ∀ i ∈ issued, c.clock.parsed < i.expiresAt →
    c.clock.marked.toInt ≤ i.expiresAt.toInt * 10 ^ 9

/-- The nonce of a used token is held beyond its expiry, or the clock has passed the expiry. -/
def Held (used : Map GoString Int64) (calls : List JoinCall) (t : Token) : Prop :=
  (∃ e, used.lookup t.nonce = some e ∧ t.expiresAt.toInt * 10 ^ 9 ≤ e.toInt) ∨
    ∃ c ∈ calls, t.expiresAt.toInt * 10 ^ 9 < c.clock.marked.toInt

variable {calls : List JoinCall} {t : Token}

theorem Held.mono {used : Map GoString Int64} (h : Held used calls t) (c : JoinCall) : Held used (calls ++ [c]) t :=
  h.imp_right fun ⟨d, hd, hlt⟩ => ⟨d, mem_append_left _ hd, hlt⟩

theorem Held.cleanup {rc : ReplayCache} (h : Held rc.used calls t)
    (c : JoinCall) : Held (rc.cleanup c.clock.marked).used (calls ++ [c]) t := by
  rcases h with ⟨e, he, hexp⟩ | hpast
  · by_cases hlive : c.clock.marked ≤ e
    · exact .inl ⟨e, ReplayCache.lookup_cleanup he hlive, hexp⟩
    · rw [Int64.le_iff_toInt_le] at hlive
      exact .inr ⟨c, by simp, by omega⟩
  · exact (show Held (rc.cleanup c.clock.marked).used calls t from .inr hpast).mono c

theorem Held.insert {used : Map GoString Int64} (h : Held used calls t)
    {nonce : GoString} (hne : t.nonce ≠ nonce) (e : Int64) : Held (used.insert nonce e) calls t := by
  refine h.imp_left fun ⟨e', he', hexp⟩ => ⟨e', ?_, hexp⟩
  rw [AList.lookup_insert_ne hne, he']

/-- What holds after the requests `calls`, of which those with the tokens `marks` passed the replay check. -/
structure Tally (cfg : ServerConfig) (issued : List Token) (calls : List JoinCall) (r : JoinRun) (marks : List Token) :
    Prop where
  config : r.server.cfg = (newJoinServer cfg).cfg
  handed : r.bundles + r.server.challengeCache.size ≤ marks.length
  nodup : (marks.map Token.nonce).Nodup
  passes : ∀ t ∈ marks, Passes issued cfg.serverIdentity.publicKey t
  held : ∀ t ∈ marks, Held r.server.replay.used calls t

theorem bundles_step (E : JoinEnv) (r : JoinRun) (c : JoinCall) :
    (r.step E c).bundles = r.bundles + if (r.server.handleJoin E c).1.isBundle then 1 else 0 := by
  simp only [JoinRun.bundles, JoinRun.step, countP_append, countP_singleton]

section Runs
variable {E : JoinEnv} {mac : Bytes → Bytes} {cfg : ServerConfig} {issued : List Token} {calls : List JoinCall} {c : JoinCall}
  {r : JoinRun} {marks : List Token}

theorem Tally.step_unmarked (h : Tally cfg issued calls r marks) :
    let out := r.server.handleJoin E c
    out.2.cfg = r.server.cfg →
    (if out.1.isBundle then 1 else 0) + out.2.challengeCache.size ≤ r.server.challengeCache.size →
    (∀ t ∈ marks, Held out.2.replay.used (calls ++ [c]) t) → Tally cfg issued (calls ++ [c]) (r.step E c) marks := by
  intro out hcfg hcount hheld
  refine ⟨hcfg.trans h.config, ?_, h.nodup, h.passes, hheld⟩
  have hhanded := h.handed
  rw [bundles_step]
  change r.bundles + (if out.1.isBundle then 1 else 0) + out.2.challengeCache.size ≤ _
  omega

section
variable (hissued : ∀ i ∈ issued, IsIssued mac i)
include hissued

theorem Tally.fresh (hnodup : (issued.map Token.nonce).Nodup)
    (hclock : Clocked issued (calls ++ [c])) (h : Tally cfg issued calls r marks) {t : Token}
    (hpass : Passes issued cfg.serverIdentity.publicKey t) (hlive : c.clock.parsed < t.expiresAt)
    (hnew : (r.server.replay.cleanup c.clock.marked).used.lookup t.nonce = none) :
    ∀ u ∈ marks, u.nonce ≠ t.nonce := by
  intro u hu hnonce
  have hexp := (h.passes u hu).expiresAt_eq hissued hnodup hpass hnonce
  have hprompt : c.clock.marked.toInt ≤ u.expiresAt.toInt * 10 ^ 9 := by
    obtain ⟨-, i, hi, hit⟩ := hpass
    rw [hexp, ← (signingMaterial_inj hit).1]
    exact hclock.prompt c (by simp) i hi (by rwa [(signingMaterial_inj hit).1])
  rcases h.held u hu with ⟨e, he, hle⟩ | ⟨d, hd, hpast⟩
  · have hkept := ReplayCache.lookup_cleanup he (Int64.le_iff_toInt_le.mpr (hprompt.trans hle))
    rw [hnonce, hnew] at hkept
    cases hkept
  · have hsorted := (pairwise_append.mp hclock.sorted).2.2 d hd c (by simp)
    rw [Int64.le_iff_toInt_le] at hsorted
    omega

theorem Tally.step (hnodup : (issued.map Token.nonce).Nodup)
    (hforge : Unforged E cfg issued (calls ++ [c])) (hclock : Clocked issued (calls ++ [c]))
    (h : Tally cfg issued calls r marks) : ∃ marks', Tally cfg issued (calls ++ [c]) (r.step E c) marks' := by
  obtain ⟨hcfg, hserved⟩ := r.server.served E c
  generalize hresponse : (r.server.handleJoin E c).1 = response at hserved
  have hcount : ∀ n, (if response.isBundle then 1 else 0) + n ≤ n + 1 := by
    intro n
    split_ifs <;> omega
  cases hserved with
  | refused err hreplay hcache =>
    refine ⟨marks, h.step_unmarked hcfg ?_ ?_⟩
    · rw [hresponse, hcache]
      simp [JoinResponse.isBundle]
    · rw [hreplay]
      exact fun t ht => (h.held t ht).mono c
  | replayed err hreplay hcache =>
    refine ⟨marks, h.step_unmarked hcfg ?_ ?_⟩
    · rw [hresponse, hcache]
      simp [JoinResponse.isBundle]
    · rw [hreplay]
      exact fun t ht => (h.held t ht).cleanup c
  | redeemed hreplay hcache =>
    refine ⟨marks, h.step_unmarked hcfg ?_ ?_⟩
    · rw [hresponse, ← hcache]
      exact hcount _
    · rw [hreplay]
      exact fun t ht => (h.held t ht).mono c
  | @marked req t _ hbody htag hlive hours hmark hcache hbundle =>
    rw [h.config] at htag hours
    have horigin := hforge c (by simp) req t hbody htag
    have hpass : Passes issued cfg.serverIdentity.publicKey t := ⟨hours, horigin⟩
    obtain ⟨hnew, hused⟩ := ReplayCache.checkAndMark_true hmark
    have hfresh := h.fresh hissued hnodup hclock hpass hlive hnew
    have hheld : Held (r.server.handleJoin E c).2.replay.used (calls ++ [c]) t := by
      obtain ⟨i, hi, hit⟩ := horigin
      have hfits := hclock.fits i hi
      rw [(signingMaterial_inj hit).1] at hfits
      rw [hused]
      exact .inl ⟨_, AList.lookup_insert _, ReplayCache.le_storeExp hfits⟩
    refine ⟨t :: marks, hcfg.trans h.config, ?_, ?_, ?_, ?_⟩
    · have hhanded := h.handed
      rw [bundles_step, hresponse, hbundle, length_cons]
      change _ + (r.server.handleJoin E c).2.challengeCache.size ≤ _
      simp only [Bool.false_eq_true, if_false]
      omega
    · rw [map_cons, nodup_cons]
      refine ⟨?_, h.nodup⟩
      intro hmem
      obtain ⟨u, hu, hnonce⟩ := mem_map.mp hmem
      exact hfresh u hu hnonce
    · exact forall_mem_cons.mpr ⟨hpass, h.passes⟩
    · refine forall_mem_cons.mpr ⟨hheld, fun u hu => ?_⟩
      change Held (r.server.handleJoin E c).2.replay.used _ u
      rw [hused]
      exact ((h.held u hu).cleanup c).insert (hfresh u hu) _

theorem tally_serve (hnodup : (issued.map Token.nonce).Nodup)
    (hforge : Unforged E cfg issued calls) (hclock : Clocked issued calls) :
    ∃ marks, Tally cfg issued calls (serve E cfg calls) marks := by
  induction calls using reverseRecOn with
  | nil => exact ⟨[], rfl, le_refl 0, nodup_nil, by simp, by simp⟩
  | append_singleton calls c ih =>
    have hforge' : Unforged E cfg issued calls := (forall_mem_append.mp hforge).1
    have hclock' : Clocked issued calls :=
      ⟨hclock.fits, (pairwise_append.mp hclock.sorted).1, (forall_mem_append.mp hclock.prompt).1⟩
    obtain ⟨marks, h⟩ := ih hforge' hclock'
    rw [serve, foldl_append]
    exact h.step hissued hnodup hforge hclock

end

/-- Every token buys a bundle, and one more if it carries a fingerprint; without fingerprints tokens are single-use. -/
theorem bundles_le_issued (hissued : ∀ i ∈ issued, IsIssued (E.hmac cfg.secret) i)
    (hnodup : (issued.map Token.nonce).Nodup) (hkey : cfg.serverIdentity.publicKey.length = 64)
    (hforge : Unforged E cfg issued calls) (hclock : Clocked issued calls) :
    (serve E cfg calls).bundles ≤ issued.length + issued.countP (fun i => i.serverFP ≠ []) ∧
      ((∀ i ∈ issued, i.serverFP = []) → (serve E cfg calls).bundles ≤ issued.length) := by
  obtain ⟨marks, h⟩ := tally_serve hissued hnodup hforge hclock
  have hmarks : marks.map Token.nonce ⊆ candidates issued cfg.serverIdentity.publicKey := by
    intro nonce hmem
    obtain ⟨t, ht, rfl⟩ := mem_map.mp hmem
    exact (h.passes t ht).mem_candidates hissued hkey
  have hle := (subperm_of_subset h.nodup hmarks).length_le
  rw [length_map, candidates_length] at hle
  have hhanded := h.handed
  refine ⟨by omega, fun hplain => ?_⟩
  have hzero : issued.countP (fun i => i.serverFP ≠ []) = 0 := by
    rw [countP_eq_zero]
    intro i hi
    simp [hplain i hi]
  omega

end Runs

/-! ### Two runs -/

def tableCodec (table : List Token) : TokenCodec where
  encodeBase64 := id
  decodeBase64 := some
  marshal t := [UInt8.ofNat (table.idxOf t)]
  unmarshal
    | [k] => table[k.toNat]?
    | _ => none

def toyEnv (table : List Token) : JoinEnv where
  codec := tableCodec table
  hmac secret data := secret ++ data
  primitives := KeyExchange.toyPrimitives
  marshalBundle _ := some []

theorem unforged_table {table issued : List Token} {cfg : ServerConfig}
    (h : ∀ t ∈ table, ∃ i ∈ issued, signingMaterial i = signingMaterial t) :
    Unforged (toyEnv table) cfg issued calls := by
  rintro c - req t - ⟨hdecode, -⟩
  apply h
  change (some req.token).bind (tableCodec table).unmarshal = some t at hdecode
  rw [Option.bind_some] at hdecode
  unfold tableCodec at hdecode
  dsimp only at hdecode
  split at hdecode
  · exact mem_of_getElem? hdecode
  · cases hdecode

def toyConfig : ServerConfig := { secret := [1, 2, 3], serverIdentity := (KeyExchange.toySigner 1).identity }

variable (serverFP : GoString)

def toyToken : Token :=
  newToken (([1, 2, 3] : Bytes) ++ ·) (List.replicate nonceLen 5) serverFP tokenLifetime 0

def toyReadings : Readings := ⟨Proxy.second, 1, 1000000000, Proxy.second, Proxy.second, 1⟩

def askCall (k n : UInt8) : JoinCall where
  isPost := true
  clientIP := []
  body := .ok { token := [k], joinerPublicKey := (KeyExchange.toySigner 2).identity.publicKey }
  clock := toyReadings
  random := some (List.replicate 32 n)
  knownPeers := []

def answerCall (k n : UInt8) : JoinCall where
  isPost := true
  clientIP := []
  body := .ok {
    token := [k]
    joinerPublicKey := (KeyExchange.toySigner 2).identity.publicKey
    challenge := KeyExchange.hexEncode (List.replicate 32 n)
    challengeResponse := KeyExchange.hexEncode
      (KeyExchange.toySignature (KeyExchange.toySigner 2).pub (KeyExchange.hexEncode (List.replicate 32 n))) }
  clock := toyReadings
  random := none
  knownPeers := []

theorem toyToken_isIssued : IsIssued ((toyEnv table).hmac toyConfig.secret) (toyToken serverFP) :=
  ⟨_, serverFP, tokenLifetime, 0, length_replicate, rfl⟩

theorem clocked_toy (h : ∀ c ∈ calls, c.clock = toyReadings) : Clocked [toyToken serverFP] calls := by
  have hexp : (toyToken serverFP).expiresAt = 1800 := rfl
  constructor
  · simp only [mem_singleton, forall_eq, hexp]
    decide
  · refine pairwise_of_forall_mem_list fun c hc d hd => ?_
    rw [h c hc, h d hd]
    exact Int64.le_refl _
  · intro c hc
    rw [h c hc]
    simp only [mem_singleton, forall_eq, hexp]
    decide

set_option maxRecDepth 4000

/-- A joiner with two requests gets its bundle. -/
theorem bundles_le_issued_plain :
    (serve (toyEnv [toyToken []]) toyConfig [askCall 0 7, answerCall 0 7]).bundles = 1 ∧
      (serve (toyEnv [toyToken []]) toyConfig [askCall 0 7, answerCall 0 7]).bundles ≤ [toyToken []].length := by
  refine ⟨by decide, ?_⟩
  have hissued : ∀ i ∈ [toyToken []], IsIssued ((toyEnv [toyToken []]).hmac toyConfig.secret) i := by
    simp only [mem_singleton, forall_eq]
    exact toyToken_isIssued []
  have hforge : Unforged (toyEnv [toyToken []]) toyConfig [toyToken []] [askCall 0 7, answerCall 0 7] :=
    unforged_table fun t ht => ⟨t, ht, rfl⟩
  have hclock : Clocked [toyToken []] [askCall 0 7, answerCall 0 7] :=
    clocked_toy [] (forall_mem_cons.mpr ⟨rfl, forall_mem_cons.mpr ⟨rfl, by simp⟩⟩)
  exact (bundles_le_issued hissued (nodup_singleton _) (by decide) hforge hclock).2 (by simp; rfl)

/-- The issued token names this server; the second one moves the name to the end of the nonce and keeps the tag. -/
def shiftedToken : Token :=
  let t := toyToken toyConfig.serverIdentity.publicKey
  { t with nonce := t.nonce ++ t.serverFP, serverFP := [] }

def shiftedCalls : List JoinCall := [askCall 0 7, askCall 1 8, answerCall 0 7, answerCall 0 8]

/-- Two bundles for one token. -/
theorem token_spent_twice :
    let t := toyToken toyConfig.serverIdentity.publicKey
    let E := toyEnv [t, shiftedToken]
    IsIssued (E.hmac toyConfig.secret) t ∧ Unforged E toyConfig [t] shiftedCalls ∧ Clocked [t] shiftedCalls ∧
      (serve E toyConfig shiftedCalls).bundles = 2 := by
  refine ⟨toyToken_isIssued _, unforged_table ?_, clocked_toy _ ?_, by decide⟩
  · have hsame : signingMaterial (toyToken toyConfig.serverIdentity.publicKey) = signingMaterial shiftedToken := by
      decide
    intro t ht
    rw [mem_pair] at ht
    refine ⟨_, mem_singleton_self _, ?_⟩
    rcases ht with rfl | rfl
    · rfl
    · exact hsame
  · simp [shiftedCalls, askCall, answerCall]

end MeshDesk.Join
