import MeshDesk.Join.Token

/-! The join endpoint: a token buys a challenge, a signed challenge buys the config bundle. Every critical section
takes its own reading of the clock. -/
namespace MeshDesk.Join
open Lib
open Proxy (Bytes GoString Time Duration second)
open KeyExchange (hexEncode Primitives Identity verifyHex)

structure PeerInfo where
  publicKey : GoString
  hostname : GoString
  role : GoString
  endpoint : GoString
  deriving DecidableEq

structure ConfigBundle where
  bootstrapPublicKey : GoString
  bootstrapEndpoint : GoString
  meshPort : ℤ
  realityPublicKey : GoString
  realityShortID : GoString
  realityServerName : GoString
  collectors : List GoString
  knownPeers : List PeerInfo
  issuedAt : Int64
  signature : GoString
  deriving DecidableEq

structure JoinRequest where
  token : GoString
  joinerPublicKey : GoString
  challenge : GoString := []
  challengeResponse : GoString := []
  deriving DecidableEq

inductive JoinError
  | methodNotAllowed
  | rateLimited
  | readBody (err : String)
  | parseRequest (err : String)
  | invalidToken
  | wrongServer
  | alreadyUsed
  | internal
  | challengeNotFound
  | challengeExpired
  | publicKeyMismatch
  | badSignature
  deriving DecidableEq

namespace JoinError

def status : JoinError → ℕ
  | methodNotAllowed => 405
  | rateLimited => 429
  | readBody _ | parseRequest _ => 400
  | internal => 500
  | invalidToken | wrongServer | alreadyUsed | challengeNotFound | challengeExpired | publicKeyMismatch
  | badSignature => 401

def text : JoinError → String
  | methodNotAllowed => "method not allowed"
  | rateLimited => "rate limit exceeded"
  | readBody err => "read body: " ++ err
  | parseRequest err => "parse request: " ++ err
  | invalidToken => "invalid token"
  | wrongServer => "token not issued for this server"
  | alreadyUsed => "token already used"
  | internal => "internal error"
  | challengeNotFound => "challenge not found or expired"
  | challengeExpired => "challenge expired"
  | publicKeyMismatch => "public key mismatch"
  | badSignature => "challenge signature verification failed"

end JoinError

/-- `JoinResponse` with its HTTP status: an error, or a success with a challenge or a bundle. -/
inductive JoinResponse
  | refused (err : JoinError)
  | challenge (hex : GoString)
  | bundle (b : ConfigBundle)
  deriving DecidableEq

def JoinResponse.isBundle : JoinResponse → Bool
  | bundle _ => true
  | _ => false

structure ServerConfig where
  secret : Bytes
  serverIdentity : Identity
  bootstrapEndpoint : GoString := []
  meshPort : ℤ := 0
  realityPublicKey : GoString := []
  realityShortID : GoString := []
  realityServerName : GoString := []
  collectors : List GoString := []
  maxJoinRequests : ℤ := 0
  tokenLifetime : Duration := 0

structure ChallengeEntry where
  joinerPubKey : GoString
  expiresAt : Time

def challengeTTL : Duration := 60 * second

def minute : Duration := 60 * second

structure RateBucket where
  count : ℤ
  windowStart : Time

structure JoinServer where
  cfg : ServerConfig
  replay : ReplayCache
  rateLimit : Map GoString RateBucket
  challengeCache : Map GoString ChallengeEntry

def newJoinServer (cfg : ServerConfig) : JoinServer :=
  let cfg := { cfg with
    tokenLifetime := if cfg.tokenLifetime = 0 then tokenLifetime else cfg.tokenLifetime
    maxJoinRequests := if cfg.maxJoinRequests = 0 then 10 else cfg.maxJoinRequests }
  ⟨cfg, newReplayCache (cfg.tokenLifetime * 2), ∅, ∅⟩

/-- What the server computes with: token texts, HMAC-SHA256, Ed25519 and the JSON of a bundle. -/
structure JoinEnv where
  codec : TokenCodec
  hmac : (secret data : Bytes) → Bytes
  primitives : Primitives
  marshalBundle : ConfigBundle → Option Bytes

structure Readings where
  limited : Time
  /-- Unix seconds, in `ParseToken`. -/
  parsed : Int64
  /-- Unix nanoseconds, in `CheckAndMark`. -/
  marked : Int64
  issued : Time
  redeemed : Time
  /-- Unix seconds. -/
  bundled : Int64

/-- A request and what the server meets while it serves it: the clock, the random challenge (`none` if the source
fails) and the peers it knows. -/
structure JoinCall where
  isPost : Bool
  clientIP : GoString
  body : Except JoinError JoinRequest
  clock : Readings
  random : Option Bytes
  knownPeers : List PeerInfo

namespace JoinServer

variable (E : JoinEnv) (s : JoinServer) (req : JoinRequest) (c : JoinCall)

def allowRequest (now : Time) (ip : GoString) : Bool × JoinServer :=
  let rateLimit :=
    if 1000 < s.rateLimit.size then
      s.rateLimit.filterMapVals (fun b => if b.windowStart < now - 5 * minute then none else some b)
    else s.rateLimit
  let put (b : RateBucket) : JoinServer := { s with rateLimit := rateLimit.insert ip b }
  match rateLimit.lookup ip with
  | none => (true, put ⟨1, now⟩)
  | some bucket =>
    if minute < Time.sub now bucket.windowStart then (true, put ⟨1, now⟩)
    else (decide (bucket.count + 1 ≤ s.cfg.maxJoinRequests), put { bucket with count := bucket.count + 1 })

def handleChallengeStep (now : Time) (random : Option Bytes) : JoinResponse × JoinServer :=
  match random with
  | none => (.refused .internal, s)
  | some challenge =>
    let hex := hexEncode challenge
    let cache : Map GoString ChallengeEntry := s.challengeCache.insert hex ⟨req.joinerPublicKey, now + challengeTTL⟩
    (.challenge hex,
      { s with challengeCache := cache.filterMapVals (fun v => if v.expiresAt < now then none else some v) })

def buildBundle (knownPeers : List PeerInfo) (now : Int64) : ConfigBundle :=
  let bundle : ConfigBundle := {
    bootstrapPublicKey := s.cfg.serverIdentity.publicKey
    bootstrapEndpoint := s.cfg.bootstrapEndpoint
    meshPort := s.cfg.meshPort
    realityPublicKey := s.cfg.realityPublicKey
    realityShortID := s.cfg.realityShortID
    realityServerName := s.cfg.realityServerName
    collectors := s.cfg.collectors
    knownPeers := knownPeers
    issuedAt := now
    signature := [] }
  match (E.marshalBundle bundle).bind (s.cfg.serverIdentity.sign E.primitives) with
  | some sig => { bundle with signature := sig }
  | none => bundle

/-- The challenge is gone whatever comes of it. -/
def handleChallengeResponseStep : JoinResponse × JoinServer :=
  match s.challengeCache.lookup req.challenge with
  | none => (.refused .challengeNotFound, s)
  | some entry =>
    let s := { s with challengeCache := s.challengeCache.erase req.challenge }
    if entry.expiresAt < c.clock.redeemed then (.refused .challengeExpired, s)
    else if req.joinerPublicKey ≠ entry.joinerPubKey then (.refused .publicKeyMismatch, s)
    else if !verifyHex E.primitives req.joinerPublicKey req.challenge req.challengeResponse then
      (.refused .badSignature, s)
    else (.bundle (s.buildBundle E c.knownPeers c.clock.bundled), s)

/-- From the parsed request on. The nonce is marked in the first step only; the token of the second step is valid,
but need not be the one that bought the challenge. -/
def handleRequest : JoinResponse × JoinServer :=
  match parseToken E.codec (E.hmac s.cfg.secret) c.clock.parsed req.token with
  | .error _ => (.refused .invalidToken, s)
  | .ok token =>
    if token.serverFP ≠ [] ∧ token.serverFP ≠ s.cfg.serverIdentity.publicKey then (.refused .wrongServer, s)
    else if req.challengeResponse = [] then
      match s.replay.checkAndMark c.clock.marked token.nonce token.expiresAt with
      | (false, replay) => (.refused .alreadyUsed, { s with replay := replay })
      | (true, replay) => { s with replay := replay }.handleChallengeStep req c.clock.issued c.random
    else s.handleChallengeResponseStep E req c

def handleJoin : JoinResponse × JoinServer :=
  if !c.isPost then (.refused .methodNotAllowed, s)
  else
    match s.allowRequest c.clock.limited c.clientIP with
    | (false, s) => (.refused .rateLimited, s)
    | (true, s) =>
      match c.body with
      | .error err => (.refused err, s)
      | .ok req => s.handleRequest E req c

end JoinServer

structure JoinRun where
  server : JoinServer
  responses : List JoinResponse := []

def JoinRun.step (E : JoinEnv) (r : JoinRun) (c : JoinCall) : JoinRun :=
  let (response, server) := r.server.handleJoin E c
  ⟨server, r.responses ++ [response]⟩

def serve (E : JoinEnv) (cfg : ServerConfig) (calls : List JoinCall) : JoinRun :=
  calls.foldl (JoinRun.step E) ⟨newJoinServer cfg, []⟩

def JoinRun.bundles (r : JoinRun) : ℕ := r.responses.countP JoinResponse.isBundle

end MeshDesk.Join
