import MeshDesk.Lib.Documents
import MeshDesk.Proxy.Chunk

/-! The access tiers of configuration fields. A field has a path such as `peers[0].public_key`; the tables hold
templates, in which `[N]` stands for any index. -/
namespace MeshDesk.Web
open Lib
open Proxy (GoString)

def utf8 (s : String) : GoString := s.toByteArray.data.toList

inductive FieldTier
  | readOnly
  | masked
  | stepUp
  | normal
  deriving DecidableEq

def FieldTier.text : FieldTier → GoString
  | readOnly => utf8 "read-only"
  | masked => utf8 "masked"
  | stepUp => utf8 "step-up"
  | normal => utf8 "normal"

inductive ReloadClass
  | hot
  | restart
  deriving DecidableEq

def ReloadClass.text : ReloadClass → GoString
  | hot => utf8 "hot-reload"
  | restart => utf8 "restart"

structure FieldMeta where
  tier : FieldTier
  reload : ReloadClass
  deriving DecidableEq

def tierMap : List (GoString × FieldMeta) := [
  (utf8 "node.identity", ⟨.masked, .restart⟩),
  (utf8 "node.identity_file", ⟨.readOnly, .restart⟩),
  (utf8 "node.fingerprint", ⟨.readOnly, .restart⟩),
  (utf8 "node.hostname", ⟨.readOnly, .restart⟩),
  (utf8 "node.web", ⟨.normal, .restart⟩),
  (utf8 "node.position.x", ⟨.normal, .hot⟩),
  (utf8 "node.position.y", ⟨.normal, .hot⟩),
  (utf8 "node.position.z", ⟨.normal, .hot⟩),
  (utf8 "mesh.port", ⟨.normal, .restart⟩),
  (utf8 "peers[N].public_key", ⟨.readOnly, .hot⟩),
  (utf8 "peers[N].endpoint", ⟨.normal, .hot⟩),
  (utf8 "peers[N].allowed_ips", ⟨.normal, .hot⟩),
  (utf8 "peers[N].capabilities", ⟨.stepUp, .hot⟩),
  (utf8 "peers[N].reality.server_name", ⟨.normal, .hot⟩),
  (utf8 "peers[N].reality.public_key", ⟨.masked, .hot⟩),
  (utf8 "peers[N].reality.short_id", ⟨.masked, .hot⟩),
  (utf8 "peers[N].reality.tls_fingerprint", ⟨.normal, .hot⟩),
  (utf8 "peers[N].service_manage", ⟨.stepUp, .hot⟩),
  (utf8 "peers[N].file_transfer_paths", ⟨.stepUp, .hot⟩),
  (utf8 "peers[N].monitor_scopes", ⟨.normal, .hot⟩),
  (utf8 "p2p.enabled", ⟨.normal, .restart⟩),
  (utf8 "p2p.seeds", ⟨.normal, .restart⟩),
  (utf8 "p2p.relay_mode", ⟨.normal, .hot⟩),
  (utf8 "p2p.max_relay_hops", ⟨.normal, .hot⟩),
  (utf8 "p2p.advertise_endpoints", ⟨.normal, .restart⟩),
  (utf8 "monitoring.collectors", ⟨.normal, .hot⟩),
  (utf8 "monitoring.interval", ⟨.normal, .hot⟩),
  (utf8 "monitoring.port", ⟨.normal, .hot⟩),
  (utf8 "webssh.port", ⟨.normal, .hot⟩),
  (utf8 "webssh.host_key", ⟨.masked, .hot⟩),
  (utf8 "webssh.shell", ⟨.normal, .hot⟩),
  (utf8 "webssh.dial_timeout", ⟨.normal, .hot⟩),
  (utf8 "webssh.read_deadline", ⟨.normal, .hot⟩),
  (utf8 "webssh.write_deadline", ⟨.normal, .hot⟩),
  (utf8 "webssh.max_sessions", ⟨.normal, .hot⟩),
  (utf8 "auth.web_users", ⟨.stepUp, .hot⟩),
  (utf8 "auth.web_users[N].username", ⟨.normal, .hot⟩),
  (utf8 "auth.web_users[N].password_hash", ⟨.masked, .hot⟩),
  (utf8 "auth.totp_issuer", ⟨.normal, .hot⟩),
  (utf8 "auth.require_2fa", ⟨.stepUp, .hot⟩),
  (utf8 "auth.totp_window", ⟨.normal, .hot⟩),
  (utf8 "auth.totp_store_dir", ⟨.readOnly, .restart⟩),
  (utf8 "auth.step_up_timeout", ⟨.stepUp, .hot⟩),
  (utf8 "auth.alert_webhook_url", ⟨.stepUp, .hot⟩),
  (utf8 "transfer.max_file_size", ⟨.normal, .hot⟩),
  (utf8 "transfer.upload_dir", ⟨.normal, .hot⟩),
  (utf8 "proxy.circuit.idle_timeout", ⟨.normal, .hot⟩),
  (utf8 "proxy.circuit.keepalive_interval", ⟨.normal, .hot⟩),
  (utf8 "proxy.circuit.nack_timeout", ⟨.normal, .hot⟩),
  (utf8 "proxy.circuit.orphan_timeout", ⟨.normal, .hot⟩),
  (utf8 "proxy.circuit.max_reassembly_window", ⟨.normal, .hot⟩),
  (utf8 "proxy.chunker_strategy", ⟨.normal, .hot⟩),
  (utf8 "proxy.debug_fixed_chunks", ⟨.normal, .hot⟩),
  (utf8 "proxy.paths", ⟨.stepUp, .hot⟩),
  (utf8 "proxy.exit_addr", ⟨.stepUp, .hot⟩),
  (utf8 "proxy.path_selection.mode", ⟨.normal, .hot⟩),
  (utf8 "proxy.path_selection.strategy", ⟨.normal, .hot⟩),
  (utf8 "proxy.path_selection.max_relays_per_path", ⟨.normal, .hot⟩),
  (utf8 "proxy.path_selection.probe_timeout_sec", ⟨.normal, .hot⟩),
  (utf8 "proxy.path_selection.probe_concurrency", ⟨.normal, .hot⟩),
  (utf8 "proxy.path_selection.max_candidates", ⟨.normal, .hot⟩),
  (utf8 "proxy.path_selection.probe_cache_ttl_sec", ⟨.normal, .hot⟩),
  (utf8 "proxy.path_selection.exit_latency_matrix", ⟨.readOnly, .restart⟩),
  (utf8 "proxy.relay.enabled", ⟨.normal, .restart⟩),
  (utf8 "proxy.relay.jitter_min_ms", ⟨.normal, .hot⟩),
  (utf8 "proxy.relay.jitter_max_ms", ⟨.normal, .hot⟩),
  (utf8 "proxy.relay.disable_jitter", ⟨.normal, .hot⟩),
  (utf8 "proxy.relay.max_circuits", ⟨.normal, .hot⟩),
  (utf8 "proxy.relay.max_queue_depth", ⟨.normal, .hot⟩),
  (utf8 "proxy.socks5.enabled", ⟨.normal, .restart⟩),
  (utf8 "proxy.socks5.allowed_ports", ⟨.stepUp, .hot⟩),
  (utf8 "proxy.socks5.allow_all_ports", ⟨.stepUp, .hot⟩),
  (utf8 "proxy.socks5.destination_filter", ⟨.stepUp, .hot⟩),
  (utf8 "proxy.socks5.dial_timeout_sec", ⟨.normal, .hot⟩),
  (utf8 "proxy.socks5.idle_timeout_sec", ⟨.normal, .hot⟩),
  (utf8 "proxy.socks5.max_connections", ⟨.normal, .hot⟩),
  (utf8 "proxy.exit.allowed_ports", ⟨.stepUp, .hot⟩),
  (utf8 "proxy.exit.allow_all_ports", ⟨.stepUp, .hot⟩),
  (utf8 "proxy.exit.destination_filter", ⟨.stepUp, .hot⟩),
  (utf8 "proxy.exit.audit_log_dir", ⟨.normal, .hot⟩),
  (utf8 "proxy.exit.audit_retention_days", ⟨.normal, .hot⟩),
  (utf8 "reality.enabled", ⟨.normal, .restart⟩),
  (utf8 "reality.listen_addr", ⟨.normal, .restart⟩),
  (utf8 "reality.listen_port", ⟨.normal, .restart⟩),
  (utf8 "reality.dest", ⟨.normal, .hot⟩),
  (utf8 "reality.server_names", ⟨.normal, .hot⟩),
  (utf8 "reality.private_key", ⟨.masked, .restart⟩),
  (utf8 "reality.short_ids", ⟨.normal, .hot⟩),
  (utf8 "join.enabled", ⟨.normal, .restart⟩),
  (utf8 "join.listen_addr", ⟨.normal, .restart⟩),
  (utf8 "join.secret", ⟨.masked, .restart⟩),
  (utf8 "join.tls_cert_file", ⟨.normal, .restart⟩),
  (utf8 "join.tls_key_file", ⟨.masked, .restart⟩),
  (utf8 "join.token_lifetime", ⟨.normal, .hot⟩),
  (utf8 "join.server_url", ⟨.normal, .hot⟩),
  (utf8 "join.token", ⟨.masked, .hot⟩),
  (utf8 "join.insecure_skip_tls_verify", ⟨.normal, .hot⟩),
  (utf8 "logging.log_file", ⟨.normal, .restart⟩),
  (utf8 "logging.log_max_size", ⟨.normal, .hot⟩),
  (utf8 "logging.log_max_backups", ⟨.normal, .hot⟩),
  (utf8 "logging.log_max_age", ⟨.normal, .hot⟩),
  (utf8 "logging.log_compress", ⟨.normal, .restart⟩),
  (utf8 "logging.log_level", ⟨.normal, .hot⟩),
  (utf8 "acl.enabled", ⟨.stepUp, .hot⟩),
  (utf8 "acl.default_policy", ⟨.stepUp, .hot⟩),
  (utf8 "acl.rules", ⟨.stepUp, .hot⟩),
  (utf8 "acl.rules[N].action", ⟨.stepUp, .hot⟩),
  (utf8 "acl.rules[N].src_cidr", ⟨.stepUp, .hot⟩),
  (utf8 "acl.rules[N].dst_cidr", ⟨.stepUp, .hot⟩),
  (utf8 "acl.rules[N].protocol", ⟨.stepUp, .hot⟩),
  (utf8 "acl.rules[N].src_port", ⟨.stepUp, .hot⟩),
  (utf8 "acl.rules[N].dst_port", ⟨.stepUp, .hot⟩),
  (utf8 "acl.rules[N].peer_id", ⟨.stepUp, .hot⟩),
  (utf8 "acl.rules[N].description", ⟨.stepUp, .hot⟩)]

def readOnlyFields : List GoString :=
  ["node.identity", "node.identity_file", "node.fingerprint", "node.hostname", "peers[N].public_key",
    "auth.totp_store_dir", "proxy.path_selection.exit_latency_matrix"].map utf8

def maskedFields : List GoString :=
  ["node.identity", "peers[N].reality.public_key", "peers[N].reality.short_id", "webssh.host_key",
    "auth.web_users[N].password_hash", "reality.private_key", "join.secret", "join.tls_key_file",
    "join.token"].map utf8

def stepUpFields : List GoString :=
  ["peers[N].capabilities", "peers[N].service_manage", "peers[N].file_transfer_paths", "auth.web_users",
    "auth.require_2fa", "auth.step_up_timeout", "auth.alert_webhook_url", "proxy.paths", "proxy.exit_addr",
    "proxy.exit.allowed_ports", "proxy.exit.allow_all_ports", "proxy.exit.destination_filter",
    "proxy.socks5.allowed_ports", "proxy.socks5.allow_all_ports", "proxy.socks5.destination_filter",
    "acl.enabled", "acl.default_policy", "acl.rules"].map utf8

def validSections : List GoString :=
  ["node", "mesh", "peers", "p2p", "monitoring", "webssh", "auth", "transfer", "proxy", "reality", "join", "logging"].map utf8

def maskSentinel : GoString := utf8 "***"

/-! ### Paths -/

def dot : UInt8 := 0x2e

def leftBracket : UInt8 := 0x5b

def rightBracket : UInt8 := 0x5d

def placeholder : GoString := utf8 "[N]"

def isDigit (c : UInt8) : Bool := 0x30 ≤ c ∧ c ≤ 0x39

def decimal (i : ℕ) : GoString := (Nat.toDigits 10 i).map (fun c => UInt8.ofNat c.toNat)

def keyPath (pre key : GoString) : GoString := if pre ≠ [] then pre ++ dot :: key else key

def itemPath (pre : GoString) (i : ℕ) : GoString := pre ++ leftBracket :: (decimal i ++ [rightBracket])

def fieldPath : Naming GoString GoString := ⟨keyPath, itemPath⟩

def indexOf : GoString → GoString → Option ℕ
  | [], substr => if substr = [] then some 0 else none
  | c :: s, substr => if substr.isPrefixOf (c :: s) then some 0 else (indexOf s substr).map (· + 1)

def containsSubstr (s substr : GoString) : Bool := substr = [] ∨ (indexOf s substr).isSome

/-- The parts of the rest, after the bytes of the current part. Delimiters inside brackets do not split. -/
def splitFrom (delim : UInt8) : ℤ → GoString → GoString → List GoString
  | _, part, [] => [part]
  | depth, part, c :: s =>
    if c = leftBracket then splitFrom delim (depth + 1) (part ++ [c]) s
    else if c = rightBracket then splitFrom delim (depth - 1) (part ++ [c]) s
    else if c = delim ∧ depth = 0 then part :: splitFrom delim depth [] s
    else splitFrom delim depth (part ++ [c]) s

def splitOn (s : GoString) (delim : UInt8) : List GoString := splitFrom delim 0 [] s

variable (path template actual : GoString)

def splitPath : List GoString := splitOn path dot

def joinPath (parts : List GoString) : GoString := [dot].intercalate parts

def matchSegmentWithN : Bool :=
  match indexOf template placeholder with
  | none => template == actual
  | some nIdx =>
    let pre := template.take nIdx
    let suf := template.drop (nIdx + 3)
    let mid := (actual.take (actual.length - suf.length)).drop pre.length
    if actual.length < pre.length + suf.length then false
    else if actual.take pre.length ≠ pre then false
    else if actual.drop (actual.length - suf.length) ≠ suf then false
    else if mid.length < 2 then false
    else if mid.head? ≠ some leftBracket ∨ mid.getLast? ≠ some rightBracket then false
    else mid.tail.dropLast.all isDigit

def matchWithNPlaceholders : Bool :=
  let tParts := splitPath template
  let aParts := splitPath actual
  tParts.length == aParts.length &&
    (tParts.zip aParts).all (fun (tp, ap) => tp == ap || (containsSubstr tp placeholder && matchSegmentWithN tp ap))

def matchFieldPath : Bool :=
  template == actual || (containsSubstr template placeholder && matchWithNPlaceholders template actual)

def parentPath : Option GoString := (indexOf path [leftBracket]).map path.take

def isReadOnly : Bool := readOnlyFields.any (matchFieldPath · path)

def isMasked : Bool := maskedFields.any (matchFieldPath · path)

/-- Elements of an array that needs a step-up need one too. -/
def isStepUp : Bool :=
  stepUpFields.any (matchFieldPath · path) || (parentPath path).any (fun parent => stepUpFields.any (· == parent))

def segmentToTemplate (seg : GoString) : GoString :=
  match indexOf seg [leftBracket] with
  | none => seg
  | some bracketStart =>
    match indexOf (seg.drop bracketStart) [rightBracket] with
    | none => seg
    | some bracketEnd =>
      let inner := (seg.take (bracketStart + bracketEnd)).drop (bracketStart + 1)
      if inner ≠ [] ∧ inner.all isDigit then seg.take (bracketStart + 1) ++ 0x4e :: seg.drop (bracketStart + bracketEnd)
      else seg

def fieldPathToTemplate : GoString := joinPath ((splitPath path).map segmentToTemplate)

def tierOf : Option FieldMeta := tierMap.lookup (fieldPathToTemplate path)

def isContainerField : Bool :=
  tierMap.any (fun (tmpl, _) => (path ++ [dot]).isPrefixOf tmpl || (path ++ [leftBracket]).isPrefixOf tmpl)

def isKnownField : Bool :=
  (tierOf path).isSome || isStepUp path || isMasked path || isReadOnly path || isContainerField path ||
    (parentPath path).any (fun parent => (tierMap.lookup parent).isSome || isContainerField parent)

/-! ### Elements of arrays -/

theorem indexOf_append {pre : GoString} {c : UInt8} (h : c ∉ pre) (rest : GoString) :
    indexOf (pre ++ c :: rest) [c] = some pre.length := by
  induction pre with
  | nil => simp [indexOf]
  | cons b pre ih =>
    rw [List.mem_cons, not_or] at h
    simp [indexOf, h.1, ih h.2]

theorem parentPath_append {pre : GoString} (h : leftBracket ∉ pre) (rest : GoString) :
    parentPath (pre ++ leftBracket :: rest) = some pre := by
  rw [parentPath, indexOf_append h, Option.map_some, List.take_left]

theorem bracket_of_mem_paths {σ : Type} {pre q : GoString} {items : List (Doc GoString σ)}
    (hq : q ∈ Doc.paths fieldPath pre (.arr items)) : ∃ rest, q = pre ++ leftBracket :: rest := by
  obtain ⟨d, -, j, hj⟩ := Doc.exists_of_mem_itemPaths fieldPath hq
  refine Doc.paths_inherit fieldPath (P := fun q => ∃ rest, q = pre ++ leftBracket :: rest) ?_ ?_ d ⟨_, rfl⟩ hj
  · rintro _ k ⟨rest, rfl⟩
    refine ⟨rest ++ dot :: k, ?_⟩
    simp [fieldPath, keyPath]
  · rintro _ i ⟨rest, rfl⟩
    refine ⟨rest ++ leftBracket :: (decimal i ++ [rightBracket]), ?_⟩
    simp [fieldPath, itemPath]

theorem isStepUp_of_mem_paths {σ : Type} {pre q : GoString} (hf : pre ∈ stepUpFields) (hb : leftBracket ∉ pre)
    {items : List (Doc GoString σ)} (hq : q ∈ Doc.paths fieldPath pre (.arr items)) : isStepUp q = true := by
  obtain ⟨rest, rfl⟩ := bracket_of_mem_paths hq
  have hparent : (parentPath (pre ++ leftBracket :: rest)).any (fun p => stepUpFields.any (· == p)) = true := by
    rw [parentPath_append hb, Option.any_some]
    exact List.any_eq_true.mpr ⟨pre, hf, BEq.rfl⟩
  rw [isStepUp, hparent, Bool.or_true]

end MeshDesk.Web
