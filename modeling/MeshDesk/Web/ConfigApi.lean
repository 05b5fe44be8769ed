import MeshDesk.Web.ConfigTiers

/-! The configuration API: reading the running configuration, replacing and patching it, and its difference from the
saved one. Objects list their fields in one fixed order, where the source leaves the order to its maps. -/
namespace MeshDesk.Web
open Lib
open Proxy (GoString Time)

/-! ### JSON values -/

/-- A number is the text it is printed as. -/
inductive Scalar
  | null
  | bool (b : Bool)
  | num (text : GoString)
  | str (s : GoString)
  deriving DecidableEq

abbrev Json := Doc GoString Scalar

abbrev JsonFields := Fields GoString Scalar

/-- A decoded object has each key once, at every depth. -/
abbrev JsonObject := {fs : JsonFields // (Doc.obj fs).keyed = true}

def Scalar.isNull : Scalar → Bool
  | null => true
  | _ => false

def text (s : GoString) : Json := .leaf (.str s)

def texts (ss : List GoString) : Json := .arr (ss.map text)

def flag (b : Bool) : Json := .leaf (.bool b)

def record (fields : List (String × Json)) : Json := .obj (fields.map (fun f => (utf8 f.1, f.2)))

def Scalar.sprint : Scalar → GoString
  | null => utf8 "<nil>"
  | bool b => utf8 (if b then "true" else "false")
  | num s => s
  | str s => s

mutual

def sprint : Json → GoString
  | .leaf s => s.sprint
  | .arr items => leftBracket :: (sprintItems items ++ [rightBracket])
  | .obj fields => utf8 "map[" ++ (sprintFields fields ++ [rightBracket])

def sprintItems : List Json → GoString
  | [] => []
  | [d] => sprint d
  | d :: items => sprint d ++ 0x20 :: sprintItems items

def sprintFields : JsonFields → GoString
  | [] => []
  | [(k, d)] => k ++ 0x3a :: sprint d
  | (k, d) :: fields => k ++ 0x3a :: (sprint d ++ 0x20 :: sprintFields fields)

end

/-- Merge by RFC 7396: null removes a key, objects are merged, anything else replaces. -/
def mergeMap (dst src : JsonFields) : JsonFields := Doc.merge fieldPath Scalar.isNull (fun _ _ => false) [] dst src

/-- As `mergeMap`, but the sentinel at a masked field keeps the value there. -/
def mergePutWithMasking (dst src : JsonFields) (pre : GoString) : JsonFields :=
  Doc.merge fieldPath Scalar.isNull (fun path s => isMasked path && s == .str maskSentinel) pre dst src

def applyMasking (m : JsonFields) : JsonFields := Doc.maskFields fieldPath isMasked (.str maskSentinel) [] m

/-- The paths of the leaves; empty arrays and objects have none. A leaf under the empty key has no path either. -/
def collectFieldPaths (data : JsonFields) : List GoString := (Doc.fieldPaths fieldPath [] data).filter (· ≠ [])

def parseIndex (idxStr : GoString) : ℤ := idxStr.foldl (fun idx c => Int.bmod (idx * 10 + (c.toNat - 48)) (2 ^ 64)) 0

def getPathPart (current : Json) (part : GoString) : Option Json :=
  match current with
  | .obj m =>
    match indexOf part [leftBracket] with
    | none => Doc.find part m
    | some bracketIdx =>
      let idx := parseIndex (part.drop (bracketIdx + 1)).dropLast
      match Doc.find (part.take bracketIdx) m with
      | some (.arr items) => if 0 ≤ idx then items[idx.toNat]? else none
      | _ => none
  | _ => none

def getPathValue (data : JsonFields) (path : GoString) : Option Json := (splitPath path).foldlM getPathPart (.obj data)

/-! ### Step-up tokens -/

structure StepUpToken where
  expiresAt : Time
  operations : List GoString
  deriving DecidableEq

structure StepUpStore where
  tokens : Map GoString StepUpToken

def opSettings : GoString := utf8 "settings"

namespace StepUpStore

variable (store : StepUpStore) (session operation : GoString) (now : Time)

/-- Whether the session has a token for the operation. A token that has expired is removed. -/
def validate : Bool × StepUpStore :=
  match store.tokens.lookup session with
  | none => (false, store)
  | some tok =>
    if tok.expiresAt < now then (false, ⟨store.tokens.erase session⟩)
    else (tok.operations.any (· == operation), store)

def Holds : Prop :=
  ∃ tok, store.tokens.lookup session = some tok ∧ now ≤ tok.expiresAt ∧ operation ∈ tok.operations

theorem validate_fst_iff : (store.validate session operation now).1 = true ↔ store.Holds session operation now := by
  unfold validate Holds
  cases store.tokens.lookup session with
  | none => simp
  | some tok =>
    by_cases h : tok.expiresAt < now
    · simp [h, not_le.mpr h]
    · simp [h, not_lt.mp h]

end StepUpStore

/-! ### The server -/

/-- Configurations and their YAML form: `toMap` is what a configuration marshals to, `ofMap` unmarshals a map onto the
defaults, and `reload` is what loading makes of a saved configuration. A field is unmarshalled from its own place. -/
structure ConfigCodec (Config : Type) where
  toMap : Config → JsonFields
  ofMap : JsonFields → Option Config
  reload : Config → Config
  toMap_keyed (c : Config) : (Doc.obj (toMap c)).keyed = true
  toMap_full (c : Config) : (Doc.obj (toMap c)).every (fun s => !s.isNull) (fun _ => true) = true
  value_ofMap {m : JsonFields} {c c' : Config} {steps : List (Doc.Step GoString)} (h : ofMap m = some c')
    (hv : (Doc.obj m).value steps = (Doc.obj (toMap c)).value steps) :
    (Doc.obj (toMap c')).value steps = (Doc.obj (toMap c)).value steps

def needsRestart (path : GoString) : Bool := (tierOf path).any (·.reload = .restart)

structure ReloaderRegistry where
  dirtyHotReload : List GoString
  dirtyRestart : List GoString
  deriving DecidableEq

namespace ReloaderRegistry

def markDirty (r : ReloaderRegistry) (path : GoString) : ReloaderRegistry :=
  if needsRestart path then { r with dirtyRestart := r.dirtyRestart.insert path }
  else { r with dirtyHotReload := r.dirtyHotReload.insert path }

def hasPendingRestart (r : ReloaderRegistry) : Bool := r.dirtyRestart ≠ []

end ReloaderRegistry

structure ConfigAPIManager where
  configPath : GoString
  reloaderRegistry : ReloaderRegistry
  deriving DecidableEq

/-- `saved` is what loading the configuration file gives. -/
structure Server (Config : Type) where
  cfg : Config
  saved : Except GoString Config
  configAPI : Option ConfigAPIManager
  stepUpStore : StepUpStore

inductive Method
  | get
  | put
  | patch
  | other
  deriving DecidableEq

/-- A request with the moment it comes, and why saving fails if it does. The body is the decoded object or the error of
the decoder. -/
structure Request where
  method : Method
  query : GoString := []
  session : GoString := []
  body : Except GoString JsonObject
  now : Time := 0
  saveError : Option GoString := none

structure Response where
  status : ℕ
  stepUpRequired : Option GoString := none
  body : Json
  deriving DecidableEq

def writeJSONError (status : ℕ) (message : GoString) : Response := { status, body := record [("error", text message)] }

def methodNotAllowed : Response := writeJSONError 405 (utf8 "method not allowed")

structure ConfigPutResult where
  ok : Bool := true
  applied : List GoString := []
  requiresRestart : List GoString := []
  noOp : List GoString := []
  warnings : List GoString := []
  errors : List GoString := []
  pendingRestart : Bool := false
  deriving DecidableEq

def omitEmpty (name : String) (ss : List GoString) : List (String × Json) := if ss = [] then [] else [(name, texts ss)]

def ConfigPutResult.toJson (r : ConfigPutResult) : Json :=
  record ([("ok", flag r.ok), ("applied", if r.applied = [] then .leaf .null else texts r.applied)] ++
    omitEmpty "requires_restart" r.requiresRestart ++ omitEmpty "noop" r.noOp ++ omitEmpty "warnings" r.warnings ++
    omitEmpty "errors" r.errors ++ [("pending_restart", flag r.pendingRestart)])

def unchangedMasked (body : JsonFields) (paths : List GoString) : List GoString :=
  paths.filter (fun p => isMasked p && getPathValue body p == some (text maskSentinel))

variable {Config : Type}

/-- The map merged into that of the configuration, or the configuration itself when the result does not unmarshal. -/
def mergeConfigMaps (C : ConfigCodec Config) (current : Config) (body : JsonFields) : Config :=
  (C.ofMap (mergePutWithMasking (C.toMap current) body [])).getD current

namespace Server

variable (C : ConfigCodec Config) (s : Server Config) (r : Request)

def hasPath : Bool := s.configAPI.any (·.configPath ≠ [])

/-- The configuration that changes start from: the saved one, or the running one when that cannot be loaded. -/
def currentCfg : Config :=
  if s.hasPath then
    match s.saved with
    | .ok c => c
    | .error _ => s.cfg
  else s.cfg

def markDirty (s : Server Config) (paths : List GoString) : Server Config :=
  { s with configAPI := s.configAPI.map (fun api =>
      { api with reloaderRegistry := paths.foldl ReloaderRegistry.markDirty api.reloaderRegistry }) }

def hasPendingRestart (s : Server Config) : Bool := s.configAPI.any (·.reloaderRegistry.hasPendingRestart)

def applyConfigChanges (saveError : Option GoString) (body : JsonFields) (paths : List GoString) :
    ConfigPutResult × Server Config :=
  let merged := mergeConfigMaps C s.currentCfg body
  let noOp := unchangedMasked body paths
  match if s.hasPath then saveError else none with
  | some e => ({ ok := false, noOp, errors := [utf8 "save config: " ++ e] }, s)
  | none =>
    let written := if s.hasPath then { s with saved := .ok (C.reload merged) } else s
    let s' := { written with cfg := merged }.markDirty (paths.filter (· ∉ noOp))
    ({ applied := paths.filter (fun p => !needsRestart p), requiresRestart := paths.filter needsRestart, noOp,
       warnings := noOp, pendingRestart := s'.hasPendingRestart }, s')

def mergePatchConfig (patch : JsonFields) : JsonFields :=
  mergeMap (C.toMap s.cfg) patch

/-- The refusal of a body with these paths, if it is refused: for a read-only field, for an unknown one, or for want of
a step-up token. -/
def checkPaths (paths : List GoString) : Option Response × Server Config :=
  let readonlyViolations := paths.filter isReadOnly
  let unknownFields := paths.filter (fun p => !isKnownField p)
  let stepUpNeeded := paths.filter isStepUp
  if readonlyViolations ≠ [] then
    (some { status := 400, body := record [("error", text (utf8 "readonly_fields")), ("fields", texts readonlyViolations),
      ("message", text (utf8 "These fields cannot be modified via the API"))] }, s)
  else if unknownFields ≠ [] then
    (some { status := 400, body := record [("error", text (utf8 "unknown_fields")), ("fields", texts unknownFields),
      ("message", text (utf8 "Unknown field paths are rejected to prevent typos"))] }, s)
  else if stepUpNeeded ≠ [] then
    let (granted, store) := s.stepUpStore.validate r.session opSettings r.now
    if granted then (none, { s with stepUpStore := store })
    else
      (some { status := 403, stepUpRequired := some opSettings, body := record [("error", text (utf8 "step_up_required")),
        ("step_up_scopes", texts [opSettings]), ("fields_requiring_step_up", texts stepUpNeeded)] },
        { s with stepUpStore := store })
  else (none, s)

def handleConfigWrite (prepare : Server Config → JsonFields → JsonFields) (s : Server Config) (r : Request) :
    Response × Server Config :=
  match r.body with
  | .error e => (writeJSONError 400 (utf8 "invalid JSON: " ++ e), s)
  | .ok body =>
    let fields := Doc.del (utf8 "_meta") body.1
    let paths := collectFieldPaths fields
    match s.checkPaths r paths with
    | (some refusal, s) => (refusal, s)
    | (none, s) =>
      let (result, s) := s.applyConfigChanges C r.saveError (prepare s fields) paths
      ({ status := 200, body := result.toJson }, s)

def handleConfigPut : Response × Server Config :=
  s.handleConfigWrite C (fun _ body => body) r

def handleConfigPatch : Response × Server Config :=
  s.handleConfigWrite C (fun s patch => s.mergePatchConfig C patch) r

end Server

/-! ### Reading -/

def buildConfigMeta : Json :=
  record [
    ("tier_map", .obj (tierMap.map (fun (path, info) =>
      (path, text (if path = utf8 "node.identity" then utf8 "read-only+masked" else info.tier.text))))),
    ("masked_fields", texts maskedFields),
    ("readonly_fields", texts readOnlyFields),
    ("pending_restart", flag false),
    ("dirty_since_reload", texts [])]

def buildSectionMeta (sec : GoString) : Json :=
  record [
    ("tier_map", .obj ((tierMap.filter (fun (path, _) => (sec ++ [dot]).isPrefixOf path)).map
      (fun (path, info) => (path, text info.tier.text)))),
    ("pending_restart", flag false)]

/-- The answer for the running configuration in its map form, all of it or one section. -/
def configReply (m : JsonFields) (sec : GoString) : Response :=
  let cfgMap := applyMasking m
  if sec ≠ [] then
    if sec ∉ validSections then writeJSONError 400 (utf8 "unknown section: " ++ sec)
    else
      match Doc.find sec cfgMap with
      | none => writeJSONError 404 (utf8 "section not found: " ++ sec)
      | some data =>
        { status := 200, body := record [("section", text sec), ("data", data), ("_meta", buildSectionMeta sec)] }
  else { status := 200, body := .obj (Doc.put (utf8 "_meta") buildConfigMeta cfgMap) }

def oneSided (running saved : Json) : Json := record [("running", running), ("saved", saved)]

/-- The entry of a path with two values, when they print differently. -/
def compareLeaves (path : GoString) (running saved : Json) : List (GoString × Json) :=
  if sprint running ≠ sprint saved then
    let info := tierOf path
    [(path, record [("running", running), ("saved", saved),
      ("tier", text ((info.map (·.tier.text)).getD (utf8 "unknown"))),
      ("reload", text ((info.map (·.reload.text)).getD (utf8 "unknown")))])]
  else []

def savedOnly (pre : GoString) (running saved : JsonFields) : List (GoString × Json) :=
  (saved.filter (fun f => (Doc.find f.1 running).isNone)).map (fun f => (keyPath pre f.1, oneSided (.leaf .null) f.2))

mutual

def diffFields (pre : GoString) (saved : JsonFields) : JsonFields → List (GoString × Json)
  | [] => []
  | (k, x) :: running => diffValue (keyPath pre k) (Doc.find k saved) x ++ diffFields pre saved running

def diffValue (path : GoString) (saved : Option Json) : Json → List (GoString × Json)
  | .leaf s => match saved with
    | none => [(path, oneSided (.leaf s) (.leaf .null))]
    | some y => compareLeaves path (.leaf s) y
  | .arr items => match saved with
    | none => [(path, oneSided (.arr items) (.leaf .null))]
    | some y => compareLeaves path (.arr items) y
  | .obj running => match saved with
    | none => [(path, oneSided (.obj running) (.leaf .null))]
    | some (.obj fields) => diffFields path fields running ++ savedOnly path running fields
    | some y => compareLeaves path (.obj running) y

end

def computeDiffRecursive (running saved : JsonFields) (pre : GoString) : List (GoString × Json) :=
  diffFields pre saved running ++ savedOnly pre running saved

def computeConfigDiff (running saved : JsonFields) : JsonFields :=
  (computeDiffRecursive running saved []).foldl (fun diff e => Doc.put e.1 e.2 diff) []

namespace Server

variable (C : ConfigCodec Config) (s : Server Config) (r : Request)

def handleConfigGet : Response :=
  configReply (C.toMap s.cfg) r.query

def handleConfigDiff : Response :=
  if r.method ≠ .get then methodNotAllowed
  else if !s.hasPath then writeJSONError 503 (utf8 "config file path not configured")
  else
    match s.saved with
    | .error e => writeJSONError 500 (utf8 "diff: load saved config: " ++ e)
    | .ok savedCfg =>
      { status := 200, body := record [("running_vs_saved", .obj (computeConfigDiff (C.toMap s.cfg) (C.toMap savedCfg))),
        ("pending_restart", flag s.hasPendingRestart)] }

def handleConfigAPI : Response × Server Config :=
  match r.method with
  | .get => (s.handleConfigGet C r, s)
  | .put => s.handleConfigPut C r
  | .patch => s.handleConfigPatch C r
  | .other => (methodNotAllowed, s)

end Server

/-! ### Configurations that are their own maps -/

abbrev PlainConfig := {fs : JsonFields //
  (Doc.obj fs).keyed = true ∧ (Doc.obj fs).every (fun s => !s.isNull) (fun _ => true) = true}

def plainCodec : ConfigCodec PlainConfig where
  toMap := Subtype.val
  ofMap m := if h : _ then some ⟨m, h⟩ else none
  reload := id
  toMap_keyed c := c.2.1
  toMap_full c := c.2.2
  value_ofMap h hv := by
    split_ifs at h
    cases h
    exact hv

def entry (name : String) (fields : List (String × Json)) : GoString × Json := (utf8 name, record fields)

end MeshDesk.Web
