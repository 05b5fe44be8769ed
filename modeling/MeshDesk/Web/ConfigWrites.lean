import MeshDesk.Web.ConfigApi

/-! Writes to the configuration API and the fields that are protected from them. The check looks at the leaves of the
request, the merge at its objects: a field is safe from a request that reaches it only with what has leaves at it. -/
namespace MeshDesk.Web
open Lib
open Proxy (GoString)
open Doc (Step Writes Makes)
open Lib.Doc

variable {Config : Type} {C : ConfigCodec Config} {s : Server Config} {r : Request} {dst src : JsonFields}
  {steps : List (Step GoString)}

def pathOf (steps : List (Step GoString)) : GoString := Doc.place fieldPath [] steps

def Protected (s : Server Config) (r : Request) (path : GoString) : Prop :=
  isReadOnly path = true ∨ isStepUp path = true ∧ ¬s.stepUpStore.Holds r.session opSettings r.now

/-- A value that the check sees when it is written at the path: a scalar, or an array with leaves at a step-up field. -/
inductive Seen (path : GoString) : Json → Prop
  | scalar (v : Scalar) : Seen path (.leaf v)
  | array {items : List Json} (hf : path ∈ stepUpFields) (hb : leftBracket ∉ path)
      (hne : Doc.paths fieldPath path (.arr items) ≠ []) : Seen path (.arr items)

/-- Merging `src` into `dst` writes nothing above or below the field, and at it only what the check sees. -/
structure Direct (dst src : JsonFields) (steps : List (Step GoString)) : Prop where
  writes : ∀ ks d, Writes dst src ks d → ks.map Step.key <+: steps ∨ steps <+: ks.map Step.key →
    ks.map Step.key = steps ∧ Seen (pathOf steps) d
  makes : ∀ ks, Makes dst src ks → ¬steps <+: ks.map Step.key

/-! ### The check -/

theorem not_protected_nil : ¬Protected s r [] := by
  have hro : isReadOnly [] = false := by decide
  have hsu : isStepUp [] = false := by decide
  simp [Protected, hro, hsu]

theorem isReadOnly_of_mem_stepUpFields {path : GoString} (h : path ∈ stepUpFields) : isReadOnly path = false := by
  have hall : ∀ f ∈ stepUpFields, isReadOnly f = false := by decide
  exact hall path h

theorem checkPaths_snd (s : Server Config) (r : Request) (paths : List GoString) :
    ∃ store, (s.checkPaths r paths).2 = { s with stepUpStore := store } := by
  unfold Server.checkPaths
  simp only
  split_ifs <;> exact ⟨_, rfl⟩

theorem checkPaths_of_protected {paths : List GoString} {path : GoString} (hmem : path ∈ paths)
    (hp : Protected s r path) : ∃ refusal, (s.checkPaths r paths).1 = some refusal := by
  have hne : ∀ p : GoString → Bool, p path = true → paths.filter p ≠ [] := fun p h =>
    List.ne_nil_of_mem (List.mem_filter.mpr ⟨hmem, h⟩)
  unfold Server.checkPaths
  simp only
  rcases hp with hro | ⟨hsu, hholds⟩
  · rw [if_pos (hne _ hro)]
    exact ⟨_, rfl⟩
  · have hdenied : (s.stepUpStore.validate r.session opSettings r.now).1 = false := by
      rw [← StepUpStore.validate_fst_iff] at hholds
      exact Bool.eq_false_iff.mpr hholds
    rw [if_pos (hne _ hsu)]
    simp only [hdenied, Bool.false_eq_true, if_false]
    split_ifs <;> exact ⟨_, rfl⟩

theorem exists_protected_path {ks : List GoString} {d : Json} (hw : Writes dst src ks d)
    (hseen : Seen (pathOf (ks.map Step.key)) d) (hp : Protected s r (pathOf (ks.map Step.key))) :
    ∃ path ∈ collectFieldPaths src, Protected s r path := by
  have hsub := hw.paths_subset fieldPath (p := [])
  have hlisted : ∀ q ∈ paths fieldPath (pathOf (ks.map Step.key)) d, Protected s r q →
      q ∈ collectFieldPaths src := fun q hq hpq => by
    refine List.mem_filter.mpr ⟨hsub hq, decide_eq_true ?_⟩
    rintro rfl
    exact not_protected_nil hpq
  cases hseen with
  | scalar v => exact ⟨_, hlisted _ (List.mem_singleton.mpr rfl) hp, hp⟩
  | @array items hf hb hne =>
    obtain ⟨q, hq⟩ := List.exists_mem_of_ne_nil _ hne
    have hholds : ¬s.stepUpStore.Holds r.session opSettings r.now := by
      rcases hp with hro | ⟨-, hholds⟩
      · rw [isReadOnly_of_mem_stepUpFields hf] at hro
        exact absurd hro Bool.false_ne_true
      · exact hholds
    have hpq : Protected s r q := .inr ⟨isStepUp_of_mem_paths hf hb hq, hholds⟩
    exact ⟨q, hlisted q hq hpq, hpq⟩

/-! ### The merge -/

theorem applyConfigChanges_cfg (C : ConfigCodec Config) (s : Server Config) (saveError : Option GoString)
    (body : JsonFields) (paths : List GoString) :
    (s.applyConfigChanges C saveError body paths).2.cfg = s.cfg ∨
      (s.applyConfigChanges C saveError body paths).2.cfg = mergeConfigMaps C s.currentCfg body := by
  unfold Server.applyConfigChanges
  split
  · exact .inl rfl
  · exact .inr rfl

theorem value_mergeConfigMaps {c : Config} {body : JsonFields}
    (h : (obj (mergePutWithMasking (C.toMap c) body [])).value steps = (obj (C.toMap c)).value steps) :
    (obj (C.toMap (mergeConfigMaps C c body))).value steps = (obj (C.toMap c)).value steps := by
  unfold mergeConfigMaps
  cases hm : C.ofMap (mergePutWithMasking (C.toMap c) body []) with
  | none => rfl
  | some c' => exact C.value_ofMap hm h

structure Untouched (dst src : JsonFields) (steps : List (Step GoString)) : Prop where
  writes : ∀ ks d, Writes dst src ks d → ¬ks.map Step.key <+: steps ∧ ¬steps <+: ks.map Step.key
  makes : ∀ ks, Makes dst src ks → ¬steps <+: ks.map Step.key

theorem Untouched.value_put {c : Config} (h : Untouched (C.toMap c) src steps) (hsrc : (obj src).keyed = true) :
    (obj (C.toMap (mergeConfigMaps C c src))).value steps = (obj (C.toMap c)).value steps :=
  value_mergeConfigMaps (value_merge hsrc [] h.writes h.makes)

theorem Untouched.value_patch {c : Config} (h : Untouched (C.toMap c) src steps) (hsrc : (obj src).keyed = true) :
    (obj (C.toMap (mergeConfigMaps C c (mergeMap (C.toMap c) src)))).value steps =
      (obj (C.toMap c)).value steps := by
  have hfirst : (obj (mergeMap (C.toMap c) src)).value steps = (obj (C.toMap c)).value steps :=
    value_merge hsrc [] h.writes h.makes
  have hkeyed : (obj (mergeMap (C.toMap c) src)).keyed = true := keyed_merge hsrc (C.toMap_keyed c)
  exact value_mergeConfigMaps (value_merge_of_value_eq hkeyed [] (C.toMap_full c) hfirst)

theorem Direct.untouched_or (h : Direct dst src steps) : Untouched dst src steps ∨
    ∃ ks d, Writes dst src ks d ∧ ks.map Step.key = steps ∧ Seen (pathOf steps) d := by
  by_cases hmeet : ∃ ks d, Writes dst src ks d ∧ (ks.map Step.key <+: steps ∨ steps <+: ks.map Step.key)
  · obtain ⟨ks, d, hw, hrel⟩ := hmeet
    exact .inr ⟨ks, d, hw, h.writes ks d hw hrel⟩
  · refine .inl ⟨fun ks d hw => ?_, h.makes⟩
    rw [← not_or]
    exact fun hrel => hmeet ⟨ks, d, hw, hrel⟩

theorem Direct.of_find_eq_none {k : GoString} {rest : List (Step GoString)} (h : find k src = none) :
    Direct dst src (.key k :: rest) := by
  have hne : ∀ l, (find l src).isSome → k ≠ l := by
    rintro l hl rfl
    simp [h] at hl
  constructor
  · intro ks d hw hrel
    obtain ⟨l, tl, rfl, hl⟩ := hw.head
    simp [hne l hl, Ne.symm (hne l hl)] at hrel
  · intro ks hm
    obtain ⟨l, tl, rfl, hl⟩ := hm.head
    simp [hne l hl]

/-! ### Requests -/

theorem handleConfigWrite_cfg {prepare : Server Config → JsonFields → JsonFields} {body : JsonObject}
    (hbody : r.body = .ok body) (hcur : s.currentCfg = s.cfg) :
    let fields := del (utf8 "_meta") body.1
    (s.handleConfigWrite C prepare r).2.cfg = s.cfg ∨ (s.checkPaths r (collectFieldPaths fields)).1 = none ∧
      ∃ store, (s.handleConfigWrite C prepare r).2.cfg =
        mergeConfigMaps C s.cfg (prepare { s with stepUpStore := store } fields) := by
  intro fields
  obtain ⟨store, hstore⟩ := checkPaths_snd s r (collectFieldPaths fields)
  unfold Server.handleConfigWrite
  simp only [hbody]
  cases hcheck : s.checkPaths r (collectFieldPaths fields) with
  | mk refusal s' =>
    rw [hcheck] at hstore
    cases hstore
    cases refusal with
    | some refusal => exact .inl rfl
    | none =>
      rcases applyConfigChanges_cfg C { s with stepUpStore := store } r.saveError
        (prepare { s with stepUpStore := store } fields) (collectFieldPaths fields) with hkept | hmerged
      · exact .inl hkept
      · have hcur' : ({ s with stepUpStore := store } : Server Config).currentCfg = s.cfg := hcur
        rw [hcur'] at hmerged
        exact .inr ⟨rfl, store, hmerged⟩

/-- A request leaves the configuration or, when it passes the check, merges its body or the patched map into it. -/
theorem handleConfigAPI_cfg (C : ConfigCodec Config) (r : Request) (hcur : s.currentCfg = s.cfg) :
    (s.handleConfigAPI C r).2.cfg = s.cfg ∨ ∃ body, r.body = .ok body ∧
      let fields := del (utf8 "_meta") body.1
      (s.checkPaths r (collectFieldPaths fields)).1 = none ∧
        ((s.handleConfigAPI C r).2.cfg = mergeConfigMaps C s.cfg fields ∨
          (s.handleConfigAPI C r).2.cfg = mergeConfigMaps C s.cfg (mergeMap (C.toMap s.cfg) fields)) := by
  unfold Server.handleConfigAPI
  cases hbody : r.body with
  | error e => cases r.method <;> simp [Server.handleConfigPut, Server.handleConfigPatch, Server.handleConfigWrite, hbody]
  | ok body =>
    cases r.method with
    | get | other => exact .inl rfl
    | put =>
      rcases handleConfigWrite_cfg hbody hcur with hkept | ⟨hcheck, _, hcfg⟩
      · exact .inl hkept
      · exact .inr ⟨body, rfl, hcheck, .inl hcfg⟩
    | patch =>
      rcases handleConfigWrite_cfg hbody hcur with hkept | ⟨hcheck, _, hcfg⟩
      · exact .inl hkept
      · exact .inr ⟨body, rfl, hcheck, .inr hcfg⟩

theorem keyed_del {fs : JsonFields} (k : GoString) (h : (obj fs).keyed = true) :
    (obj (del k fs)).keyed = true := keyed_assign (d := none) h nofun

def plainConfig : PlainConfig :=
  ⟨[entry "node" [("hostname", text (utf8 "a"))],
    entry "mesh" [("port", .leaf (.num (utf8 "7000")))],
    (utf8 "peers", .arr [record [("public_key", text (utf8 "k")), ("capabilities", texts [utf8 "monitor"])]]),
    entry "auth" [("web_users", .arr [record [("username", text (utf8 "root"))]])]], by decide +kernel⟩

/-- The file holds the running configuration, and no session has a token. -/
def plainServer : Server PlainConfig where
  cfg := plainConfig
  saved := .ok plainConfig
  configAPI := some ⟨utf8 "config.yaml", ⟨[], []⟩⟩
  stepUpStore := ⟨∅⟩

theorem currentCfg_of_saved (h : s.saved = .ok s.cfg) : s.currentCfg = s.cfg := by
  unfold Server.currentCfg
  rw [h]
  split_ifs <;> rfl

def plainRequest (method : Method) (body : JsonObject) : Request := { method, body := .ok body }

def putPort : Request :=
  plainRequest .put ⟨[entry "mesh" [("port", .leaf (.num (utf8 "7001")))]], by decide +kernel⟩

def secretConfig : PlainConfig :=
  ⟨[entry "join" [("secret", text (utf8 "s"))],
    (utf8 "peers", .arr [record [("reality", record [("short_id", text (utf8 "i"))])]])], by decide +kernel⟩

def secretServer : Server PlainConfig := { plainServer with cfg := secretConfig, saved := .ok secretConfig }

/-- The request that sends back what a read returned. -/
def sendBack (method : Method) : Request := plainRequest method ⟨applyMasking secretConfig.1, by decide +kernel⟩

end MeshDesk.Web
