import MeshDesk.Web.ConfigApi

/-! What the reads of the configuration API show of masked fields: nothing, except for the difference between the running
and the saved configuration, which shows values as they are. -/
namespace MeshDesk.Web
open Lib
open Proxy (GoString)
open Doc (Alike AlikeFields)

variable {path pre : GoString} {running saved running' saved' : JsonFields}

/-! ### Differences without masked fields -/

def clear (path : GoString) (d : Json) : Bool := !Doc.holds fieldPath isMasked path d

/-- Values that are compared as a whole are shown only if they have no masked field in them. -/
def discreetEntry (path : GoString) (saved : Option Json) (running : Json) : Bool :=
  (diffValue path saved running).isEmpty || (clear path running && saved.all (clear path))

/-- The values that only the saved object has are not masked and have no masked field in them. -/
def discreetSaved (pre : GoString) (running saved : JsonFields) : Bool :=
  saved.all (fun f => (Doc.find f.1 running).isSome || (!isMasked (keyPath pre f.1) && clear (keyPath pre f.1) f.2))

mutual

def discreetFields (pre : GoString) (saved : JsonFields) : JsonFields → Bool
  | [] => true
  | (k, x) :: running =>
    (if isMasked (keyPath pre k) then (diffValue (keyPath pre k) (Doc.find k saved) x).isEmpty
      else discreetValue (keyPath pre k) (Doc.find k saved) x) && discreetFields pre saved running

def discreetValue (path : GoString) (saved : Option Json) : Json → Bool
  | .leaf s => discreetEntry path saved (.leaf s)
  | .arr items => discreetEntry path saved (.arr items)
  | .obj running => match saved with
    | some (.obj fields) => discreetFields path fields running && discreetSaved path running fields
    | other => discreetEntry path other (.obj running)

end

/-- Nothing that the difference shows is a masked field, is inside one or has one in it. -/
def discreet (running saved : JsonFields) : Bool := discreetFields [] saved running && discreetSaved [] running saved

/-! ### Two runs -/

theorem eq_of_clear {x x' : Json} (h : Alike fieldPath isMasked path x x') (hc : clear path x = true) : x = x' := by
  refine h.eq_of_not_holds ?_
  simpa [clear] using hc

theorem eq_of_all_clear {y y' : Option Json} (h : Option.Rel (Alike fieldPath isMasked path) y y')
    (hc : y.all (clear path) = true) : y = y' := by
  cases h with
  | none => rfl
  | some h => rw [eq_of_clear h hc]

theorem diffValue_eq_of_discreetEntry {x x' : Json} {y y' : Option Json} (hx : Alike fieldPath isMasked path x x')
    (hy : Option.Rel (Alike fieldPath isMasked path) y y') (h : discreetEntry path y x = true)
    (h' : discreetEntry path y' x' = true) : diffValue path y x = diffValue path y' x' := by
  have hy' : Option.Rel (Alike fieldPath isMasked path) y' y := by
    cases hy with
    | none => exact .none
    | some hab => exact .some hab.symm
  rw [discreetEntry, Bool.or_eq_true, Bool.and_eq_true] at h h'
  rcases h with hempty | ⟨hcx, hcy⟩
  · rcases h' with hempty' | ⟨hcx, hcy⟩
    · rw [List.isEmpty_iff.mp hempty, List.isEmpty_iff.mp hempty']
    · rw [eq_of_clear hx.symm hcx, eq_of_all_clear hy' hcy]
  · rw [eq_of_clear hx hcx, eq_of_all_clear hy hcy]

theorem savedOnly_alike (hr : AlikeFields fieldPath isMasked pre running running')
    (hs : AlikeFields fieldPath isMasked pre saved saved') (h : discreetSaved pre running saved = true) :
    savedOnly pre running saved = savedOnly pre running' saved' := by
  have hnone : ∀ k, (Doc.find k running).isNone = (Doc.find k running').isNone := by
    intro k
    rcases hr.find k with ⟨h₁, h₂⟩ | ⟨x, y, h₁, h₂, -⟩
    · rw [h₁, h₂]
    · rw [h₁, h₂]
      rfl
  unfold savedOnly
  simp only [hnone]
  unfold discreetSaved at h
  simp only [← Option.not_isNone, hnone] at h
  induction saved generalizing saved' with
  | nil =>
    cases hs
    rfl
  | cons f saved ih =>
    rw [List.all_cons, Bool.and_eq_true] at h
    cases hs with
    | @hidden _ k x y _ gs hk hs =>
      -- a masked key is in the running object too
      have hk' : isMasked (keyPath pre k) = true := hk
      have hin : (Doc.find k running').isNone = false := by simpa [hk'] using h.1
      simpa [hin] using ih hs h.2
    | @cons _ k x y _ gs hv hs =>
      by_cases hin : (Doc.find k running').isNone = true
      · have hc : clear (keyPath pre k) x = true := by
          have := h.1
          simp only [hin, Bool.not_true, Bool.false_or, Bool.and_eq_true] at this
          exact this.2
        have hxy := eq_of_clear hv hc
        simpa [hin, hxy] using ih hs h.2
      · simpa [hin] using ih hs h.2

/-- The induction over the running object: one value of it at a time, `ih` for the values inside. -/
theorem diffFields_alike
    (ih : ∀ f ∈ running, ∀ {path : GoString} {x' : Json} {y y' : Option Json}, Alike fieldPath isMasked path f.2 x' →
      Option.Rel (Alike fieldPath isMasked path) y y' → discreetValue path y f.2 = true →
      discreetValue path y' x' = true → diffValue path y f.2 = diffValue path y' x')
    (hr : AlikeFields fieldPath isMasked pre running running') (hs : AlikeFields fieldPath isMasked pre saved saved')
    (h : discreetFields pre saved running = true) (h' : discreetFields pre saved' running' = true) :
    diffFields pre saved running = diffFields pre saved' running' := by
  induction running generalizing running' with
  | nil =>
    cases hr
    rfl
  | cons f running ihr =>
    obtain ⟨ihf, ihrest⟩ := List.forall_mem_cons.mp ih
    have hidden : ∀ {k : GoString} {x x' : Json} {rest rest' : JsonFields}, isMasked (keyPath pre k) = true →
        discreetFields pre saved ((k, x) :: rest) = true → discreetFields pre saved' ((k, x') :: rest') = true →
        diffValue (keyPath pre k) (Doc.find k saved) x = diffValue (keyPath pre k) (Doc.find k saved') x' := by
      intro k x x' rest rest' hk h h'
      rw [discreetFields, if_pos hk, Bool.and_eq_true] at h h'
      rw [List.isEmpty_iff.mp h.1, List.isEmpty_iff.mp h'.1]
    have hrest : ∀ {k : GoString} {x : Json} {saved rest : JsonFields},
        discreetFields pre saved ((k, x) :: rest) = true → discreetFields pre saved rest = true := by
      intro k x saved rest h
      rw [discreetFields, Bool.and_eq_true] at h
      exact h.2
    cases hr with
    | @hidden _ k x x' _ gs hk hr =>
      rw [diffFields, diffFields, hidden hk h h', ihr ihrest hr (hrest h) (hrest h')]
    | @cons _ k x x' _ gs hv hr =>
      rw [diffFields, diffFields, ihr ihrest hr (hrest h) (hrest h')]
      congr 1
      by_cases hk : isMasked (keyPath pre k) = true
      · exact hidden hk h h'
      · rw [discreetFields, if_neg hk, Bool.and_eq_true] at h h'
        refine ihf hv ?_ h.1 h'.1
        rcases hs.find k with ⟨h₁, h₂⟩ | ⟨y, y', h₁, h₂, hmask | hy⟩
        · rw [h₁, h₂]
          exact .none
        · exact absurd hmask hk
        · rw [h₁, h₂]
          exact .some hy

theorem diffValue_alike (x : Json) : ∀ {path : GoString} {x' : Json} {y y' : Option Json},
    Alike fieldPath isMasked path x x' → Option.Rel (Alike fieldPath isMasked path) y y' →
    discreetValue path y x = true → discreetValue path y' x' = true → diffValue path y x = diffValue path y' x' := by
  induction x using Doc.induct with
  | leaf s =>
    intro path x' y y' hx hy h h'
    cases hx
    exact diffValue_eq_of_discreetEntry (.leaf _ _) hy h h'
  | arr items _ =>
    intro path x' y y' hx hy h h'
    cases hx with
    | arr hx => exact diffValue_eq_of_discreetEntry (.arr hx) hy h h'
  | obj running ih =>
    intro path x' y y' hx hy h h'
    cases hx with
    | obj hx =>
      cases hy with
      | none => exact diffValue_eq_of_discreetEntry (.obj hx) .none h h'
      | some hy =>
        cases hy with
        | leaf => exact diffValue_eq_of_discreetEntry (.obj hx) (.some (.leaf _ _)) h h'
        | arr hy => exact diffValue_eq_of_discreetEntry (.obj hx) (.some (.arr hy)) h h'
        | obj hy =>
          rw [discreetValue, Bool.and_eq_true] at h h'
          rw [diffValue, diffValue, diffFields_alike ih hx hy h.1 h'.1, savedOnly_alike hx hy h.2]

theorem computeConfigDiff_alike (hr : AlikeFields fieldPath isMasked [] running running')
    (hs : AlikeFields fieldPath isMasked [] saved saved') (h : discreet running saved = true)
    (h' : discreet running' saved' = true) : computeConfigDiff running saved = computeConfigDiff running' saved' := by
  rw [discreet, Bool.and_eq_true] at h h'
  unfold computeConfigDiff computeDiffRecursive
  rw [diffFields_alike (fun f _ => diffValue_alike f.2) hr hs h.1 h'.1, savedOnly_alike hr hs h.2]

/-! ### Responses -/

variable {Config : Type} {C : ConfigCodec Config} {s s' : Server Config}

/-- The servers differ at most in the values of masked fields of their running and their saved configurations. -/
structure SameUnmasked (C : ConfigCodec Config) (s s' : Server Config) : Prop where
  running : AlikeFields fieldPath isMasked [] (C.toMap s.cfg) (C.toMap s'.cfg)
  saved : (∃ c c', s.saved = .ok c ∧ s'.saved = .ok c' ∧ AlikeFields fieldPath isMasked [] (C.toMap c) (C.toMap c')) ∨
    ∃ e, s.saved = .error e ∧ s'.saved = .error e
  configAPI : s.configAPI = s'.configAPI

def DiscreetDiff (C : ConfigCodec Config) (s : Server Config) : Prop :=
  ∀ c, s.saved = .ok c → discreet (C.toMap s.cfg) (C.toMap c) = true

def joinConfig (port secret : String) : PlainConfig :=
  ⟨[entry "mesh" [("port", .leaf (.num (utf8 port)))], entry "join" [("secret", text (utf8 secret))]], rfl, rfl⟩

def joinServer (cfg saved : PlainConfig) : Server PlainConfig where
  cfg := cfg
  saved := .ok saved
  configAPI := some ⟨utf8 "config.yaml", ⟨[], []⟩⟩
  stepUpStore := ⟨∅⟩

def readRequest : Request := { method := .get, body := .ok ⟨[], rfl⟩ }

theorem alike_joinConfig (port secret secret' : String) :
    AlikeFields fieldPath isMasked [] (joinConfig port secret).1 (joinConfig port secret').1 := by
  have hmasked : isMasked (utf8 "join.secret") = true := by decide
  refine .cons (.obj (.cons (.leaf _ _) (.nil _))) (.cons (.obj (.hidden ?_ (.nil _))) (.nil _))
  exact hmasked

theorem sameUnmasked_joinServer (port port' a b a' b' : String) :
    SameUnmasked plainCodec (joinServer (joinConfig port a) (joinConfig port' b))
      (joinServer (joinConfig port a') (joinConfig port' b')) where
  running := alike_joinConfig port a a'
  saved := .inl ⟨_, _, rfl, rfl, alike_joinConfig port' b b'⟩
  configAPI := rfl

end MeshDesk.Web
