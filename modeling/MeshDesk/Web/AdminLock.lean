import MeshDesk.Web.KeyRotation

/-! An administrator's lock on the second factor of a user. Every operation on a user who is locked leaves the user
locked, in memory and on disk, except for `AdminEnable` and `Disable`, which does not look at the state. -/
namespace MeshDesk.Web
open Lib AList Option
open Proxy (Bytes GoString)

/-! ### Operations -/

inductive StoreOp
  | enroll (u : GoString)
  | completeEnrollment (u : GoString)
  | disable (u : GoString)
  | disableByAdmin (u : GoString)
  | adminEnable (u : GoString)
  | validateCode (u code : GoString)
  | validateCodeWithOld (u code : GoString)
  | recordFailedAttempt (u : GoString)
  | clearFailedAttempts (u : GoString)
  | consumeRecoveryCode (u code : GoString)
  | sweepPending
  | initiateRotation (u : GoString)
  | confirmRotation (u code : GoString)
  | cancelRotation (u : GoString)
  | rotateMasterKey
  | restart
  | handleEnroll (isPost : Bool) (u : GoString)
  | handleDisable (isPost : Bool) (u : GoString)
  deriving DecidableEq

def StoreOp.apply (E : TotpEnv) (cfg : StartConfig) (c : Conditions) (sys : System) : StoreOp → System
  | enroll u => (sys.enroll E c u).2
  | completeEnrollment u => (sys.completeEnrollment E c u).2
  | disable u => (sys.disable E c u).2
  | disableByAdmin u => (sys.disableByAdmin E c u).2
  | adminEnable u => (sys.adminEnable E c u).2
  | validateCode u code => (sys.validateCode E c u code).2
  | validateCodeWithOld _ _ => sys
  | recordFailedAttempt u => (sys.recordFailedAttempt E c u).2
  | clearFailedAttempts u => sys.clearFailedAttempts E c u
  | consumeRecoveryCode u code => (sys.consumeRecoveryCode E c u code).2
  | sweepPending => sys.sweepPending E c
  | initiateRotation u => (sys.initiateRotation E c u).2
  | confirmRotation u code => (sys.confirmRotation E c u code).2
  | cancelRotation u => (sys.cancelRotation E c u).2
  | rotateMasterKey => (sys.rotateMasterKey E c).2
  | restart => start E c cfg sys.disk
  | handleEnroll isPost u => (handle2FAEnroll E c sys isPost u).2
  | handleDisable isPost u => (handle2FADisable E c sys isPost u).2

def runOps (E : TotpEnv) (cfg : StartConfig) (sys : System) (ops : List (Conditions × StoreOp)) : System :=
  ops.foldl (fun sys op => op.2.apply E cfg op.1 sys) sys

def StoreOp.Unlocks (u : GoString) : StoreOp → Prop
  | disable v | adminEnable v | handleDisable _ v => v = u
  | _ => False

section Touching
variable {E : TotpEnv} {c : Conditions} {P : Option TotpState → Prop} {sys : System} {v : GoString}

/-- The operation leaves the user `v` as it is, or with a value that satisfies `P`, and writes no file but that of
`v`. -/
inductive Touched (E : TotpEnv) (c : Conditions) (v : GoString) (P : Option TotpState → Prop) (sys : System) :
    System → Prop
  | same : Touched E c v P sys sys
  | put (st : TotpState) (h : P (some st)) : Touched E c v P sys (sys.put v st)
  | save (st : TotpState) (h : P (some st)) : Touched E c v P sys ((sys.put v st).persist E c v)
  | remove (h : P none) : Touched E c v P sys ((sys.drop v).persist E c v)

def Stays (sys : System) (v : GoString) (w : Option TotpState) : Prop :=
  (sys.user v).map TotpState.state = some .disabledByAdmin → w.map TotpState.state = some .disabledByAdmin

theorem stays_of_ne (h : (sys.user v).map TotpState.state ≠ some .disabledByAdmin) (w : Option TotpState) :
    Stays sys v w := fun hlocked => absurd hlocked h

theorem stays_of_eq {st st' : TotpState} (hv : sys.user v = some st) (hst : st'.state = st.state) :
    Stays sys v (some st') := by
  intro hlocked
  rw [hv] at hlocked
  rw [← hlocked, map_some, map_some, hst]

theorem put_put (sys : System) (v : GoString) (st st' : TotpState) : (sys.put v st).put v st' = sys.put v st' := by
  simp only [System.put, insert_insert]

theorem Touched.onUser {α : Type*} {x : α} {f : TotpState → α × System}
    (h : ∀ st, sys.user v = some st → Touched E c v P sys (f st).2) :
    Touched E c v P sys (match sys.user v with | none => (x, sys) | some st => f st).2 := by
  cases hv : sys.user v with
  | none => exact .same
  | some st => exact h st hv

variable (sys v) (code : GoString)

theorem enrollFresh_touched (h : ∀ st, P (some st)) : Touched E c v P sys (sys.enrollFresh E c v).2 := by
  unfold System.enrollFresh
  split
  · exact .same
  dsimp only
  split
  · exact .same
  · exact .save _ (h _)

theorem enroll_touched : Touched E c v (Stays sys v) sys (sys.enroll E c v).2 := by
  unfold System.enroll
  cases hv : sys.user v with
  | none => exact enrollFresh_touched sys v fun st => stays_of_ne (by simp [hv]) _
  | some st =>
    dsimp only
    split
    · exact .same
    · exact .same
    · exact .same
    · rename_i hstate
      have hstays : ∀ w, Stays sys v w := stays_of_ne (by simp [hv, hstate])
      -- in `PENDING` the user is changed before the new secret is drawn
      unfold System.enrollFresh
      split
      · exact .put _ (hstays _)
      dsimp only
      split
      · exact .put _ (hstays _)
      · rw [put_put]
        exact .save _ (hstays _)
    · rename_i hstate
      exact enrollFresh_touched sys v fun st => stays_of_ne (by simp [hv, hstate]) _

theorem completeEnrollment_touched : Touched E c v (Stays sys v) sys (sys.completeEnrollment E c v).2 := by
  refine .onUser fun st hv => ?_
  split_ifs with hstate
  · exact .same
  · exact .save _ (stays_of_ne (by simp [hv, not_not.mp hstate]) _)

theorem disable_touched : Touched E c v (fun _ => True) sys (sys.disable E c v).2 :=
  .onUser fun _ _ => .remove trivial

theorem disableByAdmin_touched : Touched E c v (Stays sys v) sys (sys.disableByAdmin E c v).2 :=
  .onUser fun _ _ => .save _ fun _ => rfl

theorem adminEnable_touched : Touched E c v (fun _ => True) sys (sys.adminEnable E c v).2 := by
  refine .onUser fun st _ => ?_
  split_ifs
  · exact .same
  · exact .remove trivial

theorem validateCode_touched : Touched E c v (Stays sys v) sys (sys.validateCode E c v code).2 := by
  refine .onUser fun st hv => ?_
  by_cases hstate : st.state = .disabled ∨ st.state = .disabledByAdmin
  · rw [if_pos hstate]
    exact .same
  rw [if_neg hstate]
  split
  · exact .same
  split
  · exact .same
  split_ifs
  · exact .save _ (stays_of_ne (by simp [hv, (not_or.mp hstate).2]) _)
  · exact .same

theorem recordFailedAttempt_touched : Touched E c v (Stays sys v) sys (sys.recordFailedAttempt E c v).2 := by
  refine .onUser fun st hv => ?_
  dsimp only
  split_ifs
  · exact .save _ (stays_of_eq hv rfl)
  · exact .put _ (stays_of_eq hv rfl)

theorem clearFailedAttempts_touched : Touched E c v (Stays sys v) sys (sys.clearFailedAttempts E c v) := by
  unfold System.clearFailedAttempts
  cases hv : sys.user v with
  | none => exact .same
  | some st => exact .save _ (stays_of_eq hv rfl)

theorem consumeRecoveryCode_touched : Touched E c v (Stays sys v) sys (sys.consumeRecoveryCode E c v code).2 := by
  refine .onUser fun st hv => ?_
  split_ifs
  · exact .same
  · exact .save _ (stays_of_eq hv rfl)
  · exact .same

theorem initiateRotation_touched : Touched E c v (Stays sys v) sys (sys.initiateRotation E c v).2 := by
  refine .onUser fun st hv => ?_
  dsimp only
  split_ifs with hstate
  · exact .same
  split
  · exact .same
  split
  · exact .same
  · exact .save _ (stays_of_ne (by simp [hv, not_not.mp hstate]) _)

theorem confirmRotation_touched : Touched E c v (Stays sys v) sys (sys.confirmRotation E c v code).2 := by
  refine .onUser fun st hv => ?_
  split_ifs with hstate
  · exact .same
  split
  · exact .same
  split_ifs
  · exact .save _ (stays_of_ne (by simp [hv, not_not.mp hstate]) _)
  · exact .same

theorem cancelRotation_touched : Touched E c v (Stays sys v) sys (sys.cancelRotation E c v).2 := by
  refine .onUser fun st hv => ?_
  by_cases hstate : st.state ≠ .rotating
  · rw [if_pos hstate]
    exact .same
  · rw [if_neg hstate]
    exact .save _ (stays_of_ne (by simp [hv, not_not.mp hstate]) _)

theorem handle2FAEnroll_touched (isPost : Bool) :
    Touched E c v (Stays sys v) sys (handle2FAEnroll E c sys isPost v).2 := by
  unfold handle2FAEnroll
  split_ifs
  · exact .same
  · exact .same
  · exact .same
  · have htouched := enroll_touched (E := E) (c := c) sys v
    rcases henroll : sys.enroll E c v with ⟨result, sys'⟩
    rw [henroll] at htouched
    cases result <;> exact htouched

theorem handle2FADisable_touched (isPost : Bool) :
    Touched E c v (fun _ => True) sys (handle2FADisable E c sys isPost v).2 := by
  unfold handle2FADisable
  split_ifs
  · exact .same
  · exact .same
  · exact .same
  · exact disable_touched sys v

end Touching

section Files
variable {E : TotpEnv} {c : Conditions} {u v : GoString} {sys : System} {km : TOTPKeyManager}

theorem writeBlobAtomic_frame (d : Disk) (c : Conditions) (v : GoString) (data : Bytes) :
    (d.writeBlobAtomic c v data).2.keys = d.keys ∧
      ∀ u ≠ v, (d.writeBlobAtomic c v data).2.enc.lookup u = d.enc.lookup u := by
  unfold Disk.writeBlobAtomic Disk.writeTmp
  by_cases htmp : c.fails (.writeTmp v) = true
  · rw [if_pos htmp]
    exact ⟨rfl, fun u _ => rfl⟩
  · rw [if_neg htmp]
    dsimp only [Disk.dropTmp]
    split_ifs
    any_goals exact ⟨rfl, fun u _ => rfl⟩
    exact ⟨rfl, fun u hu => lookup_insert_ne hu⟩

theorem persist_frame (E : TotpEnv) (c : Conditions) (sys : System) (v : GoString) :
    (sys.persist E c v).disk.keys = sys.disk.keys ∧
      ∀ u ≠ v, (sys.persist E c v).disk.enc.lookup u = sys.disk.enc.lookup u := by
  unfold System.persist TOTPStore.persist
  split
  · split
    · split_ifs
      · exact ⟨rfl, fun u _ => rfl⟩
      · exact ⟨rfl, fun u hu => lookup_erase_ne hu⟩
    · split
      · exact ⟨rfl, fun u _ => rfl⟩
      · split_ifs
        · exact ⟨rfl, fun u _ => rfl⟩
        · exact writeBlobAtomic_frame _ _ _ _
  · exact ⟨rfl, fun u _ => rfl⟩

theorem persist_holds (hc : c.Faultless) (hpersist : sys.store.persistent = true) (hkm : sys.store.km = some km)
    {st : TotpState} (hv : sys.user v = some st) : Holds E km v st ((sys.persist E c v).disk.enc.lookup v) := by
  obtain ⟨blob, hseal⟩ := hc.sealBlob E km (.state v) v (E.marshal (toPersistedState st))
  refine ⟨blob, ?_, TOTPKeyManager.openBlob_sealBlob hseal⟩
  unfold System.persist TOTPStore.persist
  rw [hpersist, hkm]
  rw [show sys.store.users.lookup v = some st from hv]
  dsimp only
  rw [hseal]
  simp [Disk.writeBlobAtomic, Disk.writeTmp, hc.files]

end Files

/-! ### The invariant -/

/-- A persistent store has the key of the key file, and its manager the path of that file or none. -/
structure Sound (E : TotpEnv) (cfg : StartConfig) (sys : System) : Prop where
  keyed : sys.store.persistent = true → ∃ km masterKey, sys.store.km = some km ∧ km.encKey = E.hkdf masterKey ∧
    masterKey.length = masterSecretSize ∧ sys.disk.keys.lookup cfg.path = some masterKey ∧
    (km.path = cfg.path ∨ km.path = []) ∧ cfg.storeDir = true

/-- The user is locked, and so it is in the user's file if the store is persistent, which `onDisk` says. -/
structure LockedOut (E : TotpEnv) (u : GoString) (onDisk : Bool) (sys : System) : Prop where
  mode : sys.store.persistent = onDisk
  memory : (sys.user u).map TotpState.state = some .disabledByAdmin
  disk : onDisk = true → ∀ km, sys.store.km = some km →
    ∃ st, st.state = .disabledByAdmin ∧ Holds E km u st (sys.disk.enc.lookup u)

section Invariant
variable {E : TotpEnv} {cfg : StartConfig} {c : Conditions} {u v : GoString} {sys sys' : System}
  {P : Option TotpState → Prop} {onDisk : Bool}

theorem Sound.of_eq (h : Sound E cfg sys) (hpersist : sys'.store.persistent = sys.store.persistent)
    (hkm : sys'.store.km = sys.store.km)
    (hkeys : sys'.disk.keys.lookup cfg.path = sys.disk.keys.lookup cfg.path) : Sound E cfg sys' := by
  refine ⟨fun hp => ?_⟩
  rw [hkm, hkeys]
  exact h.keyed (hpersist ▸ hp)

theorem LockedOut.of_eq (h : LockedOut E u onDisk sys) (hpersist : sys'.store.persistent = sys.store.persistent)
    (hkm : sys'.store.km = sys.store.km) (huser : sys'.user u = sys.user u)
    (henc : sys'.disk.enc.lookup u = sys.disk.enc.lookup u) : LockedOut E u onDisk sys' := by
  refine ⟨hpersist.trans h.mode, huser ▸ h.memory, fun hp km hkm' => ?_⟩
  rw [henc]
  exact h.disk hp km (hkm ▸ hkm')

theorem Sound.touched (h : Sound E cfg sys) (ht : Touched E c v P sys sys') : Sound E cfg sys' := by
  cases ht with
  | same => exact h
  | put st hst => exact h.of_eq rfl rfl rfl
  | save st hst => exact h.of_eq rfl rfl (by rw [(persist_frame E c (sys.put v st) v).1]; rfl)
  | remove hn => exact h.of_eq rfl rfl (by rw [(persist_frame E c (sys.drop v) v).1]; rfl)

theorem LockedOut.other (h : LockedOut E u onDisk sys) (hne : u ≠ v) (ht : Touched E c v P sys sys') :
    LockedOut E u onDisk sys' := by
  cases ht with
  | same => exact h
  | put st hst => exact h.of_eq rfl rfl (lookup_insert_ne hne) rfl
  | save st hst =>
    exact h.of_eq rfl rfl (lookup_insert_ne hne) ((persist_frame E c (sys.put v st) v).2 u hne)
  | remove hn =>
    exact h.of_eq rfl rfl (lookup_erase_ne hne) ((persist_frame E c (sys.drop v) v).2 u hne)

theorem lockedOut_save (hc : c.Faultless) (sys : System) {st : TotpState} (hst : st.state = .disabledByAdmin) :
    LockedOut E u sys.store.persistent ((sys.put u st).persist E c u) := by
  have huser : (sys.put u st).user u = some st := lookup_insert _
  refine ⟨rfl, ?_, fun hp km hkm => ⟨st, hst, ?_⟩⟩
  · change ((sys.put u st).user u).map TotpState.state = _
    rw [huser, map_some, hst]
  · have hpersist : (sys.put u st).store.persistent = true := hp
    exact persist_holds hc hpersist hkm huser

theorem LockedOut.own (hc : c.Faultless) (h : LockedOut E u onDisk sys) (ht : Touched E c u (Stays sys u) sys sys') :
    LockedOut E u onDisk sys' := by
  cases ht with
  | same => exact h
  | put st hst =>
    refine ⟨h.mode, ?_, h.disk⟩
    rw [System.user, System.put, lookup_insert]
    exact hst h.memory
  | save st hst =>
    rw [← h.mode]
    exact lockedOut_save hc sys (some.inj (hst h.memory))
  | remove hn => cases hn h.memory

theorem sweepPending_rule {P : System → Prop} (h : P sys)
    (hdrop : ∀ s v st, sys.user v = some st → st.state = .pending → P s → P (s.drop v))
    (hpersist : ∀ s v st, sys.user v = some st → st.state = .pending → P s → P (s.persist E c v)) :
    P (sys.sweepPending E c) := by
  unfold System.sweepPending
  generalize hexpired : (sys.store.users.entries.filter _).map Sigma.fst = expired
  have hpending : ∀ v ∈ expired, ∃ st, sys.user v = some st ∧ st.state = .pending := by
    rw [← hexpired]
    refine List.forall_mem_map.mpr fun e he => ?_
    obtain ⟨hentry, hst⟩ := List.mem_filter.mp he
    exact ⟨e.2, Map.mem_entries_iff.mp hentry, (of_decide_eq_true hst).1⟩
  refine List.foldlRecOn _ _ (List.foldlRecOn _ _ h ?_) ?_
  · intro s hs v hv
    obtain ⟨st, huser, hst⟩ := hpending v hv
    exact hdrop s v st huser hst hs
  · intro s hs v hv
    obtain ⟨st, huser, hst⟩ := hpending v hv
    exact hpersist s v st huser hst hs

theorem LockedOut.sweepPending (h : LockedOut E u onDisk sys) : LockedOut E u onDisk (sys.sweepPending E c) := by
  have hother : ∀ v st, sys.user v = some st → st.state = .pending → u ≠ v := by
    rintro v st huser hst rfl
    have hlocked := h.memory
    rw [huser, map_some, hst] at hlocked
    cases hlocked
  refine sweepPending_rule h ?_ ?_
  · exact fun s v st huser hst hs => hs.of_eq rfl rfl (lookup_erase_ne (hother v st huser hst)) rfl
  · exact fun s v st huser hst hs => hs.of_eq rfl rfl rfl ((persist_frame E c s v).2 u (hother v st huser hst))

theorem Sound.sweepPending (h : Sound E cfg sys) : Sound E cfg (sys.sweepPending E c) := by
  refine sweepPending_rule h ?_ ?_
  · exact fun s v _ _ _ hs => hs.of_eq rfl rfl rfl
  · exact fun s v _ _ _ hs => hs.of_eq rfl rfl (by rw [(persist_frame E c s v).1])

/-! ### Rotation of the master key -/

/-- Without faults a rotation goes through, or changes nothing but the file of the new key. -/
theorem rotateMasterKey_cases (hc : c.Faultless) (h : Sound E cfg sys) :
    ((sys.rotateMasterKey E c).2.store = sys.store ∧ (sys.rotateMasterKey E c).2.disk.enc = sys.disk.enc ∧
      (sys.rotateMasterKey E c).2.disk.keys.lookup cfg.path = sys.disk.keys.lookup cfg.path) ∨
    (sys.rotateMasterKey E c).1 = none := by
  by_cases hpersist : sys.store.persistent = true
  swap
  · left
    unfold System.rotateMasterKey
    rw [if_pos (by simp [hpersist])]
    exact ⟨rfl, rfl, rfl⟩
  obtain ⟨km, masterKey, hkm, -, -, hkey, hpath, -⟩ := h.keyed hpersist
  by_cases hnil : km.path = []
  · left
    unfold System.rotateMasterKey
    rw [if_neg (by simp [hpersist]), hkm]
    dsimp only
    rw [if_pos hnil]
    exact ⟨rfl, rfl, rfl⟩
  have hpath := hpath.resolve_right hnil
  rw [rotateMasterKey_eq hpersist hkm hnil]
  obtain ⟨newKey, hnewKey⟩ := isSome_iff_exists.mp hc.masterKey
  cases hsecrets : reEncryptSecrets E c km ⟨E.hkdf newKey.val, []⟩ sys.store.users.entries with
  | ok secrets =>
    right
    exact rotateFrom_succeeds hc hnewKey (by rw [hpath, hkey]; rfl) hsecrets
  | error err =>
    left
    unfold System.rotateFrom
    rw [hnewKey]
    dsimp only
    rw [if_neg (by simp [hc.files]), newTOTPKeyManagerFromBytes_eq E newKey.property]
    dsimp only
    rw [hsecrets]
    dsimp only [System.removeNewKey]
    rw [if_neg (by simp [hc.files])]
    refine ⟨rfl, rfl, ?_⟩
    have hne : cfg.path ≠ km.path ++ masterKeyNewSuffix := by
      rw [hpath]
      exact Ne.symm (suffix_ne cfg.path).1
    rw [lookup_erase_ne hne, lookup_insert_ne hne]

theorem persistent_of_rotated (hok : (sys.rotateMasterKey E c).1 = none) : sys.store.persistent = true := by
  by_contra hp
  unfold System.rotateMasterKey at hok
  rw [if_pos (by simp [hp])] at hok
  cases hok

theorem Sound.rotateMasterKey (hc : c.Faultless) (h : Sound E cfg sys) : Sound E cfg (sys.rotateMasterKey E c).2 := by
  rcases rotateMasterKey_cases hc h with ⟨hstore, -, hkeys⟩ | hok
  · exact h.of_eq (by rw [hstore]) (by rw [hstore]) hkeys
  · obtain ⟨km, masterKey, secrets, hpath, -, hrot⟩ := rotateMasterKey_ok (Prod.ext hok rfl)
    refine ⟨fun _ => ?_⟩
    obtain ⟨km', -, hkm, -, -, -, hcfg, hdir⟩ := h.keyed (persistent_of_rotated hok)
    obtain rfl := mem_unique hrot.manager hkm
    have hcfg := hcfg.resolve_right hpath
    refine ⟨_, masterKey.val, hrot.newManager, rfl, masterKey.property, ?_, .inr rfl, hdir⟩
    rw [← hcfg]
    exact hrot.keyFile

theorem LockedOut.rotateMasterKey (hc : c.Faultless) (hs : Sound E cfg sys) (h : LockedOut E u onDisk sys) :
    LockedOut E u onDisk (sys.rotateMasterKey E c).2 := by
  rcases rotateMasterKey_cases hc hs with ⟨hstore, henc, -⟩ | hok
  · exact h.of_eq (by rw [hstore]) (by rw [hstore]) (by rw [System.user, hstore]; rfl) (by rw [henc])
  · obtain ⟨km, masterKey, secrets, -, -, hrot⟩ := rotateMasterKey_ok (Prod.ext hok rfl)
    have hmemory := h.memory
    rw [← (hrot.alike u).state] at hmemory
    have hmode : sys.store.persistent = true := persistent_of_rotated hok
    refine ⟨hrot.persistent.trans (hmode.symm.trans h.mode), hmemory, fun _ km' hkm' => ?_⟩
    obtain rfl := mem_unique hrot.newManager hkm'
    obtain ⟨st, hst, hstate⟩ := map_eq_some_iff.mp hmemory
    exact ⟨st, hstate, hrot.files u st hst⟩

/-! ### Restarts -/

theorem initialMasterSecret_length {legacySecret : GoString} {masterSecret : Bytes}
    (h : initialMasterSecret E c legacySecret = some masterSecret) : masterSecret.length = masterSecretSize := by
  obtain ⟨random, -, rfl⟩ := map_eq_some_iff.mp h
  split_ifs
  · exact random.property
  · split
    · split_ifs with hlong
      · exact List.length_take_of_le hlong
      · exact E.sha256_length _
    · exact E.sha256_length _

theorem newTOTPKeyManager_keyed {d d' : Disk} {km : TOTPKeyManager} (h : newTOTPKeyManager E c cfg d = (some km, d')) :
    ∃ masterKey, km = ⟨E.hkdf masterKey, cfg.path⟩ ∧ masterKey.length = masterSecretSize ∧
      d'.keys.lookup cfg.path = some masterKey := by
  unfold newTOTPKeyManager at h
  split at h
  · cases h
  split at h
  · rename_i masterSecret hkey
    split_ifs at h with hbad
    · cases h
    · cases h
      exact ⟨masterSecret, rfl, not_not.mp (not_or.mp hbad).2, hkey⟩
  · split at h
    · cases h
    rename_i masterSecret hinit
    split_ifs at h
    · cases h
    · cases h
      exact ⟨masterSecret, rfl, initialMasterSecret_length hinit, lookup_insert _⟩

theorem sound_start (E : TotpEnv) (c : Conditions) (cfg : StartConfig) (d : Disk) : Sound E cfg (start E c cfg d) := by
  refine ⟨fun hpersist => ?_⟩
  unfold start at hpersist ⊢
  rcases hkm : newTOTPKeyManager E c cfg d with ⟨_ | km, d'⟩
  · rw [hkm] at hpersist
    cases hpersist
  rw [hkm] at hpersist
  obtain ⟨masterKey, rfl, hlen, hkey⟩ := newTOTPKeyManager_keyed hkm
  dsimp only at hpersist ⊢
  by_cases hdir : cfg.storeDir = true
  · rw [if_pos hdir] at hpersist ⊢
    unfold newPersistentTOTPStore at hpersist ⊢
    split_ifs at hpersist ⊢ with hfails
    · cases hpersist
    · exact ⟨_, masterKey, rfl, rfl, hlen, hkey, .inl rfl, hdir⟩
  · rw [if_neg hdir] at hpersist
    cases hpersist

theorem LockedOut.restart (hc : c.Faultless) (hs : Sound E cfg sys) (h : LockedOut E u true sys) :
    LockedOut E u true (start E c cfg sys.disk) := by
  obtain ⟨km, masterKey, hkm, hkey, hlen, hfile, -, hdir⟩ := hs.keyed h.mode
  obtain ⟨st, hstate, blob, hblob, hopen⟩ := h.disk rfl km hkm
  obtain ⟨hpersist', hkm', -, henc, husers⟩ := start_eq hc hdir hfile hlen
  have hsame : (⟨E.hkdf masterKey, cfg.path⟩ : TOTPKeyManager).openBlob E = km.openBlob E :=
    TOTPKeyManager.openBlob_congr hkey.symm
  refine ⟨hpersist', ?_, fun _ km' hkm'' => ⟨st, hstate, blob, by rw [henc, hblob], ?_⟩⟩
  · rw [husers, hblob, bind_some, hsame, hopen, bind_some, E.unmarshal_marshal, map_some,
      fromPersistedState_toPersistedState, map_some, hstate]
  · obtain rfl := mem_unique hkm' hkm''
    rw [hsame, hopen]

/-! ### Runs -/

/-- An operation is about one user, whose lock it keeps or takes away, or it is one of the three on all users. -/
theorem StoreOp.apply_cases (E : TotpEnv) (cfg : StartConfig) (c : Conditions) (sys : System) (op : StoreOp) :
    (∃ v P, Touched E c v P sys (op.apply E cfg c sys) ∧ (op.Unlocks v ∨ P = Stays sys v)) ∨
      op = .sweepPending ∨ op = .rotateMasterKey ∨ op = .restart := by
  cases op with
  | enroll v => exact .inl ⟨v, _, enroll_touched sys v, .inr rfl⟩
  | completeEnrollment v => exact .inl ⟨v, _, completeEnrollment_touched sys v, .inr rfl⟩
  | disable v => exact .inl ⟨v, _, disable_touched sys v, .inl rfl⟩
  | disableByAdmin v => exact .inl ⟨v, _, disableByAdmin_touched sys v, .inr rfl⟩
  | adminEnable v => exact .inl ⟨v, _, adminEnable_touched sys v, .inl rfl⟩
  | validateCode v code => exact .inl ⟨v, _, validateCode_touched sys v code, .inr rfl⟩
  | validateCodeWithOld v code => exact .inl ⟨v, _, .same, .inr rfl⟩
  | recordFailedAttempt v => exact .inl ⟨v, _, recordFailedAttempt_touched sys v, .inr rfl⟩
  | clearFailedAttempts v => exact .inl ⟨v, _, clearFailedAttempts_touched sys v, .inr rfl⟩
  | consumeRecoveryCode v code => exact .inl ⟨v, _, consumeRecoveryCode_touched sys v code, .inr rfl⟩
  | sweepPending => exact .inr (.inl rfl)
  | initiateRotation v => exact .inl ⟨v, _, initiateRotation_touched sys v, .inr rfl⟩
  | confirmRotation v code => exact .inl ⟨v, _, confirmRotation_touched sys v code, .inr rfl⟩
  | cancelRotation v => exact .inl ⟨v, _, cancelRotation_touched sys v, .inr rfl⟩
  | rotateMasterKey => exact .inr (.inr (.inl rfl))
  | restart => exact .inr (.inr (.inr rfl))
  | handleEnroll isPost v => exact .inl ⟨v, _, handle2FAEnroll_touched sys v isPost, .inr rfl⟩
  | handleDisable isPost v => exact .inl ⟨v, _, handle2FADisable_touched sys v isPost, .inl rfl⟩

theorem Sound.apply (hc : c.Faultless) (h : Sound E cfg sys) (op : StoreOp) : Sound E cfg (op.apply E cfg c sys) := by
  obtain ⟨v, P, ht, -⟩ | rfl | rfl | rfl := StoreOp.apply_cases E cfg c sys op
  · exact h.touched ht
  · exact h.sweepPending
  · exact h.rotateMasterKey hc
  · exact sound_start E c cfg sys.disk

theorem LockedOut.apply (hc : c.Faultless) (hs : Sound E cfg sys) (h : LockedOut E u onDisk sys) {op : StoreOp}
    (hop : ¬op.Unlocks u) (hrestart : onDisk = true ∨ op ≠ .restart) :
    LockedOut E u onDisk (op.apply E cfg c sys) := by
  obtain ⟨v, P, ht, hkeeps⟩ | rfl | rfl | rfl := StoreOp.apply_cases E cfg c sys op
  · by_cases hv : u = v
    · subst hv
      obtain rfl := hkeeps.resolve_left hop
      exact h.own hc ht
    · exact h.other hv ht
  · exact h.sweepPending
  · exact h.rotateMasterKey hc hs
  · obtain rfl := hrestart.resolve_right (not_not.mpr rfl)
    exact h.restart hc hs

theorem sound_runOps {ops : List (Conditions × StoreOp)} (hops : ∀ op ∈ ops, op.1.Faultless) (h : Sound E cfg sys) :
    Sound E cfg (runOps E cfg sys ops) := by
  induction ops generalizing sys with
  | nil => exact h
  | cons op ops ih =>
    rw [List.forall_mem_cons] at hops
    exact ih hops.2 (h.apply hops.1 op.2)

theorem lockedOut_runOps {ops : List (Conditions × StoreOp)}
    (hops : ∀ op ∈ ops, op.1.Faultless ∧ ¬op.2.Unlocks u ∧ (onDisk = true ∨ op.2 ≠ .restart)) (hs : Sound E cfg sys)
    (h : LockedOut E u onDisk sys) : LockedOut E u onDisk (runOps E cfg sys ops) := by
  induction ops generalizing sys with
  | nil => exact h
  | cons op ops ih =>
    rw [List.forall_mem_cons] at hops
    obtain ⟨⟨hc, hop, hrestart⟩, hops⟩ := hops
    exact ih hops (hs.apply hc op.2) (h.apply hc hs hop hrestart)

theorem lockedOut_disableByAdmin (hc : c.Faultless) (h : (sys.disableByAdmin E c u).1 = true) :
    LockedOut E u sys.store.persistent (sys.disableByAdmin E c u).2 := by
  unfold System.disableByAdmin at h ⊢
  cases hu : sys.user u with
  | none =>
    rw [hu] at h
    cases h
  | some st => exact lockedOut_save hc sys rfl

theorem LockedOut.refuses (h : LockedOut E u onDisk sys) (c : Conditions) (code : GoString) :
    (sys.enroll E c u).1 = .error (.disabledByAdmin u) ∧ (sys.validateCode E c u code).1 = false ∧
      sys.validateCodeWithOld E c u code = false ∧ (sys.consumeRecoveryCode E c u code).1 = false ∧
      (sys.confirmRotation E c u code).1 = .error (.notRotating u) := by
  obtain ⟨st, hu, hstate⟩ := map_eq_some_iff.mp h.memory
  refine ⟨?_, ?_, ?_, ?_, ?_⟩
  · simp only [System.enroll, hu, hstate]
  · simp [System.validateCode, hu, hstate]
  · simp [System.validateCodeWithOld, hu, hstate]
  · simp [System.consumeRecoveryCode, hu, hstate]
  · simp [System.confirmRotation, hu, hstate]

/-- From a `DisableByAdmin` on, and as long as nobody enables or disables the user, the user is locked: it cannot
enroll, and no code is accepted. The store is persistent, or not restarted meanwhile. -/
theorem admin_lock_holds {c₀ : Conditions} {d : Disk} {before after : List (Conditions × StoreOp)}
    (hbefore : ∀ op ∈ before, op.1.Faultless) (hc : c.Faultless)
    (hlock : ((runOps E cfg (start E c₀ cfg d) before).disableByAdmin E c u).1 = true)
    (hafter : ∀ op ∈ after, op.1.Faultless ∧ ¬op.2.Unlocks u)
    (hrestart : (runOps E cfg (start E c₀ cfg d) before).store.persistent = true ∨
      ∀ op ∈ after, op.2 ≠ .restart) :
    let sys := runOps E cfg ((runOps E cfg (start E c₀ cfg d) before).disableByAdmin E c u).2 after
    (sys.user u).map TotpState.state = some .disabledByAdmin ∧
      ∀ c' code, (sys.enroll E c' u).1 = .error (.disabledByAdmin u) ∧ (sys.validateCode E c' u code).1 = false ∧
        sys.validateCodeWithOld E c' u code = false ∧ (sys.consumeRecoveryCode E c' u code).1 = false ∧
        (sys.confirmRotation E c' u code).1 = .error (.notRotating u) := by
  have hs := sound_runOps hbefore (sound_start E c₀ cfg d)
  have hs' := hs.touched (disableByAdmin_touched (c := c) _ u)
  have h := lockedOut_runOps (fun op hop => ⟨(hafter op hop).1, (hafter op hop).2, hrestart.imp_right (· op hop)⟩) hs'
    (lockedOut_disableByAdmin hc hlock)
  exact ⟨h.memory, h.refuses⟩

end Invariant

/-! ### Runs of the store with one user -/

def lockedSystem : System := (enrolledSystem.disableByAdmin toyTotp (calm 4) [1]).2

theorem admin_lock_holds_restart :
    (((runOps toyTotp toyStart lockedSystem
      [(calm 5, .enroll [1]), (calm 6, .rotateMasterKey), (calm 7, .restart)]).enroll toyTotp (calm 8) [1]).1 =
        .error (.disabledByAdmin [1])) ∧ lockedSystem.store.persistent = true := by
  refine ⟨?_, by decide⟩
  let before : List (Conditions × StoreOp) := [(calm 2, .enroll [1]), (calm 2, .validateCode [1] (toyCode 2))]
  have hbefore : ∀ op ∈ before, op.1.Faultless := by
    simp [before, calm_faultless]
  have hrun : runOps toyTotp toyStart (start toyTotp (calm 1) toyStart {}) before = enrolledSystem := rfl
  have hlock : ((runOps toyTotp toyStart (start toyTotp (calm 1) toyStart {}) before).disableByAdmin toyTotp (calm 4)
      [1]).1 = true := by
    decide
  have hafter : ∀ op ∈ [(calm 5, StoreOp.enroll [1]), (calm 6, StoreOp.rotateMasterKey), (calm 7, StoreOp.restart)],
      op.1.Faultless ∧ ¬op.2.Unlocks [1] := by
    simp [calm_faultless, StoreOp.Unlocks]
  have hlocked := admin_lock_holds hbefore (calm_faultless 4) hlock hafter (.inl (by rw [hrun]; decide))
  exact (hlocked.2 (calm 8) []).1

/-- A locked user disables the second factor, and can then enroll. -/
theorem lock_removed_by_user :
    (lockedSystem.user [1]).map TotpState.state = some .disabledByAdmin ∧
      (handle2FADisable toyTotp (calm 5) lockedSystem true [1]).1 = 200 ∧
      (handle2FADisable toyTotp (calm 5) lockedSystem true [1]).2.user [1] = none ∧
      (handle2FAEnroll toyTotp (calm 6) (handle2FADisable toyTotp (calm 5) lockedSystem true [1]).2 true [1]).1 =
        200 := by
  decide

end MeshDesk.Web
