import MeshDesk.Web.Totp

/-! What a rotation of the master key keeps. The current secret and the file of every user are sealed anew, so states
and `ValidateCode` stay as they are, in memory and after a restart. The old secret of a user in `ROTATING` is not
sealed anew, and the new key manager has lost the path of its key file. -/
namespace MeshDesk.Web
open Lib List AList Option
open Proxy (Bytes GoString)
open TOTPKeyManager

structure Conditions.Faultless (c : Conditions) : Prop where
  files : ∀ step, c.fails step = false
  nonces : ∀ use, (c.nonce use).isSome
  masterKey : c.masterKey.isSome

theorem Conditions.Faultless.sealBlob {c : Conditions} (h : c.Faultless) (E : TotpEnv) (km : TOTPKeyManager)
    (use : NonceUse) (username plaintext : GoString) :
    ∃ blob, km.sealBlob E (c.nonce use) username plaintext = some blob := by
  obtain ⟨n, hn⟩ := isSome_iff_exists.mp (h.nonces use)
  exact ⟨_, by rw [hn]; rfl⟩

section Phases
variable {E : TotpEnv} {c : Conditions} {km newKM : TOTPKeyManager} {secrets : Map GoString Bytes}

/-- What phase 2 has for a user: a new ciphertext of the same secret, or nothing where there was no secret. -/
def Renewed (E : TotpEnv) (km newKM : TOTPKeyManager) (username : GoString) (st : TotpState) : Option Bytes → Prop
  | none => st.encryptedSecret = []
  | some encrypted => encrypted ≠ [] ∧ st.encryptedSecret ≠ [] ∧ ∃ plaintext,
      km.openBlob E username st.encryptedSecret = some plaintext ∧ newKM.openBlob E username encrypted = some plaintext

theorem reEncryptSecrets_ok {l : List (Sigma fun _ : GoString => TotpState)} (hl : l.NodupKeys)
    (h : reEncryptSecrets E c km newKM l = .ok secrets) :
    (∀ e ∈ l, Renewed E km newKM e.1 e.2 (secrets.lookup e.1)) ∧ ∀ u ∉ l.keys, secrets.lookup u = none := by
  induction l generalizing secrets with
  | nil =>
    cases h
    exact ⟨by simp, fun u _ => lookup_empty u⟩
  | cons e l ih =>
    obtain ⟨username, st⟩ := e
    obtain ⟨hnotin, hl⟩ := nodupKeys_cons.mp hl
    unfold reEncryptSecrets at h
    split_ifs at h with hempty
    · obtain ⟨hin, hout⟩ := ih hl h
      refine ⟨forall_mem_cons.mpr ⟨?_, hin⟩, fun u hu => hout u fun hmem => hu (mem_cons_of_mem _ hmem)⟩
      rw [hout username hnotin]
      exact hempty
    · split at h
      · cases h
      rename_i plaintext hopen
      split at h
      · cases h
      rename_i encrypted hseal
      cases hrest : reEncryptSecrets E c km newKM l with
      | error err =>
        rw [hrest] at h
        cases h
      | ok rest =>
        rw [hrest] at h
        cases h
        obtain ⟨hin, hout⟩ := ih hl hrest
        refine ⟨forall_mem_cons.mpr ⟨?_, fun e he => ?_⟩, fun u hu => ?_⟩
        · rw [lookup_insert]
          exact ⟨sealBlob_ne_nil hseal, hempty, plaintext, hopen, openBlob_sealBlob hseal⟩
        · rw [lookup_insert_ne (ne_of_mem_of_not_mem (mem_keys_of_mem he) hnotin)]
          exact hin e he
        · rw [keys_cons, mem_cons, not_or] at hu
          rw [lookup_insert_ne hu.1]
          exact hout u hu.2

theorem reEncryptSecrets_isOk (hc : c.Faultless) (newKM : TOTPKeyManager) {l : List (Sigma fun _ : GoString => TotpState)}
    (hopen : ∀ e ∈ l, e.2.encryptedSecret = [] ∨ (km.openBlob E e.1 e.2.encryptedSecret).isSome) :
    ∃ secrets, reEncryptSecrets E c km newKM l = .ok secrets := by
  induction l with
  | nil => exact ⟨∅, rfl⟩
  | cons e l ih =>
    obtain ⟨username, st⟩ := e
    rw [forall_mem_cons] at hopen
    obtain ⟨rest, hrest⟩ := ih hopen.2
    unfold reEncryptSecrets
    split_ifs with hempty
    · exact ⟨rest, hrest⟩
    · obtain ⟨plaintext, hplain⟩ := isSome_iff_exists.mp (hopen.1.resolve_left hempty)
      obtain ⟨encrypted, hseal⟩ := hc.sealBlob E newKM (.secret username) username plaintext
      rw [hplain]
      dsimp only
      rw [hseal, hrest]
      exact ⟨_, rfl⟩

def renew (secrets : Map GoString Bytes) (username : GoString) (st : TotpState) : TotpState :=
  match secrets.lookup username with
  | none => st
  | some encrypted => { st with encryptedSecret := encrypted }

theorem renew_renew (username : GoString) (st : TotpState) :
    renew secrets username (renew secrets username st) = renew secrets username st := by
  unfold renew
  cases secrets.lookup username <;> rfl

theorem lookup_installSecret (users : Map GoString TotpState) (username v : GoString) :
    (installSecret secrets users username).lookup v =
      if v = username then (users.lookup v).map (renew secrets v) else users.lookup v := by
  unfold installSecret renew
  by_cases hv : v = username
  · subst hv
    cases hu : users.lookup v <;> cases secrets.lookup v <;> simp [hu]
  · rw [if_neg hv]
    cases users.lookup username <;> cases secrets.lookup username <;> simp [lookup_insert_ne hv]

/-! ### Phase 2b -/

def Holds (E : TotpEnv) (km : TOTPKeyManager) (username : GoString) (st : TotpState) (blob : Option Bytes) : Prop :=
  ∃ b, blob = some b ∧ km.openBlob E username b = some (E.marshal (toPersistedState st))

variable {d d' : Disk} {us : List GoString}

theorem writeNewBlob_ok {username : GoString} {data : Bytes} (h : d.writeNewBlob c username data = (true, d')) :
    d'.keys = d.keys ∧ d'.enc = d.enc ∧ d'.encNew = d.encNew.insert username data := by
  unfold Disk.writeNewBlob Disk.writeTmp at h
  by_cases htmp : c.fails (.writeTmp username) = true
  · rw [if_pos htmp] at h
    cases h
  · rw [if_neg htmp] at h
    split_ifs at h
    · cases h
    · cases h
      exact ⟨rfl, rfl, rfl⟩

theorem persistToNewFile_ok {users : Map GoString TotpState} {username : GoString}
    (h : persistToNewFile E c km users username d = (true, d')) :
    d'.keys = d.keys ∧ d'.enc = d.enc ∧ (∀ v ≠ username, d'.encNew.lookup v = d.encNew.lookup v) ∧
      ∀ st, users.lookup username = some st → Holds E km username st (d'.encNew.lookup username) := by
  unfold persistToNewFile at h
  cases huser : users.lookup username with
  | none =>
    rw [huser] at h
    cases h
    exact ⟨rfl, rfl, fun v _ => rfl, nofun⟩
  | some st =>
    rw [huser] at h
    dsimp only at h
    split at h
    · cases h
    rename_i blob hseal
    split_ifs at h
    · cases h
    obtain ⟨hkeys, henc, hnew⟩ := writeNewBlob_ok h
    rw [hnew]
    refine ⟨hkeys, henc, fun v hv => lookup_insert_ne hv, ?_⟩
    rintro _ ⟨⟩
    exact ⟨blob, lookup_insert _, openBlob_sealBlob hseal⟩

theorem persistToNewFile_isOk (hc : c.Faultless) (E : TotpEnv) (km : TOTPKeyManager) (users : Map GoString TotpState)
    (username : GoString) (d : Disk) : (persistToNewFile E c km users username d).1 = true := by
  unfold persistToNewFile
  cases users.lookup username with
  | none => rfl
  | some st =>
    obtain ⟨blob, hseal⟩ := hc.sealBlob E km (.state username) username (E.marshal (toPersistedState st))
    dsimp only
    rw [hseal]
    simp [Disk.writeNewBlob, Disk.writeTmp, hc.files]

theorem writeNewFiles_ok {users users' : Map GoString TotpState}
    (h : writeNewFiles E c km secrets us users d = (none, users', d')) :
    d'.keys = d.keys ∧ d'.enc = d.enc ∧
      (∀ v ∉ us, users'.lookup v = users.lookup v ∧ d'.encNew.lookup v = d.encNew.lookup v) ∧
      ∀ v ∈ us, users'.lookup v = (users.lookup v).map (renew secrets v) ∧
        ∀ st, users'.lookup v = some st → Holds E km v st (d'.encNew.lookup v) := by
  induction us generalizing users d with
  | nil =>
    cases h
    exact ⟨rfl, rfl, fun v _ => ⟨rfl, rfl⟩, by simp⟩
  | cons u us ih =>
    unfold writeNewFiles at h
    dsimp only at h
    rcases hfile : persistToNewFile E c km (installSecret secrets users u) u d with ⟨_ | _, d₁⟩
    · rw [hfile] at h
      cases h
    rw [hfile] at h
    obtain ⟨hkeys, henc, hother, hown⟩ := persistToNewFile_ok hfile
    obtain ⟨hkeys', henc', hout, hin⟩ := ih h
    refine ⟨hkeys'.trans hkeys, henc'.trans henc, fun v hv => ?_, fun v hv => ?_⟩
    · rw [mem_cons, not_or] at hv
      rw [(hout v hv.2).1, (hout v hv.2).2, lookup_installSecret, if_neg hv.1, hother v hv.1]
      exact ⟨rfl, rfl⟩
    · by_cases hmem : v ∈ us
      · refine ⟨?_, (hin v hmem).2⟩
        rw [(hin v hmem).1, lookup_installSecret]
        split_ifs
        · cases users.lookup v with
          | none => rfl
          | some st => simp only [map_some, renew_renew]
        · rfl
      · obtain rfl := (mem_cons.mp hv).resolve_right hmem
        rw [(hout v hmem).1, (hout v hmem).2]
        exact ⟨by rw [lookup_installSecret, if_pos rfl], hown⟩

theorem writeNewFiles_isOk (hc : c.Faultless) (E : TotpEnv) (km : TOTPKeyManager) (secrets : Map GoString Bytes)
    (us : List GoString) (users : Map GoString TotpState) (d : Disk) :
    (writeNewFiles E c km secrets us users d).1 = none := by
  induction us generalizing users d with
  | nil => rfl
  | cons u us ih =>
    unfold writeNewFiles
    have hfile := persistToNewFile_isOk hc E km (installSecret secrets users u) u d
    rcases h : persistToNewFile E c km (installSecret secrets users u) u d with ⟨_ | _, d₁⟩
    · rw [h] at hfile
      cases hfile
    · dsimp only
      rw [h]
      exact ih _ _

/-! ### Phase 3 -/

theorem finalizeFiles_ok (h : finalizeFiles c us d = (none, d')) :
    d'.keys = d.keys ∧ (∀ v ∉ us, d'.enc.lookup v = d.enc.lookup v) ∧
      ∀ v ∈ us, (d.encNew.lookup v).isSome ∧ d'.enc.lookup v = d.encNew.lookup v := by
  induction us generalizing d with
  | nil =>
    cases h
    exact ⟨rfl, fun v _ => rfl, by simp⟩
  | cons u us ih =>
    unfold finalizeFiles at h
    split at h
    · cases h
    rename_i blob hblob
    split_ifs at h
    · cases h
    obtain ⟨hkeys, hout, hin⟩ := ih h
    -- a name that came again would find its file gone
    have hnotin : u ∉ us := by
      intro hmem
      have hgone := (hin u hmem).1
      rw [lookup_erase] at hgone
      cases hgone
    refine ⟨hkeys, fun v hv => ?_, forall_mem_cons.mpr ⟨?_, fun v hv => ?_⟩⟩
    · rw [mem_cons, not_or] at hv
      rw [hout v hv.2, lookup_insert_ne hv.1]
    · rw [hout u hnotin, lookup_insert, hblob]
      exact ⟨rfl, rfl⟩
    · have hnew := hin v hv
      rwa [lookup_erase_ne (ne_of_mem_of_not_mem hv hnotin)] at hnew

theorem finalizeFiles_isOk (hc : c.Faultless) (hus : us.Nodup)
    (h : ∀ u ∈ us, (d.encNew.lookup u).isSome) : (finalizeFiles c us d).1 = none := by
  induction us generalizing d with
  | nil => rfl
  | cons u us ih =>
    rw [nodup_cons] at hus
    rw [forall_mem_cons] at h
    obtain ⟨blob, hblob⟩ := isSome_iff_exists.mp h.1
    unfold finalizeFiles
    rw [hblob]
    dsimp only
    rw [if_neg (by simp [hc.files])]
    refine ih hus.2 fun v hv => ?_
    rw [lookup_erase_ne (ne_of_mem_of_not_mem hv hus.1)]
    exact h.2 v hv

theorem suffix_ne (path : GoString) :
    path ++ masterKeyNewSuffix ≠ path ∧ path ++ masterKeyNewSuffix ≠ path ++ masterKeyOldSuffix := by
  refine ⟨fun h => ?_, fun h => ?_⟩
  · have hlen := congrArg length h
    rw [length_append] at hlen
    have hsuffix : masterKeyNewSuffix.length = 4 := by decide
    omega
  · have hsuffix := append_cancel_left h
    revert hsuffix
    decide

theorem swapKeys_ok {path : GoString} (h : swapKeys c path d = (none, d')) :
    d'.enc = d.enc ∧ d'.keys.lookup path = d.keys.lookup (path ++ masterKeyNewSuffix) := by
  unfold swapKeys at h
  split at h
  · cases h
  rename_i d₁ hbackup
  split_ifs at hbackup
  split at h
  · rename_i d₂ hactivate
    split_ifs at hactivate
    cases h
    obtain ⟨old, -, rfl⟩ := map_eq_some_iff.mp hbackup
    obtain ⟨key, hkey, rfl⟩ := map_eq_some_iff.mp hactivate
    rw [lookup_insert_ne (suffix_ne path).2, lookup_erase_ne (suffix_ne path).1] at hkey
    exact ⟨rfl, by rw [lookup_insert, hkey]⟩
  · cases h

theorem swapKeys_isOk (hc : c.Faultless) {path : GoString} (hold : (d.keys.lookup path).isSome)
    (hnew : (d.keys.lookup (path ++ masterKeyNewSuffix)).isSome) : (swapKeys c path d).1 = none := by
  obtain ⟨old, hold⟩ := isSome_iff_exists.mp hold
  obtain ⟨key, hkey⟩ := isSome_iff_exists.mp hnew
  unfold swapKeys Disk.renameKey
  simp [hc.files, hold, hkey, lookup_insert_ne (suffix_ne path).2, lookup_erase_ne (suffix_ne path).1]

end Phases

/-! ### The whole rotation -/

/-- What a successful rotation from the manager `km` to `newKM` did. -/
structure Rotated (E : TotpEnv) (sys sys' : System) (km newKM : TOTPKeyManager) (secrets : Map GoString Bytes)
    (masterKey : Bytes) : Prop where
  persistent : sys'.store.persistent = true
  manager : sys.store.km = some km
  newManager : sys'.store.km = some newKM
  key : newKM.encKey = E.hkdf masterKey
  path : newKM.path = []
  key_length : masterKey.length = masterSecretSize
  keyFile : sys'.disk.keys.lookup km.path = some masterKey
  users : ∀ u, sys'.user u = (sys.user u).map (renew secrets u)
  renewed : ∀ u st, sys.user u = some st → Renewed E km newKM u st (secrets.lookup u)
  files : ∀ u st, sys'.user u = some st → Holds E newKM u st (sys'.disk.enc.lookup u)
  others : ∀ u, sys.user u = none → sys'.disk.enc.lookup u = sys.disk.enc.lookup u

section Rotation
variable {E : TotpEnv} {c : Conditions} {sys sys' : System} {km newKM : TOTPKeyManager}

variable {masterKey : Bytes} {secrets : Map GoString Bytes} {u : GoString}

theorem newTOTPKeyManagerFromBytes_eq (E : TotpEnv) (h : masterKey.length = masterSecretSize) :
    newTOTPKeyManagerFromBytes E masterKey = some ⟨E.hkdf masterKey, []⟩ := by
  unfold newTOTPKeyManagerFromBytes
  rw [if_neg (by omega), take_of_length_le (by omega)]

theorem mem_keys_iff (sys : System) (u : GoString) : u ∈ sys.store.users.entries.keys ↔ (sys.user u).isSome := by
  rw [System.user, lookup_isSome]
  rfl

theorem rotateFrom_ok (hpersist : sys.store.persistent = true) (hkm : sys.store.km = some km)
    (h : sys.rotateFrom E c km = (none, sys')) :
    ∃ masterKey secrets, c.masterKey = some masterKey ∧
      Rotated E sys sys' km ⟨E.hkdf masterKey.val, []⟩ secrets masterKey.val := by
  unfold System.rotateFrom at h
  split at h
  · cases h
  rename_i masterKey hmaster
  split_ifs at h
  · cases h
  rw [newTOTPKeyManagerFromBytes_eq E masterKey.property] at h
  dsimp only at h
  split at h
  · cases h
  rename_i secrets hsecrets
  split at h
  · cases h
  rename_i users d hwrite
  split at h
  · cases h
  rename_i d₁ hfinal
  rcases hswap : swapKeys c km.path d₁ with ⟨err, d₂⟩
  rw [hswap] at h
  cases h
  obtain ⟨hin, -⟩ := reEncryptSecrets_ok sys.store.users.nodupKeys hsecrets
  obtain ⟨hkeys, henc, hout, hnew⟩ := writeNewFiles_ok hwrite
  obtain ⟨hkeys₁, hout₁, hin₁⟩ := finalizeFiles_ok hfinal
  obtain ⟨henc₂, hkey⟩ := swapKeys_ok hswap
  have husers : ∀ u, users.lookup u = (sys.user u).map (renew secrets u) := by
    intro u
    by_cases hu : u ∈ sys.store.users.entries.keys
    · exact (hnew u hu).1
    · rw [(hout u hu).1]
      rw [mem_keys_iff, not_isSome_iff_eq_none] at hu
      rw [hu]
      exact hu
  refine ⟨masterKey, secrets, hmaster, hpersist, hkm, rfl, rfl, rfl, masterKey.property, ?_, husers,
    fun u st hu => ?_, fun u st hu => ?_, fun u hu => ?_⟩
  · rw [hkey, hkeys₁, hkeys, lookup_insert]
  · exact hin ⟨u, st⟩ (Map.mem_entries_iff.mpr hu)
  · obtain ⟨old, hold, -⟩ := map_eq_some_iff.mp ((husers u).symm.trans hu)
    have hmem : u ∈ sys.store.users.entries.keys := by
      rw [mem_keys_iff, hold]
      rfl
    rw [henc₂, (hin₁ u hmem).2]
    exact (hnew u hmem).2 st hu
  · have hu' : u ∉ sys.store.users.entries.keys := by
      rw [mem_keys_iff, hu]
      exact nofun
    rw [henc₂, hout₁ u hu', henc]

theorem rotateMasterKey_ok (h : sys.rotateMasterKey E c = (none, sys')) :
    ∃ km masterKey secrets, km.path ≠ [] ∧ c.masterKey = some masterKey ∧
      Rotated E sys sys' km ⟨E.hkdf masterKey.val, []⟩ secrets masterKey.val := by
  unfold System.rotateMasterKey at h
  split_ifs at h with hpersist
  · cases h
  split at h
  · cases h
  rename_i km hkm
  split_ifs at h with hpath
  · cases h
  obtain ⟨masterKey, secrets, hmaster, hrot⟩ := rotateFrom_ok (by simpa using hpersist) hkm h
  exact ⟨km, masterKey, secrets, hpath, hmaster, hrot⟩

theorem rotateFrom_succeeds (hc : c.Faultless) {masterKey : {bs : Bytes // bs.length = masterSecretSize}}
    (hmaster : c.masterKey = some masterKey) (hkey : (sys.disk.keys.lookup km.path).isSome)
    (hsecrets : reEncryptSecrets E c km ⟨E.hkdf masterKey.val, []⟩ sys.store.users.entries = .ok secrets) :
    (sys.rotateFrom E c km).1 = none := by
  unfold System.rotateFrom
  rw [hmaster]
  dsimp only
  rw [if_neg (by simp [hc.files]), newTOTPKeyManagerFromBytes_eq E masterKey.property]
  dsimp only
  rw [hsecrets]
  dsimp only
  generalize hd : ({ sys.disk with keys := _ } : Disk) = d
  have hwritten := writeNewFiles_isOk hc E ⟨E.hkdf masterKey.val, []⟩ secrets
    sys.store.users.entries.keys sys.store.users d
  rcases hwrite : writeNewFiles E c ⟨E.hkdf masterKey.val, []⟩ secrets sys.store.users.entries.keys
    sys.store.users d with ⟨err, users, d₁⟩
  rw [hwrite] at hwritten
  cases hwritten
  dsimp only
  obtain ⟨hkeys, -, -, hnew⟩ := writeNewFiles_ok hwrite
  have hfiles : ∀ u ∈ sys.store.users.entries.keys, (d₁.encNew.lookup u).isSome := by
    intro u hu
    obtain ⟨huser, hholds⟩ := hnew u hu
    obtain ⟨st, hst⟩ := isSome_iff_exists.mp ((mem_keys_iff sys u).mp hu)
    rw [show sys.store.users.lookup u = some st from hst, map_some] at huser
    obtain ⟨b, hb, -⟩ := hholds _ huser
    rw [hb]
    rfl
  have hfinished := finalizeFiles_isOk hc sys.store.users.nodupKeys hfiles
  rcases hfinal : finalizeFiles c sys.store.users.entries.keys d₁ with ⟨err, d₂⟩
  rw [hfinal] at hfinished
  cases hfinished
  refine swapKeys_isOk hc ?_ ?_ <;> rw [(finalizeFiles_ok hfinal).1, hkeys, ← hd]
  · rwa [lookup_insert_ne (Ne.symm (suffix_ne km.path).1)]
  · rw [lookup_insert]
    rfl

theorem rotateMasterKey_eq (hpersist : sys.store.persistent = true) (hkm : sys.store.km = some km)
    (hpath : km.path ≠ []) : sys.rotateMasterKey E c = sys.rotateFrom E c km := by
  unfold System.rotateMasterKey
  rw [if_neg (by simp [hpersist]), hkm]
  dsimp only
  rw [if_neg hpath]

theorem rotateMasterKey_succeeds (hc : c.Faultless) (hpersist : sys.store.persistent = true)
    (hkm : sys.store.km = some km) (hpath : km.path ≠ []) (hkey : (sys.disk.keys.lookup km.path).isSome)
    (hopen : ∀ u st, sys.user u = some st →
      st.encryptedSecret = [] ∨ (km.openBlob E u st.encryptedSecret).isSome) :
    (sys.rotateMasterKey E c).1 = none := by
  obtain ⟨masterKey, hmaster⟩ := isSome_iff_exists.mp hc.masterKey
  obtain ⟨secrets, hsecrets⟩ := reEncryptSecrets_isOk hc ⟨E.hkdf masterKey.val, []⟩
    (fun e he => hopen e.1 e.2 (Map.mem_entries_iff.mp he))
  rw [rotateMasterKey_eq hpersist hkm hpath]
  exact rotateFrom_succeeds hc hmaster hkey hsecrets

/-! ### After a restart -/

theorem start_eq (hc : c.Faultless) {cfg : StartConfig} (hdir : cfg.storeDir = true) {d : Disk}
    (hkey : d.keys.lookup cfg.path = some masterKey) (hlen : masterKey.length = masterSecretSize) :
    (start E c cfg d).store.persistent = true ∧
      (start E c cfg d).store.km = some ⟨E.hkdf masterKey, cfg.path⟩ ∧
      (start E c cfg d).disk.keys = d.keys ∧ (start E c cfg d).disk.enc = d.enc ∧
      ∀ u, (start E c cfg d).user u = (d.enc.lookup u).bind (fun blob =>
        (((⟨E.hkdf masterKey, cfg.path⟩ : TOTPKeyManager).openBlob E u blob).bind E.unmarshal).map
          fromPersistedState) := by
  have hkm : newTOTPKeyManager E c cfg d = (some ⟨E.hkdf masterKey, cfg.path⟩, d) := by
    unfold newTOTPKeyManager
    rw [if_neg (by simp [hc.files]), hkey]
    dsimp only
    rw [if_neg (by simp [hc.files, hlen])]
  unfold start
  rw [hkm]
  dsimp only
  unfold newPersistentTOTPStore
  rw [if_pos hdir, if_neg (by simp [hc.files]), getD_some]
  refine ⟨rfl, rfl, rfl, rfl, fun u => ?_⟩
  rw [System.user, Map.lookup_filterMapEntries]
  unfold loadUser
  simp [hc.files]

/-- Two systems with the same user, up to ciphertexts of one secret. -/
def Alike (E : TotpEnv) (u : GoString) (sys sys' : System) : Prop :=
  (sys.user u = none ∧ sys'.user u = none) ∨
    ∃ st encrypted, sys.user u = some st ∧ sys'.user u = some { st with encryptedSecret := encrypted } ∧
      sys'.store.decryptSecret E u encrypted = sys.store.decryptSecret E u st.encryptedSecret

theorem Alike.state (h : Alike E u sys sys') :
    (sys'.user u).map TotpState.state = (sys.user u).map TotpState.state := by
  rcases h with ⟨h, h'⟩ | ⟨st, encrypted, h, h', -⟩ <;> rw [h, h']
  rfl

theorem validateCode_fst (E : TotpEnv) (c : Conditions) (sys : System) (u code : GoString) :
    (sys.validateCode E c u code).1 = (sys.user u).any (fun st =>
      !(decide (st.state = .disabled ∨ st.state = .disabledByAdmin)) && !System.lockedAt st c.now &&
        (sys.store.decryptSecret E u st.encryptedSecret).any (fun plaintext => validateTOTP E plaintext code c.now)) := by
  unfold System.validateCode
  cases sys.user u with
  | none => rfl
  | some st =>
    dsimp only [any_some]
    by_cases hstate : st.state = .disabled ∨ st.state = .disabledByAdmin
    · simp [hstate]
    · by_cases hlocked : System.lockedAt st c.now = true
      · simp [hstate, hlocked]
      · rw [if_neg hstate, if_neg hlocked]
        cases sys.store.decryptSecret E u st.encryptedSecret with
        | none => simp
        | some plaintext =>
          dsimp only
          split_ifs with hvalid <;> simp [hstate, hlocked, hvalid]

theorem Alike.validateCode (h : Alike E u sys sys') (c : Conditions) (code : GoString) :
    (sys'.validateCode E c u code).1 = (sys.validateCode E c u code).1 := by
  rw [validateCode_fst, validateCode_fst]
  rcases h with ⟨h, h'⟩ | ⟨st, encrypted, h, h', hplain⟩
  · rw [h, h']
    rfl
  · rw [h, h']
    simp only [any_some, System.lockedAt, hplain]

/-- Without a rotation of its own a user has no old secret to check or to go back to. -/
theorem Alike.not_rotating (h : Alike E u sys sys')
    (hstate : (sys.user u).map TotpState.state ≠ some .rotating) (c c' : Conditions) (code : GoString) :
    sys'.validateCodeWithOld E c u code = sys.validateCodeWithOld E c u code ∧
      ((sys'.cancelRotation E c u).2.validateCode E c' u code).1 =
        ((sys.cancelRotation E c u).2.validateCode E c' u code).1 := by
  have hcode := h.validateCode c' code
  rcases h with ⟨h, h'⟩ | ⟨st, encrypted, h, h', hplain⟩
  · simp only [System.validateCodeWithOld, System.cancelRotation, h, h']
    exact ⟨trivial, hcode⟩
  · rw [h, map_some] at hstate
    have hne : st.state ≠ .rotating := fun heq => hstate (congrArg some heq)
    simp only [System.validateCodeWithOld, System.cancelRotation, h, h']
    simp only [ne_eq, hne, not_false_eq_true, true_or, if_true]
    exact ⟨trivial, hcode⟩

theorem Rotated.alike {km newKM : TOTPKeyManager}
    (h : Rotated E sys sys' km newKM secrets masterKey) (u : GoString) : Alike E u sys sys' := by
  have huser := h.users u
  cases hold : sys.user u with
  | none =>
    rw [hold] at huser
    exact .inl ⟨hold, huser⟩
  | some st =>
    rw [hold, map_some] at huser
    have hrenewed := h.renewed u st hold
    refine .inr ⟨st, (renew secrets u st).encryptedSecret, hold, ?_, ?_⟩
    · rw [huser]
      unfold renew
      cases secrets.lookup u <;> rfl
    · rw [TOTPStore.decryptSecret, h.newManager, TOTPStore.decryptSecret, h.manager]
      unfold renew
      cases hsecret : secrets.lookup u with
      | none =>
        rw [hsecret] at hrenewed
        rw [show st.encryptedSecret = [] from hrenewed]
        rfl
      | some encrypted =>
        rw [hsecret] at hrenewed
        obtain ⟨-, -, plaintext, hopen, hnew⟩ := hrenewed
        dsimp only
        rw [hopen, hnew]

theorem Rotated.restart {cfg : StartConfig}
    (h : Rotated E sys sys' km newKM secrets masterKey) (hcfg : cfg.path = km.path) (hdir : cfg.storeDir = true)
    (hc : c.Faultless)
    (hfresh : ∀ u blob, sys.user u = none → sys.disk.enc.lookup u = some blob → newKM.openBlob E u blob = none) :
    (start E c cfg sys'.disk).store.persistent = true ∧
      (start E c cfg sys'.disk).store.km = some ⟨newKM.encKey, km.path⟩ ∧
      (start E c cfg sys'.disk).disk.keys = sys'.disk.keys ∧
      ∀ u, (start E c cfg sys'.disk).user u = sys'.user u := by
  have hkey : sys'.disk.keys.lookup cfg.path = some masterKey := by rw [hcfg, h.keyFile]
  obtain ⟨hpersist, hkm, hkeys, -, husers⟩ := start_eq hc hdir hkey h.key_length
  refine ⟨hpersist, by rw [hkm, h.key, hcfg], hkeys, fun u => ?_⟩
  have hopen : (⟨E.hkdf masterKey, cfg.path⟩ : TOTPKeyManager).openBlob E = newKM.openBlob E :=
    openBlob_congr h.key.symm
  rw [husers, hopen]
  cases huser : sys'.user u with
  | some st =>
    obtain ⟨blob, hblob, hplain⟩ := h.files u st huser
    rw [hblob, bind_some, hplain, bind_some, E.unmarshal_marshal, map_some,
      fromPersistedState_toPersistedState]
  | none =>
    have hold : sys.user u = none := by
      have hmap := h.users u
      rw [huser] at hmap
      exact map_eq_none_iff.mp hmap.symm
    rw [h.others u hold]
    cases hblob : sys.disk.enc.lookup u with
    | none => rfl
    | some blob =>
      rw [bind_some, hfresh u blob hold hblob]
      rfl

end Rotation

/-! ### A store to run -/

def intBytes (z : ℤ) : Bytes := (if z < 0 then 1 else 0) :: toBE (z.natAbs.log2 / 8 + 1) z.natAbs

def ofIntBytes : Bytes → ℤ
  | [] => 0
  | sign :: bs => if sign = 1 then -ofBE bs else ofBE bs

theorem ofIntBytes_intBytes (z : ℤ) : ofIntBytes (intBytes z) = z := by
  have hlt : z.natAbs < 256 ^ (z.natAbs.log2 / 8 + 1) := by
    calc z.natAbs < 2 ^ (z.natAbs.log2 + 1) := Nat.lt_log2_self
      _ ≤ 2 ^ (8 * (z.natAbs.log2 / 8 + 1)) := Nat.pow_le_pow_right (by decide) (by omega)
      _ = 256 ^ (z.natAbs.log2 / 8 + 1) := by rw [Nat.pow_mul]
  unfold intBytes ofIntBytes
  dsimp only
  rw [ofBE_toBE_of_lt hlt]
  split_ifs <;> first | omega | contradiction

def optTimeBytes (t : Option Proxy.Time) : Bytes := (t.map intBytes).getD []

def ofOptTimeBytes (bs : Bytes) : Option Proxy.Time := if bs = [] then none else some (ofIntBytes bs)

theorem ofOptTimeBytes_optTimeBytes (t : Option Proxy.Time) : ofOptTimeBytes (optTimeBytes t) = t := by
  cases t with
  | none => rfl
  | some t =>
    unfold ofOptTimeBytes optTimeBytes
    rw [map_some, getD_some, if_neg (by simp [intBytes]), ofIntBytes_intBytes]

def stateBytes : EnrollmentState → Bytes
  | .disabled => [0]
  | .pending => [1]
  | .verified => [2]
  | .rotating => [3]
  | .disabledByAdmin => [4]

def ofStateBytes (bs : Bytes) : EnrollmentState :=
  if bs = [1] then .pending
  else if bs = [2] then .verified
  else if bs = [3] then .rotating
  else if bs = [4] then .disabledByAdmin
  else .disabled

def plainFields (ps : PersistedState) : List Bytes :=
  intBytes ps.version :: ps.encryptedSecret :: ps.oldEncryptedSecret :: stateBytes ps.state ::
    optTimeBytes ps.pendingSince :: intBytes ps.failedAttempts :: optTimeBytes ps.lockedUntil :: ps.recoveryCodes

def ofPlainFields : List Bytes → Option PersistedState
  | version :: secret :: old :: state :: since :: failed :: locked :: codes =>
    some ⟨ofIntBytes version, secret, old, codes, ofStateBytes state, ofOptTimeBytes since, ofIntBytes failed,
      ofOptTimeBytes locked⟩
  | _ => none

theorem ofPlainFields_plainFields (ps : PersistedState) : ofPlainFields (plainFields ps) = some ps := by
  have hstate : ofStateBytes (stateBytes ps.state) = ps.state := by cases ps.state <;> rfl
  simp only [plainFields, ofPlainFields, ofIntBytes_intBytes, ofOptTimeBytes_optTimeBytes, hstate]

/-- The tag names the key and the start of the username. -/
def toyTag (key ad : Bytes) : Bytes := (ad.take 4 ++ key ++ List.replicate 16 0).take 16

theorem toyTag_length (key ad : Bytes) : (toyTag key ad).length = 16 := by
  refine length_take_of_le ?_
  rw [length_append, length_replicate]
  omega

def toyAead : Proxy.Aead where
  sealBytes key _ plaintext ad := plaintext ++ toyTag key ad
  openBytes key _ ciphertext ad :=
    if ciphertext.drop (ciphertext.length - 16) = toyTag key ad then some (ciphertext.take (ciphertext.length - 16))
    else none
  open_seal key nonce plaintext ad := by simp [toyTag_length]
  seal_length key nonce plaintext ad := by simp [toyTag_length]

/-- The key is the master secret, a code repeats the start of the secret, and states are fields in hexadecimal. -/
def toyTotp : TotpEnv where
  aead := toyAead
  hkdf := id
  hmac key _ := (key ++ List.replicate 32 0).take 32
  sha256 data := (data ++ List.replicate 32 0).take 32
  sha256_length data := by simp
  encodeBase32 := id
  decodeBase32 := some
  marshal ps := [0x2c].intercalate ((plainFields ps).map KeyExchange.hexEncode)
  unmarshal data := ((data.splitOn 0x2c).mapM KeyExchange.hexDecode).bind ofPlainFields
  unmarshal_marshal ps := by
    have hhex : ∀ bs, (0x2c : UInt8) ∉ KeyExchange.hexEncode bs := fun bs => KeyExchange.hexEncode_ne (by decide)
    have hfields : ∀ l : List Bytes, (l.map KeyExchange.hexEncode).mapM KeyExchange.hexDecode = some l := by
      intro l
      induction l with
      | nil => rfl
      | cons bs l ih => simp [List.mapM_cons, KeyExchange.hexDecode_hexEncode, ih]
    rw [List.splitOn_intercalate _ (by simp [hhex]) (by simp [plainFields]), hfields]
    exact ofPlainFields_plainFields ps

def calm (n : UInt8) : Conditions where
  now := 1000000 * Proxy.second
  nonce _ := some ⟨List.replicate gcmNonceSize n, List.length_replicate⟩
  secret := some (List.replicate 4 n)
  recoveryCodes := []
  masterKey := some ⟨List.replicate masterSecretSize n, List.length_replicate⟩

theorem calm_faultless (n : UInt8) : (calm n).Faultless := ⟨fun _ => rfl, fun _ => rfl, rfl⟩

def toyStart : StartConfig := { path := [47], path_ne_nil := by decide }

def toyCode (n : UInt8) : GoString := computeTOTPCode toyTotp (List.replicate 4 n) 0

def enrolledSystem : System :=
  ((start toyTotp (calm 1) toyStart {}).enroll toyTotp (calm 2) [1]).2.validateCode toyTotp (calm 2) [1] (toyCode 2) |>.2

def rotatedSystem : System := (enrolledSystem.rotateMasterKey toyTotp (calm 9)).2

/-- The user 1 is about to change from the secret 2 to the secret 3. -/
def rotatingSystem : System := (enrolledSystem.initiateRotation toyTotp (calm 3) [1]).2

def brokenSystem : System := (rotatingSystem.rotateMasterKey toyTotp (calm 9)).2

end MeshDesk.Web
