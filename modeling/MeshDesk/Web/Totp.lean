import MeshDesk.KeyExchange.Exchange

/-! The store of second factors: per-user enrollment, secrets sealed under a node-local master key, one sealed file
per user, rotation of secrets and of the master key, and restarts. Usernames are file names. A failing file operation
has no effect; a call meets its failures, random draws and the clock as `Conditions`. -/
namespace MeshDesk.Web
open Lib
open Proxy (Bytes GoString Time Duration second Aead)
open KeyExchange (ascii)

def totpPeriod : ℤ := 30

def totpSkew : ℤ := 1

def maxFailedTOTP : ℤ := 5

def totpLockout : Duration := 30 * second

def pendingTTL : Duration := 10 * 60 * second

inductive EnrollmentState
  | disabled
  | pending
  | verified
  | rotating
  | disabledByAdmin
  deriving DecidableEq

def EnrollmentState.text : EnrollmentState → String
  | disabled => "DISABLED"
  | pending => "PENDING"
  | verified => "VERIFIED"
  | rotating => "ROTATING"
  | disabledByAdmin => "DISABLED_BY_ADMIN"

/-- Times count nanoseconds from Go's zero time, which stands for no time. -/
structure TotpState where
  encryptedSecret : Bytes
  oldEncryptedSecret : Bytes := []
  recoveryCodes : List GoString := []
  state : EnrollmentState
  pendingSince : Time := 0
  failedAttempts : ℤ := 0
  lockedUntil : Time := 0
  deriving DecidableEq

/-! ### The form on disk -/

structure PersistedState where
  version : ℤ
  encryptedSecret : Bytes
  oldEncryptedSecret : Bytes
  recoveryCodes : List GoString
  state : EnrollmentState
  pendingSince : Option Time
  failedAttempts : ℤ
  lockedUntil : Option Time
  deriving DecidableEq

def persistedStateVersion : ℤ := 1

def toPersistedState (st : TotpState) : PersistedState where
  version := persistedStateVersion
  encryptedSecret := st.encryptedSecret
  oldEncryptedSecret := st.oldEncryptedSecret
  recoveryCodes := st.recoveryCodes
  state := st.state
  pendingSince := if st.pendingSince = 0 then none else some st.pendingSince
  failedAttempts := st.failedAttempts
  lockedUntil := if st.lockedUntil = 0 then none else some st.lockedUntil

def fromPersistedState (ps : PersistedState) : TotpState where
  encryptedSecret := ps.encryptedSecret
  oldEncryptedSecret := ps.oldEncryptedSecret
  recoveryCodes := ps.recoveryCodes
  state := ps.state
  pendingSince := ps.pendingSince.getD 0
  failedAttempts := ps.failedAttempts
  lockedUntil := ps.lockedUntil.getD 0

@[simp] theorem fromPersistedState_toPersistedState (st : TotpState) :
    fromPersistedState (toPersistedState st) = st := by
  have htime : ∀ t : Time, (if t = 0 then none else some t).getD 0 = t := by
    intro t
    split_ifs with ht
    · exact ht.symm
    · rfl
  simp only [fromPersistedState, toPersistedState, htime]

/-- What the store computes with. JSON gives back what it was made from. -/
structure TotpEnv where
  aead : Aead
  hkdf : Bytes → Bytes
  hmac : (key data : Bytes) → Bytes
  sha256 : Bytes → Bytes
  sha256_length : ∀ data, (sha256 data).length = 32
  encodeBase32 : Bytes → GoString
  decodeBase32 : GoString → Option Bytes
  marshal : PersistedState → Bytes
  unmarshal : Bytes → Option PersistedState
  unmarshal_marshal : ∀ ps, unmarshal (marshal ps) = some ps

/-! ### Codes -/

def unixEpoch : ℤ := 62135596800

def unixSeconds (t : Time) : ℤ := t / second - unixEpoch

def sixDigits (n : ℕ) : GoString := (List.range 6).map (fun i => UInt8.ofNat (48 + n / 10 ^ (5 - i) % 10))

def computeTOTPCode (E : TotpEnv) (secret : Bytes) (counter : UInt64) : GoString :=
  let hash := E.hmac secret (toBE 8 counter.toNat)
  let offset := (hash.getLastD 0).toNat % 16
  let byte (i : ℕ) : ℕ := (hash.getD (offset + i) 0).toNat
  let binCode := byte 0 % 128 * 2 ^ 24 + byte 1 * 2 ^ 16 + byte 2 * 2 ^ 8 + byte 3
  sixDigits (binCode % 1000000)

def validateTOTP (E : TotpEnv) (secretBase32 code : GoString) (t : Time) : Bool :=
  match E.decodeBase32 secretBase32 with
  | none => false
  | some secret =>
    let counter := UInt64.ofInt ((unixSeconds t).tdiv totpPeriod)
    [-totpSkew, 0, totpSkew].any (fun offset => computeTOTPCode E secret (counter + UInt64.ofInt offset) = code)

/-! ### Conditions of a call -/

def masterSecretSize : ℕ := 32

def gcmNonceSize : ℕ := 12

inductive FileStep
  | makeUsersDir
  | readUsersDir
  | writeTmp (username : GoString)
  | renameTmp (username : GoString)
  | removeTmp (username : GoString)
  | removeEnc (username : GoString)
  | readEnc (username : GoString)
  | renameNew (username : GoString)
  | statKey
  | readKey
  | makeKeyDir
  | writeKey
  | writeNewKey
  | removeNewKey
  | backupKey
  | activateKey
  | restoreKey
  deriving DecidableEq

inductive NonceUse
  | secret (username : GoString)
  | state (username : GoString)

/-- A nonce is `none` if the random source fails. -/
structure Conditions where
  now : Time
  fails : FileStep → Bool := fun _ => false
  nonce : NonceUse → Option {bs : Bytes // bs.length = gcmNonceSize}
  secret : Option Bytes
  recoveryCodes : List GoString
  masterKey : Option {bs : Bytes // bs.length = masterSecretSize}

/-! ### Key managers -/

/-- `path` is empty for a manager made from bytes. -/
structure TOTPKeyManager where
  encKey : Bytes
  path : GoString
  deriving DecidableEq

def newTOTPKeyManagerFromBytes (E : TotpEnv) (masterSecret : Bytes) : Option TOTPKeyManager :=
  if masterSecret.length < masterSecretSize then none else some ⟨E.hkdf (masterSecret.take masterSecretSize), []⟩

namespace TOTPKeyManager

def sealBlob (E : TotpEnv) (km : TOTPKeyManager) (nonce : Option {bs : Bytes // bs.length = gcmNonceSize})
    (username plaintext : GoString) : Option Bytes :=
  nonce.map (fun n => n.val ++ E.aead.sealBytes km.encKey n.val plaintext username)

def openBlob (E : TotpEnv) (km : TOTPKeyManager) (username : GoString) (ciphertext : Bytes) : Option GoString :=
  if ciphertext.length < gcmNonceSize then none
  else E.aead.openBytes km.encKey (ciphertext.take gcmNonceSize) (ciphertext.drop gcmNonceSize) username

variable {E : TotpEnv} {km : TOTPKeyManager}

theorem openBlob_sealBlob {nonce : Option {bs : Bytes // bs.length = gcmNonceSize}}
    {username plaintext : GoString} {blob : Bytes} (h : km.sealBlob E nonce username plaintext = some blob) :
    km.openBlob E username blob = some plaintext := by
  obtain ⟨n, -, rfl⟩ := Option.map_eq_some_iff.mp h
  have hlen : ¬(n.val ++ E.aead.sealBytes km.encKey n.val plaintext username).length < gcmNonceSize := by
    rw [List.length_append, n.property]
    omega
  rw [openBlob, if_neg hlen, List.take_left' n.property, List.drop_left' n.property]
  exact E.aead.open_seal _ _ _ _

theorem sealBlob_ne_nil {nonce : Option {bs : Bytes // bs.length = gcmNonceSize}}
    {username plaintext : GoString} {blob : Bytes} (h : km.sealBlob E nonce username plaintext = some blob) :
    blob ≠ [] := by
  obtain ⟨n, -, rfl⟩ := Option.map_eq_some_iff.mp h
  intro hnil
  have hlen := congrArg List.length (List.append_eq_nil_iff.mp hnil).1
  rw [n.property] at hlen
  cases hlen

theorem openBlob_congr {km' : TOTPKeyManager} (h : km.encKey = km'.encKey) :
    km.openBlob E = km'.openBlob E := by
  funext username ciphertext
  rw [openBlob, openBlob, h]

end TOTPKeyManager

/-! ### Disk -/

/-- The master key files by path, and the files `<username>.enc`, `.enc.new` and `.tmp` of the users directory. -/
structure Disk where
  keys : Map GoString Bytes := ∅
  enc : Map GoString Bytes := ∅
  encNew : Map GoString Bytes := ∅
  tmp : Map GoString Bytes := ∅

namespace Disk

/-- The tmp file, written before every other file of a user; `none` with the disk that a failure leaves. -/
def writeTmp (d : Disk) (c : Conditions) (username : GoString) (data : Bytes) : Option Disk :=
  if c.fails (.writeTmp username) then none else some { d with tmp := d.tmp.insert username data }

variable (d : Disk) (c : Conditions) (username : GoString)

def dropTmp : Disk :=
  if c.fails (.removeTmp username) then d else { d with tmp := d.tmp.erase username }

def writeBlobAtomic (data : Bytes) : Bool × Disk :=
  match d.writeTmp c username data with
  | none => (false, d)
  | some d =>
    if c.fails (.renameTmp username) then (false, d.dropTmp c username)
    else (true, { d with tmp := d.tmp.erase username, enc := d.enc.insert username data })

def writeNewBlob (data : Bytes) : Bool × Disk :=
  match d.writeTmp c username data with
  | none => (false, d)
  | some d =>
    if c.fails (.renameTmp username) then (false, d.dropTmp c username)
    else (true, { d with tmp := d.tmp.erase username, encNew := d.encNew.insert username data })

def renameKey (src dst : GoString) : Option Disk :=
  (d.keys.lookup src).map (fun data => { d with keys := (d.keys.erase src).insert dst data })

end Disk

/-! ### The store -/

/-- `persistent` is that a store directory is set. -/
structure TOTPStore where
  users : Map GoString TotpState := ∅
  km : Option TOTPKeyManager
  persistent : Bool

structure System where
  store : TOTPStore
  disk : Disk

inductive StoreError
  | alreadyEnrolled (username : GoString)
  | disabledByAdmin (username : GoString)
  | generateSecret
  | encryptSecret
  | notEnrolled (username : GoString)
  | notVerified (state : EnrollmentState)
  | notRotating (username : GoString)
  | decryptNew
  | invalidCode
  | needsStoreDir
  | needsKeyManager
  | needsKeyFile
  | generateKey
  | writeKey
  | makeKeyManager
  | decryptUser (username : GoString)
  | encryptUser (username : GoString)
  | writeBlob (username : GoString)
  | finalize (username : GoString)
  | backupKey
  | activateKey
  deriving DecidableEq

/-- The message, without the error it wraps; `name` prints a username. -/
def StoreError.text (name : GoString → String) : StoreError → String
  | alreadyEnrolled u => "TOTP already enrolled for user " ++ name u
  | disabledByAdmin u => "TOTP enrollment disabled by admin for user " ++ name u
  | generateSecret => "generate TOTP secret"
  | encryptSecret => "encrypt TOTP secret"
  | notEnrolled u => "no TOTP enrollment for user " ++ name u
  | notVerified st => "rotation can only be initiated from VERIFIED state, current: " ++ st.text
  | notRotating u => "not in rotation state for user " ++ name u
  | decryptNew => "decrypt new secret"
  | invalidCode => "invalid TOTP code for rotation confirmation"
  | needsStoreDir => "master key rotation requires a persistent store (storeDir must be set)"
  | needsKeyManager => "master key rotation requires a key manager"
  | needsKeyFile => "master key rotation requires a file-based key manager"
  | generateKey => "generate new master key"
  | writeKey => "write new master key"
  | makeKeyManager => "create new key manager"
  | decryptUser u => "decrypt " ++ name u ++ " during rotation"
  | encryptUser u => "re-encrypt " ++ name u ++ " during rotation"
  | writeBlob u => "write new blob for " ++ name u
  | finalize u => "finalize rotation for " ++ name u
  | backupKey => "backup old master key"
  | activateKey => "activate new master key"

structure EnrollResult where
  secret : GoString
  recoveryCodes : List GoString
  state : EnrollmentState
  deriving DecidableEq

namespace TOTPStore

/-- Write the user's file, or remove it if the user is gone. Failures are logged only. -/
def persist (E : TotpEnv) (c : Conditions) (s : TOTPStore) (username : GoString) (d : Disk) : Disk :=
  match s.persistent, s.km with
  | true, some km =>
    match s.users.lookup username with
    | none => if c.fails (.removeEnc username) then d else { d with enc := d.enc.erase username }
    | some st =>
      match km.sealBlob E (c.nonce (.state username)) username (E.marshal (toPersistedState st)) with
      | none => d
      | some blob => if c.fails .makeUsersDir then d else (d.writeBlobAtomic c username blob).2
  | _, _ => d

/-- Without a key manager secrets are stored as they are. -/
def sealSecret (E : TotpEnv) (c : Conditions) (s : TOTPStore) (username secret : GoString) : Option Bytes :=
  match s.km with
  | none => some secret
  | some km => km.sealBlob E (c.nonce (.secret username)) username secret

def decryptSecret (E : TotpEnv) (s : TOTPStore) (username : GoString) (encrypted : Bytes) : Option GoString :=
  match s.km with
  | none => some encrypted
  | some km => km.openBlob E username encrypted

end TOTPStore

namespace System

variable (sys : System) (username : GoString) (st : TotpState) (E : TotpEnv) (c : Conditions)

def put : System :=
  { sys with store := { sys.store with users := sys.store.users.insert username st } }

def drop : System :=
  { sys with store := { sys.store with users := sys.store.users.erase username } }

def persist (E : TotpEnv) (c : Conditions) (sys : System) (username : GoString) : System :=
  { sys with disk := sys.store.persist E c username sys.disk }

def user : Option TotpState := sys.store.users.lookup username

/-- The second half of `Enroll`: a new secret, whatever was there before. -/
def enrollFresh (sys : System) (username : GoString) : Except StoreError EnrollResult × System :=
  match c.secret with
  | none => (.error .generateSecret, sys)
  | some random =>
    let secret := E.encodeBase32 random
    match sys.store.sealSecret E c username secret with
    | none => (.error .encryptSecret, sys)
    | some encrypted =>
      let st : TotpState := {
        encryptedSecret := encrypted
        recoveryCodes := c.recoveryCodes
        state := .pending
        pendingSince := c.now }
      (.ok ⟨secret, c.recoveryCodes, .pending⟩, (sys.put username st).persist E c username)

def enroll (sys : System) (username : GoString) : Except StoreError EnrollResult × System :=
  match sys.user username with
  | none => sys.enrollFresh E c username
  | some st =>
    match st.state with
    | .verified | .rotating => (.error (.alreadyEnrolled username), sys)
    | .disabledByAdmin => (.error (.disabledByAdmin username), sys)
    | .pending =>
      -- the old secret is gone even if no new one can be made
      let cleared := { st with encryptedSecret := [], oldEncryptedSecret := [], recoveryCodes := [] }
      (sys.put username cleared).enrollFresh E c username
    | .disabled => sys.enrollFresh E c username

def completeEnrollment (sys : System) (username : GoString) : Bool × System :=
  match sys.user username with
  | none => (false, sys)
  | some st =>
    if st.state ≠ .pending then (false, sys)
    else (true, (sys.put username { st with state := .verified, pendingSince := 0 }).persist E c username)

def isEnrolled : Bool :=
  (sys.user username).any (fun st => st.state = .verified ∨ st.state = .rotating)

def exists_ : Bool := (sys.user username).isSome

def disable (sys : System) (username : GoString) : Bool × System :=
  match sys.user username with
  | none => (false, sys)
  | some _ => (true, (sys.drop username).persist E c username)

def disableByAdmin (sys : System) (username : GoString) : Bool × System :=
  match sys.user username with
  | none => (false, sys)
  | some st =>
    let st := { st with
      state := .disabledByAdmin, encryptedSecret := [], oldEncryptedSecret := [], recoveryCodes := [], pendingSince := 0 }
    (true, (sys.put username st).persist E c username)

def adminEnable (sys : System) (username : GoString) : Bool × System :=
  match sys.user username with
  | none => (false, sys)
  | some st =>
    if st.state ≠ .disabledByAdmin then (false, sys) else (true, (sys.drop username).persist E c username)

/-- The time before which the user is locked out has been set and is not over. -/
def lockedAt (now : Time) : Bool := st.lockedUntil ≠ 0 ∧ now < st.lockedUntil

/-- A user after an accepted code: an enrollment or a rotation is complete. -/
def accepted : TotpState :=
  match st.state with
  | .pending => { st with state := .verified, pendingSince := 0, failedAttempts := 0, lockedUntil := 0 }
  | .rotating => { st with state := .verified, oldEncryptedSecret := [], failedAttempts := 0, lockedUntil := 0 }
  | _ => { st with failedAttempts := 0, lockedUntil := 0 }

def validateCode (sys : System) (username code : GoString) : Bool × System :=
  match sys.user username with
  | none => (false, sys)
  | some st =>
    if st.state = .disabled ∨ st.state = .disabledByAdmin then (false, sys)
    else if lockedAt st c.now then (false, sys)
    else
      match sys.store.decryptSecret E username st.encryptedSecret with
      | none => (false, sys)
      | some plaintext =>
        if validateTOTP E plaintext code c.now then (true, (sys.put username (accepted st)).persist E c username)
        else (false, sys)

def validateCodeWithOld (sys : System) (username code : GoString) : Bool :=
  match sys.user username with
  | none => false
  | some st =>
    if st.state ≠ .rotating ∨ st.oldEncryptedSecret = [] then false
    else
      match sys.store.decryptSecret E username st.oldEncryptedSecret with
      | none => false
      | some plaintext => validateTOTP E plaintext code c.now

/-- Whether the user is locked out from now on. Below the limit the count is not persisted. -/
def recordFailedAttempt (sys : System) (username : GoString) : Bool × System :=
  match sys.user username with
  | none => (false, sys)
  | some st =>
    let st := { st with failedAttempts := st.failedAttempts + 1 }
    if maxFailedTOTP ≤ st.failedAttempts then
      (true, (sys.put username { st with lockedUntil := c.now + totpLockout }).persist E c username)
    else (false, sys.put username st)

def clearFailedAttempts (sys : System) (username : GoString) : System :=
  match sys.user username with
  | none => sys
  | some st => (sys.put username { st with failedAttempts := 0, lockedUntil := 0 }).persist E c username

def isLocked (sys : System) (username : GoString) : Bool :=
  (sys.user username).any (fun st => lockedAt st c.now)

def consumeRecoveryCode (sys : System) (username code : GoString) : Bool × System :=
  match sys.user username with
  | none => (false, sys)
  | some st =>
    if st.state ≠ .verified ∧ st.state ≠ .rotating then (false, sys)
    else if code ∈ st.recoveryCodes then
      (true, (sys.put username { st with recoveryCodes := st.recoveryCodes.erase code }).persist E c username)
    else (false, sys)

def sweepPending (sys : System) : System :=
  let expired := (sys.store.users.entries.filter
    (fun e => e.2.state = .pending ∧ pendingTTL < Time.sub c.now e.2.pendingSince)).map Sigma.fst
  let sys := expired.foldl drop sys
  expired.foldl (persist E c) sys

/-! ### Rotation of secrets -/

def initiateRotation (sys : System) (username : GoString) : Except StoreError EnrollResult × System :=
  match sys.user username with
  | none => (.error (.notEnrolled username), sys)
  | some st =>
    if st.state ≠ .verified then (.error (.notVerified st.state), sys)
    else
      match c.secret with
      | none => (.error .generateSecret, sys)
      | some random =>
        let secret := E.encodeBase32 random
        match sys.store.sealSecret E c username secret with
        | none => (.error .encryptSecret, sys)
        | some encrypted =>
          let st := { st with
            oldEncryptedSecret := st.encryptedSecret
            encryptedSecret := encrypted
            state := .rotating
            recoveryCodes := c.recoveryCodes }
          (.ok ⟨secret, c.recoveryCodes, .rotating⟩, (sys.put username st).persist E c username)

def confirmRotation (sys : System) (username code : GoString) : Except StoreError Unit × System :=
  match sys.user username with
  | none => (.error (.notEnrolled username), sys)
  | some st =>
    if st.state ≠ .rotating then (.error (.notRotating username), sys)
    else
      match sys.store.decryptSecret E username st.encryptedSecret with
      | none => (.error .decryptNew, sys)
      | some plaintext =>
        if validateTOTP E plaintext code c.now then
          (.ok (), (sys.put username { st with oldEncryptedSecret := [], state := .verified }).persist E c username)
        else (.error .invalidCode, sys)

def cancelRotation (sys : System) (username : GoString) : Except StoreError Unit × System :=
  match sys.user username with
  | none => (.error (.notEnrolled username), sys)
  | some st =>
    if st.state ≠ .rotating then (.error (.notRotating username), sys)
    else
      let secret := if st.oldEncryptedSecret = [] then st.encryptedSecret else st.oldEncryptedSecret
      let st := { st with encryptedSecret := secret, oldEncryptedSecret := [], state := .verified }
      (.ok (), (sys.put username st).persist E c username)

end System

/-! ### Rotation of the master key -/

def masterKeyNewSuffix : GoString := ascii ".new"

def masterKeyOldSuffix : GoString := ascii ".old"

/-- Phase 2: the secrets, opened with the old key and sealed with the new one. -/
def reEncryptSecrets (E : TotpEnv) (c : Conditions) (oldKM newKM : TOTPKeyManager) :
    List (Sigma fun _ : GoString => TotpState) → Except StoreError (Map GoString Bytes)
  | [] => .ok ∅
  | ⟨username, st⟩ :: rest =>
    if st.encryptedSecret = [] then reEncryptSecrets E c oldKM newKM rest
    else
      match oldKM.openBlob E username st.encryptedSecret with
      | none => .error (.decryptUser username)
      | some plaintext =>
        match newKM.sealBlob E (c.nonce (.secret username)) username plaintext with
        | none => .error (.encryptUser username)
        | some newEncrypted =>
          (reEncryptSecrets E c oldKM newKM rest).map (AList.insert username newEncrypted)

def persistToNewFile (E : TotpEnv) (c : Conditions) (km : TOTPKeyManager) (users : Map GoString TotpState)
    (username : GoString) (d : Disk) : Bool × Disk :=
  match users.lookup username with
  | none => (true, d)
  | some st =>
    match km.sealBlob E (c.nonce (.state username)) username (E.marshal (toPersistedState st)) with
    | none => (false, d)
    | some blob => if c.fails .makeUsersDir then (false, d) else d.writeNewBlob c username blob

def installSecret (secrets : Map GoString Bytes) (users : Map GoString TotpState) (username : GoString) :
    Map GoString TotpState :=
  match users.lookup username, secrets.lookup username with
  | some st, some encrypted => users.insert username { st with encryptedSecret := encrypted }
  | _, _ => users

/-- Phase 2b, user by user; stops at the first file that cannot be written. -/
def writeNewFiles (E : TotpEnv) (c : Conditions) (newKM : TOTPKeyManager) (secrets : Map GoString Bytes) :
    List GoString → Map GoString TotpState → Disk → Option StoreError × Map GoString TotpState × Disk
  | [], users, d => (none, users, d)
  | username :: rest, users, d =>
    let users := installSecret secrets users username
    match persistToNewFile E c newKM users username d with
    | (false, d) => (some (.writeBlob username), users, d)
    | (true, d) => writeNewFiles E c newKM secrets rest users d

def finalizeFiles (c : Conditions) : List GoString → Disk → Option StoreError × Disk
  | [], d => (none, d)
  | username :: rest, d =>
    match d.encNew.lookup username with
    | none => (some (.finalize username), d)
    | some blob =>
      if c.fails (.renameNew username) then (some (.finalize username), d)
      else finalizeFiles c rest
        { d with encNew := d.encNew.erase username, enc := d.enc.insert username blob }

/-- Phases 3b and 3c: the old key file is kept under another name, the new one takes its place. -/
def swapKeys (c : Conditions) (path : GoString) (d : Disk) : Option StoreError × Disk :=
  match if c.fails .backupKey then none else d.renameKey path (path ++ masterKeyOldSuffix) with
  | none => (some .backupKey, d)
  | some d =>
    match if c.fails .activateKey then none else d.renameKey (path ++ masterKeyNewSuffix) path with
    | some d => (none, d)
    | none =>
      (some .activateKey,
        (if c.fails .restoreKey then none else d.renameKey (path ++ masterKeyOldSuffix) path).getD d)

namespace System

def removeNewKey (c : Conditions) (path : GoString) (d : Disk) : Disk :=
  if c.fails .removeNewKey then d else { d with keys := d.keys.erase (path ++ masterKeyNewSuffix) }

/-- `RotateMasterKey`, from a manager with a path. -/
def rotateFrom (E : TotpEnv) (c : Conditions) (sys : System) (km : TOTPKeyManager) : Option StoreError × System :=
  match c.masterKey with
  | none => (some .generateKey, sys)
  | some masterKey =>
    if c.fails .writeNewKey then (some .writeKey, sys)
    else
      let d := { sys.disk with keys := sys.disk.keys.insert (km.path ++ masterKeyNewSuffix) masterKey.val }
      match newTOTPKeyManagerFromBytes E masterKey.val with
      | none => (some .makeKeyManager, { sys with disk := removeNewKey c km.path d })
      | some newKM =>
        match reEncryptSecrets E c km newKM sys.store.users.entries with
        | .error err => (some err, { sys with disk := removeNewKey c km.path d })
        | .ok secrets =>
          let usernames := sys.store.users.entries.keys
          match writeNewFiles E c newKM secrets usernames sys.store.users d with
          | (some err, users, d) =>
            -- back to the old key, but not to the old secrets
            (some err, ⟨{ sys.store with users := users }, removeNewKey c km.path d⟩)
          | (none, users, d) =>
            let store := { sys.store with users := users, km := some newKM }
            match finalizeFiles c usernames d with
            | (some err, d) => (some err, ⟨store, d⟩)
            | (none, d) =>
              match swapKeys c km.path d with
              | (err, d) => (err, ⟨store, d⟩)

def rotateMasterKey (E : TotpEnv) (c : Conditions) (sys : System) : Option StoreError × System :=
  if !sys.store.persistent then (some .needsStoreDir, sys)
  else
    match sys.store.km with
    | none => (some .needsKeyManager, sys)
    | some km => if km.path = [] then (some .needsKeyFile, sys) else sys.rotateFrom E c km

end System

/-! ### Start -/

/-- `path` is that of the master key, `storeDir` whether a directory is configured. -/
structure StartConfig where
  path : GoString
  path_ne_nil : path ≠ []
  legacySecret : GoString := []
  storeDir : Bool := true

variable (E : TotpEnv) (c : Conditions)

/-- The first master secret of a node: random, or made from the secret of an old configuration. -/
def initialMasterSecret (legacySecret : GoString) : Option Bytes :=
  c.masterKey.map (fun random =>
    if legacySecret = [] then random.val
    else
      match E.decodeBase32 legacySecret with
      | some decoded => if masterSecretSize ≤ decoded.length then decoded.take masterSecretSize else E.sha256 legacySecret
      | none => E.sha256 legacySecret)

/-- The key manager of the key file, which is made if it does not exist; `none` on failure. -/
def newTOTPKeyManager (cfg : StartConfig) (d : Disk) : Option TOTPKeyManager × Disk :=
  if c.fails .statKey then (none, d)
  else
    match d.keys.lookup cfg.path with
    | some masterSecret =>
      if c.fails .readKey ∨ masterSecret.length ≠ masterSecretSize then (none, d)
      else (some ⟨E.hkdf masterSecret, cfg.path⟩, d)
    | none =>
      match initialMasterSecret E c cfg.legacySecret with
      | none => (none, d)
      | some masterSecret =>
        if c.fails .makeKeyDir ∨ c.fails .writeKey then (none, d)
        else (some ⟨E.hkdf masterSecret, cfg.path⟩, { d with keys := d.keys.insert cfg.path masterSecret })

def loadUser (km : TOTPKeyManager) (username : GoString) (blob : Bytes) : Option TotpState :=
  if c.fails (.readEnc username) then none
  else ((km.openBlob E username blob).bind E.unmarshal).map fromPersistedState

/-- `none` if the directory cannot be made or read. -/
def newPersistentTOTPStore (km : TOTPKeyManager) (d : Disk) : Option System :=
  if c.fails .makeUsersDir ∨ c.fails .readUsersDir then none
  else
    some ⟨⟨d.enc.filterMapEntries (loadUser E c km), some km, true⟩,
      { d with tmp := d.tmp.filterKeys (fun username => c.fails (.removeTmp username)) }⟩

/-- A new process: a persistent store if that is possible, otherwise one in memory. -/
def start (cfg : StartConfig) (d : Disk) : System :=
  match newTOTPKeyManager E c cfg d with
  | (none, d) => ⟨⟨∅, none, false⟩, d⟩
  | (some km, d) =>
    if cfg.storeDir then (newPersistentTOTPStore E c km d).getD ⟨⟨∅, some km, false⟩, d⟩
    else ⟨⟨∅, some km, false⟩, d⟩

/-! ### Self-service handlers, up to alerts and step-up tokens -/

/-- The status and the system; `username` is that of the session, empty if there is none. -/
def handle2FAEnroll (sys : System) (isPost : Bool) (username : GoString) : ℕ × System :=
  if !isPost then (405, sys)
  else if username = [] then (401, sys)
  else if sys.isEnrolled username then (409, sys)
  else
    match sys.enroll E c username with
    | (.error _, sys) => (500, sys)
    | (.ok _, sys) => (200, sys)

def handle2FADisable (sys : System) (isPost : Bool) (username : GoString) : ℕ × System :=
  if !isPost then (405, sys)
  else if username = [] then (401, sys)
  else if !sys.exists_ username then (404, sys)
  else (200, (sys.disable E c username).2)

end MeshDesk.Web
