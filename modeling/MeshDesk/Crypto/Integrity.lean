import MeshDesk.Crypto.NonceUniqueness

/-! Integrity of one direction of a `SecureConn`. The reader takes whatever an adversary puts on the wire; the cipher
opens only what was sealed. What is accepted is then what was written, in order, until the 64-bit counters wrap. -/
namespace MeshDesk.Crypto
open Lib List
open Proxy (Bytes Aead)

inductive WriterOp where
  | write (p : Bytes) (failed : Option TransportError)
  | close
  deriving DecidableEq, Repr

def sealCalls (sc : SecureConn) : List WriterOp → List SealCall
  | [] => []
  | .write p failed :: ops => (sc.sealCall p).toOption.toList ++ sealCalls (sc.write p failed).2 ops
  | .close :: ops => sealCalls sc.close ops

inductive ReaderOp where
  | read (size : ℕ)
  | close
  deriving DecidableEq, Repr

/-- One `Read`: the nonce if it passed the check, the record if it was handed to `Open`, the result. -/
structure ReadStep where
  nonce : Option Bytes
  opened : Option Record
  result : Except SecureError Bytes
  deriving DecidableEq

def SecureConn.readStep (A : Aead) (sc : SecureConn) (size : ℕ) (items : List ConnItem) : ReadStep :=
  ⟨(sc.readNonce items).1.toOption.map Prod.snd, (sc.readRecord items).1.toOption, (sc.read A size items).1⟩

def readAll (A : Aead) (sc : SecureConn) (items : List ConnItem) : List ReaderOp → List ReadStep
  | [] => []
  | .read size :: ops =>
    sc.readStep A size items :: readAll A (sc.read A size items).2.1 (sc.read A size items).2.2 ops
  | .close :: ops => readAll A sc.close items ops

variable (steps : List ReadStep)

def accepted : List Bytes := steps.filterMap (·.result.toOption)

def beforeError : List ReadStep := steps.takeWhile (·.result.isOk)

def passedNonces : List Bytes := steps.filterMap ReadStep.nonce

/-- No record opens under the key that was not sealed under it with the same nonce. -/
def Unforged (A : Aead) (key : Bytes) (calls : List SealCall) (steps : List ReadStep) : Prop :=
  ∀ step ∈ steps, ∀ r ∈ step.opened, (A.openBytes key r.nonce r.ciphertext []).isSome →
    ∃ c ∈ calls, c.key = key ∧ c.record A = r

instance (A : Aead) (key : Bytes) (calls : List SealCall) (steps : List ReadStep) :
    Decidable (Unforged A key calls steps) :=
  inferInstanceAs (Decidable (∀ step ∈ steps, ∀ r ∈ step.opened, _ → ∃ c ∈ calls, _ ∧ _))

namespace SecureConn
variable {A : Aead} {sc : SecureConn} {size : ℕ} {items : List ConnItem}

theorem openInto_ok {key p : Bytes} {r : Record} (h : openInto A key size r = .ok p) :
    A.openBytes key r.nonce r.ciphertext [] = some p := by
  unfold openInto at h
  split at h
  · cases h
  · next ho =>
    split_ifs at h
    rw [ho, Except.ok.inj h]

theorem readNonce_cases (sc : SecureConn) (items : List ConnItem) :
    (∃ e items', sc.readNonce items = (.error e, sc, items')) ∨
    ∃ length nonce items', nonceToUint64 nonce = sc.recvNonce ∧
      sc.readNonce items = (.ok (length, nonce), { sc with recvNonce := sc.recvNonce + 1 }, items') := by
  unfold readNonce
  split_ifs with hclosed
  · exact .inl ⟨_, _, rfl⟩
  · obtain ⟨rlen, items₁⟩ := connReadFull 2 items
    cases rlen with
    | error e => exact .inl ⟨_, _, rfl⟩
    | ok lenBuf =>
      dsimp only
      obtain ⟨rnonce, items₂⟩ := connReadFull nonceSize items₁
      cases rnonce with
      | error e => exact .inl ⟨_, _, rfl⟩
      | ok nonceBuf =>
        dsimp only
        split_ifs with hnonce
        · exact .inl ⟨_, _, rfl⟩
        · exact .inr ⟨_, nonceBuf, _, not_not.mp hnonce, rfl⟩

/-- A `Read` whose nonce fails the check returns an error and changes nothing; one whose nonce passes
moves the counter on, and returns a plaintext only if the record with that nonce opens to it. -/
theorem read_cases (A : Aead) (sc : SecureConn) (size : ℕ) (items : List ConnItem) :
    (∃ e items', sc.read A size items = (.error e, sc, items') ∧
      sc.readStep A size items = ⟨none, none, .error e⟩) ∨
    ∃ nonce opened result items', nonceToUint64 nonce = sc.recvNonce ∧
      sc.read A size items = (result, { sc with recvNonce := sc.recvNonce + 1 }, items') ∧
      sc.readStep A size items = ⟨some nonce, opened, result⟩ ∧
      ∀ p, result = .ok p → ∃ r, opened = some r ∧ r.nonce = nonce ∧
        A.openBytes sc.recvKey r.nonce r.ciphertext [] = some p := by
  rcases sc.readNonce_cases items with ⟨e, items', hn⟩ | ⟨length, nonce, items', hnonce, hn⟩
  · have hr : sc.readRecord items = (.error e, sc, items') := by rw [readRecord, hn]
    have hread : sc.read A size items = (.error e, sc, items') := by rw [read, hr]
    refine .inl ⟨e, items', hread, ?_⟩
    rw [readStep, hn, hr, hread]
    rfl
  · right
    cases hc : connReadFull length items' with | mk x items'' =>
    cases x with
    | error e =>
      have hr : sc.readRecord items =
          (.error (.read e), { sc with recvNonce := sc.recvNonce + 1 }, items'') := by
        rw [readRecord, hn]
        dsimp only
        rw [hc]
      have hread : sc.read A size items =
          (.error (.read e), { sc with recvNonce := sc.recvNonce + 1 }, items'') := by rw [read, hr]
      refine ⟨nonce, none, .error (.read e), items'', hnonce, hread, ?_, fun p hp => by cases hp⟩
      rw [readStep, hn, hr, hread]
      rfl
    | ok ciphertext =>
      have hr : sc.readRecord items =
          (.ok ⟨nonce, ciphertext⟩, { sc with recvNonce := sc.recvNonce + 1 }, items'') := by
        rw [readRecord, hn]
        dsimp only
        rw [hc]
      have hread : sc.read A size items = (openInto A sc.recvKey size ⟨nonce, ciphertext⟩,
          { sc with recvNonce := sc.recvNonce + 1 }, items'') := by rw [read, hr]
      refine ⟨nonce, some ⟨nonce, ciphertext⟩, _, items'', hnonce, hread, ?_, fun p hp =>
        ⟨_, rfl, rfl, openInto_ok hp⟩⟩
      rw [readStep, hn, hr, hread]
      rfl

end SecureConn

/-! ### The writer -/

def WriterOp.send : WriterOp → SendOp
  | .write p failed => .write p failed
  | .close => .close

theorem sealCalls_eq_sendSealCalls (sc : SecureConn) (ops : List WriterOp) :
    sealCalls sc ops = sc.sendSealCalls (ops.map WriterOp.send) := by
  induction ops generalizing sc with
  | nil => rfl
  | cons op ops ih =>
    cases op with
    | write p failed => exact congrArg ((sc.sealCall p).toOption.toList ++ ·) (ih _)
    | close => exact ih sc.close

theorem sealCalls_getElem? {sc : SecureConn} {ops : List WriterOp} {i : ℕ} {c : SealCall}
    (h : (sealCalls sc ops)[i]? = some c) : c.nonce = nonceFromUint64 (sc.sendNonce + UInt64.ofNat i) := by
  rw [sealCalls_eq_sendSealCalls] at h
  exact SecureConn.sendSealCalls_getElem? h

/-! ### The reader -/

theorem Unforged.plaintext {A : Aead} {key p nonce : Bytes} {calls : List SealCall} {steps : List ReadStep}
    {step : ReadStep} {r : Record} {m : ℕ} (h : Unforged A key calls steps)
    (hcalls : ∀ (i : ℕ) c, calls[i]? = some c → c.nonce = nonceFromUint64 (UInt64.ofNat i))
    (hlen : calls.length ≤ 2 ^ 64) (hm : m < 2 ^ 64) (hstep : step ∈ steps) (hopened : step.opened = some r)
    (hr : r.nonce = nonce) (hnonce : nonceToUint64 nonce = UInt64.ofNat m)
    (hopen : A.openBytes key r.nonce r.ciphertext [] = some p) : (calls.map SealCall.plaintext)[m]? = some p := by
  obtain ⟨c, hc, hkey, hrec⟩ := h step hstep r hopened (by rw [hopen]; rfl)
  obtain ⟨i, hi⟩ := getElem?_of_mem hc
  subst hrec hr hkey
  have hi64 : i < 2 ^ 64 := lt_of_lt_of_le (List.getElem?_eq_some_iff.mp hi).1 hlen
  have him : i = m := by
    have hn : UInt64.ofNat i = UInt64.ofNat m := by
      rw [← hnonce, show (c.record A).nonce = c.nonce from rfl, hcalls i c hi, nonceToUint64_nonceFromUint64]
    have hmod := congrArg UInt64.toNat hn
    rw [UInt64.toNat_ofNat_of_lt' hi64, UInt64.toNat_ofNat_of_lt' hm] at hmod
    exact hmod
  have hp : c.plaintext = p := by
    have hround := A.open_seal c.key c.nonce c.plaintext []
    exact Option.mem_unique hround hopen
  rw [← him, getElem?_map, hi, Option.map_some, hp]

section Run
variable {A : Aead} {calls : List SealCall}

/-- What is accepted from the counter value `m` on is a subsequence of the messages sealed from `m` on,
and up to the first error an initial part of them. -/
theorem readAll_accepted {sc : SecureConn} {items : List ConnItem} {ops : List ReaderOp} {m : ℕ}
    (hcalls : ∀ (i : ℕ) c, calls[i]? = some c → c.nonce = nonceFromUint64 (UInt64.ofNat i))
    (hlen : calls.length ≤ 2 ^ 64) (hnonce : sc.recvNonce = UInt64.ofNat m)
    (hpassed : m + (passedNonces (readAll A sc items ops)).length ≤ 2 ^ 64)
    (hunforged : Unforged A sc.recvKey calls (readAll A sc items ops)) :
    (accepted (readAll A sc items ops)).Sublist ((calls.map SealCall.plaintext).drop m) ∧
      accepted (beforeError (readAll A sc items ops)) <+: (calls.map SealCall.plaintext).drop m := by
  induction ops generalizing sc items m with
  | nil => exact ⟨nil_sublist _, nil_prefix⟩
  | cons op ops ih =>
    cases op with
    | close => exact @ih sc.close items m hnonce hpassed hunforged
    | read size =>
      have hrest : Unforged A sc.recvKey calls
          (readAll A (sc.read A size items).2.1 (sc.read A size items).2.2 ops) :=
        (forall_mem_cons.mp hunforged).2
      rw [readAll] at hpassed hunforged ⊢
      rcases sc.read_cases A size items with ⟨e, items', hread, hstep⟩ |
        ⟨nonce, opened, result, items', hn, hread, hstep, hok⟩
      · -- the nonce is not the expected one, or no nonce arrives
        rw [hstep, hread] at hpassed ⊢
        rw [hread] at hrest
        have hih := ih hnonce (by simpa [passedNonces] using hpassed) hrest
        exact ⟨hih.1, nil_prefix⟩
      · rw [hread] at hrest
        rw [hread, hstep] at hpassed ⊢
        have hm : m + 1 + (passedNonces (readAll A { sc with recvNonce := sc.recvNonce + 1 } items' ops)).length ≤
            2 ^ 64 := by
          simp only [passedNonces, filterMap_cons, length_cons] at hpassed ⊢
          omega
        have hnext : sc.recvNonce + 1 = UInt64.ofNat (m + 1) := by
          rw [hnonce, UInt64.ofNat_add]
          rfl
        have hih := @ih { sc with recvNonce := sc.recvNonce + 1 } items' (m + 1) hnext hm hrest
        cases hresult : result with
        | error e =>
          -- the message with this counter value is lost
          refine ⟨hih.1.trans ?_, nil_prefix⟩
          exact (drop_sublist_drop_left _ (Nat.le_succ m))
        | ok p =>
          obtain ⟨r, hopened, hrn, hopen⟩ := hok p hresult
          have hget : (calls.map SealCall.plaintext)[m]? = some p := by
            refine hunforged.plaintext hcalls hlen (by omega) mem_cons_self ?_ hrn (hn.trans hnonce) hopen
            rw [hstep]
            exact hopened
          have hdrop : (calls.map SealCall.plaintext).drop m = p :: (calls.map SealCall.plaintext).drop (m + 1) := by
            obtain ⟨hlt, hp⟩ := List.getElem?_eq_some_iff.mp hget
            rw [drop_eq_getElem_cons hlt, hp]
          rw [hdrop]
          exact ⟨hih.1.cons_cons p, cons_prefix_cons.mpr ⟨rfl, hih.2⟩⟩

end Run

theorem readAll_items {A : Aead} {sc : SecureConn} {r : Record} (hopen : sc.closed = false)
    (hnonce : r.nonce.length = nonceSize) (hexp : nonceToUint64 r.nonce = sc.recvNonce)
    (hlen : r.ciphertext.length < 65536) (rest : List ConnItem) (size : ℕ) (ops : List ReaderOp) :
    readAll A sc (r.items ++ rest) (.read size :: ops) =
      ⟨some r.nonce, some r, SecureConn.openInto A sc.recvKey size r⟩ ::
        readAll A { sc with recvNonce := sc.recvNonce + 1 } rest ops := by
  obtain ⟨hn, hr⟩ := SecureConn.readRecord_items hopen hnonce hexp hlen rest
  have hread : sc.read A size (r.items ++ rest) = (SecureConn.openInto A sc.recvKey size r,
      { sc with recvNonce := sc.recvNonce + 1 }, rest) := by rw [SecureConn.read, hr]
  rw [readAll, SecureConn.readStep, hn, hr, hread]
  rfl

/-- Both counters start at zero and neither wraps: the plaintexts read before the first error are an
initial part of those sealed, and all plaintexts read are a subsequence of them. -/
theorem readAll_integrity (A : Aead) {key other other' : Bytes} {w r : SecureConn}
    (hw : newSecureConn key other = .ok w) (hr : newSecureConn other' key = .ok r)
    (writes : List WriterOp) (reads : List ReaderOp) (items : List ConnItem)
    (hunforged : Unforged A key (sealCalls w writes) (readAll A r items reads))
    (hsealed : (sealCalls w writes).length ≤ 2 ^ 64)
    (hpassed : (passedNonces (readAll A r items reads)).length ≤ 2 ^ 64) :
    accepted (beforeError (readAll A r items reads)) <+: (sealCalls w writes).map SealCall.plaintext ∧
      (accepted (readAll A r items reads)).Sublist ((sealCalls w writes).map SealCall.plaintext) := by
  have hw0 : w.sendNonce = 0 := by
    unfold newSecureConn at hw
    split_ifs at hw
    rw [← Except.ok.inj hw]
  obtain ⟨hr0, hkey⟩ : r.recvNonce = 0 ∧ r.recvKey = key := by
    unfold newSecureConn at hr
    split_ifs at hr
    rw [← Except.ok.inj hr]
    exact ⟨rfl, rfl⟩
  have hcalls : ∀ (i : ℕ) c, (sealCalls w writes)[i]? = some c → c.nonce = nonceFromUint64 (UInt64.ofNat i) := by
    intro i c hc
    have hi := sealCalls_getElem? hc
    rwa [hw0, UInt64.zero_add] at hi
  have h := readAll_accepted hcalls hsealed hr0 (by simpa using hpassed) (hkey ▸ hunforged)
  exact ⟨h.2, h.1⟩

/-- A stand-in for the cipher: a tag of zeros, checked on opening. -/
def zeroTag : Aead where
  sealBytes _ _ plaintext _ := plaintext ++ List.replicate tagSize 0
  openBytes _ _ ciphertext _ :=
    if ciphertext.drop (ciphertext.length - tagSize) = List.replicate tagSize 0
    then some (ciphertext.take (ciphertext.length - tagSize)) else none
  open_seal := by simp [tagSize]
  seal_length := by simp [tagSize]

def zeroKey : Bytes := List.replicate keySize 0

def freshConn : SecureConn := ⟨zeroKey, zeroKey, 0, 0, false⟩

def sentRecord (n : UInt64) (p : Bytes) : Record := SealCall.record zeroTag ⟨zeroKey, nonceFromUint64 n, p⟩

def threeWrites : List WriterOp := [.write [1] none, .write [2] (some .timeout), .write [3] none]

/-- The first record and its header once more, the second without its last byte and with another in
its place, the third. -/
def tampered : List ConnItem :=
  (sentRecord 0 [1]).items ++ ((sentRecord 0 [1]).items.take 14 ++
    ((sentRecord 1 [2]).items.dropLast ++ (.byte 9 :: (sentRecord 2 [3]).items)))

def fourReads : List ReaderOp := List.replicate 4 (.read maxMessageSize)

theorem readAll_integrity_tampered :
    accepted (readAll zeroTag freshConn tampered fourReads) = [[1], [3]] ∧
      List.Sublist [[1], [3]] ((sealCalls freshConn threeWrites).map SealCall.plaintext) := by
  have hsteps : accepted (readAll zeroTag freshConn tampered fourReads) = [[1], [3]] := by decide
  have hconn : newSecureConn zeroKey zeroKey = .ok freshConn := rfl
  have h := readAll_integrity zeroTag hconn hconn threeWrites fourReads tampered (by decide)
    (by decide) (by decide)
  exact ⟨hsteps, hsteps ▸ h.2⟩

def junkRecord (n : ℕ) : Record := ⟨nonceFromUint64 (UInt64.ofNat n), []⟩

theorem readAll_junk (sc : SecureConn) (hopen : sc.closed = false) (n k size : ℕ) (rest : List ConnItem)
    (ops : List ReaderOp) (hn : sc.recvNonce = UInt64.ofNat n) :
    readAll zeroTag sc ((range' n k).flatMap (fun i => (junkRecord i).items) ++ rest)
        (replicate k (.read size) ++ ops) =
      (range' n k).map (fun i => ⟨some (junkRecord i).nonce, some (junkRecord i), .error .authenticationFailed⟩) ++
        readAll zeroTag { sc with recvNonce := UInt64.ofNat (n + k) } rest ops := by
  induction k generalizing sc n with
  | zero =>
    obtain ⟨sendKey, recvKey, sendNonce, recvNonce, closed⟩ := sc
    obtain rfl : recvNonce = UInt64.ofNat n := hn
    rfl
  | succ k ih =>
    have hexp : nonceToUint64 (junkRecord n).nonce = sc.recvNonce := by
      rw [hn]
      exact nonceToUint64_nonceFromUint64 _
    have hnonce : (junkRecord n).nonce.length = nonceSize := by
      simp [junkRecord, nonceFromUint64, nonceSize]
    have hlen : (junkRecord n).ciphertext.length < 65536 := Nat.zero_lt_succ _
    have hnext : sc.recvNonce + 1 = UInt64.ofNat (n + 1) := by
      rw [hn, UInt64.ofNat_add]
      rfl
    rw [range'_succ, flatMap_cons, append_assoc, replicate_succ, cons_append,
      readAll_items hopen hnonce hexp hlen, map_cons, cons_append,
      ih { sc with recvNonce := sc.recvNonce + 1 } hopen (n + 1) hnext]
    have hsum : n + 1 + k = n + (k + 1) := by omega
    rw [hsum]
    rfl

/-- One message, junk until the counter of the reader has wrapped, and the message again. -/
def wrapped : List ConnItem :=
  (sentRecord 0 [7]).items ++ ((List.range' 1 (2 ^ 64 - 1)).flatMap (fun i => (junkRecord i).items) ++
    ((sentRecord 0 [7]).items ++ []))

def wrappedReads : List ReaderOp :=
  .read maxMessageSize :: (List.replicate (2 ^ 64 - 1) (.read maxMessageSize) ++ [.read maxMessageSize])

/-- After 2^64 records that pass the check of the nonce the first message is accepted once more. -/
theorem readAll_wrapped :
    newSecureConn zeroKey zeroKey = .ok freshConn ∧
      (sealCalls freshConn [.write [7] none]).map SealCall.plaintext = [[7]] ∧
      Unforged zeroTag zeroKey (sealCalls freshConn [.write [7] none])
        (readAll zeroTag freshConn wrapped wrappedReads) ∧
      accepted (readAll zeroTag freshConn wrapped wrappedReads) = [[7], [7]] := by
  have hlast : UInt64.ofNat (1 + (2 ^ 64 - 1)) = 0 := by decide
  have hsteps : readAll zeroTag freshConn wrapped wrappedReads =
      ⟨some (sentRecord 0 [7]).nonce, some (sentRecord 0 [7]), .ok [7]⟩ ::
        ((range' 1 (2 ^ 64 - 1)).map (fun i =>
          ⟨some (junkRecord i).nonce, some (junkRecord i), .error .authenticationFailed⟩) ++
        [⟨some (sentRecord 0 [7]).nonce, some (sentRecord 0 [7]), .ok [7]⟩]) := by
    rw [wrapped, wrappedReads, readAll_items rfl (by decide) (by decide) (by decide),
      readAll_junk _ rfl 1 _ _ _ _ (by decide), hlast,
      readAll_items rfl (by decide) (by decide) (by decide)]
    rfl
  refine ⟨rfl, rfl, ?_, ?_⟩
  · rw [hsteps]
    have hsent : ∀ r ∈ some (sentRecord 0 [7]), (zeroTag.openBytes zeroKey r.nonce r.ciphertext []).isSome →
        ∃ c ∈ sealCalls freshConn [.write [7] none], c.key = zeroKey ∧ c.record zeroTag = r := by decide
    refine forall_mem_cons.mpr ⟨hsent, forall_mem_append.mpr
      ⟨forall_mem_map.mpr fun i _ r hr hsome => ?_, forall_mem_singleton.mpr hsent⟩⟩
    obtain rfl : junkRecord i = r := Option.some.inj hr
    cases hsome
  · have hjunk : ((range' 1 (2 ^ 64 - 1)).map (fun i =>
        (⟨some (junkRecord i).nonce, some (junkRecord i), .error .authenticationFailed⟩ : ReadStep))).filterMap
          (·.result.toOption) = [] := by
      rw [filterMap_map]
      exact filterMap_eq_nil_iff.mpr (fun _ _ => rfl)
    rw [hsteps, accepted, filterMap_cons, filterMap_append, hjunk]
    rfl

end MeshDesk.Crypto
