import Mathlib.Data.List.Basic
import Mathlib.Algebra.Order.Ring.Nat
import Mathlib.Data.List.Induction

/-! Big-endian integers in byte strings, and reads of an exact number of bytes. -/
namespace MeshDesk.Lib

/-- `x << k` in 64 bits. -/
def shiftLeft64 (x : ℤ) (k : ℕ) : ℤ := (BitVec.ofInt 64 x <<< k).toInt

/-- The low `w` bytes of `n`, most significant first. -/
def toBE : ℕ → ℕ → List UInt8
  | 0, _ => []
  | w + 1, n => toBE w (n / 256) ++ [UInt8.ofNat n]

variable (bs : List UInt8)

def ofBE : ℕ := bs.foldl (fun n b => 256 * n + b.toNat) 0

@[simp] theorem toBE_length (w n : ℕ) : (toBE w n).length = w := by
  induction w generalizing n with
  | zero => rfl
  | succ w ih => simp [toBE, ih]

theorem ofBE_concat (b : UInt8) : ofBE (bs ++ [b]) = 256 * ofBE bs + b.toNat := by
  simp [ofBE]

theorem ofBE_toBE (w n : ℕ) : ofBE (toBE w n) = n % 256 ^ w := by
  induction w generalizing n with
  | zero => simp [toBE, ofBE, Nat.mod_one]
  | succ w ih =>
    have hmod : n % 256 ^ (w + 1) = n % 256 + 256 * (n / 256 % 256 ^ w) := by
      rw [pow_succ', Nat.mod_mul]
    rw [toBE, ofBE_concat, ih, UInt8.toNat_ofNat', hmod, Nat.add_comm]

theorem ofBE_toBE_of_lt {w n : ℕ} (h : n < 256 ^ w) : ofBE (toBE w n) = n := by
  rw [ofBE_toBE, Nat.mod_eq_of_lt h]

theorem toBE_ofBE : toBE bs.length (ofBE bs) = bs := by
  induction bs using List.reverseRecOn with
  | nil => rfl
  | append_singleton bs b ih =>
    have hb := b.toNat_lt
    have hdiv : (256 * ofBE bs + b.toNat) / 256 = ofBE bs := by omega
    have hmod : UInt8.ofNat (256 * ofBE bs + b.toNat) = b := by
      apply UInt8.toNat_inj.mp
      rw [UInt8.toNat_ofNat']
      omega
    rw [List.length_append, List.length_singleton, toBE, ofBE_concat, hdiv, hmod, ih]

theorem toBE_of_ofBE {w n : ℕ} {bs : List UInt8} (hl : bs.length = w) (hv : ofBE bs = n) : bs = toBE w n := by
  rw [← hl, ← hv, toBE_ofBE]

theorem ofBE_lt : ofBE bs < 256 ^ bs.length := by
  have h := ofBE_toBE bs.length (ofBE bs)
  rw [toBE_ofBE] at h
  rw [h]
  exact Nat.mod_lt _ (Nat.pow_pos (by decide))

/-- How a full read fails: nothing left, or the input ends inside the field. -/
inductive ReadError where
  | eof
  | unexpectedEOF
  deriving DecidableEq, Repr

def readFull {α : Type*} (n : ℕ) (s : List α) : Except ReadError (List α × List α) :=
  if n ≤ s.length then .ok (s.take n, s.drop n)
  else match s with
    | [] => .error .eof
    | _ :: _ => .error .unexpectedEOF

section ReadFull
variable {α : Type*}

theorem readFull_append {n : ℕ} {a : List α} (h : a.length = n) (rest : List α) :
    readFull n (a ++ rest) = .ok (a, rest) := by
  subst h
  simp [readFull]

theorem readFull_ok {n : ℕ} {s a rest : List α} (h : readFull n s = .ok (a, rest)) :
    a.length = n ∧ s = a ++ rest := by
  unfold readFull at h
  split_ifs at h with hn
  · obtain ⟨ha, hr⟩ := Prod.mk.inj (Except.ok.inj h)
    subst ha hr
    exact ⟨List.length_take_of_le hn, (List.take_append_drop n s).symm⟩
  · cases s <;> cases h

theorem readFull_eof {n : ℕ} {s : List α} (h : readFull n s = .error .eof) : s = [] := by
  unfold readFull at h
  split_ifs at h
  cases s with
  | nil => rfl
  | cons a s => cases h

end ReadFull

def sliceAt {α : Type*} (data : List α) (offset n : ℕ) : List α := (data.drop offset).take n

section Slices
variable {α : Type*}

theorem sliceAt_eq {data a rest : List α} {i n : ℕ} (h : data.drop i = a ++ rest) (ha : a.length = n) :
    sliceAt data i n = a := by
  rw [sliceAt, h, List.take_left' ha]

theorem drop_next {data a rest : List α} {i n : ℕ} (h : data.drop i = a ++ rest) (ha : a.length = n) :
    data.drop (i + n) = rest := by
  rw [← List.drop_drop, h, List.drop_left' ha]

end Slices

def ensure {ε : Type*} (p : Prop) [Decidable p] (e : ε) : Except ε Unit := if p then .ok () else .error e

theorem ensure_of {ε : Type*} {p : Prop} [Decidable p] (h : p) (e : ε) : ensure p e = .ok () := if_pos h

theorem ensure_eq_ok {ε : Type*} {p : Prop} [Decidable p] {e : ε} {u : Unit} : ensure p e = .ok u ↔ p := by
  unfold ensure
  split_ifs with h
  · exact ⟨fun _ => h, fun _ => rfl⟩
  · exact ⟨nofun, fun hp => absurd hp h⟩

theorem ensure_eq_error {ε : Type*} {p : Prop} [Decidable p] {e e' : ε} : ensure p e = .error e' ↔ ¬ p ∧ e = e' := by
  unfold ensure
  split_ifs with h <;> simp [h]

theorem bind_eq_error {ε α β : Type*} {x : Except ε α} {f : α → Except ε β} {e : ε} :
    x.bind f = .error e ↔ x = .error e ∨ ∃ a, x = .ok a ∧ f a = .error e := by
  cases x with
  | error | ok => simp [Except.bind]

theorem bind_eq_ok {ε α β : Type*} {x : Except ε α} {f : α → Except ε β} {b : β} :
    x.bind f = .ok b ↔ ∃ a, x = .ok a ∧ f a = .ok b := by
  cases x with
  | error | ok => simp [Except.bind]

theorem map_eq_ok {ε α β : Type*} {x : Except ε α} {f : α → β} {b : β} :
    x.map f = .ok b ↔ ∃ a, x = .ok a ∧ f a = b := by
  cases x with
  | error | ok => simp [Except.map]

theorem mapError_eq_ok {ε ε' α : Type*} {x : Except ε α} {f : ε → ε'} {a : α} :
    x.mapError f = .ok a ↔ x = .ok a := by
  cases x with
  | error | ok => simp [Except.mapError]

theorem exists_ok_of_isOk {ε α : Type*} {x : Except ε α} (h : x.isOk = true) : ∃ a, x = .ok a := by
  cases x with
  | error e => cases h
  | ok a => exact ⟨a, rfl⟩

end MeshDesk.Lib
