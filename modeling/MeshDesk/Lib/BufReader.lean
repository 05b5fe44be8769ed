import Mathlib.Data.List.Basic

/-! A buffered reader over a reader that may return an error together with the elements it has stored. The
error is kept until the elements are read; a read is answered from the buffer or from one call, never from
both. -/
namespace MeshDesk.Lib
variable {σ ε α : Type*}

/-- A call with a buffer of the given size: the elements stored and the error returned. -/
abbrev ReadCall (σ ε α : Type*) := ℕ → σ → (List α × Option ε) × σ

/-- `buf` are the elements that are buffered, `err` the error to report once they are read. -/
structure BufReader (σ ε α : Type*) where
  source : σ
  buf : List α
  err : Option ε
  deriving DecidableEq

namespace BufReader

def new (source : σ) : BufReader σ ε α := ⟨source, [], none⟩

section Read
variable (call : ReadCall σ ε α) (size : ℕ)

/-- A read of up to `n` elements. One that is not smaller than the buffer goes past it. -/
def read (n : ℕ) (b : BufReader σ ε α) : (List α × Option ε) × BufReader σ ε α :=
  if n = 0 then
    if b.buf = [] then (([], b.err), { b with err := none }) else (([], none), b)
  else if b.buf ≠ [] then ((b.buf.take n, none), { b with buf := b.buf.drop n })
  else
    match b.err with
    | some e => (([], some e), { b with err := none })
    | none =>
      if size ≤ n then ((call n b.source).1, { b with source := (call n b.source).2 })
      else
        match call size b.source with
        | (([], err), source) => (([], err), { b with source := source })
        | ((x :: xs, err), source) => (((x :: xs).take n, none), ⟨source, (x :: xs).drop n, err⟩)

/-- `io.ReadFull`: reads until `n` more elements are there, with `got` read before. `unexpected` is what
becomes of an error in the middle. `none` if `fuel` reads are not enough. -/
def readFull (unexpected : ε → ε) : ℕ → ℕ → List α → BufReader σ ε α →
    Option (Except ε (List α) × BufReader σ ε α)
  | _, 0, got, b => some (.ok got, b)
  | 0, _ + 1, _, _ => none
  | fuel + 1, n + 1, got, b =>
    match read call size (n + 1) b with
    | ((xs, none), b) => readFull unexpected fuel (n + 1 - xs.length) (got ++ xs) b
    | ((xs, some e), b) =>
      if n + 1 ≤ xs.length then some (.ok (got ++ xs), b)
      else some (.error (if got ++ xs = [] then e else unexpected e), b)

end Read

variable {call : ReadCall σ ε α} {size n : ℕ} {unexpected : ε → ε} {source source' : σ} {xs : List α} {err : Option ε}

theorem read_buffered (hn : n ≠ 0) (hxs : xs ≠ []) :
    read call size n ⟨source, xs, err⟩ = ((xs.take n, none), ⟨source, xs.drop n, err⟩) := by
  unfold read
  rw [if_neg hn, if_pos hxs]

theorem read_pending (hn : n ≠ 0) {e : ε} :
    read call size n ⟨source, [], some e⟩ = (([], some e), ⟨source, [], none⟩) := by
  unfold read
  rw [if_neg hn, if_neg (not_not.mpr rfl)]

theorem read_fill (hn : n ≠ 0) (hsize : n < size) (hxs : xs ≠ []) (hcall : call size source = ((xs, err), source')) :
    read call size n ⟨source, [], none⟩ = ((xs.take n, none), ⟨source', xs.drop n, err⟩) := by
  obtain ⟨x, xs, rfl⟩ := List.exists_cons_of_ne_nil hxs
  unfold read
  rw [if_neg hn, if_neg (not_not.mpr rfl)]
  rw [if_neg (Nat.not_le.mpr hsize), hcall]

theorem read_fill_nil (hn : n ≠ 0) (hsize : n < size) (hcall : call size source = (([], err), source')) :
    read call size n ⟨source, [], none⟩ = (([], err), ⟨source', [], none⟩) := by
  unfold read
  rw [if_neg hn, if_neg (not_not.mpr rfl)]
  rw [if_neg (Nat.not_le.mpr hsize), hcall]

theorem readFull_of_read {b b' : BufReader σ ε α} {got : List α} (hn : n ≠ 0) (hxs : xs.length = n)
    (hread : read call size n b = ((xs, none), b')) (fuel : ℕ) :
    readFull call size unexpected (fuel + 1) n got b = some (.ok (got ++ xs), b') := by
  obtain ⟨m, rfl⟩ := Nat.exists_eq_succ_of_ne_zero hn
  unfold readFull
  rw [hread]
  dsimp only
  rw [hxs, Nat.sub_self]
  unfold readFull
  rfl

theorem readFull_buffered (hn : n ≤ xs.length) (fuel : ℕ) :
    readFull call size unexpected (fuel + 1) n [] ⟨source, xs, err⟩ = some (.ok (xs.take n), ⟨source, xs.drop n, err⟩) := by
  cases n with
  | zero => rfl
  | succ n =>
    have hxs : xs ≠ [] := fun h => by simp [h] at hn
    exact readFull_of_read n.succ_ne_zero (List.length_take_of_le hn) (read_buffered n.succ_ne_zero hxs) fuel

theorem readFull_fill (hn : n ≠ 0) (hsize : n < size) (hlen : n ≤ xs.length)
    (hcall : call size source = ((xs, err), source')) (fuel : ℕ) :
    readFull call size unexpected (fuel + 1) n [] ⟨source, [], none⟩ =
      some (.ok (xs.take n), ⟨source', xs.drop n, err⟩) := by
  have hxs : xs ≠ [] := fun h => hn (by simpa [h] using hlen)
  exact readFull_of_read hn (List.length_take_of_le hlen) (read_fill hn hsize hxs hcall) fuel

theorem readFull_fill_error (hn : n ≠ 0) (hsize : n < size) {e : ε}
    (hcall : call size source = (([], some e), source')) (fuel : ℕ) :
    readFull call size unexpected (fuel + 1) n [] ⟨source, [], none⟩ = some (.error e, ⟨source', [], none⟩) := by
  obtain ⟨n, rfl⟩ := Nat.exists_eq_succ_of_ne_zero hn
  unfold readFull
  rw [read_fill_nil hn hsize hcall]
  rfl

theorem readFull_pending {e : ε} (hxs : xs ≠ []) (hn : xs.length < n) (fuel : ℕ) :
    readFull call size unexpected (fuel + 2) n [] ⟨source, xs, some e⟩ =
      some (.error (unexpected e), ⟨source, [], none⟩) := by
  obtain ⟨m, rfl⟩ := Nat.exists_eq_add_of_lt hn
  have htake : xs.take (xs.length + m + 1) = xs := List.take_of_length_le (by omega)
  have hdrop : xs.drop (xs.length + m + 1) = [] := List.drop_of_length_le (by omega)
  have hrest : xs.length + m + 1 - xs.length = m + 1 := by omega
  unfold readFull
  rw [read_buffered (Nat.succ_ne_zero _) hxs, htake, hdrop]
  dsimp only
  rw [hrest]
  unfold readFull
  rw [read_pending m.succ_ne_zero]
  simp [hxs]

end BufReader
end MeshDesk.Lib
