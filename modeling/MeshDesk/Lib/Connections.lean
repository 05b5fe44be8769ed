import MeshDesk.Lib.Framing

/-! Connections whose input arrives in pieces with expired read deadlines in between. A parser made of
full reads does on a connection what it does on the input up to the next expiry, however that input is
cut into pieces. -/
namespace MeshDesk.Lib
open List

/-- What a read meets next. After the last item the connection has ended. -/
inductive Incoming (α : Type*) where
  | data (bs : List α)
  | timeout
  deriving DecidableEq, Repr

abbrev Conn (α : Type*) := List (Incoming α)

/-- A parser fails for a reason of its own or because a deadline expired. -/
inductive IncomingError (ε τ : Type*) where
  | failed (e : ε)
  | timeout (t : τ)
  deriving DecidableEq, Repr

namespace Conn
variable {α : Type*}

def lead : Conn α → List α
  | [] => []
  | .timeout :: _ => []
  | .data bs :: c => bs ++ lead c

def later : Conn α → Option (Conn α)
  | [] => none
  | .timeout :: c => some c
  | .data _ :: c => later c

def bytes : Conn α → List α
  | [] => []
  | .timeout :: c => bytes c
  | .data bs :: c => bs ++ bytes c

variable (pieces : List (List α))

def ofPieces : Conn α := pieces.map .data

theorem later_ofPieces : later (ofPieces pieces) = none := by
  induction pieces with
  | nil => rfl
  | cons bs pieces ih => exact ih

theorem bytes_ofPieces : bytes (ofPieces pieces) = pieces.flatten := by
  induction pieces with
  | nil => rfl
  | cons bs pieces ih => exact congrArg (bs ++ ·) ih

/-- Reads are repeated until `n` elements are there. What earlier reads brought is lost when a later
one fails; `got` tells whether there was any. -/
def fill : Conn α → ℕ → Bool → Except (IncomingError ReadError Unit) (List α) × Conn α
  | c, 0, _ => (.ok [], c)
  | [], _ + 1, got => (.error (.failed (if got then .unexpectedEOF else .eof)), [])
  | .timeout :: c, _ + 1, _ => (.error (.timeout ()), c)
  | .data bs :: c, n + 1, got =>
    if n + 1 < bs.length then (.ok (bs.take (n + 1)), .data (bs.drop (n + 1)) :: c)
    else
      let (res, c') := fill c (n + 1 - bs.length) (got || !bs.isEmpty)
      (res.map (bs ++ ·), c')

theorem bytes_eq (c : Conn α) : bytes c = lead c ++ ((later c).map bytes).getD [] := by
  induction c with
  | nil => rfl
  | cons x c ih =>
    cases x with
    | timeout => rfl
    | data bs => rw [bytes, ih, lead, later, append_assoc]

variable {c d : Conn α} {n : ℕ}

theorem bytes_of_later_none (h : later c = none) : bytes c = lead c := by
  rw [bytes_eq, h]
  simp

theorem bytes_of_later_some (h : later c = some d) : bytes c = lead c ++ bytes d := by
  rw [bytes_eq, h]
  rfl

theorem length_later_lt (h : later c = some d) : d.length < c.length := by
  induction c with
  | nil => cases h
  | cons x c ih =>
    cases x with
    | timeout =>
      obtain rfl : c = d := Option.some.inj h
      exact Nat.lt_succ_self _
    | data bs => exact Nat.lt_succ_of_lt (ih h)

/-- What arrives in front of each expiry, since the one before it, satisfies `P`. -/
inductive Aligned (P : List α → Prop) : Conn α → Prop
  | last {c : Conn α} (h : later c = none) : Aligned P c
  | next {c d : Conn α} (h : later c = some d) (hp : P (lead c)) (hd : Aligned P d) : Aligned P c

theorem fill_enough (h : n ≤ (lead c).length) (got : Bool) :
    ∃ c', fill c n got = (.ok ((lead c).take n), c') ∧ lead c' = (lead c).drop n ∧ later c' = later c := by
  induction c generalizing n got with
  | nil =>
    obtain rfl := Nat.le_zero.mp h
    exact ⟨[], by simp [fill], by simp [lead], rfl⟩
  | cons x c ih =>
    cases n with
    | zero => exact ⟨x :: c, by simp [fill], by simp, rfl⟩
    | succ n =>
      cases x with
      | timeout => simp [lead] at h
      | data bs =>
        rw [lead, length_append] at h
        simp only [fill, lead, later]
        split_ifs with hn
        · refine ⟨.data (bs.drop (n + 1)) :: c, ?_, ?_, rfl⟩
          · rw [take_append_of_le_length hn.le]
          · rw [lead, drop_append_of_le_length hn.le]
        · have hle : bs.length ≤ n + 1 := Nat.not_lt.mp hn
          obtain ⟨c', hc, hlead, hlater⟩ := ih (n := n + 1 - bs.length) (by omega) (got || !bs.isEmpty)
          refine ⟨c', ?_, ?_, hlater⟩
          · rw [hc, take_append, take_of_length_le hle]
            rfl
          · rw [hlead, drop_append, drop_of_length_le hle, nil_append]

theorem fill_append {a rest : List α} (h : lead c = a ++ rest) (ha : a.length = n) (got : Bool) :
    ∃ c', fill c n got = (.ok a, c') ∧ lead c' = rest ∧ later c' = later c := by
  obtain ⟨c', hfill, hlead, hlater⟩ := fill_enough (c := c) (n := n) (by simp [h, ha]) got
  rw [h, take_left' ha] at hfill
  rw [h, drop_left' ha] at hlead
  exact ⟨c', hfill, hlead, hlater⟩

theorem fill_expired (h : (lead c).length < n) (hd : later c = some d) (got : Bool) :
    fill c n got = (.error (.timeout ()), d) := by
  induction c generalizing n got with
  | nil => cases hd
  | cons x c ih =>
    obtain _ | n := n
    · omega
    cases x with
    | timeout =>
      obtain rfl : c = d := Option.some.inj hd
      rfl
    | data bs =>
      rw [lead, length_append] at h
      have hrec := ih (n := n + 1 - bs.length) (by omega) hd (got || !bs.isEmpty)
      rw [fill, if_neg (by omega), hrec]
      rfl

theorem fill_ended (h : (lead c).length < n) (hd : later c = none) (got : Bool) :
    (fill c n got).1 = .error (.failed (if got || !(lead c).isEmpty then .unexpectedEOF else .eof)) := by
  induction c generalizing n got with
  | nil =>
    obtain _ | n := n
    · omega
    · simp [fill, lead]
  | cons x c ih =>
    obtain _ | n := n
    · omega
    cases x with
    | timeout => cases hd
    | data bs =>
      rw [lead, length_append] at h
      have hrec := ih (n := n + 1 - bs.length) (by omega) hd (got || !bs.isEmpty)
      rw [fill, if_neg (by omega)]
      dsimp only
      rw [hrec, lead]
      cases bs <;> simp [Except.map]

end Conn

/-- A parser that reads from a connection; a failure leaves the connection where it happened. -/
abbrev ConnParser (ε τ α β : Type) := ExceptT (IncomingError ε τ) (StateM (Conn α)) β

namespace ConnParser
variable {ε τ α β γ : Type}

/-- A full read; `wrap` reports the end of the connection and `label` an expiry. -/
def readN (wrap : ReadError → ε) (label : τ) (n : ℕ) : ConnParser ε τ α (List α) := fun c =>
  match Conn.fill c n false with
  | (.ok bs, c') => (.ok bs, c')
  | (.error (.failed e), c') => (.error (.failed (wrap e)), c')
  | (.error (.timeout ()), c') => (.error (.timeout label), c')

def ensure (p : Prop) [Decidable p] (e : ε) : ConnParser ε τ α Unit := fun c =>
  if p then (.ok (), c) else (.error (.failed e), c)

/-- `y` does on a connection what `x` does on the input up to the next expiry. Where `x` fails for want
of input, the expiry, if there is one, is what `y` reports; it goes on behind it. -/
structure Agrees (short : ε → Bool) (x : List α → Except ε (β × List α)) (y : ConnParser ε τ α β) : Prop where
  ok : ∀ {c b rest}, x (Conn.lead c) = .ok (b, rest) →
    ∃ c', y c = (.ok b, c') ∧ Conn.lead c' = rest ∧ Conn.later c' = Conn.later c
  failed : ∀ {c e}, x (Conn.lead c) = .error e → (short e = true → Conn.later c = none) →
    (y c).1 = .error (.failed e)
  expired : ∀ {c d e}, x (Conn.lead c) = .error e → short e = true → Conn.later c = some d →
    ∃ t, y c = (.error (.timeout t), d)

variable {short : ε → Bool}

variable {y : ConnParser ε τ α β} {g : β → ConnParser ε τ α γ} {c : Conn α}

theorem bind_ok {c' : Conn α} {b : β} (h : y c = (.ok b, c')) : (y >>= g) c = g b c' := by
  change (ExceptT.bindCont g (y c).1) (y c).2 = _
  rw [h]
  rfl

theorem bind_error {e : IncomingError ε τ} (h : (y c).1 = .error e) : (y >>= g) c = (.error e, (y c).2) := by
  change (ExceptT.bindCont g (y c).1) (y c).2 = _
  rw [h]
  rfl

theorem Agrees.pure (b : β) : Agrees (τ := τ) short (fun s : List α => .ok (b, s)) (pure b) where
  ok := by
    rintro c b' rest h
    obtain ⟨rfl, rfl⟩ := Prod.mk.inj (Except.ok.inj h)
    exact ⟨c, rfl, rfl, rfl⟩
  failed := by
    rintro c e h
    cases h
  expired := by
    rintro c d e h
    cases h

theorem Agrees.bind {x : List α → Except ε (β × List α)}
    {f : β × List α → Except ε (γ × List α)} (hx : Agrees short x y)
    (hf : ∀ b, Agrees short (fun s => f (b, s)) (g b)) : Agrees short (fun s => (x s).bind f) (y >>= g) where
  ok := by
    rintro c b' rest h
    obtain ⟨⟨b, s⟩, hxs, hfs⟩ := bind_eq_ok.mp h
    obtain ⟨c', hy, rfl, hlater⟩ := hx.ok hxs
    obtain ⟨c'', hg, hlead, hlater'⟩ := (hf b).ok hfs
    exact ⟨c'', (bind_ok hy).trans hg, hlead, hlater'.trans hlater⟩
  failed := by
    rintro c e h hshort
    rcases bind_eq_error.mp h with hxs | ⟨⟨b, s⟩, hxs, hfs⟩
    · rw [bind_error (hx.failed hxs hshort)]
    · obtain ⟨c', hy, rfl, hlater⟩ := hx.ok hxs
      rw [bind_ok hy]
      exact (hf b).failed hfs (hlater ▸ hshort)
  expired := by
    rintro c d e h hshort hd
    rcases bind_eq_error.mp h with hxs | ⟨⟨b, s⟩, hxs, hfs⟩
    · obtain ⟨t, hy⟩ := hx.expired hxs hshort hd
      refine ⟨t, ?_⟩
      rw [bind_error (congrArg Prod.fst hy), hy]
    · obtain ⟨c', hy, rfl, hlater⟩ := hx.ok hxs
      rw [bind_ok hy]
      exact (hf b).expired hfs hshort (hlater.trans hd)

theorem ensure_bind (p : Prop) [Decidable p] (e : ε) (g : Unit → ConnParser ε τ α γ) (c : Conn α) :
    (ConnParser.ensure p e >>= g) c = if p then g () c else (.error (.failed e), c) := by
  unfold ConnParser.ensure
  split_ifs <;> rfl

theorem Agrees.guard {p : Prop} [Decidable p] {e : ε} {f : Unit → List α → Except ε (γ × List α)}
    {g : Unit → ConnParser ε τ α γ} (he : short e = false) (hf : Agrees short (f ()) (g ())) :
    Agrees short (fun s => (Lib.ensure p e).bind (fun u => f u s)) (ConnParser.ensure p e >>= g) := by
  by_cases hp : p
  · have hx : (fun s => (Lib.ensure p e).bind (fun u => f u s)) = f () := by
      funext s
      rw [ensure_of hp]
      rfl
    have hy : (ConnParser.ensure p e >>= g) = g () := by
      funext c
      rw [ensure_bind, if_pos hp]
    rw [hx, hy]
    exact hf
  · have hx : ∀ s, (Lib.ensure p e).bind (fun u => f u s) = .error e := by
      intro s
      rw [ensure_eq_error.mpr ⟨hp, rfl⟩]
      rfl
    refine ⟨?_, ?_, ?_⟩
    · intro c b rest h
      rw [hx] at h
      cases h
    · intro c e' h _
      rw [hx] at h
      obtain rfl := Except.error.inj h
      rw [ensure_bind, if_neg hp]
    · intro c d e' h hshort
      rw [hx] at h
      obtain rfl := Except.error.inj h
      rw [he] at hshort
      cases hshort

theorem readFull_error {n : ℕ} {s : List α} {r : ReadError} (h : readFull n s = .error r) :
    s.length < n ∧ r = if s.isEmpty then .eof else .unexpectedEOF := by
  unfold readFull at h
  split_ifs at h with hn
  refine ⟨Nat.not_le.mp hn, ?_⟩
  cases s <;> exact (Except.error.inj h).symm

theorem Agrees.readN {wrap : ReadError → ε} (label : τ) (n : ℕ) (hw : ∀ r, short (wrap r) = true) :
    Agrees short (fun s : List α => (readFull n s).mapError wrap) (ConnParser.readN wrap label n) where
  ok := by
    rintro c b rest h
    cases hr : readFull n (Conn.lead c) with
    | error r => rw [hr] at h; cases h
    | ok p =>
      rw [hr] at h
      obtain rfl : p = (b, rest) := Except.ok.inj h
      obtain ⟨hlen, hs⟩ := readFull_ok hr
      obtain ⟨c', hfill, hlead, hlater⟩ := Conn.fill_append hs hlen false
      refine ⟨c', ?_, hlead, hlater⟩
      unfold ConnParser.readN
      rw [hfill]
  failed := by
    rintro c e h hshort
    cases hr : readFull n (Conn.lead c) with
    | ok p => rw [hr] at h; cases h
    | error r =>
      rw [hr] at h
      obtain rfl : wrap r = e := Except.error.inj h
      obtain ⟨hlen, hreason⟩ := readFull_error hr
      have hfill := Conn.fill_ended hlen (hshort (hw r)) false
      unfold ConnParser.readN
      cases hf : Conn.fill c n false with
      | mk res c' =>
        rw [hf] at hfill
        obtain rfl := hfill
        rw [hreason]
        cases Conn.lead c <;> rfl
  expired := by
    rintro c d e h - hd
    cases hr : readFull n (Conn.lead c) with
    | ok p => rw [hr] at h; cases h
    | error r =>
      refine ⟨label, ?_⟩
      unfold ConnParser.readN
      rw [Conn.fill_expired (readFull_error hr).1 hd]

def untilError (y : ConnParser ε τ α β) : ℕ → Conn α → List β × Option (IncomingError ε τ)
  | 0, _ => ([], none)
  | fuel + 1, c =>
    match y c with
    | (.error e, _) => ([], some e)
    | (.ok b, c') => (b :: (untilError y fuel c').1, (untilError y fuel c').2)

theorem Agrees.untilError {C : FrameCodec α β ε} (h : Agrees short C.parse y) (fuel : ℕ) (hc : Conn.later c = none) :
    y.untilError fuel c =
      ((C.parseAll fuel (Conn.bytes c)).1, (C.parseAll fuel (Conn.bytes c)).2.map .failed) := by
  induction fuel generalizing c with
  | zero => rfl
  | succ fuel ih =>
    rw [Conn.bytes_of_later_none hc, FrameCodec.parseAll, ConnParser.untilError]
    cases hp : C.parse (Conn.lead c) with
    | error e =>
      have hr := h.failed hp (fun _ => hc)
      cases hy : y c with
      | mk res c' =>
        rw [hy] at hr
        obtain rfl := hr
        rfl
    | ok p =>
      obtain ⟨b, rest⟩ := p
      obtain ⟨c', hy, hlead, hlater⟩ := h.ok hp
      have hc' := hlater.trans hc
      rw [hy]
      dsimp only
      rw [ih hc', Conn.bytes_of_later_none hc', hlead]

end ConnParser
end MeshDesk.Lib
