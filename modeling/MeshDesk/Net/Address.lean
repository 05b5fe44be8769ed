import MeshDesk.Lib.Bytes

/-! The part of Go's package net that the virtual network uses: addresses, networks, containment, and the texts of
both. A `net.IP` is taken in its 16-byte form, which `Equal`, `To4`, `Contains` and `String` do not tell from the
4-byte one. The texts are left open; they are read back as they were printed. -/
namespace MeshDesk.Net
open Lib (toBE ofBE ofBE_toBE_of_lt)

@[ext] structure IP where
  bits : BitVec 128
  deriving DecidableEq

def v4InV6Prefix : BitVec 96 := 0xffff

namespace IP

def ofV4 (a : BitVec 32) : IP := ⟨v4InV6Prefix ++ a⟩

def to4 (ip : IP) : Option (BitVec 32) :=
  if ip.bits.extractLsb' 32 96 = v4InV6Prefix then some (ip.bits.extractLsb' 0 32) else none

def width (ip : IP) : ℕ := if ip.to4.isSome then 32 else 128

theorem getLsbD_ofV4 (a : BitVec 32) (i : ℕ) :
    (ofV4 a).bits.getLsbD i = if i < 32 then a.getLsbD i else v4InV6Prefix.getLsbD (i - 32) :=
  BitVec.getLsbD_append

@[simp] theorem to4_ofV4 (a : BitVec 32) : (ofV4 a).to4 = some a := by
  unfold to4
  rw [if_pos]
  · congr 1
    ext i hi
    simp [getLsbD_ofV4, hi, BitVec.getLsbD_eq_getElem]
  · ext i hi
    simp [getLsbD_ofV4, hi, BitVec.getLsbD_eq_getElem]

theorem eq_ofV4 {ip : IP} {a : BitVec 32} (h : ip.to4 = some a) : ip = ofV4 a := by
  unfold to4 at h
  split_ifs at h with hp
  obtain ⟨bits⟩ := ip
  simp only [Option.some.injEq] at h hp
  subst h
  unfold ofV4
  rw [← hp]
  congr 1
  ext i hi
  rw [BitVec.getElem_append]
  split_ifs with hlt
  · simp [BitVec.getLsbD_eq_getElem hi]
  · have hi' : 32 + (i - 32) = i := by omega
    simp [hi', BitVec.getLsbD_eq_getElem hi]

end IP

/-- `net.CIDRMask`, the first `ones` of `w` bits set. -/
def cidrMask (w ones : ℕ) : BitVec w := BitVec.allOnes w <<< (w - ones)

theorem getLsbD_cidrMask {w ones i : ℕ} (hi : i < w) : (cidrMask w ones).getLsbD i = decide (w - ones ≤ i) := by
  unfold cidrMask
  rw [BitVec.getLsbD_shiftLeft, BitVec.getLsbD_allOnes]
  by_cases h : w - ones ≤ i
  · have hlt : i - (w - ones) < w := by omega
    simp [hi, h, hlt]
  · simp [hi, h]

@[simp] theorem and_cidrMask_self {w : ℕ} (a : BitVec w) : a &&& cidrMask w w = a := by simp [cidrMask]

/-- A `net.IPNet` whose mask comes from `CIDRMask ones bits`; a 4-byte mask goes with an IPv4 address. -/
structure IPNet where
  ip : IP
  ones : ℕ
  bits : ℕ
  ones_le : ones ≤ bits
  bits_eq : bits = 32 ∧ ip.to4.isSome ∨ bits = 128
  deriving DecidableEq

namespace IPNet

/-- The address with the length of the mask counted in the address's own family. -/
def networkNumberAndMask (n : IPNet) : IP × ℕ :=
  if n.bits = 128 ∧ n.ip.to4.isSome then (n.ip, n.ones - 96) else (n.ip, n.ones)

def samePrefix (nn : IP) (ones : ℕ) (x : IP) : Bool :=
  match nn.to4, x.to4 with
  | some b, some a => b &&& cidrMask 32 ones == a &&& cidrMask 32 ones
  | none, none => nn.bits &&& cidrMask 128 ones == x.bits &&& cidrMask 128 ones
  | _, _ => false

def contains (n : IPNet) (x : IP) : Bool := samePrefix n.networkNumberAndMask.1 n.networkNumberAndMask.2 x

def ofPrefix (ip : IP) (ones : ℕ) : IPNet :=
  match ip.to4 with
  | some a => ⟨.ofV4 (a &&& cidrMask 32 (min ones 32)), min ones 32, 32, min_le_right _ _, .inl ⟨rfl, by simp⟩⟩
  | none => ⟨⟨ip.bits &&& cidrMask 128 (min ones 128)⟩, min ones 128, 128, min_le_right _ _, .inr rfl⟩

def host (ip : IP) : IPNet :=
  match ip.to4 with
  | some a => ⟨.ofV4 a, 32, 32, le_rfl, .inl ⟨rfl, by simp⟩⟩
  | none => ⟨ip, 128, 128, le_rfl, .inr rfl⟩

section Containment
variable {n : IPNet} {nn x : IP} {ones : ℕ}

theorem contains_eq (h : n.networkNumberAndMask = (nn, ones)) (x : IP) : n.contains x = samePrefix nn ones x := by
  unfold contains
  rw [h]

theorem samePrefix_v4 {a b : BitVec 32} (hn : nn.to4 = some b) (hx : x.to4 = some a) :
    samePrefix nn ones x = (b &&& cidrMask 32 ones == a &&& cidrMask 32 ones) := by
  unfold samePrefix
  rw [hn, hx]

theorem samePrefix_v6 (hn : nn.to4 = none) (hx : x.to4 = none) :
    samePrefix nn ones x = (nn.bits &&& cidrMask 128 ones == x.bits &&& cidrMask 128 ones) := by
  unfold samePrefix
  rw [hn, hx]

theorem samePrefix_families (h : nn.to4.isSome ≠ x.to4.isSome) : samePrefix nn ones x = false := by
  unfold samePrefix
  cases hn : nn.to4 <;> cases hx : x.to4 <;> simp_all

theorem to4_masked {ip : IP} (h : ip.to4 = none) (ones : ℕ) : (IP.mk (ip.bits &&& cidrMask 128 ones)).to4 = none := by
  unfold IP.to4 at h ⊢
  rw [if_neg]
  intro hm
  have hbit : ∀ i < 96, (ip.bits.getLsbD (32 + i) && decide (128 - ones ≤ 32 + i)) = v4InV6Prefix.getLsbD i := by
    intro i hi
    have hget : ((ip.bits &&& cidrMask 128 ones).extractLsb' 32 96).getLsbD i = v4InV6Prefix.getLsbD i := by rw [hm]
    rw [BitVec.getLsbD_extractLsb', BitVec.getLsbD_and, getLsbD_cidrMask (by omega)] at hget
    simpa [hi] using hget
  -- the lowest bit of the prefix is set, so the mask reaches below it and keeps the whole prefix
  have hlow : 128 - ones ≤ 32 := by
    have h0 := hbit 0 (by omega)
    simp only [v4InV6Prefix] at h0
    simp at h0
    omega
  have heq : ip.bits.extractLsb' 32 96 = v4InV6Prefix := by
    ext i hi
    have hi' := hbit i hi
    have hle : 128 - ones ≤ 32 + i := by omega
    rw [decide_eq_true hle, Bool.and_true] at hi'
    simpa [hi] using hi'
  rw [if_pos heq] at h
  cases h

theorem contains_ofPrefix {ip : IP} (h : ones ≤ ip.width) (x : IP) :
    (ofPrefix ip ones).contains x = samePrefix ip ones x := by
  cases hip : ip.to4 with
  | some a =>
    have hle : ones ≤ 32 := by simpa [IP.width, hip] using h
    have hof : (ofPrefix ip ones).networkNumberAndMask = (.ofV4 (a &&& cidrMask 32 ones), ones) := by
      simp [ofPrefix, hip, networkNumberAndMask, hle]
    rw [contains_eq hof]
    cases hx : x.to4 with
    | none => rw [samePrefix_families (by simp [hx]), samePrefix_families (by simp [hip, hx])]
    | some b => rw [samePrefix_v4 (IP.to4_ofV4 _) hx, samePrefix_v4 hip hx, BitVec.and_assoc, BitVec.and_self]
  | none =>
    have hle : ones ≤ 128 := by simpa [IP.width, hip] using h
    have hm := to4_masked hip ones
    have hof : (ofPrefix ip ones).networkNumberAndMask = (⟨ip.bits &&& cidrMask 128 ones⟩, ones) := by
      simp [ofPrefix, hip, networkNumberAndMask, hle, hm]
    rw [contains_eq hof]
    cases hx : x.to4 with
    | none => rw [samePrefix_v6 hm hx, samePrefix_v6 hip hx, BitVec.and_assoc, BitVec.and_self]
    | some b => rw [samePrefix_families (by simp [hm, hx]), samePrefix_families (by simp [hip, hx])]

theorem contains_host (ip x : IP) : (host ip).contains x = decide (x = ip) := by
  have hhost : host ip = ofPrefix ip ip.width := by
    unfold host ofPrefix IP.width
    split <;> simp [*]
  rw [hhost, contains_ofPrefix le_rfl, Bool.eq_iff_iff, decide_eq_true_iff]
  unfold IP.width
  cases hip : ip.to4 <;> cases hx : x.to4
  · simp [samePrefix_v6 hip hx, eq_comm (a := x), IP.ext_iff]
  · rw [samePrefix_families (by simp [hip, hx])]
    exact iff_of_false nofun (by rintro rfl; cases hip.symm.trans hx)
  · rw [samePrefix_families (by simp [hip, hx])]
    exact iff_of_false nofun (by rintro rfl; cases hip.symm.trans hx)
  · simp only [samePrefix_v4 hip hx, Option.isSome_some, if_true, and_cidrMask_self, beq_iff_eq]
    constructor
    · rintro rfl
      exact (IP.eq_ofV4 hx).trans (IP.eq_ofV4 hip).symm
    · rintro rfl
      exact Option.mem_unique hip hx

theorem networkNumberAndMask_le (n : IPNet) : n.networkNumberAndMask.2 ≤ n.networkNumberAndMask.1.width := by
  have hle := n.ones_le
  unfold networkNumberAndMask IP.width
  obtain ⟨h32, h4⟩ | h128 := n.bits_eq
  · simp [h32, h4]
    omega
  · by_cases h4 : n.ip.to4.isSome <;> simp [h128, h4] <;> omega

end Containment
end IPNet

/-- The texts of addresses and networks: `IP.String`, the `ip/ones` that `IPNet.String` prints, `ParseIP`
and `ParseCIDR`. A printed text is read back as what was printed. -/
structure NetText where
  ipString : IP → String
  netString : IP → ℕ → String
  parseIP : String → Option IP
  parseCIDR : String → Option (IP × IPNet)
  parseIP_ipString (ip : IP) : parseIP (ipString ip) = some ip
  parseCIDR_netString (ip : IP) (ones : ℕ) (h : ones ≤ ip.width) :
    parseCIDR (netString ip ones) = some (ip, .ofPrefix ip ones)
  parseIP_empty : parseIP "" = none
  parseCIDR_empty : parseCIDR "" = none
  parseCIDR_star : parseCIDR "*" = none

namespace NetText
variable (T : NetText)

def print (n : IPNet) : String := T.netString n.networkNumberAndMask.1 n.networkNumberAndMask.2

theorem parseCIDR_print (n : IPNet) :
    ∃ ip n', T.parseCIDR (T.print n) = some (ip, n') ∧ ∀ x, n'.contains x = n.contains x :=
  ⟨_, _, T.parseCIDR_netString _ _ n.networkNumberAndMask_le,
    fun x => IPNet.contains_ofPrefix n.networkNumberAndMask_le x⟩

end NetText

/-! ### Texts that can be evaluated: the sixteen bytes of the address, one character each, and the length
of the mask as one more character. -/

def charsOf (ip : IP) : List Char := (toBE 16 ip.bits.toNat).map (fun b => Char.ofNat b.toNat)

def ofChars (cs : List Char) : IP := ⟨BitVec.ofNat 128 (ofBE (cs.map (fun c => UInt8.ofNat c.toNat)))⟩

theorem charsOf_length (ip : IP) : (charsOf ip).length = 16 := by simp [charsOf]

theorem toNat_ofNat_char {n : ℕ} (h : n < 256) : (Char.ofNat n).toNat = n := by
  have hv : n.isValidChar := .inl (by omega)
  unfold Char.ofNat
  rw [dif_pos hv]
  rfl

theorem width_lt (ip : IP) : ip.width < 256 := by
  unfold IP.width
  split_ifs <;> omega

theorem ofChars_charsOf (ip : IP) : ofChars (charsOf ip) = ip := by
  have hbytes : (charsOf ip).map (fun c => UInt8.ofNat c.toNat) = toBE 16 ip.bits.toNat := by
    rw [charsOf, List.map_map]
    refine List.map_id'' (fun b => ?_) _
    change UInt8.ofNat (Char.ofNat b.toNat).toNat = b
    rw [toNat_ofNat_char b.toNat_lt, UInt8.ofNat_toNat]
  unfold ofChars
  rw [hbytes, ofBE_toBE_of_lt (by have := ip.bits.isLt; omega)]
  ext1
  rw [BitVec.ofNat_toNat, BitVec.setWidth_eq]

def byteText : NetText where
  ipString ip := .ofList (charsOf ip)
  netString ip ones := .ofList (charsOf ip ++ [Char.ofNat ones])
  parseIP s := if s.toList.length = 16 then some (ofChars s.toList) else none
  parseCIDR s :=
    let ip := ofChars (s.toList.take 16)
    match s.toList.drop 16 with
    | [c] => if c.toNat ≤ ip.width then some (ip, .ofPrefix ip c.toNat) else none
    | _ => none
  parseIP_ipString ip := by
    rw [String.toList_ofList, if_pos (charsOf_length ip), ofChars_charsOf]
  parseCIDR_netString ip ones h := by
    have hlt : ones < 256 := lt_of_le_of_lt h (width_lt ip)
    have htake : (charsOf ip ++ [Char.ofNat ones]).take 16 = charsOf ip := by
      rw [← charsOf_length ip, List.take_left]
    have hdrop : (charsOf ip ++ [Char.ofNat ones]).drop 16 = [Char.ofNat ones] := by
      rw [← charsOf_length ip, List.drop_left]
    simp only [String.toList_ofList, htake, hdrop, ofChars_charsOf, toNat_ofNat_char hlt, if_pos h]
  parseIP_empty := by decide
  parseCIDR_empty := by decide
  parseCIDR_star := by decide

end MeshDesk.Net
