import MeshDesk.Lib.Bytes

/-! Streams of self-delimiting frames. A codec is a printer and a parser that invert each other
on whole frames; the results are about a stream read to its end by repeated parsing. -/
namespace MeshDesk.Lib

/-- A parser reads one frame off the front of the input or fails. -/
structure FrameCodec (α β ε : Type*) where
  parse : List α → Except ε (β × List α)
  print : β → List α
  valid : β → Prop
  parse_print : ∀ b rest, valid b → parse (print b ++ rest) = .ok (b, rest)
  parse_sound : ∀ s b rest, parse s = .ok (b, rest) → valid b ∧ s = print b ++ rest
  print_ne_nil : ∀ b, valid b → print b ≠ []

namespace FrameCodec
variable {α β ε : Type*} (C : FrameCodec α β ε)

/-- Parse frames until the first failure. A frame is not empty, so fuel beyond the length of the
input is never used up. -/
def parseAll : ℕ → List α → List β × Option ε
  | 0, _ => ([], none)
  | fuel + 1, s =>
    match C.parse s with
    | .error e => ([], some e)
    | .ok (b, rest) => (b :: (parseAll fuel rest).1, (parseAll fuel rest).2)

section
variable {C} {s : List α} (fuel : ℕ)

theorem parseAll_error {e : ε} (h : C.parse s = .error e) : C.parseAll (fuel + 1) s = ([], some e) := by
  rw [parseAll, h]

theorem parseAll_ok {b : β} {rest : List α} (h : C.parse s = .ok (b, rest)) :
    C.parseAll (fuel + 1) s = (b :: (C.parseAll fuel rest).1, (C.parseAll fuel rest).2) := by
  rw [parseAll, h]

end

theorem parseAll_print (bs : List β) (rest : List α) (e : ε) (fuel : ℕ) (hv : ∀ b ∈ bs, C.valid b)
    (he : C.parse rest = .error e) (hf : (bs.flatMap C.print ++ rest).length < fuel) :
    C.parseAll fuel (bs.flatMap C.print ++ rest) = (bs, some e) := by
  induction fuel generalizing bs with
  | zero => omega
  | succ fuel ih =>
    cases bs with
    | nil => exact parseAll_error fuel he
    | cons b bs =>
      have hb := hv b List.mem_cons_self
      have hpos : 0 < (C.print b).length := List.length_pos_iff.mpr (C.print_ne_nil b hb)
      have hlen : (bs.flatMap C.print ++ rest).length < fuel := by
        simp only [List.flatMap_cons, List.append_assoc, List.length_append] at hf ⊢
        omega
      have hrec := ih bs (fun b' hb' => hv b' (List.mem_cons_of_mem _ hb')) hlen
      rw [List.flatMap_cons, List.append_assoc, parseAll_ok fuel (C.parse_print b _ hb), hrec]

theorem parseAll_sound {s : List α} {bs : List β} {e : ε} {fuel : ℕ} (h : C.parseAll fuel s = (bs, some e)) :
    ∃ rest, s = bs.flatMap C.print ++ rest ∧ C.parse rest = .error e := by
  induction fuel generalizing s bs with
  | zero => cases h
  | succ fuel ih =>
    cases hp : C.parse s with
    | error e' =>
      rw [parseAll_error fuel hp] at h
      cases h
      exact ⟨s, rfl, hp⟩
    | ok r =>
      obtain ⟨b, s'⟩ := r
      rw [parseAll_ok fuel hp] at h
      obtain ⟨rfl, he⟩ := Prod.mk.inj h
      obtain ⟨rest, hs, hr⟩ := ih (Prod.ext rfl he)
      obtain ⟨-, hcat⟩ := C.parse_sound s b s' hp
      exact ⟨rest, by rw [hcat, List.flatMap_cons, List.append_assoc, ← hs], hr⟩

theorem parseAll_valid (fuel : ℕ) (s : List α) : ∀ b ∈ (C.parseAll fuel s).1, C.valid b := by
  induction fuel generalizing s with
  | zero => exact List.forall_mem_nil _
  | succ fuel ih =>
    cases hp : C.parse s with
    | error e =>
      rw [parseAll_error fuel hp]
      exact List.forall_mem_nil _
    | ok r =>
      rw [parseAll_ok fuel hp]
      exact List.forall_mem_cons.mpr ⟨(C.parse_sound s r.1 r.2 hp).1, ih r.2⟩

theorem parseAll_fails {s : List α} {fuel : ℕ} (hf : s.length < fuel) : ∃ bs e, C.parseAll fuel s = (bs, some e) := by
  induction fuel generalizing s with
  | zero => omega
  | succ fuel ih =>
    cases hp : C.parse s with
    | error e => exact ⟨[], e, parseAll_error fuel hp⟩
    | ok r =>
      obtain ⟨b, rest⟩ := r
      obtain ⟨hb, rfl⟩ := C.parse_sound s b rest hp
      have hpos : 0 < (C.print b).length := List.length_pos_iff.mpr (C.print_ne_nil b hb)
      rw [List.length_append] at hf
      obtain ⟨bs, e, hrest⟩ := ih (s := rest) (by omega)
      exact ⟨b :: bs, e, by rw [parseAll_ok fuel hp, hrest]⟩

end FrameCodec
end MeshDesk.Lib
