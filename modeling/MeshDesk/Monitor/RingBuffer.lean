import MeshDesk.Lib.Rotation
import MeshDesk.Monitor.Reporting

/-! The two-tier buffer of a node's samples. -/
namespace MeshDesk.Monitor
open Lib
open Proxy (GoString Time Duration second)

def lowResSlots : ℕ := 7 * 24 * 12

def lowResResolution : Duration := 5 * 60 * second

/-- `lastHighResTS` is the time of the last sample written to the low-resolution tier. -/
structure RingBuffer where
  highRes : Rotation Metrics := {}
  lowRes : Rotation Metrics := {}
  lastHighResTS : Time := 0

namespace RingBuffer

variable (rb : RingBuffer)

/-- `Sub` saturates, which a comparison with five minutes does not see. -/
def append (m : Option Metrics) : RingBuffer :=
  match m with
  | none => rb
  | some m =>
    if m.timestamp = 0 then rb
    else
      let rb := { rb with highRes := rb.highRes.push highResSlots m }
      if rb.lastHighResTS = 0 ∨ m.timestamp - rb.lastHighResTS ≥ lowResResolution then
        { rb with lowRes := rb.lowRes.push lowResSlots m, lastHighResTS := m.timestamp }
      else rb

def latest : Option Metrics := rb.highRes.last? highResSlots

def highResList : List Metrics := rb.highRes.toList highResSlots

def lowResList : List Metrics := rb.lowRes.toList lowResSlots

def clear (_ : RingBuffer) : RingBuffer := {}

/-! ### What the buffer holds -/

/-- A sample is taken if it is the first or at least five minutes after the one taken last. -/
def takeSpaced (taken : List Metrics) (m : Metrics) : List Metrics :=
  match taken.getLast? with
  | none => [m]
  | some p => if p.timestamp + lowResResolution ≤ m.timestamp then taken ++ [m] else taken

def spaced (xs : List Metrics) : List Metrics := xs.foldl takeSpaced []

/-- The buffer after the samples `xs` were accepted. -/
structure Represents (xs : List Metrics) : Prop where
  high : rb.highRes.Holds highResSlots xs
  low : rb.lowRes.Holds lowResSlots (spaced xs)
  last : match (spaced xs).getLast? with
    | none => rb.lastHighResTS = 0
    | some p => rb.lastHighResTS = p.timestamp ∧ p.timestamp ≠ 0

/-- The samples `Append` accepts. -/
def accept (m : Option Metrics) : List Metrics := m.toList.filter (·.timestamp ≠ 0)

variable {rb} {xs : List Metrics}

theorem represents_empty : Represents {} [] := ⟨Rotation.holds_empty, Rotation.holds_empty, rfl⟩

theorem Represents.append (h : rb.Represents xs) (m : Option Metrics) :
    (rb.append m).Represents (xs ++ accept m) := by
  rcases m with _ | m
  · simpa [RingBuffer.append, accept] using h
  by_cases h0 : m.timestamp = 0
  · simpa [RingBuffer.append, accept, h0] using h
  have hlast := h.last
  have hhigh := h.high.push m
  have hlow := h.low.push m
  have hsp : spaced (xs ++ [m]) = takeSpaced (spaced xs) m := by simp [spaced, List.foldl_append]
  have hacc : accept (some m) = [m] := by simp [accept, h0]
  simp only [hacc, RingBuffer.append, if_neg h0]
  unfold takeSpaced at hsp
  cases hg : (spaced xs).getLast? with
  | none =>
    simp only [hg] at hlast hsp
    rw [if_pos (Or.inl hlast)]
    rw [List.getLast?_eq_none_iff.mp hg, List.nil_append, ← hsp] at hlow
    exact ⟨hhigh, hlow, by simp [hsp, h0]⟩
  | some p =>
    simp only [hg] at hlast hsp
    have hiff : (rb.lastHighResTS = 0 ∨ m.timestamp - rb.lastHighResTS ≥ lowResResolution) ↔
        p.timestamp + lowResResolution ≤ m.timestamp := by
      rw [hlast.1, or_iff_right hlast.2, ge_iff_le, le_sub_iff_add_le']
    by_cases hp : p.timestamp + lowResResolution ≤ m.timestamp
    · rw [if_pos hp] at hsp
      rw [if_pos (hiff.mpr hp)]
      exact ⟨hhigh, hsp ▸ hlow, by simp [hsp, h0]⟩
    · rw [if_neg hp] at hsp
      rw [if_neg (hiff.not.mpr hp)]
      exact ⟨hhigh, hsp ▸ h.low, by simpa only [hsp, hg] using hlast⟩

section
variable (h : rb.Represents xs)
include h

theorem Represents.latest : rb.latest = xs.getLast? := h.high.last? (by decide)

theorem Represents.highRes : rb.highResList = xs.drop (xs.length - 720) := h.high.toList (by decide)

theorem Represents.lowRes : rb.lowResList = (spaced xs).drop ((spaced xs).length - 2016) :=
  h.low.toList (by decide)

end

inductive Call
  | append (m : Option Metrics)
  | clear

def call : RingBuffer → Call → RingBuffer
  | rb, .append m => rb.append m
  | rb, .clear => rb.clear

/-- The samples accepted since the last `Clear`. -/
def accepted (xs : List Metrics) : Call → List Metrics
  | .append m => xs ++ accept m
  | .clear => []

theorem Represents.run (h : rb.Represents xs) (calls : List Call) :
    (calls.foldl call rb).Represents (calls.foldl accepted xs) := by
  induction calls generalizing rb xs with
  | nil => exact h
  | cons c calls ih =>
    cases c with
    | append m => exact ih (h.append m)
    | clear => exact ih represents_empty

theorem run_holds_last (calls : List Call) :
    let rb := calls.foldl call {}
    let xs := calls.foldl accepted []
    rb.highResList = xs.drop (xs.length - 720) ∧ rb.latest = xs.getLast? ∧
      rb.lowResList = (spaced xs).drop ((spaced xs).length - 2016) :=
  have h := represents_empty.run calls
  ⟨h.highRes, h.latest, h.lowRes⟩

end RingBuffer

end MeshDesk.Monitor
