import Mathlib.Data.List.Count
import MeshDesk.Lib.Table
import MeshDesk.Smux.SessionEffects

/-! The stream limit. Every slot of `streamSlotCh` belongs to a stream that was opened or accepted, or
to a call that is about to create one, as long as no stream is both reset and closed: each of the two
gives the slot back. -/
namespace MeshDesk.Smux
open Lib SessionTask
open List

/-- The part of a stream that decides whether it occupies a slot. -/
structure StreamKey where
  id : UInt32
  closePc : ClosePc
  wasReset : Bool
  deriving DecidableEq, Repr

def StreamObj.key (o : StreamObj) : StreamKey := ⟨o.id, o.closePc, o.wasReset⟩

def StreamKey.live (k : StreamKey) : Bool := decide (k.closePc ≠ .closed) && !k.wasReset

def ReaderPc.holds : ReaderPc → ℕ
  | .synCreate _ => 1
  | _ => 0

def ReaderPc.resets : ReaderPc → Option ℕ
  | .rstMark ref _ => some ref
  | .rstRemove ref _ => some ref
  | .rstRelease ref => some ref
  | _ => none

namespace Session

variable (s : Session)

def keys : List StreamKey := s.objects.map StreamObj.key

def liveStreams : ℕ := s.objects.countP StreamObj.live

/-- No stream is both reset by the remote and closed here: a `Close` does not start on a stream that
has been or is being reset, and an RST does not find a stream whose `Close` has started. -/
def ResetOrClosed (_ : Pick) : SessionTask → Prop
  | .closeStream ref => ∀ o ∈ s.objects[ref]?, o.closePc = .notStarted →
      o.wasReset = false ∧ s.reader.resets ≠ some ref
  | .readNext (some f) => f.type = .rst → ∀ ref ∈ s.streams.lookup f.streamID,
      ∀ o ∈ s.objects[ref]?, o.closePc = .notStarted
  | _ => True

instance (s : Session) (pick : Pick) (t : SessionTask) : Decidable (s.ResetOrClosed pick t) :=
  match t with
  | .closeStream _ => inferInstanceAs (Decidable (∀ o ∈ _, _ → _))
  | .readNext (some _) => inferInstanceAs (Decidable (_ → ∀ ref ∈ _, ∀ o ∈ _, _))
  | .readNext none | .openCheck | .openAcquire | .openCanceled | .openAllocate | .openReleaseSlot
  | .openSyn _ _ | .openRemove _ | .acceptCheck | .accept | .readOn | .closeSession | .clearStreams
  | .done _ => isTrue trivial

theorem liveStreams_eq : s.liveStreams = s.keys.countP StreamKey.live := by
  rw [keys, countP_map]
  rfl

end Session

section Keys
variable {ref : ℕ}

theorem countP_set_live {K : List StreamKey} {k : StreamKey} (hk : K[ref]? = some k) (k' : StreamKey) :
    (K.set ref k').countP StreamKey.live + k.live.toNat = K.countP StreamKey.live + k'.live.toNat := by
  obtain ⟨hlt, hget⟩ := List.getElem?_eq_some_iff.mp hk
  have hpos : k.live = true → 0 < K.countP StreamKey.live :=
    fun hlive => countP_pos_iff.mpr ⟨k, mem_of_getElem? hk, hlive⟩
  rw [countP_set hlt, hget]
  cases hlive : k.live with
  | true =>
    have := hpos hlive
    cases k'.live <;> simp <;> omega
  | false => cases k'.live <;> simp

end Keys

/-- A stream in the map: it has its identifier, was not reset, and its `Close` has not got to the
removal. -/
def StreamKey.Registered (k : StreamKey) (id : UInt32) : Prop :=
  k.id = id ∧ k.wasReset = false ∧ k.closePc ≠ .releaseSlot ∧ k.closePc ≠ .closed

def ReaderPc.Resetting (K : List StreamKey) (m : Map UInt32 ℕ) : ReaderPc → Prop
  | .rstMark ref id => K[ref]? = some ⟨id, .notStarted, false⟩
  | .rstRemove ref id => K[ref]? = some ⟨id, .notStarted, false⟩
  | .rstRelease ref => (∃ id, K[ref]? = some ⟨id, .notStarted, false⟩) ∧ ∀ id, m.lookup id ≠ some ref
  | _ => True

namespace Session

structure Balanced (s : Session) (n : ℕ) : Prop where
  limited : 0 < s.cfg.maxStreams
  bounded : (s.slots : ℤ) ≤ s.cfg.maxStreams
  law : s.slots = s.keys.countP StreamKey.live + s.reader.holds + n
  found : ∀ id ref, s.streams.lookup id = some ref → ∃ k, s.keys[ref]? = some k ∧ k.Registered id
  resetting : s.reader.Resetting s.keys s.streams
  kept : ∀ k ∈ s.keys, k.wasReset = true → k.closePc = .notStarted

variable {s : Session} {n : ℕ}

theorem balanced_new {cfg : Config} (h : 0 < cfg.maxStreams) (clientMode : Bool) :
    Balanced (newSession cfg clientMode) 0 where
  limited := h
  bounded := h.le
  law := rfl
  found := fun id ref hl => by
    rw [newSession, AList.lookup_empty] at hl
    cases hl
  resetting := trivial
  kept := nofun

variable {K : List StreamKey} {pc : ReaderPc} {ref : ℕ} {o : StreamObj} {pick : Pick}

theorem Resetting.move {K' : List StreamKey} {m m' : Map UInt32 ℕ} (h : pc.Resetting K m)
    (hK : ∀ ref k, pc.resets = some ref → K[ref]? = some k → K'[ref]? = some k)
    (hm : ∀ ref id, ref < K.length → m'.lookup id = some ref → m.lookup id = some ref) : pc.Resetting K' m' := by
  cases pc with
  | rstMark ref id | rstRemove ref id => exact hK ref _ rfl h
  | rstRelease ref =>
    obtain ⟨⟨id, hid⟩, hnone⟩ := h
    exact ⟨⟨id, hK ref _ rfl hid⟩, fun k hl => hnone k (hm ref k (List.getElem?_eq_some_iff.mp hid).1 hl)⟩
  | _ => trivial

theorem Resetting.found {m : Map UInt32 ℕ} (h : pc.Resetting K m) (hres : pc.resets = some ref) :
    ∃ id, K[ref]? = some ⟨id, .notStarted, false⟩ := by
  cases pc with
  | rstMark _ id | rstRemove _ id =>
    cases hres
    exact ⟨id, h⟩
  | rstRelease =>
    cases hres
    exact h.1
  | _ => cases hres

end Session

section Passing
variable {K : List StreamKey} {m : Map UInt32 ℕ} {pc pc' : ReaderPc}

theorem ReaderPc.holds_of_plain (h : pc.plain = true) : pc.holds = 0 := by
  cases pc <;> first | rfl | cases h

theorem ReaderPc.resetting_of_plain (h : pc.plain = true) : pc.Resetting K m := by
  cases pc <;> trivial

theorem ReaderPc.Passes.holds (h : pc.Passes pc') : pc'.holds = pc.holds := by
  cases h with
  | plain h h' => rw [ReaderPc.holds_of_plain h, ReaderPc.holds_of_plain h']
  | _ => rfl

theorem ReaderPc.Passes.resetting (h : pc.Passes pc') (hpc : pc.Resetting K m) : pc'.Resetting K m := by
  cases h with
  | stays => exact hpc
  | plain h h' => exact ReaderPc.resetting_of_plain h'
  | _ => trivial

end Passing

namespace Session
variable {s : Session} {n : ℕ} {K : List StreamKey} {pc : ReaderPc} {ref : ℕ} {o : StreamObj} {pick : Pick}

theorem Balanced.quiet (h : Balanced s n) {s' : Session} (hcfg : s'.cfg = s.cfg) (hslots : s'.slots = s.slots)
    (hkeys : s'.keys = s.keys) (hstreams : ∀ id ref, s'.streams.lookup id = some ref → s.streams.lookup id = some ref)
    (hreader : s'.reader = s.reader) : Balanced s' n where
  limited := by
    rw [hcfg]
    exact h.limited
  bounded := by
    rw [hcfg, hslots]
    exact h.bounded
  law := by
    rw [hslots, hkeys, hreader]
    exact h.law
  found := fun id ref hl => by
    rw [hkeys]
    exact h.found id ref (hstreams id ref hl)
  resetting := by
    rw [hkeys, hreader]
    exact Resetting.move h.resetting (fun _ _ _ hk => hk) fun ref id _ hl => hstreams id ref hl
  kept := by
    rw [hkeys]
    exact h.kept

theorem Balanced.setReader {m : ℕ} (h : Balanced s m)
    (hholds : s.reader.holds + m = pc.holds + n) (hpc : pc.Resetting s.keys s.streams) :
    Balanced { s with reader := pc } n where
  limited := h.limited
  bounded := h.bounded
  law := by
    have hlaw := h.law
    change s.slots = s.keys.countP StreamKey.live + pc.holds + n
    omega
  found := h.found
  resetting := hpc
  kept := h.kept

theorem Balanced.write (h : Balanced s n) (f : Frame) : Balanced (s.write f) n :=
  h.quiet rfl rfl rfl (fun _ _ hl => hl) rfl

theorem Balanced.removeStream (h : Balanced s n) (id : UInt32) : Balanced (s.removeStream id) n :=
  h.quiet rfl rfl rfl (fun _ _ hl => (Map.lookup_of_erase hl).2) rfl

theorem Balanced.updateStream (h : Balanced s n) (ref : ℕ) (f : Stream → Stream) :
    Balanced (s.updateObject ref (fun o => { o with st := f o.st })) n :=
  h.quiet rfl rfl (Table.map_modify (f := fun o : StreamObj => { o with st := f o.st }) (fun _ => rfl) _ _)
    (fun _ _ hl => hl) rfl

theorem Balanced.clearStreams (h : Balanced s n) : Balanced s.clearStreams n := by
  refine h.quiet rfl rfl (Table.map_mapIdx (fun i o => ?_)) (fun id ref hl => ?_) rfl
  · split_ifs <;> rfl
  · have hempty : (∅ : Map UInt32 ℕ).lookup id = some ref := hl
    cases hempty

theorem Balanced.takeSlot (h : Balanced s n) (hfree : s.slotFree = true) : Balanced s.takeSlot (n + 1) := by
  have hlt : (s.slots : ℤ) < s.cfg.maxStreams := by
    have hlimited := h.limited
    rw [slotFree, Bool.or_eq_true, decide_eq_true_eq, decide_eq_true_eq] at hfree
    omega
  rw [Session.takeSlot, if_pos h.limited]
  refine ⟨h.limited, ?_, ?_, h.found, h.resetting, h.kept⟩
  · change ((s.slots + 1 : ℕ) : ℤ) ≤ s.cfg.maxStreams
    omega
  · have hlaw := h.law
    change s.slots + 1 = s.keys.countP StreamKey.live + s.reader.holds + (n + 1)
    omega

theorem Balanced.releaseHeld (h : Balanced s (n + 1)) : Balanced s.releaseSlot n := by
  have hlaw := h.law
  have hbounded := h.bounded
  rw [Session.releaseSlot, if_pos h.limited]
  refine ⟨h.limited, ?_, ?_, h.found, h.resetting, h.kept⟩
  · change ((s.slots - 1 : ℕ) : ℤ) ≤ s.cfg.maxStreams
    omega
  · change s.slots - 1 = s.keys.countP StreamKey.live + s.reader.holds + n
    omega

theorem keys_register (s : Session) (id : UInt32) (openedHere : Bool) :
    (s.register id openedHere).keys = s.keys ++ [⟨id, .notStarted, false⟩] := by
  simp [keys, register, StreamObj.key]

theorem getElem?_append_of_some {k : StreamKey} (h : K[ref]? = some k)
    (L : List StreamKey) : (K ++ L)[ref]? = some k := by
  rw [getElem?_append_left (List.getElem?_eq_some_iff.mp h).1]
  exact h

theorem Balanced.register (h : Balanced s (n + 1)) (id : UInt32) (openedHere : Bool) :
    Balanced (s.register id openedHere) n := by
  have hkeys := s.keys_register id openedHere
  have hnew : s.keys.length = s.objects.length := length_map ..
  refine ⟨h.limited, h.bounded, ?_, fun k ref hl => ?_, ?_, ?_⟩
  · have hlaw := h.law
    rw [hkeys, countP_append]
    change s.slots = s.keys.countP StreamKey.live + 1 + s.reader.holds + n
    omega
  · rw [hkeys]
    have hinsert : (s.streams.insert id s.objects.length).lookup k = some ref := hl
    obtain ⟨rfl, rfl⟩ | ⟨-, hold⟩ := Map.lookup_of_insert hinsert
    · refine ⟨⟨k, .notStarted, false⟩, ?_, rfl, rfl, nofun, nofun⟩
      rw [← hnew, getElem?_concat_length]
    · obtain ⟨x, hx, hreg⟩ := h.found k ref hold
      exact ⟨x, getElem?_append_of_some hx _, hreg⟩
  · rw [hkeys]
    refine Resetting.move h.resetting (fun _ _ _ hk => getElem?_append_of_some hk _) fun ref k hlt hl => ?_
    obtain ⟨-, rfl⟩ | ⟨-, hold⟩ := Map.lookup_of_insert hl
    · exact absurd (hnew ▸ hlt) (lt_irrefl _)
    · exact hold
  · rw [hkeys]
    exact forall_mem_append.mpr ⟨h.kept, forall_mem_singleton.mpr nofun⟩

/-! ### Closing and resetting a stream -/

theorem getElem?_keys (h : s.objects[ref]? = some o) : s.keys[ref]? = some o.key := by
  rw [keys, getElem?_map, h]
  rfl

theorem Resetting.set {m : Map UInt32 ℕ} (h : pc.Resetting K m)
    (hne : pc.resets ≠ some ref) (k : StreamKey) : pc.Resetting (K.set ref k) m := by
  refine Resetting.move h (fun ref' k' hpc hk => ?_) fun _ _ _ hl => hl
  have hother : ref ≠ ref' := by
    rintro rfl
    exact hne hpc
  rw [getElem?_set_ne hother, hk]

theorem Balanced.not_resets (h : Balanced s n) {k : StreamKey} (hk : s.keys[ref]? = some k)
    (hpc : k.closePc ≠ .notStarted) : s.reader.resets ≠ some ref := by
  intro hres
  obtain ⟨id, hid⟩ := Resetting.found h.resetting hres
  obtain rfl := Option.mem_unique hk hid
  exact hpc rfl

theorem keys_modify (ho : s.objects[ref]? = some o) (f : StreamObj → StreamObj) :
    (s.objects.modify ref f).map StreamObj.key = s.keys.set ref (f o).key :=
  Table.map_modify_set fun x hx => by rw [Option.mem_unique ho hx]

section
variable (h : Balanced s n)
include h

theorem Balanced.setClosePc (ho : s.objects[ref]? = some o)
    {f : StreamObj → StreamObj} {pc : ClosePc} (hf : (f o).key = ⟨o.id, pc, o.wasReset⟩)
    (hreset : o.wasReset = false) (hold : o.closePc ≠ .closed) (hpc : pc ≠ .closed)
    (hfound : pc = .releaseSlot → ∀ id, s.streams.lookup id ≠ some ref) (hres : s.reader.resets ≠ some ref) :
    Balanced (s.updateObject ref f) n := by
  have hkey := getElem?_keys ho
  have hkeys : (s.updateObject ref f).keys = s.keys.set ref ⟨o.id, pc, o.wasReset⟩ := hf ▸ keys_modify ho f
  have hlen : ref < s.keys.length := (List.getElem?_eq_some_iff.mp hkey).1
  refine ⟨h.limited, h.bounded, ?_, fun id r hl => ?_, ?_, ?_⟩
  · have hcount := countP_set_live hkey ⟨o.id, pc, o.wasReset⟩
    rw [show (⟨o.id, pc, o.wasReset⟩ : StreamKey).live = o.key.live by
      simp [StreamKey.live, StreamObj.key, hold, hpc]] at hcount
    rw [hkeys, Nat.add_right_cancel hcount]
    exact h.law
  · obtain ⟨k, hk, hid, hnr, hrel, hcl⟩ := h.found id r hl
    rw [hkeys]
    by_cases hr : r = ref
    · subst hr
      obtain rfl := Option.mem_unique hkey hk
      refine ⟨_, getElem?_set_self hlen, hid, hreset, fun he => ?_, hpc⟩
      exact hfound he id hl
    · exact ⟨k, (getElem?_set_ne (Ne.symm hr)).trans hk, hid, hnr, hrel, hcl⟩
  · rw [hkeys]
    exact Resetting.set h.resetting hres _
  · rw [hkeys]
    intro k hk hkr
    rcases mem_or_eq_of_mem_set hk with hk | rfl
    · exact h.kept k hk hkr
    · rw [hreset] at hkr
      cases hkr

theorem Balanced.release (ho : s.objects[ref]? = some o)
    {f : StreamObj → StreamObj} (hlive : o.key.live = true) (hdead : (f o).key.live = false)
    (hfound : ∀ id, s.streams.lookup id ≠ some ref) (hholds : pc.holds = s.reader.holds)
    (hpc : pc.Resetting (s.keys.set ref (f o).key) s.streams)
    (hkept : (f o).key.wasReset = true → (f o).key.closePc = .notStarted) :
    Balanced { s.releaseSlot.updateObject ref f with reader := pc } n := by
  have hkey := getElem?_keys ho
  have hkeys := keys_modify ho f
  have hcount := countP_set_live hkey (f o).key
  rw [hlive, hdead, Bool.toNat_true, Bool.toNat_false] at hcount
  have hlaw := h.law
  have hbounded := h.bounded
  rw [Session.releaseSlot, if_pos h.limited]
  refine ⟨h.limited, ?_, ?_, fun id r hl => ?_, ?_, ?_⟩
  · change ((s.slots - 1 : ℕ) : ℤ) ≤ s.cfg.maxStreams
    omega
  · change s.slots - 1 = ((s.objects.modify ref f).map StreamObj.key).countP StreamKey.live + pc.holds + n
    rw [hkeys, hholds]
    omega
  · change ∃ k, ((s.objects.modify ref f).map StreamObj.key)[r]? = some k ∧ k.Registered id
    rw [hkeys]
    obtain ⟨k, hk, hreg⟩ := h.found id r hl
    have hr : ref ≠ r := by
      rintro rfl
      exact hfound id hl
    exact ⟨k, (getElem?_set_ne hr).trans hk, hreg⟩
  · change pc.Resetting ((s.objects.modify ref f).map StreamObj.key) s.streams
    rw [hkeys]
    exact hpc
  · change ∀ k ∈ (s.objects.modify ref f).map StreamObj.key, k.wasReset = true → k.closePc = .notStarted
    rw [hkeys]
    intro k hk
    rcases mem_or_eq_of_mem_set hk with hk | rfl
    · exact h.kept k hk
    · exact hkept

theorem releaseSlot_eq (ref : ℕ) (f : StreamObj → StreamObj) :
    s.releaseSlot.updateObject ref f = { s.releaseSlot.updateObject ref f with reader := s.reader } := by
  rw [releaseSlot, if_pos h.limited]
  rfl

theorem Balanced.not_registered (ho : s.objects[ref]? = some o)
    (hpc : o.closePc = .releaseSlot ∨ o.closePc = .closed) (id : UInt32) : s.streams.lookup id ≠ some ref := by
  intro hl
  obtain ⟨k, hk, -, -, hrel, hcl⟩ := h.found id ref hl
  obtain rfl := Option.mem_unique (getElem?_keys ho) hk
  rcases hpc with hpc | hpc
  · exact hrel hpc
  · exact hcl hpc

theorem Balanced.closeStream
    (ha : s.ResetOrClosed pick (.closeStream ref)) : Balanced (s.closeStream ref) n := by
  unfold Session.closeStream
  cases ho : s.objects[ref]? with
  | none => exact h
  | some o =>
    dsimp only
    have hmem : o.key ∈ s.keys := mem_of_getElem? (getElem?_keys ho)
    -- Once `Close` has started, the stream has not been and is not being reset.
    have hstarted : o.closePc ≠ .notStarted → o.wasReset = false ∧ s.reader.resets ≠ some ref := by
      intro hpc
      refine ⟨?_, h.not_resets (getElem?_keys ho) hpc⟩
      by_contra hreset
      have htrue : o.wasReset = true := by simpa using hreset
      exact hpc (h.kept o.key hmem htrue)
    cases hpc : o.closePc with
    | notStarted =>
      obtain ⟨hreset, hres⟩ := ha o ho hpc
      exact h.setClosePc ho rfl hreset (by simp [hpc]) nofun nofun hres
    | sendFin =>
      obtain ⟨hreset, hres⟩ := hstarted (by simp [hpc])
      exact (h.write (newFinFrame o.id)).setClosePc ho rfl hreset (by simp [hpc]) nofun nofun hres
    | removeStream =>
      obtain ⟨hreset, hres⟩ := hstarted (by simp [hpc])
      refine (h.removeStream o.id).setClosePc ho rfl hreset (by simp [hpc]) nofun (fun _ id hl => ?_) hres
      obtain ⟨hne, hl⟩ := Map.lookup_of_erase hl
      obtain ⟨k, hk, hid, -⟩ := h.found id ref hl
      obtain rfl := Option.mem_unique (getElem?_keys ho) hk
      exact hne hid.symm
    | releaseSlot =>
      obtain ⟨hreset, hres⟩ := hstarted (by simp [hpc])
      rw [releaseSlot_eq h]
      refine h.release ho ?_ rfl (h.not_registered ho (.inl hpc)) rfl
        (Resetting.set h.resetting hres _) (fun hr => ?_)
      · simp [StreamObj.key, StreamKey.live, hpc, hreset]
      · rw [show (({ o with closePc := .closed } : StreamObj).key).wasReset = o.wasReset from rfl, hreset] at hr
        cases hr
    | closed => exact h

/-! ### Sections and runs -/

theorem Balanced.pass (hpc : s.reader.Passes pc) : Balanced { s with reader := pc } n :=
  h.setReader (by rw [hpc.holds]) (hpc.resetting h.resetting)

theorem Balanced.toReader {pc' : ReaderPc} (hr : s.reader = pc) (hold : pc.holds = 0)
    (hnew : pc'.holds = 0) (hpc : pc'.Resetting s.keys s.streams) : Balanced { s with reader := pc' } n := by
  refine h.setReader ?_ hpc
  rw [hr, hold, hnew]

theorem Balanced.rst {f : Frame} (htype : f.type = .rst)
    (hl : s.streams.lookup f.streamID = some ref) (ha : s.ResetOrClosed pick (.readNext (some f))) :
    s.keys[ref]? = some ⟨f.streamID, .notStarted, false⟩ := by
  obtain ⟨k, hk, hid, hreset, -⟩ := h.found _ ref hl
  rw [hk]
  rw [keys, getElem?_map] at hk
  obtain ⟨o, ho, rfl⟩ := Option.map_eq_some_iff.mp hk
  have hpc : o.closePc = .notStarted := ha htype ref hl o ho
  rw [← hid, ← hpc, ← hreset]
  rfl

theorem Balanced.rstRelease (hr : s.reader = .rstRelease ref) :
    Balanced { s.releaseSlot.updateObject ref (fun o => { o with wasReset := true }) with reader := .idle } n := by
  have hres := h.resetting
  rw [hr] at hres
  obtain ⟨⟨id, hid⟩, hnone⟩ := hres
  rw [keys, getElem?_map] at hid
  obtain ⟨o, ho, hkey⟩ := Option.map_eq_some_iff.mp hid
  refine h.release ho ?_ ?_ hnone ?_ trivial (fun _ => ?_)
  · rw [hkey]
    rfl
  · simp [StreamObj.key, StreamKey.live]
  · rw [hr]
    rfl
  · exact congrArg StreamKey.closePc hkey

end

theorem Balanced.effect {t : SessionTask} {s' : Session} {next : List SessionTask} (he : s.Effect t s' next)
    (ha : s.ResetOrClosed pick t) (h : Balanced s (t.holds + n)) :
    Balanced s' ((next.map holds).sum + n) := by
  have hres := h.resetting
  cases he with
  | control closed acceptCh written hpc hnext =>
    have hquiet : Balanced { s with closed := closed, acceptCh := acceptCh, written := written } _ :=
      h.quiet rfl rfl rfl (fun _ _ hl => hl) rfl
    rw [hnext h.limited]
    exact hquiet.pass hpc
  | lookUp hidle => exact h.toReader hidle rfl rfl trivial
  | @deliver ref payload hr => exact (h.updateStream ref (·.onData payload)).toReader hr rfl rfl trivial
  | syn hidle => exact h.toReader hidle rfl rfl trivial
  | @takeSlot id hr hfree =>
    have hr' : s.takeSlot.reader = .synAcquire id := by
      rw [Session.takeSlot, if_pos h.limited]
      exact hr
    refine (h.takeSlot hfree).setReader ?_ trivial
    rw [hr']
    simp [ReaderPc.holds, holds, add_comm]
  | @create id hr =>
    have hheld : Balanced { s with reader := .idle } (n + 1) := by
      refine h.setReader ?_ trivial
      rw [hr]
      simp [ReaderPc.holds, holds, add_comm]
    change Balanced _ (0 + n)
    rw [Nat.zero_add]
    exact (hheld.register id false).toReader rfl rfl rfl trivial
  | acquire hfree => simpa [holds, add_comm] using h.takeSlot hfree
  | openNext =>
    have hheld : Balanced s (n + 1) := by simpa [holds, add_comm] using h
    have hnext : Balanced { s.register s.nextStreamID true with nextStreamID := s.nextStreamID + 2 } n :=
      (hheld.register s.nextStreamID true).quiet rfl rfl rfl (fun _ _ hl => hl) rfl
    simpa [holds] using hnext
  | release =>
    have hheld : Balanced s (n + 1) := by simpa [holds, add_comm] using h
    simpa [holds] using hheld.releaseHeld
  | remove id hpc hnext =>
    rw [hnext]
    exact (h.removeStream id).pass hpc
  | @finMark ref id hr => exact (h.updateStream ref (·.onFin)).toReader hr rfl rfl trivial
  | rst hidle htype hl => exact h.toReader hidle rfl rfl (h.rst htype hl ha)
  | @rstMark ref id hr =>
    rw [hr] at hres
    refine (h.updateStream ref (·.onRst)).toReader hr rfl rfl ?_
    have hkeys : (s.updateObject ref (fun o => { o with st := o.st.onRst })).keys = s.keys :=
      Table.map_modify (f := fun o : StreamObj => { o with st := o.st.onRst }) (fun _ => rfl) _ _
    exact (congrArg (·[ref]?) hkeys).trans hres
  | @rstRemove ref id hr =>
    rw [hr] at hres
    refine (h.removeStream id).toReader hr rfl rfl ⟨⟨id, hres⟩, fun k hl => ?_⟩
    obtain ⟨hne, hl⟩ := Map.lookup_of_erase hl
    obtain ⟨x, hx, hid, -⟩ := h.found k ref hl
    obtain rfl := Option.mem_unique hres hx
    exact hne hid.symm
  | rstRelease hr => exact h.rstRelease hr
  | closeStream ref => exact h.closeStream ha
  | clearStreams written hpc hholds =>
    rw [hholds] at h
    have hquiet : Balanced { s.clearStreams with written := written } (0 + n) :=
      h.clearStreams.quiet rfl rfl rfl (fun _ _ hl => hl) rfl
    exact hquiet.pass hpc

/-- The streams of the map are live and carry its identifiers, so there are no more of them than live
streams. -/
theorem Balanced.numStreams_le (h : Balanced s n) : s.numStreams ≤ s.liveStreams := by
  rw [liveStreams_eq]
  refine Map.size_le_countP StreamKey.id (fun id ref hl => ?_)
  obtain ⟨k, hk, hid, hreset, -, hclosed⟩ := h.found id ref hl
  exact ⟨k, mem_of_getElem? hk, by simp [StreamKey.live, hreset, hclosed], hid⟩

end Session

theorem sessionSections_balances :
    sessionSections.Balances Session.ResetOrClosed holds Session.Balanced where
  start k := by cases k <;> rfl
  exec s pick t _ ha h := Session.Balanced.effect (s.exec_effect pick t) ha h

/-- Occupied slots are the live streams and the slots held by calls that have not created their
stream yet, and the streams never outnumber the limit, as long as no stream is both reset by the
remote and closed here. -/
theorem sessionRun_slots (cfg : Config) (hmax : 0 < cfg.maxStreams) (clientMode : Bool)
    (turns : List (Turn Pick SessionCall))
    (hallows : sessionSections.Allows Session.ResetOrClosed ⟨newSession cfg clientMode, []⟩ turns) :
    let p := sessionRun cfg clientMode turns
    p.state.slots = p.state.liveStreams + (p.state.reader.holds + p.weight holds) ∧
      (p.state.numStreams : ℤ) ≤ cfg.maxStreams := by
  intro p
  have hcfg : p.state.cfg.maxStreams = cfg.maxStreams :=
    (congrArg Config.maxStreams (sessionRun_cfg cfg clientMode turns)).trans rfl
  have h : p.state.Balanced (p.weight holds) :=
    sessionSections_balances.run hallows (Session.balanced_new hmax clientMode)
  have hlaw := h.law
  have hnum := h.numStreams_le
  have hbounded := h.bounded
  rw [← Session.liveStreams_eq] at hlaw
  exact ⟨by omega, by omega⟩

def uninterrupted (call : SessionCall) (sections : ℕ) : List (Turn Pick SessionCall) :=
  .call call :: List.replicate sections (.exec 0 .proceed)

def openTurns : List (Turn Pick SessionCall) := uninterrupted .openStream 5

def closeTurns (ref : ℕ) : List (Turn Pick SessionCall) :=
  (List.replicate 4 (uninterrupted (.closeStream ref) 1)).flatten

/-- A frame from the remote, with `sections` more sections to handle it. -/
def frameTurns (f : Frame) (sections : ℕ) : List (Turn Pick SessionCall) :=
  uninterrupted (.readNext (some f)) 1 ++ (List.replicate sections (uninterrupted .readOn 1)).flatten

def twoStreams : Config := ⟨2, 0, 64, 0, 0⟩

def oneEach : List (Turn Pick SessionCall) :=
  openTurns ++ openTurns ++ closeTurns 0 ++ frameTurns (newRstFrame 3 rstRefused) 3 ++ openTurns

theorem sessionRun_slots_oneEach :
    let p := sessionRun twoStreams true oneEach
    p.state.slots = p.state.liveStreams + (p.state.reader.holds + p.weight holds) ∧
      (p.state.numStreams : ℤ) ≤ 2 :=
  sessionRun_slots twoStreams (by decide) true oneEach (by decide)

/-- The first of two streams is reset by the remote and then closed: its slot is given back twice, and
two more streams can be opened. -/
def resetThenClosed : List (Turn Pick SessionCall) :=
  openTurns ++ openTurns ++ frameTurns (newRstFrame 1 rstRefused) 3 ++ closeTurns 0 ++ openTurns ++ openTurns

/-- Three streams are live and in the map with two slots occupied, under a limit of two. -/
theorem sessionRun_resetThenClosed :
    let p := sessionRun twoStreams true resetThenClosed
    p.ready = [] ∧ p.state.slots = 2 ∧ p.state.liveStreams = 3 ∧ p.state.numStreams = 3 := by
  decide

end MeshDesk.Smux
