import MeshDesk.Smux.SessionEffects

/-! What a section of a session does to its streams: it looks up the stream of a DATA frame, hands the payload
to it, or delivers nothing and at most marks streams as closed, ended or reset. -/
namespace MeshDesk.Smux
open Lib
open Proxy (Bytes)

def ReaderPc.delivers : ReaderPc → Bool
  | .data _ _ => true
  | _ => false

theorem ReaderPc.data_iff {pc pc' : ReaderPc} (h : pc.delivers = false) (h' : pc'.delivers = false) (ref : ℕ)
    (payload : Bytes) : pc' = .data ref payload ↔ pc = .data ref payload := by
  constructor
  · rintro rfl
    cases h'
  · rintro rfl
    cases h

theorem ReaderPc.Passes.data_iff {pc pc' : ReaderPc} (h : pc.Passes pc') (ref : ℕ) (payload : Bytes) :
    pc' = .data ref payload ↔ pc = .data ref payload := by
  have hplain : ∀ {pc : ReaderPc}, pc.plain = true → pc.delivers = false := by
    intro pc hpc
    cases pc <;> first | rfl | cases hpc
  cases h with
  | stays => exact Iff.rfl
  | plain h h' => exact ReaderPc.data_iff (hplain h) (hplain h') ref payload
  | refuses | acquires | refused | gaveUp => exact ReaderPc.data_iff rfl rfl ref payload

/-- A change that leaves the buffer alone and takes no mark back. -/
structure StreamObj.Marked (o o' : StreamObj) : Prop where
  sameID : o'.id = o.id
  readBuf : o'.st.readBuf = o.st.readBuf
  resetErr : o'.st.resetErr = o.st.resetErr ∨ o'.st.resetErr = some .streamReset
  remoteClosed : o.st.remoteClosed = true → o'.st.remoteClosed = true

namespace StreamObj
variable (o : StreamObj)

theorem Marked.refl : o.Marked o := ⟨rfl, rfl, .inl rfl, fun h => h⟩

theorem marked_onFin : o.Marked { o with st := o.st.onFin } := ⟨rfl, rfl, .inl rfl, fun _ => rfl⟩

theorem marked_onRst : o.Marked { o with st := o.st.onRst } := ⟨rfl, rfl, .inr rfl, fun _ => rfl⟩

theorem marked_localClosed (pc : ClosePc) :
    o.Marked { o with st := { o.st with localClosed := true }, closePc := pc } :=
  ⟨rfl, rfl, .inl rfl, fun h => h⟩

theorem marked_closePc (pc : ClosePc) : o.Marked { o with closePc := pc } := ⟨rfl, rfl, .inl rfl, fun h => h⟩

theorem marked_wasReset : o.Marked { o with wasReset := true } := ⟨rfl, rfl, .inl rfl, fun h => h⟩

end StreamObj

/-- A section that delivers nothing: objects are marked or added, and the map finds the objects it found
before or one with the right identifier. -/
structure Session.Quiet (s s' : Session) : Prop where
  reader : ∀ ref payload, s'.reader = .data ref payload ↔ s.reader = .data ref payload
  kept : ∀ (ref : ℕ) (o : StreamObj), s.objects[ref]? = some o → ∃ o', s'.objects[ref]? = some o' ∧ o.Marked o'
  added : ∀ (ref : ℕ) (o' : StreamObj), s.objects[ref]? = none → s'.objects[ref]? = some o' →
    ∃ size, o'.st = newStream size
  found : ∀ id ref, s'.streams.lookup id = some ref →
    s.streams.lookup id = some ref ∨ ∃ o', s'.objects[ref]? = some o' ∧ o'.id = id

namespace Session
variable {s s' : Session}

section
variable (hreader : ∀ ref payload, s'.reader = .data ref payload ↔ s.reader = .data ref payload)
include hreader

theorem Quiet.of_marked {g : ℕ → StreamObj → StreamObj}
    (hobjects : ∀ ref : ℕ, s'.objects[ref]? = (s.objects[ref]?).map (g ref))
    (hg : ∀ ref o, StreamObj.Marked o (g ref o))
    (hstreams : ∀ id ref, s'.streams.lookup id = some ref → s.streams.lookup id = some ref) : s.Quiet s' where
  reader := hreader
  kept ref o ho := ⟨g ref o, by rw [hobjects, ho]; rfl, hg ref o⟩
  added ref o' hnone ho' := by
    rw [hobjects, hnone] at ho'
    cases ho'
  found id ref hl := .inl (hstreams id ref hl)

theorem Quiet.of_objects (hobjects : s'.objects = s.objects)
    (hstreams : ∀ id ref, s'.streams.lookup id = some ref → s.streams.lookup id = some ref) : s.Quiet s' :=
  .of_marked hreader (g := fun _ o => o) (by simp [hobjects]) (fun _ o => .refl o) hstreams

theorem Quiet.update {f : StreamObj → StreamObj} (hf : ∀ o, StreamObj.Marked o (f o)) (ref : ℕ) (hobjects : s'.objects = s.objects.modify ref f)
    (hstreams : ∀ id ref, s'.streams.lookup id = some ref → s.streams.lookup id = some ref) : s.Quiet s' := by
  refine .of_marked hreader (g := fun r o => if ref = r then f o else o) (fun r => ?_) (fun r o => ?_) hstreams
  · rw [hobjects, List.getElem?_modify]
    rfl
  · split_ifs
    · exact hf o
    · exact .refl o

theorem Quiet.clearStreams (hobjects : s'.objects = s.clearStreams.objects) (hstreams : s'.streams = ∅) : s.Quiet s' := by
  refine .of_marked hreader
    (g := fun ref o => if s.streams.lookup o.id = some ref then { o with st := o.st.onFin } else o) (fun ref => ?_) (fun ref o => ?_) fun id ref hl => ?_
  · rw [hobjects, Session.clearStreams, List.getElem?_mapIdx]
  · split_ifs
    · exact o.marked_onFin
    · exact .refl o
  · rw [hstreams, AList.lookup_empty] at hl
    cases hl

theorem Quiet.register (id : UInt32) (openedHere : Bool)
    (hobjects : s'.objects = (s.register id openedHere).objects)
    (hstreams : s'.streams = (s.register id openedHere).streams) : s.Quiet s' where
  reader := hreader
  kept ref o ho := by
    refine ⟨o, ?_, .refl o⟩
    rw [hobjects, Session.register, List.getElem?_append_left (List.getElem?_eq_some_iff.mp ho).1]
    exact ho
  added ref o' hnone ho' := by
    rw [hobjects, Session.register, List.getElem?_append_right (List.getElem?_eq_none_iff.mp hnone)] at ho'
    obtain rfl := List.mem_singleton.mp (List.mem_of_getElem? ho')
    exact ⟨_, rfl⟩
  found k ref hl := by
    rw [hstreams, Session.register] at hl
    obtain ⟨rfl, rfl⟩ | ⟨-, hold⟩ := Map.lookup_of_insert hl
    · refine .inr ⟨⟨k, openedHere, newStream s.cfg.writeBufferSize, .notStarted, false⟩, ?_, rfl⟩
      rw [hobjects, Session.register, List.getElem?_append_right le_rfl, Nat.sub_self]
      rfl
    · exact .inl hold

end

theorem Quiet.refl (s : Session) : s.Quiet s := .of_objects (fun _ _ => Iff.rfl) rfl fun _ _ hl => hl

theorem dispatch_data_eq {f : Frame} (hf : f.IsData) {ref : ℕ} (hl : s.streams.lookup f.streamID = some ref) :
    s.dispatch f = { s with reader := .data ref f.payload } := by
  obtain ⟨hversion, hid, htype⟩ := hf
  unfold dispatch
  rw [if_neg (not_not.mpr hversion), if_neg hid, if_pos htype, hl]

theorem closeStream_quiet (s : Session) (ref : ℕ) : s.Quiet (s.closeStream ref) := by
  unfold closeStream
  split
  · exact .refl s
  · split
    · exact .update (fun _ _ => Iff.rfl) (fun o => o.marked_localClosed _) ref rfl fun _ _ hl => hl
    · exact .update (fun _ _ => Iff.rfl) (fun o => o.marked_closePc _) ref rfl fun _ _ hl => hl
    · exact .update (fun _ _ => Iff.rfl) (fun o => o.marked_closePc _) ref rfl
        fun _ _ hl => (Map.lookup_of_erase hl).2
    · obtain ⟨n, hn⟩ := s.exists_releaseSlot_eq
      rw [hn]
      exact .update (fun _ _ => Iff.rfl) (fun o => o.marked_closePc .closed) ref rfl fun _ _ hl => hl
    · exact .refl s

theorem Effect.quiet_or {t : SessionTask} {next : List SessionTask} (h : s.Effect t s' next) :
    (∃ f ref, t = .readNext (some f) ∧ s.reader = .idle ∧ f.IsData ∧ s.streams.lookup f.streamID = some ref ∧
        s' = { s with reader := .data ref f.payload }) ∨
      (∃ ref payload, t = .readOn ∧ s.reader = .data ref payload ∧
        s' = { s.updateObject ref (fun o => { o with st := o.st.onData payload }) with reader := .idle }) ∨
      s.Quiet s' := by
  -- the reader comes from one point without a payload to another
  have hmove : ∀ {pc pc' : ReaderPc}, s.reader = pc → pc.delivers = false → pc'.delivers = false →
      ∀ ref payload, pc' = .data ref payload ↔ s.reader = .data ref payload :=
    fun hr h h' => hr ▸ ReaderPc.data_iff h h'
  have hslots : ∀ {s₀ : Session} {n : ℕ} {pc : ReaderPc}, s₀ = { s with slots := n } →
      (∀ ref payload, pc = .data ref payload ↔ s.reader = .data ref payload) → s.Quiet { s₀ with reader := pc } := by
    rintro _ n pc rfl hpc
    exact .of_objects hpc rfl fun _ _ hl => hl
  cases h with
  | lookUp hidle hf hl => exact .inl ⟨_, _, rfl, hidle, hf, hl, rfl⟩
  | deliver hr => exact .inr (.inl ⟨_, _, rfl, hr, rfl⟩)
  | control closed acceptCh written hpc => exact .inr (.inr (.of_objects hpc.data_iff rfl fun _ _ hl => hl))
  | syn hidle | rst hidle => exact .inr (.inr (.of_objects (hmove hidle rfl rfl) rfl fun _ _ hl => hl))
  | takeSlot hr => exact .inr (.inr (hslots s.exists_takeSlot_eq.choose_spec (hmove hr rfl rfl)))
  | acquire =>
    obtain ⟨n, hn⟩ := s.exists_takeSlot_eq
    rw [hn]
    exact .inr (.inr (.of_objects (fun _ _ => Iff.rfl) rfl fun _ _ hl => hl))
  | release =>
    obtain ⟨n, hn⟩ := s.exists_releaseSlot_eq
    rw [hn]
    exact .inr (.inr (.of_objects (fun _ _ => Iff.rfl) rfl fun _ _ hl => hl))
  | create hr => exact .inr (.inr (.register (hmove hr rfl rfl) _ false rfl rfl))
  | openNext => exact .inr (.inr (.register (fun _ _ => Iff.rfl) _ true rfl rfl))
  | remove id hpc => exact .inr (.inr (.of_objects hpc.data_iff rfl fun _ _ hl => (Map.lookup_of_erase hl).2))
  | rstRemove hr =>
    exact .inr (.inr (.of_objects (hmove hr rfl rfl) rfl fun _ _ hl => (Map.lookup_of_erase hl).2))
  | @finMark ref id hr =>
    exact .inr (.inr (.update (hmove hr rfl rfl) StreamObj.marked_onFin ref rfl fun _ _ hl => hl))
  | @rstMark ref id hr =>
    exact .inr (.inr (.update (hmove hr rfl rfl) StreamObj.marked_onRst ref rfl fun _ _ hl => hl))
  | @rstRelease ref hr =>
    obtain ⟨n, hn⟩ := s.exists_releaseSlot_eq
    rw [hn]
    exact .inr (.inr (.update (hmove hr rfl rfl) StreamObj.marked_wasReset ref rfl fun _ _ hl => hl))
  | closeStream ref => exact .inr (.inr (s.closeStream_quiet ref))
  | clearStreams written hpc => exact .inr (.inr (.clearStreams hpc.data_iff rfl rfl))

end Session

end MeshDesk.Smux
