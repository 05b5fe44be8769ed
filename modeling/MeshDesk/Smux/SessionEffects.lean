import MeshDesk.Smux.Session

/-! What a section of a session can do. The invariants of a session are kept by each of these effects. -/
namespace MeshDesk.Smux
open Lib
open Proxy (Bytes)

def Frame.IsData (f : Frame) : Prop := f.version = protocolVersion ∧ f.streamID ≠ 0 ∧ f.type = .data

instance (f : Frame) : Decidable f.IsData := inferInstanceAs (Decidable (_ ∧ _ ∧ _))

/-- Slots that a call holds for a stream it is about to create, or is about to give back. -/
def SessionTask.holds : SessionTask → ℕ
  | .openAllocate => 1
  | .openReleaseSlot => 1
  | _ => 0

/-- The reader has no slot, payload or reset in its hands, and no identifier that the remote has named. -/
def ReaderPc.plain : ReaderPc → Bool
  | .idle | .synAck _ _ | .synAccept _ | .finMark _ _ | .finCheck _ _ | .finRemove _ | .clearStreams _ | .stopped =>
    true
  | _ => false

inductive ReaderPc.Passes : ReaderPc → ReaderPc → Prop
  | stays (pc : ReaderPc) : Passes pc pc
  | plain {pc pc' : ReaderPc} (h : pc.plain = true) (h' : pc'.plain = true) : Passes pc pc'
  | refuses (id : UInt32) : Passes (.synBacklog id) (.synRefuse id)
  | acquires (id : UInt32) : Passes (.synBacklog id) (.synAcquire id)
  | refused (id : UInt32) : Passes (.synRefuse id) .idle
  | gaveUp (id : UInt32) : Passes (.synAcquire id) .idle

namespace Session

inductive Effect (s : Session) : SessionTask → Session → List SessionTask → Prop
  | control {t : SessionTask} (closed acceptCh written) {pc : ReaderPc} (hpc : s.reader.Passes pc)
      {next : List SessionTask} (hnext : 0 < s.cfg.maxStreams → (next.map SessionTask.holds).sum = t.holds) :
      Effect s t { s with closed := closed, acceptCh := acceptCh, written := written, reader := pc } next
  | lookUp {f : Frame} {ref : ℕ} (hidle : s.reader = .idle) (hf : f.IsData)
      (hl : s.streams.lookup f.streamID = some ref) :
      Effect s (.readNext (some f)) { s with reader := .data ref f.payload } []
  | deliver {ref : ℕ} {payload : Bytes} (hr : s.reader = .data ref payload) :
      Effect s .readOn { s.updateObject ref (fun o => { o with st := o.st.onData payload }) with reader := .idle } []
  | syn {f : Frame} (hidle : s.reader = .idle) (htype : f.type = .syn) (hack : f.flags &&& flagAck = 0) :
      Effect s (.readNext (some f)) { s with reader := .synBacklog f.streamID } []
  | takeSlot {id : UInt32} (hr : s.reader = .synAcquire id) (hfree : s.slotFree = true) :
      Effect s .readOn { s.takeSlot with reader := .synCreate id } []
  | create {id : UInt32} (hr : s.reader = .synCreate id) :
      Effect s .readOn { s.register id false with reader := .synAck s.objects.length id } []
  | acquire (hfree : s.slotFree = true) : Effect s .openAcquire s.takeSlot [.openAllocate]
  | openNext (hmax : ¬ maxStreamID ≤ s.nextStreamID) : Effect s .openAllocate
      { s.register s.nextStreamID true with nextStreamID := s.nextStreamID + 2 }
      [.openSyn s.objects.length s.nextStreamID]
  | release (e : StreamResult) : Effect s .openReleaseSlot s.releaseSlot [.done e]
  | remove {t : SessionTask} (id : UInt32) {pc : ReaderPc} (hpc : s.reader.Passes pc) {next : List SessionTask}
      (hnext : (next.map SessionTask.holds).sum = t.holds) : Effect s t { s.removeStream id with reader := pc } next
  | finMark {ref : ℕ} {id : UInt32} (hr : s.reader = .finMark ref id) : Effect s .readOn
      { s.updateObject ref (fun o => { o with st := o.st.onFin }) with reader := .finCheck ref id } []
  | rst {f : Frame} {ref : ℕ} (hidle : s.reader = .idle) (htype : f.type = .rst)
      (hl : s.streams.lookup f.streamID = some ref) :
      Effect s (.readNext (some f)) { s with reader := .rstMark ref f.streamID } []
  | rstMark {ref : ℕ} {id : UInt32} (hr : s.reader = .rstMark ref id) : Effect s .readOn
      { s.updateObject ref (fun o => { o with st := o.st.onRst }) with reader := .rstRemove ref id } []
  | rstRemove {ref : ℕ} {id : UInt32} (hr : s.reader = .rstRemove ref id) :
      Effect s .readOn { s.removeStream id with reader := .rstRelease ref } []
  | rstRelease {ref : ℕ} (hr : s.reader = .rstRelease ref) : Effect s .readOn
      { s.releaseSlot.updateObject ref (fun o => { o with wasReset := true }) with reader := .idle } []
  | closeStream (ref : ℕ) : Effect s (.closeStream ref) (s.closeStream ref) []
  | clearStreams {t : SessionTask} (written) {pc : ReaderPc} (hpc : s.reader.Passes pc) (hholds : t.holds = 0) :
      Effect s t { s.clearStreams with written := written, reader := pc } []

variable (s : Session)

theorem Effect.quiet {t : SessionTask} {next : List SessionTask} (hnext : (next.map SessionTask.holds).sum = t.holds) :
    s.Effect t s next := .control _ _ _ (.stays _) fun _ => hnext

variable {s}

theorem dispatch_effect (hidle : s.reader = .idle) (f : Frame) : s.Effect (.readNext (some f)) (s.dispatch f) [] := by
  have hmove : ∀ {pc : ReaderPc} (closed written), pc.plain = true →
      s.Effect (.readNext (some f)) { s with closed := closed, written := written, reader := pc } [] :=
    fun closed written hpc => .control _ _ _ (hidle ▸ .plain rfl hpc) fun _ => rfl
  unfold dispatch
  split_ifs with hver hstop hzero hsyn hclient hga hdone hdata hsyn' hack hexists hfin hrst
  · exact hmove _ _ rfl
  · exact hmove _ _ rfl
  · exact .quiet s rfl
  · exact .control _ _ _ (.stays _) fun _ => rfl
  · exact .quiet s rfl
  · exact hmove _ _ rfl
  · exact .quiet s rfl
  · split
    · next ref hl => exact .lookUp hidle ⟨not_not.mp hver, hzero, hdata⟩ hl
    · exact .quiet s rfl
  · exact .quiet s rfl
  · exact .quiet s rfl
  · exact .syn hidle hsyn' (not_not.mp hack)
  · split
    · exact hmove _ _ rfl
    · exact .quiet s rfl
  · split
    · next ref hl => exact .rst hidle hrst hl
    · exact .quiet s rfl
  · exact .quiet s rfl

theorem readNext_effect (f : Option Frame) : s.Effect (.readNext f) (s.readNext f) [] := by
  unfold readNext
  by_cases hidle : s.reader = .idle
  · rw [if_pos hidle]
    cases f with
    | some f => exact dispatch_effect hidle f
    | none =>
      refine .control _ _ _ (hidle ▸ .plain rfl ?_) fun _ => rfl
      split_ifs <;> rfl
  · rw [if_neg hidle]
    exact .quiet s rfl

theorem readOn_effect (pick : Pick) : s.Effect .readOn (s.readOn pick) [] := by
  have hmove : ∀ {pc : ReaderPc} (acceptCh written), s.reader.Passes pc →
      s.Effect .readOn { s with acceptCh := acceptCh, written := written, reader := pc } [] :=
    fun acceptCh written hpc => .control _ _ _ hpc fun _ => rfl
  unfold readOn
  cases hr : s.reader with
  | idle | stopped => exact .quiet s rfl
  | data ref payload => exact .deliver hr
  | synBacklog id =>
    dsimp only
    split_ifs
    · exact hmove _ _ (hr ▸ .refuses id)
    · exact hmove _ _ (hr ▸ .acquires id)
  | synRefuse id => exact hmove _ _ (hr ▸ .refused id)
  | synAcquire id =>
    dsimp only
    split_ifs with hdone hfree
    · exact hmove _ _ (hr ▸ .gaveUp id)
    · exact .takeSlot hr hfree
    · exact .quiet s rfl
  | synCreate id => exact .create hr
  | synAck | synAccept | finCheck =>
    dsimp only
    split_ifs <;> exact hmove _ _ (hr ▸ .plain rfl rfl)
  | finMark ref id => exact .finMark hr
  | finRemove id => exact .remove id (hr ▸ .plain rfl rfl) rfl
  | rstMark ref id => exact .rstMark hr
  | rstRemove ref id => exact .rstRemove hr
  | rstRelease ref => exact .rstRelease hr
  | clearStreams stop => exact .clearStreams _ (hr ▸ .plain rfl (by cases stop <;> rfl)) rfl

theorem exec_effect (s : Session) (pick : Pick) (t : SessionTask) : s.Effect t (s.exec pick t).1 (s.exec pick t).2 := by
  unfold exec
  cases t with
  | openCheck | acceptCheck =>
    split_ifs <;> exact .quiet s rfl
  | openCanceled | done => exact .quiet s rfl
  | openAcquire =>
    dsimp only
    split_ifs with hnone hctx hdone hfree
    · have hacquire : s.Effect .openAcquire s.takeSlot [.openAllocate] := .acquire (by simp [slotFree, hnone])
      rwa [takeSlot, if_neg (not_lt.mpr hnone)] at hacquire
    · exact .quiet s rfl
    · exact .quiet s rfl
    · exact .acquire hfree
    · exact .quiet s rfl
  | openAllocate =>
    dsimp only
    split_ifs with hmax hlimit
    · exact .quiet s rfl
    · exact .control _ _ _ (.stays _) fun h => absurd h hlimit
    · exact .openNext hmax
  | openReleaseSlot =>
    dsimp only
    split_ifs
    · exact .quiet s rfl
    · exact .release _
  | openSyn | closeSession =>
    dsimp only
    split_ifs
    · exact .quiet s rfl
    · exact .control _ _ _ (.stays _) fun _ => rfl
  | openRemove id => exact .remove id (.stays _) rfl
  | accept =>
    dsimp only
    split_ifs
    · exact .quiet s rfl
    · exact .quiet s rfl
    · split
      · exact .quiet s rfl
      · exact .control _ _ _ (.stays _) fun _ => rfl
  | readNext f => exact readNext_effect f
  | readOn => exact readOn_effect pick
  | closeStream ref => exact .closeStream ref
  | clearStreams => exact .clearStreams _ (.stays _) rfl

theorem Effect.cfg {t : SessionTask} {s' : Session} {next : List SessionTask} (h : s.Effect t s' next) :
    s'.cfg = s.cfg := by
  cases h with
  | takeSlot | acquire => exact s.takeSlot_cfg
  | release | rstRelease => exact s.releaseSlot_cfg
  | closeStream ref => exact s.closeStream_cfg ref
  | _ => rfl

end Session

theorem sessionRun_cfg (cfg : Config) (clientMode : Bool) (turns : List (Turn Pick SessionCall)) :
    (sessionRun cfg clientMode turns).state.cfg = validateConfig cfg := by
  have h : sessionSections.Preserves (fun s => s.cfg = validateConfig cfg) (fun _ _ => True) :=
    { start := fun _ _ _ => trivial
      inv := fun s pick t hs _ => (s.exec_effect pick t).cfg.trans hs
      next := fun _ _ _ _ _ _ _ => trivial
      stable := fun _ _ _ _ _ _ _ => trivial }
  exact (h.run ⟨rfl, fun _ _ => trivial⟩ turns).1

end MeshDesk.Smux
