import MeshDesk.Smux.Slots

/-! Who owns a stream identifier. `OpenStream` takes the next identifier of the local parity without
looking at the map, and `handleSyn` takes whatever identifier the remote names. The two never meet when
the remote keeps to its own parity. -/
namespace MeshDesk.Smux
open Lib List
open Proxy (Bytes)

variable (clientMode : Bool)

/-- The identifiers that `OpenStream` counts through: odd for a client, even for a server. -/
def LocalID (id : UInt32) : Prop := id.toNat % 2 = if clientMode then 1 else 0

instance (clientMode : Bool) (id : UInt32) : Decidable (LocalID clientMode id) :=
  inferInstanceAs (Decidable (_ = _))

theorem LocalID.add_two {clientMode : Bool} {id : UInt32} (h : LocalID clientMode id) :
    LocalID clientMode (id + 2) := by
  unfold LocalID at h ⊢
  rw [← h, UInt32.toNat_add]
  have h2 : UInt32.toNat 2 = 2 := rfl
  omega

/-- The remote opens streams of its own parity only: no SYN without the ACK flag carries an identifier
of the local one. -/
def Session.RemoteOpensOwn (s : Session) (_ : Pick) : SessionTask → Prop
  | .readNext (some f) => f.type = .syn → f.flags &&& flagAck = 0 → ¬ LocalID s.clientMode f.streamID
  | _ => True

instance (s : Session) (pick : Pick) (t : SessionTask) : Decidable (s.RemoteOpensOwn pick t) :=
  match t with
  | .readNext (some _) => inferInstanceAs (Decidable (_ → _ → ¬ _))
  | .readNext none | .openCheck | .openAcquire | .openCanceled | .openAllocate | .openReleaseSlot
  | .openSyn _ _ | .openRemove _ | .acceptCheck | .accept | .readOn | .closeSession | .clearStreams
  | .closeStream _ | .done _ => isTrue trivial

structure Ownership where
  id : UInt32
  openedHere : Bool
  deriving DecidableEq, Repr

def StreamObj.ownership (o : StreamObj) : Ownership := ⟨o.id, o.openedHere⟩

/-- A stream opened here has an identifier that was handed out; one of the remote's has the other
parity. -/
def Ownership.Ok (next : UInt32) (k : Ownership) : Prop :=
  if k.openedHere then LocalID clientMode k.id ∧ k.id < next else ¬ LocalID clientMode k.id

/-- The identifier of the SYN that the reader is working on is not a local one. -/
def ReaderPc.OpensOwn : ReaderPc → Prop
  | .synBacklog id | .synRefuse id | .synAcquire id | .synCreate id => ¬ LocalID clientMode id
  | _ => True

theorem ReaderPc.Passes.opensOwn {clientMode : Bool} {pc pc' : ReaderPc} (h : pc.Passes pc')
    (hpc : pc.OpensOwn clientMode) : pc'.OpensOwn clientMode := by
  cases h with
  | stays | refuses | acquires => exact hpc
  | plain h h' => cases pc' <;> trivial
  | refused | gaveUp => trivial

namespace Session

def owners (s : Session) : List Ownership := s.objects.map StreamObj.ownership

structure Owned (s : Session) : Prop where
  next : LocalID s.clientMode s.nextStreamID
  bounded : s.nextStreamID.toNat ≤ maxStreamID.toNat + 1
  ok : ∀ k ∈ s.owners, k.Ok s.clientMode s.nextStreamID
  unique : ∀ (i j : ℕ) (a b : Ownership), s.owners[i]? = some a → s.owners[j]? = some b → i ≠ j →
    a.openedHere = true → a.id ≠ b.id
  mapped : ∀ id ref, s.streams.lookup id = some ref → ∃ k, s.owners[ref]? = some k ∧ k.id = id
  reader : s.reader.OpensOwn s.clientMode

variable {s : Session}

theorem owned_new (cfg : Config) (clientMode : Bool) : Owned (newSession cfg clientMode) where
  next := by
    change LocalID clientMode (if clientMode then 1 else 2)
    cases clientMode <;> decide
  bounded := by
    change (if clientMode then (1 : UInt32) else 2).toNat ≤ _
    cases clientMode <;> decide
  ok := nofun
  unique := fun i j a b ha => by
    cases ha
  mapped := fun id ref hl => by
    cases hl
  reader := trivial

section
variable (h : Owned s)
include h

theorem Owned.quiet {s' : Session} (hmode : s'.clientMode = s.clientMode)
    (hnext : s'.nextStreamID = s.nextStreamID) (howners : s'.owners = s.owners)
    (hstreams : ∀ id ref, s'.streams.lookup id = some ref → s.streams.lookup id = some ref)
    (hreader : s'.reader.OpensOwn s.clientMode) : Owned s' where
  next := by
    rw [hmode, hnext]
    exact h.next
  bounded := by
    rw [hnext]
    exact h.bounded
  ok := by
    rw [howners, hmode, hnext]
    exact h.ok
  unique := by
    rw [howners]
    exact h.unique
  mapped := fun id ref hl => by
    rw [howners]
    exact h.mapped id ref (hstreams id ref hl)
  reader := by
    rw [hmode]
    exact hreader

theorem Owned.setReader {pc : ReaderPc} (hpc : pc.OpensOwn s.clientMode) :
    Owned { s with reader := pc } :=
  h.quiet rfl rfl rfl (fun _ _ hl => hl) hpc

theorem Owned.write (f : Frame) : Owned (s.write f) :=
  h.quiet rfl rfl rfl (fun _ _ hl => hl) h.reader

theorem Owned.removeStream (id : UInt32) : Owned (s.removeStream id) :=
  h.quiet rfl rfl rfl (fun _ _ hl => (Map.lookup_of_erase hl).2) h.reader

theorem Owned.updateObject (ref : ℕ) {f : StreamObj → StreamObj}
    (hf : ∀ o, (f o).ownership = o.ownership) : Owned (s.updateObject ref f) :=
  h.quiet rfl rfl (Table.map_modify hf _ _) (fun _ _ hl => hl) h.reader

theorem Owned.updateReader (ref : ℕ) (f : StreamObj → StreamObj) (pc : ReaderPc)
    (hf : ∀ o, (f o).ownership = o.ownership) (hpc : pc.OpensOwn s.clientMode) :
    Owned { s.updateObject ref f with reader := pc } :=
  (h.updateObject ref hf).setReader hpc

theorem Owned.clearStreams : Owned s.clearStreams := by
  refine h.quiet rfl rfl (Table.map_mapIdx (fun i o => ?_)) (fun id ref hl => ?_) h.reader
  · split_ifs <;> rfl
  · rw [Session.clearStreams, AList.lookup_empty] at hl
    cases hl

theorem Owned.takeSlot : Owned s.takeSlot := by
  obtain ⟨n, hn⟩ := s.exists_takeSlot_eq
  rw [hn]
  exact h.quiet rfl rfl rfl (fun _ _ hl => hl) h.reader

theorem Owned.releaseSlot : Owned s.releaseSlot := by
  obtain ⟨n, hn⟩ := s.exists_releaseSlot_eq
  rw [hn]
  exact h.quiet rfl rfl rfl (fun _ _ hl => hl) h.reader

end

theorem owners_register (s : Session) (id : UInt32) (openedHere : Bool) :
    (s.register id openedHere).owners = s.owners ++ [⟨id, openedHere⟩] := by
  simp [owners, register, StreamObj.ownership]

theorem mapped_register (h : Owned s) (id : UInt32) (openedHere : Bool) (k : UInt32) (ref : ℕ)
    (hl : (s.register id openedHere).streams.lookup k = some ref) :
    ∃ a, (s.owners ++ [⟨id, openedHere⟩])[ref]? = some a ∧ a.id = k := by
  obtain ⟨rfl, rfl⟩ | ⟨-, hold⟩ := Map.lookup_of_insert hl
  · refine ⟨⟨k, openedHere⟩, ?_, rfl⟩
    rw [← length_map]
    exact getElem?_concat_length
  · obtain ⟨a, ha, hid⟩ := h.mapped k ref hold
    refine ⟨a, ?_, hid⟩
    rw [getElem?_append_left (List.getElem?_eq_some_iff.mp ha).1]
    exact ha

/-- A new identifier is not that of a stream opened here, and a new stream opened here shares its
identifier with none. -/
theorem unique_concat {l : List Ownership} {c : Ownership}
    (h : ∀ (i j : ℕ) (a b : Ownership), l[i]? = some a → l[j]? = some b → i ≠ j →
      a.openedHere = true → a.id ≠ b.id)
    (hnew : ∀ a ∈ l, a.openedHere = true ∨ c.openedHere = true → a.id ≠ c.id) (i j : ℕ) (a b : Ownership)
    (ha : (l ++ [c])[i]? = some a) (hb : (l ++ [c])[j]? = some b) (hij : i ≠ j) (hhere : a.openedHere = true) :
    a.id ≠ b.id := by
  rcases Table.getElem?_concat ha with ha' | ⟨hi, hac⟩
  · rcases Table.getElem?_concat hb with hb' | ⟨-, hbc⟩
    · exact h i j a b ha' hb' hij hhere
    · rw [hbc]
      exact hnew a (mem_of_getElem? ha') (.inl hhere)
  · rcases Table.getElem?_concat hb with hb' | ⟨hj, -⟩
    · rw [hac]
      exact (hnew b (mem_of_getElem? hb') (.inr (hac ▸ hhere))).symm
    · exact absurd (hi.trans hj.symm) hij

theorem Owned.accept (h : Owned s) {id : UInt32} (hid : ¬ LocalID s.clientMode id) : Owned (s.register id false) where
  next := h.next
  bounded := h.bounded
  ok := by
    rw [owners_register]
    exact forall_mem_append.mpr ⟨h.ok, forall_mem_singleton.mpr hid⟩
  unique := by
    rw [owners_register]
    refine unique_concat h.unique (fun a ha hor heq => ?_)
    have hhere : a.openedHere = true := hor.resolve_right nofun
    have hok := h.ok a ha
    rw [Ownership.Ok, if_pos hhere, heq] at hok
    exact hid hok.1
  mapped := fun k ref hl => by
    rw [owners_register]
    exact mapped_register h id false k ref hl
  reader := h.reader

theorem Owned.openNext (h : Owned s) (hmax : ¬ maxStreamID ≤ s.nextStreamID) :
    Owned { s.register s.nextStreamID true with nextStreamID := s.nextStreamID + 2 } := by
  have hlt : s.nextStreamID.toNat < maxStreamID.toNat := by
    rw [UInt32.le_iff_toNat_le] at hmax
    omega
  have hmaxNat : maxStreamID.toNat = 2147483647 := rfl
  have hsum : (s.nextStreamID + 2).toNat = s.nextStreamID.toNat + 2 := by
    rw [UInt32.toNat_add, show UInt32.toNat 2 = 2 from rfl]
    omega
  have howners : ({ s.register s.nextStreamID true with nextStreamID := s.nextStreamID + 2 } : Session).owners =
      s.owners ++ [⟨s.nextStreamID, true⟩] := owners_register s _ true
  refine ⟨h.next.add_two, ?_, ?_, ?_, fun k ref hl => ?_, h.reader⟩
  · change (s.nextStreamID + 2).toNat ≤ _
    omega
  · rw [howners]
    refine forall_mem_append.mpr ⟨fun k hk => ?_, forall_mem_singleton.mpr ⟨h.next, ?_⟩⟩
    · have hok := h.ok k hk
      unfold Ownership.Ok at hok ⊢
      split_ifs at hok ⊢ with hhere
      · refine ⟨hok.1, ?_⟩
        have hk' := UInt32.lt_iff_toNat_lt.mp hok.2
        change k.id.toNat < (s.nextStreamID + 2).toNat
        omega
      · exact hok
    · rw [UInt32.lt_iff_toNat_lt]
      change s.nextStreamID.toNat < (s.nextStreamID + 2).toNat
      omega
  · rw [howners]
    refine unique_concat h.unique (fun a ha _ heq => ?_)
    have hok := h.ok a ha
    unfold Ownership.Ok at hok
    split_ifs at hok with hhere
    · exact absurd (heq ▸ hok.2) (UInt32.lt_irrefl _)
    · exact hok (heq ▸ h.next)
  · rw [howners]
    exact mapped_register h s.nextStreamID true k ref hl

theorem Owned.closeStream (h : Owned s) (ref : ℕ) : Owned (s.closeStream ref) := by
  unfold Session.closeStream
  split
  · exact h
  · split
    · exact h.updateObject ref (fun _ => rfl)
    · exact (h.write _).updateObject ref (fun _ => rfl)
    · exact (h.removeStream _).updateObject ref (fun _ => rfl)
    · exact h.releaseSlot.updateObject ref (fun _ => rfl)
    · exact h

theorem Owned.effect {pick : Pick} {t : SessionTask} {s' : Session} {next : List SessionTask}
    (he : s.Effect t s' next) (ha : s.RemoteOpensOwn pick t) (h : Owned s) : Owned s' := by
  have hreader := h.reader
  cases he with
  | control closed acceptCh written hpc => exact h.quiet rfl rfl rfl (fun _ _ hl => hl) (hpc.opensOwn hreader)
  | lookUp | rst => exact h.setReader trivial
  | @deliver ref payload hr =>
    exact h.updateReader ref (fun o => { o with st := o.st.onData payload }) .idle (fun _ => rfl) trivial
  | syn hidle htype hack => exact h.setReader (ha htype hack)
  | takeSlot hr =>
    rw [hr] at hreader
    obtain ⟨n, hn⟩ := s.exists_takeSlot_eq
    rw [hn]
    exact h.quiet rfl rfl rfl (fun _ _ hl => hl) hreader
  | create hr =>
    rw [hr] at hreader
    exact (h.accept hreader).setReader trivial
  | acquire => exact h.takeSlot
  | openNext hmax => exact h.openNext hmax
  | release => exact h.releaseSlot
  | remove id hpc => exact (h.removeStream id).setReader (hpc.opensOwn hreader)
  | @finMark ref id hr =>
    exact h.updateReader ref (fun o => { o with st := o.st.onFin }) (.finCheck ref id) (fun _ => rfl) trivial
  | @rstMark ref id hr =>
    exact h.updateReader ref (fun o => { o with st := o.st.onRst }) (.rstRemove ref id) (fun _ => rfl) trivial
  | rstRemove => exact (h.removeStream _).setReader trivial
  | @rstRelease ref hr =>
    exact h.releaseSlot.updateReader ref (fun o => { o with wasReset := true }) .idle (fun _ => rfl) trivial
  | closeStream ref => exact h.closeStream ref
  | clearStreams written hpc =>
    exact h.clearStreams.quiet rfl rfl rfl (fun _ _ hl => hl) (hpc.opensOwn hreader)

theorem dispatch_data {f : Frame} {ref : ℕ} {payload : Bytes} (hidle : s.reader = .idle)
    (hd : (s.dispatch f).reader = .data ref payload) :
    s.streams.lookup f.streamID = some ref ∧ payload = f.payload := by
  have hquiet : s.reader ≠ .data ref payload := fun h => by
    rw [hidle] at h
    cases h
  unfold Session.dispatch at hd
  split_ifs at hd
  -- branches that leave the reader where it is
  all_goals try exact absurd hd hquiet
  -- branches that look the identifier up: DATA, FIN and RST
  all_goals
    cases hl : s.streams.lookup f.streamID with
    | none =>
      rw [hl] at hd
      exact absurd hd hquiet
    | some found =>
      rw [hl] at hd
      first
      | exact ⟨by rw [(ReaderPc.data.inj hd).1], (ReaderPc.data.inj hd).2.symm⟩
      | cases hd

end Session

/-- When the remote opens streams of its own parity only, a stream returned by `OpenStream` shares its
identifier with no other stream of the session, and the payload of a DATA frame goes to a stream with
the frame's identifier. -/
theorem sessionRun_owns (cfg : Config) (clientMode : Bool) (turns : List (Turn Pick SessionCall))
    (hallows : sessionSections.Allows Session.RemoteOpensOwn ⟨newSession cfg clientMode, []⟩ turns) :
    let s := (sessionRun cfg clientMode turns).state
    (∀ (i j : ℕ) (a b : StreamObj), s.objects[i]? = some a → s.objects[j]? = some b → i ≠ j →
      a.openedHere = true → a.id ≠ b.id) ∧
    ∀ (f : Frame) (ref : ℕ) (payload : Bytes), s.reader = .idle → (s.dispatch f).reader = .data ref payload →
      payload = f.payload ∧ ∃ o, s.objects[ref]? = some o ∧ o.id = f.streamID := by
  intro s
  have h : s.Owned :=
    Sections.Allows.run
      (fun s pick t ha hs => Session.Owned.effect (s.exec_effect pick t) ha hs) hallows (Session.owned_new cfg clientMode)
  refine ⟨fun i j a b ha hb hij hhere => ?_, fun f ref payload hidle hd => ?_⟩
  · refine h.unique i j a.ownership b.ownership ?_ ?_ hij hhere
    · rw [Session.owners, getElem?_map, ha, Option.map_some]
    · rw [Session.owners, getElem?_map, hb, Option.map_some]
  · obtain ⟨hl, hpayload⟩ := Session.dispatch_data hidle hd
    obtain ⟨k, hk, hid⟩ := h.mapped f.streamID ref hl
    rw [Session.owners, getElem?_map, Option.map_eq_some_iff] at hk
    obtain ⟨o, ho, rfl⟩ := hk
    exact ⟨hpayload, o, ho, hid⟩

def bothOpen : List (Turn Pick SessionCall) := openTurns ++ frameTurns (newSynFrame 2 false) 5 ++ openTurns

theorem sessionRun_owns_bothOpen :
    let s := (sessionRun twoStreams true bothOpen).state
    ∀ (i j : ℕ) (a b : StreamObj), s.objects[i]? = some a → s.objects[j]? = some b → i ≠ j →
      a.openedHere = true → a.id ≠ b.id :=
  (sessionRun_owns twoStreams true bothOpen (by decide)).1

/-- The remote opens stream 1 before the client's first `OpenStream`, which then takes 1 as well. -/
def claimedFirst : List (Turn Pick SessionCall) := frameTurns (newSynFrame 1 false) 5 ++ openTurns

/-- Two live streams have the identifier 1, and what arrives for the accepted one goes to the one that
`OpenStream` returned. -/
theorem sessionRun_claimedFirst :
    let p := sessionRun twoStreams true claimedFirst
    p.ready = [] ∧ p.state.acceptCh = [0] ∧
      p.state.objects.map (fun o => (o.id, o.openedHere, o.live)) = [(1, false, true), (1, true, true)] ∧
      (p.state.dispatch (newDataFrame 1 [7])).reader = .data 1 [7] := by
  decide

end MeshDesk.Smux
