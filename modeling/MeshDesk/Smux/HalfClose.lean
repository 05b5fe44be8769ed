import MeshDesk.Lib.Runs
import MeshDesk.Smux.StreamEffects

/-! A stream that is closed here while the remote still writes. The session runs as before; one of its
streams is watched, with what the remote writes on it and what its reads return. -/
namespace MeshDesk.Smux
open Lib List
open Proxy (Bytes)
open Session

/-! ### One stream watched -/

/-- A session with one of its streams watched: the bytes the remote has written on it, whether its FIN has been
handled, and what the reads of the stream have returned. -/
structure Watched where
  pool : Pool Session SessionTask
  sent : Bytes
  finned : Bool
  results : List ReadResult

/-- What happens: a turn of the session, or a `Read` of a stream into a buffer of `n` bytes. -/
inductive WatchTurn where
  | session (turn : Turn Pick SessionCall)
  | read (ref n : ℕ)

namespace Session

variable (s : Session) (ref : ℕ)

def isFor (f : Frame) : Bool := (s.objects[ref]?).any (fun o => o.id = f.streamID)

def arriving : SessionTask → Bytes
  | .readNext (some f) => if s.reader = .idle ∧ f.IsData ∧ s.isFor ref f then f.payload else []
  | _ => []

def endsStream : SessionTask → Bool
  | .readOn =>
    match s.reader with
    | .finMark ref' _ => decide (ref' = ref) && (s.objects[ref]?).isSome
    | _ => false
  | _ => false

def pending : Bytes :=
  match s.reader with
  | .data ref' payload => if ref' = ref then payload else []
  | _ => []

def readStream (n : ℕ) : Session :=
  s.updateObject ref (fun o => { o with st := (o.st.read s.closed n).2 })

end Session

namespace Watched
variable (ref : ℕ)

def step (x : Watched) : WatchTurn → Watched
  | .session turn =>
    let x' := { x with pool := sessionSections.step x.pool turn }
    match turn with
    | .call _ => x'
    | .exec i _ =>
      match x.pool.ready[i]? with
      | none => x'
      | some t =>
        { x' with
          sent := x.sent ++ x.pool.state.arriving ref t
          finned := x.finned || x.pool.state.endsStream ref t }
  | .read ref' n =>
    match x.pool.state.objects[ref']? with
    | none => x
    | some o =>
      { x with
        pool := { x.pool with state := x.pool.state.readStream ref' n }
        results := if ref' = ref then x.results ++ [(o.st.read x.pool.state.closed n).1] else x.results }

def returned (x : Watched) : Bytes := x.results.flatMap ReadResult.bytes

def object (x : Watched) : Option StreamObj := x.pool.state.objects[ref]?

end Watched

def newWatched (cfg : Config) (clientMode : Bool) : Watched := ⟨⟨newSession cfg clientMode, []⟩, [], false, []⟩

def watchRun (ref : ℕ) (cfg : Config) (clientMode : Bool) (turns : List WatchTurn) : Watched :=
  turns.foldl (Watched.step ref) (newWatched cfg clientMode)

/-- A DATA frame of the stream is looked up while the stream is still in the map and before the FIN. -/
def Session.InTime (s : Session) (ref : ℕ) (finned : Bool) : SessionTask → Prop
  | .readNext (some f) =>
    s.reader = .idle → f.IsData → s.isFor ref f → s.streams.lookup f.streamID = some ref ∧ finned = false
  | _ => True

/-- The stream is closed here and not yet by the remote, and there is nothing to read. -/
def StreamObj.abandoned (o : StreamObj) : Bool := o.st.readBuf = [] && o.st.localClosed && !o.st.remoteClosed

/-- The remote's frames come before `Close` has taken the stream out of the map, and the stream is not read
while it is closed here only and empty. -/
def Watched.InTime (ref : ℕ) (x : Watched) : WatchTurn → Prop
  | .session (.call _) => True
  | .session (.exec i _) => ∀ t ∈ x.pool.ready[i]?, x.pool.state.InTime ref x.finned t
  | .read ref' _ => ref' = ref → ∀ o ∈ x.object ref, o.abandoned = false

instance (s : Session) (ref : ℕ) (finned : Bool) (t : SessionTask) : Decidable (s.InTime ref finned t) :=
  match t with
  | .readNext (some _) => inferInstanceAs (Decidable (_ → _ → _ → _))
  | .readNext none | .openCheck | .openAcquire | .openCanceled | .openAllocate | .openReleaseSlot | .openSyn _ _
  | .openRemove _ | .acceptCheck | .accept | .readOn | .closeStream _ | .closeSession | .clearStreams | .done _ =>
    isTrue trivial

instance (ref : ℕ) (x : Watched) (turn : WatchTurn) : Decidable (x.InTime ref turn) :=
  match turn with
  | .session (.call _) => isTrue trivial
  | .session (.exec _ _) => inferInstanceAs (Decidable (∀ t ∈ _, _))
  | .read _ _ => inferInstanceAs (Decidable (_ → ∀ o ∈ _, _))

/-! ### Nothing is lost -/

/-- Every byte that the remote has written on the stream has been returned, is buffered, or is on its way to
the buffer; after the FIN nothing is on its way. -/
structure Delivered (ref : ℕ) (x : Watched) : Prop where
  found : ∀ id r, x.pool.state.streams.lookup id = some r → ∃ o, x.pool.state.objects[r]? = some o ∧ o.id = id
  looked : ∀ r payload, x.pool.state.reader = .data r payload → ∃ o, x.pool.state.objects[r]? = some o
  bytes : ∀ o, x.object ref = some o → o.st.resetErr = none →
    x.returned ++ o.st.readBuf ++ x.pool.state.pending ref = x.sent
  fresh : x.object ref = none → x.sent = [] ∧ x.results = []
  ended : x.finned = true →
    x.pool.state.pending ref = [] ∧ ∃ o, x.object ref = some o ∧ o.st.remoteClosed = true
  reset : ∀ o, x.object ref = some o → o.st.resetErr ≠ some .closedPipe
  unpiped : ReadResult.failed .closedPipe ∉ x.results

namespace Session
variable {s s' : Session} {ref : ℕ}

theorem Quiet.pending (h : s.Quiet s') (ref : ℕ) : s'.pending ref = s.pending ref := by
  cases hr : s.reader with
  | data r payload => rw [Session.pending, Session.pending, hr, (h.reader r payload).mpr hr]
  | _ =>
    have hnot : ∀ r payload, s'.reader ≠ .data r payload := by
      intro r payload hr'
      rw [(h.reader r payload).mp hr'] at hr
      cases hr
    rw [Session.pending, Session.pending, hr]
    split
    · next r payload hr' => exact absurd hr' (hnot r payload)
    · rfl

theorem Quiet.object (h : s.Quiet s') {o' : StreamObj} (ho' : s'.objects[ref]? = some o') :
    (∃ o, s.objects[ref]? = some o ∧ o.Marked o') ∨ (s.objects[ref]? = none ∧ ∃ size, o'.st = newStream size) := by
  cases ho : s.objects[ref]? with
  | none => exact .inr ⟨rfl, h.added ref o' ho ho'⟩
  | some o =>
    obtain ⟨o'', ho'', hmarked⟩ := h.kept ref o ho
    obtain rfl := Option.mem_unique ho'' ho'
    exact .inl ⟨o, rfl, hmarked⟩

theorem Quiet.object_none (h : s.Quiet s') (hnone : s'.objects[ref]? = none) : s.objects[ref]? = none := by
  by_contra hne
  obtain ⟨o, ho⟩ := Option.ne_none_iff_exists'.mp hne
  obtain ⟨o', ho', -⟩ := h.kept ref o ho
  rw [hnone] at ho'
  cases ho'

theorem finMark_of_endsStream {t : SessionTask} (h : s.endsStream ref t = true) :
    t = .readOn ∧ ∃ id o, s.reader = .finMark ref id ∧ s.objects[ref]? = some o := by
  unfold endsStream at h
  split at h
  · split at h
    · next ref' id hr =>
      simp only [Bool.and_eq_true, decide_eq_true_eq] at h
      obtain ⟨rfl, hsome⟩ := h
      obtain ⟨o, ho⟩ := Option.isSome_iff_exists.mp hsome
      exact ⟨rfl, id, o, hr, ho⟩
    · cases h
  · cases h

theorem remoteClosed_of_endsStream {pick : Pick} {t : SessionTask} (h : s.endsStream ref t = true) :
    s.pending ref = [] ∧ ∃ o, (s.exec pick t).1.objects[ref]? = some o ∧ o.st.remoteClosed = true := by
  obtain ⟨rfl, id, o, hr, ho⟩ := finMark_of_endsStream h
  refine ⟨by rw [pending, hr], { o with st := o.st.onFin }, ?_, rfl⟩
  change (s.readOn pick).objects[ref]? = _
  unfold readOn
  rw [hr]
  dsimp only [updateObject]
  rw [getElem?_modify_eq, ho]
  rfl

end Session

namespace Delivered
variable {ref : ℕ} {x : Watched}

theorem new (ref : ℕ) (cfg : Config) (clientMode : Bool) : Delivered ref (newWatched cfg clientMode) where
  found id r hl := by
    cases hl
  looked := nofun
  bytes := nofun
  fresh _ := ⟨rfl, rfl⟩
  ended := nofun
  reset := nofun
  unpiped := not_mem_nil

theorem pending_of_none (h : Delivered ref x) (hnone : x.object ref = none) : x.pool.state.pending ref = [] := by
  unfold pending
  split
  · next r payload hr =>
    split_ifs with heq
    · obtain ⟨o, ho⟩ := h.looked r payload hr
      rw [heq] at ho
      cases ho.symm.trans hnone
    · rfl
  · rfl

variable {s' : Session} {rest : List SessionTask} {r : ℕ}

section
variable (h : Delivered ref x)
include h

theorem quiet (hquiet : x.pool.state.Quiet s') {ends : Bool} (hends : ends = true →
      x.pool.state.pending ref = [] ∧ ∃ o, s'.objects[ref]? = some o ∧ o.st.remoteClosed = true) :
    Delivered ref ⟨⟨s', rest⟩, x.sent, x.finned || ends, x.results⟩ where
  found id r hl := by
    obtain hl | hnew := hquiet.found id r hl
    · obtain ⟨o, ho, hid⟩ := h.found id r hl
      obtain ⟨o', ho', hmarked⟩ := hquiet.kept r o ho
      exact ⟨o', ho', hmarked.sameID.trans hid⟩
    · exact hnew
  looked r payload hr := by
    obtain ⟨o, ho⟩ := h.looked r payload ((hquiet.reader r payload).mp hr)
    obtain ⟨o', ho', -⟩ := hquiet.kept r o ho
    exact ⟨o', ho'⟩
  bytes o' ho' hreset := by
    rw [hquiet.pending]
    obtain ⟨o, ho, hmarked⟩ | ⟨hnone, size, hnew⟩ := hquiet.object ho'
    · obtain hsame | hset := hmarked.resetErr
      · rw [hmarked.readBuf]
        exact h.bytes o ho (hsame.symm.trans hreset)
      · rw [hset] at hreset
        cases hreset
    · obtain ⟨hsent, hresults⟩ := h.fresh hnone
      rw [Watched.returned, hresults, hnew, h.pending_of_none hnone, hsent]
      rfl
  fresh hnone := h.fresh (hquiet.object_none hnone)
  ended hfin := by
    rw [hquiet.pending]
    obtain hfin | hfin := Bool.or_eq_true_iff.mp hfin
    · obtain ⟨hpending, o, ho, hclosed⟩ := h.ended hfin
      obtain ⟨o', ho', hmarked⟩ := hquiet.kept ref o ho
      exact ⟨hpending, o', ho', hmarked.remoteClosed hclosed⟩
    · exact hends hfin
  reset o' ho' := by
    obtain ⟨o, ho, hmarked⟩ | ⟨-, size, hnew⟩ := hquiet.object ho'
    · obtain hsame | hset := hmarked.resetErr
      · rw [hsame]
        exact h.reset o ho
      · rw [hset]
        decide
    · rw [hnew]
      nofun
  unpiped := h.unpiped

theorem lookUp {f : Frame}
    (hl : x.pool.state.streams.lookup f.streamID = some r) (hidle : x.pool.state.reader = .idle)
    (hopen : r = ref → x.finned = false) :
    Delivered ref ⟨⟨{ x.pool.state with reader := .data r f.payload }, rest⟩,
      x.sent ++ (if r = ref then f.payload else []), x.finned, x.results⟩ where
  found := h.found
  looked r' payload hr := by
    injection hr with hr
    obtain ⟨o, ho, -⟩ := h.found _ _ hl
    exact ⟨o, hr ▸ ho⟩
  bytes o ho hreset := by
    have hbytes := h.bytes o ho hreset
    rw [pending, hidle, append_nil] at hbytes
    exact congrArg (· ++ _) hbytes
  fresh hnone := by
    obtain ⟨hsent, hresults⟩ := h.fresh hnone
    have hne : r ≠ ref := by
      rintro rfl
      obtain ⟨o, ho, -⟩ := h.found _ _ hl
      cases ho.symm.trans hnone
    rw [if_neg hne, hsent]
    exact ⟨rfl, hresults⟩
  ended hfin := by
    refine ⟨?_, (h.ended hfin).2⟩
    exact if_neg fun heq => Bool.noConfusion ((hopen heq).symm.trans hfin)
  reset := h.reset
  unpiped := h.unpiped

theorem other (hkept : ∀ (k : ℕ) (o : StreamObj), x.pool.state.objects[k]? = some o →
      ∃ o' : StreamObj, s'.objects[k]? = some o' ∧ o'.id = o.id) (hstreams : s'.streams = x.pool.state.streams)
    (hreader : ∀ r payload, s'.reader = .data r payload → x.pool.state.reader = .data r payload)
    (hobject : s'.objects[ref]? = x.object ref) (hpending : s'.pending ref = x.pool.state.pending ref) :
    Delivered ref ⟨⟨s', rest⟩, x.sent, x.finned, x.results⟩ where
  found id k hl := by
    obtain ⟨o, ho, hid⟩ := h.found id k (hstreams ▸ hl)
    obtain ⟨o', ho', hsame⟩ := hkept k o ho
    exact ⟨o', ho', hsame.trans hid⟩
  looked k payload hr := by
    obtain ⟨o, ho⟩ := h.looked k payload (hreader k payload hr)
    obtain ⟨o', ho', -⟩ := hkept k o ho
    exact ⟨o', ho'⟩
  bytes o ho hnone := by
    rw [hpending]
    exact h.bytes o (hobject.symm.trans ho) hnone
  fresh hnone := h.fresh (hobject.symm.trans hnone)
  ended hfin := by
    obtain ⟨hnil, o, ho, hclosed⟩ := h.ended hfin
    exact ⟨hpending.trans hnil, o, hobject.trans ho, hclosed⟩
  reset o ho := h.reset o (hobject.symm.trans ho)
  unpiped := h.unpiped

theorem edit {o : StreamObj} (ho : x.pool.state.objects[r]? = some o)
    {g : Stream → Stream} {results : List ReadResult}
    (hobjects : s'.objects = x.pool.state.objects.modify r (fun o => { o with st := g o.st }))
    (hstreams : s'.streams = x.pool.state.streams)
    (hreader : ∀ r payload, s'.reader = .data r payload → x.pool.state.reader = .data r payload)
    (hother : r ≠ ref → results = x.results ∧ s'.pending ref = x.pool.state.pending ref)
    (hself : r = ref → (g o.st).resetErr = none → o.st.resetErr = none ∧
      results.flatMap ReadResult.bytes ++ (g o.st).readBuf ++ s'.pending ref =
        x.returned ++ o.st.readBuf ++ x.pool.state.pending ref)
    (hclosed : o.st.remoteClosed = true → (g o.st).remoteClosed = true)
    (hreset : (g o.st).resetErr = some .closedPipe → o.st.resetErr = some .closedPipe)
    (hresults : r = ref → ReadResult.failed .closedPipe ∉ results) :
    Delivered ref ⟨⟨s', rest⟩, x.sent, x.finned, results⟩ := by
  have hnew : s'.objects[r]? = some { o with st := g o.st } := by
    rw [hobjects, getElem?_modify_eq, ho]
    rfl
  have hold : ∀ k, r ≠ k → s'.objects[k]? = x.pool.state.objects[k]? := by
    intro k hne
    rw [hobjects, getElem?_modify_ne _ _ hne]
  have hkept : ∀ (k : ℕ) (o₀ : StreamObj), x.pool.state.objects[k]? = some o₀ →
      ∃ o' : StreamObj, s'.objects[k]? = some o' ∧ o'.id = o₀.id := by
    intro k o₀ ho₀
    by_cases hk : r = k
    · subst hk
      obtain rfl := Option.mem_unique ho ho₀
      exact ⟨_, hnew, rfl⟩
    · exact ⟨o₀, (hold k hk).trans ho₀, rfl⟩
  by_cases hr : r = ref
  · subst hr
    have hpending : x.pool.state.pending r = [] → s'.pending r = [] := by
      intro hnil
      unfold pending
      split
      · next k payload hk =>
        rw [pending, hreader k payload hk] at hnil
        exact hnil
      · rfl
    refine ⟨fun id k hl => ?_, fun k payload hk => ?_, fun o' ho' hnone => ?_, fun hnone => ?_, fun hfin => ?_,
      fun o' ho' => ?_, hresults rfl⟩
    · obtain ⟨o₀, ho₀, hid⟩ := h.found id k (hstreams ▸ hl)
      obtain ⟨o', ho', hsame⟩ := hkept k o₀ ho₀
      exact ⟨o', ho', hsame.trans hid⟩
    · obtain ⟨o₀, ho₀⟩ := h.looked k payload (hreader k payload hk)
      obtain ⟨o', ho', -⟩ := hkept k o₀ ho₀
      exact ⟨o', ho'⟩
    · obtain rfl := Option.mem_unique hnew ho'
      obtain ⟨hwas, hbytes⟩ := hself rfl hnone
      exact hbytes.trans (h.bytes o ho hwas)
    · cases hnew.symm.trans hnone
    · obtain ⟨hnil, o₀, ho₀, hclosed₀⟩ := h.ended hfin
      obtain rfl := Option.mem_unique ho ho₀
      exact ⟨hpending hnil, _, hnew, hclosed hclosed₀⟩
    · obtain rfl := Option.mem_unique hnew ho'
      exact fun hpipe => h.reset o ho (hreset hpipe)
  · obtain ⟨rfl, hpending⟩ := hother hr
    exact h.other hkept hstreams hreader (hold ref hr) hpending

theorem deliver {payload : Bytes} (hr : x.pool.state.reader = .data r payload) :
    Delivered ref
      ⟨⟨{ x.pool.state.updateObject r (fun o => { o with st := o.st.onData payload }) with reader := .idle }, rest⟩,
        x.sent, x.finned, x.results⟩ := by
  obtain ⟨o, ho⟩ := h.looked r payload hr
  have hpending : r = ref → x.pool.state.pending ref = payload := by
    intro heq
    rw [pending, hr]
    exact if_pos heq
  have hreset : (o.st.onData payload).resetErr = o.st.resetErr ∧
        (o.st.onData payload).readBuf = o.st.readBuf ++ payload ∨
      (o.st.onData payload).resetErr = some .streamReset := by
    unfold Stream.onData
    split_ifs
    · exact .inl ⟨rfl, rfl⟩
    · exact .inr rfl
  refine h.edit (g := fun st => st.onData payload) ho rfl rfl (fun _ _ hidle => by cases hidle) (fun hne => ⟨rfl, ?_⟩)
    (fun heq hnone => ?_) (fun hclosed => ?_) (fun hpipe => ?_) fun _ => h.unpiped
  · refine Eq.symm ?_
    rw [pending, hr]
    exact if_neg hne
  · obtain ⟨hsame, hbuf⟩ | hset := hreset
    · refine ⟨hsame.symm.trans hnone, ?_⟩
      rw [hpending heq, hbuf, ← append_assoc, Watched.returned]
      exact append_nil _
    · cases hset.symm.trans hnone
  · unfold Stream.onData
    split_ifs
    · exact hclosed
    · rfl
  · obtain ⟨hsame, -⟩ | hset := hreset
    · exact hsame.symm.trans hpipe
    · cases hset.symm.trans hpipe

end

end Delivered

theorem Stream.read_closedPipe {st : Stream} {sessionClosed : Bool} {n : ℕ}
    (h : (st.read sessionClosed n).1 = .failed .closedPipe) (hreset : st.resetErr ≠ some .closedPipe) :
    st.readBuf = [] ∧ st.localClosed = true ∧ st.remoteClosed = false := by
  unfold Stream.read at h
  by_cases hbuf : st.readBuf = []
  · rw [if_neg (not_not.mpr hbuf)] at h
    cases hr : st.resetErr with
    | some e =>
      rw [hr] at h hreset
      injection h with h
      exact absurd (congrArg some h) hreset
    | none =>
      rw [hr] at h
      split_ifs at h with hremote hlocal hsession
      · cases h
      · exact ⟨hbuf, hlocal, Bool.eq_false_iff.mpr hremote⟩
      · cases h
  · rw [if_pos hbuf] at h
    cases h

theorem Stream.read_remoteClosed (st : Stream) (sessionClosed : Bool) (n : ℕ) :
    (st.read sessionClosed n).2.remoteClosed = st.remoteClosed := by
  unfold Stream.read
  split_ifs
  · rfl
  all_goals
    cases st.resetErr <;> rfl

namespace Delivered
variable {ref : ℕ} {x : Watched}

section
variable (h : Delivered ref x)
include h

theorem step_read (r n : ℕ) (hin : x.InTime ref (.read r n)) :
    Delivered ref (x.step ref (.read r n)) := by
  unfold Watched.step
  dsimp only
  cases ho : x.pool.state.objects[r]? with
  | none => exact h
  | some o =>
    obtain ⟨hbuf, hreset⟩ := o.st.read_spec x.pool.state.closed n
    refine h.edit (g := fun st => (st.read x.pool.state.closed n).2) ho rfl rfl (fun _ _ hr => hr)
      (fun hne => ⟨if_neg hne, rfl⟩) (fun heq hnone => ⟨hreset.symm.trans hnone, ?_⟩) (fun hclosed => ?_)
      (fun hpipe => hreset.symm.trans hpipe) fun heq => ?_
    · rw [if_pos heq, flatMap_append, flatMap_singleton, append_assoc _ _ (Stream.readBuf _), hbuf]
      rfl
    · rw [o.st.read_remoteClosed]
      exact hclosed
    · rw [if_pos heq, mem_append, mem_singleton, not_or]
      refine ⟨h.unpiped, fun hpipe => ?_⟩
      have hopen : o.abandoned = false := hin heq o (heq ▸ ho)
      obtain ⟨hnil, hlocal, hremote⟩ := Stream.read_closedPipe hpipe.symm (h.reset o (heq ▸ ho))
      rw [StreamObj.abandoned, hnil, hlocal, hremote] at hopen
      cases hopen

theorem exec_arriving {f : Frame} (pick : Pick) (rest : List SessionTask)
    (hidle : x.pool.state.reader = .idle) (hdata : f.IsData) (hfor : x.pool.state.isFor ref f = true)
    (hin : x.pool.state.InTime ref x.finned (.readNext (some f))) :
    Delivered ref ⟨⟨(x.pool.state.exec pick (.readNext (some f))).1, rest⟩,
      x.sent ++ x.pool.state.arriving ref (.readNext (some f)), x.finned, x.results⟩ := by
  obtain ⟨hl, hopen⟩ := hin hidle hdata hfor
  have harriving : x.pool.state.arriving ref (.readNext (some f)) = if ref = ref then f.payload else [] := by
    rw [if_pos rfl]
    exact if_pos ⟨hidle, hdata, hfor⟩
  have hexec : (x.pool.state.exec pick (.readNext (some f))).1 =
      { x.pool.state with reader := .data ref f.payload } := by
    rw [← dispatch_data_eq hdata hl]
    exact if_pos hidle
  rw [harriving, hexec]
  exact h.lookUp hl hidle fun _ => hopen

theorem exec {t : SessionTask} (pick : Pick) (rest : List SessionTask)
    (hin : x.pool.state.InTime ref x.finned t) :
    Delivered ref ⟨⟨(x.pool.state.exec pick t).1, rest⟩, x.sent ++ x.pool.state.arriving ref t,
      x.finned || x.pool.state.endsStream ref t, x.results⟩ := by
  have hends : ∀ f, (x.finned || x.pool.state.endsStream ref (.readNext (some f))) = x.finned := fun _ => Bool.or_false _
  by_cases harr : ∃ f, t = .readNext (some f) ∧ x.pool.state.reader = .idle ∧ f.IsData ∧ x.pool.state.isFor ref f
  · obtain ⟨f, rfl, hidle, hdata, hfor⟩ := harr
    rw [hends]
    exact h.exec_arriving pick rest hidle hdata hfor hin
  have harriving : x.pool.state.arriving ref t = [] := by
    unfold arriving
    split
    · next f => exact if_neg fun hf => harr ⟨f, rfl, hf⟩
    · rfl
  rw [harriving, append_nil]
  obtain ⟨f, r, rfl, hidle, hdata, hl, hexec⟩ | ⟨r, payload, rfl, hr, hexec⟩ | hquiet :=
    (x.pool.state.exec_effect pick t).quiet_or
  · -- the frame is for the stream that the map has under its identifier, so it is another stream's
    have hne : r ≠ ref := by
      rintro rfl
      obtain ⟨o, ho, hid⟩ := h.found _ _ hl
      refine harr ⟨f, rfl, hidle, hdata, ?_⟩
      rw [isFor, ho]
      exact decide_eq_true hid
    have hlooked : Delivered ref ⟨⟨{ x.pool.state with reader := .data r f.payload }, rest⟩, _, _, _⟩ :=
      h.lookUp hl hidle fun heq => absurd heq hne
    rw [if_neg hne, append_nil] at hlooked
    rw [hexec, hends]
    exact hlooked
  · have hends : (x.finned || x.pool.state.endsStream ref .readOn) = x.finned := by
      rw [endsStream, hr]
      exact Bool.or_false _
    rw [hexec, hends]
    exact h.deliver hr
  · exact h.quiet hquiet remoteClosed_of_endsStream

theorem step_exec (i : ℕ) (pick : Pick) (hin : x.InTime ref (.session (.exec i pick))) :
    Delivered ref (x.step ref (.session (.exec i pick))) := by
  unfold Watched.step
  cases ht : x.pool.ready[i]? with
  | none =>
    dsimp only
    rw [ht, sessionSections.step_exec_none ht]
    exact h
  | some t =>
    dsimp only
    rw [ht, sessionSections.step_exec_some ht]
    exact h.exec pick _ (hin t ht)

theorem step (turn : WatchTurn) (hin : x.InTime ref turn) :
    Delivered ref (x.step ref turn) := by
  match turn with
  | .session (.call call) => exact ⟨h.found, h.looked, h.bytes, h.fresh, h.ended, h.reset, h.unpiped⟩
  | .session (.exec i pick) => exact h.step_exec i pick hin
  | .read r n => exact h.step_read r n hin

end

theorem run {cfg : Config} {clientMode : Bool} {turns : List WatchTurn}
    (hin : Meets (Watched.step ref) (Watched.InTime ref) (newWatched cfg clientMode) turns) :
    Delivered ref (watchRun ref cfg clientMode turns) :=
  hin.invariant (fun _ turn hturn h => step h turn hturn) (new ref cfg clientMode)

end Delivered

/-! ### Reading to the end -/

theorem Stream.read_ended {st : Stream} (hclosed : st.remoteClosed = true) (hreset : st.resetErr = none)
    (sessionClosed : Bool) (n : ℕ) :
    st.readBuf = [] ∧ (st.read sessionClosed n).1 = .failed .eof ∨
      st.readBuf ≠ [] ∧ (st.read sessionClosed n).1 = .data (st.readBuf.take n) := by
  unfold Stream.read
  by_cases hbuf : st.readBuf = []
  · rw [if_neg (not_not.mpr hbuf), hreset]
    rw [if_pos hclosed]
    exact .inl ⟨hbuf, rfl⟩
  · rw [if_pos hbuf]
    exact .inr ⟨hbuf, rfl⟩

namespace Watched
variable {ref : ℕ} {x : Watched} {o : StreamObj}

theorem step_read_eq (ho : x.object ref = some o) (n : ℕ) :
    x.step ref (.read ref n) =
      { x with
        pool := { x.pool with state := x.pool.state.readStream ref n }
        results := x.results ++ [(o.st.read x.pool.state.closed n).1] } := by
  have ho' : x.pool.state.objects[ref]? = some o := ho
  unfold Watched.step
  dsimp only
  rw [ho']
  dsimp only
  rw [if_pos rfl]

theorem object_step_read (ho : x.object ref = some o) (n : ℕ) :
    (x.step ref (.read ref n)).object ref = some { o with st := (o.st.read x.pool.state.closed n).2 } := by
  have ho' : x.pool.state.objects[ref]? = some o := ho
  rw [step_read_eq ho]
  change (x.pool.state.objects.modify ref _)[ref]? = _
  rw [getElem?_modify_eq, ho']
  rfl

theorem reads_drain (ho : x.object ref = some o) (hclosed : o.st.remoteClosed = true) (hreset : o.st.resetErr = none)
    {ns : List ℕ} (hpos : ∀ n ∈ ns, 0 < n) (hlen : o.st.readBuf.length < ns.length) :
    ∃ more, ((ns.map (.read ref)).foldl (Watched.step ref) x).results = x.results ++ more ∧
      more.flatMap ReadResult.bytes = o.st.readBuf ∧ more.getLast? = some (.failed .eof) ∧
      ReadResult.failed .closedPipe ∉ more := by
  induction ns generalizing x o with
  | nil => exact absurd hlen (Nat.not_lt_zero _)
  | cons n ns ih =>
    obtain ⟨hbytes, hreset'⟩ := o.st.read_spec x.pool.state.closed n
    have hclosed' := (o.st.read_remoteClosed x.pool.state.closed n).trans hclosed
    have hread := Stream.read_ended hclosed hreset x.pool.state.closed n
    have hresults : (x.step ref (.read ref n)).results = x.results ++ [(o.st.read x.pool.state.closed n).1] :=
      congrArg Watched.results (step_read_eq ho n)
    have hfirst : (o.st.read x.pool.state.closed n).1 ≠ .failed .closedPipe := by
      obtain ⟨-, hr⟩ | ⟨-, hr⟩ := hread <;> rw [hr] <;> nofun
    rw [map_cons, foldl_cons]
    by_cases hns : ns = []
    · -- the last read: the buffer is empty by now
      subst hns
      have hnil : o.st.readBuf = [] := length_eq_zero_iff.mp (Nat.lt_one_iff.mp hlen)
      obtain ⟨-, hr⟩ | ⟨hne, -⟩ := hread
      · rw [hr] at hresults
        refine ⟨[.failed .eof], hresults, ?_, rfl, ?_⟩
        · rw [hnil]
          rfl
        · decide
      · exact absurd hnil hne
    · have hshorter : (o.st.read x.pool.state.closed n).2.readBuf.length < ns.length := by
        have hpart := congrArg length hbytes
        rw [length_append] at hpart
        obtain ⟨hnil, -⟩ | ⟨hne, hr⟩ := hread
        · rw [hnil] at hpart
          have hsome := length_pos_iff.mpr hns
          rw [length_nil] at hpart
          omega
        · have hn := hpos n mem_cons_self
          have hsome := length_pos_iff.mpr hne
          rw [hr, ReadResult.bytes, length_take] at hpart
          rw [length_cons] at hlen
          omega
      obtain ⟨more, hmore, hflat, hlast, hpipe⟩ :=
        ih (object_step_read ho n) hclosed' (hreset'.trans hreset) (forall_mem_cons.mp hpos).2
          hshorter
      refine ⟨(o.st.read x.pool.state.closed n).1 :: more, ?_, ?_, ?_, ?_⟩
      · rw [hmore, hresults, append_assoc]
        rfl
      · rw [flatMap_cons, hflat]
        exact hbytes
      · rw [getLast?_cons, hlast]
        rfl
      · rw [mem_cons, not_or]
        exact ⟨fun h => hfirst h.symm, hpipe⟩

theorem reads_sent (ns : List ℕ) : ((ns.map (.read ref)).foldl (Watched.step ref) x).sent = x.sent := by
  induction ns generalizing x with
  | nil => rfl
  | cons n ns ih =>
    rw [map_cons, foldl_cons, ih]
    unfold Watched.step
    dsimp only
    cases x.pool.state.objects[ref]? <;> rfl

end Watched

/-- What the remote writes on a stream before its FIN is returned by the reads of the stream, and `io.EOF`
after it, closed here or not, where the frames come before `Close` has removed the stream. -/
theorem watchRun_returned (cfg : Config) (clientMode : Bool) (turns : List WatchTurn) (ref : ℕ) (o : StreamObj)
    (ns : List ℕ) (hin : Meets (Watched.step ref) (Watched.InTime ref) (newWatched cfg clientMode) turns)
    (ho : (watchRun ref cfg clientMode turns).object ref = some o)
    (hfin : (watchRun ref cfg clientMode turns).finned = true) (hreset : o.st.resetErr = none)
    (hpos : ∀ n ∈ ns, 0 < n) (hlen : o.st.readBuf.length < ns.length) :
    (watchRun ref cfg clientMode (turns ++ ns.map (.read ref))).returned =
        (watchRun ref cfg clientMode (turns ++ ns.map (.read ref))).sent ∧
      (watchRun ref cfg clientMode (turns ++ ns.map (.read ref))).results.getLast? = some (.failed .eof) ∧
      ReadResult.failed .closedPipe ∉ (watchRun ref cfg clientMode (turns ++ ns.map (.read ref))).results := by
  have h := Delivered.run hin
  obtain ⟨hpending, o', ho', hclosed⟩ := h.ended hfin
  obtain rfl := Option.mem_unique ho ho'
  have hsplit : watchRun ref cfg clientMode (turns ++ ns.map (.read ref)) =
      (ns.map (.read ref)).foldl (Watched.step ref) (watchRun ref cfg clientMode turns) := foldl_append
  obtain ⟨more, hmore, hflat, hlast, hpipe⟩ := Watched.reads_drain ho hclosed hreset hpos hlen
  have hbytes := h.bytes o ho hreset
  rw [hpending, append_nil] at hbytes
  rw [hsplit, Watched.returned, Watched.reads_sent, hmore]
  refine ⟨?_, ?_, ?_⟩
  · rw [flatMap_append, hflat]
    exact hbytes
  · rw [getLast?_append, hlast]
    rfl
  · rw [mem_append, not_or]
    exact ⟨h.unpiped, hpipe⟩

def watchCalls (calls : List SessionCall) : List WatchTurn :=
  calls.flatMap fun call => [.session (.call call), .session (.exec 0 .proceed)]

def openedByRemote : List WatchTurn :=
  watchCalls (.readNext (some (newSynFrame 1 false)) :: List.replicate 5 .readOn)

def closedHere : List WatchTurn := watchCalls (List.replicate 4 (.closeStream 0))

def writtenByRemote : List WatchTurn :=
  watchCalls ([.readNext (some (newDataFrame 1 [5])), .readOn] ++
    .readNext (some (newFinFrame 1)) :: List.replicate 3 .readOn)

def closedAfter : List WatchTurn := openedByRemote ++ writtenByRemote ++ closedHere

theorem watchRun_returned_closedAfter :
    (watchRun 0 ⟨0, 8, 0, 0, 0⟩ false (closedAfter ++ [8, 8].map (.read 0))).returned =
        (watchRun 0 ⟨0, 8, 0, 0, 0⟩ false (closedAfter ++ [8, 8].map (.read 0))).sent ∧
      (watchRun 0 ⟨0, 8, 0, 0, 0⟩ false (closedAfter ++ [8, 8].map (.read 0))).results.getLast? =
        some (.failed .eof) ∧
      ReadResult.failed .closedPipe ∉
        (watchRun 0 ⟨0, 8, 0, 0, 0⟩ false (closedAfter ++ [8, 8].map (.read 0))).results := by
  have ho : ∃ o, (watchRun 0 ⟨0, 8, 0, 0, 0⟩ false closedAfter).object 0 = some o ∧ o.st.resetErr = none ∧
      o.st.readBuf.length < 2 := ⟨_, rfl, rfl, by decide⟩
  obtain ⟨o, ho, hreset, hlen⟩ := ho
  exact watchRun_returned _ _ _ _ o [8, 8] (by decide) ho (by decide) hreset (by decide) hlen

def closedBefore : List WatchTurn := openedByRemote ++ closedHere ++ writtenByRemote

/-- After `Close` the session no longer knows the stream: what the remote writes on it is dropped, and the read
answers that the pipe is closed. -/
theorem watchRun_dropped :
    (watchRun 0 ⟨0, 8, 0, 0, 0⟩ false (closedBefore ++ [.read 0 8])).sent = [5] ∧
      (watchRun 0 ⟨0, 8, 0, 0, 0⟩ false (closedBefore ++ [.read 0 8])).results = [.failed .closedPipe] := by
  decide

end MeshDesk.Smux
