import MeshDesk.Mesh.SessionWatch

/-! When a live session of a peer is watched. A tracker stands for a running watcher, and a session is registered by a
goroutine that goes on to start one, so a live session loses its watcher only where a watcher gives up its tracker, or
where two live sessions are registered at once. -/
namespace MeshDesk.Mesh
open Lib List

def WatchSection.session : WatchSection → Option ℕ
  | .inboundReplaced old | .closing old _ => some old
  | .watch _ (.waiting sess) => some sess
  | _ => none

def WatchSection.gone : WatchSection → Option ℕ
  | .watch _ (.lost sess) | .watch _ (.cleaning sess) => some sess
  | _ => none

structure Watched (s : PeerSessions) (ready : List WatchSection) : Prop where
  up : s.shuttingDown = false
  stored : ∀ u, s.sessions = some u ∨ s.clientSessions = some u → u < s.created
  named : ∀ x ∈ ready, ∀ u, x.session = some u → u < s.created
  gone : ∀ x ∈ ready, ∀ u, x.gone = some u → s.isClosed u = true
  client : ∀ c, s.clientSessions = some c → s.isClosed c = false → s.sessions = some c
  owned : ∀ u, s.Live u → s.sessions = some u ∨ ∃ x ∈ ready, x.closes = some u
  preserved : ∀ old, .inboundReplaced old ∈ ready → s.clientSessions = some old → s.isClosed old = true
  tracked : ∀ t, s.reconnectState = some t → ∃ point, .watch t point ∈ ready
  covered : ∀ u, s.sessions = some u → s.isClosed u = false →
    s.reconnectState.isSome = true ∨ ∃ x ∈ ready, x.starts = true

section Steps
variable {s : PeerSessions} {x : WatchSection} {ready rest more : List WatchSection}

theorem watched_new : Watched newPeerSessions [] where
  up := rfl
  stored := fun u hu => by rcases hu with hu | hu <;> cases hu
  named := forall_mem_nil _
  gone := forall_mem_nil _
  client := nofun
  owned := fun u hu => absurd hu.1 (Nat.not_lt_zero u)
  preserved := fun _ hold => absurd hold not_mem_nil
  tracked := nofun
  covered := nofun

theorem Watched.perm (h : Watched s ready) (hperm : ready.Perm more) : Watched s more where
  up := h.up
  stored := h.stored
  named := fun x hx => h.named x (hperm.mem_iff.mpr hx)
  gone := fun x hx => h.gone x (hperm.mem_iff.mpr hx)
  client := h.client
  owned := fun u hu => (h.owned u hu).imp_right fun ⟨x, hx, hcloses⟩ => ⟨x, hperm.mem_iff.mp hx, hcloses⟩
  preserved := fun old hold => h.preserved old (hperm.mem_iff.mpr hold)
  tracked := fun t ht => (h.tracked t ht).imp fun _ hpoint => hperm.mem_iff.mp hpoint
  covered := fun u hu hlive =>
    (h.covered u hu hlive).imp_right fun ⟨x, hx, hstarts⟩ => ⟨x, hperm.mem_iff.mp hx, hstarts⟩

/-- A section whose turn leaves the state alone. What it would have closed is closed or still will be,
and likewise for the watcher it runs or would have started. -/
theorem Watched.replace (h : Watched s (x :: rest)) (hnamed : ∀ y ∈ more, ∀ u, y.session = some u → u < s.created)
    (hgone : ∀ y ∈ more, ∀ u, y.gone = some u → s.isClosed u = true)
    (hcloses : ∀ u, x.closes = some u → s.isClosed u = true ∨ ∃ y ∈ more, y.closes = some u)
    (hpreserved : ∀ old, .inboundReplaced old ∈ more → s.clientSessions = some old → s.isClosed old = true)
    (htracked : ∀ t point, s.reconnectState = some t → x = .watch t point → ∃ point', .watch t point' ∈ more)
    (hstarts : x.starts = true → s.reconnectState.isSome = true ∨ ∃ y ∈ more, y.starts = true) :
    Watched s (more ++ rest) where
  up := h.up
  stored := h.stored
  named := forall_mem_append.mpr ⟨hnamed, (forall_mem_cons.mp h.named).2⟩
  gone := forall_mem_append.mpr ⟨hgone, (forall_mem_cons.mp h.gone).2⟩
  client := h.client
  owned := fun u hu => by
    rcases h.owned u hu with hs | ⟨y, hy, hyu⟩
    · exact .inl hs
    · rcases mem_cons.mp hy with rfl | hy
      · rcases hcloses u hyu with hdead | ⟨z, hz, hzu⟩
        · rw [hu.2] at hdead
          cases hdead
        · exact .inr ⟨z, mem_append_left _ hz, hzu⟩
      · exact .inr ⟨y, mem_append_right _ hy, hyu⟩
  preserved := fun old hold => by
    rcases mem_append.mp hold with hold | hold
    · exact hpreserved old hold
    · exact h.preserved old (mem_cons_of_mem _ hold)
  tracked := fun t ht => by
    obtain ⟨point, hpoint⟩ := h.tracked t ht
    rcases mem_cons.mp hpoint with hx | hpoint
    · obtain ⟨point', hpoint'⟩ := htracked t point ht hx.symm
      exact ⟨point', mem_append_left _ hpoint'⟩
    · exact ⟨point, mem_append_right _ hpoint⟩
  covered := fun u hu hlive => by
    rcases h.covered u hu hlive with hs | ⟨y, hy, hys⟩
    · exact .inl hs
    · rcases mem_cons.mp hy with rfl | hy
      · exact (hstarts hys).imp_right fun ⟨z, hz, hzs⟩ => ⟨z, mem_append_left _ hz, hzs⟩
      · exact .inr ⟨y, mem_append_right _ hy, hys⟩

theorem Watched.become (h : Watched s (x :: rest)) (next : WatchSection)
    (hnamed : ∀ u, next.session = some u → u < s.created) (hgone : ∀ u, next.gone = some u → s.isClosed u = true)
    (hcloses : ∀ u, x.closes = some u → s.isClosed u = true ∨ next.closes = some u)
    (hpreserved : ∀ old, next ≠ .inboundReplaced old)
    (htracked : ∀ t point, x = .watch t point → ∃ point', next = .watch t point')
    (hstarts : x.starts = true → next.starts = true) : Watched s ([next] ++ rest) := by
  have hmem : next ∈ [next] := mem_cons_self
  refine h.replace (forall_mem_singleton.mpr hnamed) (forall_mem_singleton.mpr hgone) (fun u hu => ?_)
    (fun old hold => ?_) (fun t point _ hx => ?_) (fun hs => .inr ⟨next, hmem, hstarts hs⟩)
  · exact (hcloses u hu).imp_right fun hnext => ⟨next, hmem, hnext⟩
  · exact absurd (mem_singleton.mp hold).symm (hpreserved old)
  · obtain ⟨point', hpoint⟩ := htracked t point hx
    exact ⟨point', hpoint ▸ hmem⟩

theorem Watched.continue {tracker : ℕ} {point : WatchPoint} (h : Watched s (.watch tracker point :: rest))
    (point' : WatchPoint) (hnamed : ∀ u, (WatchSection.watch tracker point').session = some u → u < s.created)
    (hgone : ∀ u, (WatchSection.watch tracker point').gone = some u → s.isClosed u = true) :
    Watched s ([.watch tracker point'] ++ rest) := by
  refine h.become _ hnamed hgone nofun nofun (fun t p hx => ?_)
    nofun
  cases hx
  exact ⟨point', rfl⟩

theorem isClosed_kill (s : PeerSessions) (sess u : ℕ) :
    (s.kill sess).isClosed u = true ↔ u = sess ∨ s.isClosed u = true := by
  simp [PeerSessions.isClosed, PeerSessions.kill]

theorem open_of_kill {sess u : ℕ} (h : (s.kill sess).isClosed u = false) : s.isClosed u = false := by
  rw [← Bool.not_eq_true, isClosed_kill] at h
  rw [← Bool.not_eq_true]
  exact fun hu => h (.inr hu)

theorem Watched.kill (h : Watched s ready) (sess : ℕ) : Watched (s.kill sess) ready where
  up := h.up
  stored := h.stored
  named := h.named
  gone := fun x hx u hu => (isClosed_kill s sess u).mpr (.inr (h.gone x hx u hu))
  client := fun c hc hlive => h.client c hc (open_of_kill hlive)
  owned := fun u hu => h.owned u ⟨hu.1, open_of_kill hu.2⟩
  preserved := fun old hold hc => (isClosed_kill s sess old).mpr (.inr (h.preserved old hold hc))
  tracked := h.tracked
  covered := fun u hu hlive => h.covered u hu (open_of_kill hlive)

theorem Watched.drop (h : Watched s ready) {sessions clientSessions : Option ℕ}
    (hs : sessions = s.sessions ∨ sessions = none ∧ ∀ u, s.sessions = some u → s.isClosed u = true)
    (hc : clientSessions = s.clientSessions ∨ clientSessions = none) :
    Watched { s with sessions := sessions, clientSessions := clientSessions } ready := by
  -- a live entry of `sessions` stays, and no entry is new
  have hkeep : ∀ u, s.sessions = some u → s.isClosed u = false → sessions = some u := by
    intro u hu hlive
    obtain rfl | ⟨-, hdead⟩ := hs
    · exact hu
    · rw [hdead u hu] at hlive
      cases hlive
  have hold : ∀ u, sessions = some u → s.sessions = some u := by
    obtain rfl | ⟨rfl, -⟩ := hs
    · exact fun _ hu => hu
    · exact nofun
  have hclient : ∀ u, clientSessions = some u → s.clientSessions = some u := by
    obtain rfl | rfl := hc
    · exact fun _ hu => hu
    · exact nofun
  refine ⟨h.up, fun u hu => h.stored u (hu.imp (hold u) (hclient u)), h.named, h.gone, fun c hcs hlive => ?_, fun u hu => ?_,
    fun old hmem hcs => h.preserved old hmem (hclient old hcs), h.tracked,
    fun u hu hlive => h.covered u (hold u hu) hlive⟩
  · exact hkeep c (h.client c (hclient c hcs) hlive) hlive
  · exact (h.owned u hu).imp_left fun hsess => hkeep u hsess hu.2

/-- A new session takes the place of the entry of `sessions`. The goroutine that registers it goes on to
close the old one and to start a watcher. -/
theorem Watched.register (h : Watched s (x :: rest)) (hx : x.closes = none) (hw : ∀ t point, x ≠ .watch t point)
    {clientSessions : Option ℕ} {next : WatchSection} (hclient : clientSessions = some s.created ∨
      clientSessions = s.clientSessions ∧ ∀ c, s.clientSessions = some c → s.isClosed c = true)
    (hstarts : next.starts = true) (hcloses : next.closes = s.sessions) (hnamed : next.session = next.closes)
    (hgone : next.gone = none) :
    Watched { s with sessions := some s.created, clientSessions := clientSessions, created := s.created + 1 }
      ([next] ++ rest) := by
  have hrest : ∀ y ∈ [next] ++ rest, y = next ∨ y ∈ x :: rest :=
    fun y hy => (mem_cons.mp hy).imp_right (mem_cons_of_mem _)
  have hnext : next ∈ [next] ++ rest := mem_append_left _ mem_cons_self
  refine ⟨h.up, fun u hu => ?_, fun y hy u hu => ?_, fun y hy u hu => ?_, fun c hc hlive => ?_, fun u hu => ?_,
    fun old hold hc => ?_, fun t ht => ?_, fun u _ _ => .inr ⟨next, hnext, hstarts⟩⟩
  · rcases hu with hu | hu
    · cases hu
      exact Nat.lt_succ_self _
    · rcases hclient with hnew | ⟨hsame, -⟩
      · cases hnew.symm.trans hu
        exact Nat.lt_succ_self _
      · exact Nat.lt_succ_of_lt (h.stored u (.inr (hsame.symm.trans hu)))
  · rcases hrest y hy with rfl | hy
    · rw [hnamed, hcloses] at hu
      exact Nat.lt_succ_of_lt (h.stored u (.inl hu))
    · exact Nat.lt_succ_of_lt (h.named y hy u hu)
  · rcases hrest y hy with rfl | hy
    · rw [hgone] at hu
      cases hu
    · exact h.gone y hy u hu
  · rcases hclient with hnew | ⟨hsame, hdead⟩
    · exact hnew.symm.trans hc
    · have hclosed := hdead c (hsame.symm.trans hc)
      exact absurd (hlive.symm.trans hclosed) (by decide)
  · by_cases hu' : u = s.created
    · exact .inl (congrArg some hu'.symm)
    · have hlt : u < s.created := Nat.lt_of_le_of_ne (Nat.le_of_lt_succ hu.1) hu'
      rcases h.owned u ⟨hlt, hu.2⟩ with hsess | ⟨y, hy, hyu⟩
      · exact .inr ⟨next, hnext, hcloses.trans hsess⟩
      · rcases mem_cons.mp hy with rfl | hy
        · rw [hx] at hyu
          cases hyu
        · exact .inr ⟨y, mem_append_right _ hy, hyu⟩
  · -- a session that is being replaced is older than the new one
    have hlt : old < s.created := by
      rcases hrest _ hold with hold | hold
      · rw [← hold] at hcloses
        exact h.stored old (.inl hcloses.symm)
      · exact h.named _ hold old rfl
    rcases hclient with hnew | ⟨hsame, hdead⟩
    · cases hnew.symm.trans hc
      exact absurd hlt (Nat.lt_irrefl _)
    · exact hdead old (hsame.symm.trans hc)
  · obtain ⟨point, hpoint⟩ := h.tracked t ht
    rcases mem_cons.mp hpoint with hx' | hpoint
    · exact absurd hx'.symm (hw t point)
    · exact ⟨point, mem_append_right _ hpoint⟩

theorem Watched.add (h : Watched s ready) (hsession : x.session = none) (hgone : x.gone = none) :
    Watched s (x :: ready) where
  up := h.up
  stored := h.stored
  named := forall_mem_cons.mpr ⟨fun _ hu => (nomatch hsession.symm.trans hu), h.named⟩
  gone := forall_mem_cons.mpr ⟨fun _ hu => (nomatch hgone.symm.trans hu), h.gone⟩
  client := h.client
  owned := fun u hu => (h.owned u hu).imp_right fun ⟨y, hy, hyu⟩ => ⟨y, mem_cons_of_mem _ hy, hyu⟩
  preserved := fun old hold hc => by
    rcases mem_cons.mp hold with hx | hold
    · rw [← hx] at hsession
      cases hsession
    · exact h.preserved old hold hc
  tracked := fun t ht => (h.tracked t ht).imp fun _ hpoint => mem_cons_of_mem _ hpoint
  covered := fun u hu hlive =>
    (h.covered u hu hlive).imp_right fun ⟨y, hy, hys⟩ => ⟨y, mem_cons_of_mem _ hy, hys⟩

theorem hasActiveSession_of_live {u : ℕ} (h : s.sessions = some u) (hlive : s.isClosed u = false) :
    s.hasActiveSession = true := by
  simp [PeerSessions.hasActiveSession, h, hlive]

theorem Watched.retrack (h : Watched s ready) {r : Option ℕ} {n : ℕ} {c : List ℕ}
    (htracked : ∀ t, r = some t → ∃ point, .watch t point ∈ ready)
    (hcovered : r.isSome = true ∨ s.hasActiveSession = false ∨ ∃ x ∈ ready, x.starts = true) :
    Watched { s with reconnectState := r, trackers := n, cancelled := c } ready where
  up := h.up
  stored := h.stored
  named := h.named
  gone := h.gone
  client := h.client
  owned := h.owned
  preserved := h.preserved
  tracked := htracked
  covered := fun u hu hlive => by
    rcases hcovered with hr | hnone | hstarts
    · exact .inl hr
    · have hactive : s.hasActiveSession = true := hasActiveSession_of_live hu hlive
      exact absurd (hnone.symm.trans hactive) (by decide)
    · exact .inr hstarts

theorem Watched.finish (h : Watched s (x :: rest)) (hcloses : ∀ u, x.closes = some u → s.isClosed u = true)
    (htracked : ∀ t point, s.reconnectState = some t → x ≠ .watch t point)
    (hstarts : x.starts = true → s.reconnectState.isSome = true) : Watched s rest :=
  h.replace (forall_mem_nil _) (forall_mem_nil _)
    (fun u hu => .inl (hcloses u hu)) (fun _ hold => absurd hold not_mem_nil)
    (fun t point ht hx => absurd hx (htracked t point ht)) (fun hs => .inl (hstarts hs))

theorem Watched.startSessionWatcher (h : Watched s (.startWatcher :: rest)) :
    Watched s.startSessionWatcher.1 (s.startSessionWatcher.2 ++ rest) := by
  unfold PeerSessions.startSessionWatcher
  split_ifs with hsome
  · exact h.finish nofun nofun (fun _ => hsome)
  · have hadded : Watched s (.watch s.trackers .begin :: .startWatcher :: rest) := h.add rfl rfl
    have hnew : Watched { s with reconnectState := some s.trackers, trackers := s.trackers + 1 }
        (.watch s.trackers .begin :: .startWatcher :: rest) := by
      refine hadded.retrack (fun t ht => ⟨.begin, ?_⟩) (.inl rfl)
      rw [Option.some.inj ht]
      exact mem_cons_self
    exact (hnew.perm (Perm.swap _ _ _)).finish nofun nofun
      (fun _ => rfl)

theorem Watched.untrack (h : Watched s (x :: rest)) (hx : x.closes = none) (hnot : x.starts = false)
    (hcovered : s.hasActiveSession = false ∨ ∃ y ∈ rest, y.starts = true) {c : List ℕ} :
    Watched { s with reconnectState := none, cancelled := c } rest := by
  have hnone : Watched { s with reconnectState := none, cancelled := c } (x :: rest) := by
    refine h.retrack nofun (.inr (hcovered.imp_right ?_))
    exact fun ⟨y, hy, hys⟩ => ⟨y, mem_cons_of_mem _ hy, hys⟩
  exact hnone.finish (fun _ hu => nomatch hx.symm.trans hu) nofun fun hs => nomatch hnot.symm.trans hs

end Steps

/-! ### Turns -/

/-- An inbound session is registered only beside a dead client session; a tracker is given up without another watcher
only if no session is active or a call that starts one is still to come; a dial that has registered a session fails to
open a stream only while there is a tracker. -/
def Watchful (s : PeerSessions) (input : Bool) (x : WatchSection) (rest : List WatchSection) : Prop :=
  match x with
  | .inbound => ∀ c ∈ s.clientSessions, s.isClosed c = true
  | .opening => input = true ∨ s.reconnectState.isSome = true
  | .watch _ (.removing false) => s.hasActiveSession = false ∨ ∃ y ∈ rest, y.starts = true
  | .stopWatcher => s.hasActiveSession = false ∨ ∃ y ∈ rest, y.starts = true
  | _ => True

instance (s : PeerSessions) (input : Bool) (x : WatchSection) (rest : List WatchSection) :
    Decidable (Watchful s input x rest) := by
  unfold Watchful
  split <;> infer_instance

section Turns
variable {s : PeerSessions} {rest : List WatchSection}

theorem nextAttempt_session (cfg : ReconnectConfig) (tracker attempt delay : ℕ) :
    (WatchSection.watch tracker (nextAttempt cfg attempt delay)).session = none ∧
      (WatchSection.watch tracker (nextAttempt cfg attempt delay)).gone = none := by
  unfold nextAttempt
  split_ifs <;> exact ⟨rfl, rfl⟩

theorem Watched.watchSession (cfg : ReconnectConfig) (input : Bool) {tracker : ℕ} {point : WatchPoint}
    (h : Watched s (.watch tracker point :: rest)) (hok : Watchful s input (.watch tracker point) rest) :
    Watched (watchSession cfg s input tracker point).1 ((watchSession cfg s input tracker point).2 ++ rest) := by
  -- the next point refers to no session
  have hplain : ∀ point', (WatchSection.watch tracker point').session = none ∧
      (WatchSection.watch tracker point').gone = none → Watched s ([.watch tracker point'] ++ rest) := by
    intro point' ⟨hsession, hgone⟩
    exact h.continue point' (fun _ hu => nomatch hsession.symm.trans hu) fun _ hu => nomatch hgone.symm.trans hu
  cases point with
  | begin =>
    unfold MeshDesk.Mesh.watchSession
    cases hsess : s.getWatchableSession with
    | none => exact hplain _ ⟨rfl, rfl⟩
    | some sess =>
      refine h.continue _ (fun u hu => ?_) nofun
      cases hu
      rcases Option.or_eq_some_iff.mp hsess with hc | ⟨-, hs⟩
      · exact h.stored _ (.inr hc)
      · exact h.stored _ (.inl hs)
  | waiting sess =>
    have hbound := h.named _ mem_cons_self sess rfl
    unfold MeshDesk.Mesh.watchSession
    dsimp only
    split_ifs with hclosed hcancelled
    · refine h.continue _ nofun (fun u hu => ?_)
      cases hu
      exact hclosed.1
    · exact hplain _ ⟨rfl, rfl⟩
    · refine h.continue _ (fun u hu => ?_) nofun
      cases hu
      exact hbound
  | lost sess =>
    have hgone := h.gone _ mem_cons_self sess rfl
    unfold MeshDesk.Mesh.watchSession
    dsimp only
    split_ifs
    · exact hplain _ ⟨rfl, rfl⟩
    · refine h.continue _ nofun (fun u hu => ?_)
      cases hu
      exact hgone
  | cleaning sess =>
    have hgone := h.gone _ mem_cons_self sess rfl
    have hcleaned : Watched (s.cleanupDeadSession sess)
        ([.watch tracker (nextAttempt cfg 0 cfg.initialDelay)] ++ rest) := by
      refine (hplain _ (nextAttempt_session cfg tracker 0 cfg.initialDelay)).drop ?_ ?_
      · split_ifs with hs
        · refine .inr ⟨rfl, fun u hu => ?_⟩
          cases hs.symm.trans hu
          exact hgone
        · exact .inl rfl
      · split_ifs
        · exact .inr rfl
        · exact .inl rfl
    exact hcleaned
  | delaying | checking =>
    unfold MeshDesk.Mesh.watchSession
    split_ifs <;> exact hplain _ ⟨rfl, rfl⟩
  | trying attempt delay =>
    unfold MeshDesk.Mesh.watchSession
    dsimp only
    split_ifs
    · exact hplain _ ⟨rfl, rfl⟩
    · exact hplain _ (nextAttempt_session cfg tracker attempt _)
  | removing rearm =>
    cases rearm with
    | false => exact h.untrack rfl rfl hok
    | true =>
      have hadded : Watched s (.watch tracker (.removing true) :: .startWatcher :: rest) :=
        (h.add rfl rfl).perm (Perm.swap _ _ _)
      exact hadded.untrack rfl rfl (.inr ⟨.startWatcher, mem_cons_self, rfl⟩)

theorem Watched.approach {x next : WatchSection} (h : Watched s (x :: rest)) (hx : x.starts = true)
    (hcloses : ∀ u, x.closes = some u → s.isClosed u = true) (hnext : next = .opening ∨ next = .startWatcher) :
    Watched s ([next] ++ rest) := by
  have hwatch : ∀ t point, x ≠ .watch t point := fun t point he => by
    rw [he] at hx
    cases hx
  rcases hnext with rfl | rfl <;>
    exact h.become _ nofun nofun (fun u hu => .inl (hcloses u hu))
      nofun (fun t point he => absurd he (hwatch t point)) (fun _ => rfl)

theorem Watched.inboundReplaced {old : ℕ} (h : Watched s (.inboundReplaced old :: rest)) :
    Watched s ((if s.clientSessions = some old then [.startWatcher] else [.closing old false]) ++ rest) := by
  have hbound := h.named _ mem_cons_self old rfl
  split_ifs with hclient
  · refine h.approach rfl (fun u hu => ?_) (.inr rfl)
    cases hu
    exact h.preserved old mem_cons_self hclient
  · refine h.become _ (fun u hu => ?_) nofun (fun u hu => .inr hu)
      nofun nofun (fun _ => rfl)
    cases hu
    exact hbound

theorem Watched.closing {old : ℕ} {opens : Bool} (h : Watched s (.closing old opens :: rest)) :
    Watched (s.kill old) ((if opens then [.opening] else [.startWatcher]) ++ rest) := by
  have hdead : ∀ u, (WatchSection.closing old opens).closes = some u → (s.kill old).isClosed u = true := by
    intro u hu
    cases hu
    exact (isClosed_kill s old old).mpr (.inl rfl)
  split_ifs
  · exact (h.kill old).approach rfl hdead (.inl rfl)
  · exact (h.kill old).approach rfl hdead (.inr rfl)

theorem Watched.registerInbound (h : Watched s (.inbound :: rest)) (hok : ∀ c ∈ s.clientSessions, s.isClosed c = true) :
    Watched s.registerInbound.1 (s.registerInbound.2 ++ rest) := by
  unfold PeerSessions.registerInbound
  cases hold : s.sessions with
  | _ => exact h.register rfl nofun (.inr ⟨rfl, hok⟩) rfl hold.symm rfl rfl

theorem Watched.registerOutbound {udp : Bool} (h : Watched s (.outbound udp :: rest)) :
    Watched (s.registerOutbound udp).1 ((s.registerOutbound udp).2 ++ rest) := by
  unfold PeerSessions.registerOutbound
  cases hold : s.sessions with
  | none => cases udp <;> exact h.register rfl nofun (.inl rfl) rfl hold.symm rfl rfl
  | some old => exact h.register rfl nofun (.inl rfl) rfl hold.symm rfl rfl

theorem Watched.cleanupDeadSessions (h : Watched s rest) : Watched s.cleanupDeadSessions rest := by
  -- an entry is kept, or it is dead
  have hfilter : ∀ entry : Option ℕ, entry.filter (fun sess => !s.isClosed sess) = entry ∨
      entry.filter (fun sess => !s.isClosed sess) = none ∧ ∀ u, entry = some u → s.isClosed u = true := by
    intro entry
    cases entry with
    | none => exact .inl rfl
    | some u =>
      cases hu : s.isClosed u with
      | true =>
        refine .inr ⟨by simp [Option.filter, hu], fun v hv => ?_⟩
        cases hv
        exact hu
      | false => exact .inl (by simp [Option.filter, hu])
  exact h.drop (hfilter s.sessions) ((hfilter s.clientSessions).imp_right And.left)

theorem Watched.exec (input : Bool) {x : WatchSection} (h : Watched s (x :: rest)) (hok : Watchful s input x rest) :
    Watched (x.exec s input).1 ((x.exec s input).2 ++ rest) := by
  have hend : ∀ {s' : PeerSessions} {y : WatchSection}, Watched s' (y :: rest) → y.closes = none →
      (∀ t point, y ≠ .watch t point) → y.starts = false → Watched s' rest := by
    intro s' y hy hcloses hwatch hstarts
    exact hy.finish (fun _ hu => nomatch hcloses.symm.trans hu) (fun t point _ => hwatch t point)
      fun hs => nomatch hstarts.symm.trans hs
  cases x with
  | inbound => exact h.registerInbound hok
  | inboundReplaced old => exact h.inboundReplaced
  | outbound udp => exact h.registerOutbound
  | closing old opens => exact h.closing
  | opening =>
    cases input with
    | true => exact h.approach rfl nofun (.inr rfl)
    | false =>
      rcases hok with hok | hok
      · cases hok
      · exact h.finish nofun nofun (fun _ => hok)
  | startWatcher => exact h.startSessionWatcher
  | die sess =>
    have hdead : Watched (if sess < s.created then s.kill sess else s) (.die sess :: rest) := by
      split_ifs
      · exact h.kill sess
      · exact h
    exact hend hdead rfl nofun rfl
  | cleanupDead => exact hend h.cleanupDeadSessions rfl nofun rfl
  | stopWatcher =>
    change Watched s.stopReconnectWatcher rest
    unfold PeerSessions.stopReconnectWatcher
    split
    · exact hend h rfl nofun rfl
    · exact h.untrack rfl rfl hok
  | watch tracker point => exact h.watchSession defaultReconnectConfig input hok

end Turns

theorem watched_carries : watchSections.Carries Watchful Watched where
  perm := fun _ _ _ hperm h => h.perm hperm
  start := fun _ k _ h => by cases k <;> exact h.add rfl rfl
  exec := fun _ input _ _ hok h => h.exec input hok

theorem Watched.waits {p : Pool PeerSessions WatchSection} (h : Watched p.state p.ready) (hquiet : Quiet p) {sess : ℕ}
    (hreg : p.state.sessions = some sess ∨ p.state.clientSessions = some sess)
    (hopen : p.state.isClosed sess = false) :
    ∃ t, p.state.reconnectState = some t ∧ .watch t (.waiting sess) ∈ p.ready ∧
      p.state.cancelled.contains t = false := by
  have hsess : p.state.sessions = some sess := hreg.elim id (fun hc => h.client sess hc hopen)
  have hidle : ∀ x ∈ p.ready, x.starts = false := by
    intro x hx
    have hstep := hquiet x hx
    cases x <;> first | exact hstep | rfl
  have hnoclose : ∀ x ∈ p.ready, x.closes = none := by
    intro x hx
    have hstarts := hidle x hx
    cases x <;> first | rfl | cases hstarts
  obtain ⟨t, ht⟩ : ∃ t, p.state.reconnectState = some t := by
    rcases h.covered sess hsess hopen with hsome | ⟨x, hx, hstarts⟩
    · exact Option.isSome_iff_exists.mp hsome
    · rw [hidle x hx] at hstarts
      cases hstarts
  obtain ⟨point, hpoint⟩ := h.tracked t ht
  have hstep := hquiet _ hpoint
  cases point with
  | waiting other =>
    obtain ⟨hother, hcancel⟩ := Bool.or_eq_false_iff.mp hstep
    have hlive : p.state.Live other := ⟨h.named _ hpoint other rfl, hother⟩
    have hsame : p.state.sessions = some other := by
      rcases h.owned other hlive with hs | ⟨x, hx, hcloses⟩
      · exact hs
      · rw [hnoclose x hx] at hcloses
        cases hcloses
    cases hsess.symm.trans hsame
    exact ⟨t, ht, hpoint, hcancel⟩
  | _ => cases hstep

theorem lost_reconnects {s : PeerSessions} (hup : s.shuttingDown = false) {t sess : ℕ}
    (hcancel : s.cancelled.contains t = false) (input : Bool) :
    (watchSections.run ⟨s.kill sess, [.watch t (.waiting sess)]⟩ (replicate 3 (.exec 0 input))).ready =
      [.watch t (.delaying 1 defaultReconnectConfig.initialDelay)] := by
  have hdead : (s.kill sess).isClosed sess = true := (isClosed_kill s sess sess).mpr (.inl rfl)
  have hwaiting : watchSections.exec (s.kill sess) input (.watch t (.waiting sess)) =
      (s.kill sess, [.watch t (.lost sess)]) := by
    change watchSession defaultReconnectConfig (s.kill sess) input t (.waiting sess) = _
    unfold watchSession
    dsimp only
    rw [if_pos ⟨hdead, .inr hcancel⟩]
  have hlost : watchSections.exec (s.kill sess) input (.watch t (.lost sess)) =
      (s.kill sess, [.watch t (.cleaning sess)]) := by
    change watchSession defaultReconnectConfig (s.kill sess) input t (.lost sess) = _
    unfold watchSession
    exact if_neg (Bool.eq_false_iff.mp hup)
  have hturn : ∀ {s' s'' : PeerSessions} {x y : WatchSection}, watchSections.exec s' input x = (s'', [y]) →
      watchSections.step ⟨s', [x]⟩ (.exec 0 input) = ⟨s'', [y]⟩ := by
    intro s' s'' x y hexec
    rw [watchSections.step_exec_some rfl, hexec]
    rfl
  have hrun : watchSections.run ⟨s.kill sess, [.watch t (.waiting sess)]⟩ (replicate 3 (.exec 0 input)) =
      watchSections.step (watchSections.step (watchSections.step ⟨s.kill sess, [.watch t (.waiting sess)]⟩
        (.exec 0 input)) (.exec 0 input)) (.exec 0 input) := rfl
  rw [hrun, hturn hwaiting, hturn hlost]
  rfl

/-- In every run whose turns are watchful, whenever no watcher step is enabled, `reconnectState` holds a
tracker whose watcher waits for the live session, and the loss of the session brings the watcher to the
reconnect loop. -/
theorem watchRun_watched (turns : List (Turn Bool WatchCall))
    (hwatchful : watchSections.Permits Watchful ⟨newPeerSessions, []⟩ turns)
    (hquiet : Quiet (watchSections.run ⟨newPeerSessions, []⟩ turns)) (sess : ℕ)
    (hreg : (watchSections.run ⟨newPeerSessions, []⟩ turns).state.sessions = some sess ∨
      (watchSections.run ⟨newPeerSessions, []⟩ turns).state.clientSessions = some sess)
    (hopen : (watchSections.run ⟨newPeerSessions, []⟩ turns).state.isClosed sess = false) :
    ∃ t, (watchSections.run ⟨newPeerSessions, []⟩ turns).state.reconnectState = some t ∧
      .watch t (.waiting sess) ∈ (watchSections.run ⟨newPeerSessions, []⟩ turns).ready ∧
      ∀ input, (watchSections.run
          ⟨(watchSections.run ⟨newPeerSessions, []⟩ turns).state.kill sess, [.watch t (.waiting sess)]⟩
          (List.replicate 3 (.exec 0 input))).ready =
        [.watch t (.delaying 1 defaultReconnectConfig.initialDelay)] := by
  have h := watched_carries.run hwatchful watched_new
  obtain ⟨t, ht, hwaits, hcancel⟩ := h.waits hquiet hreg hopen
  exact ⟨t, ht, hwaits, lost_reconnects h.up hcancel⟩

/-- A session is dialled and lost, the reconnect loop dials a second one, and its watcher starts over. -/
def redialled : List (Turn Bool WatchCall) :=
  let go := Turn.exec 0 true
  [.call (.outbound false), go, go, go, go, .call (.die 0), .exec 1 true, go, go, go, go, go,
    .call (.outbound true), .exec 1 true, .exec 1 true, go, go, go, go]

theorem watchRun_watched_redialled :
    watchSections.Permits Watchful ⟨newPeerSessions, []⟩ redialled ∧
      Quiet (watchSections.run ⟨newPeerSessions, []⟩ redialled) ∧
      ∃ t, (watchSections.run ⟨newPeerSessions, []⟩ redialled).state.reconnectState = some t ∧
        .watch t (.waiting 1) ∈ (watchSections.run ⟨newPeerSessions, []⟩ redialled).ready := by
  have hpermits : watchSections.Permits Watchful ⟨newPeerSessions, []⟩ redialled := by decide
  have hquiet : Quiet (watchSections.run ⟨newPeerSessions, []⟩ redialled) := by decide
  obtain ⟨t, ht, hwaits, -⟩ :=
    watchRun_watched redialled hpermits hquiet 1 (.inl (by decide)) (by decide)
  exact ⟨hpermits, hquiet, t, ht, hwaits⟩

/-- A session is lost, and while the reconnect loop waits an inbound session arrives. -/
def restoredInbound : List (Turn Bool WatchCall) :=
  let go := Turn.exec 0 true
  [.call .inbound, go, go, go, .call (.die 0), .exec 1 true, go, go, go,
    .call .inbound, .exec 1 true, .exec 1 true, go, go, go]

/-- The watcher finds the new session, gives up its tracker and returns: a live session is registered and
nothing watches it. -/
theorem watchRun_restoredInbound :
    Quiet (watchSections.run ⟨newPeerSessions, []⟩ restoredInbound) ∧
      (watchSections.run ⟨newPeerSessions, []⟩ restoredInbound).state.sessions = some 1 ∧
      (watchSections.run ⟨newPeerSessions, []⟩ restoredInbound).state.isClosed 1 = false ∧
      (watchSections.run ⟨newPeerSessions, []⟩ restoredInbound).state.reconnectState = none ∧
      (watchSections.run ⟨newPeerSessions, []⟩ restoredInbound).ready = [] := by
  decide

end MeshDesk.Mesh
