import MeshDesk.Lib.Table
import MeshDesk.Mesh.RelayTunnels

/-! When tunnels stay apart. A stream is taken for one tunnel and never again, so a tunnel reaches the streams of
another one only through the table: where a goroutine looks up the ID of its tunnel and finds a later one, or where a
peer answers for a tunnel that is not for it. -/
namespace MeshDesk.Mesh
open Lib RelayTable Option
open List

namespace RelayTable

def UsedBy (s : RelayTable) (r conn : ℕ) : Prop := ∃ kind, s.streams[conn]? = some ⟨kind, some r⟩

def Leads (s : RelayTable) (r conn : ℕ) : Prop :=
  ∃ t kind, s.objects[r]? = some t ∧ s.streams[conn]? = some ⟨kind, some r⟩ ∧ kind.leadsTo = t.targetKey

def Current (s : RelayTable) (r : ℕ) : Prop :=
  ∃ t, s.objects[r]? = some t ∧ ∀ r', s.tunnels.lookup t.id = some r' → r' = r

structure Isolated (s : RelayTable) : Prop where
  listed : ∀ id r, s.tunnels.lookup id = some r → ∃ t, s.objects[r]? = some t ∧ t.id = id
  initiator : ∀ r (t : RelayTunnel), s.objects[r]? = some t → s.streams[t.initiatorConn]? = some ⟨.accepted t.requester, some r⟩
  target : ∀ r (t : RelayTunnel) conn, s.objects[r]? = some t → t.targetConn = some conn → s.Leads r conn
  bridged : ∀ b ∈ s.bridges, ∃ t, s.objects[b.tunnel]? = some t ∧ b.initiator = t.initiatorConn ∧
    s.Leads b.tunnel b.target
  closings : ∀ c ∈ s.closings, ∀ r, c.cause = some r → s.UsedBy r c.stream

end RelayTable

/-- What of a tunnel never changes. -/
structure RelayTunnel.Same (t t' : RelayTunnel) : Prop where
  id : t'.id = t.id
  requester : t'.requester = t.requester
  targetKey : t'.targetKey = t.targetKey
  initiatorConn : t'.initiatorConn = t.initiatorConn

namespace RelayTable
variable {s s' s'' : RelayTable} {r conn : ℕ} {t : RelayTunnel} {id : String} {taken : Option ℕ} {new : Option String}

/-- Between two states, at most one stream has been taken and at most one ID has been listed. -/
structure Grows (s s' : RelayTable) (taken : Option ℕ) (new : Option String) : Prop where
  objects : ∀ (r : ℕ) (t : RelayTunnel), s.objects[r]? = some t → ∃ t', s'.objects[r]? = some t' ∧ t.Same t'
  streams : ∀ (c : ℕ) (st : RelayStream), s.streams[c]? = some st → st.tunnel ≠ none ∨ taken ≠ some c → s'.streams[c]? = some st
  tunnels : ∀ id r, s'.tunnels.lookup id = some r → s.tunnels.lookup id = some r ∨ new = some id

theorem Grows.of_eq (hobjects : s'.objects = s.objects) (hstreams : s'.streams = s.streams)
    (htunnels : ∀ id r, s'.tunnels.lookup id = some r → s.tunnels.lookup id = some r) : Grows s s' none none := by
  refine ⟨fun r t ht => ⟨t, ?_, rfl, rfl, rfl, rfl⟩, fun c st hst _ => ?_, fun id r hl => .inl (htunnels id r hl)⟩
  · rw [hobjects, ht]
  · rw [hstreams, hst]

theorem Grows.trans (h : Grows s s' taken none) (h' : Grows s' s'' none new) : Grows s s'' taken new := by
  refine ⟨fun r t ht => ?_, fun c st hst hc => ?_, fun id r hl => ?_⟩
  · obtain ⟨t', ht', hsame⟩ := h.objects r t ht
    obtain ⟨t'', ht'', hsame'⟩ := h'.objects r t' ht'
    exact ⟨t'', ht'', hsame'.id.trans hsame.id, hsame'.requester.trans hsame.requester,
      hsame'.targetKey.trans hsame.targetKey, hsame'.initiatorConn.trans hsame.initiatorConn⟩
  · exact h'.streams c st (h.streams c st hst hc) (.inr (by simp))
  · obtain hl' | hnew := h'.tunnels id r hl
    · exact .inl ((h.tunnels id r hl').resolve_right (by simp))
    · exact .inr hnew

theorem UsedBy.grow (hg : Grows s s' taken new) (h : s.UsedBy r conn) : s'.UsedBy r conn := by
  obtain ⟨kind, hkind⟩ := h
  exact ⟨kind, hg.streams conn _ hkind (.inl (by simp))⟩

theorem Leads.grow (hg : Grows s s' taken new) (h : s.Leads r conn) : s'.Leads r conn := by
  obtain ⟨t, kind, ht, hkind, hleads⟩ := h
  obtain ⟨t', ht', hsame⟩ := hg.objects r t ht
  exact ⟨t', kind, ht', hg.streams conn _ hkind (.inl (by simp)), hleads.trans hsame.targetKey.symm⟩

theorem Leads.usedBy (h : s.Leads r conn) : s.UsedBy r conn := by
  obtain ⟨_, kind, _, hkind, _⟩ := h
  exact ⟨kind, hkind⟩

theorem Current.grow (hg : Grows s s' taken new) (h : s.Current r)
    (hnew : ∀ t, s.objects[r]? = some t → new ≠ some t.id) : s'.Current r := by
  obtain ⟨t, ht, hcur⟩ := h
  obtain ⟨t', ht', hsame⟩ := hg.objects r t ht
  refine ⟨t', ht', fun r' hr' => ?_⟩
  rw [hsame.id] at hr'
  exact hcur r' ((hg.tunnels _ _ hr').resolve_right (hnew t ht))

/-! ### Steps that take no stream and list no tunnel -/

/-- The state is isolated again, and nothing was taken or listed. -/
structure Kept (s s' : RelayTable) : Prop where
  isolated : s'.Isolated
  grows : Grows s s' none none

theorem Kept.refl (h : s.Isolated) : Kept s s := ⟨h, .of_eq rfl rfl fun _ _ hl => hl⟩

theorem Kept.then (h : Kept s s') (h' : s'.Isolated → Kept s' s'') : Kept s s'' :=
  ⟨(h' h.isolated).isolated, h.grows.trans (h' h.isolated).grows⟩

section
variable (h : s.Isolated)
include h

theorem Isolated.grow (hg : Grows s s' taken new)
    (hlisted : ∀ id r, s'.tunnels.lookup id = some r → ∃ t, s'.objects[r]? = some t ∧ t.id = id)
    (hinit : ∀ r (t : RelayTunnel), s'.objects[r]? = some t → s'.streams[t.initiatorConn]? = some ⟨.accepted t.requester, some r⟩)
    (htarget : ∀ r (t : RelayTunnel) conn, s'.objects[r]? = some t → t.targetConn = some conn → s'.Leads r conn)
    (hbridges : s'.bridges = s.bridges) (hclosings : s'.closings = s.closings) : s'.Isolated where
  listed := hlisted
  initiator := hinit
  target := htarget
  bridged := fun b hb => by
    obtain ⟨t, ht, hinit, hleads⟩ := h.bridged b (hbridges ▸ hb)
    obtain ⟨t', ht', hsame⟩ := hg.objects _ t ht
    exact ⟨t', ht', hinit.trans hsame.initiatorConn.symm, hleads.grow hg⟩
  closings := fun c hc r hr => (h.closings c (hclosings ▸ hc) r hr).grow hg

theorem Kept.sendResponse (conn : ℕ) (reason : Option String) : Kept s (s.sendResponse conn reason) :=
  ⟨⟨h.listed, h.initiator, h.target, h.bridged, h.closings⟩, .of_eq rfl rfl fun _ _ hl => hl⟩

theorem Kept.close {cause : Option ℕ} {conns : List ℕ}
    (hconns : ∀ r, cause = some r → ∀ c ∈ conns, s.UsedBy r c) : Kept s (s.close cause conns) := by
  refine ⟨⟨h.listed, h.initiator, h.target, h.bridged, forall_mem_append.mpr ⟨h.closings, ?_⟩⟩,
    .of_eq rfl rfl fun _ _ hl => hl⟩
  exact forall_mem_map.mpr fun conn hconn r hr => hconns r hr conn hconn

theorem Kept.closeOwn {conns : List ℕ} (hconns : ∀ c ∈ conns, s.UsedBy r c) :
    Kept s (s.close (some r) conns) := by
  refine .close h fun r' hr' => ?_
  obtain rfl := some.inj hr'
  exact hconns

theorem Kept.turnAway (conns : List ℕ) : Kept s (s.close none conns) :=
  .close h nofun

theorem Kept.delete (id : String) : Kept s (s.delete id) := by
  have hsub : ∀ k r, (s.tunnels.erase id).lookup k = some r → s.tunnels.lookup k = some r :=
    fun k r hk => (Map.lookup_of_erase hk).2
  exact ⟨⟨fun k r hk => h.listed k r (hsub k r hk), h.initiator, h.target, h.bridged, h.closings⟩,
    .of_eq rfl rfl hsub⟩

theorem Kept.clear : Kept s { s with tunnels := ∅ } := by
  have hnone : ∀ k r, (∅ : Map String ℕ).lookup k ≠ some r := fun k r hk => by
    cases hk
  exact ⟨⟨fun k r hk => absurd hk (hnone k r), h.initiator, h.target, h.bridged, h.closings⟩,
    .of_eq rfl rfl fun k r hk => absurd hk (hnone k r)⟩

theorem Kept.addStream (st : RelayStream) : Kept s (s.addStream st) := by
  have hstreams : ∀ (c : ℕ) (st' : RelayStream), s.streams[c]? = some st' → (s.streams ++ [st])[c]? = some st' := by
    intro c st' hst'
    rw [List.getElem?_append_left (List.getElem?_eq_some_iff.mp hst').1, hst']
  have hg : Grows s (s.addStream st) none none :=
    ⟨fun _ t ht => ⟨t, ht, rfl, rfl, rfl, rfl⟩, fun c st' hst' _ => hstreams c st' hst', fun _ _ hl => .inl hl⟩
  exact ⟨h.grow hg h.listed (fun r t ht => hstreams _ _ (h.initiator r t ht))
    (fun r t c ht hc => (h.target r t c ht hc).grow hg) rfl rfl, hg⟩

theorem Kept.setTunnel {f : RelayTunnel → RelayTunnel} (hf : ∀ t : RelayTunnel, t.Same (f t))
    (htarget : ∀ t c, s.objects[r]? = some t → (f t).targetConn = some c → s.Leads r c) :
    Kept s (s.setTunnel r f) := by
  have hobjects : ∀ (r' : ℕ) (t' : RelayTunnel), (s.objects.modify r f)[r']? = some t' → ∃ t, s.objects[r']? = some t ∧ t.Same t' ∧
      ∀ c, t'.targetConn = some c → s.Leads r' c := by
    intro r' t' ht'
    rw [getElem?_modify] at ht'
    obtain ⟨t, ht, heq⟩ := map_eq_some_iff.mp ht'
    refine ⟨t, ht, ?_⟩
    split_ifs at heq with hr
    · subst hr heq
      exact ⟨hf t, fun c hc => htarget t c ht hc⟩
    · subst heq
      exact ⟨⟨rfl, rfl, rfl, rfl⟩, fun c hc => h.target r' t c ht hc⟩
  have hg : Grows s (s.setTunnel r f) none none := by
    refine ⟨fun r' t ht => ?_, fun _ _ hst _ => hst, fun _ _ hl => .inl hl⟩
    have hmod : (s.objects.modify r f)[r']? = some (if r = r' then f t else t) := by
      rw [getElem?_modify, ht]
      rfl
    obtain ⟨t₀, ht₀, hsame, _⟩ := hobjects r' _ hmod
    obtain rfl := mem_unique ht ht₀
    exact ⟨_, hmod, hsame⟩
  refine ⟨h.grow hg (fun id r' hl => ?_) (fun r' t' ht' => ?_) (fun r' t' c ht' hc => ?_) rfl rfl, hg⟩
  · obtain ⟨t, ht, hid⟩ := h.listed id r' hl
    obtain ⟨t', ht', hsame⟩ := hg.objects r' t ht
    exact ⟨t', ht', hsame.id.trans hid⟩
  · obtain ⟨t, ht, hsame, _⟩ := hobjects r' t' ht'
    rw [hsame.initiatorConn, hsame.requester]
    exact h.initiator r' t ht
  · obtain ⟨_, _, _, hleads⟩ := hobjects r' t' ht'
    exact (hleads c hc).grow hg

theorem Kept.mark {f : RelayTunnel → RelayTunnel} (hf : ∀ t : RelayTunnel, t.Same (f t))
    (htarget : ∀ t, (f t).targetConn = t.targetConn) : Kept s (s.setTunnel r f) :=
  .setTunnel h hf fun t c ht hc => h.target r t c ht (htarget t ▸ hc)

theorem Isolated.conns (ht : s.objects[r]? = some t) {c : ℕ} (hc : c ∈ t.conns) : s.UsedBy r c := by
  obtain rfl | hc := mem_cons.mp hc
  · exact ⟨_, h.initiator r t ht⟩
  · exact (h.target r t c ht (mem_toList.mp hc)).usedBy

theorem Kept.closeOnce {conns : RelayTunnel → List ℕ}
    (hconns : ∀ t, s.objects[r]? = some t → ∀ c ∈ conns t, s.UsedBy r c) : Kept s (s.closeOnce r r conns) := by
  unfold RelayTable.closeOnce
  cases ht : s.objects[r]? with
  | none => exact .refl h
  | some t =>
    dsimp only
    split_ifs
    · exact .refl h
    · have hmark : Kept s (s.setTunnel r ({ · with done := true })) := .mark h (fun t => ⟨rfl, rfl, rfl, rfl⟩) fun _ => rfl
      exact hmark.then (.closeOwn · fun c hc => (hconns t ht c hc).grow hmark.grows)

theorem Kept.evict (id : String) {conns : RelayTunnel → List ℕ} (hsub : ∀ t, conns t ⊆ t.conns) :
    Kept s (s.evict id conns) := by
  unfold RelayTable.evict
  cases hl : s.tunnels.lookup id with
  | none => exact .refl h
  | some r =>
    exact (Kept.delete h id).then fun hdel => .closeOnce hdel fun t ht c hc => hdel.conns ht (hsub t hc)

theorem Kept.reap (id : String) : Kept s (s.reap id) := by
  unfold RelayTable.reap
  cases hl : s.tunnels.lookup id with
  | none => exact .refl h
  | some r =>
    obtain ⟨t, ht, _⟩ := h.listed id r hl
    have hclose : Kept s (s.close (some r) ((s.objects[r]?).elim [] RelayTunnel.conns)) := by
      rw [ht]
      exact .closeOwn h fun c hc => h.conns ht hc
    exact hclose.then (.delete · id)

end

theorem Kept.foldl {α : Type*} {f : RelayTable → α → RelayTable} (hf : ∀ s a, s.Isolated → Kept s (f s a))
    (h : s.Isolated) (l : List α) : Kept s (l.foldl f s) := by
  induction l generalizing s with
  | nil => exact .refl h
  | cons a l ih => exact (hf s a h).then ih

/-! ### A stream is taken, a tunnel is listed -/

section
variable {peer : String} (hconn : s.streams[conn]? = some ⟨.accepted peer, none⟩) (r : ℕ)
include hconn

theorem grows_takeStream :
    Grows s (s.takeStream conn r) (some conn) none := by
  refine ⟨fun _ t ht => ⟨t, ht, rfl, rfl, rfl, rfl⟩, fun c st hst hc => ?_, fun _ _ hl => .inl hl⟩
  have hne : conn ≠ c := by
    rintro rfl
    obtain rfl := mem_unique hconn hst
    simp at hc
  exact (getElem?_modify_ne _ _ hne).trans hst

theorem takeStream_conn :
    (s.takeStream conn r).streams[conn]? = some ⟨.accepted peer, some r⟩ := by
  change (s.streams.modify conn _)[conn]? = _
  rw [getElem?_modify_eq, hconn]
  rfl

theorem Isolated.takeStream (h : s.Isolated) : (s.takeStream conn r).Isolated := by
  have hg := grows_takeStream hconn r
  exact h.grow hg h.listed (fun r' t ht => hg.streams _ _ (h.initiator r' t ht) (.inl (by simp)))
    (fun r' t c ht hc => (h.target r' t c ht hc).grow hg) rfl rfl

end

theorem grows_list (s : RelayTable) (t : RelayTunnel) : Grows s (s.list t) none (some t.id) := by
  refine ⟨fun r t' ht' => ⟨t', ?_, rfl, rfl, rfl, rfl⟩, fun _ _ hst _ => hst, fun id r hl => ?_⟩
  · change (s.objects ++ [t])[r]? = _
    rw [List.getElem?_append_left (List.getElem?_eq_some_iff.mp ht').1, ht']
  · obtain ⟨hid, -⟩ | ⟨-, hold⟩ := Map.lookup_of_insert hl
    · exact .inr (congrArg some hid.symm)
    · exact .inl hold

theorem Isolated.list (h : s.Isolated) (htarget : t.targetConn = none)
    (hinit : s.streams[t.initiatorConn]? = some ⟨.accepted t.requester, some s.objects.length⟩) :
    (s.list t).Isolated := by
  have hg := grows_list s t
  have hlast : (s.list t).objects[s.objects.length]? = some t := by
    change (s.objects ++ [t])[s.objects.length]? = _
    rw [getElem?_concat_length]
  refine h.grow hg (fun id r hl => ?_) (fun r t' ht' => ?_) (fun r t' c ht' hc => ?_) rfl rfl
  · obtain ⟨rfl, rfl⟩ | ⟨-, hold⟩ := Map.lookup_of_insert hl
    · exact ⟨t, hlast, rfl⟩
    · obtain ⟨t', ht', hid'⟩ := h.listed id r hold
      obtain ⟨t'', ht'', hsame⟩ := hg.objects r t' ht'
      exact ⟨t'', ht'', hsame.id.trans hid'⟩
  · obtain ht' | ⟨rfl, rfl⟩ := Table.getElem?_concat ht'
    · exact h.initiator r t' ht'
    · exact hinit
  · obtain ht' | ⟨rfl, rfl⟩ := Table.getElem?_concat ht'
    · exact (h.target r t' c ht' hc).grow hg
    · rw [htarget] at hc
      cases hc

end RelayTable

/-! ### Sections -/

def RelaySection.fresh : RelaySection → Option ℕ
  | .capacity conn _ | .evictStaleHalfOpen conn _ | .evictOldest conn _ | .register conn _
  | .handleDialBack conn _ _ => some conn
  | _ => none

def RelaySection.tunnel : RelaySection → Option ℕ
  | .findSession r _ | .openTarget r | .awaitTarget r _ | .setTarget r _ _ | .multiHopRelay r _ | .relink r _
  | .startBridge r | .readConns r | .bridgeEnd r _ _ | .abandon r _ | .closeInitiator r | .removeTunnel r => some r
  | _ => none

/-- What the section works on is its tunnel, its stream and its target. -/
def RelaySection.plain : RelaySection → Bool
  | .bridgeEnd _ _ _ | .closeTunnel _ _ => false
  | _ => true

def RelaySection.target : RelaySection → Option ℕ
  | .awaitTarget _ conn | .setTarget _ conn _ | .relink _ conn => some conn
  | _ => none

namespace RelayTable
variable {s s' : RelayTable} {u v : RelaySection} {rest next : List RelaySection} {r conn : ℕ} {t : RelayTunnel}
  {taken : Option ℕ} {new : Option String}

structure Ok (s : RelayTable) (u : RelaySection) : Prop where
  fresh : ∀ conn, u.fresh = some conn → ∃ peer, s.streams[conn]? = some ⟨.accepted peer, none⟩
  current : ∀ r, u.tunnel = some r → s.Current r
  target : ∀ r conn, u.tunnel = some r → u.target = some conn → s.Leads r conn
  bridge : ∀ r initiator target, u = .bridgeEnd r initiator target → s.UsedBy r initiator ∧ s.UsedBy r target
  own : ∀ cause r, u = .closeTunnel cause r → cause = r

/-- The state is isolated, the sections are about tunnels and streams of their own, and no two sections look
for a use of the same stream. -/
structure Apart (s : RelayTable) (ready : List RelaySection) : Prop where
  isolated : s.Isolated
  ok : ∀ u ∈ ready, s.Ok u
  fresh : (ready.filterMap RelaySection.fresh).Nodup

theorem Ok.grow (hg : Grows s s' taken new) (h : s.Ok u) (htaken : ∀ conn, u.fresh = some conn → taken ≠ some conn)
    (hnew : ∀ r t, u.tunnel = some r → s.objects[r]? = some t → new ≠ some t.id) : s'.Ok u where
  fresh := fun conn hu => (h.fresh conn hu).imp fun _ hst => hg.streams conn _ hst (.inr (htaken conn hu))
  current := fun r hu => (h.current r hu).grow hg fun t ht => hnew r t hu ht
  target := fun r conn hu hc => (h.target r conn hu hc).grow hg
  bridge := fun r i c hu => ⟨(h.bridge r i c hu).1.grow hg, (h.bridge r i c hu).2.grow hg⟩
  own := h.own

theorem Ok.of_plain (hplain : v.plain = true)
    (hfresh : ∀ conn, v.fresh = some conn → ∃ peer, s.streams[conn]? = some ⟨.accepted peer, none⟩)
    (hcurrent : ∀ r, v.tunnel = some r → s.Current r)
    (htarget : ∀ r conn, v.tunnel = some r → v.target = some conn → s.Leads r conn) : s.Ok v := by
  refine ⟨hfresh, hcurrent, htarget, fun _ _ _ hv => ?_, fun _ _ hv => ?_⟩
  all_goals rw [hv] at hplain; cases hplain

theorem Ok.pass (h : s.Ok u) (hg : Grows s s' none none) (hplain : v.plain = true)
    (hfresh : v.fresh = none ∨ v.fresh = u.fresh) (htunnel : v.tunnel = none ∨ v.tunnel = u.tunnel)
    (htarget : v.target = none ∨ v.target = u.target) : s'.Ok v := by
  have h' := h.grow hg (fun _ _ => by simp) (fun _ _ _ _ => by simp)
  refine .of_plain hplain (fun conn hv => ?_) (fun r hv => ?_) (fun r conn hr hc => ?_)
  · obtain hnone | heq := hfresh
    · exact nomatch hnone.symm.trans hv
    · exact h'.fresh conn (heq ▸ hv)
  · obtain hnone | heq := htunnel
    · exact nomatch hnone.symm.trans hv
    · exact h'.current r (heq ▸ hv)
  · obtain hnone | heq := htunnel
    · exact nomatch hnone.symm.trans hr
    · obtain hnone' | heq' := htarget
      · exact nomatch hnone'.symm.trans hc
      · exact h'.target r conn (heq ▸ hr) (heq' ▸ hc)

theorem Ok.of_current (h : s.Current r) (hplain : v.plain = true) (hfresh : v.fresh = none)
    (htunnel : v.tunnel = some r) (htarget : v.target = none) : s.Ok v := by
  refine .of_plain hplain (fun conn hv => nomatch hfresh.symm.trans hv) (fun r' hv => ?_)
    (fun _ conn _ hc => nomatch htarget.symm.trans hc)
  obtain rfl := mem_unique htunnel hv
  exact h

theorem Ok.closeTunnel (s : RelayTable) (r : ℕ) : s.Ok (.closeTunnel r r) := by
  refine ⟨nofun, nofun, nofun, nofun, fun cause r hv => ?_⟩
  cases hv
  rfl

/-- A section with this outcome leaves the sections apart. -/
abbrev After (rest : List RelaySection) (x : RelayTable × List RelaySection) : Prop := Apart x.1 (x.2 ++ rest)

theorem Apart.head (h : Apart s (u :: rest)) : s.Ok u := h.ok u mem_cons_self

theorem Apart.fresh_lt (h : Apart s rest) (hu : u ∈ rest) (hconn : u.fresh = some conn) : conn < s.streams.length := by
  obtain ⟨_, hst⟩ := (h.ok u hu).fresh conn hconn
  exact (List.getElem?_eq_some_iff.mp hst).1

section
variable (h : Apart s (u :: rest))
include h

/-- The turn of a section. What it takes is its own stream, and what it lists is not the ID of a tunnel that
another section works for; the sections that follow may go on with its stream or with a new one. -/
theorem Apart.turn (hisolated : s'.Isolated) (hg : Grows s s' taken new)
    (htaken : ∀ conn, taken = some conn → u.fresh = some conn)
    (hnew : ∀ v ∈ rest, ∀ r t, v.tunnel = some r → s.objects[r]? = some t → new ≠ some t.id)
    (hok : ∀ v ∈ next, s'.Ok v)
    (hfresh : (next.filterMap RelaySection.fresh).Sublist (u.fresh.toList ++ [s.streams.length])) :
    Apart s' (next ++ rest) := by
  have hcons : (u :: rest).filterMap RelaySection.fresh = u.fresh.toList ++ rest.filterMap RelaySection.fresh := by
    rw [filterMap_cons]
    cases u.fresh <;> rfl
  have hnodup := h.fresh
  rw [hcons, nodup_append] at hnodup
  refine ⟨hisolated, fun v hv => ?_, ?_⟩
  · obtain hv | hv := mem_append.mp hv
    · exact hok v hv
    · refine (h.ok v (mem_cons_of_mem _ hv)).grow hg (fun conn hconn heq => ?_) fun r t hr ht => hnew v hv r t hr ht
      have hu := htaken conn heq
      exact hnodup.2.2 conn (by simp [hu]) conn (mem_filterMap.mpr ⟨v, hv, hconn⟩) rfl
  · rw [filterMap_append]
    refine Nodup.sublist (hfresh.append (Sublist.refl _)) ?_
    have hlt : ∀ c ∈ (u :: rest).filterMap RelaySection.fresh, c < s.streams.length := by
      intro c hc
      obtain ⟨v, hv, hvc⟩ := mem_filterMap.mp hc
      exact h.fresh_lt hv hvc
    rw [hcons] at hlt
    rw [append_assoc, nodup_append]
    refine ⟨hnodup.1, ?_, fun a ha b hb heq => ?_⟩
    · rw [singleton_append, nodup_cons]
      exact ⟨fun hmem => lt_irrefl _ (hlt _ (mem_append_right _ hmem)), hnodup.2.1⟩
    · obtain rfl | hb := mem_cons.mp hb
      · exact absurd (heq ▸ hlt a (mem_append_left _ ha)) (lt_irrefl _)
      · exact hnodup.2.2 a ha b hb heq

theorem Apart.keep (hk : Kept s s') (hok : ∀ v ∈ next, s'.Ok v)
    (hfresh : (next.filterMap RelaySection.fresh).Sublist (u.fresh.toList ++ [s.streams.length])) :
    Apart s' (next ++ rest) :=
  h.turn hk.isolated hk.grows nofun (fun _ _ _ _ _ _ => by simp) hok hfresh

theorem Apart.finish (hk : Kept s s') : Apart s' ([] ++ rest) :=
  h.keep hk (forall_mem_nil _) (nil_sublist _)

theorem Apart.one (hk : Kept s s') (hok : s'.Ok v)
    (hfresh : v.fresh = none ∨ v.fresh = u.fresh ∨ v.fresh = some s.streams.length) : Apart s' ([v] ++ rest) := by
  refine h.keep hk (forall_mem_singleton.mpr hok) ?_
  rw [filterMap_cons]
  obtain hfresh | hfresh | hfresh := hfresh
  · simp [hfresh]
  · rw [hfresh]
    cases u.fresh with
    | none => exact nil_sublist _
    | some c => exact sublist_append_left _ _
  · simp [hfresh]

theorem Apart.continue (hk : Kept s s') (hplain : v.plain = true) (hfresh : v.fresh = none)
    (htunnel : v.tunnel = u.tunnel) (htarget : v.target = none ∨ v.target = u.target) : Apart s' ([v] ++ rest) :=
  h.one hk (h.head.pass hk.grows hplain (.inl hfresh) (.inr htunnel) htarget) (.inl hfresh)

theorem Apart.stay (hplain : v.plain = true) (hfresh : v.fresh = none)
    (htunnel : v.tunnel = u.tunnel) (htarget : v.target = none ∨ v.target = u.target) : Apart s ([v] ++ rest) :=
  h.continue (.refl h.isolated) hplain hfresh htunnel htarget

theorem Apart.seek (hk : Kept s s') (hplain : v.plain = true) (hfresh : v.fresh = u.fresh)
    (htunnel : v.tunnel = none) (htarget : v.target = none) : Apart s' ([v] ++ rest) :=
  h.one hk (h.head.pass hk.grows hplain (.inr hfresh) (.inl htunnel) (.inl htarget)) (.inr (.inl hfresh))

end

/-- A later request may use the ID of a tunnel only when no section works for that tunnel any more, and only
the target of a tunnel may accept for it on a stream of its own. -/
def Separate (s : RelayTable) (_ : RelayInput) (u : RelaySection) (rest : List RelaySection) : Prop :=
  match u with
  | .register _ req =>
    s.tunnels.lookup req.tunnelID = none → ∀ v ∈ rest, ∀ r ∈ v.tunnel, ∀ t ∈ s.objects[r]?, t.id ≠ req.tunnelID
  | .handleDialBack conn tunnelID true =>
    ∀ t ∈ s.tunnelOf tunnelID, ∀ st ∈ s.streams[conn]?, st.kind.leadsTo = t.targetKey
  | _ => True

instance (s : RelayTable) (input : RelayInput) (u : RelaySection) (rest : List RelaySection) :
    Decidable (s.Separate input u rest) := by
  unfold Separate
  split <;> infer_instance

/-! ### The turns of the sections -/

theorem Apart.current (h : Apart s (u :: rest)) (hr : u.tunnel = some r) : s.Current r :=
  h.head.current r hr

theorem Apart.lookup_own (h : Apart s (u :: rest)) (hr : u.tunnel = some r) (ht : s.objects[r]? = some t) {r' : ℕ}
    (hl : s.tunnels.lookup t.id = some r') : r' = r := by
  obtain ⟨t', ht', hcur⟩ := h.current hr
  obtain rfl := mem_unique ht ht'
  exact hcur r' hl

theorem Isolated.current (h : s.Isolated) {id : String} (hl : s.tunnels.lookup id = some r) : s.Current r := by
  obtain ⟨t, ht, rfl⟩ := h.listed id r hl
  exact ⟨t, ht, fun r' hr' => mem_unique hr' hl⟩

theorem Apart.onTunnel (h : Apart s (u :: rest)) {f : RelayTunnel → RelayTable × List RelaySection}
    (hf : ∀ t, s.objects[r]? = some t → After rest (f t)) : After rest (s.onTunnel r f) := by
  unfold RelayTable.onTunnel
  cases ht : s.objects[r]? with
  | none => exact h.finish (.refl h.isolated)
  | some t => exact hf t ht

theorem Apart.handleStream {peer : String} {msg : RelayMessage} (h : Apart s (.handleStream peer msg :: rest)) :
    After rest (s.handleStream peer msg) := by
  have hadd := Kept.addStream h.isolated ⟨.accepted peer, none⟩
  have hfresh : (s.addStream ⟨.accepted peer, none⟩).streams[s.streams.length]? = some ⟨.accepted peer, none⟩ :=
    getElem?_concat_length
  -- the section that follows looks for a use of the new stream, or of none
  have hseek : ∀ v : RelaySection, v.plain = true → v.fresh = none ∨ v.fresh = some s.streams.length →
      v.tunnel = none → Apart (s.addStream ⟨.accepted peer, none⟩) ([v] ++ rest) := by
    intro v hplain hv htunnel
    refine h.one hadd (.of_plain hplain (fun c hc => ⟨peer, ?_⟩) (fun r hr => nomatch htunnel.symm.trans hr)
      (fun r c hr => nomatch htunnel.symm.trans hr)) (hv.imp_right .inr)
    obtain hnone | hsome := hv
    · exact nomatch hnone.symm.trans hc
    · obtain rfl := mem_unique hsome hc
      exact hfresh
  unfold RelayTable.handleStream
  split_ifs
  · exact h.finish (hadd.then (.turnAway · _))
  · cases msg with
    | request | response => exact hseek _ rfl (.inr rfl) rfl
    | dial dial => exact h.finish (hadd.then (.sendResponse · _ _))
    | teardown id => exact hseek _ rfl (.inl rfl) rfl
    | heartbeat | unreadable => exact h.finish (hadd.then (.turnAway · _))

theorem Kept.evictStaleHalfOpen (h : s.Isolated) (now : Proxy.Time) : Kept s (s.evictStaleHalfOpen now).2 :=
  .foldl (fun _ _ hs => .evict hs _ fun _ => by simp [RelayTunnel.conns]) h _

theorem Kept.evictOldest (h : s.Isolated) (order : List String) (n : ℕ) : Kept s (s.evictOldest order n).2 :=
  .foldl (fun _ _ hs => .evict hs _ fun _ => Subset.refl _) h _

theorem Kept.cleanupIdleTunnels (h : s.Isolated) (now : Proxy.Time) : Kept s (s.cleanupIdleTunnels now) :=
  .foldl (fun _ _ hs => .reap hs _) h _

variable {input : RelayInput}

theorem Apart.register {req : MeshRelayRequest} {now : Proxy.Time}
    (h : Apart s (.register conn req :: rest)) (hsep : s.Separate input (.register conn req) rest) :
    After rest (s.register now conn req) := by
  unfold RelayTable.register
  cases hl : s.tunnels.lookup req.tunnelID with
  | some r => exact h.finish ((Kept.sendResponse h.isolated conn (some relayRejectDuplicateTunnel)).then (.turnAway · _))
  | none =>
    obtain ⟨peer, hconn⟩ := h.head.fresh conn rfl
    have hgrows := (grows_takeStream hconn s.objects.length).trans
      (grows_list (s.takeStream conn s.objects.length) (.ofRequest req peer conn now))
    have hisolated : ((s.takeStream conn s.objects.length).list (.ofRequest req peer conn now)).Isolated :=
      (Isolated.takeStream hconn _ h.isolated).list rfl (takeStream_conn hconn _)
    have hpeer : (s.streams[conn]?).elim "" (·.kind.leadsTo) = peer := by
      rw [hconn]
      rfl
    rw [hpeer]
    refine h.turn hisolated hgrows (fun c hc => hc.symm ▸ rfl) (fun v hv r t hr ht heq => ?_)
      (forall_mem_singleton.mpr ?_) (nil_sublist _)
    · exact hsep hl v hv r hr t ht (some.inj heq).symm
    · exact .of_current (hisolated.current (AList.lookup_insert _)) rfl rfl rfl rfl

theorem Apart.reach (h : Apart s (u :: rest)) (hr : u.tunnel = some r) (ht : s.objects[r]? = some t) {kind : StreamKind}
    (hkind : kind.leadsTo = t.targetKey) (hplain : v.plain = true) (hfresh : v.fresh = none)
    (htunnel : v.tunnel = some r) (htarget : v.target = some s.streams.length) :
    Apart (s.addStream ⟨kind, some r⟩) ([v] ++ rest) := by
  have hadd := Kept.addStream h.isolated ⟨kind, some r⟩
  refine h.one hadd (.of_plain hplain (fun c hc => nomatch hfresh.symm.trans hc) (fun r' hr' => ?_)
    (fun r' c hr' hc => ?_)) (.inl hfresh)
  · obtain rfl := mem_unique htunnel hr'
    exact (h.current hr).grow hadd.grows fun _ _ => by simp
  · obtain rfl := mem_unique htunnel hr'
    obtain rfl := mem_unique htarget hc
    exact ⟨t, kind, ht, getElem?_concat_length, hkind⟩

theorem Apart.openTarget {fault : Option StreamFault} (h : Apart s (.openTarget r :: rest))
    (ht : s.objects[r]? = some t) : After rest (s.openTarget fault r t) := by
  have hadd := Kept.addStream h.isolated ⟨.opened t.targetKey, some r⟩
  have hclosed : Kept s ((s.addStream ⟨.opened t.targetKey, some r⟩).close (some r) [s.streams.length]) :=
    hadd.then (.closeOwn · (forall_mem_singleton.mpr ⟨_, getElem?_concat_length⟩))
  unfold RelayTable.openTarget
  split
  · exact h.reach rfl ht rfl rfl rfl rfl rfl
  · exact h.stay rfl rfl rfl (.inl rfl)
  · exact h.continue hclosed rfl rfl rfl (.inl rfl)

theorem Apart.multiHopRelay {nextHop : Option String} {req : MeshRelayRequest}
    (h : Apart s (.multiHopRelay r req :: rest)) (ht : s.objects[r]? = some t) :
    After rest (s.multiHopRelay nextHop r t req) := by
  unfold RelayTable.multiHopRelay
  split_ifs
  · exact h.stay rfl rfl rfl (.inl rfl)
  · cases nextHop with
    | none => exact h.stay rfl rfl rfl (.inl rfl)
    | some relay => exact h.reach rfl ht rfl rfl rfl rfl rfl

theorem Apart.closeTarget (h : Apart s (u :: rest)) (hr : u.tunnel = some r) (hconn : u.target = some conn) :
    Kept s (s.close (some r) [conn]) :=
  .closeOwn h.isolated (forall_mem_singleton.mpr (h.head.target r conn hr hconn).usedBy)

theorem Apart.setTarget (h : Apart s (u :: rest)) (hr : u.tunnel = some r) (hconn : u.target = some conn) :
    Kept s (s.setTunnel r ({ · with targetConn := some conn })) := by
  refine .setTunnel h.isolated (fun t => ⟨rfl, rfl, rfl, rfl⟩) fun t c _ hc => ?_
  obtain rfl := some.inj hc
  exact h.head.target r conn hr hconn

theorem Apart.relink (h : Apart s (.relink r conn :: rest)) (ht : s.objects[r]? = some t) :
    After rest (s.relink r t conn) := by
  unfold RelayTable.relink
  cases hl : s.tunnels.lookup t.id with
  | none => exact h.continue (h.closeTarget rfl rfl) rfl rfl rfl (.inl rfl)
  | some r' =>
    obtain rfl : r' = r := h.lookup_own rfl ht hl
    exact h.continue ((h.setTarget rfl rfl).then (.sendResponse · _ _)) rfl rfl rfl (.inl rfl)

theorem Apart.startBridge (h : Apart s (.startBridge r :: rest)) : After rest (s.startBridge r t) := by
  unfold RelayTable.startBridge
  split_ifs
  · exact h.finish (.refl h.isolated)
  · exact h.continue (.mark h.isolated (fun _ => ⟨rfl, rfl, rfl, rfl⟩) fun _ => rfl) rfl rfl rfl (.inl rfl)

theorem Apart.readConns (h : Apart s (.readConns r :: rest)) (ht : s.objects[r]? = some t) :
    After rest (s.readConns r t) := by
  unfold RelayTable.readConns
  cases hc : t.targetConn with
  | none => exact h.stay rfl rfl rfl (.inl rfl)
  | some target =>
    have hleads := h.isolated.target r t target ht hc
    have hkept : Kept s { s with bridges := s.bridges ++ [⟨r, t.initiatorConn, target⟩] } := by
      refine ⟨⟨h.isolated.listed, h.isolated.initiator, h.isolated.target, ?_, h.isolated.closings⟩,
        .of_eq rfl rfl fun _ _ hl => hl⟩
      exact forall_mem_append.mpr ⟨h.isolated.bridged, forall_mem_singleton.mpr ⟨t, ht, rfl, hleads⟩⟩
    refine h.one hkept ⟨nofun, fun r' hr' => ?_, nofun, fun r' i c hv => ?_, nofun⟩ (.inl rfl)
    · exact (h.current hr').grow hkept.grows fun _ _ => by simp
    · cases hv
      exact ⟨⟨_, h.isolated.initiator r t ht⟩, hleads.usedBy⟩

theorem Apart.bridgeEnd {initiator target : ℕ} (h : Apart s (.bridgeEnd r initiator target :: rest)) :
    Apart (s.closeOnce r r fun _ => [initiator, target]) ([.removeTunnel r] ++ rest) := by
  obtain ⟨hinit, htarget⟩ := h.head.bridge r initiator target rfl
  refine h.continue (.closeOnce h.isolated fun t _ c hc => ?_) rfl rfl rfl (.inl rfl)
  obtain rfl | rfl := mem_pair.mp hc
  · exact hinit
  · exact htarget

theorem Apart.abandon {reason : Option String} (h : Apart s (.abandon r reason :: rest)) {s' : RelayTable}
    (hk : Kept s s') : Apart s' ([.removeTunnel r, .closeInitiator r] ++ rest) := by
  refine h.keep hk (fun v hv => ?_) (nil_sublist _)
  obtain rfl | rfl := mem_pair.mp hv
  all_goals exact h.head.pass hk.grows rfl (.inl rfl) (.inr rfl) (.inl rfl)

theorem Apart.removeTunnel (h : Apart s (.removeTunnel r :: rest)) (ht : s.objects[r]? = some t) :
    After rest (s.removeTunnel r t) := by
  unfold RelayTable.removeTunnel
  cases hl : s.tunnels.lookup t.id with
  | none => exact h.finish (.refl h.isolated)
  | some r' =>
    obtain rfl : r' = r := h.lookup_own rfl ht hl
    exact h.one (.delete h.isolated t.id) (.closeTunnel _ _) (.inl rfl)

theorem Apart.handleDialBack {tunnelID : String} {accept : Bool}
    (h : Apart s (.handleDialBack conn tunnelID accept :: rest))
    (hsep : s.Separate input (.handleDialBack conn tunnelID accept) rest) :
    After rest (s.handleDialBack conn tunnelID accept) := by
  unfold RelayTable.handleDialBack
  cases hl : s.tunnels.lookup tunnelID with
  | none => exact h.finish (.turnAway h.isolated _)
  | some r =>
    have hcur := h.isolated.current hl
    cases accept with
    | false =>
      have haway := Kept.turnAway h.isolated [conn]
      exact h.one haway (.of_current (hcur.grow haway.grows fun _ _ => by simp) rfl rfl rfl rfl) (.inl rfl)
    | true =>
      obtain ⟨peer, hconn⟩ := h.head.fresh conn rfl
      obtain ⟨t, ht, _⟩ := h.isolated.listed tunnelID r hl
      have hg := grows_takeStream hconn r
      have hpeer : peer = t.targetKey := by
        have htunnel : s.tunnelOf tunnelID = some t := by
          rw [RelayTable.tunnelOf, hl]
          exact ht
        exact hsep t htunnel _ hconn
      refine h.turn (.takeStream hconn r h.isolated) hg (fun c hc => hc.symm ▸ rfl) (fun _ _ _ _ _ _ => by simp)
        (forall_mem_singleton.mpr ⟨nofun, fun r' hr' => ?_, fun r' c hr' hc => ?_, nofun, nofun⟩)
        (nil_sublist _)
      · cases hr'
        exact hcur.grow hg fun _ _ => by simp
      · cases hr'
        cases hc
        exact ⟨t, _, ht, takeStream_conn hconn r, hpeer⟩

theorem Apart.handleTeardown {tunnelID : String} (h : Apart s (.handleTeardown conn tunnelID :: rest)) :
    After rest (s.handleTeardown conn tunnelID) := by
  unfold RelayTable.handleTeardown
  cases hl : s.tunnels.lookup tunnelID with
  | none => exact h.finish (.turnAway h.isolated _)
  | some r =>
    exact h.one ((Kept.delete h.isolated tunnelID).then (.turnAway · _)) (.closeTunnel _ _) (.inl rfl)

theorem Apart.closeAll (h : Apart s (.closeAll :: rest)) :
    Apart { s with tunnels := ∅ } ((s.tunnels.entries.map fun e => .closeTunnel e.2 e.2) ++ rest) := by
  refine h.keep (.clear h.isolated) (forall_mem_map.mpr fun e _ => .closeTunnel _ _) ?_
  rw [filterMap_map]
  simp [RelaySection.fresh, Function.comp_def]

theorem Apart.exec (hsep : s.Separate input u rest) (h : Apart s (u :: rest)) : After rest (s.exec input u) := by
  cases u with
  | handleStream peer msg => exact h.handleStream
  | capacity conn req =>
    dsimp only [exec]
    split_ifs <;> exact h.seek (.refl h.isolated) rfl rfl rfl rfl
  | evictStaleHalfOpen conn req =>
    have hk := Kept.evictStaleHalfOpen h.isolated input.now
    dsimp only [exec]
    split_ifs <;> exact h.seek hk rfl rfl rfl rfl
  | evictOldest conn req =>
    have hk := Kept.evictOldest h.isolated input.order 4
    dsimp only [exec]
    split_ifs
    · exact h.finish ((hk.then (.sendResponse · conn (some relayRejectAtCapacity))).then (.turnAway · _))
    · exact h.seek hk rfl rfl rfl rfl
  | register conn req => exact h.register hsep
  | findSession r req =>
    dsimp only [exec]
    split_ifs <;> exact h.stay rfl rfl rfl (.inl rfl)
  | openTarget r => exact h.onTunnel fun t ht => h.openTarget ht
  | awaitTarget r conn =>
    dsimp only [exec]
    split_ifs
    · exact h.stay rfl rfl rfl (.inr rfl)
    · exact h.continue (h.closeTarget rfl rfl) rfl rfl rfl (.inl rfl)
  | setTarget r conn answer =>
    refine h.onTunnel fun t _ => ?_
    have hset := h.setTarget rfl rfl
    cases answer with
    | false => exact h.continue hset rfl rfl rfl (.inl rfl)
    | true => exact h.continue (hset.then (.sendResponse · _ _)) rfl rfl rfl (.inl rfl)
  | multiHopRelay r req => exact h.onTunnel fun t ht => h.multiHopRelay ht
  | relink r conn => exact h.onTunnel fun t ht => h.relink ht
  | startBridge r => exact h.onTunnel fun t _ => h.startBridge
  | readConns r => exact h.onTunnel fun t ht => h.readConns ht
  | bridgeEnd r initiator target => exact h.bridgeEnd
  | abandon r reason =>
    refine h.onTunnel fun t _ => h.abandon ?_
    split_ifs
    · exact .sendResponse h.isolated _ _
    · exact .refl h.isolated
  | closeInitiator r =>
    refine h.onTunnel fun t ht => h.finish (.closeOwn h.isolated (forall_mem_singleton.mpr ?_))
    exact ⟨_, h.isolated.initiator r t ht⟩
  | removeTunnel r => exact h.onTunnel fun t ht => h.removeTunnel ht
  | closeTunnel cause r =>
    obtain rfl := h.head.own cause r rfl
    exact h.finish (.closeOnce h.isolated fun t ht c hc => h.isolated.conns ht hc)
  | handleDialBack conn tunnelID accept => exact h.handleDialBack hsep
  | handleTeardown conn tunnelID => exact h.handleTeardown
  | activity r =>
    refine h.finish (.mark h.isolated (fun t => ?_) fun t => ?_)
    · split_ifs <;> exact ⟨rfl, rfl, rfl, rfl⟩
    · split_ifs <;> rfl
  | cleanupIdleTunnels => exact h.finish (.cleanupIdleTunnels h.isolated _)
  | close =>
    refine h.one ⟨?_, .of_eq rfl rfl fun _ _ hl => hl⟩ ⟨nofun, nofun, nofun, nofun, nofun⟩ (.inl rfl)
    exact ⟨h.isolated.listed, h.isolated.initiator, h.isolated.target, h.isolated.bridged, h.isolated.closings⟩
  | closeAll => exact h.closeAll

end RelayTable

/-! ### Runs of the handler -/

theorem relaySections_carries : relaySections.Carries Separate Apart where
  perm := fun s l l' hperm h =>
    ⟨h.isolated, fun u hu => h.ok u (hperm.mem_iff.mpr hu), (hperm.filterMap _).nodup_iff.mp h.fresh⟩
  start := fun s call l h => by
    have hnone : (relaySections.start call).fresh = none := by cases call <;> rfl
    refine ⟨h.isolated, forall_mem_cons.mpr ⟨?_, h.ok⟩, ?_⟩
    · cases call <;> exact ⟨nofun, nofun, nofun, nofun, nofun⟩
    · rw [filterMap_cons, hnone]
      exact h.fresh
  exec := fun s input u l hsep h => h.exec hsep

def newRelayTable : RelayTable := {}

theorem apart_new : Apart newRelayTable [] where
  isolated := ⟨nofun, nofun, nofun, nofun, nofun⟩
  ok := forall_mem_nil _
  fresh := nodup_nil

def requestX (peer : String) : RelayCall := .stream peer (.request ⟨"x", "t", peer, 80, []⟩)

def bridgedAndEnded : List (Turn RelayInput RelayCall) :=
  [.call (requestX "a"), .exec 0 {}, .exec 0 {}, .exec 0 {}, .exec 0 { session := true }, .exec 0 {},
    .exec 0 { accepts := true }, .exec 0 {}, .exec 0 {}, .exec 0 {}, .exec 0 {}]

end MeshDesk.Mesh
