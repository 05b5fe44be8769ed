import MeshDesk.Mesh.Acl

/-! What the ACL engine decides, read off the configuration: the first configured rule that applies to the packet, or
the default policy. The compiled form decides the same over every history of calls, and the rules the engine reports
compile back to ones that decide the same. -/
namespace MeshDesk.Mesh
open Net (IP IPNet NetText)
open Proxy (Bytes)
open ACLEngine

section Meaning
variable (T : NetText) (L : Casing)

/-- The source network of a rule, as the configuration writes it, has the address. -/
def sourceCovers (cidr : String) (x : IP) : Bool :=
  isAny cidr || (T.parseCIDR cidr).any (·.2.contains x)

def destCovers (cidr : String) (x : IP) : Bool :=
  isAny cidr ||
    match T.parseCIDR cidr with
    | some (_, n) => n.contains x
    | none => T.parseIP cidr == some x

def ACLRule.applies (rule : ACLRule) (info : PacketInfo) (peerID : String) : Bool :=
  sourceCovers T rule.sourceCIDR info.srcIP &&
  destCovers T rule.destCIDR info.dstIP &&
  (isAny (L.toLower rule.protocol) || info.protocol == L.toLower rule.protocol) &&
  (rule.srcPort == 0 || info.srcPort == rule.srcPort) &&
  (rule.dstPort == 0 || info.dstPort == rule.dstPort) &&
  (isAny rule.peerID || peerID == rule.peerID)

def ACLConfig.defaultAllows (cfg : ACLConfig) : Bool :=
  cfg.defaultPolicy == .empty || cfg.defaultPolicy == .allow

def ACLConfig.decision (cfg : ACLConfig) (packet : Bytes) (peerID : String) : Bool :=
  !cfg.enabled ||
    match parsePacketInfo packet with
    | none => cfg.defaultAllows
    | some info =>
      match cfg.rules.find? (·.applies T L info peerID) with
      | some rule => rule.action == .allow
      | none => cfg.defaultAllows

variable {T : NetText} {L : Casing}

theorem ACLConfig.decision_congr {cfg cfg' : ACLConfig} {packet : Bytes} {peerID : String}
    (hen : cfg.enabled = cfg'.enabled) (hdef : cfg.defaultAllows = cfg'.defaultAllows)
    (hrule : ∀ info, (cfg.rules.find? (·.applies T L info peerID)).map (·.action) =
      (cfg'.rules.find? (·.applies T L info peerID)).map (·.action)) :
    cfg.decision T L packet peerID = cfg'.decision T L packet peerID := by
  unfold decision
  rw [hen, hdef]
  cases parsePacketInfo packet with
  | none => rfl
  | some info =>
    have hr := hrule info
    cases hc : cfg'.rules.find? (·.applies T L info peerID) with
    | none =>
      rw [hc, Option.map_none] at hr
      simp only [Option.map_eq_none_iff.mp hr, hc]
    | some rule =>
      rw [hc, Option.map_some] at hr
      obtain ⟨rule', hrule', hact⟩ := Option.map_eq_some_iff.mp hr
      simp only [hrule', hc, hact]

end Meaning

section Compilation
variable {T : NetText} {L : Casing} {rule : ACLRule} {c : CompiledACLRule}

theorem compileSrc_ok {cidr : String} {n : Option IPNet} (h : compileSrc T cidr = .ok n) (x : IP) :
    n.all (·.contains x) = sourceCovers T cidr x := by
  unfold compileSrc at h
  unfold sourceCovers
  cases hany : isAny cidr with
  | true =>
    rw [hany] at h
    cases h
    rfl
  | false =>
    rw [hany] at h
    cases hp : T.parseCIDR cidr with
    | none =>
      rw [hp] at h
      cases h
    | some p =>
      rw [hp] at h
      cases h
      rfl

theorem compileDst_ok {cidr : String} {n : Option IPNet} (h : compileDst T cidr = .ok n) (x : IP) :
    n.all (·.contains x) = destCovers T cidr x := by
  unfold compileDst at h
  unfold destCovers
  cases hany : isAny cidr with
  | true =>
    rw [hany] at h
    cases h
    rfl
  | false =>
    rw [hany] at h
    cases hp : T.parseCIDR cidr with
    | some p =>
      rw [hp] at h
      cases h
      rfl
    | none =>
      rw [hp] at h
      cases hip : T.parseIP cidr with
      | none =>
        rw [hip] at h
        cases h
      | some ip =>
        rw [hip] at h
        cases h
        change (IPNet.host ip).contains x = (false || some ip == some x)
        rw [IPNet.contains_host, Bool.false_or]
        by_cases hx : x = ip
        · simp [hx]
        · simp [hx, Ne.symm hx]

theorem compileRule_ok (h : compileRule T L rule = .ok c) :
    (rule.action = .allow ∨ rule.action = .deny) ∧
      ∃ src dst, compileSrc T rule.sourceCIDR = .ok src ∧ compileDst T rule.destCIDR = .ok dst ∧
        c = ⟨rule.action, src, dst, compileProtocol L rule.protocol, rule.srcPort, rule.dstPort, rule.peerID,
          rule.description⟩ := by
  unfold compileRule at h
  split_ifs at h with hact
  obtain ⟨src, hsrc, h⟩ := Lib.bind_eq_ok.mp h
  obtain ⟨dst, hdst, h⟩ := Lib.bind_eq_ok.mp h
  refine ⟨?_, src, dst, hsrc, hdst, (Except.ok.inj h).symm⟩
  by_cases ha : rule.action = .allow
  · exact .inl ha
  · exact .inr (by_contra fun hd => hact ⟨ha, hd⟩)

theorem compileProtocol_applies (p q : String) :
    (isAny (compileProtocol L p) || q == compileProtocol L p) = (isAny (L.toLower p) || q == L.toLower p) := by
  unfold compileProtocol
  split_ifs with h
  · rw [h]
    rfl
  · rfl

theorem ruleMatches_compile (h : compileRule T L rule = .ok c) (info : PacketInfo) (peerID : String) :
    ruleMatches c info peerID = rule.applies T L info peerID := by
  obtain ⟨_, src, dst, hsrc, hdst, rfl⟩ := compileRule_ok h
  unfold ruleMatches ACLRule.applies
  rw [compileSrc_ok hsrc, compileDst_ok hdst, compileProtocol_applies]

/-- The compiled rules stand for the configured ones, in order. -/
def Compiled (T : NetText) (L : Casing) : List ACLRule → List CompiledACLRule → Prop :=
  List.Forall₂ fun rule c => compileRule T L rule = .ok c

theorem compileRules_ok {i : ℕ} {rules : List ACLRule} {cs : List CompiledACLRule} :
    compileRules T L i rules = .ok cs ↔ Compiled T L rules cs := by
  unfold Compiled
  induction rules generalizing i cs with
  | nil =>
    rw [List.forall₂_nil_left_iff]
    exact ⟨fun h => (Except.ok.inj h).symm, fun h => by rw [h]; rfl⟩
  | cons rule rules ih =>
    rw [List.forall₂_cons_left_iff]
    unfold compileRules
    cases hr : compileRule T L rule with
    | error e => simp
    | ok c =>
      cases hrs : compileRules T L (i + 1) rules with
      | error e =>
        constructor
        · intro h
          cases h
        · rintro ⟨c', cs', hc, hcs, rfl⟩
          rw [ih.mpr hcs] at hrs
          cases hrs
      | ok cs' =>
        constructor
        · intro h
          exact ⟨c, cs', rfl, ih.mp hrs, (Except.ok.inj h).symm⟩
        · rintro ⟨c₂, cs₂, hc, hcs, rfl⟩
          have hcs' := (ih (i := i + 1)).mpr hcs
          rw [hrs] at hcs'
          cases hc
          cases hcs'
          rfl

theorem find_compiled {rules : List ACLRule} {cs : List CompiledACLRule} (h : Compiled T L rules cs)
    (info : PacketInfo) (peerID : String) :
    (cs.find? (ruleMatches · info peerID)).map (·.action) =
      (rules.find? (·.applies T L info peerID)).map (·.action) := by
  induction h with
  | nil => rfl
  | @cons rule c rules cs hc _ ih =>
    have hm := ruleMatches_compile hc info peerID
    rw [List.find?_cons, List.find?_cons, hm]
    cases rule.applies T L info peerID with
    | false => exact ih
    | true =>
      obtain ⟨_, src, dst, _, _, rfl⟩ := compileRule_ok hc
      rfl

end Compilation

section Reported
variable {T : NetText} {L : Casing} {rule : ACLRule} {c : CompiledACLRule}

theorem isAny_eq_false {s : String} (hempty : s ≠ "") (hstar : s ≠ "*") : isAny s = false := by
  simp [isAny, hempty, hstar]

theorem isAny_print (n : IPNet) : isAny (T.print n) = false := by
  obtain ⟨ip, n', hp, _⟩ := T.parseCIDR_print n
  apply isAny_eq_false
  · intro h
    rw [h, T.parseCIDR_empty] at hp
    cases hp
  · intro h
    rw [h, T.parseCIDR_star] at hp
    cases hp

theorem compile_printed (n : Option IPNet) :
    ∃ n', compileSrc T ((n.map T.print).getD "") = .ok n' ∧ compileDst T ((n.map T.print).getD "") = .ok n' ∧
      ∀ x, n'.all (·.contains x) = n.all (·.contains x) := by
  cases n with
  | none => exact ⟨none, rfl, rfl, fun _ => rfl⟩
  | some n =>
    obtain ⟨ip, n', hp, hx⟩ := T.parseCIDR_print n
    refine ⟨some n', ?_, ?_, hx⟩
    · simp [compileSrc, isAny_print, hp]
    · simp [compileDst, isAny_print, hp]

theorem compileProtocol_compileProtocol (p : String) :
    compileProtocol L (compileProtocol L p) = compileProtocol L p := by
  have hstar := L.toLower_star
  by_cases h : L.toLower p = ""
  · have hp : compileProtocol L p = "*" := if_pos h
    rw [hp]
    unfold compileProtocol
    rw [hstar, if_neg (by decide)]
  · have hp : compileProtocol L p = L.toLower p := if_neg h
    rw [hp]
    unfold compileProtocol
    rw [L.toLower_toLower, if_neg h]

theorem compileRule_ruleOf (h : compileRule T L rule = .ok c) :
    ∃ c', compileRule T L (ruleOf T c) = .ok c' ∧ c'.action = c.action ∧
      ∀ info peerID, ruleMatches c' info peerID = ruleMatches c info peerID := by
  obtain ⟨hact, src, dst, _, _, rfl⟩ := compileRule_ok h
  obtain ⟨src', hsrc, _, hsrcx⟩ := compile_printed src
  obtain ⟨dst', _, hdst, hdstx⟩ := compile_printed dst
  have hguard : ¬ (rule.action ≠ .allow ∧ rule.action ≠ .deny) := by
    rintro ⟨ha, hd⟩
    exact hact.elim ha hd
  refine ⟨⟨rule.action, src', dst', compileProtocol L rule.protocol, rule.srcPort, rule.dstPort, rule.peerID,
    rule.description⟩, ?_, rfl, ?_⟩
  · unfold compileRule ruleOf
    rw [if_neg hguard, hsrc, hdst, compileProtocol_compileProtocol]
    rfl
  · intro info peerID
    unfold ruleMatches
    rw [hsrcx, hdstx]

theorem compiled_currentRules {rules : List ACLRule} {cs : List CompiledACLRule} (h : Compiled T L rules cs) :
    ∃ cs', Compiled T L (cs.map (ruleOf T)) cs' ∧ ∀ info peerID,
      (cs'.find? (ruleMatches · info peerID)).map (·.action) =
        (cs.find? (ruleMatches · info peerID)).map (·.action) := by
  induction h with
  | nil => exact ⟨[], .nil, fun _ _ => rfl⟩
  | @cons rule c rules cs hc _ ih =>
    obtain ⟨cs', hcs', hfind⟩ := ih
    obtain ⟨c', hc', hact, hmatch⟩ := compileRule_ruleOf hc
    refine ⟨c' :: cs', .cons hc' hcs', fun info peerID => ?_⟩
    rw [List.find?_cons, List.find?_cons, hmatch]
    cases ruleMatches c info peerID with
    | false => exact hfind info peerID
    | true => exact congrArg some hact

end Reported

/-! ### Histories of calls -/

namespace ACLEngine
variable {T : NetText} {L : Casing} {e e' : ACLEngine} {cfg : ACLConfig}

structure Implements (T : NetText) (L : Casing) (e : ACLEngine) (cfg : ACLConfig) (snap : AclSnapshot) : Prop where
  snapshot : e.snapshot = some snap
  enabled : snap.enabled = cfg.enabled
  policy : snap.defaultPolicy = effectivePolicy cfg.defaultPolicy
  compiled : Compiled T L cfg.rules snap.rules

theorem effectivePolicy_allow (p : ACLAction) : effectivePolicy p = .allow ↔ p = .empty ∨ p = .allow := by
  unfold effectivePolicy
  split_ifs with h <;> simp [h]

theorem count_fst (e : ACLEngine) (action : ACLAction) : (e.count action).1 = (action == .allow) := by
  unfold count
  split_ifs with h <;> simp [h]

theorem count_policy (e : ACLEngine) (cfg : ACLConfig) :
    (e.count (effectivePolicy cfg.defaultPolicy)).1 = cfg.defaultAllows := by
  rw [count_fst, Bool.eq_iff_iff, beq_iff_eq, effectivePolicy_allow]
  simp [ACLConfig.defaultAllows]

theorem count_snapshot (e : ACLEngine) (action : ACLAction) : (e.count action).2.snapshot = e.snapshot := by
  unfold count
  split_ifs <;> rfl

theorem count_total (e : ACLEngine) (action : ACLAction) :
    (e.count action).2.allowCount + (e.count action).2.denyCount = e.allowCount + e.denyCount + 1 := by
  unfold count
  split_ifs
  · rw [UInt64.add_assoc, UInt64.add_comm 1, UInt64.add_assoc]
  · exact (UInt64.add_assoc e.allowCount e.denyCount 1).symm

variable {snap : AclSnapshot}

section
variable (hi : e.Implements T L cfg snap)
include hi

variable (packet : Bytes) (peerID : String)

/-- A check is one counted decision, of a snapshot that differs at most in its hit counts, and nothing
when the engine is disabled. -/
theorem check_cases : (cfg.enabled = false ∧ e.check packet peerID = (true, e)) ∨
      (cfg.enabled = true ∧ ∃ hits action, (action == .allow) = cfg.decision T L packet peerID ∧
        e.check packet peerID = count { e with snapshot := some { snap with hitCounts := hits } } action) := by
  have hsnap := hi.snapshot
  have hself : e = { e with snapshot := some { snap with hitCounts := snap.hitCounts } } := by
    rw [← hsnap]
  have hdefault : (snap.defaultPolicy == .allow) = cfg.defaultAllows := by
    rw [hi.policy, ← count_fst e, count_policy]
  cases hen : cfg.enabled with
  | false =>
    refine .inl ⟨rfl, ?_⟩
    simp [check, hsnap, hi.enabled, hen]
  | true =>
    refine .inr ⟨rfl, ?_⟩
    cases hp : parsePacketInfo packet with
    | none =>
      refine ⟨snap.hitCounts, snap.defaultPolicy, ?_, ?_⟩
      · simp [ACLConfig.decision, hen, hp, hdefault]
      · rw [← hself]
        simp [check, hsnap, hi.enabled, hen, hp]
    | some info =>
      have hfind := find_compiled hi.compiled info peerID
      cases hf : snap.rules.find? (ruleMatches · info peerID) with
      | none =>
        rw [hf, Option.map_none] at hfind
        have hspec := Option.map_eq_none_iff.mp hfind.symm
        refine ⟨snap.hitCounts, snap.defaultPolicy, ?_, ?_⟩
        · simp only [ACLConfig.decision, hen, hp, hspec, hdefault]
          rfl
        · rw [← hself]
          simp [check, hsnap, hi.enabled, hen, hp, hf]
      | some c =>
        rw [hf, Option.map_some] at hfind
        obtain ⟨rule, hrule, hact⟩ := Option.map_eq_some_iff.mp hfind.symm
        refine ⟨snap.hitCounts.modify (snap.rules.findIdx (ruleMatches · info peerID)) (· + 1), c.action, ?_, ?_⟩
        · simp only [ACLConfig.decision, hen, hp, hrule, hact]
          rfl
        · simp only [check, hsnap, hi.enabled, hen, hp, hf]
          rfl

theorem check_decision : (e.check packet peerID).1 = cfg.decision T L packet peerID := by
  obtain ⟨hen, h⟩ | ⟨_, hits, action, hd, h⟩ := check_cases hi packet peerID
  · rw [h]
    simp [ACLConfig.decision, hen]
  · rw [h, count_fst, hd]

theorem check_implements : ∃ snap', (e.check packet peerID).2.Implements T L cfg snap' := by
  obtain ⟨_, h⟩ | ⟨_, hits, action, _, h⟩ := check_cases hi packet peerID
  · rw [h]
    exact ⟨snap, hi⟩
  · refine ⟨{ snap with hitCounts := hits }, ?_, hi.enabled, hi.policy, hi.compiled⟩
    rw [h, count_snapshot]

theorem check_counts : (e.check packet peerID).2.allowCount + (e.check packet peerID).2.denyCount =
      e.allowCount + e.denyCount + if cfg.enabled then 1 else 0 := by
  obtain ⟨hen, h⟩ | ⟨hen, hits, action, _, h⟩ := check_cases hi packet peerID
  · rw [h, hen]
    exact (UInt64.add_zero _).symm
  · rw [h, hen, count_total]
    rfl

end

theorem updateRules_ok (h : e.updateRules T L cfg = .ok e') :
    (∃ snap, e'.Implements T L cfg snap) ∧ e'.allowCount = e.allowCount ∧ e'.denyCount = e.denyCount := by
  unfold updateRules at h
  obtain ⟨compiled, hc, rfl⟩ := Lib.map_eq_ok.mp h
  exact ⟨⟨snapshotOf cfg compiled, rfl, rfl, rfl, compileRules_ok.mp hc⟩, rfl, rfl⟩

theorem updateRules_currentRules (hi : e.Implements T L cfg snap) :
    ∃ e', e.updateRules T L ⟨e.isEnabled, e.defaultPolicy, e.currentRules T⟩ = .ok e' ∧
      ∀ packet peerID, (e'.check packet peerID).1 = (e.check packet peerID).1 := by
  obtain ⟨cs', hcs', hfind⟩ := compiled_currentRules hi.compiled
  have hrules : e.currentRules T = snap.rules.map (ruleOf T) := by simp [currentRules, hi.snapshot]
  have hen : e.isEnabled = snap.enabled := by simp [isEnabled, hi.snapshot]
  have hdp : e.defaultPolicy = snap.defaultPolicy := by simp [defaultPolicy, hi.snapshot]
  have hok : e.updateRules T L ⟨e.isEnabled, e.defaultPolicy, e.currentRules T⟩ =
      .ok { e with snapshot := some (snapshotOf ⟨e.isEnabled, e.defaultPolicy, e.currentRules T⟩ cs') } := by
    unfold updateRules
    rw [compileRules_ok.mpr (hrules ▸ hcs')]
    rfl
  refine ⟨_, hok, fun packet peerID => ?_⟩
  obtain ⟨⟨snap', hi'⟩, _, _⟩ := updateRules_ok hok
  rw [check_decision hi', check_decision hi]
  apply ACLConfig.decision_congr
  · exact hen.trans hi.enabled
  · rw [Bool.eq_iff_iff]
    simp only [ACLConfig.defaultAllows, hdp, hi.policy, Bool.or_eq_true, beq_iff_eq, effectivePolicy_allow]
    unfold effectivePolicy
    split_ifs with hemp <;> simp [hemp]
  · intro info
    rw [← find_compiled hi.compiled, ← hfind]
    rw [hrules, ← find_compiled hcs']

end ACLEngine

inductive AclCall where
  | check (packet : Bytes) (peerID : String)
  | updateRules (cfg : ACLConfig)
  | currentRules
  deriving DecidableEq

/-- An engine with the configuration of its last successful installation and the number of checks made
while it was enabled. -/
structure AclHistory where
  engine : ACLEngine
  installed : ACLConfig
  checks : ℕ

namespace AclHistory
variable (T : NetText) (L : Casing)

def step (s : AclHistory) : AclCall → AclHistory
  | .check packet peerID =>
    { s with engine := (s.engine.check packet peerID).2
             checks := s.checks + if s.engine.isEnabled then 1 else 0 }
  | .updateRules cfg =>
    match s.engine.updateRules T L cfg with
    | .ok e => { s with engine := e, installed := cfg }
    | .error _ => s
  | .currentRules => s

def run (s : AclHistory) (calls : List AclCall) : AclHistory := calls.foldl (step T L) s

structure Sound (s : AclHistory) : Prop where
  implements : ∃ snap, s.engine.Implements T L s.installed snap
  counts : s.engine.allowCount + s.engine.denyCount = UInt64.ofNat s.checks

variable {T : NetText} {L : Casing}

variable {s : AclHistory} {cfg : ACLConfig}

theorem step_installed {e : ACLEngine} (h : s.engine.updateRules T L cfg = .ok e) :
    s.step T L (.updateRules cfg) = { s with engine := e, installed := cfg } := by
  simp only [step, h]

theorem step_refused {err : ACLError}
    (h : s.engine.updateRules T L cfg = .error err) : s.step T L (.updateRules cfg) = s := by
  simp only [step, h]

theorem Sound.step (h : s.Sound T L) (call : AclCall) : (s.step T L call).Sound T L := by
  obtain ⟨⟨snap, hi⟩, hc⟩ := h
  cases call with
  | check packet peerID =>
    refine ⟨check_implements hi packet peerID, ?_⟩
    have hen : s.engine.isEnabled = s.installed.enabled := by
      simp [isEnabled, hi.snapshot, hi.enabled]
    change (s.engine.check packet peerID).2.allowCount + (s.engine.check packet peerID).2.denyCount = _
    rw [check_counts hi, hc, ← hen]
    cases hb : s.engine.isEnabled <;> simp [AclHistory.step, hb]
  | updateRules cfg =>
    cases hu : s.engine.updateRules T L cfg with
    | error err =>
      rw [step_refused hu]
      exact ⟨⟨snap, hi⟩, hc⟩
    | ok e =>
      obtain ⟨himp, ha, hd⟩ := updateRules_ok hu
      rw [step_installed hu]
      refine ⟨himp, ?_⟩
      rw [ha, hd, hc]
  | currentRules => exact ⟨⟨snap, hi⟩, hc⟩

theorem Sound.run (h : s.Sound T L) (calls : List AclCall) : (s.run T L calls).Sound T L :=
  List.foldlRecOn calls _ h fun _ h call _ => h.step call

theorem sound_new {e : ACLEngine} (h : newACLEngine T L cfg = .ok e) : Sound T L ⟨e, cfg, 0⟩ := by
  obtain ⟨himp, ha, hd⟩ := updateRules_ok h
  refine ⟨himp, ?_⟩
  rw [ha, hd]
  rfl

/-- Whatever calls a new engine has served: it decides every packet as the last configuration installed
asks for; a failing update and an installation of the rules it reports change no decision; and its two
counters add up to the checks made while it was enabled. -/
theorem decides_as_installed {cfg : ACLConfig} {e : ACLEngine} (h : ACLEngine.newACLEngine T L cfg = .ok e)
    (calls : List AclCall) :
    let s := AclHistory.run T L ⟨e, cfg, 0⟩ calls
    (∀ packet peerID, (s.engine.check packet peerID).1 = s.installed.decision T L packet peerID) ∧
      (∀ cfg' err, s.engine.updateRules T L cfg' = .error err → ∀ packet peerID,
        ((s.step T L (.updateRules cfg')).engine.check packet peerID).1 = (s.engine.check packet peerID).1) ∧
      (∃ e', s.engine.updateRules T L ⟨s.engine.isEnabled, s.engine.defaultPolicy, s.engine.currentRules T⟩ = .ok e' ∧
        ∀ packet peerID, (e'.check packet peerID).1 = (s.engine.check packet peerID).1) ∧
      s.engine.allowCount + s.engine.denyCount = UInt64.ofNat s.checks := by
  intro s
  have hs : s.Sound T L := (sound_new h).run calls
  obtain ⟨snap, hi⟩ := hs.implements
  refine ⟨check_decision hi, ?_, updateRules_currentRules hi, hs.counts⟩
  intro cfg' err herr packet peerID
  rw [step_refused herr]

/-- Only ICMP to one `/24` passes. -/
def pingOnly : ACLConfig where
  enabled := true
  defaultPolicy := .deny
  rules := [{ action := .allow, destCIDR := Net.byteText.netString (.ofV4 0x0a0a0000) 24, protocol := "ICMP" }]

def pingOnlyEngine : ACLEngine where
  snapshot := some (ACLEngine.snapshotOf pingOnly
    [⟨.allow, none, some (.ofPrefix (.ofV4 0x0a0a0000) 24), "icmp", 0, 0, "", ""⟩])

/-- The engine of one rule, after a check and an update that names an unknown action: it has counted one
check, and still decides by the rule it was created with. -/
theorem decides_as_installed_pingOnly :
    ACLEngine.newACLEngine Net.byteText asciiCasing pingOnly = .ok pingOnlyEngine ∧
      let s := AclHistory.run Net.byteText asciiCasing ⟨pingOnlyEngine, pingOnly, 0⟩
        [.check [0x60] "peer", .updateRules ⟨true, .allow, [{ action := ⟨"drop"⟩ }]⟩]
      (∀ packet peerID, (s.engine.check packet peerID).1 =
        s.installed.decision Net.byteText asciiCasing packet peerID) ∧
      s.installed = pingOnly ∧ s.engine.allowCount + s.engine.denyCount = 1 := by
  have hnew : newACLEngine Net.byteText asciiCasing pingOnly = .ok pingOnlyEngine := by decide
  have h := decides_as_installed hnew [.check [0x60] "peer", .updateRules ⟨true, .allow, [{ action := ⟨"drop"⟩ }]⟩]
  exact ⟨hnew, h.1, by decide, h.2.2.2⟩

end AclHistory
end MeshDesk.Mesh
