import MeshDesk.Monitor.Reporting

/-! When a collector stores every sample exactly once. A collector keeps the highest sequence number of a source, so
it stores an envelope exactly if it is numbered above all that arrived from the source before. Samples are stored once
if sequence numbers tell them apart and envelopes arrive in order; an envelope that overtakes another, a restart of
the reporter and a flush of its buffer break this. -/
namespace MeshDesk.Monitor
open Lib List Function
open Proxy (GoString)
open Aggregator

variable (authorized : GoString → GoString → Bool)

/-! ### What arrived -/

def Accepts (s : State) (c : GoString) (env : MetricEnvelope) : Prop :=
  (s.collectors c).running = true ∧ env.sourceID ≠ [] ∧ authorized c env.sourceID = true

instance (s : State) (c : GoString) (env : MetricEnvelope) : Decidable (Accepts authorized s c env) :=
  inferInstanceAs (Decidable (_ ∧ _ ∧ _))

def Highest (arrived : List MetricEnvelope) (src : GoString) : Option UInt64 → Prop
  | none => ∀ e ∈ arrived, e.sourceID ≠ src
  | some last => (∃ e ∈ arrived, e.sourceID = src ∧ e.sequence = last) ∧
      ∀ e ∈ arrived, e.sourceID = src → e.sequence ≤ last

section Highest
variable {arrived : List MetricEnvelope} {src : GoString} {env : MetricEnvelope}

theorem Highest.other {last : Option UInt64} (h : Highest arrived src last) (hne : env.sourceID ≠ src) :
    Highest (arrived ++ [env]) src last := by
  cases last with
  | none => exact forall_mem_append.mpr ⟨h, forall_mem_singleton.mpr hne⟩
  | some last =>
    obtain ⟨⟨e, he, hes⟩, hle⟩ := h
    refine ⟨⟨e, mem_append_left _ he, hes⟩, ?_⟩
    exact forall_mem_append.mpr ⟨hle, forall_mem_singleton.mpr fun hs => absurd hs hne⟩

theorem Highest.covered {last : UInt64} (h : Highest arrived src (some last)) (hle : env.sequence ≤ last) :
    Highest (arrived ++ [env]) src (some last) := by
  obtain ⟨⟨e, he, hes⟩, hall⟩ := h
  exact ⟨⟨e, mem_append_left _ he, hes⟩, forall_mem_append.mpr ⟨hall, forall_mem_singleton.mpr fun _ => hle⟩⟩

theorem Highest.raised (h : ∀ e ∈ arrived, e.sourceID = env.sourceID → e.sequence < env.sequence) :
    Highest (arrived ++ [env]) env.sourceID (some env.sequence) := by
  refine ⟨⟨env, by simp, rfl, rfl⟩, ?_⟩
  exact forall_mem_append.mpr ⟨fun e he hs => UInt64.le_of_lt (h e he hs), forall_mem_singleton.mpr fun _ => UInt64.le_refl _⟩

end Highest

namespace Aggregator

def IsNew (a : Aggregator) (env : MetricEnvelope) : Prop := ∀ e ∈ a.arrived, e.sample ≠ env.sample

def IsAbove (a : Aggregator) (env : MetricEnvelope) : Prop :=
  ∀ e ∈ a.arrived, e.sourceID = env.sourceID → e.sequence < env.sequence

def Tracks (a : Aggregator) : Prop := ∀ src, Highest a.arrived src (a.dedup.lookup src)

variable {a : Aggregator} {env : MetricEnvelope}

theorem isDuplicate_eq_false_iff (h : a.Tracks) : a.isDuplicate env = false ↔ a.IsAbove env := by
  have hsrc := h env.sourceID
  unfold isDuplicate
  cases hlast : a.dedup.lookup env.sourceID with
  | none =>
    rw [hlast] at hsrc
    exact ⟨fun _ e he hs => absurd hs (hsrc e he), fun _ => rfl⟩
  | some last =>
    rw [hlast] at hsrc
    obtain ⟨⟨e, he, hes, hseq⟩, hle⟩ := hsrc
    rw [decide_eq_false_iff_not, UInt64.not_le]
    constructor
    · intro hlt e' he' hs
      exact UInt64.lt_of_le_of_lt (hle e' he' hs) hlt
    · intro habove
      rw [← hseq]
      exact habove e he hes

theorem checkDedup_arrived (a : Aggregator) (env : MetricEnvelope) :
    (a.checkDedup env).2.arrived = a.arrived ++ [env] := by
  unfold checkDedup
  dsimp only
  split_ifs <;> rfl

theorem checkDedup_store (a : Aggregator) (env : MetricEnvelope) : (a.checkDedup env).2.store = a.store := by
  unfold checkDedup
  dsimp only
  split_ifs <;> rfl

theorem checkDedup_iff (h : a.Tracks) : (a.checkDedup env).1 = true ↔ a.IsAbove env := by
  rw [← isDuplicate_eq_false_iff h, ← Bool.not_eq_true]
  unfold checkDedup
  change (if a.isDuplicate env = true then _ else _ : Bool × Aggregator).1 = true ↔ _
  split_ifs with hdup <;> simp [hdup]

theorem Tracks.checkDedup (h : a.Tracks) (env : MetricEnvelope) : (a.checkDedup env).2.Tracks := by
  intro src
  rw [checkDedup_arrived]
  unfold Aggregator.checkDedup
  change Highest _ src ((if a.isDuplicate env = true then _ else _ : Bool × Aggregator).2.dedup.lookup src)
  split_ifs with hdup
  · have hsrc := h src
    by_cases hs : env.sourceID = src
    · rw [isDuplicate, hs] at hdup
      cases hlast : a.dedup.lookup src with
      | none =>
        rw [hlast] at hdup
        cases hdup
      | some last =>
        rw [hlast] at hdup hsrc
        exact hsrc.covered (of_decide_eq_true hdup)
    · exact hsrc.other hs
  · have habove := (isDuplicate_eq_false_iff h).mp (Bool.eq_false_of_not_eq_true hdup)
    by_cases hs : src = env.sourceID
    · rw [hs, AList.lookup_insert]
      exact Highest.raised habove
    · rw [AList.lookup_insert_ne hs]
      exact (h src).other (Ne.symm hs)

end Aggregator

/-! ### Counting -/

def Aggregator.copies (a : Aggregator) (x : GoString × ℕ) : ℕ := a.store.countP (fun e => (e.1, e.2.serial) = x)

def appending (c : GoString) (x : GoString × ℕ) : Task → ℕ
  | .store c' env => if c' = c ∧ env.sample = x then 1 else 0
  | _ => 0

def Aggregator.Has (a : Aggregator) (x : GoString × ℕ) : Prop := ∃ e ∈ a.arrived, e.sample = x

instance (a : Aggregator) (x : GoString × ℕ) : Decidable (a.Has x) :=
  inferInstanceAs (Decidable (∃ e ∈ a.arrived, e.sample = x))

/-- An envelope that arrives from the source `r` is numbered above all before it exactly if its sample is new. -/
def Numbered (r : GoString) (s : State) (_ : Weather) : Task → Prop
  | .deliver c env => Accepts authorized s c env → env.sourceID = r →
      ((s.collectors c).IsNew env ↔ (s.collectors c).IsAbove env)
  | _ => True

def Aggregator.records (a : Aggregator) : Store × Map GoString UInt64 × List MetricEnvelope :=
  (a.store, a.dedup, a.arrived)

def Task.isPush : Task → Bool
  | .deliver _ _ | .store _ _ => true
  | _ => false

variable {s : State} {c : GoString} {x : GoString × ℕ} {n : ℕ}

theorem exec_frame {w : Weather} {t : Task} (ht : t.isPush = false) (c : GoString) (x : GoString × ℕ) :
    ((exec authorized s w t).1.collectors c).records = (s.collectors c).records ∧
      ((exec authorized s w t).2.map (appending c x)).sum = 0 := by
  cases t with
  | tick r =>
    refine ⟨rfl, ?_⟩
    simp only [exec, Reporter.tick]
    cases (s.reporters r).loop with
    | idle => cases w.sampled <;> rfl
    | stored | checked | numbered => rfl
    | pushing env left pushed =>
      cases left with
      | nil => rfl
      | cons c' left => cases w.ok <;> rfl
  | setCollectors | restart => exact ⟨rfl, rfl⟩
  | flushBuffer r =>
    refine ⟨rfl, ?_⟩
    simp only [exec]
    split_ifs <;> rfl
  | flushRange | forward =>
    simp only [exec]
    split_ifs <;> exact ⟨rfl, rfl⟩
  | flushNext r epoch collectors samples =>
    cases samples with
    | nil => exact ⟨rfl, rfl⟩
    | cons m samples =>
      simp only [exec]
      split_ifs <;> exact ⟨rfl, rfl⟩
  | flushPush r epoch collectors samples env left =>
    cases left with
    | nil | cons =>
      simp only [exec]
      split_ifs <;> exact ⟨rfl, rfl⟩
  | setRunning c' running =>
    refine ⟨?_, rfl⟩
    by_cases hc : c = c'
    · subst hc
      simp [exec, State.setCollector, records]
    · simp [exec, State.setCollector, update_of_ne hc]
  | deliver | store => cases ht
  | send c' env left =>
    cases left with
    | nil => exact ⟨rfl, rfl⟩
    | cons p left =>
      simp only [exec]
      split_ifs <;> exact ⟨rfl, rfl⟩

section Push
variable {s : State} {c : GoString} {env : MetricEnvelope}

theorem handlePush_of_not_accepts (h : ¬Accepts authorized s c env) : handlePush authorized s c env = (s, []) := by
  unfold handlePush
  rw [if_pos]
  simpa [Accepts, or_iff_not_imp_left] using h

theorem handlePush_of_accepts (h : Accepts authorized s c env) :
    handlePush authorized s c env =
      (s.setCollector c ((s.collectors c).checkDedup env).2,
        if ((s.collectors c).checkDedup env).1 then [.store c env] else []) := by
  obtain ⟨hrun, hsrc, hauth⟩ := h
  unfold handlePush
  rw [if_neg (by simp [hrun, hsrc, hauth])]
  rcases (s.collectors c).checkDedup env with ⟨_ | _, a⟩ <;> rfl

end Push

/-- The count of one sample at one collector, with the samples that are about to be appended. -/
def Counted (c : GoString) (x : GoString × ℕ) (s : State) (pending : ℕ) : Prop :=
  (s.collectors c).Tracks ∧ pending + (s.collectors c).copies x = if (s.collectors c).Has x then 1 else 0

theorem Counted.of_records {s' : State} (h : Counted c x s n)
    (hrec : (s'.collectors c).records = (s.collectors c).records) : Counted c x s' n := by
  simp only [records, Prod.mk.injEq] at hrec
  obtain ⟨hstore, hdedup, harrived⟩ := hrec
  have htracks : (s'.collectors c).Tracks := by
    unfold Tracks
    rw [hdedup, harrived]
    exact h.1
  have hcopies : (s'.collectors c).copies x = (s.collectors c).copies x := by
    rw [copies, hstore, copies]
  have hhas : (s'.collectors c).Has x ↔ (s.collectors c).Has x := by
    rw [Has, harrived, Has]
  refine ⟨htracks, ?_⟩
  rw [hcopies, h.2]
  simp only [hhas]

theorem Counted.deliver {c' : GoString} {env : MetricEnvelope}
    (hnum : Accepts authorized s c' env → env.sourceID = x.1 →
      ((s.collectors c').IsNew env ↔ (s.collectors c').IsAbove env)) (h : Counted c x s n) :
    Counted c x (handlePush authorized s c' env).1
      (((handlePush authorized s c' env).2.map (appending c x)).sum + n) := by
  have hzero : ¬(c' = c ∧ env.sample = x) →
      ((if ((s.collectors c').checkDedup env).1 = true then [Task.store c' env] else []).map (appending c x)).sum = 0 := by
    intro hne
    split_ifs <;> simp [appending, hne]
  by_cases hacc : Accepts authorized s c' env
  · rw [handlePush_of_accepts authorized hacc]
    by_cases hc : c' = c
    · subst hc
      obtain ⟨htracks, hcount⟩ := h
      unfold Counted
      simp only [State.setCollector, update_self]
      refine ⟨htracks.checkDedup env, ?_⟩
      have hcopies : ((s.collectors c').checkDedup env).2.copies x = (s.collectors c').copies x := by
        rw [copies, checkDedup_store, copies]
      have hhas : ((s.collectors c').checkDedup env).2.Has x ↔ (s.collectors c').Has x ∨ env.sample = x := by
        simp [Has, checkDedup_arrived, or_and_right, exists_or]
      rw [hcopies]
      simp only [hhas]
      by_cases hx : env.sample = x
      · have hnew : (s.collectors c').IsNew env ↔ ¬(s.collectors c').Has x := by
          rw [← hx]
          simp [IsNew, Has]
        have hsource : env.sourceID = x.1 := congrArg Prod.fst hx
        have hpass := (checkDedup_iff htracks).trans ((hnum hacc hsource).symm.trans hnew)
        by_cases hold : (s.collectors c').Has x
        · rw [if_neg (mt hpass.mp (not_not.mpr hold))]
          simpa [hold] using hcount
        · rw [if_pos (hpass.mpr hold)]
          simp only [hold, if_false, false_or, hx, if_true] at hcount ⊢
          simp [appending, hx]
          omega
      · rw [hzero fun h => hx h.2, Nat.zero_add]
        simpa [hx] using hcount
    · rw [hzero fun h => hc h.1, Nat.zero_add]
      refine h.of_records ?_
      simp only [State.setCollector]
      rw [update_of_ne (Ne.symm hc)]
  · rw [handlePush_of_not_accepts authorized hacc]
    simpa using h

theorem Counted.store {c' : GoString} {w : Weather} {env : MetricEnvelope}
    (h : Counted c x s (appending c x (.store c' env) + n)) :
    Counted c x (exec authorized s w (.store c' env)).1
      (((exec authorized s w (.store c' env)).2.map (appending c x)).sum + n) := by
  have hzero : ((exec authorized s w (.store c' env)).2.map (appending c x)).sum = 0 := rfl
  rw [hzero, Nat.zero_add]
  by_cases hc : c' = c
  · subst hc
    obtain ⟨htracks, hcount⟩ := h
    unfold Counted
    simp only [exec, State.setCollector, update_self]
    refine ⟨htracks, ?_⟩
    change _ = if (s.collectors c').Has x then 1 else 0
    rw [← hcount]
    simp only [copies, Store.append, countP_append, countP_singleton, appending]
    by_cases hx : env.sample = x
    · have hkey : (env.sourceID, env.metrics.serial) = x := hx
      simp [hx, hkey]
      omega
    · have hkey : ¬(env.sourceID, env.metrics.serial) = x := hx
      simp [hx, hkey]
  · simp only [appending, hc, false_and, if_false, Nat.zero_add] at h
    refine h.of_records ?_
    simp only [exec, State.setCollector]
    rw [update_of_ne (Ne.symm hc)]

theorem counted_balances (c : GoString) (x : GoString × ℕ) :
    (reporting authorized).Balances (Numbered authorized x.1) (appending c x) (Counted c x) where
  start k := by cases k <;> rfl
  exec s w t n hnum h := by
    by_cases hpush : t.isPush = true
    · cases t with
      | deliver c' env =>
        rw [show appending c x (.deliver c' env) = 0 from rfl, Nat.zero_add] at h
        exact h.deliver authorized hnum
      | store c' env => exact Counted.store authorized (w := w) h
      | _ => cases hpush
    · obtain ⟨hrec, hzero⟩ := exec_frame authorized (Bool.eq_false_of_not_eq_true hpush) c x
      have hown : appending c x t = 0 := by
        cases t <;> first | rfl | exact absurd rfl hpush
      rw [hown, Nat.zero_add] at h
      change Counted c x _ (((Monitor.exec authorized s w t).2.map (appending c x)).sum + n)
      rw [hzero, Nat.zero_add]
      exact h.of_records hrec

theorem counted_init (collectors : GoString → List GoString) (c : GoString) (x : GoString × ℕ) :
    Counted c x (init collectors).state ((init collectors).weight (appending c x)) := by
  refine ⟨fun src e he => ?_, rfl⟩
  cases he

theorem stored_of_numbered {collectors : GoString → List GoString} {turns : List (Turn Weather Call)}
    (h : (reporting authorized).Allows (Numbered authorized x.1) (init collectors) turns) (c : GoString) :
    let p := (reporting authorized).run (init collectors) turns
    p.weight (appending c x) + (p.state.collectors c).copies x = if (p.state.collectors c).Has x then 1 else 0 :=
  ((counted_balances authorized c x).run h (counted_init collectors c x)).2

/-! ### Numbers that follow the samples -/

/-- The sequence number is the place of the sample. -/
def MetricEnvelope.InStep (env : MetricEnvelope) : Prop := env.sequence.toNat = env.metrics.serial + 1

/-- The reporter `r` is not restarted or flushed and takes fewer than `2 ^ 64` samples, and its envelopes reach every
collector in the order of their numbers. -/
def Orderly (r : GoString) (s : State) (_ : Weather) : Task → Prop
  | .tick r' => r' = r → (s.reporters r).collected + 1 < 2 ^ 64
  | .restart r' => r' ≠ r
  | .flushBuffer r' => r' ≠ r
  | .deliver c env => Accepts authorized s c env → env.sourceID = r →
      ∀ e ∈ (s.collectors c).arrived, e.sourceID = r → e.sequence ≤ env.sequence
  | _ => True

instance (r : GoString) (s : State) (w : Weather) : (t : Task) → Decidable (Orderly authorized r s w t)
  | .tick _ => inferInstanceAs (Decidable (_ → _))
  | .restart _ => inferInstanceAs (Decidable (_ ≠ _))
  | .flushBuffer _ => inferInstanceAs (Decidable (_ ≠ _))
  | .deliver _ _ => inferInstanceAs (Decidable (_ → _ → _))
  | .setCollectors _ _ | .flushRange _ _ _ | .flushNext _ _ _ _ | .flushPush _ _ _ _ _ _ | .setRunning _ _
  | .store _ _ | .forward _ _ | .send _ _ _ => isTrue trivial

/-- Envelopes are of the reporter that makes them; those of `r` are in step. -/
def LoopStage.Fits (r self : GoString) (collected : ℕ) : LoopStage → Prop
  | idle => True
  | stored m => self = r → m.serial + 1 = collected
  | checked m => self = r → m.serial + 1 = collected
  | numbered env => env.sourceID = self ∧ (self = r → env.InStep)
  | pushing env _ _ => env.sourceID = self ∧ (self = r → env.InStep)

def Task.Fits (r : GoString) : Task → Prop
  | .deliver _ env | .store _ env | .forward _ env | .send _ env _ => env.sourceID = r → env.InStep
  | .flushRange self _ _ | .flushNext self _ _ _ => self ≠ r
  | .flushPush self _ _ _ env _ => self ≠ r ∧ env.sourceID = self
  | _ => True

structure InStep (r : GoString) (s : State) : Prop where
  count : (s.reporters r).sequence.toNat = (s.reporters r).collected
  loops : ∀ self, (s.reporters self).loop.Fits r self (s.reporters self).collected
  arrived : ∀ c, ∀ e ∈ (s.collectors c).arrived, e.sourceID = r → e.InStep

section Steps
variable {r : GoString} {s : State} {w : Weather}

section
variable (h : InStep r s)
include h

theorem InStep.setReporter {self : GoString} {rep : Reporter}
    (hcount : self = r → rep.sequence.toNat = rep.collected) (hloop : rep.loop.Fits r self rep.collected) :
    InStep r (s.setReporter self rep) := by
  refine ⟨?_, fun other => ?_, h.arrived⟩
  · by_cases hr : r = self
    · subst hr
      simpa [State.setReporter] using hcount rfl
    · simpa [State.setReporter, update_of_ne hr] using h.count
  · by_cases ho : other = self
    · subst ho
      simpa [State.setReporter] using hloop
    · simpa [State.setReporter, update_of_ne ho] using h.loops other

theorem InStep.setCollector {c : GoString} {a : Aggregator}
    (ha : ∀ e ∈ a.arrived, e.sourceID = r → e.InStep) : InStep r (s.setCollector c a) := by
  refine ⟨h.count, h.loops, fun c' => ?_⟩
  by_cases hc : c' = c
  · subst hc
    simpa [State.setCollector] using ha
  · simpa [State.setCollector, update_of_ne hc] using h.arrived c'

theorem InStep.tick {self : GoString} (hroom : self = r → (s.reporters r).collected + 1 < 2 ^ 64) :
    InStep r (exec authorized s w (.tick self)).1 ∧ ∀ t ∈ (exec authorized s w (.tick self)).2, t.Fits r := by
  have hloop := h.loops self
  have hcount : self = r → (s.reporters self).sequence.toNat = (s.reporters self).collected := by
    rintro rfl
    exact h.count
  simp only [exec, Reporter.tick]
  cases hstage : (s.reporters self).loop with
  | idle =>
    cases w.sampled with
    | none => exact ⟨h.setReporter hcount hloop, by simp⟩
    | some time =>
      refine ⟨h.setReporter (fun hself => ?_) (fun _ => rfl), by simp⟩
      have hroom := hroom hself
      rw [← hself, ← hcount hself] at hroom
      rw [UInt64.toNat_add, UInt64.toNat_one, hcount hself, Nat.mod_eq_of_lt (by rwa [← hcount hself])]
  | stored m =>
    rw [hstage] at hloop
    refine ⟨h.setReporter hcount ?_, by simp⟩
    dsimp only
    split_ifs
    · trivial
    · exact hloop
  | checked m =>
    rw [hstage] at hloop
    refine ⟨h.setReporter hcount ⟨rfl, fun hself => ?_⟩, by simp⟩
    exact (hcount hself).trans (hloop hself).symm
  | numbered env =>
    rw [hstage] at hloop
    exact ⟨h.setReporter hcount hloop, by simp⟩
  | pushing env left pushed =>
    rw [hstage] at hloop
    cases left with
    | nil => exact ⟨h.setReporter hcount trivial, by simp⟩
    | cons c left =>
      refine ⟨h.setReporter hcount hloop, ?_⟩
      dsimp only
      split_ifs
      · exact forall_mem_singleton.mpr fun hsource => hloop.2 (hloop.1.symm.trans hsource)
      · exact forall_mem_nil _

theorem InStep.deliver {c : GoString} {env : MetricEnvelope} (hfits : env.sourceID = r → env.InStep) :
    InStep r (handlePush authorized s c env).1 ∧ ∀ t ∈ (handlePush authorized s c env).2, t.Fits r := by
  by_cases hacc : Accepts authorized s c env
  · rw [handlePush_of_accepts authorized hacc]
    refine ⟨h.setCollector ?_, ?_⟩
    · rw [checkDedup_arrived]
      exact forall_mem_append.mpr ⟨h.arrived c, forall_mem_singleton.mpr hfits⟩
    · split_ifs
      · exact forall_mem_singleton.mpr hfits
      · exact forall_mem_nil _
  · rw [handlePush_of_not_accepts authorized hacc]
    exact ⟨h, by simp⟩

theorem InStep.exec {t : Task} (hfits : t.Fits r) (hord : Orderly authorized r s w t) :
    InStep r (Monitor.exec authorized s w t).1 ∧ ∀ u ∈ (Monitor.exec authorized s w t).2, u.Fits r := by
  cases t with
  | tick self => exact h.tick authorized hord
  | setCollectors self collectors =>
    refine ⟨h.setReporter (fun hself => ?_) (h.loops self), by simp [Monitor.exec]⟩
    rw [hself]
    exact h.count
  | restart self => exact ⟨h.setReporter (fun hself => absurd hself hord) trivial, by simp [Monitor.exec]⟩
  | flushBuffer self =>
    refine ⟨h, ?_⟩
    simp only [Monitor.exec]
    split_ifs
    · exact forall_mem_nil _
    · exact forall_mem_singleton.mpr hord
  | flushRange self epoch collectors =>
    simp only [Monitor.exec]
    split_ifs
    · exact ⟨h, by simp⟩
    · exact ⟨h, by simpa [Task.Fits] using hfits⟩
  | flushNext self epoch collectors samples =>
    cases samples with
    | nil => exact ⟨h, by simp [Monitor.exec]⟩
    | cons m samples =>
      simp only [Monitor.exec]
      split_ifs
      · exact ⟨h, by simp⟩
      · exact ⟨h.setReporter (fun hself => absurd hself hfits) (h.loops self), by simpa [Task.Fits] using hfits⟩
  | flushPush self epoch collectors samples env left =>
    obtain ⟨hself, hsource⟩ := hfits
    have hother : env.sourceID = r → env.InStep := fun hr => absurd (hsource.symm.trans hr) hself
    cases left with
    | nil =>
      simp only [Monitor.exec]
      split_ifs
      · exact ⟨h, by simp⟩
      · exact ⟨h, by simpa [Task.Fits] using hself⟩
    | cons c left =>
      simp only [Monitor.exec]
      split_ifs
      · exact ⟨h, by simp⟩
      · exact ⟨h, by simpa [Task.Fits] using ⟨hother, hself⟩⟩
      · exact ⟨h, by simpa [Task.Fits] using ⟨hself, hsource⟩⟩
  | setRunning c running => exact ⟨h.setCollector (h.arrived c), by simp [Monitor.exec]⟩
  | deliver c env => exact h.deliver authorized hfits
  | store c env =>
    exact ⟨h.setCollector (h.arrived c), forall_mem_singleton.mpr hfits⟩
  | forward c env =>
    simp only [Monitor.exec]
    split_ifs
    · exact ⟨h, by simp⟩
    · exact ⟨h, forall_mem_singleton.mpr hfits⟩
  | send c env left =>
    cases left with
    | nil => exact ⟨h, by simp [Monitor.exec]⟩
    | cons p left =>
      simp only [Monitor.exec]
      split_ifs <;> exact ⟨h, by simpa [Task.Fits] using hfits⟩

theorem InStep.numbered {t : Task} (hfits : t.Fits r) (hord : Orderly authorized r s w t) :
    Numbered authorized r s w t := by
  cases t with
  | deliver c env =>
    intro hacc hsource
    have henv : env.sequence.toNat = env.metrics.serial + 1 := hfits hsource
    constructor
    · intro hnew e he hes
      have hle := hord hacc hsource e he (hes.trans hsource)
      have hstep : e.sequence.toNat = e.metrics.serial + 1 := h.arrived c e he (hes.trans hsource)
      have hne : e.metrics.serial ≠ env.metrics.serial := fun heq => hnew e he (Prod.ext hes heq)
      rw [UInt64.le_iff_toNat_le] at hle
      rw [UInt64.lt_iff_toNat_lt]
      omega
    · intro habove e he hsame
      have hes : e.sourceID = env.sourceID := congrArg Prod.fst hsame
      have hserial : e.metrics.serial = env.metrics.serial := congrArg Prod.snd hsame
      have hstep : e.sequence.toNat = e.metrics.serial + 1 := h.arrived c e he (hes.trans hsource)
      have hlt := habove e he hes
      rw [UInt64.lt_iff_toNat_lt] at hlt
      omega
  | _ => trivial

end

end Steps

theorem inStep_carries (r : GoString) :
    (reporting authorized).Carries (fun s w t _ => Orderly authorized r s w t)
      (fun s tasks => InStep r s ∧ ∀ t ∈ tasks, t.Fits r) where
  perm s l l' hperm h := ⟨h.1, fun t ht => h.2 t (hperm.mem_iff.mpr ht)⟩
  start s k l h := ⟨h.1, forall_mem_cons.mpr ⟨by cases k <;> trivial, h.2⟩⟩
  exec s w t l hord h := by
    obtain ⟨hs, htasks⟩ := h
    rw [forall_mem_cons] at htasks
    obtain ⟨hstep, hnext⟩ := hs.exec authorized htasks.1 hord
    exact ⟨hstep, forall_mem_append.mpr ⟨hnext, htasks.2⟩⟩

theorem inStep_init (r : GoString) (collectors : GoString → List GoString) : InStep r (init collectors).state :=
  ⟨rfl, fun _ => trivial, fun _ e he => by cases he⟩

/-- The samples of a source that is not restarted or flushed, and whose envelopes are not overtaken, are stored
exactly once by every running collector they reach. -/
theorem samples_stored_once {collectors : GoString → List GoString} {turns : List (Turn Weather Call)} {r : GoString}
    (h : (reporting authorized).Allows (Orderly authorized r) (init collectors) turns) (c : GoString) (serial : ℕ) :
    let p := (reporting authorized).run (init collectors) turns
    (p.state.collectors c).copies (r, serial) ≤ 1 ∧
      ((p.state.collectors c).Has (r, serial) →
        (p.state.collectors c).copies (r, serial) + p.weight (appending c (r, serial)) = 1) := by
  have hnum : (reporting authorized).Allows (Numbered authorized r) (init collectors) turns :=
    (inStep_carries authorized r).allows
      (fun s w t l hord hi => hi.1.numbered authorized (hi.2 t mem_cons_self) hord) h.permits
      ⟨inStep_init r collectors, by simp [init]⟩
  have hcount := stored_of_numbered authorized (x := (r, serial)) hnum c
  dsimp only at hcount ⊢
  split_ifs at hcount with hhas
  · exact ⟨by omega, fun _ => by omega⟩
  · exact ⟨by omega, fun hh => absurd hh hhas⟩

/-! ### Runs with one reporter and one collector -/

/-- The reporter 1 pushes to the collector 9, and nobody is refused. -/
def pair : Pool State Task := init (fun _ => [[9]])

def everyone : GoString → GoString → Bool := fun _ _ => true

/-- Take a sample and push it, with `n` sections ready before; the envelope is then the last of the ready sections. -/
def pushTurns (n : ℕ) (time : Proxy.Time) : List (Turn Weather Call) :=
  [.call (.tick [1]), .exec n { sampled := some time }, .call (.tick [1]), .exec n {}, .call (.tick [1]), .exec n {},
    .call (.tick [1]), .exec n {}, .call (.tick [1]), .exec n {}, .call (.tick [1]), .exec (n + 1) {}]

/-- Deliver the first of the ready sections, store it, and find nobody to forward it to. -/
def deliverTurns (n : ℕ) : List (Turn Weather Call) := [.exec 0 {}, .exec n {}, .exec n {}, .exec n {}]

def pairRun (turns : List (Turn Weather Call)) : Aggregator :=
  ((reporting everyone).run pair turns).state.collectors [9]

def Settled (turns : List (Turn Weather Call)) : Prop := ((reporting everyone).run pair turns).ready.length = 0

instance (turns : List (Turn Weather Call)) : Decidable (Settled turns) := inferInstanceAs (Decidable (_ = _))

def twoInOrder : List (Turn Weather Call) := pushTurns 0 1 ++ deliverTurns 0 ++ (pushTurns 0 2 ++ deliverTurns 0)

theorem samples_stored_once_two :
    (pairRun twoInOrder).copies ([1], 0) ≤ 1 ∧ (pairRun twoInOrder).copies ([1], 0) = 1 ∧
      (pairRun twoInOrder).copies ([1], 1) = 1 := by
  have hord : (reporting everyone).Allows (Orderly everyone [1]) pair twoInOrder := by decide
  exact ⟨(samples_stored_once everyone hord [9] 0).1, by decide⟩

def flushedTurns : List (Turn Weather Call) :=
  pushTurns 0 1 ++ deliverTurns 0 ++
    [.call (.flushBuffer [1]), .exec 0 {}, .exec 0 { now := 1 }, .exec 0 {}, .exec 0 {}] ++ deliverTurns 1

def overtakenTurns : List (Turn Weather Call) :=
  pushTurns 0 1 ++ pushTurns 1 2 ++ [.exec 1 {}, .exec 1 {}, .exec 1 {}, .exec 1 {}] ++ deliverTurns 0

/-- After a restart the numbers start again, below those already seen. -/
def restartedTurns : List (Turn Weather Call) :=
  twoInOrder ++ [.call (.restart [1]), .exec 0 {}] ++ pushTurns 0 3 ++ deliverTurns 0

/-- A flushed sample is stored twice; an overtaken sample and one after a restart arrive and are not stored. -/
theorem samples_stored_wrongly :
    (pairRun flushedTurns).copies ([1], 0) = 2 ∧
      (Settled overtakenTurns ∧ (pairRun overtakenTurns).Has ([1], 0) ∧
        (pairRun overtakenTurns).copies ([1], 0) = 0) ∧
      (Settled restartedTurns ∧ (pairRun restartedTurns).Has ([1], 2) ∧
        (pairRun restartedTurns).copies ([1], 2) = 0) := by
  decide

end MeshDesk.Monitor
