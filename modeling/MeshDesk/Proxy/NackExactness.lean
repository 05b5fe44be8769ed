import MeshDesk.Proxy.ExitCalls

/-! What a NACK of the exit lists. Gaps are marked from the window base up to the arriving chunk, whatever is
buffered in between, and are cleared only when the base has passed them. -/
namespace MeshDesk.Proxy
open Lib ExitStreamState
open List

namespace ExitStreamState
variable {R : List UInt32} {st : ExitStreamState}

/-- What the stream holds, and everything below the number it waits for, was received. -/
structure Covered (R : List UInt32) (st : ExitStreamState) : Prop where
  chunks : ∀ q ∈ st.chunks, q ∈ R
  next : ∀ q < st.nextExpected, q ∈ R

theorem Covered.mono {R' : List UInt32} (h : st.Covered R) (hR : R ⊆ R') : st.Covered R' :=
  ⟨fun q hq => hR (h.chunks q hq), fun q hq => hR (h.next q hq)⟩

theorem covered_new (R : List UInt32) (now : Time) : (newExitStreamState now).Covered R := by
  refine ⟨fun q hq => absurd hq (AList.notMem_empty q), fun q hq => ?_⟩
  exact absurd hq (UInt32.not_lt.mpr (UInt32.le_iff_toNat_le.mpr (Nat.zero_le _)))

theorem Covered.store (h : st.Covered R) {seq : UInt32} (hseq : seq ∈ R) (payload : Bytes) :
    (st.store seq payload).Covered R := by
  refine ⟨fun q hq => ?_, h.next⟩
  rcases (AList.mem_insert _).mp hq with rfl | hq
  · exact hseq
  · exact h.chunks q hq

theorem Covered.noteTotal (h : st.Covered R) (total : UInt32) : (st.noteTotal total).Covered R := by
  unfold ExitStreamState.noteTotal
  split_ifs
  · exact ⟨h.chunks, h.next⟩
  · exact h

theorem Covered.takeNext (h : st.Covered R) {payload : Bytes}
    (hnext : st.chunks.lookup st.nextExpected = some payload) : (st.takeNext payload).Covered R := by
  refine ⟨fun q hq => h.chunks q (AList.mem_erase.mp hq).2, fun q hq => ?_⟩
  have hmem : st.nextExpected ∈ R := h.chunks _ (AList.lookup_isSome.mp (by rw [hnext]; rfl))
  have hlt : q.toNat < (st.nextExpected.toNat + 1) % 2 ^ 32 := by
    have hq' := UInt32.lt_iff_toNat_lt.mp hq
    simpa [ExitStreamState.takeNext, UInt32.toNat_add] using hq'
  by_cases heq : q = st.nextExpected
  · rw [heq]
    exact hmem
  · refine h.next q (UInt32.lt_iff_toNat_lt.mpr ?_)
    have hne : q.toNat ≠ st.nextExpected.toNat := fun h => heq (UInt32.toNat_inj.mp h)
    omega

theorem Covered.deliverLoop (h : st.Covered R) (fuel : ℕ) (totalBytes : ℤ) (result : Bytes) :
    (deliverLoop fuel totalBytes st result).2.2.Covered R := by
  induction fuel generalizing st totalBytes result with
  | zero => exact h
  | succ fuel ih =>
    unfold deliverLoop
    cases hnext : st.chunks.lookup st.nextExpected with
    | none => exact h
    | some payload => exact ih (h.takeNext hnext) _ _

theorem deliverLoop_totals (fuel : ℕ) (totalBytes : ℤ) (st : ExitStreamState) (result : Bytes) :
    (deliverLoop fuel totalBytes st result).2.2.total = st.total ∧
      (deliverLoop fuel totalBytes st result).2.2.totalSet = st.totalSet := by
  induction fuel generalizing st totalBytes result with
  | zero => exact ⟨rfl, rfl⟩
  | succ fuel ih =>
    unfold deliverLoop
    cases st.chunks.lookup st.nextExpected with
    | none => exact ⟨rfl, rfl⟩
    | some payload => exact ih _ _ _

theorem lt_total_of_noted {chunk : Chunk} (hrange : ¬ st.OutOfRange chunk)
    (hset : (st.noteTotal chunk.total).totalSet = true) : chunk.sequence < (st.noteTotal chunk.total).total := by
  unfold noteTotal at hset ⊢
  split_ifs at hset ⊢ with h
  · exact UInt32.not_le.mp fun hle => hrange (Or.inl ⟨h.1, hle⟩)
  · exact UInt32.not_le.mp fun hle => hrange (Or.inr ⟨hset, hle⟩)

end ExitStreamState

namespace ExitReassembler
variable {R : List UInt32} {r : ExitReassembler} {s : UInt32}

theorem storeData_covered {st : ExitStreamState} (h : st.Covered R) {chunk : Chunk} (hseq : chunk.sequence ∈ R)
    (hrange : ¬ st.OutOfRange chunk) (totalBytes : ℤ) :
    (storeData totalBytes st chunk).st.Covered R ∧
      ((storeData totalBytes st chunk).done = true → ∀ q ≤ chunk.sequence, q ∈ R) := by
  rw [storeData_eq]
  dsimp only [deliverContiguous]
  have hnoted := (h.store hseq chunk.payload).noteTotal chunk.total
  have hrange' : ¬ (st.store chunk.sequence chunk.payload).OutOfRange chunk := hrange
  generalize st.store chunk.sequence chunk.payload = stored at hnoted hrange'
  have hloop := hnoted.deliverLoop (stored.noteTotal chunk.total).chunks.size (totalBytes + chunk.payload.length) []
  have htotals := deliverLoop_totals (stored.noteTotal chunk.total).chunks.size
    (totalBytes + chunk.payload.length) (stored.noteTotal chunk.total) []
  generalize deliverLoop _ _ (stored.noteTotal chunk.total) [] = d at hloop htotals
  refine ⟨⟨hloop.chunks, hloop.next⟩, fun hdone q hq => hloop.next q ?_⟩
  obtain ⟨hset, hle⟩ : d.2.2.totalSet = true ∧ d.2.2.total ≤ d.2.2.nextExpected := by simpa using hdone
  rw [htotals.2] at hset
  rw [htotals.1] at hle
  have hlt := lt_total_of_noted hrange' hset
  exact UInt32.lt_of_lt_of_le (UInt32.lt_of_le_of_lt hq hlt) hle

/-- The streams' buffers hold received numbers only, as far as stream `s` is concerned. -/
def Covered (R : List UInt32) (s : UInt32) (r : ExitReassembler) : Prop :=
  ∀ st, r.streams.lookup s = some st → st.Covered R

theorem processChunk_covered {st : ExitStreamState} (h : st.Covered R) {chunk : Chunk} (hseq : chunk.sequence ∈ R)
    (htype : chunk.type ≠ .streamEnd) :
    (r.processChunk clampNonneg st chunk).st.Covered R ∧
      ((r.processChunk clampNonneg st chunk).done = true → ∀ q ≤ chunk.sequence, q ∈ R) := by
  have hp := processChunk_processed clampNonneg r st chunk
  generalize r.processChunk clampNonneg st chunk = p at hp
  cases hp with
  | ended ht | endedWith ht => exact absurd ht htype
  | stored _ _ hr => exact storeData_covered h hseq hr _
  | _ => exact ⟨h, nofun⟩

theorem addStreaming_covered (h : r.Covered R s) {chunk : Chunk} (hs : chunk.streamID = s) (hseq : chunk.sequence ∈ R)
    (htype : chunk.type ≠ .streamEnd) (now : Time) :
    (r.addStreaming now chunk).2.Covered R s ∧
      ((r.addStreaming now chunk).1.done = true → ∀ q ≤ chunk.sequence, q ∈ R) := by
  subst hs
  unfold addStreaming
  by_cases hl : r.Live chunk.streamID
  · have hentry : (r.entry chunk.streamID now).Covered R := by
      unfold entry
      cases hst : r.streams.lookup chunk.streamID with
      | none => exact covered_new R now
      | some st => exact h st hst
    obtain ⟨hcov, hdone⟩ := processChunk_covered hentry hseq htype
    rw [addStreamingWith_of_live clampNonneg hl]
    refine ⟨fun st hst => ?_, hdone⟩
    rw [settle_lookup_self] at hst
    split_ifs at hst
    obtain rfl := Option.some.inj hst
    exact hcov
  · rw [(add_of_not_live clampNonneg hl).1]
    exact ⟨h, nofun⟩

end ExitReassembler

namespace ExitCircuit

theorem mem_clearGaps {c : ExitCircuit} {q : UInt32} : q ∈ c.clearGaps.gapSeqs ↔ q ∈ c.gapSeqs ∧ ¬ q < c.ackBase := by
  unfold clearGaps
  rw [Map.mem_foldl_erase, mem_filter]
  refine and_congr_right fun hq => not_congr ?_
  exact ⟨fun h => of_decide_eq_true h.2, fun h => ⟨hq, decide_eq_true h⟩⟩

theorem missing_sorted (cfg : CircuitConfig) (c : ExitCircuit) : (c.missing cfg).Pairwise (· < ·) := by
  have hnodup : (c.missing cfg).Nodup :=
    (perm_insertionSort _ _).nodup_iff.mpr (Nodup.filter _ c.gapSeqs.keys_nodup)
  have hsorted : (c.missing cfg).Pairwise (· ≤ ·) := pairwise_insertionSort _ _
  exact (hsorted.and hnodup).imp fun h => UInt32.lt_of_le_of_ne h.1 h.2

theorem mem_missing {cfg : CircuitConfig} {c : ExitCircuit} {q : UInt32} :
    q ∈ c.missing cfg ↔ q ∈ c.gapSeqs ∧ (((c.nackRetryCount.lookup q).getD 0 : ℕ) : ℤ) < cfg.maxRetries := by
  unfold missing
  rw [mem_insertionSort, mem_filter, decide_eq_true_eq]
  rfl

/-- The gaps against what was received on stream `s` and the NACKs that were sent. -/
structure Tracks (s : UInt32) (R : List UInt32) (sent : List NACKMsg) (c : ExitCircuit) : Prop where
  active : c.state = .active
  base : ∀ q < c.ackBase, q ∈ R
  marked : ∀ q ∈ c.gapSeqs, ∃ r ∈ R, q < r
  missed : ∀ q ∉ R, (∃ r ∈ R, q < r) → q ∈ c.gapSeqs
  retries : ∀ q, (c.nackRetryCount.lookup q).getD 0 = sent.countP (fun nack => decide (q ∈ nack.missingSeqs))
  stream : c.reassembler.Covered R s

section Steps
variable {s : UInt32} {R : List UInt32} {sent : List NACKMsg} {c : ExitCircuit} {cfg : CircuitConfig} {now : Time}
  {path : PathIndex} {write : WriteOutcome} {chunk : Chunk}

theorem tracks_new (s : UInt32) (circuitID e2eKey : Bytes) (cfg : ChunkerConfig) (now : Time) :
    Tracks s [] [] (newExitCircuit circuitID e2eKey cfg now) where
  active := rfl
  base q hq := absurd hq (UInt32.not_lt.mpr (UInt32.le_iff_toNat_le.mpr (Nat.zero_le _)))
  marked q hq := absurd hq (AList.notMem_empty q)
  missed q _ h := by
    obtain ⟨r, hr, -⟩ := h
    cases hr
  retries q := rfl
  stream st hst := nomatch hst

theorem Tracks.touch (h : Tracks s R sent c) (now : Time) (path : PathIndex) (streamID : UInt32) :
    Tracks s R sent (c.touch now path streamID) :=
  ⟨h.active, h.base, h.marked, h.missed, h.retries, h.stream⟩

/-- The circuit when the gaps up to the chunk are marked and the reassembler has taken it. -/
def taken (c : ExitCircuit) (now : Time) (path : PathIndex) (chunk : Chunk) : ExitCircuit :=
  { (c.touch now path chunk.streamID).markGaps now chunk.sequence with
    reassembler := (c.reassembler.addStreaming now chunk).2 }

theorem Tracks.taken (h : Tracks s R sent c) (hs : chunk.streamID = s) (htype : chunk.type ≠ .streamEnd) (now : Time)
    (path : PathIndex) : Tracks s (R ++ [chunk.sequence]) sent (c.taken now path chunk) := by
  have hR : R ⊆ R ++ [chunk.sequence] := fun _ => mem_append_left _
  have hseq : chunk.sequence ∈ R ++ [chunk.sequence] := mem_append_right _ (mem_singleton_self _)
  have hcov : c.reassembler.Covered (R ++ [chunk.sequence]) s := fun st hst => (h.stream st hst).mono hR
  obtain ⟨⟨detected, seen, seqs, hc⟩, hmem⟩ := markGaps_marks (c.touch now path chunk.streamID) now chunk.sequence
  have hseqs : ∀ q, q ∈ seqs ↔ q ∈ c.gapSeqs ∨ c.ackBase ≤ q ∧ q < chunk.sequence := by
    intro q
    have hq := hmem q
    rw [hc] at hq
    exact hq
  unfold ExitCircuit.taken
  rw [hc]
  refine ⟨h.active, fun q hq => hR (h.base q hq), fun q hq => ?_, fun q hq hlow => ?_, h.retries, ?_⟩
  · rcases (hseqs q).mp hq with hq | hq
    · obtain ⟨r, hr, hlt⟩ := h.marked q hq
      exact ⟨r, hR hr, hlt⟩
    · exact ⟨chunk.sequence, hseq, hq.2⟩
  · refine (hseqs q).mpr ?_
    obtain ⟨r, hr, hlt⟩ := hlow
    rcases mem_append.mp hr with hr | hr
    · exact Or.inl (h.missed q (fun hq' => hq (hR hq')) ⟨r, hr, hlt⟩)
    · obtain rfl := mem_singleton.mp hr
      exact Or.inr ⟨UInt32.not_lt.mp fun hbase => hq (hR (h.base q hbase)), hlt⟩
  · exact (ExitReassembler.addStreaming_covered hcov hs hseq htype now).1

theorem Tracks.advance (h : Tracks s R sent c) (hs : chunk.streamID = s) {done : Bool}
    (hdone : done = true → ∀ q ≤ chunk.sequence, q ∈ R) : Tracks s R sent (c.advance chunk done) := by
  refine ⟨h.active, fun q hq => ?_, h.marked, h.missed, h.retries, h.stream⟩
  change q < c.nextAckBase chunk done at hq
  unfold nextAckBase at hq
  cases hnext : c.reassembler.nextExpected chunk.streamID with
  | some nextExp =>
    obtain ⟨st, hst, rfl⟩ := Option.map_eq_some_iff.mp hnext
    rw [hs] at hst
    rw [hnext] at hq
    dsimp only at hq
    split_ifs at hq
    · exact (h.stream st hst).next q hq
    · exact h.base q hq
  | none =>
    rw [hnext] at hq
    split_ifs at hq with hd
    · refine hdone hd q (UInt32.le_iff_toNat_le.mpr ?_)
      have hlt := UInt32.lt_iff_toNat_lt.mp hq
      rw [UInt32.toNat_add] at hlt
      have hone : (1 : UInt32).toNat = 1 := rfl
      omega
    · exact h.base q hq

theorem Tracks.clearGaps (h : Tracks s R sent c) : Tracks s R sent c.clearGaps := by
  refine ⟨h.active, h.base, fun q hq => h.marked q (mem_clearGaps.mp hq).1, fun q hq hlow => ?_, h.retries, h.stream⟩
  exact mem_clearGaps.mpr ⟨h.missed q hq hlow, fun hbase => hq (h.base q hbase)⟩

theorem Tracks.bump (h : Tracks s R sent c) (circuitID : Bytes) (streamID : UInt32) (sentAt : Option Time) :
    Tracks s R (sent ++ [⟨circuitID, streamID, c.missing cfg⟩])
      { c with
        nackRetryCount := (c.missing cfg).foldl
          (fun m seq => m.insert seq ((m.lookup seq).getD 0 + 1)) c.nackRetryCount
        lastNACKSent := sentAt } := by
  refine ⟨h.active, h.base, h.marked, h.missed, fun q => ?_, h.stream⟩
  have hnodup : (c.missing cfg).Nodup := (missing_sorted cfg c).imp fun h => UInt32.ne_of_lt h
  rw [Map.getD_lookup_foldl_count, h.retries, countP_append]
  congr 1
  by_cases hq : q ∈ c.missing cfg
  · rw [count_eq_one_of_mem hnodup hq]
    simp [hq]
  · rw [count_eq_zero_of_not_mem hq]
    simp [hq]

theorem handleChunk_taken (ha : c.state = .active) (hw : ¬ cfg.BeyondWindow c.ackBase chunk.sequence)
    (he : (c.reassembler.addStreaming now chunk).1.err = none) :
    (∃ res, c.handleChunk cfg now path write chunk = (res, c.taken now path chunk) ∧ res.nack = none ∧
        res.err = some .write) ∨
      ∃ data, c.handleChunk cfg now path write chunk =
        (c.taken now path chunk).finish cfg now chunk (c.reassembler.addStreaming now chunk).1.done data := by
  have hr : ((c.touch now path chunk.streamID).markGaps now chunk.sequence).reassembler = c.reassembler := by
    obtain ⟨_, _, _, hc⟩ := (markGaps_marks (c.touch now path chunk.streamID) now chunk.sequence).1
    rw [hc]
    rfl
  have hw' : ¬ cfg.BeyondWindow (c.touch now path chunk.streamID).ackBase chunk.sequence := hw
  unfold handleChunk
  rw [if_neg (not_not.mpr ha)]
  rw [if_neg hw']
  unfold accept
  rw [hr]
  dsimp only
  rw [he]
  split_ifs with hdata
  · exact Or.inr ⟨_, rfl⟩
  · cases write with
    | failed n => exact Or.inl ⟨_, rfl, rfl, rfl⟩
    | ok => exact Or.inr ⟨_, rfl⟩

/-- What a NACK lists, given what was received, the NACKs before it and the window base. -/
structure Lists (cfg : CircuitConfig) (R : List UInt32) (sent : List NACKMsg) (base : UInt32) (nack : NACKMsg) :
    Prop where
  sorted : nack.missingSeqs.Pairwise (· < ·)
  listed : ∀ q ∈ nack.missingSeqs, (∃ r ∈ R, q < r) ∧ base ≤ q ∧
    (sent.countP (fun nack => decide (q ∈ nack.missingSeqs)) : ℤ) < cfg.maxRetries
  complete : ∀ q ∉ R, (∃ r ∈ R, q < r) →
    (sent.countP (fun nack => decide (q ∈ nack.missingSeqs)) : ℤ) < cfg.maxRetries → q ∈ nack.missingSeqs

theorem Tracks.lists (h : Tracks s R sent c) (circuitID : Bytes) (streamID : UInt32) :
    Lists cfg R sent c.ackBase ⟨circuitID, streamID, c.clearGaps.missing cfg⟩ := by
  have hclear := h.clearGaps
  refine ⟨missing_sorted cfg _, fun q hq => ?_, fun q hq hlow hretry => ?_⟩
  · obtain ⟨hgap, hretry⟩ := mem_missing.mp hq
    rw [hclear.retries] at hretry
    exact ⟨hclear.marked q hgap, UInt32.not_lt.mp (mem_clearGaps.mp hgap).2, hretry⟩
  · refine mem_missing.mpr ⟨hclear.missed q hq hlow, ?_⟩
    rw [hclear.retries]
    exact hretry

theorem Tracks.finish (h : Tracks s R sent c) (cfg : CircuitConfig) (now : Time) (hs : chunk.streamID = s)
    {done : Bool} (hdone : done = true → ∀ q ≤ chunk.sequence, q ∈ R) (data : Bytes) :
    let out := c.finish cfg now chunk done data
    out.1.rejected = false ∧ Tracks s R (sent ++ out.1.nack.toList) out.2 ∧
      ∀ nack, out.1.nack = some nack → Lists cfg R sent out.2.ackBase nack := by
  have hadvance : Tracks s R sent (c.advance chunk done) := h.advance hs hdone
  have hclear := hadvance.clearGaps
  unfold ExitCircuit.finish
  rcases maybeGenerateNACK_cases cfg (c.advance chunk done).clearGaps now chunk.streamID with
    ⟨res, hres, hnone⟩ | hsent
  · rw [hres]
    rcases hnone with rfl | rfl
    all_goals
      refine ⟨rfl, ?_, nofun⟩
      rw [Option.toList_none, append_nil]
      exact hclear
  · rw [hsent]
    refine ⟨rfl, hclear.bump _ _ _, fun nack hnack => ?_⟩
    obtain rfl := Option.some.inj hnack
    exact hadvance.lists _ _

theorem Tracks.handleChunk (h : Tracks s R sent c) (hs : chunk.streamID = s) (htype : chunk.type ≠ .streamEnd)
    (hok : ∀ e, (c.handleChunk cfg now path write chunk).1.err ≠ some (.reassemble e)) :
    let out := c.handleChunk cfg now path write chunk
    Tracks s (R ++ if out.1.rejected then [] else [chunk.sequence]) (sent ++ out.1.nack.toList) out.2 ∧
      ∀ nack, out.1.nack = some nack →
        out.1.rejected = false ∧ Lists cfg (R ++ [chunk.sequence]) sent out.2.ackBase nack := by
  by_cases hw : cfg.BeyondWindow c.ackBase chunk.sequence
  · have hcall : c.handleChunk cfg now path write chunk =
        (⟨none, some (.window chunk.sequence c.ackBase cfg.maxWindow), [], []⟩, c.touch now path chunk.streamID) := by
      have hw' : cfg.BeyondWindow (c.touch now path chunk.streamID).ackBase chunk.sequence := hw
      unfold ExitCircuit.handleChunk
      rw [if_neg (not_not.mpr h.active)]
      rw [if_pos hw']
      rfl
    rw [hcall]
    refine ⟨?_, nofun⟩
    change Tracks s (R ++ []) (sent ++ []) _
    rw [append_nil, append_nil]
    exact h.touch now path chunk.streamID
  · have he : (c.reassembler.addStreaming now chunk).1.err = none := by
      have hcall := handleChunk_handled cfg c now path write chunk
      generalize c.handleChunk cfg now path write chunk = out at hcall hok
      cases hcall with
      | inactive hn => exact absurd h.active hn
      | window _ hw' => exact absurd hw' hw
      | rejected _ _ e => exact absurd rfl (hok e)
      | writeFailed _ _ he | delivered _ _ he => exact he
    have htaken := h.taken hs htype now path
    have hcov : c.reassembler.Covered (R ++ [chunk.sequence]) s :=
      fun st hst => (h.stream st hst).mono fun _ => mem_append_left _
    have hdone := (ExitReassembler.addStreaming_covered hcov hs
      (mem_append_right _ (mem_singleton_self _)) htype now).2
    rcases handleChunk_taken h.active hw he with ⟨res, hcall, hnack, herr⟩ | ⟨data, hcall⟩
    · rw [hcall]
      have hrej : res.rejected = false := by
        unfold HandleResult.rejected
        rw [herr]
      dsimp only
      rw [hrej, hnack]
      refine ⟨?_, nofun⟩
      rw [Option.toList_none, append_nil]
      exact htaken
    · rw [hcall]
      obtain ⟨hrej, htracks, hlists⟩ := htaken.finish cfg now hs hdone data
      dsimp only
      rw [hrej]
      exact ⟨htracks, fun nack hnack => ⟨rfl, hlists nack hnack⟩⟩

end Steps

def afterAll (cfg : CircuitConfig) (c : ExitCircuit) (evs : List ChunkEvent) : ExitCircuit :=
  evs.foldl (fun c ev => (c.handleChunk cfg ev.now ev.path ev.write ev.chunk).2) c

theorem handleAll_concat (cfg : CircuitConfig) (c : ExitCircuit) (evs : List ChunkEvent) (ev : ChunkEvent) :
    handleAll cfg c (evs ++ [ev]) = handleAll cfg c evs ++
      [(ev, ((afterAll cfg c evs).handleChunk cfg ev.now ev.path ev.write ev.chunk).1)] := by
  induction evs generalizing c with
  | nil => rfl
  | cons first evs ih =>
    rw [cons_append, handleAll, ih]
    rfl

end ExitCircuit

variable (calls : List (ChunkEvent × HandleResult))

def received : List UInt32 :=
  calls.flatMap (fun call => if call.2.rejected then [] else [call.1.chunk.sequence])

def nacksOf : List NACKMsg := calls.flatMap (fun call => call.2.nack.toList)

def timesNacked (q : UInt32) : ℕ :=
  (nacksOf calls).countP (fun nack => decide (q ∈ nack.missingSeqs))

open ExitCircuit

theorem tracks_afterAll {cfg : CircuitConfig} {s : UInt32} {c : ExitCircuit} {evs : List ChunkEvent}
    (hc : Tracks s [] [] c) (hstream : ∀ ev ∈ evs, ev.chunk.streamID = s ∧ ev.chunk.type ≠ .streamEnd)
    (hok : ∀ call ∈ handleAll cfg c evs, ∀ e, call.2.err ≠ some (.reassemble e)) :
    Tracks s (received (handleAll cfg c evs)) (nacksOf (handleAll cfg c evs)) (afterAll cfg c evs) := by
  induction evs using reverseRecOn with
  | nil => exact hc
  | append_singleton evs ev ih =>
    rw [handleAll_concat] at hok ⊢
    have hbefore := ih (forall_mem_append.mp hstream).1
      (forall_mem_append.mp hok).1
    have hlast := hstream ev (mem_append_right _ (mem_singleton_self _))
    have hcall : ∀ e, ((afterAll cfg c evs).handleChunk cfg ev.now ev.path ev.write ev.chunk).1.err ≠
        some (.reassemble e) := hok _ (mem_append_right _ (mem_singleton_self _))
    have hstep := (hbefore.handleChunk hlast.1 hlast.2 hcall).1
    unfold received nacksOf afterAll
    rw [flatMap_append, flatMap_append, foldl_append, flatMap_singleton, flatMap_singleton]
    exact hstep

/-- NACKs of a circuit with one stream that no stream-end chunk has ended, when the reassembler refused nothing: in
increasing order, every number that is missing below the highest one received is listed while its retries last. If
nothing but the highest number waits above the window base, nothing else is listed. -/
theorem nack_lists_missing (cfg : CircuitConfig) (chunkerCfg : ChunkerConfig) (circuitID e2eKey : Bytes) (start : Time)
    (s : UInt32) (evs : List ChunkEvent) (ev : ChunkEvent) (nack : NACKMsg)
    (hstream : ∀ e ∈ evs ++ [ev], e.chunk.streamID = s ∧ e.chunk.type ≠ .streamEnd)
    (hok : ∀ call ∈ handleAll cfg (newExitCircuit circuitID e2eKey chunkerCfg start) evs, ∀ e,
      call.2.err ≠ some (.reassemble e))
    (hnack : ((afterAll cfg (newExitCircuit circuitID e2eKey chunkerCfg start) evs).handleChunk cfg ev.now ev.path
      ev.write ev.chunk).1.nack = some nack) :
    let c := newExitCircuit circuitID e2eKey chunkerCfg start
    let R := received (handleAll cfg c (evs ++ [ev]))
    nack.missingSeqs.Pairwise (· < ·) ∧
      (∀ q, (∃ r ∈ R, q < r) → q ∉ R → (timesNacked (handleAll cfg c evs) q : ℤ) < cfg.maxRetries →
        q ∈ nack.missingSeqs) ∧
      ((∀ r ∈ R, (afterAll cfg c (evs ++ [ev])).ackBase ≤ r → ∀ r' ∈ R, r' ≤ r) →
        ∀ q, q ∈ nack.missingSeqs ↔
          (∃ r ∈ R, q < r) ∧ q ∉ R ∧ (timesNacked (handleAll cfg c evs) q : ℤ) < cfg.maxRetries) := by
  intro c R
  have hlast := hstream ev (mem_append_right _ (mem_singleton_self _))
  have hbefore : Tracks s (received (handleAll cfg c evs)) (nacksOf (handleAll cfg c evs)) (afterAll cfg c evs) :=
    tracks_afterAll (tracks_new s circuitID e2eKey chunkerCfg start)
      (forall_mem_append.mp hstream).1 hok
  -- A call that returns a NACK returns no error.
  have herr : ∀ e, ((afterAll cfg c evs).handleChunk cfg ev.now ev.path ev.write ev.chunk).1.err ≠
      some (.reassemble e) := by
    intro e
    have hcall := handleChunk_handled cfg (afterAll cfg c evs) ev.now ev.path ev.write ev.chunk
    generalize (afterAll cfg c evs).handleChunk cfg ev.now ev.path ev.write ev.chunk = out at hcall hnack
    cases hcall with
    | delivered _ _ _ _ err herr =>
      rcases herr with rfl | rfl <;> exact nofun
    | _ => cases hnack
  obtain ⟨hrej, hlists⟩ := (hbefore.handleChunk hlast.1 hlast.2 herr).2 nack hnack
  have hR : R = received (handleAll cfg c evs) ++ [ev.chunk.sequence] := by
    change received (handleAll cfg c (evs ++ [ev])) = _
    rw [handleAll_concat]
    unfold received
    rw [flatMap_append, flatMap_singleton]
    rw [hrej]
    rfl
  have hbase : (afterAll cfg c (evs ++ [ev])).ackBase =
      ((afterAll cfg c evs).handleChunk cfg ev.now ev.path ev.write ev.chunk).2.ackBase := by
    unfold afterAll
    rw [foldl_append]
    rfl
  rw [← hR, ← hbase] at hlists
  refine ⟨hlists.sorted, fun q hlow hq hretry => hlists.complete q hq hlow hretry, fun honly q => ⟨fun hq => ?_, ?_⟩⟩
  · obtain ⟨⟨r, hr, hlt⟩, hle, hretry⟩ := hlists.listed q hq
    exact ⟨⟨r, hr, hlt⟩, fun hqR => UInt32.not_le.mpr hlt (honly q hqR hle r hr), hretry⟩
  · rintro ⟨hlow, hq, hretry⟩
    exact hlists.complete q hq hlow hretry

/-- Chunk 0 is lost; chunk 1 arrives, and once more after the timeout. -/
theorem nack_lists_missing_zero :
    ∃ nack, ((afterAll defaultCircuitConfig freshCircuit [dataEvent 0 7 1 [1]]).handleChunk defaultCircuitConfig
        (6 * second) .path1 .ok ⟨7, 1, 0, .data, [1], 0⟩).1.nack = some nack ∧
      0 ∈ nack.missingSeqs ∧ 1 ∉ nack.missingSeqs := by
  obtain ⟨nack, hnack⟩ : ∃ nack, ((afterAll defaultCircuitConfig freshCircuit [dataEvent 0 7 1 [1]]).handleChunk
      defaultCircuitConfig (6 * second) .path1 .ok ⟨7, 1, 0, .data, [1], 0⟩).1.nack = some nack :=
    Option.isSome_iff_exists.mp (by decide)
  have hclean : ∀ call ∈ handleAll defaultCircuitConfig freshCircuit [dataEvent 0 7 1 [1]], call.2.err = none := by
    decide
  have hok : ∀ call ∈ handleAll defaultCircuitConfig freshCircuit [dataEvent 0 7 1 [1]], ∀ e,
      call.2.err ≠ some (.reassemble e) := by
    intro call hcall e he
    rw [hclean call hcall] at he
    cases he
  have hR : received (handleAll defaultCircuitConfig freshCircuit
      ([dataEvent 0 7 1 [1]] ++ [dataEvent (6 * second) 7 1 [1]])) = [1, 1] := by
    decide
  have hone : ∀ r ∈ received (handleAll defaultCircuitConfig freshCircuit
      ([dataEvent 0 7 1 [1]] ++ [dataEvent (6 * second) 7 1 [1]])), r = 1 := by
    rw [hR]
    simp
  have hexact := (nack_lists_missing defaultCircuitConfig defaultChunkerConfig [] [] 0 7 [dataEvent 0 7 1 [1]]
    (dataEvent (6 * second) 7 1 [1]) nack (by decide) hok hnack).2.2
    (fun r hr _ r' hr' => by rewrite [hone r hr, hone r' hr']; exact UInt32.le_refl 1)
  refine ⟨nack, hnack, (hexact 0).mpr ⟨⟨1, ?_, by decide⟩, fun h => ?_, by decide⟩, fun h => ?_⟩
  · exact hR ▸ mem_cons_self
  · exact absurd (hone 0 h) (by decide)
  · exact ((hexact 1).mp h).2.1 (hR ▸ mem_cons_self)

/-- Chunks 1 and 3 arrive: the NACK asks for 1 as well, which is buffered. -/
theorem nack_lists_buffered :
    received (handleAll defaultCircuitConfig freshCircuit
        [dataEvent 0 7 1 [1], dataEvent (6 * second) 7 3 [3]]) = [1, 3] ∧
      (nacksOf (handleAll defaultCircuitConfig freshCircuit
        [dataEvent 0 7 1 [1], dataEvent (6 * second) 7 3 [3]])).map NACKMsg.missingSeqs = [[0, 1, 2]] := by
  decide

end MeshDesk.Proxy
