import MeshDesk.Auth.AuditChain

/-! A log file cut off by a crash, and the log that goes on with what is left of it. -/
namespace MeshDesk.Auth
open Proxy (Bytes GoString)

section
variable (J : EntryJson) (H : Sha256)

/-- A limit of 0 bytes stands for no rotation. -/
def plainLogger (chain : UInt64 × GoString) : AuditLogger := ⟨0, 0, chain.1, chain.2⟩

def newAuditFileLogger (dir : AuditDir) : AuditLogger := plainLogger (recoverChain J H dir)

/-- The directory with the file alone; opening creates it empty. -/
def soleFile (content : Bytes) : AuditDir := Function.update (fun _ => none) 0 (some content)

/-- The file after it was opened with this content and the entries were logged, each at its time. -/
def logTo (content : Bytes) (entries : List (AuditEntry × GoString)) : Bytes :=
  let start := (newAuditFileLogger J H (soleFile content), soleFile content)
  ((entries.foldl (fun s e => s.1.log J H s.2 e.1 e.2) start).2 0).getD []

def stamped (chain : UInt64 × GoString) (e : AuditEntry × GoString) : AuditEntry := (plainLogger chain).stamp e.1 e.2

def chainNext (chain : UInt64 × GoString) (e : AuditEntry × GoString) : UInt64 × GoString :=
  (chain.1 + 1, hashEntry H (J.marshal (stamped chain e)))

/-- The entries with their numbers and hashes. -/
def records : UInt64 × GoString → List (AuditEntry × GoString) → List AuditEntry
  | _, [] => []
  | chain, e :: rest => stamped chain e :: records (chainNext J H chain e) rest

end

variable {J : EntryJson} {H : Sha256} {chain : UInt64 × GoString} {es es' : List (AuditEntry × GoString)}

theorem records_append : records J H chain (es ++ es') =
    records J H chain es ++ records J H (es.foldl (chainNext J H) chain) es' := by
  induction es generalizing chain with
  | nil => rfl
  | cons e es ih => simp only [List.cons_append, records, ih, List.foldl_cons]

theorem foldl_log {dir : AuditDir} {data : Bytes} (hdir : dir 0 = some data) :
    (es.foldl (fun s e => s.1.log J H s.2 e.1 e.2) (plainLogger chain, dir)).2 0 =
      some (data ++ fileOf ((records J H chain es).map J.marshal)) := by
  induction es generalizing chain dir data with
  | nil => simpa [records, fileOf] using hdir
  | cons e es ih =>
    have hnext : (plainLogger chain).log J H dir e.1 e.2 = (plainLogger (chainNext J H chain e),
        Function.update dir 0 (some (data ++ (J.marshal (stamped chain e) ++ [0x0a])))) := by
      simp [AuditLogger.log, chainNext, stamped, plainLogger, maybeRotate, hdir]
    rw [List.foldl_cons, hnext, ih (Function.update_self _ _ _)]
    simp [records, fileOf]

theorem isLine_of_mem_records (hJ : J.Faithful) : ∀ line ∈ (records J H chain es).map J.marshal, IsLine line :=
  List.forall_mem_map.mpr fun e _ => hJ.isLine e

/-- A whole file gives back the end of the chain it was written in. -/
theorem recoverChain_fileOf (hJ : J.Faithful) (hexact : ∀ e ∈ records J H (0, []) es, J.unmarshal (J.marshal e) = .ok e)
    {dir : AuditDir} (hfile : dir 0 = some (fileOf ((records J H (0, []) es).map J.marshal))) (hno : ∀ i, dir (i + 1) = none) :
    recoverChain J H dir = es.foldl (chainNext J H) (0, []) := by
  obtain rfl | ⟨es, e, rfl⟩ := es.eq_nil_or_concat'
  · exact recoverChain_of_none (by rw [hfile]; rfl) hno
  · rw [records_append] at hexact hfile
    have hlast := hexact _ (List.mem_append_right _ (List.mem_singleton_self _))
    have hscan : scanChain J H (dir 0) = some (chainNext J H (es.foldl (chainNext J H) (0, [])) e) := by
      rw [hfile, scanChain, splitLines_fileOf (records_append ▸ isLine_of_mem_records hJ)]
      simp [records, (hJ.isLine _).trimSpace_eq, (hJ.isLine _).ne_nil, hlast]
      rfl
    rw [recoverChain, hscan, List.foldl_append]
    rfl

theorem logTo_fileOf (hJ : J.Faithful) (hexact : ∀ e ∈ records J H (0, []) es, J.unmarshal (J.marshal e) = .ok e) :
    logTo J H (fileOf ((records J H (0, []) es).map J.marshal)) es' =
      fileOf ((records J H (0, []) (es ++ es')).map J.marshal) := by
  rw [logTo, newAuditFileLogger, recoverChain_fileOf hJ hexact rfl fun i => rfl, foldl_log rfl, records_append]
  simp [fileOf]

/-- The cut is at the end of an entry: the log goes on as if it had never stopped. -/
theorem reopened_log_continues (hJ : J.Faithful) (es es' : List (AuditEntry × GoString)) (n k : ℕ)
    (hexact : ∀ e ∈ records J H (0, []) (es.take k ++ es'), J.unmarshal (J.marshal e) = .ok e)
    (hcut : (logTo J H [] es).take n = logTo J H [] (es.take k)) :
    (splitLines (logTo J H ((logTo J H [] es).take n) es')).map J.unmarshal =
      (records J H (0, []) (es.take k ++ es')).map .ok := by
  have hfirst : ∀ e ∈ records J H (0, []) (es.take k), J.unmarshal (J.marshal e) = .ok e := by
    intro e he
    refine hexact e ?_
    rw [records_append]
    exact List.mem_append_left _ he
  have hfile : logTo J H [] (es.take k) = fileOf ((records J H (0, []) (es.take k)).map J.marshal) :=
    @logTo_fileOf J H [] (es.take k) hJ (List.forall_mem_nil _)
  rw [hcut, hfile, logTo_fileOf hJ hfirst, splitLines_fileOf (isLine_of_mem_records hJ), List.map_map]
  exact List.map_congr_left hexact

/-- Two entries, of which the second is cut off. -/
theorem reopened_log_after_first :
    let log := logTo plainJson suffixHash
    let left := (log [] [(blankEntry, [0x31]), (blankEntry, [0x32])]).take (log [] [(blankEntry, [0x31])]).length
    (splitLines (log left [(blankEntry, [0x33])])).map plainJson.unmarshal =
      (records plainJson suffixHash (0, []) [(blankEntry, [0x31]), (blankEntry, [0x33])]).map .ok :=
  reopened_log_continues plainJson_faithful [(blankEntry, [0x31]), (blankEntry, [0x32])] [(blankEntry, [0x33])] _ 1
    (fun e _ => plainJson_exact e) (by decide)

/-- The cut takes the end of the line, or some of the entry as well: the next entry is written on the same line. -/
theorem reopened_log_merges :
    let file := logTo plainJson suffixHash [] [(blankEntry, [0x31])]
    ∀ n ∈ [file.length - 1, file.length - 2],
      ∀ line ∈ splitLines (logTo plainJson suffixHash (file.take n) [(blankEntry, [0x32])]),
        (plainJson.unmarshal line).toOption.map AuditEntry.timestamp ≠ some [0x32] := by
  decide

end MeshDesk.Auth
