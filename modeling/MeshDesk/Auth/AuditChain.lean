import MeshDesk.Auth.Audit

/-! What the verifier accepts: the chained files. Two of them with the same last line are the same; a log
that has rotated starts in the middle of its chain, which the verifier does not accept. -/
namespace MeshDesk.Auth
open Proxy (Bytes GoString)
open KeyExchange (hexEncode hexDigit hexDecode_hexEncode)
open Lib (Meets)
open List Function

def entryLines (data : Bytes) : List Bytes := ((splitLines data).map trimSpace).filter (· ≠ [])

abbrev ChainState := GoString × UInt64

def link (H : Sha256) (s : ChainState) (line : Bytes) : ChainState := (hashEntry H line, s.2 + 1)

def Carries (J : EntryJson) (s : ChainState) (line : Bytes) : Prop :=
  ∃ entry, J.unmarshal line = .ok entry ∧ entry.prevHash = s.1 ∧ entry.sequence = s.2

def Chained (J : EntryJson) (H : Sha256) (lines : List Bytes) : Prop := Meets (link H) (Carries J) ([], 1) lines

section
variable {J : EntryJson} {H : Sha256}

theorem verifyLines_ok_iff (i : ℕ) (prev : GoString) (seq : UInt64) (lines : List Bytes) :
    verifyLines J H i prev seq lines = .ok () ↔
      Meets (link H) (Carries J) (prev, seq) ((lines.map trimSpace).filter (· ≠ [])) := by
  induction lines generalizing i prev seq with
  | nil => exact ⟨fun _ => trivial, fun _ => rfl⟩
  | cons line rest ih =>
    rw [verifyLines, map_cons]
    split_ifs with hblank
    · rw [ih, filter_cons_of_neg (by simpa using hblank)]
    rw [filter_cons_of_pos (by simpa using hblank)]
    cases hparse : J.unmarshal (trimSpace line) with
    | error err => simp [Meets, Carries, hparse]
    | ok entry =>
      dsimp only
      split_ifs with hprev hseq
      · simp [Meets, Carries, hparse, hprev]
      · simp [Meets, Carries, hparse, hseq]
      · rw [ih]
        have hcarries : Carries J (prev, seq) (trimSpace line) := ⟨entry, hparse, not_not.mp hprev, not_not.mp hseq⟩
        exact ⟨fun h => ⟨hcarries, h⟩, And.right⟩

theorem verifyHashChain_ok_iff (data : Bytes) :
    verifyHashChain J H (some data) = .ok () ↔ Chained J H (entryLines data) :=
  verifyLines_ok_iff 0 [] 1 (splitLines data)

theorem hexEncode_length (bs : Bytes) : (hexEncode bs).length = 2 * bs.length := by
  induction bs with
  | nil => rfl
  | cons b bs ih =>
    have hcons : (hexEncode (b :: bs)).length = (hexEncode bs).length + 2 := rfl
    rw [hcons, ih, length_cons]
    ring

theorem hexEncode_injective : Injective hexEncode := by
  intro a b h
  have hdecode := congrArg KeyExchange.hexDecode h
  rw [hexDecode_hexEncode, hexDecode_hexEncode] at hdecode
  exact Option.some.inj hdecode

theorem hashEntry_ne_nil (line : Bytes) : hashEntry H line ≠ [] := by
  apply ne_nil_of_length_pos
  rw [hashEntry, hexEncode_length, H.size]
  decide

variable {s : AuditState} {line : Bytes} {lines older backup current : List Bytes}

theorem Carries.state_eq {s s' : ChainState} (h : Carries J s line) (h' : Carries J s' line) : s = s' := by
  obtain ⟨entry, hparse, hprev, hseq⟩ := h
  obtain ⟨entry', hparse', hprev', hseq'⟩ := h'
  obtain rfl : entry = entry' := Except.ok.inj (hparse.symm.trans hparse')
  exact Prod.ext (hprev.symm.trans hprev') (hseq.symm.trans hseq')

/-- Two accepted files that end in the same line have the same lines. The hash need only tell the lines of the
two files apart. -/
theorem verified_files_eq (J : EntryJson) (H : Sha256) (data data' : Bytes)
    (hinj : Set.InjOn H.sum256 {line | line ∈ entryLines data ∨ line ∈ entryLines data'})
    (hok : verifyHashChain J H (some data) = .ok ()) (hok' : verifyHashChain J H (some data') = .ok ())
    (hlast : (entryLines data).getLast? = (entryLines data').getLast?) : entryLines data = entryLines data' := by
  rw [verifyHashChain_ok_iff] at hok hok'
  refine Meets.eq_of_getLast? (fun s s' line h h' => h.state_eq h') ?_ ?_ hok hok' hlast
  · intro s s' line hline line' hline' heq
    have hhash : hashEntry H line = hashEntry H line' := congrArg Prod.fst heq
    exact hinj (.inl hline) (.inr hline') (hexEncode_injective hhash)
  · intro s line heq
    exact hashEntry_ne_nil line (congrArg Prod.fst heq)

/-! ### Lines as the log writes them -/

structure IsLine (line : Bytes) : Prop where
  object : ∃ body, line = 0x7b :: (body ++ [0x7d])
  oneLine : 0x0a ∉ line

def fileOf (lines : List Bytes) : Bytes := lines.flatMap (· ++ [0x0a])

theorem trimFront_of_forall {set : List Bytes} {data : Bytes} (n : ℕ) (h : ∀ c ∈ set, c.isPrefixOf data = false) :
    trimFront set n data = data := by
  cases n with
  | zero => rfl
  | succ n =>
    have hnone : set.find? (·.isPrefixOf data) = none :=
      find?_eq_none.mpr (fun c hc => by rw [h c hc]; exact Bool.false_ne_true)
    rw [trimFront, hnone]

theorem IsLine.trimSpace_eq (h : IsLine line) : trimSpace line = line := by
  obtain ⟨body, rfl⟩ := h.object
  have hfront : ∀ c ∈ spaces, c.isPrefixOf (0x7b :: (body ++ [0x7d])) = false := by simp [spaces, isPrefixOf]
  have hback : ∀ c ∈ spaces.map reverse, c.isPrefixOf (0x7b :: (body ++ [0x7d])).reverse = false := by
    simp [spaces, isPrefixOf]
  rw [trimSpace, trimFront_of_forall _ hfront, trimFront_of_forall _ hback, reverse_reverse]

theorem IsLine.ne_nil (h : IsLine line) : line ≠ [] := by
  obtain ⟨body, rfl⟩ := h.object
  exact cons_ne_nil _ _

theorem fileOf_eq_intercalate (h : lines ≠ []) : fileOf lines = [0x0a].intercalate lines ++ [0x0a] := by
  induction lines with
  | nil => exact absurd rfl h
  | cons line lines ih =>
    cases lines with
    | nil => simp [fileOf]
    | cons line' lines =>
      have hcons : fileOf (line :: line' :: lines) = line ++ [0x0a] ++ fileOf (line' :: lines) := rfl
      rw [hcons, ih (cons_ne_nil _ _)]
      simp

theorem splitLines_fileOf (h : ∀ line ∈ lines, IsLine line) : splitLines (fileOf lines) = lines := by
  by_cases hnil : lines = []
  · subst hnil
    rfl
  · rw [fileOf_eq_intercalate hnil, splitLines, if_neg (by simp), if_pos getLast?_concat, dropLast_concat]
    exact splitOn_intercalate _ (fun line hline => (h line hline).oneLine) hnil

theorem entryLines_fileOf (h : ∀ line ∈ lines, IsLine line) : entryLines (fileOf lines) = lines := by
  have htrim : lines.map trimSpace = lines :=
    (map_congr_left (fun line hline => (h line hline).trimSpace_eq)).trans (map_id lines)
  rw [entryLines, splitLines_fileOf h, htrim, filter_eq_self]
  intro line hline
  simpa using (h line hline).ne_nil

theorem EntryJson.Faithful.isLine (hJ : J.Faithful) (e : AuditEntry) : IsLine (J.marshal e) :=
  ⟨hJ.object e, hJ.oneLine e⟩

/-! ### What a run leaves in the files -/

theorem foldl_link_concat (s : ChainState) (lines : List Bytes) (line : Bytes) :
    (lines ++ [line]).foldl (link H) s = (hashEntry H line, (lines.foldl (link H) s).2 + 1) := by
  rw [foldl_append]
  rfl

theorem hashEntry_ascii (line : Bytes) : ∀ c ∈ hashEntry H line, c < 0x80 :=
  KeyExchange.forall_mem_hexEncode (by decide) _

theorem foldl_link_ascii (lines : List Bytes) : ∀ c ∈ (lines.foldl (link H) ([], 1)).1, c < 0x80 := by
  obtain rfl | ⟨lines, line, rfl⟩ := lines.eq_nil_or_concat'
  · simp
  · rw [foldl_link_concat]
    exact hashEntry_ascii line

theorem scanChain_fileOf {s : ChainState}
    (hlines : ∀ l ∈ lines ++ [line], IsLine l) (hchain : Meets (link H) (Carries J) s (lines ++ [line])) :
    ∃ found, scanChain J H (some (fileOf (lines ++ [line]))) = some found ∧
      (found.2, found.1 + 1) = (lines ++ [line]).foldl (link H) s := by
  have hline : IsLine line := hlines line (by simp)
  obtain ⟨entry, hparse, -, hseq⟩ := (Lib.Meets.concat_iff.mp hchain).2
  refine ⟨(entry.sequence, hashEntry H line), ?_, ?_⟩
  · rw [scanChain, splitLines_fileOf hlines, foldl_append, foldl_cons, foldl_nil, hline.trimSpace_eq,
      if_neg hline.ne_nil, hparse]
  · rw [foldl_link_concat, hseq]

/-- The files of a log in use: `older` lines are gone or in backups further back, `backup` is in `.1`. Before the
first rotation there is no backup at all. -/
structure Recorded (J : EntryJson) (H : Sha256) (s : AuditState) (older backup current : List Bytes) : Prop where
  chained : Chained J H (older ++ backup ++ current)
  isLine : ∀ line ∈ older ++ backup ++ current, IsLine line
  currentFile : s.dir 0 = some (fileOf current)
  backupFile : (∀ i, s.dir (i + 1) = none) ∧ older = [] ∧ backup = [] ∨ s.dir 1 = some (fileOf backup) ∧ backup ≠ []
  logger : ∀ a, s.logger = some a →
    (a.prevHash, a.sequence + 1) = (older ++ backup ++ current).foldl (link H) ([], 1)

theorem recoverChain_of_none {dir : AuditDir} (hzero : scanChain J H (dir 0) = none) (hno : ∀ i, dir (i + 1) = none) :
    recoverChain J H dir = (0, []) := by
  have hbackups : (range defaultAuditMaxRotates).findSome? (fun i => scanChain J H (dir (i + 1))) = none :=
    findSome?_eq_none_iff.mpr fun i _ => by rw [hno i]; rfl
  rw [recoverChain, hzero, hbackups]
  rfl

theorem Recorded.recoverChain_eq
    (h : Recorded J H s older backup current) {found : UInt64 × GoString} (hfound : recoverChain J H s.dir = found) :
    (found.2, found.1 + 1) = (older ++ backup ++ current).foldl (link H) ([], 1) := by
  subst hfound
  have hchain := h.chained
  rw [Chained, Lib.Meets.append_iff] at hchain
  obtain rfl | ⟨lines, line, rfl⟩ := current.eq_nil_or_concat'
  · have hnone : scanChain J H (s.dir 0) = none := by rw [h.currentFile]; rfl
    rcases h.backupFile with ⟨hno, rfl, rfl⟩ | ⟨hone, hne⟩
    · rw [recoverChain_of_none hnone hno]
      rfl
    · obtain rfl | ⟨lines, line, rfl⟩ := backup.eq_nil_or_concat'
      · exact absurd rfl hne
      have hbackup := (Lib.Meets.append_iff.mp hchain.1).2
      obtain ⟨found, hfound, hstate⟩ := scanChain_fileOf (fun l hl => h.isLine l (by simp at hl ⊢; tauto)) hbackup
      have hrecover : recoverChain J H s.dir = found := by
        simp [recoverChain, hnone, defaultAuditMaxRotates, range_succ, hone, hfound]
      rw [hrecover, hstate, append_nil, ← foldl_append]
  · obtain ⟨found, hfound, hstate⟩ := scanChain_fileOf (fun l hl => h.isLine l (by simp at hl ⊢; tauto)) hchain.2
    have hrecover : recoverChain J H s.dir = found := by rw [recoverChain, h.currentFile, hfound]
    rw [hrecover, hstate, ← foldl_append]

theorem shiftBackups_zero (maxBackups i : ℕ) (dir : AuditDir) : shiftBackups maxBackups i dir 0 = dir 0 := by
  induction i generalizing dir with
  | zero => rfl
  | succ i ih =>
    rw [shiftBackups, ih]
    split_ifs with hnone hlast
    · rfl
    · exact update_of_ne (by omega) _ _
    · rw [AuditDir.rename]
      cases dir (i + 1) with
      | none => rfl
      | some data => exact (update_of_ne (by omega) _ _).trans (update_of_ne (by omega) _ _)

theorem maybeRotate_cases (a : AuditLogger) {dir : AuditDir} {data : Bytes} (h : dir 0 = some data) :
    maybeRotate a dir = dir ∨ maybeRotate a dir 0 = some [] ∧ maybeRotate a dir 1 = some data := by
  unfold maybeRotate
  split_ifs with hoff hsmall
  · exact .inl rfl
  · exact .inl rfl
  · have hrename : (shiftBackups a.maxBackups a.maxBackups dir).rename 0 1 1 = some data := by
      rw [AuditDir.rename, shiftBackups_zero, h]
      exact (update_of_ne (by omega) _ _).trans (update_self _ _ _)
    exact .inr ⟨update_self _ _ _, (update_of_ne (by omega) _ _).trans hrename⟩

section
variable (h : Recorded J H s older backup current)
include h

theorem Recorded.restart (maxBytes maxBackups : ℤ) :
    Recorded J H (s.step J H (.restart maxBytes maxBackups)) older backup current := by
  have hopen : s.dir.openFile = s.dir := by
    rw [AuditDir.openFile, h.currentFile, Option.getD_some, ← h.currentFile, update_eq_self]
  rw [AuditState.step, hopen]
  refine ⟨h.chained, h.isLine, h.currentFile, h.backupFile, ?_⟩
  rintro _ ⟨rfl⟩
  exact h.recoverChain_eq rfl

theorem Recorded.write (hJ : J.Faithful) {a : AuditLogger} (ha : s.logger = some a) (e : AuditEntry)
    (hseq : e.sequence = a.sequence + 1) (hprev : e.prevHash = a.prevHash) (a' : AuditLogger)
    (hseq' : a'.sequence = a.sequence + 1) (hprev' : a'.prevHash = hashEntry H (J.marshal e)) :
    Recorded J H ⟨update s.dir 0 (some ((s.dir 0).getD [] ++ J.marshal e ++ [0x0a])), some a'⟩ older backup
      (current ++ [J.marshal e]) := by
  have hstate := h.logger a ha
  have hascii := foldl_link_ascii (H := H) (older ++ backup ++ current)
  rw [← hstate] at hascii
  obtain ⟨e', hparse, hs, hp⟩ := hJ.readBack e (by rw [hprev]; exact hascii)
  have hcarries : Carries J ((older ++ backup ++ current).foldl (link H) ([], 1)) (J.marshal e) := by
    rw [← hstate]
    exact ⟨e', hparse, hp.trans hprev, hs.trans hseq⟩
  constructor
  · rw [← append_assoc]
    exact Lib.Meets.concat_iff.mpr ⟨h.chained, hcarries⟩
  · rw [← append_assoc]
    exact forall_mem_append.mpr ⟨h.isLine, forall_mem_singleton.mpr (hJ.isLine e)⟩
  · rw [h.currentFile]
    simp [fileOf]
  · dsimp only
    rcases h.backupFile with ⟨hno, hnil⟩ | ⟨hone, hne⟩
    · refine .inl ⟨fun i => ?_, hnil⟩
      rw [update_of_ne (Nat.succ_ne_zero i), hno]
    · rw [update_of_ne Nat.one_ne_zero]
      exact .inr ⟨hone, hne⟩
  · rintro _ ⟨rfl⟩
    rw [← append_assoc, foldl_link_concat, hseq', hprev', ← hstate]

theorem Recorded.rotate (hne : current ≠ []) {dir : AuditDir} (hzero : dir 0 = some []) (hone : dir 1 = some (fileOf current)) :
    Recorded J H ⟨dir, s.logger⟩ (older ++ backup) current [] := by
  constructor
  · rw [append_nil]
    exact h.chained
  · rw [append_nil]
    exact h.isLine
  · exact hzero
  · exact .inr ⟨hone, hne⟩
  · rw [append_nil]
    exact h.logger

theorem Recorded.log (hJ : J.Faithful) (entry : AuditEntry) (now : GoString) :
    ∃ older backup current, Recorded J H (s.step J H (.log entry now)) older backup current := by
  rw [AuditState.step]
  cases ha : s.logger with
  | none => exact ⟨older, backup, current, h⟩
  | some a =>
    have hwrite := h.write hJ ha (a.stamp entry now) rfl rfl
      ⟨a.maxBytes, a.maxBackups, a.sequence + 1, hashEntry H (J.marshal (a.stamp entry now))⟩ rfl rfl
    dsimp only [AuditLogger.log]
    rcases maybeRotate_cases _ hwrite.currentFile with hkeep | ⟨hzero, hone⟩
    · rw [hkeep]
      exact ⟨_, _, _, hwrite⟩
    · exact ⟨_, _, _, hwrite.rotate (by simp) hzero hone⟩

end

theorem Recorded.step (hJ : J.Faithful) (h : ∃ older backup current, Recorded J H s older backup current)
    (op : AuditOp) : ∃ older backup current, Recorded J H (s.step J H op) older backup current := by
  obtain ⟨older, backup, current, h⟩ := h
  cases op with
  | restart maxBytes maxBackups => exact ⟨older, backup, current, h.restart maxBytes maxBackups⟩
  | log entry now => exact h.log hJ entry now

theorem recorded_open (maxBytes maxBackups : ℤ) :
    Recorded J H (AuditState.init.step J H (.restart maxBytes maxBackups)) [] [] [] := by
  have hno : ∀ i, AuditState.init.dir.openFile (i + 1) = none := fun i => update_of_ne (Nat.succ_ne_zero i) _ _
  refine ⟨trivial, by simp, rfl, .inl ⟨hno, rfl, rfl⟩, ?_⟩
  rintro _ ⟨rfl⟩
  rfl

theorem recorded_run (hJ : J.Faithful) (maxBytes maxBackups : ℤ) (ops : List AuditOp) :
    ∃ older backup current, Recorded J H (AuditState.run J H (.restart maxBytes maxBackups :: ops)) older backup current := by
  rw [AuditState.run, foldl_cons]
  refine foldlRecOn (motive := fun s => ∃ older backup current, Recorded J H s older backup current) ops _ ?_ ?_
  · exact ⟨_, _, _, recorded_open maxBytes maxBackups⟩
  · exact fun _ hs op _ => Recorded.step hJ hs op

theorem Recorded.verify_iff (h : Recorded J H s older backup current) :
    verifyHashChain J H (s.dir 0) = .ok () ↔ s.dir 1 = none ∨ s.dir 0 = some [] := by
  have hlines : ∀ line ∈ current, IsLine line := fun line hline => h.isLine line (by simp [hline])
  rw [h.currentFile, verifyHashChain_ok_iff, entryLines_fileOf hlines]
  rcases h.backupFile with ⟨hno, rfl, rfl⟩ | ⟨hone, hne⟩
  · exact ⟨fun _ => .inl (hno 0), fun _ => h.chained⟩
  cases current with
  | nil => exact ⟨fun _ => .inr rfl, fun _ => trivial⟩
  | cons line current =>
    constructor
    · -- the first line carries the hash of the last line of the backup, which is not empty
      intro hchain
      obtain rfl | ⟨lines, last, rfl⟩ := backup.eq_nil_or_concat'
      · exact absurd rfl hne
      have hcarries := (Lib.Meets.append_iff.mp h.chained).2.1
      rw [← append_assoc, foldl_link_concat] at hcarries
      exact absurd (congrArg Prod.fst (hcarries.state_eq hchain.1)) (hashEntry_ne_nil last)
    · rintro (hnone | hnil)
      · rw [hone] at hnone
        cases hnone
      · simp [fileOf] at hnil

/-- A log that is only ever written by `Log` verifies exactly as long as it has not rotated, or nothing has been
logged since it last rotated. -/
theorem honest_log_verifies_iff (J : EntryJson) (H : Sha256) (hJ : J.Faithful) (maxBytes maxBackups : ℤ)
    (ops : List AuditOp) :
    verifyHashChain J H ((AuditState.run J H (.restart maxBytes maxBackups :: ops)).dir 0) = .ok () ↔
      (AuditState.run J H (.restart maxBytes maxBackups :: ops)).dir 1 = none ∨
        (AuditState.run J H (.restart maxBytes maxBackups :: ops)).dir 0 = some [] := by
  obtain ⟨older, backup, current, h⟩ := recorded_run hJ maxBytes maxBackups ops
  exact h.verify_iff

end

/-! ### A log that fails its own verification -/

/-- An encoding of entries that meets the laws: the fields in hexadecimal, separated by commas. -/
def plainJson : EntryJson where
  marshal e := 0x7b :: ([0x2c].intercalate [hexEncode (Lib.toBE 8 e.sequence.toNat), hexEncode e.prevHash,
    hexEncode e.timestamp, hexEncode e.sourcePeer, hexEncode e.sourceIP, hexEncode e.requestedCapability,
    hexEncode e.targetResource, hexEncode e.result, hexEncode e.reason] ++ [0x7d])
  unmarshal line :=
    match (line.tail.dropLast.splitOn 0x2c).mapM KeyExchange.hexDecode with
    | some [sequence, prevHash, timestamp, peer, ip, capability, target, result, reason] =>
      .ok ⟨UInt64.ofNat (Lib.ofBE sequence), prevHash, timestamp, peer, ip, capability, target, result, reason⟩
    | _ => .error []

theorem plainJson_exact (e : AuditEntry) : plainJson.unmarshal (plainJson.marshal e) = .ok e := by
  have hhex : ∀ bs, (0x2c : UInt8) ∉ hexEncode bs := fun bs => KeyExchange.hexEncode_ne (by decide)
  have hseq : UInt64.ofNat (Lib.ofBE (Lib.toBE 8 e.sequence.toNat)) = e.sequence := by
    rw [Lib.ofBE_toBE_of_lt e.sequence.toNat_lt, UInt64.ofNat_toNat]
  simp only [plainJson, tail_cons, dropLast_concat]
  rw [splitOn_intercalate _ (by simp [hhex]) (by simp)]
  simp [hexDecode_hexEncode, hseq]

theorem plainJson_faithful : plainJson.Faithful where
  object e := ⟨_, rfl⟩
  oneLine e := by
    have hhex : ∀ bs, (0x0a : UInt8) ∉ hexEncode bs := fun bs => KeyExchange.hexEncode_ne (by decide)
    simp [plainJson, hhex]
  readBack e _ := ⟨e, plainJson_exact e, rfl, rfl⟩

/-- A digest that keeps the end of its input, padded to 32 bytes. -/
def suffixHash : Sha256 where
  sum256 data := (data.reverse ++ List.replicate 32 0).take 32
  size data := by simp

def blankEntry : AuditEntry := ⟨0, [], [], [], [], [], [], [], []⟩

/-- Four entries with a limit of 300 bytes: the third fills the file, the fourth starts a new one. -/
def rotatedOps : List AuditOp :=
  [.log blankEntry [0x31], .log blankEntry [0x32], .log blankEntry [0x33], .log blankEntry [0x34]]

set_option maxRecDepth 4000

/-- The fourth line carries the hash of the third, which is in the backup. -/
theorem rotated_log_rejected :
    verifyHashChain plainJson suffixHash
      ((AuditState.run plainJson suffixHash (.restart 300 2 :: rotatedOps)).dir 0) ≠ .ok () := by
  decide

theorem honest_log_verifies_two :
    verifyHashChain plainJson suffixHash
      ((AuditState.run plainJson suffixHash (.restart 300 2 :: rotatedOps.take 2)).dir 0) = .ok () :=
  (honest_log_verifies_iff plainJson suffixHash plainJson_faithful 300 2 _).mpr (.inl (by decide))

def twoLines : Bytes := ((AuditState.run plainJson suffixHash (.restart 300 2 :: rotatedOps.take 2)).dir 0).getD []

theorem verified_files_eq_blank : entryLines twoLines = entryLines (0x0a :: 0x20 :: (twoLines ++ [0x0d, 0x0a])) := by
  refine verified_files_eq plainJson suffixHash twoLines _ ?_ ?_ ?_ ?_
  · have hinj : ∀ line ∈ entryLines twoLines ++ entryLines (0x0a :: 0x20 :: (twoLines ++ [0x0d, 0x0a])),
        ∀ line' ∈ entryLines twoLines ++ entryLines (0x0a :: 0x20 :: (twoLines ++ [0x0d, 0x0a])),
          suffixHash.sum256 line = suffixHash.sum256 line' → line = line' := by decide
    intro line hline line' hline' heq
    exact hinj line (mem_append.mpr hline) line' (mem_append.mpr hline') heq
  · decide
  · decide
  · decide

end MeshDesk.Auth
