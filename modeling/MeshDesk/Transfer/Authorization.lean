import MeshDesk.Transfer.Receiver

/-! Who may write: the receiver asks for the peer that the header names and for no path. That is the decision
for the peer at the other end only when the header tells the truth and the peer's grant has no paths. -/
namespace MeshDesk.Transfer
open Proxy (Bytes GoString)
open Lib (FileTree)
open Auth (CapabilityEngine)

theorem readFrame_ok {data json rest : Bytes} (hok : readFrame data = .ok (json, rest)) :
    Lib.toBE 4 json.length ++ json ++ rest = data := by
  unfold readFrame at hok
  cases hpre : Lib.readFull 4 data with
  | error e => simp [hpre] at hok
  | ok r =>
    obtain ⟨pre, tail⟩ := r
    simp only [hpre] at hok
    split_ifs at hok
    cases hjson : Lib.readFull (Lib.ofBE pre) tail with
    | error e => simp [hjson] at hok
    | ok r =>
      obtain ⟨body, tail'⟩ := r
      simp only [hjson] at hok
      obtain ⟨rfl, rfl⟩ := Prod.mk.inj (Except.ok.inj hok)
      obtain ⟨hlen, hdata⟩ := Lib.readFull_ok hpre
      obtain ⟨hlen', htail⟩ := Lib.readFull_ok hjson
      have hback : Lib.toBE 4 body.length = pre := by rw [hlen', ← hlen, Lib.toBE_ofBE]
      rw [hback, hdata, htail, List.append_assoc]

theorem peekFileHeader_eq (h : Host) (input : Input) :
    peekFileHeader h input = match readHeader h input with
      | .error e => .error e
      | .ok (header, rest) => .ok (header, input.data.take (input.data.length - rest.data.length), rest) := by
  unfold peekFileHeader readHeader
  cases hframe : readFrame input.data with
  | error e => rfl
  | ok r =>
    obtain ⟨json, rest⟩ := r
    cases hparse : h.unmarshal json with
    | error err => simp only [hparse]
    | ok header =>
      have hdata := readFrame_ok hframe
      have hlen : input.data.length - rest.length = (Lib.toBE 4 json.length ++ json).length := by
        rw [← hdata, List.length_append, Nat.add_sub_cancel]
      simp only [hparse]
      rw [hlen, ← hdata, List.take_left]

variable {rest input : Input} {h : Host} {header : FileHeader}

theorem readHeader_rest (hok : readHeader h input = .ok (header, rest)) :
    rest.broken = input.broken ∧ ∃ pre, input.data = pre ++ rest.data := by
  unfold readHeader at hok
  cases hframe : readFrame input.data with
  | error e => simp [hframe] at hok
  | ok r =>
    obtain ⟨json, tail⟩ := r
    simp only [hframe] at hok
    cases hparse : h.unmarshal json with
    | error err => simp [hparse] at hok
    | ok found =>
      simp only [hparse] at hok
      cases hok
      exact ⟨rfl, _, (readFrame_ok hframe).symm⟩

/-- The receiver with a checker: the header decides who is asked for, then the whole connection is received. -/
theorem handleConn_eq (h : Host) (destDir : GoString) (maxFileSize : ℤ) (checker : Auth.TransferAuthChecker)
    (t : FileTree) (c : ConnWithPeer) :
    handleConn h ⟨destDir, maxFileSize, some checker⟩ t c = match readHeader h c.conn with
      | .error e => ⟨t, .refused (.header e)⟩
      | .ok (header, _) =>
        if checker.authorizeFileTransfer header.srcPeerID h.now then receiveWithMaxSize h t destDir maxFileSize c.conn
        else ⟨t, .refused .unauthorized⟩ := by
  simp only [handleConn, peekFileHeader_eq]
  cases hread : readHeader h c.conn with
  | error e => rfl
  | ok r =>
    obtain ⟨header, rest⟩ := r
    obtain ⟨hbroken, pre, hdata⟩ := readHeader_rest hread
    have hwhole : (⟨c.conn.data.take (c.conn.data.length - rest.data.length) ++ rest.data, rest.broken⟩ : Input) =
        c.conn := by
      rw [hbroken, hdata, List.length_append, Nat.add_sub_cancel, List.take_left, ← hdata]
    simp only [hwhole]

def destPath (destDir : GoString) (header : FileHeader) : GoString :=
  Lib.Paths.join destDir (sanitizeFilename header.filename)

/-- A transfer the protocol accepts: a readable header of this version, within the limit, with a usable name, followed
by the bytes it announces; and a host on which the directories and the file can be made. -/
structure WellFormed (h : Host) (destDir : GoString) (maxFileSize : ℤ) (t : FileTree) (input : Input)
    (header : FileHeader) (rest : Input) : Prop where
  parsed : readHeader h input = .ok (header, rest)
  version : header.version = protocolVersion
  limit : maxFileSize ≤ 0 ∨ header.size ≤ maxFileSize
  name : sanitizeFilename header.filename ≠ []
  mkdir : (t.mkdirAllPath h.cwd destDir 0o755 h.now).err = none
  directory : header.fileType = fileTypeDirectory →
    ((t.mkdirAllPath h.cwd destDir 0o755 h.now).tree.mkdirAllPath h.cwd (destPath destDir header) header.mode h.now).err =
      none
  file : header.fileType ≠ fileTypeDirectory →
    ((t.mkdirAllPath h.cwd destDir 0o755 h.now).tree.create (FileTree.origin h.cwd (destPath destDir header))
      (Lib.Paths.components (destPath destDir header)) header.mode h.now (rest.data.take header.size.toNat)).isOk = true
  size : header.fileType ≠ fileTypeDirectory → 0 ≤ header.size ∧ header.size ≤ rest.data.length
  checksum : header.fileType ≠ fileTypeDirectory → header.checksum = [] ∨
    header.checksum = Auth.hashEntry h.sha256 (rest.data.take header.size.toNat)

theorem WellFormed.receiveFile_ok {destDir : GoString} {maxFileSize : ℤ} {t : FileTree}
    (hw : WellFormed h destDir maxFileSize t input header rest)
    (htype : header.fileType ≠ fileTypeDirectory) :
    (receiveFile h (t.mkdirAllPath h.cwd destDir 0o755 h.now).tree (destPath destDir header) header rest).reply.ok = true := by
  obtain ⟨⟨t', p⟩, hcreate⟩ := Lib.exists_ok_of_isOk (hw.file htype)
  obtain ⟨hpos, hle⟩ := hw.size htype
  have hlen : ((rest.data.take header.size.toNat).length : ℤ) = header.size := by
    rw [List.length_take]
    omega
  have hsum : ¬ (header.checksum ≠ [] ∧
      Auth.hashEntry h.sha256 (rest.data.take header.size.toNat) ≠ header.checksum) := by
    rintro ⟨hne, hdiff⟩
    rcases hw.checksum htype with hnil | heq
    · exact hne hnil
    · exact hdiff heq.symm
  simp only [receiveFile, hcreate]
  rw [if_neg (by omega), if_neg (by omega), if_neg hsum]
  rfl

theorem WellFormed.receive_ok {destDir : GoString} {maxFileSize : ℤ} {t : FileTree}
    (hw : WellFormed h destDir maxFileSize t input header rest) :
    (receiveWithMaxSize h t destDir maxFileSize input).reply.ok = true := by
  have hlimit : ¬ (0 < maxFileSize ∧ maxFileSize < header.size) := by
    have := hw.limit
    omega
  simp only [receiveWithMaxSize, hw.parsed, hw.version, ne_eq, not_true_eq_false, if_false, hw.name, hw.mkdir]
  split_ifs with htype
  · have hmade := hw.directory htype
    simp only [destPath] at hmade
    simp only [receiveDirectory, hmade]
    rfl
  · exact hw.receiveFile_ok htype

def dataDir : GoString := [0x2f, 0x64, 0x61, 0x74, 0x61]

/-- `a` may transfer anything, `b` may transfer to `/data`, nobody else has a grant. -/
def twoGrants : CapabilityEngine where
  grants := (((∅ : Lib.Map GoString Auth.PeerGrant).insert [0x61] ⟨[.fileTransfer], [], [], []⟩)).insert [0x62]
    ⟨[.fileTransfer], [], [dataDir], []⟩
  revoked := []

def namedHeader (peer : UInt8) : FileHeader where
  version := 1
  filename := [0x66]
  size := 2
  mode := 0o644
  fileType := fileTypeRegular
  modTime := []
  checksum := []
  srcPeerID := [peer]

def plainHost : Host where
  unmarshal json := match json with
    | [peer] => .ok (namedHeader peer)
    | _ => .error []
  sha256 := ⟨fun _ => List.replicate 32 0, fun _ => List.length_replicate⟩
  parseTime _ := none
  cwd := []
  now := 0

/-- The file `f` with two bytes, sent by `sender` under the name `named`. -/
def sendAs (sender named : UInt8) : ConnWithPeer := ⟨⟨[0, 0, 0, 1, named, 0x68, 0x69], false⟩, [sender]⟩

theorem truthful_wellFormed :
    WellFormed plainHost dataDir 0 .empty (sendAs 0x61 0x61).conn (namedHeader 0x61) ⟨[0x68, 0x69], false⟩ := by
  constructor <;> decide

end MeshDesk.Transfer
