import MeshDesk.Lib.FileWalk
import MeshDesk.Mesh.FileServer

/-! A message and the bytes that follow it share a stream. How many bytes the decoder of the message takes depends on
the reads; what it takes beyond the message is lost, and the line end after the message is left if it stops before. -/
namespace MeshDesk.Mesh
open Proxy (Bytes GoString)
open Lib (FileTree Place Node)

/-- A write request and the answer to a read, as they are encoded, without the line end. -/
structure FileJson where
  request : FileRequest → Bytes
  response : ℕ → Bytes

section
variable (J : FileJson) (cfg : FileServerConfig) (cwd : Place) (t : FileTree) (path : GoString) (now : ℤ)

/-- The stream after the decoder has taken `n` bytes. -/
def leftOver (value payload : Bytes) (n : ℕ) : Bytes := (value ++ 0x0a :: payload).drop n

def sendWrite (size : ℕ) (payload : Bytes) (n : ℕ) : Handled :=
  handle cfg cwd t (.ok ⟨.write, path, size⟩) ⟨leftOver (J.request ⟨.write, path, size⟩) payload n, false⟩ now

/-- `handleFileCopy` after the answer of the source: the decoder takes `m` bytes of it. A stream that is too short
fails here and at the destination. -/
def fileCopy (answer : FileResponse) (m n : ℕ) : Handled :=
  match answer with
  | .content data =>
    sendWrite J cfg cwd t path now data.length ((leftOver (J.response data.length) data m).take data.length) n
  | answer => ⟨t, answer, []⟩

/-- The path or the file system refuses the write, or the payload is in the file. -/
def RefusedOrStored (payload : Bytes) (h : Handled) : Prop :=
  (∃ e, resolvePath cfg cwd t path = .error e) ∨ (∃ e, h.response = .error (.os e)) ∨
    h.response = .written payload.length ∧ ∃ p mode mtime, (.write, p) ∈ h.touched ∧
      h.tree.node p = some (.file payload mode mtime)

end

variable {J : FileJson} {cfg : FileServerConfig} {cwd : Place} {t : FileTree} {path : GoString} {now : ℤ}
  {payload : Bytes}

theorem leftOver_exact (value : Bytes) : leftOver value payload (value.length + 1) = payload := by
  simp [leftOver, List.drop_append]

theorem refusedOrStored_sendWrite
    (hmax : payload.length ≤ if cfg.maxWriteSize = 0 then defaultMaxWriteSize else cfg.maxWriteSize) :
    RefusedOrStored cfg cwd t path payload (sendWrite J cfg cwd t path now payload.length payload
      ((J.request ⟨.write, path, payload.length⟩).length + 1)) := by
  rw [sendWrite, leftOver_exact, RefusedOrStored, handle]
  cases hres : resolvePath cfg cwd t path with
  | error e => exact .inl ⟨e, rfl⟩
  | ok resolved =>
    refine .inr ?_
    simp only [serveWrite, if_neg (not_or.mpr ⟨(Int.natCast_nonneg _).not_gt, hmax.not_gt⟩), Int.toNat_natCast,
      List.take_length]
    cases hmade : (t.mkdirAllPath [] (Lib.Paths.dir resolved) 0o755 now).err with
    | some e => exact .inl ⟨e, rfl⟩
    | none =>
      cases hcreate : (t.mkdirAllPath [] (Lib.Paths.dir resolved) 0o755 now).tree.create []
        (Lib.Paths.components resolved) 0o666 now payload with
      | error e => exact .inl ⟨e, rfl⟩
      | ok r =>
        obtain ⟨t', p⟩ := r
        obtain ⟨-, hparent, hp, mode, rfl⟩ := Lib.FileTree.create_eq_ok hcreate
        refine .inr ⟨by simp, p, mode, now, ?_, (Lib.FileTree.node_set hparent hp p).trans (if_pos rfl)⟩
        exact List.mem_append_right _ List.mem_cons_self

/-- Messages of two bytes. -/
def shortJson : FileJson := ⟨fun _ => [0x7b, 0x7d], fun _ => [0x7b, 0x7d]⟩

end MeshDesk.Mesh
