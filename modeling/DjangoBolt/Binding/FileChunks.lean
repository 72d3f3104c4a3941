import DjangoBolt.Binding.UploadConstraints

open Python

namespace DjangoBolt.Binding

-- temporary files can be made and written
structure TempFiles.Writable (tmp : TempFiles) : Prop where
  create : tmp.create = none
  write : ∀ data, tmp.write data = none

def FileContent.inMemory : FileContent → Bool
  | memory _ => true
  | disk _ => false

-- the size at which the chunks first go over the limit
def overflow (maxSize : Nat) : Nat → List Bytes → Option Nat
  | _, [] => none
  | size, data :: chunks =>
      if maxSize < size + data.length then some (size + data.length)
      else overflow maxSize (size + data.length) chunks

theorem overflow_none_iff {maxSize size : Nat} {chunks : List Bytes} (h : size ≤ maxSize) :
    overflow maxSize size chunks = none ↔ size + chunks.flatten.length ≤ maxSize := by
  induction chunks generalizing size with
  | nil => simpa [overflow] using h
  | cons data chunks ih =>
    rw [overflow, List.flatten_cons, List.length_append, ← Nat.add_assoc]
    split
    · simp only [reduceCtorEq, false_iff]
      omega
    · exact ih (by omega)

theorem overflow_some {maxSize size excess : Nat} {chunks : List Bytes} (h : size ≤ maxSize)
    (hover : overflow maxSize size chunks = some excess) :
    ∃ before data after, chunks = before ++ data :: after ∧
      size + before.flatten.length ≤ maxSize ∧
      excess = size + (before ++ [data]).flatten.length ∧ maxSize < excess := by
  induction chunks generalizing size with
  | nil => cases hover
  | cons data chunks ih =>
    rw [overflow] at hover
    split at hover
    · cases hover
      exact ⟨[], data, chunks, rfl, h, by simp, by assumption⟩
    · obtain ⟨before, last, after, rfl, hbefore, hlast, hmax⟩ := ih (by omega) hover
      refine ⟨data :: before, last, after, rfl, ?_, ?_, hmax⟩
      · rw [List.flatten_cons, List.length_append]
        omega
      · rw [hlast, List.cons_append, List.flatten_cons, List.length_append]
        omega

section

variable {tmp : TempFiles} (limits : FormLimits)

-- the bytes read so far decide the state of the reader
def Reading.after (read : Bytes) : Reading :=
  if read.length ≤ limits.memoryLimit then ⟨read.length, read, none⟩
  else ⟨read.length, [], some read⟩

def FileInfo.of (filename contentType : String) (bytes : Bytes) : FileInfo where
  filename := filename
  content := if bytes.length ≤ limits.memoryLimit then .memory bytes else .disk bytes
  contentType := contentType
  size := bytes.length

theorem TempFiles.Writable.writeTemp (h : tmp.Writable) (written data : Bytes) :
    Binding.writeTemp tmp written data = .ok (written ++ data) := by
  rw [Binding.writeTemp, h.write]

theorem TempFiles.Writable.spool (h : tmp.Writable) (size : Nat) (buffer data : Bytes) :
    Binding.spool tmp size buffer data = .ok ⟨size, [], some (buffer ++ data)⟩ := by
  simp only [Binding.spool, h.create, h.writeTemp, List.nil_append]

theorem readChunk_after (h : tmp.Writable) (fieldName : String) (read data : Bytes) :
    readChunk tmp limits fieldName (.after limits read) data =
      if limits.maxUploadSize < read.length + data.length then
        .error (fileTooLarge fieldName limits.maxUploadSize (read.length + data.length))
      else .ok (.after limits (read ++ data)) := by
  have hsize : (Reading.after limits read).size = read.length := by
    rw [Reading.after]
    split <;> rfl
  simp only [readChunk, hsize]
  split
  · rfl
  · rw [Reading.after, Reading.after, List.length_append]
    by_cases hread : read.length ≤ limits.memoryLimit
    · simp only [hread, if_true]
      split
      · rfl
      · rw [h.spool]
    · -- the file was spooled before, and stays there
      have hboth : ¬read.length + data.length ≤ limits.memoryLimit := by omega
      simp only [hread, hboth, if_false, h.writeTemp]

theorem readChunks_after (h : tmp.Writable) (fieldName : String) (chunks : List Bytes)
    (read : Bytes) :
    readChunks tmp limits fieldName (chunks.map .ok) (.after limits read) =
      match overflow limits.maxUploadSize read.length chunks with
      | some size => .error (fileTooLarge fieldName limits.maxUploadSize size)
      | none => .ok (.after limits (read ++ chunks.flatten)) := by
  induction chunks generalizing read with
  | nil => rw [List.flatten_nil, List.append_nil]; rfl
  | cons data chunks ih =>
    rw [List.map_cons, readChunks, readChunk_after limits h, overflow]
    by_cases hover : limits.maxUploadSize < read.length + data.length
    · simp only [hover, if_true]
    · simp only [hover, if_false, ih, List.length_append, List.flatten_cons, List.append_assoc]

theorem readFileContent_eq (h : tmp.Writable) (fieldName filename contentType : String)
    (chunks : List Bytes) :
    readFileContent tmp limits fieldName filename contentType (chunks.map .ok) =
      match overflow limits.maxUploadSize 0 chunks with
      | some size => .error (fileTooLarge fieldName limits.maxUploadSize size)
      | none => .ok (.of limits filename contentType chunks.flatten) := by
  have hstart : (⟨0, [], none⟩ : Reading) = .after limits [] :=
    (if_pos (Nat.zero_le limits.memoryLimit)).symm
  rw [readFileContent, hstart, readChunks_after limits h, List.length_nil]
  cases overflow limits.maxUploadSize 0 chunks with
  | some size => rfl
  | none =>
    simp only [List.nil_append, Reading.after, FileInfo.of]
    by_cases hmemory : chunks.flatten.length ≤ limits.memoryLimit
    · simp only [hmemory, if_true]
    · simp only [hmemory, if_false]

end

theorem readFileContent_chunks {tmp : TempFiles} (h : tmp.Writable) (limits : FormLimits)
    (fieldName filename contentType : String) (chunks : List Bytes) :
    let read := fun cs : List Bytes =>
      readFileContent tmp limits fieldName filename contentType (cs.map .ok)
    ((∃ file, read chunks = .ok file) ↔ chunks.flatten.length ≤ limits.maxUploadSize) ∧
      (∀ file, read chunks = .ok file →
        file.content.bytes = chunks.flatten ∧ file.size = chunks.flatten.length ∧
          (file.content.inMemory = true ↔ chunks.flatten.length ≤ limits.memoryLimit)) ∧
      (∀ e, read chunks = .error e → ∃ before data after, chunks = before ++ data :: after ∧
        before.flatten.length ≤ limits.maxUploadSize ∧
        limits.maxUploadSize < (before ++ [data]).flatten.length ∧
        e = fileTooLarge fieldName limits.maxUploadSize (before ++ [data]).flatten.length) ∧
      ∀ others : List Bytes, others.flatten = chunks.flatten →
        ∀ file, read others = .ok file ↔ read chunks = .ok file := by
  intro read
  have hread : ∀ cs, read cs = _ := fun cs =>
    readFileContent_eq limits h fieldName filename contentType cs
  have hok : ∀ cs file, read cs = .ok file ↔ cs.flatten.length ≤ limits.maxUploadSize ∧
      FileInfo.of limits filename contentType cs.flatten = file := by
    intro cs file
    have hnone : overflow limits.maxUploadSize 0 cs = none ↔
        0 + cs.flatten.length ≤ limits.maxUploadSize := overflow_none_iff (Nat.zero_le _)
    rw [Nat.zero_add] at hnone
    rw [hread, ← hnone]
    cases overflow limits.maxUploadSize 0 cs <;> simp
  refine ⟨?_, ?_, ?_, ?_⟩
  · simp [hok]
  · intro file hfile
    obtain ⟨-, rfl⟩ := (hok chunks file).mp hfile
    rw [FileInfo.of]
    refine ⟨?_, rfl, ?_⟩
    · simp only
      split <;> rfl
    · simp only
      split <;> simp_all [FileContent.inMemory]
  · intro e he
    rw [hread] at he
    cases hover : overflow limits.maxUploadSize 0 chunks with
    | none =>
      rw [hover] at he
      cases he
    | some size =>
      rw [hover] at he
      obtain ⟨before, data, after, hsplit, hbefore, hsize, hmax⟩ :=
        overflow_some (Nat.zero_le _) hover
      rw [Nat.zero_add] at hbefore hsize
      subst hsize
      exact ⟨before, data, after, hsplit, hbefore, hmax, (Except.error.inj he).symm⟩
  · intro others hothers file
    rw [hok, hok, hothers]

def memoryOnly : TempFiles := ⟨none, fun _ => none⟩

theorem memoryOnly_chunks :
    ∃ file, readFileContent memoryOnly ⟨3, 1, 1, 1⟩ "doc" "a.txt" "text/plain"
      ([[97], [], [98, 99]].map .ok) = .ok file :=
  (readFileContent_chunks ⟨rfl, fun _ => rfl⟩ ⟨3, 1, 1, 1⟩ "doc" "a.txt"
    "text/plain" [[97], [], [98, 99]]).1.mpr (by decide)

-- two bytes over a limit of none: the size in the error is that of the first chunk
theorem error_follows_chunks :
    ([[97], [98]] : List Bytes).flatten = [[97, 98]].flatten ∧
      readFileContent memoryOnly ⟨0, 0, 1, 1⟩ "doc" "a.txt" "text/plain"
          ([[97], [98]].map .ok) ≠
        readFileContent memoryOnly ⟨0, 0, 1, 1⟩ "doc" "a.txt" "text/plain"
          ([[97, 98]].map .ok) := by
  refine ⟨rfl, fun h => ?_⟩
  have hctx := congrArg PartError.ctx (Except.error.inj h)
  simp [fileTooLarge] at hctx

end DjangoBolt.Binding
